import BasicLang.Text.Case

set_option autoImplicit false

namespace BasicLang

structure Locus where
  line : Nat
  column : Nat
deriving Repr, DecidableEq

instance : Inhabited Locus := ⟨⟨1, 1⟩⟩

namespace Locus

def start : Locus := ⟨1, 1⟩

def text (locus : Locus) : String := toString locus.line ++ ":" ++ toString locus.column

def after (locus : Locus) (char : Char) : Locus :=
  if char = '\n' then ⟨locus.line + 1, 1⟩ else ⟨locus.line, locus.column + char.utf8Size⟩

end Locus

/-- Where an offset stands in a table: at an entry, or else in front of the first one that is greater. -/
inductive Searched where
  | found (index : Nat)
  | missing (next : Nat)
deriving Repr, DecidableEq

structure LineIndex where
  starts : Array Nat

namespace LineIndex

def lineFeed : UInt8 := 10

def ofSource (source : String) : LineIndex :=
  ⟨(0 :: (source.toUTF8.data.toList.zipIdx.filter (·.1 == lineFeed)).map (·.2 + 1)).toArray⟩

def search (starts : Array Nat) (offset low high : Nat) (within : high ≤ starts.size) : Searched :=
  if more : low < high then
    let middle := low + (high - low) / 2
    have inside : middle < starts.size := by omega
    if starts[middle] = offset then .found middle
    else if starts[middle] < offset then search starts offset (middle + 1) high within
    else search starts offset low middle (Nat.le_of_lt inside)
  else .missing low
termination_by high - low

def difference? (number less : Nat) : Option Nat := if less ≤ number then some (number - less) else none

/-- The line of an offset, counted from zero: the one that starts there, or the one before the next. -/
def line? (index : LineIndex) (offset : Nat) : Option Nat :=
  match search index.starts offset 0 index.starts.size (Nat.le_refl _) with
  | .found line => some line
  | .missing next => difference? next 1

def sum? (number more : Nat) : Option Nat := if number + more < UInt64.size then some (number + more) else none

def locus? (index : LineIndex) (offset : Nat) : Option Locus := do
  let line ← index.line? offset
  let start ← index.starts[line]?
  let distance ← difference? offset start
  let column ← sum? distance 1
  return ⟨line + 1, column⟩

end LineIndex

inductive Keyword where
  | IF
  | THEN
  | ELSE
  | ELSEIF
  | END
  | FOR
  | TO
  | STEP
  | NEXT
  | WHILE
  | WEND
  | DO
  | LOOP
  | UNTIL
  | SELECT
  | CASE
  | IS
  | GOTO
  | GOSUB
  | RETURN
  | EXIT
  | ON
  | EVENT
  | CALL
  | DIM
  | REDIM
  | PRESERVE
  | AS
  | SHARED
  | CONST
  | TYPE
  | DECLARE
  | SUB
  | FUNCTION
  | LET
  | DEFINT
  | DEFLNG
  | DEFSNG
  | DEFDBL
  | DEFSTR
  | INTEGER
  | LONG
  | SINGLE
  | DOUBLE
  | STRING
  | JSON
  | ANY
  | PRINT
  | USING
  | INPUT
  | LINE
  | OPEN
  | OUTPUT
  | APPEND
  | CLOSE
  | WRITE
  | READ
  | DATA
  | RESTORE
  | CLS
  | LOCATE
  | COLOR
  | BEEP
  | SLEEP
  | RANDOMIZE
  | PLAY
  | SOUND
  | SWAP
  | AND
  | OR
  | NOT
  | XOR
  | EQV
  | IMP
  | MOD
deriving Repr, DecidableEq

inductive Symbol where
  | plus
  | minus
  | star
  | slash
  | backslash
  | caret
  | equals
  | notEquals
  | notEqualsLegacy
  | lessThan
  | greaterThan
  | lessEquals
  | lessEqualsLegacy
  | greaterEquals
  | greaterEqualsLegacy
  | leftParen
  | rightParen
  | comma
  | semicolon
  | colon
  | dot
  | hash
deriving Repr, DecidableEq

inductive TokenKind where
  | keyword (keyword : Keyword)
  | symbol (symbol : Symbol)
  | integerLiteral
  | hexLiteral
  | octalLiteral
  | binaryLiteral
  | floatLiteral
  | stringLiteral
  | identifier
  | comment
  | remComment
  | newline
deriving Repr, DecidableEq

structure Token where
  kind : TokenKind
  text : String
  start : Nat
  stop : Nat
  locus : Locus
deriving Repr, DecidableEq

namespace Keyword

def all : List Keyword := [
  .IF, .THEN, .ELSE, .ELSEIF, .END, .FOR, .TO, .STEP, .NEXT, .WHILE, .WEND, .DO, .LOOP, .UNTIL,
  .SELECT, .CASE, .IS, .GOTO, .GOSUB, .RETURN, .EXIT, .ON, .EVENT, .CALL, .DIM, .REDIM, .PRESERVE,
  .AS, .SHARED, .CONST, .TYPE, .DECLARE, .SUB, .FUNCTION, .LET, .DEFINT, .DEFLNG, .DEFSNG,
  .DEFDBL, .DEFSTR, .INTEGER, .LONG, .SINGLE, .DOUBLE, .STRING, .JSON, .ANY, .PRINT, .USING,
  .INPUT, .LINE, .OPEN, .OUTPUT, .APPEND, .CLOSE, .WRITE, .READ, .DATA, .RESTORE, .CLS, .LOCATE,
  .COLOR, .BEEP, .SLEEP, .RANDOMIZE, .PLAY, .SOUND, .SWAP, .AND, .OR, .NOT, .XOR, .EQV, .IMP, .MOD]

def spelling : Keyword → String
  | .IF => "IF"
  | .THEN => "THEN"
  | .ELSE => "ELSE"
  | .ELSEIF => "ELSEIF"
  | .END => "END"
  | .FOR => "FOR"
  | .TO => "TO"
  | .STEP => "STEP"
  | .NEXT => "NEXT"
  | .WHILE => "WHILE"
  | .WEND => "WEND"
  | .DO => "DO"
  | .LOOP => "LOOP"
  | .UNTIL => "UNTIL"
  | .SELECT => "SELECT"
  | .CASE => "CASE"
  | .IS => "IS"
  | .GOTO => "GOTO"
  | .GOSUB => "GOSUB"
  | .RETURN => "RETURN"
  | .EXIT => "EXIT"
  | .ON => "ON"
  | .EVENT => "EVENT"
  | .CALL => "CALL"
  | .DIM => "DIM"
  | .REDIM => "REDIM"
  | .PRESERVE => "PRESERVE"
  | .AS => "AS"
  | .SHARED => "SHARED"
  | .CONST => "CONST"
  | .TYPE => "TYPE"
  | .DECLARE => "DECLARE"
  | .SUB => "SUB"
  | .FUNCTION => "FUNCTION"
  | .LET => "LET"
  | .DEFINT => "DEFINT"
  | .DEFLNG => "DEFLNG"
  | .DEFSNG => "DEFSNG"
  | .DEFDBL => "DEFDBL"
  | .DEFSTR => "DEFSTR"
  | .INTEGER => "INTEGER"
  | .LONG => "LONG"
  | .SINGLE => "SINGLE"
  | .DOUBLE => "DOUBLE"
  | .STRING => "STRING"
  | .JSON => "JSON"
  | .ANY => "ANY"
  | .PRINT => "PRINT"
  | .USING => "USING"
  | .INPUT => "INPUT"
  | .LINE => "LINE"
  | .OPEN => "OPEN"
  | .OUTPUT => "OUTPUT"
  | .APPEND => "APPEND"
  | .CLOSE => "CLOSE"
  | .WRITE => "WRITE"
  | .READ => "READ"
  | .DATA => "DATA"
  | .RESTORE => "RESTORE"
  | .CLS => "CLS"
  | .LOCATE => "LOCATE"
  | .COLOR => "COLOR"
  | .BEEP => "BEEP"
  | .SLEEP => "SLEEP"
  | .RANDOMIZE => "RANDOMIZE"
  | .PLAY => "PLAY"
  | .SOUND => "SOUND"
  | .SWAP => "SWAP"
  | .AND => "AND"
  | .OR => "OR"
  | .NOT => "NOT"
  | .XOR => "XOR"
  | .EQV => "EQV"
  | .IMP => "IMP"
  | .MOD => "MOD"

def ofWord? (word : String) : Option Keyword :=
  all.find? fun keyword => keyword.spelling == Text.upperAscii word

def title : Keyword → String
  | .ELSEIF => "ElseIf"
  | .DEFINT => "DefInt"
  | .DEFLNG => "DefLng"
  | .DEFSNG => "DefSng"
  | .DEFDBL => "DefDbl"
  | .DEFSTR => "DefStr"
  | .STRING => "String_"
  | keyword => keyword.spelling.toLower.capitalize

def isBuiltinStatement : Keyword → Bool
  | .CLS | .LOCATE | .COLOR | .BEEP | .SLEEP | .RANDOMIZE | .PLAY | .SOUND | .SWAP => true
  | _ => false

end Keyword

namespace Symbol

def all : List Symbol := [
  .plus, .minus, .star, .slash, .backslash, .caret, .equals, .notEquals, .notEqualsLegacy,
  .lessThan, .greaterThan, .lessEquals, .lessEqualsLegacy, .greaterEquals, .greaterEqualsLegacy,
  .leftParen, .rightParen, .comma, .semicolon, .colon, .dot, .hash]

def spelling : Symbol → String
  | .plus => "+"
  | .minus => "-"
  | .star => "*"
  | .slash => "/"
  | .backslash => "\\"
  | .caret => "^"
  | .equals => "="
  | .notEquals => "<>"
  | .notEqualsLegacy => "><"
  | .lessThan => "<"
  | .greaterThan => ">"
  | .lessEquals => "<="
  | .lessEqualsLegacy => "=<"
  | .greaterEquals => ">="
  | .greaterEqualsLegacy => "=>"
  | .leftParen => "("
  | .rightParen => ")"
  | .comma => ","
  | .semicolon => ";"
  | .colon => ":"
  | .dot => "."
  | .hash => "#"

def longest? (chars : List Char) : Option Symbol :=
  let found (length : Nat) : Option Symbol :=
    all.find? fun symbol =>
      symbol.spelling.length == length && symbol.spelling.toList.isPrefixOf chars
  found 2 <|> found 1

def title : Symbol → String
  | .plus => "Plus"
  | .minus => "Minus"
  | .star => "Star"
  | .slash => "Slash"
  | .backslash => "Backslash"
  | .caret => "Caret"
  | .equals => "Equals"
  | .notEquals => "NotEquals"
  | .notEqualsLegacy => "NotEqualsLegacy"
  | .lessThan => "LessThan"
  | .greaterThan => "GreaterThan"
  | .lessEquals => "LessEquals"
  | .lessEqualsLegacy => "LessEqualsLegacy"
  | .greaterEquals => "GreaterEquals"
  | .greaterEqualsLegacy => "GreaterEqualsLegacy"
  | .leftParen => "LeftParen"
  | .rightParen => "RightParen"
  | .comma => "Comma"
  | .semicolon => "Semicolon"
  | .colon => "Colon"
  | .dot => "Dot"
  | .hash => "Hash"

end Symbol

namespace TokenKind

def title : TokenKind → String
  | .keyword word => word.title
  | .symbol sign => sign.title
  | .integerLiteral => "IntegerLiteral"
  | .hexLiteral => "HexLiteral"
  | .octalLiteral => "OctalLiteral"
  | .binaryLiteral => "BinaryLiteral"
  | .floatLiteral => "FloatLiteral"
  | .stringLiteral => "StringLiteral"
  | .identifier => "Identifier"
  | .comment => "Comment"
  | .remComment => "RemComment"
  | .newline => "Newline"

/-- How messages name a kind of token: the commonest keywords and symbols as they are written. -/
def description : TokenKind → String
  | .keyword word =>
    if word ∈ [.IF, .THEN, .ELSE, .ELSEIF, .END, .FOR, .TO, .NEXT, .WEND, .LOOP, .CASE, .AS,
        .PRINT] then
      word.spelling
    else word.title
  | .symbol sign =>
    if sign ∈ [.plus, .minus, .equals, .leftParen, .rightParen, .comma, .colon, .hash] then
      sign.spelling
    else sign.title
  | .newline => "end of line"
  | kind => kind.title

end TokenKind

end BasicLang
