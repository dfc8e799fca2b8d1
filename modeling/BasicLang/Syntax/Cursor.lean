import BasicLang.Syntax.Stmt

set_option autoImplicit false

namespace BasicLang

inductive ParseErrorKind where
  | unexpectedToken (expected found : String)
  | unexpectedEnd (expected : String)
  | integerOverflow
  | longOverflow
  | radixOverflow
  | missingEndIf
  | missingNext
  | missingWend
  | missingLoop
  | missingEndSelect
  | missingEndSub
  | missingEndFunction
  | missingEndType
  | nestedDefinition (keyword : String)
  | unexpectedStart (found : String)
  | invalidLetterRange (first last : Char)
  | notALetter (found : String)
  | endWithoutBlock (keyword : String)
  | twoLoopConditions
  | outOfSteps
deriving Repr, DecidableEq

structure ParseError where
  kind : ParseErrorKind
  locus : Locus
deriving Repr, DecidableEq

def ParseErrorKind.title : ParseErrorKind → String
  | .unexpectedToken _ _ => "UnexpectedToken"
  | .unexpectedEnd _ => "UnexpectedEof"
  | .integerOverflow | .longOverflow | .radixOverflow => "InvalidNumber"
  | .missingEndIf => "MissingEndIf"
  | .missingNext => "MissingNext"
  | .missingWend => "MissingWend"
  | .missingLoop => "MissingLoop"
  | .missingEndSelect => "MissingEndSelect"
  | .missingEndSub => "MissingEndSub"
  | .missingEndFunction => "MissingEndFunction"
  | .missingEndType => "MissingEndType"
  | _ => "SyntaxError"

def ParseErrorKind.message : ParseErrorKind → String
  | .unexpectedToken expected found => "expected " ++ expected ++ ", found " ++ found
  | .unexpectedEnd expected => "unexpected end of file, expected " ++ expected
  | .integerOverflow => "invalid number: overflow: value does not fit INTEGER"
  | .longOverflow => "invalid number: overflow: value does not fit LONG"
  | .radixOverflow =>
    "invalid number: invalid radix literal: number too large to fit in target type"
  | .missingEndIf => "missing END IF"
  | .missingNext => "missing NEXT for FOR loop"
  | .missingWend => "missing WEND for WHILE loop"
  | .missingLoop => "missing LOOP for DO"
  | .missingEndSelect => "missing END SELECT"
  | .missingEndSub => "missing END SUB"
  | .missingEndFunction => "missing END FUNCTION"
  | .missingEndType => "missing END TYPE"
  | .nestedDefinition keyword => keyword ++ " definitions are only allowed at module level"
  | .unexpectedStart found => "unexpected " ++ found ++ " at start of statement"
  | .invalidLetterRange first last =>
    "invalid letter range " ++ first.toString ++ "-" ++ last.toString
  | .notALetter found => "expected a letter, found " ++ found
  | .endWithoutBlock keyword => "END " ++ keyword ++ " without matching block"
  | .twoLoopConditions => "DO loop cannot have both a pre-condition and a post-condition"
  | .outOfSteps => "out of steps"

def ParseError.message (error : ParseError) : String := error.kind.message

structure Cursor where
  previous : Option Token
  rest : List Token
  last : Locus
  errors : List ParseError

def Cursor.ofTokens (tokens : List Token) : Cursor :=
  { previous := none
    rest := tokens
    last := (tokens.getLast?.map Token.locus).getD .start
    errors := [] }

abbrev Reader (α : Type) := OptionT (StateM Cursor) α

namespace Cursor

def kind? (cursor : Cursor) : Option TokenKind := cursor.rest.head?.map Token.kind

def isAt (cursor : Cursor) (kind : TokenKind) : Bool := cursor.kind? == some kind

def isAtKeyword (cursor : Cursor) (keyword : Keyword) : Bool := cursor.isAt (.keyword keyword)

def isAtSymbol (cursor : Cursor) (symbol : Symbol) : Bool := cursor.isAt (.symbol symbol)

def isAtEnd (cursor : Cursor) (keyword : Keyword) : Bool :=
  match cursor.rest with
  | first :: second :: _ => first.kind == .keyword .END && second.kind == .keyword keyword
  | _ => false

/-- Whether a statement can end here: at a separator, a comment, the `ELSE` of a one-line
conditional, or the end. -/
def isAtStatementEnd (cursor : Cursor) : Bool :=
  match cursor.kind? with
  | none => true
  | some kind =>
    kind ∈ [.newline, .symbol .colon, .comment, .remComment, .keyword .ELSE]

def isAtLineStart (cursor : Cursor) : Bool :=
  match cursor.previous with
  | none => true
  | some token => token.kind == .newline

def locus (cursor : Cursor) : Locus :=
  match cursor.rest with
  | token :: _ => token.locus
  | [] => cursor.last

def advance (cursor : Cursor) : Cursor :=
  match cursor.rest with
  | token :: rest => { cursor with previous := some token, rest }
  | [] => cursor

def skipWhile (cursor : Cursor) (skip : TokenKind → Bool) : Cursor :=
  { cursor with
    previous := (cursor.rest.takeWhile fun token => skip token.kind).getLast? <|> cursor.previous
    rest := cursor.rest.dropWhile fun token => skip token.kind }

def record (cursor : Cursor) (error : ParseError) : Cursor :=
  { cursor with errors := error :: cursor.errors }

def recordExpected (cursor : Cursor) (expected : String) : Cursor :=
  match cursor.rest with
  | token :: _ =>
    cursor.record ⟨.unexpectedToken expected token.kind.description, token.locus⟩
  | [] => cursor.record ⟨.unexpectedEnd expected, cursor.last⟩

def isRecoveryPoint : TokenKind → Bool
  | .keyword keyword =>
    keyword ∈ [.PRINT, .IF, .FOR, .WHILE, .DO, .DIM, .LET, .SUB, .FUNCTION, .SELECT, .CASE, .NEXT,
      .WEND, .LOOP, .END]
  | _ => false

/-- The tokens from the next line, or the next keyword that starts or ends a statement, and the
token before them. -/
def recoverFrom (previous : Option Token) : List Token → Option Token × List Token
  | [] => (previous, [])
  | token :: rest =>
    if previous.any (·.kind == .newline) || isRecoveryPoint token.kind then
      (previous, token :: rest)
    else recoverFrom (some token) rest

def synchronize (cursor : Cursor) : Cursor :=
  let after := cursor.advance
  let (previous, rest) := recoverFrom after.previous after.rest
  { after with previous, rest }

end Cursor

namespace Reader

def fail {α : Type} (kind : ParseErrorKind) (locus : Locus) : Reader α := do
  modify (·.record ⟨kind, locus⟩)
  failure

def failExpected {α : Type} (expected : String) : Reader α := do
  modify (·.recordExpected expected)
  failure

def outOfSteps {α : Type} : Reader α := do fail .outOfSteps (← get).locus

def advance : Reader Unit := modify Cursor.advance

def isAtKeyword (keyword : Keyword) : Reader Bool := return (← get).isAtKeyword keyword

def isAtSymbol (symbol : Symbol) : Reader Bool := return (← get).isAtSymbol symbol

def accept (kind : TokenKind) : Reader Bool := do
  if (← get).isAt kind then
    advance
    return true
  else return false

def acceptKeyword (keyword : Keyword) : Reader Bool := accept (.keyword keyword)

def acceptSymbol (symbol : Symbol) : Reader Bool := accept (.symbol symbol)

def expect (kind : TokenKind) (description : String) : Reader Token := do
  match (← get).rest with
  | token :: _ =>
    if token.kind = kind then
      advance
      return token
    else failExpected description
  | [] => failExpected description

def expectKeyword (keyword : Keyword) (description : String) : Reader Unit := do
  let _ ← expect (.keyword keyword) description

def expectSymbol (symbol : Symbol) (description : String) : Reader Unit := do
  let _ ← expect (.symbol symbol) description

def expectName (description : String) : Reader (String × Locus) := do
  let token ← expect .identifier description
  return (Text.upperAscii token.text, token.locus)

def skipSeparators : Reader Unit :=
  modify (·.skipWhile fun kind => kind == .newline || kind == .symbol .colon)

def skipTrivia : Reader Unit :=
  modify (·.skipWhile fun kind =>
    kind == .newline || kind == .symbol .colon || kind == .comment || kind == .remComment)

def skipLine : Reader Unit := modify (·.skipWhile (· != .newline))

def attempt {α : Type} (reader : Reader α) : Reader (Option α) :=
  OptionT.lift reader.run

end Reader

end BasicLang
