import BasicLang.Number.Reading
import BasicLang.Token

set_option autoImplicit false

namespace BasicLang

inductive LexErrorKind where
  | unterminatedString
  | illegalCharacter (char : Char)
deriving Repr, DecidableEq

structure LexError where
  kind : LexErrorKind
  locus : Locus
deriving Repr, DecidableEq

def LexErrorKind.title : LexErrorKind → String
  | .unterminatedString => "UnterminatedString"
  | .illegalCharacter _ => "IllegalCharacter"

def LexError.message (error : LexError) : String :=
  match error.kind with
  | .unterminatedString => "unterminated string literal"
  | .illegalCharacter char => "illegal character '" ++ char.toString ++ "'"

inductive Lexeme where
  | skipped
  | token (kind : TokenKind)
  | unterminated
  | illegal
deriving Repr, DecidableEq

namespace Lexeme

def isDigit (char : Char) : Bool := '0' ≤ char && char ≤ '9'

def isLetter (char : Char) : Bool :=
  ('A' ≤ char && char ≤ 'Z') || ('a' ≤ char && char ≤ 'z')

def isWordChar (char : Char) : Bool := isLetter char || isDigit char || char == '_'

def isLineBlank (char : Char) : Bool := char == ' ' || char == '\t'

def isSigil (char : Char) : Bool :=
  char == '$' || char == '%' || char == '&' || char == '!' || char == '#'

def run (member : Char → Bool) (chars : List Char) : Nat := (chars.takeWhile member).length

def one (member : Char → Bool) (chars : List Char) : Nat :=
  match chars with
  | char :: _ => if member char then 1 else 0
  | [] => 0

def exponentLength (chars : List Char) : Nat :=
  match chars with
  | mark :: rest =>
    if mark == 'E' || mark == 'e' || mark == 'D' || mark == 'd' then
      let sign := one (fun char => char == '+' || char == '-') rest
      let digits := run isDigit (rest.drop sign)
      if digits = 0 then 0 else 1 + sign + digits
    else 0
  | [] => 0

/-- The number at the front of a text that starts with a digit, or with a point and a digit. A
point, an exponent or the sigil of a floating point type makes it a floating point number. -/
def number (chars : List Char) : TokenKind × Nat :=
  let whole := run isDigit chars
  let afterWhole := chars.drop whole
  let point := one (· == '.') afterWhole
  let fraction := if point = 0 then 0 else run isDigit (afterWhole.drop 1)
  let exponent := exponentLength (afterWhole.drop (point + fraction))
  let length := whole + point + fraction + exponent
  let sigil := one (fun char => char == '!' || char == '#') (chars.drop length)
  if point = 0 ∧ exponent = 0 ∧ sigil = 0 then
    (.integerLiteral, whole + one (fun char => char == '%' || char == '&') afterWhole)
  else (.floatLiteral, length + sigil)

def radixNumber? (chars : List Char) : Option (TokenKind × Nat) :=
  match chars with
  | mark :: digits =>
    let literal (kind : TokenKind) (radix : Nat) : Option (TokenKind × Nat) :=
      let count := run (isDigitOf radix) digits
      if count = 0 then none
      else some (kind, 2 + count + one (· == '&') (digits.drop count))
    match mark.toUpper with
    | 'H' => literal .hexLiteral 16
    | 'O' => literal .octalLiteral 8
    | 'B' => literal .binaryLiteral 2
    | _ => none
  | [] => none

/-- The length of a text after its opening quote, and whether it is closed. Two quotes stand for
one inside the text. -/
def quotedLength : List Char → Nat × Bool
  | [] => (0, false)
  | '"' :: '"' :: rest =>
    let (length, closed) := quotedLength rest
    (length + 2, closed)
  | '"' :: _ => (1, true)
  | '\n' :: _ => (0, false)
  | _ :: rest =>
    let (length, closed) := quotedLength rest
    (length + 1, closed)

def restOfLine (chars : List Char) : Nat := run (· != '\n') chars

def word (chars : List Char) : TokenKind × Nat :=
  let plain := run isWordChar chars
  let sigil := one isSigil (chars.drop plain)
  let spelled := String.ofList (chars.take plain)
  if sigil = 1 then (.identifier, plain + 1)
  else if Text.upperAscii spelled = "REM" then
    match chars.drop plain with
    | next :: rest =>
      if isLineBlank next then (.remComment, plain + 1 + restOfLine rest) else (.remComment, plain)
    | [] => (.remComment, plain)
  else
    match Keyword.ofWord? spelled with
    | some keyword => (.keyword keyword, plain)
    | none => (.identifier, plain)

def continuation? (chars : List Char) : Option Nat :=
  let blanks := run isLineBlank chars
  match chars.drop blanks with
  | '\n' :: _ => some (blanks + 1)
  | '\r' :: '\n' :: _ => some (blanks + 2)
  | _ => none

def first (char : Char) (rest : List Char) : Lexeme × Nat :=
  let chars := char :: rest
  let symbol : Lexeme × Nat :=
    match Symbol.longest? chars with
    | some symbol => (.token (.symbol symbol), symbol.spelling.length)
    | none => (.illegal, 1)
  if isLineBlank char || char == '\r' then
    (.skipped, run (fun next => isLineBlank next || next == '\r') chars)
  else if char = '\n' then (.token .newline, 1)
  else if isLetter char then
    let (kind, length) := word chars
    (.token kind, length)
  else if isDigit char || (char == '.' && one isDigit rest == 1) then
    let (kind, length) := number chars
    (.token kind, length)
  else if char = '"' then
    let (length, closed) := quotedLength rest
    (if closed then .token .stringLiteral else .unterminated, length + 1)
  else if char = '\'' then (.token .comment, 1 + restOfLine rest)
  else if char = '_' then
    match continuation? rest with
    | some length => (.skipped, length + 1)
    | none => (.illegal, 1)
  else if char = '&' then
    match radixNumber? rest with
    | some (kind, length) => (.token kind, length)
    | none => (.illegal, 1)
  else symbol

end Lexeme

structure Lexer where
  rest : List Char
  offset : Nat
  locus : Locus

namespace Lexer

def ofSource (source : String) : Lexer := ⟨source.toList, 0, .start⟩

def skip (lexer : Lexer) : Nat → Lexer
  | 0 => lexer
  | count + 1 =>
    match lexer.rest with
    | [] => lexer
    | char :: rest =>
      Lexer.skip ⟨rest, lexer.offset + char.utf8Size, lexer.locus.after char⟩ count

def next? (lexer : Lexer) : Nat → Option (Except LexError Token × Lexer)
  | 0 => none
  | fuel + 1 =>
    match lexer.rest with
    | [] => none
    | char :: rest =>
      let (lexeme, length) := Lexeme.first char rest
      let after := lexer.skip length
      match lexeme with
      | .skipped => after.next? fuel
      | .token kind =>
        some (.ok
          { kind
            text := String.ofList (lexer.rest.take length)
            start := lexer.offset
            stop := after.offset
            locus := lexer.locus }, after)
      | .unterminated => some (.error ⟨.unterminatedString, lexer.locus⟩, after)
      | .illegal => some (.error ⟨.illegalCharacter char, lexer.locus⟩, after)

def step (lexer : Lexer) : Option (Except LexError Token × Lexer) :=
  lexer.next? lexer.rest.length

def items (lexer : Lexer) : Nat → List (Except LexError Token)
  | 0 => []
  | fuel + 1 =>
    match lexer.step with
    | some (item, after) => item :: after.items fuel
    | none => []

end Lexer

def tokenize (source : String) : List Token × List LexError :=
  let lexer := Lexer.ofSource source
  (lexer.items lexer.rest.length).foldr
    (fun item (tokens, errors) =>
      match item with
      | .ok token => (token :: tokens, errors)
      | .error error => (tokens, error :: errors))
    ([], [])

end BasicLang
