import BasicLang.Number.Reading
import BasicLang.Syntax.Cursor
import BasicLang.Text.Blank

set_option autoImplicit false

namespace BasicLang

def splitSigil (sigils : List Char) (text : String) : List Char × Option Char :=
  match text.toList.reverse with
  | last :: rest =>
    if sigils.contains last then (rest.reverse, some last) else (text.toList, none)
  | [] => ([], none)

def collapseQuotes : List Char → List Char
  | '"' :: '"' :: rest => '"' :: collapseQuotes rest
  | char :: rest => char :: collapseQuotes rest
  | [] => []

def unquote (text : String) : String :=
  String.ofList (collapseQuotes (text.toList.drop 1).dropLast)

def floatValue (chars : List Char) : Float :=
  let isMark (char : Char) : Bool := char.toUpper == 'E' || char.toUpper == 'D'
  match NumberText.ofPrefix? isMark chars with
  | some number => number.toDouble
  | none => 0

def radixOfKind : TokenKind → Nat
  | .hexLiteral => 16
  | .octalLiteral => 8
  | _ => 2

namespace Literal

/-- A whole number has the narrowest type that holds it, unless a sigil names the type. One that
is longer than 64 bits is a double in any case. -/
def ofInteger (text : String) : Except ParseErrorKind Literal :=
  let (digits, sigil) := splitSigil ['%', '&'] text
  let value := ofDigits 10 digits
  if 0x8000000000000000 ≤ value then .ok (.double (Decimal.toDouble ⟨value, 0⟩))
  else
    match sigil with
    | some '%' => if 32767 < value then .error .integerOverflow else .ok (.integer value)
    | some _ => if 2147483647 < value then .error .longOverflow else .ok (.long value)
    | none =>
      if value ≤ 32767 then .ok (.integer value)
      else if value ≤ 2147483647 then .ok (.long value)
      else .ok (.double (Decimal.toDouble ⟨value, 0⟩))

def ofFloat (text : String) : Literal :=
  let (body, sigil) := splitSigil ['!', '#'] text
  match sigil with
  | some '!' => .single (floatValue body)
  | _ => .double (floatValue body)

/-- A number in another radix is a bit pattern: up to 16 bits of an `INTEGER`, up to 32 bits of a
`LONG`. -/
def ofRadix (radix : Nat) (text : String) : Except ParseErrorKind Literal :=
  let (digits, sigil) := splitSigil ['&'] text
  let value := ofDigits radix (digits.drop 2)
  if 0x10000000000000000 ≤ value then .error .radixOverflow
  else if sigil.isNone ∧ value < 0x10000 then .ok (.integer (Int16.ofNat value).toInt)
  else if value < 0x100000000 then .ok (.long (Int32.ofNat value).toInt)
  else .error .longOverflow

def ofToken? (token : Token) : Option (Except ParseErrorKind Literal) :=
  match token.kind with
  | .integerLiteral => some (ofInteger token.text)
  | .floatLiteral => some (.ok (ofFloat token.text))
  | .hexLiteral | .octalLiteral | .binaryLiteral =>
    some (ofRadix (radixOfKind token.kind) token.text)
  | .stringLiteral => some (.ok (.string (unquote token.text)))
  | _ => none

end Literal

namespace DataItem

def negate : DataItem → DataItem
  | .integer value => .integer (-value)
  | .real value => .real (-value)
  | .text value => .text value

def number? (token : Token) : Option DataItem :=
  match token.kind with
  | .integerLiteral =>
    let digits := token.text.toList.filter NumberText.isDigit
    (ofDigits? 10 digits).map fun value => .integer value
  | .hexLiteral | .octalLiteral | .binaryLiteral =>
    let digits := (token.text.toList.drop 2).filter (· != '&')
    (ofDigits? (radixOfKind token.kind) digits).map fun value => .integer value
  | .floatLiteral => some (.real (floatValue token.text.toList))
  | _ => none

def signedNumber? : List Token → Option DataItem
  | [token] => number? token
  | [sign, token] =>
    if sign.kind = .symbol .minus then (number? token).map negate
    else if sign.kind = .symbol .plus then number? token
    else none
  | _ => none

/-- The value that the tokens between two commas denote: a quoted text, a number with an optional
sign, or else the text of the tokens. -/
def ofTokens (tokens : List Token) : DataItem :=
  let plain : DataItem := .text (" ".intercalate (tokens.map Token.text))
  match tokens with
  | [token] =>
    if token.kind = .stringLiteral then .text (unquote token.text)
    else (signedNumber? tokens).getD plain
  | _ => (signedNumber? tokens).getD plain

end DataItem

def commentText (token : Token) : String :=
  let marker := if token.kind = .remComment then 3 else 1
  Text.trim isBlank (String.ofList (token.text.toList.drop marker))

end BasicLang
