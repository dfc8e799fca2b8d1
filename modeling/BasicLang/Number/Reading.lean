import BasicLang.Number.Decimal
import BasicLang.Text.Case

set_option autoImplicit false

namespace BasicLang

def digitValue? (radix : Nat) (char : Char) : Option Nat :=
  let value? :=
    if '0' ≤ char ∧ char ≤ '9' then some (char.toNat - '0'.toNat)
    else if 'a' ≤ char ∧ char ≤ 'f' then some (char.toNat - 'a'.toNat + 10)
    else if 'A' ≤ char ∧ char ≤ 'F' then some (char.toNat - 'A'.toNat + 10)
    else none
  value?.filter (· < radix)

def isDigitOf (radix : Nat) (char : Char) : Bool := (digitValue? radix char).isSome

def ofDigits (radix : Nat) (digits : List Char) : Nat :=
  digits.foldl (fun total char => total * radix + (digitValue? radix char).getD 0) 0

/-- The number that at least one digit denotes, if all characters are digits and it is a
positive 64-bit number. -/
def ofDigits? (radix : Nat) (digits : List Char) : Option Nat :=
  if !digits.isEmpty && digits.all (isDigitOf radix) then
    let number := ofDigits radix digits
    if number < 0x8000000000000000 then some number else none
  else none

structure NumberText where
  negative : Bool
  whole : List Char
  fraction : List Char
  exponentNegative : Bool
  exponent : List Char

namespace NumberText

def isDigit (char : Char) : Bool := isDigitOf 10 char

def splitSign : List Char → Bool × List Char
  | '-' :: rest => (true, rest)
  | '+' :: rest => (false, rest)
  | chars => (false, chars)

/-- The number at the front of the text, if a digit is there before or after its point. An
exponent without digits is not part of it. -/
def ofPrefix? (marker : Char → Bool) (chars : List Char) : Option NumberText :=
  let (negative, unsigned) := splitSign chars
  let whole := unsigned.takeWhile isDigit
  let afterWhole := unsigned.dropWhile isDigit
  let (fraction, afterFraction) :=
    match afterWhole with
    | '.' :: rest => (rest.takeWhile isDigit, rest.dropWhile isDigit)
    | rest => ([], rest)
  let (exponentNegative, exponent) :=
    match afterFraction with
    | char :: rest =>
      if marker char then
        let (sign, digits) := splitSign rest
        (sign, digits.takeWhile isDigit)
      else (false, [])
    | [] => (false, [])
  if whole.isEmpty && fraction.isEmpty then none
  else some { negative, whole, fraction, exponentNegative, exponent }

def decimal (text : NumberText) : Decimal :=
  let power : Int := ofDigits 10 text.exponent
  { digits := ofDigits 10 (text.whole ++ text.fraction)
    exponent := (if text.exponentNegative then -power else power) - text.fraction.length }

def toDouble (text : NumberText) : Float :=
  if text.negative then -text.decimal.toDouble else text.decimal.toDouble

end NumberText

def radixOf? : Char → Option Nat
  | 'H' => some 16
  | 'O' => some 8
  | 'B' => some 2
  | _ => none

/-- The number at the front of a text, as `VAL` reads it: blanks do not count, and without a
number the value is zero. -/
def numberPrefix (text : String) : Float :=
  let chars := (text.toList.filter fun char => char ≠ ' ' ∧ char ≠ '\t').map Char.toUpper
  let decimal :=
    match NumberText.ofPrefix? (fun char => char == 'E' || char == 'D') chars with
    | some number => number.toDouble
    | none => 0
  match chars with
  | '&' :: char :: rest =>
    match radixOf? char with
    | some radix => Double.ofInt ((ofDigits? radix (rest.takeWhile (isDigitOf radix))).getD 0)
    | none => decimal
  | _ => decimal

/-- The digits of a number in two's complement, as wide as an `INTEGER` if it is one, else as a
`LONG`. -/
def radixText (radix : Nat) (number : Int) : String :=
  let pattern :=
    if 0 ≤ number then number.toNat
    else if -32768 ≤ number then (number % 0x10000).toNat
    else (number % 0x100000000).toNat
  String.ofList ((Nat.toDigits radix pattern).map Char.toUpper)

end BasicLang
