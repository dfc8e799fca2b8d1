import BasicLang.Number.Decimal

set_option autoImplicit false

namespace BasicLang

structure NumberStyle where
  /-- Numbers from `10 ^ least` on, and below `10 ^ most`, are written without exponent. -/
  least : Int
  most : Int
  marker : String
  plus : Bool
  exponentWidth : Nat
  leadingZero : Bool
  wholeSuffix : String
  tie : Tie
  notANumber : String
  infinity : String

namespace NumberStyle

def zeros (count : Nat) : String := String.ofList (List.replicate count '0')

def padZeros (width : Nat) (text : String) : String := zeros (width - text.length) ++ text

def insertPoint (text : String) (count : Nat) : String :=
  String.ofList (text.toList.take count) ++ "." ++ String.ofList (text.toList.drop count)

def positional (style : NumberStyle) (decimal : Decimal) : String :=
  let text := toString decimal.digits
  if 0 ≤ decimal.exponent then
    text ++ zeros decimal.exponent.toNat ++ style.wholeSuffix
  else
    let places := (-decimal.exponent).toNat
    if places < text.length then insertPoint text (text.length - places)
    else (if style.leadingZero then "0." else ".") ++ padZeros places text

def scientific (style : NumberStyle) (decimal : Decimal) : String :=
  let text := toString decimal.digits
  let power := decimal.exponent + text.length - 1
  let mantissa := if text.length = 1 then text else insertPoint text 1
  let sign := if power < 0 then "-" else if style.plus then "+" else ""
  mantissa ++ style.marker ++ sign ++ padZeros style.exponentWidth (toString power.natAbs)

def magnitude (style : NumberStyle) (decimal : Decimal) : String :=
  let power := decimal.exponent + Decimal.digitCount decimal.digits - 1
  if decimal.digits = 0 ∨ (style.least ≤ power ∧ power < style.most) then style.positional decimal
  else style.scientific decimal

def render (style : NumberStyle) (format : BinaryFormat) : Binary → String
  | .nan => style.notANumber
  | .infinite negative => (if negative then "-" else "") ++ style.infinity
  | .finite negative significand exponent =>
    (if negative then "-" else "") ++
      style.magnitude (Decimal.shortest format style.tie significand exponent)

def double (style : NumberStyle) (number : Float) : String :=
  style.render .double (Binary.ofDouble number)

def single (style : NumberStyle) (number : Float32) : String :=
  style.render .single (Binary.ofSingle number)

def printedSingle : NumberStyle where
  least := -7
  most := 7
  marker := "E"
  plus := true
  exponentWidth := 2
  leadingZero := false
  wholeSuffix := ""
  tie := .up
  notANumber := "NaN"
  infinity := "inf"

def printedDouble : NumberStyle :=
  { printedSingle with least := -16, most := 16, marker := "D" }

def plain : NumberStyle :=
  { printedSingle with least := -400, most := 400, leadingZero := true }

def listed : NumberStyle where
  least := -4
  most := 16
  marker := "e"
  plus := false
  exponentWidth := 1
  leadingZero := true
  wholeSuffix := ".0"
  tie := .up
  notANumber := "NaN"
  infinity := "inf"

def json : NumberStyle :=
  { listed with least := -5, plus := true, tie := .toEven }

end NumberStyle

def Single.text (number : Float32) : String := NumberStyle.printedSingle.single number

def Double.text (number : Float) : String := NumberStyle.printedDouble.double number

def signedText (text : String) : String :=
  if text.startsWith "-" then text else " " ++ text

end BasicLang
