
set_option autoImplicit false

namespace BasicLang

def divideToEven (numerator denominator : Nat) : Nat :=
  let quotient := numerator / denominator
  let twice := 2 * (numerator % denominator)
  if denominator < twice ∨ (twice = denominator ∧ quotient % 2 = 1) then quotient + 1 else quotient

/-- A number of a binary format. A finite one is `significand * 2 ^ exponent` with a sign, which
zero has too. -/
inductive Binary where
  | nan
  | infinite (negative : Bool)
  | finite (negative : Bool) (significand : Nat) (exponent : Int)
deriving Repr, DecidableEq

structure BinaryFormat where
  exponentBits : Nat
  fractionBits : Nat

namespace BinaryFormat

def single : BinaryFormat := ⟨8, 23⟩
def double : BinaryFormat := ⟨11, 52⟩

def leastExponent (format : BinaryFormat) : Int :=
  2 - Nat.pow 2 (format.exponentBits - 1) - format.fractionBits

def infinityPattern (format : BinaryFormat) : Nat :=
  (Nat.pow 2 format.exponentBits - 1) * Nat.pow 2 format.fractionBits

def signBit (format : BinaryFormat) : Nat :=
  Nat.pow 2 (format.exponentBits + format.fractionBits)

def decode (format : BinaryFormat) (pattern : Nat) : Binary :=
  let fraction := pattern % Nat.pow 2 format.fractionBits
  let biased := pattern / Nat.pow 2 format.fractionBits % Nat.pow 2 format.exponentBits
  let negative := decide (pattern / format.signBit % 2 = 1)
  if biased = Nat.pow 2 format.exponentBits - 1 then
    if fraction = 0 then .infinite negative else .nan
  else if biased = 0 then
    .finite negative fraction format.leastExponent
  else
    .finite negative (fraction + Nat.pow 2 format.fractionBits) (format.leastExponent + biased - 1)

/-- The pattern nearest to a positive number. Rounding up to the next power of two carries into
the exponent field, and past the largest finite number into infinity. -/
def encodeMagnitude (format : BinaryFormat) (significand : Nat) (exponent : Int) : Nat :=
  if significand = 0 then 0
  else
    let last := max format.leastExponent (exponent + significand.log2 - format.fractionBits)
    let scaled :=
      if last ≤ exponent then significand * Nat.pow 2 (exponent - last).toNat
      else divideToEven significand (Nat.pow 2 (last - exponent).toNat)
    min ((last - format.leastExponent).toNat * Nat.pow 2 format.fractionBits + scaled)
      format.infinityPattern

def encode (format : BinaryFormat) : Binary → Nat
  | .nan => format.infinityPattern + Nat.pow 2 (format.fractionBits - 1)
  | .infinite negative =>
    format.infinityPattern + if negative then format.signBit else 0
  | .finite negative significand exponent =>
    format.encodeMagnitude significand exponent + if negative then format.signBit else 0

end BinaryFormat

namespace Binary

def ofDouble (number : Float) : Binary :=
  BinaryFormat.double.decode number.toBits.toNat

def ofSingle (number : Float32) : Binary :=
  BinaryFormat.single.decode number.toBits.toNat

def toDouble (number : Binary) : Float :=
  Float.ofBits (UInt64.ofNat (BinaryFormat.double.encode number))

def toSingle (number : Binary) : Float32 :=
  Float32.ofBits (UInt32.ofNat (BinaryFormat.single.encode number))

def isFinite : Binary → Bool
  | .finite .. => true
  | _ => false

def remainder : Binary → Binary → Binary
  | .finite negative significand exponent, .finite _ divisor divisorExponent =>
    let least := min exponent divisorExponent
    let scaled := divisor * Nat.pow 2 (divisorExponent - least).toNat
    if scaled = 0 then .nan
    else .finite negative (significand * Nat.pow 2 (exponent - least).toNat % scaled) least
  | .finite negative significand exponent, .infinite _ => .finite negative significand exponent
  | _, _ => .nan

inductive Rounding where
  | down
  | towardZero
  | toEven
  | halfAway
deriving Repr, DecidableEq

def Rounding.magnitude (rounding : Rounding) (negative : Bool) (significand places : Nat) : Nat :=
  match rounding with
  | .towardZero => significand / Nat.pow 2 places
  | .toEven => divideToEven significand (Nat.pow 2 places)
  | .halfAway => (2 * significand + Nat.pow 2 places) / Nat.pow 2 (places + 1)
  | .down =>
    if negative ∧ significand % Nat.pow 2 places ≠ 0 then significand / Nat.pow 2 places + 1
    else significand / Nat.pow 2 places

def round (rounding : Rounding) : Binary → Binary
  | .finite negative significand (.negSucc places) =>
    .finite negative (rounding.magnitude negative significand (places + 1)) 0
  | number => number

/-- The whole number next to `number` in the direction of zero, held to the 64-bit range. What
is not a number counts as zero. -/
def toInt64Range : Binary → Int
  | .nan => 0
  | .infinite negative => if negative then -0x8000000000000000 else 0x7fffffffffffffff
  | .finite negative significand exponent =>
    let magnitude : Int :=
      match exponent with
      | .ofNat power =>
        if 64 ≤ power ∧ significand ≠ 0 then 0x10000000000000000 else significand * Nat.pow 2 power
      | .negSucc places => significand / Nat.pow 2 (places + 1)
    if negative then max (-magnitude) (-0x8000000000000000) else min magnitude 0x7fffffffffffffff

end Binary

namespace Double

def round (rounding : Binary.Rounding) (number : Float) : Float :=
  match Binary.ofDouble number with
  | .finite _ _ (.ofNat _) => number
  | .finite negative significand (.negSucc places) =>
    (Binary.finite negative (rounding.magnitude negative significand (places + 1)) 0).toDouble
  | _ => number

def floor : Float → Float := round .down
def truncate : Float → Float := round .towardZero
def roundToEven : Float → Float := round .toEven
def roundHalfAway : Float → Float := round .halfAway

def remainder (dividend divisor : Float) : Float :=
  ((Binary.ofDouble dividend).remainder (Binary.ofDouble divisor)).toDouble

def toInt (number : Float) : Int := (Binary.ofDouble number).toInt64Range

def ofInt (number : Int) : Float := Float.ofInt number

def toSingle (number : Float) : Float32 := (Binary.ofDouble number).toSingle

def isFinite (number : Float) : Bool := (Binary.ofDouble number).isFinite

def sign (number : Float) : Int :=
  if number < 0 then -1 else if 0 < number then 1 else 0

end Double

namespace Single

def toDouble (number : Float32) : Float := (Binary.ofSingle number).toDouble

end Single

end BasicLang
