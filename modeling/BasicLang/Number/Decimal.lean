import BasicLang.Number.Binary

set_option autoImplicit false

namespace BasicLang

structure Decimal where
  digits : Nat
  exponent : Int
deriving Repr, DecidableEq

inductive Tie where
  | up
  | toEven
deriving Repr, DecidableEq

namespace Decimal

def digitCount (number : Nat) : Nat := (Nat.toDigits 10 number).length

def leadingPower (numerator denominator : Nat) : Int :=
  if denominator ≤ numerator then (digitCount (numerator / denominator) : Int) - 1
  else
    let places := digitCount ((denominator + numerator - 1) / numerator) - 1
    if denominator ≤ numerator * Nat.pow 10 places then -(places : Int) else -(places : Int) - 1

def trim (digits : Nat) (exponent : Int) : Decimal :=
  if digits = 0 then ⟨0, 0⟩
  else if digits % 10 = 0 then trim (digits / 10) (exponent + 1)
  else ⟨digits, exponent⟩
termination_by digits
decreasing_by omega

/-- The reals between `lower` and `upper` around `value`, all over `denominator`, are those that
read back as one binary number; the ends belong to them if `closed`. -/
structure Neighbourhood where
  lower : Nat
  value : Nat
  upper : Nat
  denominator : Nat
  closed : Bool

/-- The numbers that round to `significand * 2 ^ exponent`. Below a power of two the binary
numbers are twice as dense. -/
def Neighbourhood.ofBinary (format : BinaryFormat) (significand : Nat) (exponent : Int) :
    Neighbourhood :=
  let dense := significand = Nat.pow 2 format.fractionBits ∧ format.leastExponent < exponent
  let scale := Nat.pow 2 (exponent - 2).toNat
  { lower := (4 * significand - if dense then 1 else 2) * scale
    value := 4 * significand * scale
    upper := (4 * significand + 2) * scale
    denominator := Nat.pow 2 (2 - exponent).toNat
    closed := significand % 2 = 0 }

/-- A multiple of `10 ^ power` inside the neighbourhood, the nearest one if there are several. -/
def Neighbourhood.gridPoint? (near : Neighbourhood) (tie : Tie) (power : Int) : Option Nat :=
  let scale := Nat.pow 10 (-power).toNat
  let unit := near.denominator * Nat.pow 10 power.toNat
  let below := near.value * scale / unit
  let rest := near.value * scale % unit
  let inside (candidate : Nat) : Bool :=
    if near.closed then
      near.lower * scale ≤ candidate * unit && candidate * unit ≤ near.upper * scale
    else near.lower * scale < candidate * unit && candidate * unit < near.upper * scale
  match inside below, inside (below + 1) with
  | false, false => none
  | true, false => some below
  | false, true => some (below + 1)
  | true, true =>
    if 2 * rest < unit then some below
    else if unit < 2 * rest then some (below + 1)
    else if tie = .toEven ∧ below % 2 = 0 then some below
    else some (below + 1)

def mostDigits : Nat := 17

def shortest (format : BinaryFormat) (tie : Tie) (significand : Nat) (exponent : Int) : Decimal :=
  if significand = 0 then ⟨0, 0⟩
  else
    let near := Neighbourhood.ofBinary format significand exponent
    let top := leadingPower near.value near.denominator
    let hit := (List.range mostDigits).findSome? fun (count : Nat) =>
      let power := top - count
      (near.gridPoint? tie power).map fun digits => trim digits power
    hit.getD ⟨0, 0⟩

def fixed (places : UInt16) (significand : Nat) (exponent : Int) : Nat :=
  divideToEven (significand * Nat.pow 2 exponent.toNat * Nat.pow 10 places.toNat)
    (Nat.pow 2 (-exponent).toNat)

/-- The double nearest to `digits * 10 ^ exponent`. Powers of ten far outside the range of
doubles are not computed. -/
def toDouble (decimal : Decimal) : Float :=
  if decimal.digits = 0 then 0
  else
    let magnitude := digitCount decimal.digits + decimal.exponent
    if magnitude < -330 then 0
    else if 310 < magnitude then (Binary.infinite false).toDouble
    else Float.ofScientific decimal.digits (decimal.exponent < 0) decimal.exponent.natAbs

end Decimal

/-- The double written with the digits of a single: `0.1` as a single becomes `0.1`, not the
nearby binary number that the single is. -/
def Single.toDoubleByDigits (number : Float32) : Float :=
  match Binary.ofSingle number with
  | .finite negative significand exponent =>
    let magnitude := (Decimal.shortest .single .up significand exponent).toDouble
    if negative then -magnitude else magnitude
  | other => other.toDouble

end BasicLang
