import BasicLang.Arithmetic
import BasicLang.Proofs.Number.WholeProducts

set_option autoImplicit false

namespace BasicLang

namespace Ty

def InRange (ty : Ty) (number : Int) : Prop :=
  match ty with
  | .integer => -32768 ≤ number ∧ number ≤ 32767
  | .long => -2147483648 ≤ number ∧ number ≤ 2147483647
  | _ => False

instance (ty : Ty) (number : Int) : Decidable (ty.InRange number) := by
  unfold InRange
  cases ty <;> infer_instance

def whole (ty : Ty) (number : Int) : Value :=
  match ty with
  | .integer => .integer (Int16.ofInt number)
  | _ => .long (Int32.ofInt number)

variable {ty : Ty} {number : Int}

theorem InRange.bounds (inRange : ty.InRange number) : -2147483648 ≤ number ∧ number ≤ 2147483647 := by
  cases ty with
  | integer =>
    obtain ⟨least, most⟩ := inRange
    constructor <;> omega
  | long => exact inRange
  | _ => exact inRange.elim

theorem InRange.exact (inRange : ty.InRange number) : number.natAbs < 2 ^ 53 := by
  have := inRange.bounds
  omega

theorem InRange.is_long (inRange : ty.InRange number) : Ty.long.InRange number := inRange.bounds

theorem whole_ty (inRange : ty.InRange number) : (ty.whole number).ty = ty := by
  cases ty with
  | integer | long => rfl
  | _ => exact inRange.elim

theorem whole_number (inRange : ty.InRange number) : (ty.whole number).toDouble? = some (Double.ofInt number) := by
  cases ty with
  | integer =>
    have same : (Int16.ofInt number).toInt = number := Int16.toInt_ofInt_of_le inRange.1 (Int.lt_add_one_of_le inRange.2)
    exact congrArg (fun number => some (Double.ofInt number)) same
  | long =>
    have same : (Int32.ofInt number).toInt = number := Int32.toInt_ofInt_of_le inRange.1 (Int.lt_add_one_of_le inRange.2)
    exact congrArg (fun number => some (Double.ofInt number)) same
  | _ => exact inRange.elim

theorem convert_whole {value : Value} (inRange : ty.InRange number) (isNumber : value.toDouble? = some (Double.ofInt number)) :
    ty.convert value = .ok (ty.whole number) := by
  have same := Double.to_int_of_int inRange.exact
  cases ty with
  | integer =>
    simp only [convert, isNumber]
    exact congrArg (fun number => Except.ok (Value.integer (Int16.ofInt number))) same
  | long =>
    simp only [convert, isNumber]
    exact congrArg (fun number => Except.ok (Value.long (Int32.ofInt number))) same
  | _ => exact inRange.elim

def width (ty : Ty) : Nat :=
  match ty with
  | .integer => 16
  | _ => 32

def IsWhole (ty : Ty) : Prop := ty = .integer ∨ ty = .long

theorem InRange.is_whole (inRange : ty.InRange number) : ty.IsWhole := by
  cases ty with
  | integer => exact .inl rfl
  | long => exact .inr rfl
  | _ => exact inRange.elim

theorem InRange.between {other : Int} (inRange : ty.InRange number)
    (between : (0 ≤ other ∧ other ≤ number) ∨ (number ≤ other ∧ other ≤ 0)) : ty.InRange other := by
  cases ty with
  | integer | long =>
    obtain ⟨least, most⟩ := inRange
    constructor <;> omega
  | _ => exact inRange.elim

theorem InRange.wider {right : Ty} (inRange : ty.InRange number) (isRight : right.IsWhole) :
    (ty.wider right).InRange number := by
  cases ty with
  | integer =>
    rcases isRight with rfl | rfl
    · exact inRange
    · exact inRange.is_long
  | long => rcases isRight with rfl | rfl <;> exact inRange
  | _ => exact inRange.elim

theorem InRange.wider_right {left : Ty} (inRange : ty.InRange number) (isLeft : left.IsWhole) :
    (left.wider ty).InRange number := by
  cases ty with
  | integer =>
    rcases isLeft with rfl | rfl
    · exact inRange
    · exact inRange.is_long
  | long => rcases isLeft with rfl | rfl <;> exact inRange
  | _ => exact inRange.elim

theorem whole_ty_of_is_whole (isWhole : ty.IsWhole) (number : Int) : (ty.whole number).ty = ty := by
  rcases isWhole with rfl | rfl <;> rfl

end Ty

namespace Value

def whole? : Value → Option Int
  | .integer value => some value.toInt
  | .long value => some value.toInt
  | _ => none

variable {value : Value} {ty : Ty} {number : Int}

theorem whole_cases (isWhole : value.whole? = some number) : value.ty.InRange number ∧ value = value.ty.whole number := by
  cases value with
  | integer short =>
    cases isWhole
    exact ⟨⟨short.le_toInt, Int.le_of_lt_add_one short.toInt_lt⟩, congrArg Value.integer (Int16.ofInt_toInt short).symm⟩
  | long long =>
    cases isWhole
    exact ⟨⟨long.le_toInt, Int.le_of_lt_add_one long.toInt_lt⟩, congrArg Value.long (Int32.ofInt_toInt long).symm⟩
  | _ => cases isWhole

theorem whole_to_double (isWhole : value.whole? = some number) : value.toDouble? = some (Double.ofInt number) := by
  obtain ⟨inRange, same⟩ := whole_cases isWhole
  rw [same, Ty.whole_number inRange]

theorem whole_of_whole (isWhole : ty.IsWhole) (number : Int) :
    (ty.whole number).whole? = some (number.bmod (2 ^ ty.width)) := by
  rcases isWhole with rfl | rfl
  · exact congrArg some Int16.toInt_ofInt
  · exact congrArg some Int32.toInt_ofInt

theorem whole_in_range (inRange : ty.InRange number) : (ty.whole number).whole? = some number := by
  cases ty with
  | integer => exact congrArg some (Int16.toInt_ofInt_of_le inRange.1 (Int.lt_add_one_of_le inRange.2))
  | long => exact congrArg some (Int32.toInt_ofInt_of_le inRange.1 (Int.lt_add_one_of_le inRange.2))
  | _ => exact inRange.elim

end Value

section Literals

theorem zero_of_int : (0 : Float) = Double.ofInt 0 := rfl

theorem least_integer : (-32768 : Float) = Double.ofInt (-32768) := rfl

theorem most_integer : (32767 : Float) = Double.ofInt 32767 := rfl

theorem least_long : (-2147483648 : Float) = Double.ofInt (-2147483648) := rfl

theorem most_long : (2147483647 : Float) = Double.ofInt 2147483647 := rfl

end Literals

theorem Arithmetic.convert_wraps {ty : Ty} (isWhole : ty.IsWhole) (number : Float) :
    Arithmetic.convert ty number = .ok (ty.whole (Double.toInt (Double.roundToEven number))) := by
  rcases isWhole with rfl | rfl <;> rfl

theorem Arithmetic.convert_of_int {ty : Ty} (isWhole : ty.IsWhole) {number : Int} (small : number.natAbs < 2 ^ 53) :
    Arithmetic.convert ty (Double.ofInt number) = .ok (ty.whole number) := by
  rw [convert_wraps isWhole, Double.to_int_of_int small]

end BasicLang
