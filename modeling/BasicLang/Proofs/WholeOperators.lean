import BasicLang.Proofs.Number.WholeValues

set_option autoImplicit false

namespace BasicLang

/-- The result is the value of the type that is congruent to the number. -/
def Wraps (result : Except ArithmeticFault Value) (ty : Ty) (number : Int) : Prop :=
  ∃ value wrapped, result = .ok value ∧ value.ty = ty ∧ value.whole? = some wrapped ∧
    wrapped ≡ number [ZMOD 2 ^ ty.width]

namespace BinaryOperator

variable {operator : BinaryOperator} {left right : Value} {x y : Int}

def staysWhole : BinaryOperator → Bool
  | .add | .subtract | .multiply | .intDivide | .modulo => true
  | operator => operator.isLogical

theorem result_type_whole (stays : operator.staysWhole = true) {leftTy rightTy : Ty} (isLeft : leftTy.IsWhole)
    (isRight : rightTy.IsWhole) : operator.resultType? leftTy rightTy = some (leftTy.wider rightTy) := by
  rcases isLeft with rfl | rfl <;> rcases isRight with rfl | rfl <;> cases operator <;> first | rfl | cases stays

theorem apply_whole (stays : operator.staysWhole = true) (isLeft : left.whole? = some x) (isRight : right.whole? = some y) :
    operator.apply left right = (Arithmetic.numeric operator (Double.ofInt x) (Double.ofInt y)).bind
      (Arithmetic.convert (left.ty.wider right.ty)) := by
  have compares : operator.isComparison = false := by cases operator <;> first | rfl | cases stays
  have leftTy := (Value.whole_cases isLeft).1.is_whole
  have rightTy := (Value.whole_cases isRight).1.is_whole
  have leftNumber := Value.whole_to_double isLeft
  have rightNumber := Value.whole_to_double isRight
  have leftSame : left.materialize right = left := by
    cases left <;> first | rfl | cases isLeft
  have rightSame : right.materialize left = right := by
    cases right <;> first | rfl | cases isRight
  rw [apply]
  simp only [leftSame, rightSame, result_type_whole stays leftTy rightTy]
  -- Only two texts are treated in another way.
  cases left with
  | integer | long =>
    simp only [leftNumber, rightNumber, compares]
    cases Arithmetic.numeric operator (Double.ofInt x) (Double.ofInt y) <;> rfl
  | _ => cases isLeft

end BinaryOperator

section Arithmetic

variable {left right : Value} {x y : Int}

theorem wider_in_range (isLeft : left.whole? = some x) (isRight : right.whole? = some y) :
    (left.ty.wider right.ty).InRange x ∧ (left.ty.wider right.ty).InRange y := by
  obtain ⟨leftRange, -⟩ := Value.whole_cases isLeft
  obtain ⟨rightRange, -⟩ := Value.whole_cases isRight
  exact ⟨leftRange.wider rightRange.is_whole, rightRange.wider_right leftRange.is_whole⟩

variable {ty : Ty} {number other : Int}

theorem Ty.whole_wraps (isWhole : ty.IsWhole) (number : Int) : Wraps (.ok (ty.whole number)) ty number := by
  refine ⟨_, _, rfl, Ty.whole_ty_of_is_whole isWhole number, Value.whole_of_whole isWhole number, ?_⟩
  exact Int.bmod_emod

theorem whole_wraps_iff (isWhole : ty.IsWhole) :
    Wraps (.ok (ty.whole number)) ty other ↔ number ≡ other [ZMOD 2 ^ ty.width] := by
  constructor
  · rintro ⟨value, wrapped, same, -, isNumber, congruent⟩
    cases same
    rw [Value.whole_of_whole isWhole] at isNumber
    cases isNumber
    exact Int.ModEq.trans Int.bmod_emod.symm congruent
  · intro congruent
    obtain ⟨value, wrapped, same, isTy, isNumber, wraps⟩ := Ty.whole_wraps isWhole number
    exact ⟨value, wrapped, same, isTy, isNumber, wraps.trans congruent⟩

variable (isLeft : left.whole? = some x) (isRight : right.whole? = some y)
include isLeft isRight

theorem operands_exact : x.natAbs < 2 ^ 53 ∧ y.natAbs < 2 ^ 53 ∧ (x + y).natAbs < 2 ^ 53 ∧ (x - y).natAbs < 2 ^ 53 ∧
    (x * y).natAbs ≤ 2 ^ 62 := by
  have xBounds := (Value.whole_cases isLeft).1.bounds
  have yBounds := (Value.whole_cases isRight).1.bounds
  have product : x.natAbs * y.natAbs ≤ 2 ^ 31 * 2 ^ 31 := Nat.mul_le_mul (by omega) (by omega)
  rw [Int.natAbs_mul]
  refine ⟨by omega, by omega, by omega, by omega, product⟩

theorem product_exact (isInteger : left.ty = .integer ∨ right.ty = .integer) : (x * y).natAbs < 2 ^ 53 := by
  obtain ⟨leftRange, -⟩ := Value.whole_cases isLeft
  obtain ⟨rightRange, -⟩ := Value.whole_cases isRight
  have xBounds := leftRange.bounds
  have yBounds := rightRange.bounds
  rw [Int.natAbs_mul]
  rcases isInteger with isInteger | isInteger
  · rw [isInteger] at leftRange
    obtain ⟨least, most⟩ := leftRange
    have bound : x.natAbs * y.natAbs ≤ 2 ^ 15 * 2 ^ 31 := Nat.mul_le_mul (by omega) (by omega)
    exact Nat.lt_of_le_of_lt bound (by decide)
  · rw [isInteger] at rightRange
    obtain ⟨least, most⟩ := rightRange
    have bound : x.natAbs * y.natAbs ≤ 2 ^ 31 * 2 ^ 15 := Nat.mul_le_mul (by omega) (by omega)
    exact Nat.lt_of_le_of_lt bound (by decide)

theorem add_whole : BinaryOperator.add.apply left right = .ok ((left.ty.wider right.ty).whole (x + y)) := by
  obtain ⟨xExact, yExact, exact, -⟩ := operands_exact isLeft isRight
  rw [BinaryOperator.apply_whole rfl isLeft isRight, Arithmetic.numeric, Double.of_int_add xExact yExact exact]
  exact Arithmetic.convert_of_int (wider_in_range isLeft isRight).1.is_whole exact

theorem subtract_whole : BinaryOperator.subtract.apply left right = .ok ((left.ty.wider right.ty).whole (x - y)) := by
  obtain ⟨xExact, yExact, -, exact, -⟩ := operands_exact isLeft isRight
  rw [BinaryOperator.apply_whole rfl isLeft isRight, Arithmetic.numeric, Double.of_int_sub xExact yExact exact]
  exact Arithmetic.convert_of_int (wider_in_range isLeft isRight).1.is_whole exact

theorem multiply_whole :
    BinaryOperator.multiply.apply left right = .ok ((left.ty.wider right.ty).whole (nearestWhole (x * y))) := by
  obtain ⟨xExact, yExact, -, -, small⟩ := operands_exact isLeft isRight
  rw [BinaryOperator.apply_whole rfl isLeft isRight, Arithmetic.numeric]
  change Arithmetic.convert _ (Double.ofInt x * Double.ofInt y) = _
  rw [Arithmetic.convert_wraps (wider_in_range isLeft isRight).1.is_whole, Double.to_int_mul xExact yExact small]

omit isRight in
theorem negate_whole : left.negate = .ok (left.ty.whole (-x)) := by
  obtain ⟨inRange, -⟩ := Value.whole_cases isLeft
  have notNull : left.ty ≠ .null := by
    rcases inRange.is_whole with isInteger | isLong
    · simp [isInteger]
    · simp [isLong]
  rw [Value.negate, Value.whole_to_double isLeft]
  simp only [if_neg notNull]
  rw [Arithmetic.convert_wraps inRange.is_whole, Double.to_int_neg inRange.exact]

/-- Sums, differences and opposites are congruent to the exact results. A product is congruent to the double nearest to it,
and so to the exact one if that has no more than 53 significant bits. -/
theorem whole_arithmetic_wraps :
    Wraps (BinaryOperator.add.apply left right) (left.ty.wider right.ty) (x + y) ∧
    Wraps (BinaryOperator.subtract.apply left right) (left.ty.wider right.ty) (x - y) ∧
    Wraps (BinaryOperator.multiply.apply left right) (left.ty.wider right.ty) (nearestWhole (x * y)) ∧
    (Wraps (BinaryOperator.multiply.apply left right) (left.ty.wider right.ty) (x * y) ↔
      2 ^ excess (x * y).natAbs ∣ (x * y).natAbs) ∧
    (left.ty = .integer ∨ right.ty = .integer →
      Wraps (BinaryOperator.multiply.apply left right) (left.ty.wider right.ty) (x * y)) ∧
    Wraps left.negate left.ty (-x) := by
  have isWhole := (wider_in_range isLeft isRight).1.is_whole
  obtain ⟨leftRange, -⟩ := Value.whole_cases isLeft
  obtain ⟨rightRange, -⟩ := Value.whole_cases isRight
  obtain ⟨-, -, -, -, small⟩ := operands_exact isLeft isRight
  have wide : 10 ≤ (left.ty.wider right.ty).width := by rcases isWhole with same | same <;> rw [same] <;> decide
  have product : Wraps (BinaryOperator.multiply.apply left right) (left.ty.wider right.ty) (x * y) ↔
      2 ^ excess (x * y).natAbs ∣ (x * y).natAbs := by
    rw [multiply_whole isLeft isRight, whole_wraps_iff isWhole]
    exact nearest_congruent (Nat.lt_of_le_of_lt small (by decide)) wide
  refine ⟨?_, ?_, ?_, product, fun isInteger => ?_, ?_⟩
  · exact add_whole isLeft isRight ▸ Ty.whole_wraps isWhole _
  · exact subtract_whole isLeft isRight ▸ Ty.whole_wraps isWhole _
  · exact multiply_whole isLeft isRight ▸ Ty.whole_wraps isWhole _
  · rw [product, ← nearest_iff]
    exact nearest_small (product_exact isLeft isRight isInteger)
  · exact negate_whole isLeft ▸ Ty.whole_wraps leftRange.is_whole _

omit isLeft isRight in
theorem long_and_integer_wrap : Value.whole? (.long 2147483647) = some 2147483647 ∧ Value.whole? (.integer 3) = some 3 ∧
    Wraps (BinaryOperator.multiply.apply (.long 2147483647) (.integer 3)) .long (2147483647 * 3) := by
  have isLeft : Value.whole? (.long 2147483647) = some 2147483647 := rfl
  have isRight : Value.whole? (.integer 3) = some 3 := rfl
  exact ⟨isLeft, isRight, (whole_arithmetic_wraps isLeft isRight).2.2.2.2.1 (.inr rfl)⟩

omit isLeft isRight in
theorem long_product_loses_bit : BinaryOperator.multiply.apply (.long 2147483647) (.long 2147483647) = .ok (.long 0) ∧
    ¬Wraps (BinaryOperator.multiply.apply (.long 2147483647) (.long 2147483647)) .long (2147483647 * 2147483647) := by
  have product : BinaryOperator.multiply.apply (.long 2147483647) (.long 2147483647) = .ok (.long 0) :=
    multiply_whole (x := 2147483647) (y := 2147483647) rfl rfl
  refine ⟨product, ?_⟩
  rw [product]
  rintro ⟨value, wrapped, same, -, isNumber, congruent⟩
  cases same
  cases isNumber
  exact absurd congruent (by decide)

section Dividing

omit isRight in
theorem whole_operand (operator : BinaryOperator) : Arithmetic.wholeOperand operator (Double.ofInt x) = .ok x := by
  obtain ⟨inRange, -⟩ := Value.whole_cases isLeft
  obtain ⟨least, most⟩ := inRange.bounds
  have back := Double.to_int_of_int inRange.exact
  rw [Double.round_of_int inRange.exact] at back
  have above : (-2147483648 : Float) ≤ Double.ofInt x := by
    rw [least_long, Double.of_int_le (by decide) inRange.exact]
    exact least
  have below : Double.ofInt x ≤ (2147483647 : Float) := by
    rw [most_long, Double.of_int_le inRange.exact (by decide)]
    exact most
  rw [Arithmetic.wholeOperand, Double.round_of_int inRange.exact]
  simp only [if_pos (And.intro above below), back]

omit isRight in
theorem quotient_exact (y : Int) : (x.tdiv y).natAbs < 2 ^ 53 := by
  have bounds := (Value.whole_cases isLeft).1.bounds
  have less : (x.tdiv y).natAbs ≤ x.natAbs := Int.natAbs_tdiv_le_natAbs x y
  omega

theorem int_divide_whole (nonzero : y ≠ 0) :
    BinaryOperator.intDivide.apply left right = .ok ((left.ty.wider right.ty).whole (x.tdiv y)) := by
  rw [BinaryOperator.apply_whole rfl isLeft isRight, Arithmetic.numeric, whole_operand isLeft, whole_operand isRight]
  change Except.bind (if y = 0 then _ else _) _ = _
  rw [if_neg nonzero]
  exact Arithmetic.convert_of_int (wider_in_range isLeft isRight).1.is_whole (quotient_exact isLeft y)

theorem remainder_in_range : (left.ty.wider right.ty).InRange (x.tmod y) := by
  refine (wider_in_range isLeft isRight).1.between ?_
  have less : (x.tmod y).natAbs ≤ x.natAbs := Int.natAbs_tmod x y ▸ Nat.mod_le _ _
  rcases Int.le_total 0 x with positive | negative
  · have same := Int.tmod_nonneg y positive
    omega
  · have same := Int.tmod_nonneg y (Int.neg_nonneg_of_nonpos negative)
    rw [Int.neg_tmod] at same
    omega

theorem modulo_whole (nonzero : y ≠ 0) :
    BinaryOperator.modulo.apply left right = .ok ((left.ty.wider right.ty).whole (x.tmod y)) := by
  rw [BinaryOperator.apply_whole rfl isLeft isRight, Arithmetic.numeric, whole_operand isLeft, whole_operand isRight]
  change Except.bind (if y = 0 then _ else _) _ = _
  rw [if_neg nonzero]
  exact Arithmetic.convert_of_int (wider_in_range isLeft isRight).1.is_whole (remainder_in_range isLeft isRight).exact

theorem divide_by_zero {operator : BinaryOperator} (divides : operator = .intDivide ∨ operator = .modulo) (zero : y = 0) :
    operator.apply left right = .error .divisionByZero := by
  rcases divides with rfl | rfl <;>
    rw [BinaryOperator.apply_whole rfl isLeft isRight, Arithmetic.numeric, whole_operand isLeft, whole_operand isRight] <;>
    change Except.bind (if y = 0 then _ else _) _ = _ <;>
    rw [if_pos zero] <;> rfl

/-- Both operators fail for a divisor of zero only. The quotient is truncated and wrapped, and the remainder is what is
missing from it. -/
theorem whole_division_law :
    (∀ operator : BinaryOperator, operator = .intDivide ∨ operator = .modulo →
      ((∃ fault, operator.apply left right = .error fault ∧ fault.code = 11) ↔ y = 0) ∧
      ((∃ value, operator.apply left right = .ok value) ↔ y ≠ 0)) ∧
    (y ≠ 0 → ∃ quotient remainder q r,
      BinaryOperator.intDivide.apply left right = .ok quotient ∧ BinaryOperator.modulo.apply left right = .ok remainder ∧
      quotient.ty = left.ty.wider right.ty ∧ remainder.ty = left.ty.wider right.ty ∧
      quotient.whole? = some q ∧ remainder.whole? = some r ∧ q = (x.tdiv y).bmod (2 ^ quotient.ty.width) ∧
      (r = 0 ∨ r.sign = x.sign) ∧ r.natAbs < y.natAbs ∧ x ≡ q * y + r [ZMOD 2 ^ quotient.ty.width]) := by
  have isWhole := (wider_in_range isLeft isRight).1.is_whole
  refine ⟨fun operator divides => ?_, fun nonzero => ?_⟩
  · by_cases zero : y = 0
    · have fails := divide_by_zero isLeft isRight divides zero
      refine ⟨iff_of_true ⟨_, fails, rfl⟩ zero, iff_of_false ?_ (not_not_intro zero)⟩
      rintro ⟨value, succeeds⟩
      rw [fails] at succeeds
      cases succeeds
    · have succeeds : ∃ value, operator.apply left right = .ok value := by
        rcases divides with rfl | rfl
        · exact ⟨_, int_divide_whole isLeft isRight zero⟩
        · exact ⟨_, modulo_whole isLeft isRight zero⟩
      refine ⟨iff_of_false ?_ zero, iff_of_true succeeds zero⟩
      obtain ⟨value, succeeds⟩ := succeeds
      rintro ⟨fault, fails, -⟩
      rw [succeeds] at fails
      cases fails
  · have quotientTy := Ty.whole_ty_of_is_whole isWhole (x.tdiv y)
    have remainderTy := Ty.whole_ty_of_is_whole isWhole (x.tmod y)
    refine ⟨_, _, _, x.tmod y, int_divide_whole isLeft isRight nonzero, modulo_whole isLeft isRight nonzero, quotientTy,
      remainderTy, Value.whole_of_whole isWhole _, Value.whole_in_range (remainder_in_range isLeft isRight), ?_, ?_, ?_, ?_⟩
    · rw [quotientTy]
    · rw [Int.sign_tmod]
      split
      · next divides => exact .inl (Int.tmod_eq_zero_of_dvd divides)
      · exact .inr rfl
    · rw [Int.natAbs_tmod]
      exact Nat.mod_lt _ (Int.natAbs_pos.mpr nonzero)
    · rw [quotientTy]
      have congruent : (x.tdiv y).bmod (2 ^ (left.ty.wider right.ty).width) ≡ x.tdiv y
          [ZMOD 2 ^ (left.ty.wider right.ty).width] := Int.bmod_emod
      calc x = x.tdiv y * y + x.tmod y := (Int.tdiv_mul_add_tmod x y).symm
        _ ≡ _ [ZMOD _] := (congruent.symm.mul_right y).add_right _

omit isLeft isRight in
theorem least_long_divided : Value.whole? (.long (-2147483648)) = some (-2147483648) ∧
    Value.whole? (.integer (-1)) = some (-1) ∧ (-1 : Int) ≠ 0 ∧
    ∃ quotient remainder q r, BinaryOperator.intDivide.apply (.long (-2147483648)) (.integer (-1)) = .ok quotient ∧
      BinaryOperator.modulo.apply (.long (-2147483648)) (.integer (-1)) = .ok remainder ∧
      quotient.whole? = some q ∧ remainder.whole? = some r ∧ q = -2147483648 ∧ r = 0 := by
  have isLeft : Value.whole? (.long (-2147483648)) = some (-2147483648) := rfl
  have isRight : Value.whole? (.integer (-1)) = some (-1) := rfl
  obtain ⟨quotient, remainder, q, r, divided, rest, quotientTy, -, isQuotient, isRemainder, isWrapped, -, less, -⟩ :=
    (whole_division_law isLeft isRight).2 (by decide)
  refine ⟨isLeft, isRight, by decide, quotient, remainder, q, r, divided, rest, isQuotient, isRemainder, ?_, by omega⟩
  rw [isWrapped, quotientTy]
  decide

end Dividing

end Arithmetic

end BasicLang
