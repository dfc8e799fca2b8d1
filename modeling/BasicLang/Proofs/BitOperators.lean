import BasicLang.Proofs.WholeOperators

set_option autoImplicit false

namespace BasicLang

namespace BinaryOperator

def bitwise (operator : BinaryOperator) {width : Nat} (left right : BitVec width) : BitVec width :=
  match operator with
  | .and => left &&& right
  | .or => left ||| right
  | .xor => left ^^^ right
  | .eqv => ~~~(left ^^^ right)
  | _ => ~~~left ||| right

def truth (operator : BinaryOperator) (left right : Bool) : Bool :=
  match operator with
  | .and => left && right
  | .or => left || right
  | .xor => left ^^ right
  | .eqv => left == right
  | _ => !left || right

variable {operator : BinaryOperator}

theorem bitwise_extended {width wide : Nat} (positive : 0 < width) (left right : BitVec width) :
    operator.bitwise (left.signExtend wide) (right.signExtend wide) = (operator.bitwise left right).signExtend wide := by
  cases operator <;>
    simp only [bitwise, BitVec.signExtend_and, BitVec.signExtend_or, BitVec.signExtend_xor, BitVec.signExtend_not positive]

theorem bits_bitwise (left right : Int64) :
    (operator.bits left right).toBitVec = operator.bitwise left.toBitVec right.toBitVec := by
  cases operator <;> rfl

end BinaryOperator

def Value.signExtended (width : Nat) : Value → BitVec width
  | .integer value => value.toBitVec.signExtend width
  | .long value => value.toBitVec.signExtend width
  | _ => 0

def Value.Compared (value : Value) : Prop :=
  ∃ (operator : BinaryOperator) (left right : Value), operator.isComparison = true ∧ operator.apply left right = .ok value

namespace Ty

variable {ty : Ty} {number other : Int}

theorem width_positive (ty : Ty) : 0 < ty.width := by
  cases ty <;> exact Nat.succ_pos _

theorem in_range_iff (isWhole : ty.IsWhole) :
    ty.InRange number ↔ -2 ^ (ty.width - 1) ≤ number ∧ number < 2 ^ (ty.width - 1) := by
  rcases isWhole with rfl | rfl
  · have power : (2 : Int) ^ (integer.width - 1) = 32768 := by decide
    rw [power, InRange]
    omega
  · have power : (2 : Int) ^ (long.width - 1) = 2147483648 := by decide
    rw [power, InRange]
    omega

theorem InRange.held (inRange : ty.InRange number) {width : Nat} (wide : ty.width ≤ width) :
    (BitVec.ofInt width number).toInt = number := by
  have enough : (2 : Int) ^ (ty.width - 1) ≤ 2 ^ (width - 1) := pow_le_pow_right₀ (by decide) (by omega)
  have positive := ty.width_positive
  have bounds := (in_range_iff inRange.is_whole).mp inRange
  exact BitVec.toInt_ofInt_eq_self (by omega) (by omega) (by omega)

theorem InRange.extended (inRange : ty.InRange number) {width : Nat} (wide : ty.width ≤ width) :
    BitVec.ofInt width number = (BitVec.ofInt ty.width number).signExtend width := by
  apply BitVec.eq_of_toInt_eq
  rw [inRange.held wide, BitVec.toInt_signExtend_of_le wide, inRange.held (Nat.le_refl _)]

theorem whole_congr (same : BitVec.ofInt ty.width number = BitVec.ofInt ty.width other) : ty.whole number = ty.whole other := by
  cases ty with
  | integer => exact congrArg Value.integer (Int16.toBitVec_inj.mp same)
  | _ => exact congrArg Value.long (Int32.toBitVec_inj.mp same)

theorem bits_in_range (isWhole : ty.IsWhole) (bits : BitVec ty.width) : ty.InRange bits.toInt :=
  (in_range_iff isWhole).mpr ⟨bits.le_toInt, bits.toInt_lt⟩

end Ty

section Logic

variable {left right : Value} {x y : Int} {operator : BinaryOperator}

theorem Value.sign_extended_of_whole (isWhole : left.whole? = some x) {width : Nat} (wide : left.ty.width ≤ width) :
    left.signExtended width = BitVec.ofInt width x := by
  obtain ⟨inRange, -⟩ := whole_cases isWhole
  rw [inRange.extended wide]
  cases left with
  | integer value =>
    cases isWhole
    exact congrArg (BitVec.signExtend width) (BitVec.ofInt_toInt (x := value.toBitVec)).symm
  | long value =>
    cases isWhole
    exact congrArg (BitVec.signExtend width) (BitVec.ofInt_toInt (x := value.toBitVec)).symm
  | _ => cases isWhole

theorem rounded_bits_of_int (small : x.natAbs < 2 ^ 53) : Arithmetic.roundedBits (Double.ofInt x) = Int64.ofInt x := by
  rw [Arithmetic.roundedBits, Double.to_int_of_int small]

variable (isLeft : left.whole? = some x) (isRight : right.whole? = some y)
include isLeft isRight

theorem logical_whole (isLogical : operator.isLogical = true) : operator.apply left right =
    .ok ((left.ty.wider right.ty).whole
      (operator.bitwise (BitVec.ofInt (left.ty.wider right.ty).width x) (BitVec.ofInt _ y)).toInt) := by
  obtain ⟨leftRange, rightRange⟩ := wider_in_range isLeft isRight
  have isWhole := leftRange.is_whole
  have stays : operator.staysWhole = true := by cases operator <;> first | rfl | cases isLogical
  have narrow : (left.ty.wider right.ty).width ≤ 64 := by rcases isWhole with same | same <;> rw [same] <;> decide
  have bits : (operator.bits (Int64.ofInt x) (Int64.ofInt y)).toInt =
      (operator.bitwise (BitVec.ofInt (left.ty.wider right.ty).width x) (BitVec.ofInt _ y)).toInt := by
    rw [Int64.toInt, BinaryOperator.bits_bitwise, Int64.toBitVec_ofInt, Int64.toBitVec_ofInt, leftRange.extended narrow,
      rightRange.extended narrow, BinaryOperator.bitwise_extended (Ty.width_positive _), BitVec.toInt_signExtend_of_le narrow]
  have numeric : Arithmetic.numeric operator (Double.ofInt x) (Double.ofInt y) = .ok (Double.ofInt
      (operator.bitwise (BitVec.ofInt (left.ty.wider right.ty).width x) (BitVec.ofInt _ y)).toInt) := by
    rw [← bits, ← rounded_bits_of_int leftRange.exact, ← rounded_bits_of_int rightRange.exact]
    cases operator <;> first | rfl | cases isLogical
  rw [BinaryOperator.apply_whole stays isLeft isRight, numeric]
  exact Arithmetic.convert_of_int isWhole (Ty.bits_in_range isWhole _).exact

omit isRight in
theorem complement_whole : left.complement = .ok (left.ty.whole (-x - 1)) := by
  obtain ⟨inRange, -⟩ := Value.whole_cases isLeft
  have bounds := inRange.bounds
  have inverted : (~~~Int64.ofInt x).toInt = -x - 1 := by
    rw [Int64.toInt_not, Int64.toInt_ofInt_of_le (by omega) (by omega)]
    exact Int.bmod_eq_of_le (by omega) (by omega)
  rw [Value.complement, Value.whole_to_double isLeft]
  simp only [rounded_bits_of_int inRange.exact, inverted]
  rcases inRange.is_whole with isInteger | isLong
  · rw [isInteger, if_pos rfl]
    exact Arithmetic.convert_of_int (.inl rfl) (by omega)
  · rw [isLong, if_neg (by decide)]
    exact Arithmetic.convert_of_int (.inr rfl) (by omega)

omit isLeft isRight in
theorem of_int_inverted (width : Nat) (number : Int) : BitVec.ofInt width (-number - 1) = ~~~BitVec.ofInt width number := by
  have next : BitVec.ofInt width (-number - 1) + BitVec.ofNat width 1 = ~~~BitVec.ofInt width number + BitVec.ofNat width 1 := by
    have one : BitVec.ofInt width 1 = BitVec.ofNat width 1 := rfl
    rw [← BitVec.neg_eq_not_add, ← BitVec.ofInt_neg, ← one, ← BitVec.ofInt_add, Int.sub_add_cancel]
  exact (BitVec.add_left_inj _).mp next

omit isRight in
theorem complemented : ∃ value, left.complement = .ok value ∧ value.whole? = some (-x - 1) ∧ value.ty = left.ty := by
  obtain ⟨inRange, -⟩ := Value.whole_cases isLeft
  have opposite : left.ty.InRange (-x - 1) := by
    have bounds := (Ty.in_range_iff inRange.is_whole).mp inRange
    rw [Ty.in_range_iff inRange.is_whole]
    omega
  exact ⟨_, complement_whole isLeft, Value.whole_in_range opposite, Ty.whole_ty_of_is_whole inRange.is_whole _⟩

omit isRight in
theorem complement_twice : left.complement.bind Value.complement = .ok left := by
  obtain ⟨value, isValue, isWhole, isTy⟩ := complemented isLeft
  have back : -(-x - 1) - 1 = x := by omega
  rw [isValue]
  change value.complement = _
  rw [complement_whole isWhole, isTy, back, ← (Value.whole_cases isLeft).2]

theorem complement_logical (isLogical : operator.isLogical = true) : (operator.apply left right).bind Value.complement =
    .ok ((left.ty.wider right.ty).whole
      (~~~operator.bitwise (BitVec.ofInt (left.ty.wider right.ty).width x) (BitVec.ofInt _ y)).toInt) := by
  have isWhole := (wider_in_range isLeft isRight).1.is_whole
  rw [logical_whole isLeft isRight isLogical]
  change Value.complement _ = _
  rw [complement_whole (Value.whole_in_range (Ty.bits_in_range isWhole _)), Ty.whole_ty_of_is_whole isWhole]
  refine congrArg Except.ok (Ty.whole_congr ?_)
  rw [of_int_inverted, BitVec.ofInt_toInt, BitVec.ofInt_toInt]

theorem logical_complement (isLogical : operator.isLogical = true) :
    (left.complement.bind fun inverted => operator.apply inverted right) =
      .ok ((left.ty.wider right.ty).whole
        (operator.bitwise (~~~BitVec.ofInt (left.ty.wider right.ty).width x) (BitVec.ofInt _ y)).toInt) := by
  obtain ⟨value, isValue, isWhole, isTy⟩ := complemented isLeft
  rw [isValue]
  change operator.apply value right = _
  rw [logical_whole isWhole isRight isLogical, isTy, of_int_inverted]

theorem logical_complements (isLogical : operator.isLogical = true) :
    (left.complement.bind fun first => right.complement.bind fun second => operator.apply first second) =
      .ok ((left.ty.wider right.ty).whole
        (operator.bitwise (~~~BitVec.ofInt (left.ty.wider right.ty).width x) (~~~BitVec.ofInt _ y)).toInt) := by
  obtain ⟨value, isValue, isWhole, isTy⟩ := complemented isRight
  rw [isValue]
  change (left.complement.bind fun first => operator.apply first value) = _
  rw [logical_complement isLeft isWhole isLogical, isTy, of_int_inverted]

omit isLeft isRight in
theorem width_le_wider (isLeft : left.ty.IsWhole) (isRight : right.ty.IsWhole) :
    left.ty.width ≤ (left.ty.wider right.ty).width ∧ right.ty.width ≤ (left.ty.wider right.ty).width := by
  rcases isLeft with isLeft | isLeft <;> rcases isRight with isRight | isRight <;> rw [isLeft, isRight] <;> decide

theorem logical_bits (isLogical : operator.isLogical = true) : ∃ value, operator.apply left right = .ok value ∧
    value.ty = left.ty.wider right.ty ∧ value.signExtended value.ty.width =
      operator.bitwise (left.signExtended value.ty.width) (right.signExtended value.ty.width) := by
  have isWhole := (wider_in_range isLeft isRight).1.is_whole
  obtain ⟨leftWide, rightWide⟩ :=
    width_le_wider (Value.whole_cases isLeft).1.is_whole (Value.whole_cases isRight).1.is_whole
  refine ⟨_, logical_whole isLeft isRight isLogical, Ty.whole_ty_of_is_whole isWhole _, ?_⟩
  rw [Value.sign_extended_of_whole (Value.whole_in_range (Ty.bits_in_range isWhole _)) (Nat.le_refl _)]
  rw [Ty.whole_ty_of_is_whole isWhole, BitVec.ofInt_toInt, Value.sign_extended_of_whole isLeft leftWide,
    Value.sign_extended_of_whole isRight rightWide]

omit isRight in
theorem complement_bits : ∃ value, left.complement = .ok value ∧ value.ty = left.ty ∧
    value.signExtended value.ty.width = ~~~left.signExtended value.ty.width := by
  obtain ⟨value, isValue, isWhole, isTy⟩ := complemented isLeft
  refine ⟨value, isValue, isTy, ?_⟩
  rw [Value.sign_extended_of_whole isWhole (Nat.le_refl _), isTy, Value.sign_extended_of_whole isLeft (Nat.le_refl _),
    of_int_inverted]

end Logic

section Truth

variable {operator : BinaryOperator} {value : Value}

theorem of_bool_whole (truth : Bool) : (Value.ofBool truth).whole? = some (if truth then -1 else 0) := by
  cases truth <;> rfl

theorem is_true_of_bool (truth : Bool) : (Value.ofBool truth).isTrue = truth := by
  cases truth <;> decide +kernel

theorem Value.Compared.of_bool (compared : value.Compared) : ∃ truth, value = .ofBool truth := by
  obtain ⟨operator, left, right, compares, applied⟩ := compared
  unfold BinaryOperator.apply at applied
  simp only [compares, if_true] at applied
  split at applied
  · cases applied
  · split at applied
    · cases applied
      exact ⟨_, rfl⟩
    · split at applied
      · cases applied
        exact ⟨_, rfl⟩
      · cases applied

theorem logical_of_bool (isLogical : operator.isLogical = true) (left right : Bool) :
    operator.apply (.ofBool left) (.ofBool right) = .ok (.ofBool (operator.truth left right)) := by
  rw [logical_whole (of_bool_whole left) (of_bool_whole right) isLogical]
  cases left <;> cases right <;> cases operator <;> rfl

theorem complement_of_bool (truth : Bool) : (Value.ofBool truth).complement = .ok (.ofBool !truth) := by
  rw [complement_whole (of_bool_whole truth)]
  cases truth <;> rfl

end Truth

/-- The logical operators work bit by bit, and on the results of comparisons as on truth values. -/
theorem logical_operators_are_bitwise :
    (∀ (left right : Value) (x y : Int), left.whole? = some x → right.whole? = some y →
      (∀ operator : BinaryOperator, operator.isLogical = true → ∃ value, operator.apply left right = .ok value ∧
        value.ty = left.ty.wider right.ty ∧ value.signExtended value.ty.width =
          operator.bitwise (left.signExtended value.ty.width) (right.signExtended value.ty.width)) ∧
      (∃ value, left.complement = .ok value ∧ value.ty = left.ty ∧
        value.signExtended value.ty.width = ~~~left.signExtended value.ty.width) ∧
      left.complement.bind Value.complement = .ok left ∧
      (BinaryOperator.and.apply left right).bind Value.complement =
        (left.complement.bind fun first => right.complement.bind fun second => BinaryOperator.or.apply first second) ∧
      (BinaryOperator.or.apply left right).bind Value.complement =
        (left.complement.bind fun first => right.complement.bind fun second => BinaryOperator.and.apply first second) ∧
      BinaryOperator.eqv.apply left right = (BinaryOperator.xor.apply left right).bind Value.complement ∧
      BinaryOperator.imp.apply left right = (left.complement.bind fun first => BinaryOperator.or.apply first right)) ∧
    (∀ left right : Value, left.Compared → right.Compared →
      left = .ofBool left.isTrue ∧
      (∀ operator : BinaryOperator, operator.isLogical = true → ∃ value, operator.apply left right = .ok value ∧
        value.isTrue = operator.truth left.isTrue right.isTrue ∧ value = .ofBool value.isTrue) ∧
      ∃ value, left.complement = .ok value ∧ value.isTrue = !left.isTrue ∧ value = .ofBool value.isTrue) := by
  refine ⟨fun left right x y isLeft isRight => ?_, fun left right leftCompared rightCompared => ?_⟩
  · refine ⟨fun operator isLogical => logical_bits isLeft isRight isLogical, complement_bits isLeft,
      complement_twice isLeft, ?_, ?_, ?_, ?_⟩
    · rw [complement_logical isLeft isRight rfl, logical_complements isLeft isRight rfl, BinaryOperator.bitwise,
        BinaryOperator.bitwise, BitVec.not_and]
    · rw [complement_logical isLeft isRight rfl, logical_complements isLeft isRight rfl, BinaryOperator.bitwise,
        BinaryOperator.bitwise, BitVec.not_or]
    · rw [logical_whole isLeft isRight rfl, complement_logical isLeft isRight rfl]
      rfl
    · rw [logical_whole isLeft isRight rfl, logical_complement isLeft isRight rfl]
      rfl
  · obtain ⟨leftTruth, rfl⟩ := leftCompared.of_bool
    obtain ⟨rightTruth, rfl⟩ := rightCompared.of_bool
    rw [is_true_of_bool, is_true_of_bool]
    refine ⟨rfl, fun operator isLogical => ?_, ?_⟩
    · exact ⟨_, logical_of_bool isLogical leftTruth rightTruth, is_true_of_bool _, by rw [is_true_of_bool]⟩
    · exact ⟨_, complement_of_bool leftTruth, is_true_of_bool _, by rw [is_true_of_bool]⟩

theorem integer_and_long_follow_de_morgan : Value.whole? (.integer (-2)) = some (-2) ∧ Value.whole? (.long 65535) = some 65535 ∧
    (BinaryOperator.and.apply (.integer (-2)) (.long 65535)).bind Value.complement =
      ((Value.integer (-2)).complement.bind fun first =>
        (Value.long 65535).complement.bind fun second => BinaryOperator.or.apply first second) ∧
    (Value.ofBool true).Compared ∧ Value.ofBool true = .ofBool (Value.ofBool true).isTrue := by
  have compared : (Value.ofBool true).Compared := ⟨.equal, .string "a", .string "a", rfl, rfl⟩
  refine ⟨rfl, rfl, (logical_operators_are_bitwise.1 (.integer (-2)) (.long 65535) (-2) 65535 rfl rfl).2.2.2.1, compared, ?_⟩
  exact (logical_operators_are_bitwise.2 _ _ compared compared).1

end BasicLang
