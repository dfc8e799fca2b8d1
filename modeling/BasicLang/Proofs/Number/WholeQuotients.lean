import BasicLang.Proofs.Number.WholeValues

set_option autoImplicit false

namespace BasicLang

open Float.Model Float.Model.UnpackedFloat

section Rounding

theorem rounded_mantissa_cases (number : ExtendedMantissa) :
    number.roundedMantissa = number.mantissa ∨ number.roundedMantissa = number.mantissa + 1 := by
  obtain ⟨mantissa, roundBit, stickyBit⟩ := number
  cases roundBit <;> cases stickyBit
  · exact .inl rfl
  · exact .inl rfl
  · change mantissa + mantissa % 2 = mantissa ∨ mantissa + mantissa % 2 = mantissa + 1
    omega
  · exact .inr rfl

theorem shifted_mantissa (number : ExtendedMantissa) (places : Nat) :
    (number >>> places).mantissa = number.mantissa / 2 ^ places := by
  change (Nat.repeat ExtendedMantissa.shiftRightOne places _).mantissa = _
  induction places with
  | zero => exact (Nat.div_one _).symm
  | succ places ih =>
    rw [Nat.repeat, ExtendedMantissa.shiftRightOne, ih, Nat.div_div_eq_div_mul, Nat.pow_succ]

theorem mantissa_of_accuracy (mantissa : Nat) (accuracy : Accuracy) :
    (ExtendedMantissa.ofMantissaAndAccuracy mantissa accuracy).mantissa = mantissa := by
  unfold ExtendedMantissa.ofMantissaAndAccuracy
  split <;> rfl

theorem round_cut (sign : Sign) {number : Nat} (large : 2 ^ 52 ≤ number) {exponent : Int} (normal : -1074 ≤ exponent)
    (accuracy : Accuracy) : ∃ mantissa carry, ∃ positive : 0 < mantissa,
      roundWithAccuracy Format.binary64 sign number exponent accuracy =
        .finite sign mantissa (exponent + (excess number + carry : Nat)) positive ∧
      mantissa.log2 = 52 ∧ carry ≤ 1 ∧
      (mantissa * 2 ^ carry = number / 2 ^ excess number ∨ mantissa * 2 ^ carry = number / 2 ^ excess number + 1) := by
  have positive : 0 < number := Nat.lt_of_lt_of_le (by decide) large
  have long : 52 ≤ number.log2 := (Nat.le_log2 (Nat.ne_of_gt positive)).mpr large
  have target : Format.binary64.targetExponent (totalExponent number exponent) = exponent + excess number := by
    simp only [Format.targetExponent, totalExponent, Format.mantissaBits, Format.minExponent, excess]
    omega
  have amount : (exponent + excess number - exponent).toNat = excess number := by omega
  have first : shiftToTargetExponent Format.binary64 number exponent accuracy =
      (ExtendedMantissa.ofMantissaAndAccuracy number accuracy >>> excess number, exponent + excess number) := by
    rw [shiftToTargetExponent, target, shiftToExponent]
    simp only [amount]
  obtain ⟨low, high⟩ := cut_bounds large
  have rounded := rounded_mantissa_cases (ExtendedMantissa.ofMantissaAndAccuracy number accuracy >>> excess number)
  rw [shifted_mantissa, mantissa_of_accuracy] at rounded
  obtain ⟨mantissa, carry, split, bits, carries⟩ := @carried_bits
    (ExtendedMantissa.ofMantissaAndAccuracy number accuracy >>> excess number).roundedMantissa (by omega) (by omega)
  have mantissaPositive : 0 < mantissa := Nat.pos_of_ne_zero fun isZero => by
    rw [isZero] at bits
    cases bits
  have second : shiftToTargetExponent Format.binary64 (mantissa * 2 ^ carry) (exponent + excess number) .exact =
      (⟨mantissa, false, false⟩, exponent + (excess number + carry : Nat)) := by
    have shifted := shift_to_target mantissaPositive bits
      (by omega : -1074 ≤ exponent + ((excess number + carry : Nat) : Int)) carry
    rwa [Nat.cast_add, ← Int.add_assoc, Int.add_sub_cancel, Int.add_assoc, ← Nat.cast_add] at shifted
  refine ⟨mantissa, carry, mantissaPositive, ?_, bits, carries, split ▸ rounded⟩
  simp only [roundWithAccuracy, first, split, second, dif_neg (Nat.ne_of_gt mantissaPositive)]

end Rounding

section Dividing

-- The quotient is a whole number or further from the next one than it can be rounded.
theorem floor_quotient {dividend divisor places : Nat} (positive : 0 < divisor) (below : divisor < 2 ^ places) :
    dividend * 2 ^ places / divisor / 2 ^ places = dividend / divisor ∧
      (dividend * 2 ^ places / divisor + 1) / 2 ^ places = dividend / divisor := by
  have scale := Nat.two_pow_pos places
  have floor : dividend * 2 ^ places / divisor / 2 ^ places = dividend / divisor := by
    rw [Nat.div_div_eq_div_mul, Nat.mul_div_mul_right _ _ scale]
  refine ⟨floor, ?_⟩
  have next : dividend + 1 ≤ (dividend / divisor + 1) * divisor := by
    have rest := Nat.mod_lt dividend positive
    have parts := Nat.div_add_mod dividend divisor
    rw [Nat.add_mul, Nat.one_mul, Nat.mul_comm]
    omega
  have apart : dividend * 2 ^ places / divisor + 1 < (dividend / divisor + 1) * 2 ^ places := by
    rw [← Nat.add_div_right _ positive]
    refine Nat.div_lt_of_lt_mul ?_
    calc dividend * 2 ^ places + divisor < (dividend + 1) * 2 ^ places := by
          rw [Nat.add_mul, Nat.one_mul]
          omega
      _ ≤ (dividend / divisor + 1) * divisor * 2 ^ places := Nat.mul_le_mul_right _ next
      _ = divisor * ((dividend / divisor + 1) * 2 ^ places) := by ring
  have least : dividend / divisor * 2 ^ places ≤ dividend * 2 ^ places / divisor := by
    rw [← floor]
    exact Nat.div_mul_le_self _ _
  exact Nat.div_eq_of_lt_le (Nat.le_succ_of_le least) apart

variable {left right : Int}

theorem div_unpacked (leftNonzero : left ≠ 0) (rightNonzero : right ≠ 0) (leftSmall : left.natAbs < 2 ^ 53)
    (rightSmall : right.natAbs < 2 ^ 53) :
    UnpackedFloat.div Format.binary64 (unpackedWhole left) (unpackedWhole right) =
      roundWithAccuracy Format.binary64 (signOf left / signOf right)
        (scaled left.natAbs * 2 ^ 53 / scaled right.natAbs)
        ((headroom right.natAbs : Int) - headroom left.natAbs - 53)
        (accuracyOfFraction (scaled left.natAbs * 2 ^ 53 % scaled right.natAbs) (scaled right.natAbs)) := by
  have leftLog := log_scaled (Int.natAbs_pos.mpr leftNonzero) leftSmall
  have rightLog := log_scaled (Int.natAbs_pos.mpr rightNonzero) rightSmall
  have leftRoom := headroom_bounds left.natAbs
  have rightRoom := headroom_bounds right.natAbs
  have leftLeast : headroom left.natAbs ≤ 52 := Nat.sub_le _ _
  have target : min (-(headroom left.natAbs : Int) - -(headroom right.natAbs : Int)) (Format.binary64.targetExponent
      (totalExponent (scaled left.natAbs) (-(headroom left.natAbs : Int)) -
        totalExponent (scaled right.natAbs) (-(headroom right.natAbs : Int)))) =
      (headroom right.natAbs : Int) - headroom left.natAbs - 53 := by
    simp only [Format.targetExponent, totalExponent, leftLog, rightLog, Format.mantissaBits, Format.minExponent]
    omega
  have amount : (-(headroom left.natAbs : Int) - -(headroom right.natAbs : Int) -
      ((headroom right.natAbs : Int) - headroom left.natAbs - 53)).toNat = 53 := by omega
  rw [unpacked_nonzero leftNonzero leftSmall, unpacked_nonzero rightNonzero rightSmall, UnpackedFloat.div, divCore]
  simp only [target, amount, Nat.shiftLeft_eq]

theorem truncate_normal (sign : Sign) {mantissa : Nat} (positive : 0 < mantissa) (bits : mantissa.log2 = 52)
    {exponent : Int} {places : Nat} (negative : exponent = -((places + 1 : Nat) : Int)) (few : places < 1074) :
    Double.truncate ⟨Float.Model.pack (.finite sign mantissa exponent positive)⟩ =
      (Binary.finite (sign == .negative) (mantissa / 2 ^ (places + 1)) 0).toDouble := by
  have isNegative : exponent = .negSucc places := by rw [negative, Int.negSucc_eq, Nat.cast_add, Nat.cast_one]
  rw [Double.truncate, Double.round, of_double_normal sign positive bits (by omega) (by omega), isNegative]
  rfl

variable {dividend divisor : Nat}

-- The first 53 bits of a quotient are those of a quotient of the numbers, shifted so far that the divisor has fewer bits.
theorem scaled_quotient (positive : 0 < dividend) (small : dividend < 2 ^ 51) (divides : 0 < divisor)
    (divisorSmall : divisor < 2 ^ 53) :
    2 ^ 52 ≤ scaled dividend * 2 ^ 53 / scaled divisor ∧ ∃ places,
      headroom divisor + excess (scaled dividend * 2 ^ 53 / scaled divisor) + places = headroom dividend + 53 ∧
      2 ≤ places ∧ divisor < 2 ^ places ∧
      scaled dividend * 2 ^ 53 / scaled divisor / 2 ^ excess (scaled dividend * 2 ^ 53 / scaled divisor) =
        dividend * 2 ^ places / divisor := by
  have fits : dividend < 2 ^ 53 := by omega
  have scaledLow := le_scaled positive fits
  have scaledHigh := scaled_lt positive fits
  have divisorLow := le_scaled divides divisorSmall
  have divisorHigh := scaled_lt divides divisorSmall
  have dividendLog : dividend.log2 < 51 := (Nat.log2_lt (Nat.ne_of_gt positive)).mpr small
  have divisorLog := log_le_of_lt divisorSmall
  have large : 2 ^ 52 ≤ scaled dividend * 2 ^ 53 / scaled divisor := by
    rw [Nat.le_div_iff_mul_le (by omega)]
    exact Nat.mul_le_mul scaledLow (Nat.le_of_lt divisorHigh)
  have few : excess (scaled dividend * 2 ^ 53 / scaled divisor) ≤ 1 := by
    have short : scaled dividend * 2 ^ 53 / scaled divisor < 2 ^ 54 := by
      refine Nat.div_lt_of_lt_mul ?_
      omega
    have log : (scaled dividend * 2 ^ 53 / scaled divisor).log2 < 54 := (Nat.log2_lt (by omega)).mpr short
    rw [excess]
    omega
  have room : headroom dividend = 52 - dividend.log2 := rfl
  have divisorRoom : headroom divisor = 52 - divisor.log2 := rfl
  generalize excess (scaled dividend * 2 ^ 53 / scaled divisor) = extra at few
  obtain ⟨places, isPlaces⟩ : ∃ places, headroom divisor + extra + places = headroom dividend + 53 :=
    ⟨headroom dividend + 53 - (headroom divisor + extra), by omega⟩
  refine ⟨large, places, isPlaces, by omega, ?_, ?_⟩
  · have bits : divisor < 2 ^ (divisor.log2 + 1) := Nat.lt_log2_self
    exact Nat.lt_of_lt_of_le bits (Nat.pow_le_pow_right (by decide) (by omega))
  · rw [Nat.div_div_eq_div_mul, scaled, scaled, Nat.mul_assoc, ← Nat.pow_add, Nat.mul_assoc, ← Nat.pow_add, ← isPlaces,
      Nat.add_comm _ places, Nat.pow_add, ← Nat.mul_assoc, Nat.mul_div_mul_right _ _ (Nat.two_pow_pos _)]

theorem truncate_quotient (leftNonzero : left ≠ 0) (rightNonzero : right ≠ 0) (leftSmall : left.natAbs < 2 ^ 51)
    (rightSmall : right.natAbs < 2 ^ 53) :
    Double.truncate (Double.ofInt left / Double.ofInt right) =
      (Binary.finite ((signOf left / signOf right) == .negative) (left.natAbs / right.natAbs) 0).toDouble := by
  have leftFits : left.natAbs < 2 ^ 53 := by omega
  have rightPositive := Int.natAbs_pos.mpr rightNonzero
  have division : Double.ofInt left / Double.ofInt right = Float.ofModel (Float.Model.pack
      (UnpackedFloat.div Format.binary64 (unpackedWhole left) (unpackedWhole right))) := by
    rw [← unpack_of_int leftFits, ← unpack_of_int rightSmall]
    rfl
  have leftRoom : headroom left.natAbs ≤ 52 := Nat.sub_le _ _
  obtain ⟨large, places, total, some, below, quotient⟩ :=
    scaled_quotient (Int.natAbs_pos.mpr leftNonzero) leftSmall rightPositive rightSmall
  obtain ⟨mantissa, carry, positive, rounded, bits, carries, cut⟩ := round_cut (signOf left / signOf right) large
    (by omega : -1074 ≤ (headroom right.natAbs : Int) - headroom left.natAbs - 53)
    (accuracyOfFraction (scaled left.natAbs * 2 ^ 53 % scaled right.natAbs) (scaled right.natAbs))
  rw [quotient] at cut
  obtain ⟨fewer, isFewer⟩ : ∃ fewer, fewer + 1 + carry = places := ⟨places - carry - 1, by omega⟩
  have floor : mantissa / 2 ^ (fewer + 1) = left.natAbs / right.natAbs := by
    obtain ⟨kept, next⟩ := @floor_quotient left.natAbs _ _ rightPositive below
    rw [← Nat.mul_div_mul_right mantissa (2 ^ (fewer + 1)) (Nat.two_pow_pos carry), ← Nat.pow_add, isFewer]
    rcases cut with cut | cut <;> rw [cut]
    · exact kept
    · exact next
  have exponent : (headroom right.natAbs : Int) - headroom left.natAbs - 53 +
      (excess (scaled left.natAbs * 2 ^ 53 / scaled right.natAbs) + carry : Nat) = -((fewer + 1 : Nat) : Int) := by omega
  rw [division, div_unpacked leftNonzero rightNonzero leftFits rightSmall, rounded,
    truncate_normal (signOf left / signOf right) positive bits exponent (by omega), floor]

end Dividing

theorem raise_scaled (number : Nat) {places most : Nat} (within : places ≤ most) :
    number * 2 ^ places * Nat.pow 2 (-(places : Int) - -(most : Int)).toNat = number * 2 ^ most := by
  have amount : (-(places : Int) - -(most : Int)).toNat = most - places := by omega
  rw [amount, Nat.pow_eq, Nat.mul_assoc, ← Nat.pow_add, Nat.add_sub_cancel' within]

theorem remainder_scaled (negative other : Bool) {dividend divisor left right : Nat} (positive : 0 < divisor) :
    (Binary.finite negative (dividend * 2 ^ left) (-(left : Int))).remainder
        (.finite other (divisor * 2 ^ right) (-(right : Int))) =
      .finite negative (dividend % divisor * 2 ^ max left right) (-((max left right : Nat) : Int)) := by
  have least : min (-(left : Int)) (-(right : Int)) = -((max left right : Nat) : Int) := by omega
  have scale := Nat.two_pow_pos (max left right)
  rw [Binary.remainder]
  simp only [least, raise_scaled _ (Nat.le_max_left left right), raise_scaled _ (Nat.le_max_right left right)]
  rw [if_neg (Nat.ne_of_gt (Nat.mul_pos positive scale)), Nat.mul_mod_mul_right]

theorem to_double_shifted (sign : Sign) {magnitude places : Nat} (small : magnitude * 2 ^ places < 2 ^ 53) :
    (Binary.finite (sign == .negative) (magnitude * 2 ^ places) (-(places : Int))).toDouble =
      (Binary.finite (sign == .negative) magnitude 0).toDouble := by
  rcases Nat.eq_zero_or_pos magnitude with rfl | positive
  · rw [Nat.zero_mul, to_double_zero, to_double_zero]
  · have scale := Nat.two_pow_pos places
    have fits : magnitude < 2 ^ 53 := Nat.lt_of_le_of_lt (Nat.le_mul_of_pos_right _ scale) small
    have shifted : 0 < magnitude * 2 ^ places := Nat.mul_pos positive scale
    have log := log_scale positive places
    have bits := log_le_of_lt small
    have room : headroom magnitude = places + headroom (magnitude * 2 ^ places) := by
      rw [headroom, headroom]
      omega
    have same : scaled (magnitude * 2 ^ places) = scaled magnitude := by
      rw [scaled, scaled, room, Nat.pow_add, Nat.mul_assoc]
    have exponent : -(places : Int) - headroom (magnitude * 2 ^ places) = 0 - headroom magnitude := by omega
    have least : headroom magnitude ≤ 52 := Nat.sub_le _ _
    rw [to_double_scaled sign shifted small (by omega) (by omega), to_double_scaled sign positive fits (by omega) (by omega)]
    simp only [same, exponent]

namespace Double

def IsWhole (number : Float) (whole : Int) : Prop :=
  number = ofInt whole ∨ whole = 0 ∧ number = ⟨Float.Model.pack (.zero .negative)⟩

theorem unpack_zero (sign : Sign) : (⟨Float.Model.pack (.zero sign)⟩ : Float).toModel.unpack = .zero sign := by
  cases sign <;> rfl

theorem is_whole_zero (sign : Sign) : IsWhole ⟨Float.Model.pack (.zero sign)⟩ 0 := by
  cases sign
  · exact .inr ⟨rfl, rfl⟩
  · exact .inl rfl

theorem is_whole_packed {whole : Int} (small : whole.natAbs < 2 ^ 53) :
    IsWhole (Float.ofModel (Float.Model.pack (unpackedWhole whole))) whole := .inl (of_int_packed small).symm

theorem of_signed (sign : Sign) {magnitude : Nat} (positive : 0 < magnitude) (small : magnitude < 2 ^ 53) :
    ofInt (sign.apply (magnitude : Int)) = wholeDouble sign magnitude positive := by
  cases sign with
  | positive => exact of_nat_whole positive small
  | negative =>
    obtain ⟨less, rfl⟩ := Nat.exists_eq_add_one_of_ne_zero (Nat.ne_of_gt positive)
    rw [← neg_whole positive small, ← of_nat_whole positive small]
    rfl

theorem is_whole_signed (sign : Sign) {magnitude : Nat} (small : magnitude < 2 ^ 53) :
    IsWhole (Binary.finite (sign == .negative) magnitude 0).toDouble (sign.apply (magnitude : Int)) := by
  rcases Nat.eq_zero_or_pos magnitude with rfl | positive
  · have zero : sign.apply ((0 : Nat) : Int) = 0 := by cases sign <;> rfl
    rw [to_double_zero, zero]
    exact is_whole_zero sign
  · rw [to_double_whole sign positive small, ← of_signed sign positive small]
    exact .inl rfl

theorem signed_quotient (left right : Int) :
    (signOf left / signOf right).apply ((left.natAbs / right.natAbs : Nat) : Int) = left.tdiv right := by
  conv_rhs => rw [← sign_of_apply left, ← sign_of_apply right]
  cases signOf left <;> cases signOf right
  · change ((_ : Nat) : Int) = (-(left.natAbs : Int)).tdiv (-(right.natAbs : Int))
    rw [Int.neg_tdiv, Int.tdiv_neg, Int.neg_neg, Int.ofNat_tdiv]
  · change -((_ : Nat) : Int) = (-(left.natAbs : Int)).tdiv (right.natAbs : Int)
    rw [Int.neg_tdiv, Int.ofNat_tdiv]
  · change -((_ : Nat) : Int) = (left.natAbs : Int).tdiv (-(right.natAbs : Int))
    rw [Int.tdiv_neg, Int.ofNat_tdiv]
  · exact Int.ofNat_tdiv _ _

theorem signed_remainder (left right : Int) :
    (signOf left).apply ((left.natAbs % right.natAbs : Nat) : Int) = left.tmod right := by
  have absolute : left.tmod right = left.tmod (right.natAbs : Int) := by
    rcases Int.natAbs_eq right with same | same
    · rw [← same]
    · have opposite : (right.natAbs : Int) = -right := by omega
      rw [opposite, Int.tmod_neg]
  conv_rhs => rw [absolute, ← sign_of_apply left]
  cases signOf left
  · change -((_ : Nat) : Int) = (-(left.natAbs : Int)).tmod (right.natAbs : Int)
    rw [Int.neg_tmod, Int.ofNat_tmod]
  · exact Int.ofNat_tmod _ _

theorem compare_zero_left (sign : Sign) (number : UnpackedFloat) :
    UnpackedFloat.compare (.zero sign) number = UnpackedFloat.compare (unpackedWhole 0) number := by
  cases number with
  | finite otherSign => cases otherSign <;> rfl
  | infinity otherSign => cases otherSign <;> rfl
  | _ => rfl

theorem compare_zero_right (sign : Sign) (number : UnpackedFloat) :
    UnpackedFloat.compare number (.zero sign) = UnpackedFloat.compare number (unpackedWhole 0) := by
  cases number with
  | finite otherSign => cases otherSign <;> rfl
  | infinity otherSign => cases otherSign <;> rfl
  | _ => rfl

namespace IsWhole

variable {number other : Float} {whole another : Int} (isWhole : IsWhole number whole) (small : whole.natAbs < 2 ^ 53)
include isWhole

theorem zero_cases (zero : whole = 0) : ∃ sign, number = ⟨Float.Model.pack (.zero sign)⟩ := by
  subst zero
  rcases isWhole with isInt | ⟨-, isNegative⟩
  · exact ⟨.positive, isInt⟩
  · exact ⟨.negative, isNegative⟩

theorem nonzero (nonzero : whole ≠ 0) : number = ofInt whole := by
  rcases isWhole with isInt | ⟨isZero, -⟩
  · exact isInt
  · exact absurd isZero nonzero

include small in
theorem unpacked : (whole = 0 ∧ ∃ sign, number.toModel.unpack = .zero sign) ∨
    whole ≠ 0 ∧ number.toModel.unpack = unpackedWhole whole := by
  by_cases zero : whole = 0
  · obtain ⟨sign, rfl⟩ := isWhole.zero_cases zero
    exact .inl ⟨zero, sign, unpack_zero sign⟩
  · rw [isWhole.nonzero zero, unpack_of_int small]
    exact .inr ⟨zero, rfl⟩

include small in
theorem round (rounding : Binary.Rounding) : Double.round rounding number = number := by
  by_cases zero : whole = 0
  · obtain ⟨sign, rfl⟩ := isWhole.zero_cases zero
    exact round_zero rounding sign
  · rw [isWhole.nonzero zero, round_keeps_int rounding small]

include small in
theorem to_int : toInt (roundToEven number) = whole := by
  by_cases zero : whole = 0
  · obtain ⟨sign, rfl⟩ := isWhole.zero_cases zero
    rw [to_int_round_zero, zero]
  · rw [isWhole.nonzero zero, to_int_of_int small]

include small in
theorem neg : IsWhole (-number) (-whole) := by
  have negated : (-whole).natAbs < 2 ^ 53 := by rwa [Int.natAbs_neg]
  change IsWhole (Float.ofModel (Float.Model.pack (UnpackedFloat.neg number.toModel.unpack))) _
  obtain ⟨zero, sign, unpacked⟩ | ⟨nonzero, unpacked⟩ := isWhole.unpacked small <;> rw [unpacked]
  · rw [zero]
    exact is_whole_zero (-sign)
  · rw [neg_unpacked nonzero small]
    exact is_whole_packed negated

variable (otherWhole : IsWhole other another) (otherSmall : another.natAbs < 2 ^ 53)
include otherWhole small otherSmall

theorem add (fits : (whole + another).natAbs < 2 ^ 53) : IsWhole (number + other) (whole + another) := by
  change IsWhole (Float.ofModel
    (Float.Model.pack (UnpackedFloat.add Format.binary64 number.toModel.unpack other.toModel.unpack))) _
  obtain ⟨zero, sign, unpacked⟩ | ⟨nonzero, unpacked⟩ := isWhole.unpacked small <;>
    obtain ⟨otherZero, otherSign, otherUnpacked⟩ | ⟨otherNonzero, otherUnpacked⟩ := otherWhole.unpacked otherSmall <;>
    rw [unpacked, otherUnpacked]
  · rw [zero, otherZero]
    cases sign <;> cases otherSign <;> exact is_whole_zero _
  · rw [zero, Int.zero_add]
    have kept : UnpackedFloat.add Format.binary64 (.zero sign) (unpackedWhole another) = unpackedWhole another := by
      rw [unpacked_nonzero otherNonzero otherSmall]
      rfl
    rw [kept]
    exact is_whole_packed otherSmall
  · rw [otherZero, Int.add_zero]
    have kept : UnpackedFloat.add Format.binary64 (unpackedWhole whole) (.zero otherSign) = unpackedWhole whole := by
      rw [unpacked_nonzero nonzero small]
      rfl
    rw [kept]
    exact is_whole_packed small
  · rw [add_unpacked small otherSmall fits]
    exact is_whole_packed fits

theorem sub (fits : (whole - another).natAbs < 2 ^ 53) : IsWhole (number - other) (whole - another) := by
  change IsWhole (Float.ofModel
    (Float.Model.pack (UnpackedFloat.sub Format.binary64 number.toModel.unpack other.toModel.unpack))) _
  obtain ⟨zero, sign, unpacked⟩ | ⟨nonzero, unpacked⟩ := isWhole.unpacked small <;>
    obtain ⟨otherZero, otherSign, otherUnpacked⟩ | ⟨otherNonzero, otherUnpacked⟩ := otherWhole.unpacked otherSmall <;>
    rw [unpacked, otherUnpacked]
  · rw [zero, otherZero]
    cases sign <;> cases otherSign <;> exact is_whole_zero _
  · rw [zero, Int.zero_sub]
    have negated : UnpackedFloat.sub Format.binary64 (.zero sign) (unpackedWhole another) = unpackedWhole (-another) := by
      rw [← neg_unpacked otherNonzero otherSmall, unpacked_nonzero otherNonzero otherSmall]
      rfl
    rw [negated]
    exact is_whole_packed (by rwa [Int.natAbs_neg])
  · rw [otherZero, Int.sub_zero]
    have kept : UnpackedFloat.sub Format.binary64 (unpackedWhole whole) (.zero otherSign) = unpackedWhole whole := by
      rw [unpacked_nonzero nonzero small]
      rfl
    rw [kept]
    exact is_whole_packed small
  · rw [sub_unpacked small otherSmall fits]
    exact is_whole_packed fits

theorem mul (fits : (whole * another).natAbs < 2 ^ 53) : IsWhole (number * other) (whole * another) := by
  change IsWhole (Float.ofModel
    (Float.Model.pack (UnpackedFloat.mul Format.binary64 number.toModel.unpack other.toModel.unpack))) _
  obtain ⟨zero, sign, unpacked⟩ | ⟨nonzero, unpacked⟩ := isWhole.unpacked small <;>
    obtain ⟨otherZero, otherSign, otherUnpacked⟩ | ⟨otherNonzero, otherUnpacked⟩ := otherWhole.unpacked otherSmall <;>
    rw [unpacked, otherUnpacked]
  · rw [zero, Int.zero_mul]
    exact is_whole_zero (sign * otherSign)
  · rw [zero, Int.zero_mul, unpacked_nonzero otherNonzero otherSmall]
    exact is_whole_zero (sign * signOf another)
  · rw [otherZero, Int.mul_zero, unpacked_nonzero nonzero small]
    exact is_whole_zero (signOf whole * otherSign)
  · rw [mul_unpacked_exact nonzero otherNonzero small otherSmall fits]
    exact is_whole_packed fits

theorem compare : UnpackedFloat.compare number.toModel.unpack other.toModel.unpack = some (compare whole another) := by
  rw [← compare_unpacked small otherSmall]
  obtain ⟨zero, sign, unpacked⟩ | ⟨nonzero, unpacked⟩ := isWhole.unpacked small <;>
    obtain ⟨otherZero, otherSign, otherUnpacked⟩ | ⟨otherNonzero, otherUnpacked⟩ := otherWhole.unpacked otherSmall <;>
    rw [unpacked, otherUnpacked]
  · rw [compare_zero_left, compare_zero_right, zero, otherZero]
  · rw [compare_zero_left, zero]
  · rw [compare_zero_right, otherZero]

theorem lt_iff : number < other ↔ whole < another := by
  change decide (number.toModel < other.toModel) = true ↔ _
  rw [decide_eq_true_iff]
  change (UnpackedFloat.compare _ _ == some .lt) = true ↔ _
  rw [isWhole.compare small otherWhole otherSmall, beq_iff_eq, Option.some_inj, Std.compare_eq_lt]

theorem beq_iff : (number == other) = true ↔ whole = another := by
  change (UnpackedFloat.compare number.toModel.unpack other.toModel.unpack == some .eq) = true ↔ _
  rw [isWhole.compare small otherWhole otherSmall, beq_iff_eq, Option.some_inj, Std.compare_eq_iff_eq]

theorem quotient (nonzero : another ≠ 0) (less : whole.natAbs < 2 ^ 51) :
    IsWhole (truncate (number / other)) (whole.tdiv another) := by
  by_cases zero : whole = 0
  · obtain ⟨sign, rfl⟩ := isWhole.zero_cases zero
    have divided : (⟨Float.Model.pack (.zero sign)⟩ / ofInt another : Float) =
        ⟨Float.Model.pack (.zero (sign / signOf another))⟩ := by
      change Float.ofModel (Float.Model.pack (UnpackedFloat.div Format.binary64 (Float.toModel ⟨_⟩).unpack _)) = _
      rw [unpack_zero, unpack_of_int otherSmall, unpacked_nonzero nonzero otherSmall]
      rfl
    rw [otherWhole.nonzero nonzero, divided, truncate, round_zero, zero, Int.zero_tdiv]
    exact is_whole_zero _
  · rw [isWhole.nonzero zero, otherWhole.nonzero nonzero, truncate_quotient zero nonzero less otherSmall, ← signed_quotient]
    exact is_whole_signed _ (Nat.lt_of_le_of_lt (Nat.div_le_self _ _) small)

theorem remainder (nonzero : another ≠ 0) : IsWhole (Double.remainder number other) (whole.tmod another) := by
  have otherPositive := Int.natAbs_pos.mpr nonzero
  have less : whole.natAbs % another.natAbs < another.natAbs := Nat.mod_lt _ otherPositive
  rw [Double.remainder, otherWhole.nonzero nonzero, of_int_whole nonzero otherSmall, of_double_whole _ otherPositive otherSmall,
    scaled]
  by_cases zero : whole = 0
  · obtain ⟨sign, rfl⟩ := isWhole.zero_cases zero
    obtain ⟨places, isPlaces⟩ : ∃ places : Nat, Int.negSucc 1073 = -(places : Int) := ⟨1074, rfl⟩
    rw [of_double_zero, isPlaces, ← Nat.zero_mul (2 ^ places), remainder_scaled _ _ otherPositive, Nat.zero_mod, Nat.zero_mul,
      to_double_zero, zero, Int.zero_tmod]
    exact is_whole_zero sign
  · have positive := Int.natAbs_pos.mpr zero
    have scaledSmall := scaled_lt positive small
    have otherScaled := scaled_lt otherPositive otherSmall
    -- The remainder is smaller than both numbers, each of which has 53 bits where it stands.
    have fits : whole.natAbs % another.natAbs * 2 ^ max (headroom whole.natAbs) (headroom another.natAbs) < 2 ^ 53 := by
      rcases Nat.le_total (headroom whole.natAbs) (headroom another.natAbs) with within | within
      · rw [Nat.max_eq_right within]
        exact Nat.lt_of_le_of_lt (Nat.mul_le_mul_right _ (Nat.le_of_lt less)) otherScaled
      · rw [Nat.max_eq_left within]
        exact Nat.lt_of_le_of_lt (Nat.mul_le_mul_right _ (Nat.mod_le _ _)) scaledSmall
    rw [isWhole.nonzero zero, of_int_whole zero small, of_double_whole _ positive small, scaled,
      remainder_scaled _ _ otherPositive, to_double_shifted _ fits, ← signed_remainder]
    exact is_whole_signed _ (Nat.lt_of_le_of_lt (Nat.mod_le _ _) small)

end IsWhole

end Double

end BasicLang
