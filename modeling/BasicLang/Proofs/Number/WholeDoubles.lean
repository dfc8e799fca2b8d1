import BasicLang.Number.Decimal
import Mathlib

set_option autoImplicit false

namespace BasicLang

open Float.Model Float.Model.UnpackedFloat

def headroom (number : Nat) : Nat := 52 - number.log2

def scaled (number : Nat) : Nat := number * 2 ^ headroom number

section Scaled

variable {number : Nat}

theorem log_le_of_lt (small : number < 2 ^ 53) : number.log2 ≤ 52 := by
  by_cases zero : number = 0
  · simp [zero]
  · have := (Nat.log2_lt zero).mpr small
    omega

theorem log_scale (positive : 0 < number) (places : Nat) : (number * 2 ^ places).log2 = number.log2 + places := by
  induction places with
  | zero => simp
  | succ places ih =>
    rw [Nat.pow_succ, ← Nat.mul_assoc, Nat.mul_comm _ 2, Nat.log2_two_mul, ih, Nat.add_assoc]
    exact Nat.ne_of_gt (Nat.mul_pos positive (Nat.two_pow_pos places))

theorem log_scaled (positive : 0 < number) (small : number < 2 ^ 53) : (scaled number).log2 = 52 := by
  have := log_le_of_lt small
  rw [scaled, log_scale positive, headroom]
  omega

theorem scaled_positive (positive : 0 < number) : 0 < scaled number :=
  Nat.mul_pos positive (Nat.two_pow_pos _)

theorem le_scaled (positive : 0 < number) (small : number < 2 ^ 53) : 2 ^ 52 ≤ scaled number := by
  have := Nat.log2_self_le (Nat.ne_of_gt (scaled_positive positive))
  rwa [log_scaled positive small] at this

theorem scaled_lt (positive : 0 < number) (small : number < 2 ^ 53) : scaled number < 2 ^ 53 := by
  have := Nat.lt_log2_self (n := scaled number)
  rwa [log_scaled positive small] at this

end Scaled

section Rounding

theorem shift_exact (mantissa places : Nat) :
    (⟨mantissa * 2 ^ places, false, false⟩ : ExtendedMantissa) >>> places = ⟨mantissa, false, false⟩ := by
  change Nat.repeat ExtendedMantissa.shiftRightOne places _ = _
  induction places generalizing mantissa with
  | zero => simp [Nat.repeat]
  | succ places ih =>
    have twice : mantissa * 2 ^ (places + 1) = 2 * mantissa * 2 ^ places := by
      rw [Nat.pow_succ, Nat.mul_comm _ 2, Nat.mul_left_comm, ← Nat.mul_assoc]
    rw [Nat.repeat, twice, ih (2 * mantissa)]
    simp [ExtendedMantissa.shiftRightOne]

theorem shift_to_target {mantissa : Nat} (positive : 0 < mantissa) (bits : mantissa.log2 = 52) {exponent : Int}
    (normal : -1074 ≤ exponent) (places : Nat) :
    shiftToTargetExponent Format.binary64 (mantissa * 2 ^ places) (exponent - places) .exact =
      (⟨mantissa, false, false⟩, exponent) := by
  have target : Format.binary64.targetExponent (totalExponent (mantissa * 2 ^ places) (exponent - places)) = exponent := by
    simp only [Format.targetExponent, totalExponent, log_scale positive, bits, Format.mantissaBits, Format.minExponent]
    omega
  have amount : (exponent - (exponent - places)).toNat = places := by omega
  have back : exponent - places + places = exponent := by omega
  simp only [shiftToTargetExponent, target, shiftToExponent, amount, back, ExtendedMantissa.ofMantissaAndAccuracy,
    shift_exact]

theorem round_exact (sign : Sign) {mantissa : Nat} (positive : 0 < mantissa) (bits : mantissa.log2 = 52)
    {exponent : Int} (normal : -1074 ≤ exponent) (places : Nat) :
    roundWithAccuracy Format.binary64 sign (mantissa * 2 ^ places) (exponent - places) .exact =
      .finite sign mantissa exponent positive := by
  have kept : ExtendedMantissa.roundedMantissa ⟨mantissa, false, false⟩ = mantissa := rfl
  have again := shift_to_target positive bits normal 0
  simp only [Nat.pow_zero, Nat.mul_one, Int.natCast_zero, Int.sub_zero] at again
  simp only [roundWithAccuracy, shift_to_target positive bits normal places, kept, again,
    dif_neg (Nat.ne_of_gt positive)]

end Rounding

section Packing

variable {number mantissa : Nat} {exponent : Int}

def normalBits (sign : Sign) (mantissa : Nat) (exponent : Int) : BitVec 64 :=
  packComponents Format.binary64 sign (BitVec.ofNat 11 (exponent + 1075).toNat) (BitVec.ofNat 52 mantissa)

theorem pack_normal (sign : Sign) (positive : 0 < mantissa) (bits : mantissa.log2 = 52) (least : -1074 ≤ exponent)
    (most : exponent ≤ 971) :
    UnpackedFloat.pack Format.binary64 (.finite sign mantissa exponent positive) = normalBits sign mantissa exponent := by
  have biased : (exponent + (Format.binary64.exponentBias : Int) +
      (Format.binary64.mantissaBitsWithoutImplicit : Int)).toNat = (exponent + 1075).toNat := by
    simp only [Format.exponentBias]
    omega
  simp only [UnpackedFloat.pack, biased, bits, Format.mantissaBits, normalBits]
  rw [if_neg (by omega), if_pos trivial]

theorem mantissa_bounds (positive : 0 < mantissa) (bits : mantissa.log2 = 52) : 2 ^ 52 ≤ mantissa ∧ mantissa < 2 ^ 53 := by
  have least := Nat.log2_self_le (Nat.ne_of_gt positive)
  have most := Nat.lt_log2_self (n := mantissa)
  rw [bits] at least most
  exact ⟨least, most⟩

theorem unpack_normal (sign : Sign) (positive : 0 < mantissa) (bits : mantissa.log2 = 52) (least : -1074 ≤ exponent)
    (most : exponent ≤ 971) :
    UnpackedFloat.unpack Format.binary64 (normalBits sign mantissa exponent) = .finite sign mantissa exponent positive := by
  obtain ⟨low, high⟩ := mantissa_bounds positive bits
  have field : (BitVec.ofNat 11 (exponent + 1075).toNat).toNat = (exponent + 1075).toNat := by
    rw [BitVec.toNat_ofNat, Nat.mod_eq_of_lt (by omega)]
  have fraction : (BitVec.ofNat 52 mantissa).toNat = mantissa - 2 ^ 52 := by
    rw [BitVec.toNat_ofNat]
    omega
  have significand : (1#1 ++ BitVec.ofNat 52 mantissa).toNat = mantissa := by
    rw [BitVec.toNat_append, ← Nat.shiftLeft_add_eq_or_of_lt (BitVec.isLt _), fraction, Nat.shiftLeft_eq]
    simp
    omega
  have notLast : BitVec.ofNat 11 (exponent + 1075).toNat ≠ -1#11 := by
    intro same
    have := congrArg BitVec.toNat same
    rw [field] at this
    simp at this
    omega
  have notFirst : BitVec.ofNat 11 (exponent + 1075).toNat ≠ 0#11 := by
    intro same
    have := congrArg BitVec.toNat same
    rw [field] at this
    simp at this
    omega
  have back : (((exponent + 1075).toNat : Nat) : Int) -
      ((Format.binary64.exponentBias : Int) + (Format.binary64.mantissaBitsWithoutImplicit : Int)) = exponent := by
    simp only [Format.exponentBias]
    omega
  simp only [UnpackedFloat.unpack, normalBits, unpackMantissa_packComponents, unpackExponent_packComponents,
    unpackSign_packComponents, if_neg notLast, if_neg notFirst, field, significand, back, Sign.ofBitVec_toBitVec]

def wholeBits (sign : Sign) (number : Nat) : BitVec 64 :=
  packComponents Format.binary64 sign (BitVec.ofNat 11 (number.log2 + 1023)) (BitVec.ofNat 52 (scaled number))

theorem whole_bits_eq (sign : Sign) (number : Nat) (small : number < 2 ^ 53) :
    wholeBits sign number = normalBits sign (scaled number) (-(headroom number : Int)) := by
  have := log_le_of_lt small
  have biased : (-(headroom number : Int) + 1075).toNat = number.log2 + 1023 := by
    rw [headroom]
    omega
  rw [wholeBits, normalBits, biased]

theorem headroom_bounds (number : Nat) : -1074 ≤ -(headroom number : Int) ∧ -(headroom number : Int) ≤ 971 := by
  rw [headroom]
  omega

theorem pack_whole (sign : Sign) (positive : 0 < number) (small : number < 2 ^ 53) :
    UnpackedFloat.pack Format.binary64 (.finite sign (scaled number) (-(headroom number : Int)) (scaled_positive positive)) =
      wholeBits sign number := by
  obtain ⟨least, most⟩ := headroom_bounds number
  rw [pack_normal sign (scaled_positive positive) (log_scaled positive small) least most, whole_bits_eq sign number small]

theorem unpack_whole (sign : Sign) (positive : 0 < number) (small : number < 2 ^ 53) :
    UnpackedFloat.unpack Format.binary64 (wholeBits sign number) =
      .finite sign (scaled number) (-(headroom number : Int)) (scaled_positive positive) := by
  obtain ⟨least, most⟩ := headroom_bounds number
  rw [whole_bits_eq sign number small,
    unpack_normal sign (scaled_positive positive) (log_scaled positive small) least most]

def wholeDouble (sign : Sign) (number : Nat) (positive : 0 < number) : Float :=
  ⟨Float.Model.pack (.finite sign (scaled number) (-(headroom number : Int)) (scaled_positive positive))⟩

theorem unpack_whole_double (sign : Sign) (positive : 0 < number) (small : number < 2 ^ 53) :
    (wholeDouble sign number positive).toModel.unpack =
      .finite sign (scaled number) (-(headroom number : Int)) (scaled_positive positive) := by
  have packed : (wholeDouble sign number positive).toModel.toBits.toBitVec = wholeBits sign number :=
    pack_whole sign positive small
  rw [Float.Model.unpack, packed, unpack_whole sign positive small]

theorem round_whole (sign : Sign) (positive : 0 < number) (small : number < 2 ^ 53) :
    UnpackedFloat.round Format.binary64 sign number 0 =
      .finite sign (scaled number) (-(headroom number : Int)) (scaled_positive positive) := by
  have target : Format.binary64.targetExponent (totalExponent number 0) = -(headroom number : Int) := by
    have := log_le_of_lt small
    simp only [Format.targetExponent, totalExponent, Format.mantissaBits, Format.minExponent, headroom]
    omega
  have shift : (- -(headroom number : Int)).toNat = headroom number := by omega
  have normal : -1074 ≤ -(headroom number : Int) := by
    rw [headroom]
    omega
  have exact := round_exact sign (scaled_positive positive) (log_scaled positive small) normal 0
  simp only [Nat.pow_zero, Nat.mul_one, Int.natCast_zero, Int.sub_zero] at exact
  simp only [UnpackedFloat.round, target, decreaseExponent, Int.zero_sub, shift, Nat.shiftLeft_eq]
  exact exact

theorem of_nat_whole (positive : 0 < number) (small : number < 2 ^ 53) :
    Float.ofNat number = wholeDouble .positive number positive := by
  have fits : number.toUInt64.toNat = number := by
    rw [UInt64.toNat_ofNat']
    exact Nat.mod_eq_of_lt (by omega)
  have converted : number.toUInt64.toFloat = wholeDouble .positive number positive := by
    have sign : compare (number : Int) 0 = .gt := by
      rw [Std.compare_eq_gt]
      omega
    rw [UInt64.toFloat, Float.Model.ofUInt64, UnpackedFloat.ofUInt64, fits, UnpackedFloat.ofNat, UnpackedFloat.ofInt,
      UnpackedFloat.normalize, sign, Int.toNat_natCast, wholeDouble, ← round_whole .positive positive small]
  -- A power of ten scales the number, which is one here.
  have one : (Float.ofBits 4607182418800017408).toModel.unpack = .finite .positive (2 ^ 52) (-52) (by decide) := rfl
  have normal : -1074 ≤ -(headroom number : Int) := by
    rw [headroom]
    omega
  have product := round_exact .positive (scaled_positive positive) (log_scaled positive small) normal 52
  change Float.ofScientific number false 0 = _
  rw [Float.ofScientific, dif_pos ⟨small, by decide⟩]
  change number.toUInt64.toFloat * Float.ofBits 4607182418800017408 = _
  rw [converted]
  change Float.ofModel (Float.Model.pack (UnpackedFloat.mul Format.binary64 _ _)) = _
  rw [one, unpack_whole_double .positive positive small]
  exact congrArg (fun unpacked => Float.ofModel (Float.Model.pack unpacked)) product

theorem neg_whole (positive : 0 < number) (small : number < 2 ^ 53) :
    -wholeDouble .positive number positive = wholeDouble .negative number positive := by
  change Float.ofModel (Float.Model.pack (UnpackedFloat.neg (wholeDouble .positive number positive).toModel.unpack)) = _
  rw [unpack_whole_double .positive positive small]
  rfl

def signOf (number : Int) : Sign := if number < 0 then .negative else .positive

theorem sign_of_apply (number : Int) : (signOf number).apply (number.natAbs : Int) = number := by
  rw [signOf]
  split
  · change -(number.natAbs : Int) = number
    omega
  · change (number.natAbs : Int) = number
    omega

theorem of_int_whole {number : Int} (nonzero : number ≠ 0) (small : number.natAbs < 2 ^ 53) :
    Double.ofInt number = wholeDouble (signOf number) number.natAbs (Int.natAbs_pos.mpr nonzero) := by
  cases number with
  | ofNat number =>
    have sign : signOf (Int.ofNat number) = .positive := if_neg (Int.not_lt.mpr (Int.natCast_nonneg number))
    have positive : 0 < number := Nat.pos_of_ne_zero fun isZero => nonzero (isZero ▸ rfl)
    simp only [sign, Int.natAbs_ofNat']
    exact of_nat_whole positive small
  | negSucc number =>
    have sign : signOf (Int.negSucc number) = .negative := if_pos (Int.negSucc_lt_zero number)
    simp only [Int.natAbs_negSucc] at small
    simp only [sign, Int.natAbs_negSucc]
    rw [← neg_whole (Nat.succ_pos number) small, ← of_nat_whole (Nat.succ_pos number) small]
    rfl

end Packing

section Decoding

theorem decode_normal {bit field fraction : Nat} (isBit : bit < 2) (positive : 0 < field) (finite : field < 2047)
    (small : fraction < 2 ^ 52) :
    BinaryFormat.double.decode ((bit * 2 ^ 11 + field) * 2 ^ 52 + fraction) =
      .finite (bit = 1) (fraction + 2 ^ 52) ((field : Int) - 1075) := by
  have first : ((bit * 2 ^ 11 + field) * 2 ^ 52 + fraction) % 2 ^ 52 = fraction := by omega
  have middle : ((bit * 2 ^ 11 + field) * 2 ^ 52 + fraction) / 2 ^ 52 % 2 ^ 11 = field := by omega
  have last : ((bit * 2 ^ 11 + field) * 2 ^ 52 + fraction) / 2 ^ 63 % 2 = bit := by omega
  have least : BinaryFormat.double.leastExponent = -1074 := rfl
  unfold BinaryFormat.decode
  simp only [BinaryFormat.double, BinaryFormat.signBit, Nat.pow_eq, Nat.reduceAdd] at *
  simp only [first, middle, last, least]
  rw [if_neg (by omega), if_neg (by omega)]
  congr 1
  omega

variable {number mantissa : Nat} {exponent : Int}

theorem normal_bits_to_nat (sign : Sign) (positive : 0 < mantissa) (bits : mantissa.log2 = 52) (least : -1074 ≤ exponent)
    (most : exponent ≤ 971) : (normalBits sign mantissa exponent).toNat =
      (sign.toBitVec.toNat * 2 ^ 11 + (exponent + 1075).toNat) * 2 ^ 52 + (mantissa - 2 ^ 52) := by
  obtain ⟨low, high⟩ := mantissa_bounds positive bits
  rw [normalBits, packComponents, BitVec.toNat_append, ← Nat.shiftLeft_add_eq_or_of_lt (BitVec.isLt _),
    BitVec.toNat_append, ← Nat.shiftLeft_add_eq_or_of_lt (BitVec.isLt _), BitVec.toNat_ofNat, BitVec.toNat_ofNat,
    Nat.shiftLeft_eq, Nat.shiftLeft_eq]
  omega

theorem of_double_normal (sign : Sign) (positive : 0 < mantissa) (bits : mantissa.log2 = 52) (least : -1074 ≤ exponent)
    (most : exponent ≤ 971) : Binary.ofDouble ⟨Float.Model.pack (.finite sign mantissa exponent positive)⟩ =
      .finite (sign == .negative) mantissa exponent := by
  obtain ⟨low, high⟩ := mantissa_bounds positive bits
  have pattern : (Float.ofModel (Float.Model.pack (.finite sign mantissa exponent positive))).toBits.toNat =
      (normalBits sign mantissa exponent).toNat :=
    congrArg BitVec.toNat (pack_normal sign positive bits least most)
  rw [Binary.ofDouble, pattern, normal_bits_to_nat sign positive bits least most,
    decode_normal (sign.toBitVec.isLt) (by omega) (by omega) (by omega)]
  have back : mantissa - 2 ^ 52 + 2 ^ 52 = mantissa := by omega
  have unbiased : (((exponent + 1075).toNat : Nat) : Int) - 1075 = exponent := by omega
  have isNegative : decide (sign.toBitVec.toNat = 1) = (sign == .negative) := by
    cases sign <;> rfl
  simp only [back, unbiased, isNegative]

theorem of_double_whole (sign : Sign) (positive : 0 < number) (small : number < 2 ^ 53) :
    Binary.ofDouble (wholeDouble sign number positive) =
      .finite (sign == .negative) (scaled number) (-(headroom number : Int)) := by
  obtain ⟨least, most⟩ := headroom_bounds number
  exact of_double_normal sign (scaled_positive positive) (log_scaled positive small) least most

theorem to_double_scaled (sign : Sign) (positive : 0 < number) (small : number < 2 ^ 53)
    (least : -1074 ≤ exponent - headroom number) (most : exponent - headroom number ≤ 971) :
    (Binary.finite (sign == .negative) number exponent).toDouble =
      ⟨Float.Model.pack (.finite sign (scaled number) (exponent - headroom number) (scaled_positive positive))⟩ := by
  have := log_le_of_lt small
  have low := le_scaled positive small
  have high := scaled_lt positive small
  have bits := log_scaled positive small
  have leastExponent : BinaryFormat.double.leastExponent = -1074 := rfl
  have fractionBits : BinaryFormat.double.fractionBits = 52 := rfl
  have infinity : BinaryFormat.double.infinityPattern = 2047 * 2 ^ 52 := rfl
  have signBit : BinaryFormat.double.signBit = 2 ^ 63 := rfl
  have last : max (-1074) (exponent + (number.log2 : Int) - 52) = exponent - headroom number := by
    rw [headroom] at least ⊢
    omega
  have raised : (exponent - (exponent - headroom number)).toNat = headroom number := by omega
  have magnitude : number * Nat.pow 2 (headroom number) = scaled number := rfl
  have pattern : BinaryFormat.double.encode (.finite (sign == .negative) number exponent) =
      (normalBits sign (scaled number) (exponent - headroom number)).toNat := by
    rw [normal_bits_to_nat sign (scaled_positive positive) bits least most, BinaryFormat.encode,
      BinaryFormat.encodeMagnitude, if_neg (Nat.ne_of_gt positive)]
    simp only [fractionBits, infinity, signBit, leastExponent, Nat.cast_ofNat, last, raised, magnitude]
    rw [if_pos (by omega), min_eq_left (by rw [Nat.pow_eq]; omega), Nat.pow_eq]
    cases sign
    · change _ = (1 * 2 ^ 11 + _) * 2 ^ 52 + _
      rw [if_pos (by decide)]
      omega
    · change _ = (0 * 2 ^ 11 + _) * 2 ^ 52 + _
      rw [if_neg (by decide)]
      omega
  have packed : UInt64.ofNat (normalBits sign (scaled number) (exponent - headroom number)).toNat =
      ⟨normalBits sign (scaled number) (exponent - headroom number)⟩ :=
    UInt64.toBitVec_inj.mp (BitVec.eq_of_toNat_eq (by simp))
  rw [Binary.toDouble, pattern, packed]
  change Float.ofModel (Float.Model.pack (UnpackedFloat.unpack Format.binary64 _)) = _
  rw [unpack_normal sign (scaled_positive positive) bits least most]

theorem to_double_whole (sign : Sign) (positive : 0 < number) (small : number < 2 ^ 53) :
    (Binary.finite (sign == .negative) number 0).toDouble = wholeDouble sign number positive := by
  obtain ⟨least, most⟩ := headroom_bounds number
  have written := @to_double_scaled number 0 sign positive small (by omega) (by omega)
  simp only [Int.zero_sub] at written
  exact written

end Decoding

section Zeros

variable (sign : Sign)

theorem of_double_zero :
    Binary.ofDouble ⟨Float.Model.pack (.zero sign)⟩ = .finite (sign == .negative) 0 (.negSucc 1073) := by
  cases sign <;> rfl

theorem to_double_zero (exponent : Int) :
    (Binary.finite (sign == .negative) 0 exponent).toDouble = ⟨Float.Model.pack (.zero sign)⟩ := by
  rw [Binary.toDouble, BinaryFormat.encode, BinaryFormat.encodeMagnitude, if_pos rfl]
  cases sign <;> rfl

theorem to_range_zero (negative : Bool) (exponent : Int) : (Binary.finite negative 0 exponent).toInt64Range = 0 := by
  rcases exponent with power | places <;> cases negative <;> simp [Binary.toInt64Range]

end Zeros

theorem Binary.Rounding.magnitude_whole (rounding : Binary.Rounding) (negative : Bool) (number places : Nat) :
    rounding.magnitude negative (number * 2 ^ places) places = number := by
  have positive := Nat.two_pow_pos places
  have rest : number * 2 ^ places % 2 ^ places = 0 := Nat.mul_mod_left _ _
  have quotient : number * 2 ^ places / 2 ^ places = number := Nat.mul_div_cancel _ positive
  simp only [Binary.Rounding.magnitude, Nat.pow_eq]
  cases rounding with
  | down => simp only [rest, quotient, ne_eq, not_true_eq_false, and_false, if_false]
  | towardZero => exact quotient
  | toEven =>
    simp only [divideToEven, rest, quotient]
    rw [if_neg (by omega)]
  | halfAway =>
    rw [show 2 * (number * 2 ^ places) + 2 ^ places = 2 ^ places + number * 2 ^ (places + 1) by ring,
      Nat.add_mul_div_right _ _ (Nat.two_pow_pos _),
      Nat.div_eq_of_lt (Nat.pow_lt_pow_succ (by decide)), Nat.zero_add]

namespace Double

variable (rounding : Binary.Rounding) (sign : Sign)

theorem round_zero : round rounding ⟨Float.Model.pack (.zero sign)⟩ = ⟨Float.Model.pack (.zero sign)⟩ := by
  have whole := rounding.magnitude_whole (sign == .negative) 0 (1073 + 1)
  rw [Nat.zero_mul] at whole
  rw [round, of_double_zero]
  change (Binary.finite _ (rounding.magnitude _ _ _) 0).toDouble = _
  rw [whole, to_double_zero]

theorem to_int_zero : toInt ⟨Float.Model.pack (.zero sign)⟩ = 0 := by
  rw [toInt, of_double_zero, to_range_zero]

theorem round_whole_double {number : Nat} (positive : 0 < number) (small : number < 2 ^ 53) :
    round rounding (wholeDouble sign number positive) = wholeDouble sign number positive := by
  rw [round, of_double_whole sign positive small]
  rcases room : headroom number with _ | places
  · rfl
  · have magnitude : rounding.magnitude (sign == .negative) (scaled number) (places + 1) = number := by
      rw [scaled, room]
      exact rounding.magnitude_whole _ _ _
    change (Binary.finite _ (rounding.magnitude _ _ _) 0).toDouble = _
    rw [magnitude, to_double_whole sign positive small]

theorem held_in_range (sign : Sign) {magnitude : Int} {number : Nat} (same : magnitude = number) (small : number < 2 ^ 63) :
    (if (sign == .negative) = true then max (-magnitude) (-0x8000000000000000) else min magnitude 0x7fffffffffffffff) =
      sign.apply (number : Int) := by
  subst same
  cases sign
  · change max (-(number : Int)) _ = -(number : Int)
    omega
  · change min (number : Int) _ = (number : Int)
    omega

theorem to_int_whole (sign : Sign) {number : Nat} (positive : 0 < number) (small : number < 2 ^ 53) :
    toInt (wholeDouble sign number positive) = sign.apply number := by
  have inRange : number < 2 ^ 63 := Nat.lt_trans small (by decide)
  rw [toInt, of_double_whole sign positive small]
  rcases room : headroom number with _ | places
  · have magnitude : (scaled number : Int) * (Nat.pow 2 0 : Nat) = number := by
      rw [scaled, room]
      simp
    exact held_in_range sign magnitude inRange
  · have magnitude : ((scaled number / Nat.pow 2 (places + 1) : Nat) : Int) = number := by
      rw [scaled, room]
      exact congrArg Int.ofNat (Nat.mul_div_cancel _ (Nat.two_pow_pos _))
    exact held_in_range sign magnitude inRange

theorem round_keeps_int {number : Int} (small : number.natAbs < 2 ^ 53) : round rounding (ofInt number) = ofInt number := by
  by_cases nonzero : number = 0
  · subst nonzero
    exact round_zero rounding .positive
  · rw [of_int_whole nonzero small, round_whole_double _ _ (Int.natAbs_pos.mpr nonzero) small]

theorem to_int_of_int {number : Int} (small : number.natAbs < 2 ^ 53) :
    toInt (roundToEven (ofInt number)) = number := by
  rw [roundToEven, round_keeps_int _ small]
  by_cases nonzero : number = 0
  · subst nonzero
    exact to_int_zero .positive
  · have positive := Int.natAbs_pos.mpr nonzero
    rw [of_int_whole nonzero small, to_int_whole _ positive small, sign_of_apply]

theorem of_int_injective {left right : Int} (leftSmall : left.natAbs < 2 ^ 53) (rightSmall : right.natAbs < 2 ^ 53)
    (same : ofInt left = ofInt right) : left = right := by
  rw [← to_int_of_int leftSmall, same, to_int_of_int rightSmall]

end Double

end BasicLang
