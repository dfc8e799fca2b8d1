import BasicLang.Proofs.Number.WholeArithmetic

set_option autoImplicit false

namespace BasicLang

open Float.Model Float.Model.UnpackedFloat

def excess (number : Nat) : Nat := number.log2 - 52

/-- The number with 53 significant bits that is nearest to the number. -/
def nearestWhole (number : Int) : Int :=
  number.sign * (divideToEven number.natAbs (2 ^ excess number.natAbs) * 2 ^ excess number.natAbs : Nat)

section Subtracting

variable {left right : Int}

theorem neg_unpacked (nonzero : right ≠ 0) (small : right.natAbs < 2 ^ 53) :
    UnpackedFloat.neg (unpackedWhole right) = unpackedWhole (-right) := by
  have opposite : -signOf right = signOf (-right) := by
    rcases Int.lt_or_gt_of_ne nonzero with negative | positive
    · rw [signOf, signOf, if_pos negative, if_neg (by omega)]
      rfl
    · rw [signOf, signOf, if_neg (by omega), if_pos (by omega)]
      rfl
  have negated : (-right).natAbs < 2 ^ 53 := by rwa [Int.natAbs_neg]
  rw [unpacked_nonzero nonzero small, unpacked_nonzero (Int.neg_ne_zero.mpr nonzero) negated, UnpackedFloat.neg]
  simp only [opposite, Int.natAbs_neg]

theorem sub_eq_add_neg_unpacked (leftSmall : left.natAbs < 2 ^ 53) (nonzero : right ≠ 0) (rightSmall : right.natAbs < 2 ^ 53) :
    UnpackedFloat.sub Format.binary64 (unpackedWhole left) (unpackedWhole right) =
      UnpackedFloat.add Format.binary64 (unpackedWhole left) (UnpackedFloat.neg (unpackedWhole right)) := by
  have opposite (number : Int) : (-signOf right).apply number = -(signOf right).apply number := by
    cases signOf right with
    | positive => rfl
    | negative => exact (Int.neg_neg number).symm
  rw [unpacked_nonzero nonzero rightSmall]
  by_cases leftZero : left = 0
  · rw [leftZero, unpacked_zero]
    rfl
  · rw [unpacked_nonzero leftZero leftSmall, UnpackedFloat.neg, UnpackedFloat.sub, UnpackedFloat.add]
    simp only [opposite, ← Int.sub_eq_add_neg]

theorem sub_unpacked (leftSmall : left.natAbs < 2 ^ 53) (rightSmall : right.natAbs < 2 ^ 53)
    (small : (left - right).natAbs < 2 ^ 53) :
    UnpackedFloat.sub Format.binary64 (unpackedWhole left) (unpackedWhole right) = unpackedWhole (left - right) := by
  by_cases nonzero : right = 0
  · subst nonzero
    rw [Int.sub_zero]
    by_cases leftZero : left = 0
    · subst leftZero
      rfl
    · rw [unpacked_nonzero leftZero leftSmall]
      rfl
  · rw [sub_eq_add_neg_unpacked leftSmall nonzero rightSmall, neg_unpacked nonzero rightSmall, Int.sub_eq_add_neg]
    exact add_unpacked leftSmall (by rwa [Int.natAbs_neg]) small

end Subtracting

section Dropping

-- Of the bits that are shifted out the first one is kept, and whether there is another one.
theorem shift_parts (mantissa places : Nat) : (⟨mantissa, false, false⟩ : ExtendedMantissa) >>> (places + 1) =
    ⟨mantissa / 2 ^ (places + 1), mantissa / 2 ^ places % 2 != 0, mantissa % 2 ^ places != 0⟩ := by
  change Nat.repeat ExtendedMantissa.shiftRightOne (places + 1) _ = _
  induction places with
  | zero => simp [Nat.repeat, ExtendedMantissa.shiftRightOne, Nat.mod_one]
  | succ places ih =>
    have digits := Nat.mod_pow_succ (x := mantissa) (b := 2) (k := places)
    have sticky : (mantissa / 2 ^ places % 2 != 0 || mantissa % 2 ^ places != 0) = (mantissa % 2 ^ (places + 1) != 0) := by
      have positive := Nat.two_pow_pos places
      rw [digits]
      rcases Nat.mod_two_eq_zero_or_one (mantissa / 2 ^ places) with even | odd
      · simp [even]
      · simp [odd]
    rw [Nat.repeat, ih, ExtendedMantissa.shiftRightOne]
    simp only [sticky, Nat.div_div_eq_div_mul, ← Nat.pow_succ]

theorem rounded_shift (mantissa places : Nat) :
    ((⟨mantissa, false, false⟩ : ExtendedMantissa) >>> places).roundedMantissa = divideToEven mantissa (2 ^ places) := by
  cases places with
  | zero =>
    rw [divideToEven]
    simp only [Nat.pow_zero, Nat.mod_one, Nat.div_one]
    rw [if_neg (by omega)]
    rfl
  | succ places =>
    have positive := Nat.two_pow_pos places
    have twice : 2 ^ (places + 1) = 2 * 2 ^ places := by rw [Nat.pow_succ, Nat.mul_comm]
    have digits : mantissa % 2 ^ (places + 1) = mantissa % 2 ^ places + 2 ^ places * (mantissa / 2 ^ places % 2) :=
      Nat.mod_pow_succ
    have below := Nat.mod_lt mantissa positive
    rw [shift_parts, divideToEven, digits, twice]
    rcases Nat.mod_two_eq_zero_or_one (mantissa / 2 ^ places) with even | odd <;>
      by_cases exact : mantissa % 2 ^ places = 0
    · rw [even, exact, if_neg (by omega)]
      rfl
    · have sticky : (mantissa % 2 ^ places != 0) = true := by simpa using exact
      rw [even, sticky, if_neg (by omega)]
      rfl
    · rw [odd, exact]
      simp only [Nat.zero_add, Nat.mul_one, Nat.lt_irrefl, false_or, true_and]
      change mantissa / (2 * 2 ^ places) + mantissa / (2 * 2 ^ places) % 2 = _
      rcases Nat.mod_two_eq_zero_or_one (mantissa / (2 * 2 ^ places)) with even | odd
      · rw [even, if_neg (by omega), Nat.add_zero]
      · rw [odd, if_pos rfl]
    · have sticky : (mantissa % 2 ^ places != 0) = true := by simpa using exact
      rw [odd, sticky, if_pos (by omega)]
      rfl

theorem divide_scaled (numerator denominator : Nat) {factor : Nat} (positive : 0 < factor) :
    divideToEven (numerator * factor) (denominator * factor) = divideToEven numerator denominator := by
  rw [divideToEven, divideToEven]
  simp only [Nat.mul_div_mul_right _ _ positive, Nat.mul_mod_mul_right, ← Nat.mul_assoc, Nat.mul_lt_mul_right positive,
    Nat.mul_left_inj (Nat.ne_of_gt positive)]

theorem cut_bounds {number : Nat} (large : 2 ^ 52 ≤ number) :
    2 ^ 52 ≤ number / 2 ^ excess number ∧ number / 2 ^ excess number < 2 ^ 53 := by
  have positive : 0 < number := Nat.lt_of_lt_of_le (by decide) large
  have least := Nat.log2_self_le (Nat.ne_of_gt positive)
  have most := Nat.lt_log2_self (n := number)
  have long : 52 ≤ number.log2 := (Nat.le_log2 (Nat.ne_of_gt positive)).mpr large
  have split : number.log2 = 52 + excess number := by
    rw [excess]
    omega
  have scale := Nat.two_pow_pos (excess number)
  rw [split, Nat.pow_add] at least
  rw [split, Nat.add_right_comm, Nat.pow_add] at most
  exact ⟨(Nat.le_div_iff_mul_le scale).mpr least, (Nat.div_lt_iff_lt_mul scale).mpr most⟩

theorem carried_bits {rounded : Nat} (least : 2 ^ 52 ≤ rounded) (most : rounded ≤ 2 ^ 53) :
    ∃ mantissa carry, rounded = mantissa * 2 ^ carry ∧ mantissa.log2 = 52 ∧ carry ≤ 1 := by
  rcases Nat.lt_or_ge rounded (2 ^ 53) with small | carried
  · exact ⟨_, 0, (Nat.mul_one _).symm, (Nat.log2_eq_iff (by omega)).mpr ⟨least, small⟩, by decide⟩
  · exact ⟨2 ^ 52, 1, by omega, Nat.log2_two_pow, Nat.le_refl 1⟩

theorem rounded_bits {number : Nat} (large : 2 ^ 52 ≤ number) :
    ∃ mantissa carry, divideToEven number (2 ^ excess number) = mantissa * 2 ^ carry ∧ mantissa.log2 = 52 ∧ carry ≤ 1 := by
  obtain ⟨low, high⟩ := cut_bounds large
  have bounds : 2 ^ 52 ≤ divideToEven number (2 ^ excess number) ∧ divideToEven number (2 ^ excess number) ≤ 2 ^ 53 := by
    rw [divideToEven]
    split <;> omega
  exact carried_bits bounds.1 bounds.2

end Dropping

section Multiplying

theorem round_product (sign : Sign) {number : Nat} (large : 2 ^ 52 ≤ number) (small : number < 2 ^ 63) (places : Nat) :
    ∃ mantissa exponent, ∃ positive : 0 < mantissa,
      roundWithAccuracy Format.binary64 sign (number * 2 ^ places) (-(places : Int)) .exact =
        .finite sign mantissa (exponent : Nat) positive ∧
      mantissa.log2 = 52 ∧ exponent ≤ 11 ∧
      mantissa * 2 ^ exponent = divideToEven number (2 ^ excess number) * 2 ^ excess number := by
  have nonzero : 0 < number := Nat.lt_of_lt_of_le (by decide) large
  have long : 52 ≤ number.log2 := (Nat.le_log2 (Nat.ne_of_gt nonzero)).mpr large
  have short : number.log2 < 63 := (Nat.log2_lt (Nat.ne_of_gt nonzero)).mpr small
  obtain ⟨mantissa, carry, rounded, bits, carries⟩ := rounded_bits large
  have positive : 0 < mantissa := Nat.pos_of_ne_zero fun isZero => by
    rw [isZero] at bits
    cases bits
  have target : Format.binary64.targetExponent (totalExponent (number * 2 ^ places) (-(places : Int))) =
      (excess number : Int) := by
    simp only [Format.targetExponent, totalExponent, log_scale nonzero, Format.mantissaBits, Format.minExponent, excess]
    omega
  have amount : ((excess number : Int) - -(places : Int)).toNat = excess number + places := by omega
  have back : -(places : Int) + ((excess number + places : Nat) : Int) = (excess number : Int) := by omega
  have first : shiftToTargetExponent Format.binary64 (number * 2 ^ places) (-(places : Int)) .exact =
      ((⟨number * 2 ^ places, false, false⟩ : ExtendedMantissa) >>> (excess number + places), (excess number : Int)) := by
    rw [shiftToTargetExponent, target, shiftToExponent]
    simp only [amount, back]
    rfl
  have kept : ((⟨number * 2 ^ places, false, false⟩ : ExtendedMantissa) >>> (excess number + places)).roundedMantissa =
      mantissa * 2 ^ carry := by
    rw [rounded_shift, Nat.pow_add, divide_scaled _ _ (Nat.two_pow_pos places), rounded]
  have second : shiftToTargetExponent Format.binary64 (mantissa * 2 ^ carry) (excess number : Int) .exact =
      (⟨mantissa, false, false⟩, ((excess number + carry : Nat) : Int)) := by
    have shifted := shift_to_target positive bits (by omega : -1074 ≤ ((excess number + carry : Nat) : Int)) carry
    rwa [Nat.cast_add, Int.add_sub_cancel] at shifted
  refine ⟨mantissa, excess number + carry, positive, ?_, bits, ?_, ?_⟩
  · simp only [roundWithAccuracy, first, kept, second, dif_neg (Nat.ne_of_gt positive)]
  · rw [excess]
    omega
  · rw [rounded, Nat.mul_assoc, ← Nat.pow_add, Nat.add_comm carry]

variable {left right : Int}

theorem sign_mul (leftNonzero : left ≠ 0) (rightNonzero : right ≠ 0) : signOf left * signOf right = signOf (left * right) := by
  have minus {number : Int} (negative : number < 0) : signOf number = .negative := if_pos negative
  have plus {number : Int} (positive : 0 < number) : signOf number = .positive := if_neg (Int.not_lt.mpr (Int.le_of_lt positive))
  rcases Int.lt_or_gt_of_ne leftNonzero with leftSign | leftSign <;>
    rcases Int.lt_or_gt_of_ne rightNonzero with rightSign | rightSign
  · rw [minus leftSign, minus rightSign, plus (Int.mul_pos_of_neg_of_neg leftSign rightSign)]
    rfl
  · rw [minus leftSign, plus rightSign, minus (Int.mul_neg_of_neg_of_pos leftSign rightSign)]
    rfl
  · rw [plus leftSign, minus rightSign, minus (Int.mul_neg_of_pos_of_neg leftSign rightSign)]
    rfl
  · rw [plus leftSign, plus rightSign, plus (Int.mul_pos leftSign rightSign)]
    rfl

theorem sign_apply {number : Int} (nonzero : number ≠ 0) (magnitude : Int) :
    (signOf number).apply magnitude = number.sign * magnitude := by
  rw [signOf]
  rcases Int.lt_or_gt_of_ne nonzero with negative | positive
  · rw [if_pos negative, Int.sign_eq_neg_one_of_neg negative, Int.neg_mul, Int.one_mul]
    rfl
  · rw [if_neg (Int.not_lt.mpr (Int.le_of_lt positive)), Int.sign_eq_one_of_pos positive, Int.one_mul]
    rfl

theorem mul_unpacked (leftNonzero : left ≠ 0) (rightNonzero : right ≠ 0) (leftSmall : left.natAbs < 2 ^ 53)
    (rightSmall : right.natAbs < 2 ^ 53) :
    UnpackedFloat.mul Format.binary64 (unpackedWhole left) (unpackedWhole right) =
      roundWithAccuracy Format.binary64 (signOf (left * right))
        ((left * right).natAbs * 2 ^ (headroom left.natAbs + headroom right.natAbs))
        (-((headroom left.natAbs + headroom right.natAbs : Nat) : Int)) .exact := by
  have magnitude : scaled left.natAbs * scaled right.natAbs =
      (left * right).natAbs * 2 ^ (headroom left.natAbs + headroom right.natAbs) := by
    rw [scaled, scaled, Int.natAbs_mul, Nat.pow_add, Nat.mul_mul_mul_comm]
  have exponent : -(headroom left.natAbs : Int) + -(headroom right.natAbs : Int) =
      -((headroom left.natAbs + headroom right.natAbs : Nat) : Int) := by omega
  rw [unpacked_nonzero leftNonzero leftSmall, unpacked_nonzero rightNonzero rightSmall, UnpackedFloat.mul,
    sign_mul leftNonzero rightNonzero, magnitude, exponent]

theorem mul_unpacked_exact (leftNonzero : left ≠ 0) (rightNonzero : right ≠ 0) (leftSmall : left.natAbs < 2 ^ 53)
    (rightSmall : right.natAbs < 2 ^ 53) (small : (left * right).natAbs < 2 ^ 53) :
    UnpackedFloat.mul Format.binary64 (unpackedWhole left) (unpackedWhole right) = unpackedWhole (left * right) := by
  have nonzero : left * right ≠ 0 := Int.mul_ne_zero leftNonzero rightNonzero
  have positive : 0 < (left * right).natAbs := Int.natAbs_pos.mpr nonzero
  have leftPositive := Int.natAbs_pos.mpr leftNonzero
  -- The operands have 105 bits together, of which the product drops zeros only.
  have room : headroom (left * right).natAbs ≤ headroom left.natAbs + headroom right.natAbs := by
    have leftLog := log_le_of_lt leftSmall
    have rightLog := log_le_of_lt rightSmall
    have leftLeast := Nat.log2_self_le (Nat.ne_of_gt leftPositive)
    have rightLeast := Nat.log2_self_le (Nat.ne_of_gt (Int.natAbs_pos.mpr rightNonzero))
    have bits : left.natAbs.log2 + right.natAbs.log2 ≤ (left * right).natAbs.log2 := by
      rw [Nat.le_log2 (Nat.ne_of_gt positive), Int.natAbs_mul, Nat.pow_add]
      exact Nat.mul_le_mul leftLeast rightLeast
    simp only [headroom]
    omega
  have exact := round_exact (signOf (left * right)) (scaled_positive positive) (log_scaled positive small)
    (headroom_bounds (left * right).natAbs).1 (headroom left.natAbs + headroom right.natAbs - headroom (left * right).natAbs)
  have magnitude : scaled (left * right).natAbs *
      2 ^ (headroom left.natAbs + headroom right.natAbs - headroom (left * right).natAbs) =
        (left * right).natAbs * 2 ^ (headroom left.natAbs + headroom right.natAbs) := by
    rw [scaled, Nat.mul_assoc, ← Nat.pow_add, Nat.add_sub_cancel' room]
  have exponent : -(headroom (left * right).natAbs : Int) -
      ((headroom left.natAbs + headroom right.natAbs - headroom (left * right).natAbs : Nat) : Int) =
        -((headroom left.natAbs + headroom right.natAbs : Nat) : Int) := by omega
  rw [magnitude, exponent] at exact
  rw [mul_unpacked leftNonzero rightNonzero leftSmall rightSmall, exact, unpacked_nonzero nonzero small]

end Multiplying

section Nearest

theorem divide_near (numerator : Nat) {denominator : Nat} (positive : 0 < denominator) :
    2 * (divideToEven numerator denominator * denominator) ≤ 2 * numerator + denominator ∧
      2 * numerator ≤ 2 * (divideToEven numerator denominator * denominator) + denominator := by
  have parts := Nat.div_add_mod' numerator denominator
  have below := Nat.mod_lt numerator positive
  have next : (numerator / denominator + 1) * denominator = numerator / denominator * denominator + denominator :=
    Nat.succ_mul _ _
  rw [divideToEven]
  split
  · next up =>
    rw [next]
    have half : denominator ≤ 2 * (numerator % denominator) := up.elim Nat.le_of_lt fun tie => Nat.le_of_eq tie.1.symm
    omega
  · next down =>
    have half : 2 * (numerator % denominator) ≤ denominator := Nat.le_of_not_lt fun more => down (.inl more)
    omega

theorem divide_multiple {numerator denominator : Nat} (divides : denominator ∣ numerator) :
    divideToEven numerator denominator * denominator = numerator := by
  have parts := Nat.div_add_mod' numerator denominator
  have rest : numerator % denominator = 0 := Nat.mod_eq_zero_of_dvd divides
  rw [divideToEven]
  simp only [rest]
  rcases Nat.eq_zero_or_pos denominator with rfl | positive
  · rw [Nat.mul_zero]
    exact (Nat.eq_zero_of_zero_dvd divides).symm
  · rw [if_neg (by omega)]
    omega

variable {number : Int}

theorem nearest_iff : nearestWhole number = number ↔ 2 ^ excess number.natAbs ∣ number.natAbs := by
  have itself := Int.sign_mul_natAbs number
  constructor
  · intro same
    have magnitude := congrArg Int.natAbs same
    rw [nearestWhole, Int.natAbs_mul, Int.natAbs_natCast, Int.natAbs_sign] at magnitude
    by_cases zero : number = 0
    · simp [zero]
    · rw [if_neg zero, Nat.one_mul] at magnitude
      exact Dvd.intro_left _ magnitude
  · intro divides
    rw [nearestWhole, divide_multiple divides, itself]

theorem nearest_small (small : number.natAbs < 2 ^ 53) : nearestWhole number = number := by
  have := log_le_of_lt small
  have none : excess number.natAbs = 0 := by
    rw [excess]
    omega
  rw [nearest_iff, none]
  exact Nat.one_dvd _

theorem excess_le (small : number.natAbs < 2 ^ 63) : excess number.natAbs ≤ 10 := by
  by_cases zero : number.natAbs = 0
  · simp [zero, excess]
  · have := (Nat.log2_lt zero).mpr small
    rw [excess]
    omega

theorem nearest_near (small : number.natAbs < 2 ^ 63) : (nearestWhole number - number).natAbs ≤ 2 ^ 9 := by
  have itself := Int.sign_mul_natAbs number
  have unit : 2 ^ excess number.natAbs ≤ 2 ^ 10 := Nat.pow_le_pow_right (by decide) (excess_le small)
  obtain ⟨low, high⟩ := divide_near number.natAbs (Nat.two_pow_pos (excess number.natAbs))
  have apart : (nearestWhole number - number).natAbs =
      number.sign.natAbs * (((divideToEven number.natAbs (2 ^ excess number.natAbs) * 2 ^ excess number.natAbs : Nat) : Int) -
        number.natAbs).natAbs := by
    rw [← Int.natAbs_mul, Int.mul_sub, itself, nearestWhole]
  have sign : number.sign.natAbs ≤ 1 := by
    rw [Int.natAbs_sign]
    split <;> decide
  rw [apart]
  exact Nat.le_trans (Nat.mul_le_mul_right _ sign) (by omega)

theorem nearest_congruent {width : Nat} (small : number.natAbs < 2 ^ 63) (wide : 10 ≤ width) :
    nearestWhole number ≡ number [ZMOD 2 ^ width] ↔ 2 ^ excess number.natAbs ∣ number.natAbs := by
  rw [← nearest_iff]
  refine ⟨fun congruent => ?_, fun same => by rw [same]⟩
  have near := nearest_near small
  have large : (2 : Int) ^ 10 ≤ 2 ^ width := pow_le_pow_right₀ (by decide) wide
  obtain ⟨factor, apart⟩ := congruent.symm.dvd
  have none : nearestWhole number - number = 0 := by
    refine Int.eq_zero_of_abs_lt_dvd ⟨factor, apart⟩ ?_
    rw [Int.abs_eq_natAbs]
    omega
  omega

end Nearest

namespace Double

variable {left right : Int}

theorem of_int_sub (leftSmall : left.natAbs < 2 ^ 53) (rightSmall : right.natAbs < 2 ^ 53)
    (small : (left - right).natAbs < 2 ^ 53) : ofInt left - ofInt right = ofInt (left - right) := by
  change Float.ofModel (Float.Model.pack (UnpackedFloat.sub Format.binary64 _ _)) = _
  rw [unpack_of_int leftSmall, unpack_of_int rightSmall, sub_unpacked leftSmall rightSmall small, of_int_packed small]

theorem to_int_round_zero (sign : Sign) : toInt (roundToEven ⟨Float.Model.pack (.zero sign)⟩) = 0 := by
  rw [roundToEven, round_zero, to_int_zero]

theorem to_int_neg {number : Int} (small : number.natAbs < 2 ^ 53) : toInt (roundToEven (-ofInt number)) = -number := by
  by_cases zero : number = 0
  · subst zero
    exact to_int_round_zero .negative
  · have negated : (-number).natAbs < 2 ^ 53 := by rwa [Int.natAbs_neg]
    have opposite : -ofInt number = ofInt (-number) := by
      change Float.ofModel (Float.Model.pack (UnpackedFloat.neg _)) = _
      rw [unpack_of_int small, neg_unpacked zero small, of_int_packed negated]
    rw [opposite, to_int_of_int negated]

theorem to_int_mul (leftSmall : left.natAbs < 2 ^ 53) (rightSmall : right.natAbs < 2 ^ 53)
    (small : (left * right).natAbs ≤ 2 ^ 62) : toInt (roundToEven (ofInt left * ofInt right)) = nearestWhole (left * right) := by
  have product : ofInt left * ofInt right = Float.ofModel (Float.Model.pack
      (UnpackedFloat.mul Format.binary64 (unpackedWhole left) (unpackedWhole right))) := by
    rw [← unpack_of_int leftSmall, ← unpack_of_int rightSmall]
    rfl
  rw [product]
  by_cases leftZero : left = 0
  · subst leftZero
    rw [Int.zero_mul, unpacked_zero]
    by_cases rightZero : right = 0
    · subst rightZero
      exact to_int_round_zero .positive
    · rw [unpacked_nonzero rightZero rightSmall]
      exact to_int_round_zero _
  by_cases rightZero : right = 0
  · subst rightZero
    rw [Int.mul_zero, unpacked_zero, unpacked_nonzero leftZero leftSmall]
    exact to_int_round_zero _
  -- Below 53 bits the product is exact. From there on it is rounded to a multiple of a power of two, still below the
  -- bound for whole numbers.
  rcases Nat.lt_or_ge (left * right).natAbs (2 ^ 53) with few | many
  · rw [mul_unpacked_exact leftZero rightZero leftSmall rightSmall few, ← of_int_packed few, to_int_of_int few,
      nearest_small few]
  · obtain ⟨mantissa, exponent, positive, rounded, bits, short, value⟩ :=
      round_product (signOf (left * right)) (Nat.le_trans (by decide) many) (Nat.lt_of_le_of_lt small (by decide))
        (headroom left.natAbs + headroom right.natAbs)
    have decoded : Binary.ofDouble ⟨Float.Model.pack (.finite (signOf (left * right)) mantissa exponent positive)⟩ =
        .finite (signOf (left * right) == .negative) mantissa (Int.ofNat exponent) :=
      of_double_normal _ positive bits (by omega) (by omega)
    have stays : roundToEven ⟨Float.Model.pack (.finite (signOf (left * right)) mantissa exponent positive)⟩ =
        ⟨Float.Model.pack (.finite (signOf (left * right)) mantissa exponent positive)⟩ := by
      rw [roundToEven, round, decoded]
    have near := (divide_near (left * right).natAbs (Nat.two_pow_pos (excess (left * right).natAbs))).1
    have unit : 2 ^ excess (left * right).natAbs ≤ 2 ^ 10 :=
      Nat.pow_le_pow_right (by decide) (excess_le (Nat.lt_of_le_of_lt small (by decide)))
    have narrow : ¬(64 ≤ exponent ∧ mantissa ≠ 0) := fun wide => absurd wide.1 (by omega)
    have magnitude : (mantissa : Int) * ((Nat.pow 2 exponent : Nat) : Int) = ((mantissa * 2 ^ exponent : Nat) : Int) :=
      (Nat.cast_mul _ _).symm
    rw [← value] at near
    rw [mul_unpacked leftZero rightZero leftSmall rightSmall, rounded, stays, toInt, decoded, Binary.toInt64Range]
    simp only [if_neg narrow]
    rw [held_in_range _ magnitude (by omega), sign_apply (Int.mul_ne_zero leftZero rightZero), nearestWhole, ← value]

end Double

end BasicLang
