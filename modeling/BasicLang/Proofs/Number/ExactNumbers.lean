import BasicLang.Proofs.Number.WholeValues

set_option autoImplicit false

namespace BasicLang

open Float.Model.UnpackedFloat

/-- The whole number nearest to a rational one, a half going to the even neighbour. -/
def nearestEven (number : ℚ) : ℤ :=
  if number - ⌊number⌋ < 1 / 2 ∨ number - ⌊number⌋ = 1 / 2 ∧ ⌊number⌋ % 2 = 0 then ⌊number⌋ else ⌊number⌋ + 1

section Rounding

variable {number : ℚ} {whole : ℤ}

theorem nearest_even_iff :
    nearestEven number = whole ↔ |number - whole| ≤ 1 / 2 ∧ (|number - whole| = 1 / 2 → whole % 2 = 0) := by
  have low := Int.floor_le number
  have high := Int.lt_floor_add_one number
  constructor
  · rintro rfl
    rw [nearestEven]
    split
    · next down =>
      have distance : |number - ⌊number⌋| = number - ⌊number⌋ := abs_of_nonneg (sub_nonneg.mpr low)
      rw [distance]
      refine ⟨down.elim le_of_lt fun tie => le_of_eq tie.1, fun half => ?_⟩
      exact down.elim (fun less => absurd half (ne_of_lt less)) And.right
    · next up =>
      have distance : |number - (⌊number⌋ + 1 : ℤ)| = 1 - (number - ⌊number⌋) := by
        push_cast
        rw [abs_of_nonpos (by linarith)]
        ring
      rw [distance]
      obtain ⟨least, odd⟩ := not_or.mp up
      refine ⟨by linarith, fun half => ?_⟩
      have isHalf : number - ⌊number⌋ = 1 / 2 := by linarith
      have isOdd : ⌊number⌋ % 2 ≠ 0 := fun even => odd ⟨isHalf, even⟩
      omega
  · rintro ⟨near, even⟩
    obtain ⟨above, below⟩ := abs_le.mp near
    -- Only the two neighbours are near enough.
    have neighbours : whole = ⌊number⌋ ∨ whole = ⌊number⌋ + 1 := by
      have atLeast : (⌊number⌋ : ℚ) < whole + 1 := by linarith
      have atMost : (whole : ℚ) < ⌊number⌋ + 2 := by linarith
      have atLeast : ⌊number⌋ < whole + 1 := by exact_mod_cast atLeast
      have atMost : whole < ⌊number⌋ + 2 := by exact_mod_cast atMost
      omega
    rw [nearestEven]
    rcases neighbours with rfl | rfl
    · refine if_pos ?_
      rcases lt_or_eq_of_le below with less | half
      · exact .inl less
      · exact .inr ⟨half, even (by rw [half]; norm_num)⟩
    · push_cast at above even
      refine if_neg (not_or.mpr ⟨by linarith, fun tie => ?_⟩)
      have isEven := even (by rw [abs_of_nonpos (by linarith)]; linarith)
      omega

theorem nearest_even_cast (whole : ℤ) : nearestEven whole = whole := by
  rw [nearest_even_iff]
  norm_num

theorem nearest_even_neg (number : ℚ) : nearestEven (-number) = -nearestEven number := by
  obtain ⟨near, even⟩ := nearest_even_iff.mp (rfl : nearestEven number = _)
  have distance : |-number - ((-nearestEven number : ℤ) : ℚ)| = |number - nearestEven number| := by
    push_cast
    rw [← abs_neg]
    ring_nf
  rw [nearest_even_iff, distance]
  exact ⟨near, fun half => by have := even half; omega⟩

theorem divide_half {numerator denominator : Nat} (positive : 0 < denominator)
    (half : 2 * (divideToEven numerator denominator * denominator) = 2 * numerator + denominator ∨
      2 * numerator = 2 * (divideToEven numerator denominator * denominator) + denominator) :
    divideToEven numerator denominator % 2 = 0 := by
  have parts := Nat.div_add_mod' numerator denominator
  have below := Nat.mod_lt numerator positive
  have next : (numerator / denominator + 1) * denominator = numerator / denominator * denominator + denominator :=
    Nat.succ_mul _ _
  rw [divideToEven] at half ⊢
  split at half
  · next up =>
    rw [next] at half
    rw [if_pos up]
    have tie : 2 * (numerator % denominator) = denominator := by omega
    have odd : numerator / denominator % 2 = 1 := up.elim (fun more => absurd tie (Nat.ne_of_gt more)) And.right
    omega
  · next down =>
    rw [if_neg down]
    have tie : 2 * (numerator % denominator) = denominator := by omega
    have even : ¬numerator / denominator % 2 = 1 := fun odd => down (.inr ⟨tie, odd⟩)
    omega

theorem nearest_even_quotient (numerator : Nat) {denominator : Nat} (positive : 0 < denominator) :
    nearestEven ((numerator : ℚ) / denominator) = divideToEven numerator denominator := by
  obtain ⟨low, high⟩ := divide_near numerator positive
  have half := @divide_half numerator denominator positive
  generalize divideToEven numerator denominator = quotient at low high half
  have scale : (0 : ℚ) < denominator := by exact_mod_cast positive
  have low : 2 * (quotient * denominator : ℚ) ≤ 2 * numerator + denominator := by exact_mod_cast low
  have high : (2 * numerator : ℚ) ≤ 2 * (quotient * denominator) + denominator := by exact_mod_cast high
  have apart : (numerator : ℚ) / denominator - quotient = (numerator - quotient * denominator) / denominator := by
    field_simp
  rw [nearest_even_iff, Int.cast_natCast, apart]
  refine ⟨abs_le.mpr ⟨?_, ?_⟩, fun tie => ?_⟩
  · rw [le_div_iff₀ scale]
    linarith
  · rw [div_le_iff₀ scale]
    linarith
  · have tie : (2 * (quotient * denominator) : ℚ) = 2 * numerator + denominator ∨
        (2 * numerator : ℚ) = 2 * (quotient * denominator) + denominator := by
      rcases (abs_eq (by norm_num)).mp tie with above | below
      · right
        rw [div_eq_iff (ne_of_gt scale)] at above
        linarith
      · left
        rw [div_eq_iff (ne_of_gt scale)] at below
        linarith
    have even := half (by exact_mod_cast tie)
    exact_mod_cast even

end Rounding

def Binary.rational? : Binary → Option ℚ
  | .finite negative significand exponent => some ((if negative then -1 else 1) * (significand * 2 ^ exponent))
  | _ => none

/-- The number that a finite number of one of the four types is. -/
def Value.rational? : Value → Option ℚ
  | .integer value => some value.toInt
  | .long value => some value.toInt
  | .single value => (Binary.ofSingle value).rational?
  | .double value => (Binary.ofDouble value).rational?
  | _ => none

section Bounds

variable {negative : Bool} {significand : Nat} {exponent : Int}

theorem BinaryFormat.decode_bounds {format : BinaryFormat} (wide : 2 ≤ format.exponentBits) {pattern : Nat}
    (decoded : format.decode pattern = .finite negative significand exponent) :
    significand < 2 ^ (format.fractionBits + 1) ∧ format.leastExponent ≤ exponent ∧
      exponent ≤ format.leastExponent + ((2 ^ format.exponentBits : Nat) - 3 : Int) := by
  unfold decode at decoded
  simp only [Nat.pow_eq] at decoded
  have fraction := Nat.mod_lt pattern (Nat.two_pow_pos format.fractionBits)
  have field := Nat.mod_lt (pattern / 2 ^ format.fractionBits) (Nat.two_pow_pos format.exponentBits)
  have fields : 2 ^ 2 ≤ 2 ^ format.exponentBits := Nat.pow_le_pow_right (by decide) wide
  have twice : 2 ^ (format.fractionBits + 1) = 2 * 2 ^ format.fractionBits := Nat.pow_succ'
  split at decoded
  · split at decoded <;> cases decoded
  · next notLast =>
    split at decoded <;> cases decoded
    · exact ⟨by omega, by omega, by omega⟩
    · exact ⟨by omega, by omega, by omega⟩

theorem of_double_bounds {number : Float} (finite : Binary.ofDouble number = .finite negative significand exponent) :
    significand < 2 ^ 53 ∧ -1074 ≤ exponent ∧ exponent ≤ 971 :=
  BinaryFormat.decode_bounds (by decide) finite

theorem of_single_bounds {number : Float32} (finite : Binary.ofSingle number = .finite negative significand exponent) :
    significand < 2 ^ 24 ∧ -149 ≤ exponent ∧ exponent ≤ 104 :=
  BinaryFormat.decode_bounds (by decide) finite

end Bounds

theorem Binary.exact_cases {number : Binary} {exact : ℚ} (isExact : number.rational? = some exact) :
    ∃ negative significand exponent, number = .finite negative significand exponent ∧
      exact = (if negative then -1 else 1) * (significand * 2 ^ exponent) := by
  cases number with
  | finite negative significand exponent => exact ⟨negative, significand, exponent, rfl, (Option.some.inj isExact).symm⟩
  | _ => cases isExact

theorem exists_sign (negative : Bool) : ∃ sign : Sign, (sign == .negative) = negative := by
  cases negative
  · exact ⟨.positive, rfl⟩
  · exact ⟨.negative, rfl⟩

namespace Double

def inLongRange (number : ℤ) : ℤ := max (-2 ^ 63) (min number (2 ^ 63 - 1))

section Truncating

theorem held_magnitude (significand power : Nat) (negative : Bool) :
    (let magnitude : Int :=
        if 64 ≤ power ∧ significand ≠ 0 then 0x10000000000000000 else significand * Nat.pow 2 power
      if negative then max (-magnitude) (-0x8000000000000000) else min magnitude 0x7fffffffffffffff) =
      inLongRange ((if negative then -1 else 1) * (significand * 2 ^ power)) := by
  have whole : (significand * Nat.pow 2 power : Int) = significand * 2 ^ power := by
    rw [Nat.pow_eq]
    push_cast
    rfl
  have atLeast : (0 : Int) ≤ significand * 2 ^ power := by positivity
  simp only [whole, inLongRange]
  by_cases large : 64 ≤ power ∧ significand ≠ 0
  · have powers : (2 : Int) ^ 64 ≤ 2 ^ power := pow_le_pow_right₀ (by norm_num) large.1
    have positive : (1 : Int) ≤ significand := by exact_mod_cast Nat.pos_of_ne_zero large.2
    have above : (2 : Int) ^ 64 ≤ significand * 2 ^ power :=
      le_trans powers (le_mul_of_one_le_left (by positivity) positive)
    rw [if_pos large]
    cases negative <;> simp only [Bool.false_eq_true, if_false, if_true] <;> omega
  · rw [if_neg large]
    cases negative <;> simp only [Bool.false_eq_true, if_false, if_true] <;> omega

theorem to_int_small (negative : Bool) {number : Nat} (small : number < 2 ^ 53) :
    toInt (Binary.finite negative number 0).toDouble = (if negative then -1 else 1) * number := by
  obtain ⟨sign, rfl⟩ := exists_sign negative
  rcases Nat.eq_zero_or_pos number with rfl | positive
  · rw [to_double_zero, to_int_zero]
    exact (Int.mul_zero _).symm
  · rw [to_double_whole sign positive small, to_int_whole sign positive small]
    cases sign
    · exact (neg_one_mul _).symm
    · exact (one_mul _).symm

theorem nearest_whole (negative : Bool) (significand power : Nat) :
    nearestEven ((if negative then -1 else 1) * (significand * 2 ^ Int.ofNat power)) =
      (if negative then -1 else 1) * (significand * 2 ^ power) := by
  have whole : (if negative then -1 else 1 : ℚ) * (significand * 2 ^ Int.ofNat power) =
      (((if negative then -1 else 1) * (significand * 2 ^ power) : ℤ) : ℚ) := by
    cases negative <;> push_cast <;> simp
  rw [whole, nearest_even_cast]

theorem nearest_fraction (negative : Bool) (significand places : Nat) :
    nearestEven ((if negative then -1 else 1) * (significand * 2 ^ Int.negSucc places)) =
      (if negative then -1 else 1) * divideToEven significand (2 ^ (places + 1)) := by
  have nearest := nearest_even_quotient significand (Nat.two_pow_pos (places + 1))
  have quotient : (significand * 2 ^ Int.negSucc places : ℚ) = significand / (2 ^ (places + 1) : Nat) := by
    rw [zpow_negSucc, div_eq_mul_inv]
    push_cast
    rfl
  rw [quotient]
  cases negative
  · simp only [Bool.false_eq_true, if_false, one_mul, nearest]
  · simp only [if_true, neg_one_mul, nearest_even_neg, nearest]

theorem fraction_small {significand : Nat} (small : significand < 2 ^ 53) (places : Nat) :
    divideToEven significand (2 ^ (places + 1)) < 2 ^ 53 := by
  have near := divide_near significand (Nat.two_pow_pos (places + 1))
  have twice : 2 ≤ 2 ^ (places + 1) := Nat.le_self_pow (Nat.succ_ne_zero places) 2
  have scaled := Nat.mul_le_mul_left (divideToEven significand (2 ^ (places + 1))) twice
  nlinarith

variable {number : Float} {exact : ℚ}

theorem to_int_round (isExact : (Binary.ofDouble number).rational? = some exact) :
    toInt (roundToEven number) = inLongRange (nearestEven exact) := by
  obtain ⟨negative, significand, exponent, decoded, rfl⟩ := Binary.exact_cases isExact
  obtain ⟨small, -, -⟩ := of_double_bounds decoded
  cases exponent with
  | ofNat power =>
    have kept : roundToEven number = number := by
      rw [roundToEven, round, decoded]
    rw [kept, toInt, decoded, nearest_whole]
    exact held_magnitude significand power negative
  | negSucc places =>
    have rounded : roundToEven number =
        (Binary.finite negative (divideToEven significand (2 ^ (places + 1))) 0).toDouble := by
      rw [roundToEven, round, decoded]
      rfl
    have magnitude := fraction_small small places
    rw [rounded, to_int_small negative magnitude, nearest_fraction, inLongRange]
    cases negative <;> simp only [Bool.false_eq_true, if_false, if_true] <;> omega

theorem even_of_large (isExact : (Binary.ofDouble number).rational? = some exact) (large : 2 ^ 53 ≤ nearestEven exact) :
    2 ∣ nearestEven exact := by
  obtain ⟨negative, significand, exponent, decoded, rfl⟩ := Binary.exact_cases isExact
  obtain ⟨small, -, -⟩ := of_double_bounds decoded
  cases exponent with
  | ofNat power =>
    rw [nearest_whole] at large ⊢
    cases power with
    | zero =>
      exfalso
      cases negative <;> simp at large <;> omega
    | succ power =>
      exact Dvd.dvd.mul_left (Dvd.dvd.mul_left (dvd_pow_self 2 (Nat.succ_ne_zero power)) _) _
  | negSucc places =>
    exfalso
    have magnitude := fraction_small small places
    rw [nearest_fraction] at large
    cases negative <;> simp only [Bool.false_eq_true, if_false, if_true] at large <;> omega

end Truncating

end Double

section Keeping

variable {negative : Bool} {number : Nat} {exponent : Int}

theorem scaled_exact (number : Nat) (exponent : Int) :
    ((scaled number : ℚ) * 2 ^ (exponent - headroom number)) = number * 2 ^ exponent := by
  rw [scaled, zpow_sub₀ two_ne_zero, zpow_natCast]
  push_cast
  field_simp

theorem to_double_exact (small : number < 2 ^ 53) (least : -1022 ≤ exponent) (most : exponent ≤ 971) :
    (Binary.ofDouble (Binary.finite negative number exponent).toDouble).rational? =
      some ((if negative then -1 else 1) * ((number : ℚ) * 2 ^ exponent)) := by
  rcases Nat.eq_zero_or_pos number with rfl | positive
  · have pattern : Binary.ofDouble (Binary.finite negative 0 exponent).toDouble = .finite negative 0 (-1074) := by
      have magnitude : BinaryFormat.double.encode (.finite negative 0 exponent) =
          BinaryFormat.double.encode (.finite negative 0 0) := by
        rw [BinaryFormat.encode, BinaryFormat.encode, BinaryFormat.encodeMagnitude, BinaryFormat.encodeMagnitude,
          if_pos rfl, if_pos rfl]
      rw [Binary.toDouble, magnitude]
      cases negative <;> rfl
    rw [pattern]
    simp [Binary.rational?]
  · obtain ⟨sign, rfl⟩ := exists_sign negative
    have room : headroom number ≤ 52 := Nat.sub_le _ _
    rw [to_double_scaled sign positive small (by omega) (by omega),
      of_double_normal sign (scaled_positive positive) (log_scaled positive small) (by omega) (by omega), Binary.rational?,
      scaled_exact]

theorem of_int_exact {number : Int} (small : number.natAbs < 2 ^ 53) :
    (Binary.ofDouble (Double.ofInt number)).rational? = some (number : ℚ) := by
  rcases eq_or_ne number 0 with rfl | nonzero
  · have zero : Binary.ofDouble (Double.ofInt 0) = .finite false 0 (-1074) := rfl
    rw [zero]
    simp [Binary.rational?]
  · have positive := Int.natAbs_pos.mpr nonzero
    have exact := scaled_exact number.natAbs 0
    rw [zero_sub] at exact
    have apply := sign_of_apply number
    rw [of_int_whole nonzero small, of_double_whole _ positive small, Binary.rational?, exact, zpow_zero, mul_one]
    generalize signOf number = sign at apply ⊢
    generalize number.natAbs = magnitude at apply ⊢
    subst apply
    cases sign
    · change some (-1 * (magnitude : ℚ)) = some ((-(magnitude : ℤ) : ℤ) : ℚ)
      push_cast
      rw [neg_one_mul]
    · change some (1 * (magnitude : ℚ)) = some ((magnitude : ℤ) : ℚ)
      push_cast
      rw [one_mul]

theorem Value.exact_to_double {value : Value} {exact : ℚ} (isExact : value.rational? = some exact) :
    ∃ number, value.toDouble? = some number ∧ (Binary.ofDouble number).rational? = some exact := by
  cases value with
  | integer short =>
    have low := short.le_toInt
    have high := short.toInt_lt
    exact ⟨_, rfl, (of_int_exact (by omega)).trans isExact⟩
  | long long =>
    have low := long.le_toInt
    have high := long.toInt_lt
    exact ⟨_, rfl, (of_int_exact (by omega)).trans isExact⟩
  | single number =>
    refine ⟨_, rfl, ?_⟩
    rw [Single.toDouble]
    change (Binary.ofSingle number).rational? = some exact at isExact
    obtain ⟨negative, significand, exponent, decoded, rfl⟩ := Binary.exact_cases isExact
    obtain ⟨small, least, most⟩ := of_single_bounds decoded
    rw [decoded, to_double_exact (Nat.lt_trans small (by decide)) (by omega) (by omega)]
  | double number => exact ⟨number, rfl, isExact⟩
  | _ => cases isExact

end Keeping

end BasicLang
