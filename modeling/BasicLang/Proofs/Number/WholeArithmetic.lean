import BasicLang.Proofs.Number.WholeDoubles

set_option autoImplicit false

namespace BasicLang

open Float.Model Float.Model.UnpackedFloat

def unpackedWhole (number : Int) : UnpackedFloat := normalize Format.binary64 number 0 .positive

section Unpacking

theorem round_shifted (sign : Sign) {number : Nat} (positive : 0 < number) (small : number < 2 ^ 53) (places : Nat) :
    UnpackedFloat.round Format.binary64 sign (number * 2 ^ places) (-(places : Int)) =
      .finite sign (scaled number) (-(headroom number : Int)) (scaled_positive positive) := by
  have := log_le_of_lt small
  have target : Format.binary64.targetExponent (totalExponent (number * 2 ^ places) (-(places : Int))) =
      -(headroom number : Int) := by
    simp only [Format.targetExponent, totalExponent, log_scale positive, Format.mantissaBits, Format.minExponent, headroom]
    omega
  have normal : -1074 ≤ -(headroom number : Int) := by
    rw [headroom]
    omega
  have exact := round_exact sign (scaled_positive positive) (log_scaled positive small) normal
  simp only [UnpackedFloat.round, target, decreaseExponent, Nat.shiftLeft_eq]
  rcases Nat.le_total places (headroom number) with less | more
  · have shift : (-(places : Int) - -(headroom number : Int)).toNat = headroom number - places := by omega
    have magnitude : number * 2 ^ places * 2 ^ (headroom number - places) = scaled number * 2 ^ 0 := by
      rw [scaled, Nat.mul_assoc, ← Nat.pow_add, Nat.add_sub_cancel' less, Nat.pow_zero, Nat.mul_one]
    have exponent : -(places : Int) - ((headroom number - places : Nat) : Int) =
        -(headroom number : Int) - ((0 : Nat) : Int) := by
      omega
    rw [shift, magnitude, exponent]
    exact exact 0
  · have shift : (-(places : Int) - -(headroom number : Int)).toNat = 0 := by omega
    have magnitude : number * 2 ^ places * 2 ^ 0 = scaled number * 2 ^ (places - headroom number) := by
      rw [scaled, Nat.mul_assoc, Nat.mul_assoc, ← Nat.pow_add, ← Nat.pow_add]
      congr 2
      omega
    have exponent : -(places : Int) - ((0 : Nat) : Int) =
        -(headroom number : Int) - ((places - headroom number : Nat) : Int) := by
      omega
    rw [shift, magnitude, exponent]
    exact exact (places - headroom number)

variable {number : Int}

theorem normalize_shifted (nonzero : number ≠ 0) (small : number.natAbs < 2 ^ 53) (places : Nat) :
    normalize Format.binary64 (number * 2 ^ places) (-(places : Int)) .positive =
      .finite (signOf number) (scaled number.natAbs) (-(headroom number.natAbs : Int))
        (scaled_positive (Int.natAbs_pos.mpr nonzero)) := by
  have power : (0 : Int) < 2 ^ places := by positivity
  have rounded (sign : Sign) := round_shifted sign (Int.natAbs_pos.mpr nonzero) small places
  rw [UnpackedFloat.normalize, signOf]
  rcases Int.lt_or_gt_of_ne nonzero with negative | positive
  · have below : compare (number * 2 ^ places) 0 = .lt := Std.compare_eq_lt.mpr (Int.mul_neg_of_neg_of_pos negative power)
    have magnitude : (-(number * 2 ^ places)).toNat = number.natAbs * 2 ^ places := by
      have same : -(number * 2 ^ places) = ((number.natAbs * 2 ^ places : Nat) : Int) := by
        rw [Nat.cast_mul, Nat.cast_pow, ← Int.neg_mul, ← Int.ofNat_natAbs_of_nonpos (Int.le_of_lt negative)]
        rfl
      rw [same, Int.toNat_natCast]
    simp only [below, magnitude, if_pos negative]
    exact rounded .negative
  · have above : compare (number * 2 ^ places) 0 = .gt := Std.compare_eq_gt.mpr (Int.mul_pos positive power)
    have magnitude : (number * 2 ^ places).toNat = number.natAbs * 2 ^ places := by
      have same : number * 2 ^ places = ((number.natAbs * 2 ^ places : Nat) : Int) := by
        rw [Nat.cast_mul, Nat.cast_pow, Int.natAbs_of_nonneg (Int.le_of_lt positive)]
        rfl
      rw [same, Int.toNat_natCast]
    simp only [above, magnitude, if_neg (Int.not_lt.mpr (Int.le_of_lt positive))]
    exact rounded .positive

theorem unpacked_nonzero (nonzero : number ≠ 0) (small : number.natAbs < 2 ^ 53) :
    unpackedWhole number = .finite (signOf number) (scaled number.natAbs) (-(headroom number.natAbs : Int))
      (scaled_positive (Int.natAbs_pos.mpr nonzero)) := by
  simpa [unpackedWhole] using normalize_shifted nonzero small 0

theorem unpacked_zero : unpackedWhole 0 = .zero .positive := rfl

theorem unpack_of_int (small : number.natAbs < 2 ^ 53) : (Double.ofInt number).toModel.unpack = unpackedWhole number := by
  by_cases nonzero : number = 0
  · subst nonzero
    rfl
  · rw [of_int_whole nonzero small, unpack_whole_double _ (Int.natAbs_pos.mpr nonzero) small, unpacked_nonzero nonzero small]

theorem of_int_packed (small : number.natAbs < 2 ^ 53) :
    Double.ofInt number = Float.ofModel (Float.Model.pack (unpackedWhole number)) := by
  by_cases nonzero : number = 0
  · subst nonzero
    rfl
  · rw [of_int_whole nonzero small, unpacked_nonzero nonzero small]
    rfl

end Unpacking

section Adding

variable {left right : Int}

theorem decrease_scaled (number : Int) {places : Nat} (enough : headroom number.natAbs ≤ places) :
    (decreaseExponent (scaled number.natAbs) (-(headroom number.natAbs : Int)) (-(places : Int))).1 =
      number.natAbs * 2 ^ places := by
  have shift : (-(headroom number.natAbs : Int) - -(places : Int)).toNat = places - headroom number.natAbs := by omega
  rw [decreaseExponent]
  simp only [shift]
  rw [Nat.shiftLeft_eq, scaled, Nat.mul_assoc, ← Nat.pow_add, Nat.add_sub_cancel' enough]

theorem sign_apply_shifted (number : Int) (places : Nat) :
    (signOf number).apply ((number.natAbs * 2 ^ places : Nat) : Int) = number * 2 ^ places := by
  have apply := sign_of_apply number
  rw [Nat.cast_mul, Nat.cast_pow]
  cases sign : signOf number with
  | positive =>
    rw [sign] at apply
    exact congrArg (· * (2 : Int) ^ places) apply
  | negative =>
    rw [sign] at apply
    change -((number.natAbs : Int) * 2 ^ places) = number * 2 ^ places
    change -(number.natAbs : Int) = number at apply
    rw [← Int.neg_mul, apply]

theorem add_unpacked (leftSmall : left.natAbs < 2 ^ 53) (rightSmall : right.natAbs < 2 ^ 53)
    (small : (left + right).natAbs < 2 ^ 53) :
    UnpackedFloat.add Format.binary64 (unpackedWhole left) (unpackedWhole right) = unpackedWhole (left + right) := by
  by_cases leftZero : left = 0
  · subst leftZero
    rw [unpacked_zero, Int.zero_add]
    by_cases rightZero : right = 0
    · subst rightZero
      rfl
    · rw [unpacked_nonzero rightZero rightSmall]
      rfl
  by_cases rightZero : right = 0
  · subst rightZero
    rw [unpacked_zero, Int.add_zero, unpacked_nonzero leftZero leftSmall]
    rfl
  rw [unpacked_nonzero leftZero leftSmall, unpacked_nonzero rightZero rightSmall, UnpackedFloat.add]
  have smaller : min (-(headroom left.natAbs : Int)) (-(headroom right.natAbs : Int)) =
      -((max (headroom left.natAbs) (headroom right.natAbs) : Nat) : Int) := by omega
  simp only [smaller, decrease_scaled left (Nat.le_max_left _ _), decrease_scaled right (Nat.le_max_right _ _),
    sign_apply_shifted, ← Int.add_mul]
  by_cases sumZero : left + right = 0
  · rw [sumZero, Int.zero_mul, unpacked_zero]
    rfl
  · rw [normalize_shifted sumZero small, unpacked_nonzero sumZero small]

end Adding

section Comparing

variable {left right : Int}

theorem compare_scaled {less more : Nat} (lessPositive : 0 < less) (morePositive : 0 < more) (lessSmall : less < 2 ^ 53)
    (moreSmall : more < 2 ^ 53) :
    (compare (-(headroom less : Int)) (-(headroom more : Int))).then (compare (scaled less) (scaled more)) =
      compare less more := by
  have lessLog := log_le_of_lt lessSmall
  have moreLog := log_le_of_lt moreSmall
  have lessRoom : headroom less = 52 - less.log2 := rfl
  have moreRoom : headroom more = 52 - more.log2 := rfl
  have grows {low high : Nat} (lowPositive : 0 < low) (fewer : low.log2 < high.log2) (highPositive : 0 < high) : low < high :=
    Nat.lt_of_lt_of_le (Nat.lt_log2_self (n := low))
      (Nat.le_trans (Nat.pow_le_pow_right (by decide) fewer) (Nat.log2_self_le (Nat.ne_of_gt highPositive)))
  rcases Nat.lt_trichotomy less.log2 more.log2 with fewer | same | further
  · rw [Std.compare_eq_lt.mpr (by omega : -(headroom less : Int) < -(headroom more : Int)),
      Std.compare_eq_lt.mpr (grows lessPositive fewer morePositive)]
    rfl
  · have room : headroom less = headroom more := by omega
    have scale : compare (scaled less) (scaled more) = compare less more := by
      have power := Nat.two_pow_pos (headroom more)
      rw [scaled, scaled, room]
      rcases Nat.lt_trichotomy less more with isLess | rfl | isMore
      · rw [Std.compare_eq_lt.mpr isLess, Std.compare_eq_lt.mpr (Nat.mul_lt_mul_of_pos_right isLess power)]
      · simp
      · rw [Std.compare_eq_gt.mpr isMore, Std.compare_eq_gt.mpr (Nat.mul_lt_mul_of_pos_right isMore power)]
    rw [room, scale]
    simp
  · rw [Std.compare_eq_gt.mpr (by omega : -(headroom less : Int) > -(headroom more : Int)),
      Std.compare_eq_gt.mpr (grows morePositive further lessPositive)]
    rfl

theorem compare_unpacked (leftSmall : left.natAbs < 2 ^ 53) (rightSmall : right.natAbs < 2 ^ 53) :
    UnpackedFloat.compare (unpackedWhole left) (unpackedWhole right) = some (compare left right) := by
  have minus {number : Int} (negative : number < 0) : signOf number = .negative := if_pos negative
  have plus {number : Int} (positive : 0 < number) : signOf number = .positive :=
    if_neg (Int.not_lt.mpr (Int.le_of_lt positive))
  have magnitudes (leftNonzero : left ≠ 0) (rightNonzero : right ≠ 0) :=
    compare_scaled (Int.natAbs_pos.mpr leftNonzero) (Int.natAbs_pos.mpr rightNonzero) leftSmall rightSmall
  rcases Int.lt_trichotomy left 0 with leftSign | rfl | leftSign <;>
    rcases Int.lt_trichotomy right 0 with rightSign | rfl | rightSign
  case inl.inl =>
    have leftNonzero := Int.ne_of_lt leftSign
    have rightNonzero := Int.ne_of_lt rightSign
    have swapped : (compare left.natAbs right.natAbs).swap = compare left right := by
      rcases Int.lt_trichotomy left right with isLess | rfl | isMore
      · rw [Std.compare_eq_lt.mpr isLess, Std.compare_eq_gt.mpr (by omega : right.natAbs < left.natAbs)]
        rfl
      · simp
      · rw [Std.compare_eq_gt.mpr isMore, Std.compare_eq_lt.mpr (by omega : left.natAbs < right.natAbs)]
        rfl
    rw [unpacked_nonzero leftNonzero leftSmall, unpacked_nonzero rightNonzero rightSmall, minus leftSign, minus rightSign,
      UnpackedFloat.compare, magnitudes leftNonzero rightNonzero, swapped]
  case inr.inr.inr.inr =>
    have leftNonzero := Int.ne_of_gt leftSign
    have rightNonzero := Int.ne_of_gt rightSign
    have same : compare left.natAbs right.natAbs = compare left right := by
      rcases Int.lt_trichotomy left right with isLess | rfl | isMore
      · rw [Std.compare_eq_lt.mpr isLess, Std.compare_eq_lt.mpr (by omega : left.natAbs < right.natAbs)]
      · simp
      · rw [Std.compare_eq_gt.mpr isMore, Std.compare_eq_gt.mpr (by omega : right.natAbs < left.natAbs)]
    rw [unpacked_nonzero leftNonzero leftSmall, unpacked_nonzero rightNonzero rightSmall, plus leftSign, plus rightSign,
      UnpackedFloat.compare, magnitudes leftNonzero rightNonzero, same]
  case inr.inl.inr.inl => rfl
  case inl.inr.inl =>
    rw [unpacked_nonzero (Int.ne_of_lt leftSign) leftSmall, minus leftSign, unpacked_zero, UnpackedFloat.compare,
      Std.compare_eq_lt.mpr leftSign]
  case inl.inr.inr =>
    rw [unpacked_nonzero (Int.ne_of_lt leftSign) leftSmall, unpacked_nonzero (Int.ne_of_gt rightSign) rightSmall,
      minus leftSign, plus rightSign, UnpackedFloat.compare, Std.compare_eq_lt.mpr (Int.lt_trans leftSign rightSign)]
  case inr.inl.inl =>
    rw [unpacked_nonzero (Int.ne_of_lt rightSign) rightSmall, minus rightSign, unpacked_zero, UnpackedFloat.compare,
      Std.compare_eq_gt.mpr rightSign]
  case inr.inl.inr.inr =>
    rw [unpacked_nonzero (Int.ne_of_gt rightSign) rightSmall, plus rightSign, unpacked_zero, UnpackedFloat.compare,
      Std.compare_eq_lt.mpr rightSign]
  case inr.inr.inl =>
    rw [unpacked_nonzero (Int.ne_of_gt leftSign) leftSmall, unpacked_nonzero (Int.ne_of_lt rightSign) rightSmall,
      plus leftSign, minus rightSign, UnpackedFloat.compare, Std.compare_eq_gt.mpr (Int.lt_trans rightSign leftSign)]
  case inr.inr.inr.inl =>
    rw [unpacked_nonzero (Int.ne_of_gt leftSign) leftSmall, plus leftSign, unpacked_zero, UnpackedFloat.compare,
      Std.compare_eq_gt.mpr leftSign]

end Comparing

namespace Double

variable {left right number : Int}

theorem of_int_add (leftSmall : left.natAbs < 2 ^ 53) (rightSmall : right.natAbs < 2 ^ 53)
    (small : (left + right).natAbs < 2 ^ 53) : ofInt left + ofInt right = ofInt (left + right) := by
  change Float.ofModel (Float.Model.pack (UnpackedFloat.add Format.binary64 _ _)) = _
  rw [unpack_of_int leftSmall, unpack_of_int rightSmall, add_unpacked leftSmall rightSmall small, of_int_packed small]

theorem of_int_lt (leftSmall : left.natAbs < 2 ^ 53) (rightSmall : right.natAbs < 2 ^ 53) :
    ofInt left < ofInt right ↔ left < right := by
  change decide ((ofInt left).toModel < (ofInt right).toModel) = true ↔ _
  rw [decide_eq_true_iff]
  change (UnpackedFloat.compare _ _ == some .lt) = true ↔ _
  rw [unpack_of_int leftSmall, unpack_of_int rightSmall, compare_unpacked leftSmall rightSmall, beq_iff_eq, Option.some_inj,
    Std.compare_eq_lt]

theorem of_int_le (leftSmall : left.natAbs < 2 ^ 53) (rightSmall : right.natAbs < 2 ^ 53) :
    ofInt left ≤ ofInt right ↔ left ≤ right := by
  change decide ((ofInt left).toModel ≤ (ofInt right).toModel) = true ↔ _
  rw [decide_eq_true_iff]
  change (UnpackedFloat.compare _ _).any (·.isLE) = true ↔ _
  rw [unpack_of_int leftSmall, unpack_of_int rightSmall, compare_unpacked leftSmall rightSmall, Option.any_some,
    Std.isLE_compare]

theorem round_of_int (small : number.natAbs < 2 ^ 53) : roundToEven (ofInt number) = ofInt number :=
  round_keeps_int .toEven small

end Double

end BasicLang
