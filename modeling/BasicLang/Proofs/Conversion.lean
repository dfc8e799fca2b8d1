import BasicLang.Proofs.Number.ExactNumbers

set_option autoImplicit false

namespace BasicLang

section Compatibility

namespace Ty

variable {ty other : Ty}

theorem compatible_any (ty : Ty) : ty.isCompatible .any = true := by
  cases ty <;> rfl

theorem is_compatible_plain (notAny : ty ≠ .any) (notArray : ty.isArray = false) (otherNotAny : other ≠ .any)
    (otherNotArray : other.isArray = false) :
    ty.isCompatible other = (ty.isNumeric && other.isNumeric || ty.name == other.name) := by
  have plain {ty : Ty} (notArray : ty.isArray = false) (element : Ty) (rank : Nat) : ty ≠ .array element rank := by
    rintro rfl
    cases notArray
  exact isCompatible.eq_6 ty other notAny (plain notArray) otherNotAny (plain otherNotArray)
    fun element rank _ _ isArray _ => plain notArray element rank isArray

theorem is_compatible_comm (left right : Ty) : left.isCompatible right = right.isCompatible left := by
  induction left, right using isCompatible.induct with
  | case1 right => rw [compatible_any, isCompatible]
  | case2 left => rw [compatible_any, isCompatible]
  | case3 left _ right _ ih => rwa [isCompatible, isCompatible]
  | case4 element rank other notAny notArray =>
    rw [isCompatible.eq_4 other element rank notAny notArray, isCompatible.eq_5 other element rank notAny notArray]
  | case5 other element rank notAny notArray =>
    rw [isCompatible.eq_4 other element rank notAny notArray, isCompatible.eq_5 other element rank notAny notArray]
  | case6 left right leftNotAny rightNotAny _ leftNotArray rightNotArray =>
    have plain {ty : Ty} (notArray : ∀ element rank, ty ≠ .array element rank) : ty.isArray = false := by
      cases ty with
      | array element rank => exact absurd rfl (notArray element rank)
      | _ => rfl
    rw [is_compatible_plain leftNotAny (plain leftNotArray) rightNotAny (plain rightNotArray),
      is_compatible_plain rightNotAny (plain rightNotArray) leftNotAny (plain leftNotArray), Bool.and_comm, Bool.beq_comm]

theorem is_compatible_record (name other : String) (members others : Members) :
    (record name members).isCompatible (record other others) = Text.sameName name other := rfl

def scalarNames : List String := ["INTEGER", "LONG", "SINGLE", "DOUBLE", "STRING", "JSON", "ANY", "NULL"]

def IsApart : Ty → Prop
  | .record name _ => Text.upperAscii name ∉ scalarNames
  | _ => True

theorem is_scalar_of_apart (apart : ty.IsApart) (notArray : ty.isArray = false) (isScalar : ty.name ∈ scalarNames) :
    ∀ other : Ty, other.IsApart → other.isArray = false → ty.name = other.name → other = ty := by
  intro other otherApart otherNotArray same
  cases other with
  | array => cases otherNotArray
  | record =>
    rw [same] at isScalar
    exact absurd isScalar otherApart
  | _ =>
    cases ty with
    | array => cases notArray
    | record => exact absurd isScalar apart
    | _ => first | rfl | exact absurd same (by decide)

theorem compatible_scalar (isScalar : ty.name ∈ scalarNames) (notAny : ty ≠ .any) (notArray : ty.isArray = false)
    (apart : ty.IsApart) (otherNotAny : other ≠ .any) (otherApart : other.IsApart)
    (compatible : ty.isCompatible other = true) : ty.isNumeric = true ∧ other.isNumeric = true ∨ other = ty := by
  have otherNotArray : other.isArray = false := by
    cases other with
    | array element rank =>
      rw [isCompatible.eq_5 ty element rank notAny (by rintro _ _ rfl; cases notArray)] at compatible
      cases compatible
    | _ => rfl
  rw [is_compatible_plain notAny notArray otherNotAny otherNotArray, Bool.or_eq_true, Bool.and_eq_true,
    beq_iff_eq] at compatible
  exact compatible.imp id (is_scalar_of_apart apart notArray isScalar other otherApart otherNotArray)

theorem compatible_numeric (isNumeric : ty.isNumeric = true) (otherNumeric : other.isNumeric = true) :
    ty.isCompatible other = true := by
  cases ty with
  | integer | long | single | double =>
    cases other with
    | integer | long | single | double => rfl
    | _ => cases otherNumeric
  | _ => cases isNumeric

end Ty

variable {ty : Ty} {value : Value}

theorem Value.ty_not_any (value : Value) : value.ty ≠ .any := by
  cases value <;> intro same <;> cases same

theorem Value.numeric_to_double (isNumeric : value.ty.isNumeric = true) : ∃ number, value.toDouble? = some number := by
  cases value with
  | integer | long | single | double => exact ⟨_, rfl⟩
  | _ => cases isNumeric

theorem whole_twice (isWhole : ty.IsWhole) (number : ℤ) : ty.convert (ty.whole number) = .ok (ty.whole number) := by
  have isNumber := Value.whole_of_whole isWhole number
  obtain ⟨inRange, same⟩ := Value.whole_cases isNumber
  have kept := Ty.convert_whole inRange (Value.whole_to_double isNumber)
  rwa [← same, Ty.whole_ty_of_is_whole isWhole] at kept

theorem convert_numeric (isNumeric : ty.isNumeric = true) {number : Float} (isNumber : value.toDouble? = some number) :
    ∃ held, ty.convert value = .ok held ∧ held.ty = ty ∧ (ty ≠ .single → ty.convert held = .ok held) := by
  cases ty with
  | integer =>
    refine ⟨Ty.integer.whole (Double.toInt (Double.roundToEven number)), ?_, rfl, fun _ => whole_twice (.inl rfl) _⟩
    simp only [Ty.convert, isNumber]
    rfl
  | long =>
    refine ⟨Ty.long.whole (Double.toInt (Double.roundToEven number)), ?_, rfl, fun _ => whole_twice (.inr rfl) _⟩
    simp only [Ty.convert, isNumber]
    rfl
  | single =>
    refine ⟨.single (Double.toSingle number), ?_, rfl, fun notSingle => absurd rfl notSingle⟩
    simp only [Ty.convert, isNumber]
  | double =>
    cases value with
    | single number => exact ⟨_, rfl, rfl, fun _ => rfl⟩
    | _ => exact ⟨.double number, by simp only [Ty.convert, isNumber], rfl, fun _ => rfl⟩
  | _ => cases isNumeric

theorem convert_itself (notNumeric : ty.isNumeric = false) (notAny : ty ≠ .any) (notNull : ty ≠ .null)
    (apart : ty.IsApart) (valueApart : value.ty.IsApart) (compatible : ty.isCompatible value.ty = true) :
    ty.convert value = .ok value := by
  have isScalar := @Ty.compatible_scalar ty value.ty
  cases ty with
  | string =>
    obtain ⟨isNumeric, -⟩ | same := isScalar (by decide) notAny rfl apart value.ty_not_any valueApart compatible
    · cases isNumeric
    · cases value <;> first | rfl | cases same
  | json =>
    obtain ⟨isNumeric, -⟩ | same := isScalar (by decide) notAny rfl apart value.ty_not_any valueApart compatible
    · cases isNumeric
    · cases value <;> first | rfl | cases same
  | any => exact absurd rfl notAny
  | null => exact absurd rfl notNull
  | array element rank => cases value <;> first | rfl | cases compatible
  | record name members =>
    cases value with
    | array => cases compatible
    | record other =>
      rw [Ty.is_compatible_comm, Value.ty, Ty.is_compatible_record] at compatible
      simp only [Ty.convert, compatible, if_true]
    | _ =>
      rw [Ty.is_compatible_comm] at compatible
      obtain ⟨-, isNumeric⟩ | same := Ty.compatible_scalar (by simp only [Value.ty]; decide) (Value.ty_not_any _) rfl
        valueApart notAny apart compatible
      · cases isNumeric
      · cases same
  | _ => cases notNumeric

/-- What is compatible with a type can be converted to it. The result is compatible with it too and, but for `SINGLE`, is
converted to itself. Either of two types is compatible with the other one or neither is. -/
theorem compatible_values_convert (left right : Ty) : left.isCompatible right = right.isCompatible left ∧
    ∀ (ty : Ty) (value : Value), ty ≠ .any → ty ≠ .null → ty.IsApart → value.ty.IsApart →
      ty.isCompatible value.ty = true →
      ∃ held, ty.convert value = .ok held ∧ ty.isCompatible held.ty = true ∧
        (ty ≠ .single → ty.convert held = .ok held) := by
  refine ⟨Ty.is_compatible_comm left right, fun ty value notAny notNull apart valueApart compatible => ?_⟩
  cases isNumeric : ty.isNumeric with
  | true =>
    have plain : ty.name ∈ Ty.scalarNames ∧ ty.isArray = false := by
      cases ty <;> first | exact ⟨by decide, rfl⟩ | cases isNumeric
    have valueNumeric : value.ty.isNumeric = true := by
      obtain ⟨-, valueNumeric⟩ | same :=
        Ty.compatible_scalar plain.1 notAny plain.2 apart value.ty_not_any valueApart compatible
      · exact valueNumeric
      · rwa [same]
    obtain ⟨number, isNumber⟩ := Value.numeric_to_double valueNumeric
    obtain ⟨held, converted, isTy, again⟩ := convert_numeric isNumeric isNumber
    refine ⟨held, converted, ?_, again⟩
    rw [isTy]
    exact Ty.compatible_numeric isNumeric isNumeric
  | false =>
    have converted := convert_itself isNumeric notAny notNull apart valueApart compatible
    exact ⟨value, converted, compatible, fun _ => converted⟩

/-- A record is converted to a type whose name is written in another case. -/
theorem record_of_other_case :
    let point : Ty := .record "point" (.cons "x" .single .nil)
    let value : Value := .record "Point" (.cons "x" .single .nil) [.single 0]
    point.IsApart ∧ value.ty.IsApart ∧ point.isCompatible value.ty = true ∧
      ∃ held, point.convert value = .ok held ∧ point.isCompatible held.ty = true ∧
        (point ≠ .single → point.convert held = .ok held) := by
  have lower : Text.upperAscii "point" = "POINT" := by cbv
  have upper : Text.upperAscii "Point" = "POINT" := by cbv
  have apart : Ty.IsApart (.record "point" (.cons "x" .single .nil)) := by
    rw [Ty.IsApart, lower]
    decide
  have valueApart : Ty.IsApart (.record "Point" (.cons "x" .single .nil)) := by
    rw [Ty.IsApart, upper]
    decide
  have compatible : (Ty.record "point" (.cons "x" .single .nil)).isCompatible
      (.record "Point" (.cons "x" .single .nil)) = true := by
    rw [Ty.is_compatible_record, Text.sameName, lower, upper]
    rfl
  exact ⟨apart, valueApart, compatible, (compatible_values_convert .any .null).2 _ _ (by intro same; cases same)
    (by intro same; cases same) apart valueApart compatible⟩

end Compatibility

section LowBits

variable {ty : Ty} {value : Value} {number : ℚ}

theorem convert_exact (isWhole : ty.IsWhole) (isNumber : value.rational? = some number) :
    ty.convert value = .ok (ty.whole (Double.inLongRange (nearestEven number))) := by
  obtain ⟨double, isDouble, isExact⟩ := value.exact_to_double isNumber
  have rounded := Double.to_int_round isExact
  rcases isWhole with rfl | rfl
  · simp only [Ty.convert, isDouble]
    exact congrArg (fun number => Except.ok (Value.integer (Int16.ofInt number))) rounded
  · simp only [Ty.convert, isDouble]
    exact congrArg (fun number => Except.ok (Value.long (Int32.ofInt number))) rounded

theorem even_of_exact (isNumber : value.rational? = some number) (large : 2 ^ 53 ≤ nearestEven number) :
    2 ∣ nearestEven number := by
  obtain ⟨double, -, isExact⟩ := value.exact_to_double isNumber
  exact Double.even_of_large isExact large

theorem width_bounds (isWhole : ty.IsWhole) : 1 ≤ ty.width ∧ ty.width ≤ 63 := by
  rcases isWhole with rfl | rfl <;> decide

-- The ends of the range are congruent to the numbers beyond them for multiples only.
theorem held_congruent_iff {width : Nat} (positive : 1 ≤ width) (within : width ≤ 63) {nearest : ℤ}
    (even : 2 ^ 63 ≤ nearest → 2 ∣ nearest) :
    Double.inLongRange nearest ≡ nearest [ZMOD 2 ^ width] ↔
      -2 ^ 63 ≤ nearest ∧ nearest < 2 ^ 63 ∨ nearest < -2 ^ 63 ∧ 2 ^ width ∣ nearest := by
  have divides : (2 : ℤ) ^ width ∣ 2 ^ 63 := pow_dvd_pow 2 within
  have twice : (2 : ℤ) ∣ 2 ^ width := dvd_pow_self 2 (by omega)
  rcases lt_or_ge nearest (-2 ^ 63) with below | least
  · have held : Double.inLongRange nearest = -2 ^ 63 := by
      rw [Double.inLongRange]
      omega
    have zero : Double.inLongRange nearest ≡ 0 [ZMOD 2 ^ width] := by
      rw [held]
      exact Int.modEq_zero_iff_dvd.mpr (dvd_neg.mpr divides)
    rw [← Int.modEq_zero_iff_dvd]
    constructor
    · intro same
      exact .inr ⟨below, same.symm.trans zero⟩
    · rintro (inside | ⟨-, multiple⟩)
      · exact absurd below (not_lt.mpr inside.1)
      · exact zero.trans multiple.symm
  · rcases lt_or_ge nearest (2 ^ 63) with most | above
    · have held : Double.inLongRange nearest = nearest := by
        rw [Double.inLongRange]
        omega
      rw [held]
      exact ⟨fun _ => .inl ⟨least, most⟩, fun _ => .rfl⟩
    · have held : Double.inLongRange nearest = 2 ^ 63 - 1 := by
        rw [Double.inLongRange]
        omega
      constructor
      · intro same
        exfalso
        have difference : (2 : ℤ) ∣ nearest - (2 ^ 63 - 1) := dvd_trans twice (held ▸ same.dvd)
        have isEven := even above
        omega
      · rintro (inside | outside)
        · exact absurd inside.2 (not_lt.mpr above)
        · omega

/-- A number becomes the nearest whole number, held to the 64-bit range, up to multiples of the number of values of the
type. This is the nearest whole number itself unless that is above the range, or below it and no such multiple. -/
theorem conversion_keeps_low_bits_iff (isWhole : ty.IsWhole) (isNumber : value.rational? = some number) :
    ∃ held kept, ty.convert value = .ok held ∧ held.ty = ty ∧ held.whole? = some kept ∧
      kept ≡ Double.inLongRange (nearestEven number) [ZMOD 2 ^ ty.width] ∧
      (kept ≡ nearestEven number [ZMOD 2 ^ ty.width] ↔
        -2 ^ 63 ≤ nearestEven number ∧ nearestEven number < 2 ^ 63 ∨
          nearestEven number < -2 ^ 63 ∧ 2 ^ ty.width ∣ nearestEven number) := by
  obtain ⟨positive, within⟩ := width_bounds isWhole
  have even (large : 2 ^ 63 ≤ nearestEven number) : 2 ∣ nearestEven number :=
    even_of_exact isNumber (le_trans (by norm_num) large)
  have kept : (Double.inLongRange (nearestEven number)).bmod (2 ^ ty.width) ≡
      Double.inLongRange (nearestEven number) [ZMOD 2 ^ ty.width] := by
    have same := Int.bmod_emod (x := Double.inLongRange (nearestEven number)) (m := 2 ^ ty.width)
    exact_mod_cast same
  refine ⟨_, _, convert_exact isWhole isNumber, Ty.whole_ty_of_is_whole isWhole _, Value.whole_of_whole isWhole _, kept, ?_⟩
  rw [← held_congruent_iff positive within even]
  exact ⟨kept.symm.trans, kept.trans⟩

/-- A half goes to the even neighbour before the high bits are dropped. -/
theorem half_becomes_least_integer :
    (Value.double (-98304.5)).rational? = some (-98304.5) ∧
      ∃ held kept, Ty.integer.convert (.double (-98304.5)) = .ok held ∧ held.ty = .integer ∧ held.whole? = some kept ∧
        kept ≡ Double.inLongRange (nearestEven (-98304.5)) [ZMOD 2 ^ 16] ∧
        (kept ≡ nearestEven (-98304.5) [ZMOD 2 ^ 16] ↔
          -2 ^ 63 ≤ nearestEven (-98304.5) ∧ nearestEven (-98304.5) < 2 ^ 63 ∨
            nearestEven (-98304.5) < -2 ^ 63 ∧ (2 : ℤ) ^ 16 ∣ nearestEven (-98304.5)) := by
  have isNumber : (Value.double (-98304.5)).rational? = some (-98304.5) := by
    have decoded : Binary.ofDouble (-98304.5) = .finite true 6755433800794112 (-36) := rfl
    simp only [Value.rational?, decoded, Binary.rational?]
    norm_num
  exact ⟨isNumber, @conversion_keeps_low_bits_iff .integer _ _ (.inl rfl) isNumber⟩

/-- The first number above the range becomes -1, as the end of the range does; its low bits are zero. -/
theorem large_number_becomes_minus_one :
    (Value.double 9223372036854775808).rational? = some (2 ^ 63) ∧
      Ty.integer.convert (.double 9223372036854775808) = .ok (.integer (-1)) ∧
      ¬-1 ≡ nearestEven (2 ^ 63) [ZMOD 2 ^ 16] := by
  have isNumber : (Value.double 9223372036854775808).rational? = some (2 ^ 63) := by
    have decoded : Binary.ofDouble 9223372036854775808 = .finite false (2 ^ 52) 11 := by decide +kernel
    simp only [Value.rational?, decoded, Binary.rational?]
    norm_num
  have nearest : nearestEven (2 ^ 63) = 2 ^ 63 := by
    rw [nearest_even_iff]
    norm_num
  refine ⟨isNumber, ?_, ?_⟩
  · rw [convert_exact (.inl rfl) isNumber, nearest]
    rfl
  · rw [nearest]
    decide

end LowBits

end BasicLang
