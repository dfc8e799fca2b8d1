import BasicLang.Arithmetic
import BasicLang.Proofs.Typing.Accepted

set_option autoImplicit false

namespace BasicLang

mutual

/-- A value with all its parts is of a type. An array type without a rank has arrays of every rank. -/
def Ty.Holds : Ty → Value → Prop
  | .any, _ => True
  | .array element rank, .array held bounds slots =>
    held = element ∧ (rank = 0 ∨ bounds.length = rank) ∧ ∀ slot ∈ slots, element.Holds slot
  | .record name members, .record other held fields =>
    other = name ∧ held = members ∧ members.Hold fields
  | .array _ _, _ => False
  | .record _ _, _ => False
  | ty, value => value.ty = ty

def Members.Hold : Members → List Value → Prop
  | .nil, [] => True
  | .cons _ ty rest, value :: values => ty.Holds value ∧ rest.Hold values
  | _, _ => False

end

def Ty.isDefinite : Ty → Bool
  | .any => false
  | .null => false
  | .array _ _ => false
  | _ => true

def Ty.IsScalar (ty : Ty) : Prop := ty.isNumeric = true ∨ ty = .string

theorem Ty.holds_ty {ty : Ty} {value : Value} (definite : ty.isDefinite = true) (holds : ty.Holds value) :
    value.ty = ty := by
  cases ty with
  | any => cases definite
  | array element rank => cases definite
  | record name members =>
    cases value with
    | record other held fields =>
      obtain ⟨rfl, rfl, -⟩ := holds
      rfl
    | _ => exact holds.elim
  | _ => exact holds

theorem Ty.not_null {ty : Ty} {value : Value} (definite : ty.isDefinite = true) (holds : ty.Holds value) :
    value ≠ .null := by
  rintro rfl
  have same := Ty.holds_ty definite holds
  rw [← same] at definite
  cases definite

mutual

theorem Ty.default_holds (ty : Ty) : ty.Holds ty.default := by
  cases ty with
  | array element rank =>
    refine ⟨rfl, ?_, fun slot inside => ?_⟩
    · simp only [Grid.implicitBounds, List.length_replicate]
      omega
    · rw [(List.mem_replicate.mp inside).2]
      exact element.default_holds
  | record name members => exact ⟨rfl, rfl, members.defaults_hold⟩
  | any => trivial
  | _ => rfl

theorem Members.defaults_hold (members : Members) : members.Hold members.defaults := by
  cases members with
  | nil => trivial
  | cons name ty rest => exact ⟨ty.default_holds, rest.defaults_hold⟩

end

theorem Members.hold_member {members : Members} {values : List Value} (hold : members.Hold values)
    {member : String} {ty : Ty} (typed : members.type? member = some ty) :
    ∃ value, (members.index? member).bind (values[·]?) = some value ∧ ty.Holds value := by
  induction values generalizing members with
  | nil =>
    cases members with
    | nil => cases typed
    | cons name first rest => exact hold.elim
  | cons value values ih =>
    cases members with
    | nil => exact hold.elim
    | cons name first rest =>
      rw [Members.type?] at typed
      rw [Members.index?]
      split at typed
      · next same =>
        rw [if_pos same, ← Option.some.inj typed]
        exact ⟨value, rfl, hold.1⟩
      · next different =>
        obtain ⟨found, located, holds⟩ := ih hold.2 typed
        refine ⟨found, ?_, holds⟩
        rw [if_neg different]
        cases place : rest.index? member with
        | none => rw [place] at located; cases located
        | some index => rw [place] at located; exact located

theorem Ty.numeric_cases {ty : Ty} (numeric : ty.isNumeric = true) :
    ty = .integer ∨ ty = .long ∨ ty = .single ∨ ty = .double := by
  cases ty <;> simp_all [Ty.isNumeric, Ty.numericRank?]

theorem Value.numeric_double {value : Value} (numeric : value.ty.isNumeric = true) :
    ∃ number, value.toDouble? = some number := by
  cases value <;> simp_all [Value.ty, Value.toDouble?, Ty.isNumeric, Ty.numericRank?]

theorem Ty.convert_numeric {ty : Ty} {value : Value} (numeric : ty.isNumeric = true)
    (valueNumeric : value.ty.isNumeric = true) : ∃ result, ty.convert value = .ok result ∧ result.ty = ty := by
  rcases Ty.numeric_cases numeric with rfl | rfl | rfl | rfl <;>
    cases value <;> first | exact ⟨_, rfl, rfl⟩ | cases valueNumeric

theorem Ty.convert_number {ty : Ty} (numeric : ty.isNumeric = true) (number : Float) :
    ∃ value, ty.convert (.double number) = .ok value ∧ value.ty = ty := Ty.convert_numeric numeric rfl

theorem Arithmetic.convert_number {ty : Ty} (numeric : ty.isNumeric = true) (number : Float) :
    ∃ value, Arithmetic.convert ty number = .ok value ∧ value.ty = ty := by
  obtain ⟨value, converted, typed⟩ := Ty.convert_number numeric number
  exact ⟨value, by rw [Arithmetic.convert, converted], typed⟩

theorem Ty.integral_numeric (ty : Ty) : ty.integral.isNumeric = true := by
  unfold Ty.integral
  split <;> rfl

theorem UnaryOperator.apply_typed {operator : UnaryOperator} {value : Value} {ty : Ty}
    (typed : operator.resultType? value.ty = some ty) :
    ∃ result, operator.apply value = .ok result ∧ result.ty = ty := by
  have notAny : value.ty ≠ .any := by cases value <;> exact fun same => nomatch same
  unfold UnaryOperator.resultType? at typed
  rw [if_neg notAny] at typed
  split at typed
  · next numeric =>
    obtain ⟨number, isNumber⟩ := Value.numeric_double numeric
    have notNull : value.ty ≠ .null := fun same => by
      rw [same] at numeric
      cases numeric
    cases operator with
    | negate =>
      rw [UnaryOperator.apply, Value.negate, isNumber, ← Option.some.inj typed]
      simp only [if_neg notNull]
      exact Arithmetic.convert_number numeric _
    | not =>
      rw [UnaryOperator.apply, Value.complement, isNumber, ← Option.some.inj typed]
      exact Arithmetic.convert_number (Ty.integral_numeric _) _
  · cases typed

theorem Value.materialize_self {value other : Value} (present : value ≠ .null) :
    value.materialize other = value := by
  cases value <;> first | rfl | exact absurd rfl present

theorem Ty.wider_numeric {left right : Ty} (leftNumeric : left.isNumeric = true)
    (rightNumeric : right.isNumeric = true) : (left.wider right).isNumeric = true := by
  unfold Ty.wider
  split
  · split
    · exact rightNumeric
    · exact leftNumeric
  · exact leftNumeric

theorem Value.ty_static (value : Value) (present : value ≠ .null) : value.ty.isDynamic = false := by
  cases value <;> first | rfl | exact absurd rfl present

theorem BinaryOperator.numeric_result {operator : BinaryOperator} {left right ty : Ty}
    (static : left.isDynamic = false) (otherStatic : right.isDynamic = false)
    (arithmetic : operator.isComparison = false)
    (typed : operator.resultType? left right = some ty) :
    ty = .string ∧ left = .string ∧ right = .string ∨
      ty.isNumeric = true ∧ left.isNumeric = true ∧ right.isNumeric = true := by
  unfold BinaryOperator.resultType? at typed
  simp only [arithmetic, static, otherStatic, Bool.or_self, Bool.false_eq_true, if_false] at typed
  split at typed
  · next texts => exact .inl ⟨(Option.some.inj typed).symm, texts.2.1, texts.2.2⟩
  · split at typed
    · cases typed
    · next numbers =>
      have both : left.isNumeric = true ∧ right.isNumeric = true := by simpa using numbers
      have wide := Ty.wider_numeric both.1 both.2
      refine .inr ⟨?_, both⟩
      split at typed <;> rw [← Option.some.inj typed]
      all_goals first
        | exact wide
        | exact Ty.integral_numeric _
        | exact Ty.wider_numeric wide rfl

theorem BinaryOperator.comparison_result {operator : BinaryOperator} {left right ty : Ty}
    (comparison : operator.isComparison = true) (typed : operator.resultType? left right = some ty) :
    ty = .integer := by
  unfold BinaryOperator.resultType? at typed
  simp only [comparison, if_true] at typed
  split at typed
  · exact (Option.some.inj typed).symm
  · cases typed

theorem BinaryOperator.apply_typed {operator : BinaryOperator} {left right result : Value} {ty : Ty}
    (present : left ≠ .null) (otherPresent : right ≠ .null)
    (typed : operator.resultType? left.ty right.ty = some ty)
    (applied : operator.apply left right = .ok result) : result.ty = ty := by
  rw [BinaryOperator.apply] at applied
  simp only [Value.materialize_self present, Value.materialize_self otherPresent, typed] at applied
  cases comparison : operator.isComparison with
  | true =>
    rw [BinaryOperator.comparison_result comparison typed]
    simp only [comparison, if_true] at applied
    split at applied
    · rw [← Except.ok.inj applied]
      rfl
    · split at applied
      · rw [← Except.ok.inj applied]
        rfl
      · cases applied
  | false =>
    have shape := BinaryOperator.numeric_result (left.ty_static present) (right.ty_static otherPresent)
      comparison typed
    simp only [comparison, Bool.false_eq_true, if_false] at applied
    rcases shape with ⟨rfl, isText, otherText⟩ | ⟨numeric, leftNumeric, rightNumeric⟩
    · split at applied
      · rw [← Except.ok.inj applied]
        rfl
      · next noTexts =>
        cases left <;> cases isText
        cases right <;> cases otherText
        exact absurd rfl (noTexts _ _ rfl)
    · split at applied
      · cases leftNumeric
      · split at applied
        · split at applied
          · next number _ =>
            obtain ⟨value, converted, isTyped⟩ := Arithmetic.convert_number numeric number
            rw [converted] at applied
            rw [← Except.ok.inj applied]
            exact isTyped
          · cases applied
        · cases applied

theorem BinaryOperator.result_scalar {operator : BinaryOperator} {left right ty : Ty}
    (static : left.isDynamic = false) (otherStatic : right.isDynamic = false)
    (typed : operator.resultType? left right = some ty) : ty.IsScalar := by
  cases comparison : operator.isComparison with
  | true =>
    rw [BinaryOperator.comparison_result comparison typed]
    exact .inl rfl
  | false =>
    rcases BinaryOperator.numeric_result static otherStatic comparison typed with ⟨isText, -⟩ | ⟨numeric, -⟩
    · exact .inr isText
    · exact .inl numeric

theorem UnaryOperator.result_numeric {operator : UnaryOperator} {operand ty : Ty}
    (static : operand.isDynamic = false) (typed : operator.resultType? operand = some ty) :
    ty.isNumeric = true := by
  unfold UnaryOperator.resultType? at typed
  split at typed
  · next isAny =>
    rw [isAny] at static
    cases static
  · split at typed
    · next numeric =>
      cases operator with
      | negate => rwa [← Option.some.inj typed]
      | not => rw [← Option.some.inj typed]; exact Ty.integral_numeric _
    · cases typed

theorem Ty.scalar_holds {ty : Ty} {value : Value} (scalar : ty.IsScalar)
    (typed : value.ty = ty) : ty.Holds value := by
  rcases scalar with numeric | rfl
  · rcases Ty.numeric_cases numeric with rfl | rfl | rfl | rfl <;> exact typed
  · exact typed

theorem Ty.scalar_not_record {ty : Ty} (scalar : ty.IsScalar) :
    ¬∃ title members, ty = .record title members := by
  rintro ⟨title, members, rfl⟩
  rcases scalar with numeric | isText
  · cases numeric
  · cases isText

theorem Ty.definite_static {ty : Ty} (definite : ty.isDefinite = true) : ty.isDynamic = false := by
  cases ty <;> first | rfl | cases definite

theorem Ty.array_default_holds {element : Ty} {rank count : Nat} (suits : rank = 0 ∨ rank = count) :
    (Ty.array element rank).Holds (Ty.array element count).default := by
  obtain ⟨same, -, slots⟩ := (Ty.array element count).default_holds
  rcases suits with rfl | rfl
  · exact ⟨same, .inl rfl, slots⟩
  · exact Ty.default_holds _

namespace Ty.IsScalar

variable {ty : Ty}

theorem static (scalar : ty.IsScalar) : ty.isDynamic = false := by
  rcases scalar with numeric | rfl
  · rcases Ty.numeric_cases numeric with rfl | rfl | rfl | rfl <;> rfl
  · rfl

theorem not_null (scalar : ty.IsScalar) : ty ≠ .null := by
  rintro rfl
  rcases scalar with numeric | isText
  · cases numeric
  · cases isText

theorem default_ty (scalar : ty.IsScalar) : ty.default.ty = ty := by
  rcases scalar with numeric | rfl
  · rcases Ty.numeric_cases numeric with rfl | rfl | rfl | rfl <;> rfl
  · rfl

theorem numeric_of_number (scalar : ty.IsScalar) (number : Check.isNumber ty = true) : ty.isNumeric = true := by
  rcases scalar with numeric | rfl
  · exact numeric
  · cases number

theorem present {value : Value} (scalar : value.ty.IsScalar) : value ≠ .null := by
  rintro rfl
  rcases scalar with numeric | isText
  · cases numeric
  · cases isText

end Ty.IsScalar

theorem Ty.numeric_compatible {left right : Ty} (leftNumeric : left.isNumeric = true)
    (rightNumeric : right.isNumeric = true) : left.isCompatible right = true := by
  rcases Ty.numeric_cases leftNumeric with rfl | rfl | rfl | rfl <;>
    rcases Ty.numeric_cases rightNumeric with rfl | rfl | rfl | rfl <;> rfl

theorem Ty.convert_compatible {ty : Ty} {value : Value} (scalar : ty.IsScalar) (valueScalar : value.ty.IsScalar)
    (compatible : ty.isCompatible value.ty = true) : ∃ result, ty.convert value = .ok result ∧ result.ty = ty := by
  rcases scalar with numeric | rfl <;> rcases valueScalar with valueNumeric | isText
  · exact Ty.convert_numeric numeric valueNumeric
  · rw [isText] at compatible
    rcases Ty.numeric_cases numeric with rfl | rfl | rfl | rfl <;> cases compatible
  · rcases Ty.numeric_cases valueNumeric with same | same | same | same <;>
      rw [same] at compatible <;> cases compatible
  · cases value <;> first | exact ⟨_, rfl, rfl⟩ | cases isText

theorem BinaryOperator.comparison_suits {operator : BinaryOperator} {left right : Ty}
    (comparison : operator.isComparison = true)
    (comparable : (BinaryOperator.equal.resultType? left right).isSome = true) :
    operator.resultType? left right = some .integer := by
  have same : operator.resultType? left right = BinaryOperator.equal.resultType? left right := by
    rw [BinaryOperator.resultType?, if_pos comparison]
    rfl
  obtain ⟨ty, found⟩ := Option.isSome_iff_exists.mp comparable
  rw [same, found, BinaryOperator.comparison_result rfl found]

namespace Arithmetic

theorem whole_operand_fault {operator : BinaryOperator} {number : Float} {fault : ArithmeticFault}
    (failed : wholeOperand operator number = .error fault) : fault.code ≠ 13 := by
  unfold wholeOperand at failed
  dsimp only at failed
  split at failed
  · cases failed
  · cases failed
    exact (nomatch ·)

theorem whole_fault {operator : BinaryOperator} {left right : Float} {divide : Int → Int → Int}
    {fault : ArithmeticFault}
    (failed : (do
      let dividend ← wholeOperand operator left
      let divisor ← wholeOperand operator right
      if divisor = 0 then .error .divisionByZero else .ok (Double.ofInt (divide dividend divisor)) :
        Except ArithmeticFault Float) = .error fault) : fault.code ≠ 13 := by
  cases first : wholeOperand operator left with
  | error early =>
    rw [first] at failed
    cases failed
    exact whole_operand_fault first
  | ok dividend =>
    cases second : wholeOperand operator right with
    | error early =>
      rw [first, second] at failed
      cases failed
      exact whole_operand_fault second
    | ok divisor =>
      rw [first, second] at failed
      by_cases isZero : divisor = 0
      · subst isZero
        cases failed
        decide
      · have worked := failed
        simp [isZero, bind, Except.bind] at worked

theorem numeric_fault {operator : BinaryOperator} {left right : Float} {fault : ArithmeticFault}
    (failed : numeric operator left right = .error fault) : fault.code ≠ 13 := by
  cases operator with
  | divide =>
    rw [numeric] at failed
    split at failed
    · cases failed
      decide
    · cases failed
  | intDivide => exact whole_fault failed
  | modulo => exact whole_fault failed
  | _ => cases failed

end Arithmetic

theorem BinaryOperator.operands_alike {operator : BinaryOperator} {left right ty : Ty} (scalar : left.IsScalar)
    (otherScalar : right.IsScalar) (typed : operator.resultType? left right = some ty) :
    (left.isNumeric = true ∧ right.isNumeric = true) ∨ (left = .string ∧ right = .string) := by
  cases comparison : operator.isComparison with
  | true =>
    rw [BinaryOperator.resultType?, if_pos comparison] at typed
    split at typed
    · next alike => simpa [scalar.static, otherScalar.static] using alike
    · cases typed
  | false =>
    have result := BinaryOperator.numeric_result scalar.static otherScalar.static comparison typed
    exact (result.imp And.right And.right).symm

theorem BinaryOperator.apply_fault {operator : BinaryOperator} {left right : Value} {ty : Ty}
    (scalar : left.ty.IsScalar) (otherScalar : right.ty.IsScalar)
    (typed : operator.resultType? left.ty right.ty = some ty) {fault : ArithmeticFault}
    (failed : operator.apply left right = .error fault) : fault.code ≠ 13 := by
  rw [BinaryOperator.apply] at failed
  simp only [Value.materialize_self scalar.present, Value.materialize_self otherScalar.present, typed] at failed
  split at failed
  · split at failed <;> cases failed
  · next noTexts =>
    have numbers : left.ty.isNumeric = true ∧ right.ty.isNumeric = true := by
      refine (BinaryOperator.operands_alike scalar otherScalar typed).resolve_right ?_
      rintro ⟨isText, otherText⟩
      cases left <;> cases isText
      cases right <;> cases otherText
      exact noTexts _ _ rfl rfl
    obtain ⟨leftNumber, isLeft⟩ := Value.numeric_double numbers.1
    obtain ⟨rightNumber, isRight⟩ := Value.numeric_double numbers.2
    simp only [isLeft, isRight] at failed
    split at failed
    · cases failed
    · next arithmetic =>
      split at failed
      · next number _ =>
        have numeric : ty.isNumeric = true := by
          have shape := BinaryOperator.numeric_result scalar.static otherScalar.static (by simpa using arithmetic) typed
          rcases shape with ⟨-, isText, -⟩ | ⟨numeric, -⟩
          · rw [isText] at numbers
            cases numbers.1
          · exact numeric
        obtain ⟨result, converted, -⟩ := Arithmetic.convert_number numeric number
        rw [converted] at failed
        cases failed
      · next early isEarly =>
        cases failed
        exact Arithmetic.numeric_fault isEarly

end BasicLang
