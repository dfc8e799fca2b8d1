import BasicLang.Proofs.Evaluation
import BasicLang.Proofs.Number.WholeQuotients
import BasicLang.Proofs.Typing.Bound
import BasicLang.Proofs.WholeOperators

set_option autoImplicit false

namespace BasicLang

/-- The whole number that an operator gives, before it is put into a type. -/
def BinaryOperator.whole? (operator : BinaryOperator) (left right : Int) : Option Int :=
  match operator with
  | .add => some (left + right)
  | .subtract => some (left - right)
  | .multiply => some (left * right)
  | .intDivide => if right = 0 then none else some (left.tdiv right)
  | .modulo => if right = 0 then none else some (left.tmod right)
  | _ => none

def Ty.held? (ty : Ty) (number : Int) : Option Int := if ty.InRange number then some number else none

/-- The number of an expression over whole numbers and constants, if every operator has a result in the range of its type. -/
def Expr.whole? (constants : String → Option Int) : Expr → Option Int
  | .literal (.integer number) _ => some number
  | .literal (.long number) _ => some number
  | .variable name _ => constants name
  | .grouped inner _ => inner.whole? constants
  | .unary .negate operand info => do (info.ty.getD .any).held? (-(← operand.whole? constants))
  | .binary operator left right info => do
    (info.ty.getD .any).held? (← operator.whole? (← left.whole? constants) (← right.whole? constants))
  | _ => none

def Expr.outermost? (constants : String → Option Int) : Expr → Option Int
  | .unary .negate operand _ => do return -(← operand.whole? constants)
  | .binary operator left right _ => do operator.whole? (← left.whole? constants) (← right.whole? constants)
  | expr => expr.whole? constants

/-- The variables of the constants have their numbers, which are those that the checker folds them to. -/
def Environment.Knows (environment : Environment) (symbols : SymbolTable) (constants : String → Option Int) : Prop :=
  ∀ name number, constants name = some number → ∃ entry folded, symbols.lookup? name = some entry ∧
    entry.constant = some folded ∧ Double.IsWhole folded number ∧ entry.ty.InRange number ∧
    environment.value? name = some (entry.ty.whole number)

theorem Ty.held_iff {ty : Ty} {number held : Int} : ty.held? number = some held ↔ number = held ∧ ty.InRange number := by
  rw [Ty.held?]
  split
  · next inRange =>
    rw [Option.some_inj]
    exact ⟨fun same => ⟨same, inRange⟩, And.left⟩
  · next outside => exact iff_of_false (by simp) fun both => outside both.2

theorem Ty.InRange.definite {ty : Ty} {number : Int} (inRange : ty.InRange number) : ty.isDefinite = true := by
  rcases inRange.is_whole with rfl | rfl <;> rfl

theorem Ty.InRange.short {ty : Ty} {number : Int} (inRange : ty.InRange number) : number.natAbs < 2 ^ 51 := by
  have := inRange.bounds
  omega

theorem Ty.nearest_in_range {ty : Ty} {number : Int} (small : number.natAbs < 2 ^ 63) :
    ty.InRange (nearestWhole number) ↔ ty.InRange number := by
  by_cases few : number.natAbs < 2 ^ 53
  · rw [nearest_small few]
  · have near := nearest_near small
    refine iff_of_false (fun inRange => ?_) fun inRange => few inRange.exact
    have := inRange.bounds
    omega

section Operators

variable {operator : BinaryOperator} {leftTy rightTy : Ty} {x y number : Int} {left right : Float}

theorem BinaryOperator.whole_cases (gives : operator.whole? x y = some number) :
    operator = .add ∧ number = x + y ∨ operator = .subtract ∧ number = x - y ∨ operator = .multiply ∧ number = x * y ∨
      operator = .intDivide ∧ y ≠ 0 ∧ number = x.tdiv y ∨ operator = .modulo ∧ y ≠ 0 ∧ number = x.tmod y := by
  cases operator with
  | intDivide | modulo =>
    rw [BinaryOperator.whole?] at gives
    split at gives
    · cases gives
    · next nonzero =>
      cases gives
      simp [nonzero]
  | _ => cases gives <;> simp

theorem BinaryOperator.stays_of_whole (gives : operator.whole? x y = some number) : operator.staysWhole = true := by
  obtain ⟨rfl, -⟩ | ⟨rfl, -⟩ | ⟨rfl, -⟩ | ⟨rfl, -⟩ | ⟨rfl, -⟩ := whole_cases gives <;> rfl

theorem BinaryOperator.large_product (gives : operator.whole? x y = some number) (leftRange : leftTy.InRange x)
    (rightRange : rightTy.InRange y) (large : ¬number.natAbs < 2 ^ 53) : operator = .multiply ∧ number = x * y := by
  obtain ⟨-, -, sum, difference, -⟩ :=
    operands_exact (Value.whole_in_range leftRange) (Value.whole_in_range rightRange)
  obtain ⟨rfl, rfl⟩ | ⟨rfl, rfl⟩ | isProduct | ⟨rfl, -, rfl⟩ | ⟨rfl, -, rfl⟩ := whole_cases gives
  · exact absurd sum large
  · exact absurd difference large
  · exact isProduct
  · exact absurd (quotient_exact (Value.whole_in_range leftRange) y) large
  · have less : (x.tmod y).natAbs ≤ x.natAbs := Int.natAbs_tmod x y ▸ Nat.mod_le _ _
    exact absurd (Nat.lt_of_le_of_lt less leftRange.exact) large

theorem BinaryOperator.whole_bound (gives : operator.whole? x y = some number) (leftRange : leftTy.InRange x)
    (rightRange : rightTy.InRange y) : number.natAbs ≤ 2 ^ 62 := by
  by_cases small : number.natAbs < 2 ^ 53
  · omega
  · obtain ⟨-, -, -, -, product⟩ :=
      operands_exact (Value.whole_in_range leftRange) (Value.whole_in_range rightRange)
    exact (large_product gives leftRange rightRange small).2 ▸ product

theorem BinaryOperator.apply_gives (gives : operator.whole? x y = some number) (leftRange : leftTy.InRange x)
    (rightRange : rightTy.InRange y) : operator.apply (leftTy.whole x) (rightTy.whole y) =
      .ok ((leftTy.wider rightTy).whole (nearestWhole number)) := by
  have isLeft := Value.whole_in_range leftRange
  have isRight := Value.whole_in_range rightRange
  have sameTy : (leftTy.whole x).ty.wider (rightTy.whole y).ty = leftTy.wider rightTy := by
    rw [Ty.whole_ty leftRange, Ty.whole_ty rightRange]
  obtain ⟨-, -, sum, difference, -⟩ := operands_exact isLeft isRight
  rw [← sameTy]
  obtain ⟨rfl, rfl⟩ | ⟨rfl, rfl⟩ | ⟨rfl, rfl⟩ | ⟨rfl, nonzero, rfl⟩ | ⟨rfl, nonzero, rfl⟩ := whole_cases gives
  · rw [add_whole isLeft isRight, nearest_small sum]
  · rw [subtract_whole isLeft isRight, nearest_small difference]
  · exact multiply_whole isLeft isRight
  · rw [int_divide_whole isLeft isRight nonzero, nearest_small (quotient_exact isLeft y)]
  · rw [modulo_whole isLeft isRight nonzero, nearest_small (remainder_in_range isLeft isRight).exact]

theorem fold_gives_whole (gives : operator.whole? x y = some number) (leftWhole : Double.IsWhole left x)
    (rightWhole : Double.IsWhole right y) (leftShort : x.natAbs < 2 ^ 51) (rightShort : y.natAbs < 2 ^ 51)
    (small : number.natAbs < 2 ^ 53) : ∃ folded, Check.foldBinary operator left right = some folded ∧
      Double.IsWhole folded number := by
  have leftSmall : x.natAbs < 2 ^ 53 := by omega
  have rightSmall : y.natAbs < 2 ^ 53 := by omega
  have leftKept : Double.roundHalfAway left = left := leftWhole.round leftSmall .halfAway
  have rightKept : Double.roundHalfAway right = right := rightWhole.round rightSmall .halfAway
  have noZero (nonzero : y ≠ 0) : ¬(right == 0) = true := by
    rw [rightWhole.beq_iff rightSmall (.inl zero_of_int) (by decide)]
    exact nonzero
  obtain ⟨rfl, rfl⟩ | ⟨rfl, rfl⟩ | ⟨rfl, rfl⟩ | ⟨rfl, nonzero, rfl⟩ | ⟨rfl, nonzero, rfl⟩ := BinaryOperator.whole_cases gives
  · exact ⟨_, rfl, leftWhole.add leftSmall rightWhole rightSmall small⟩
  · exact ⟨_, rfl, leftWhole.sub leftSmall rightWhole rightSmall small⟩
  · exact ⟨_, rfl, leftWhole.mul leftSmall rightWhole rightSmall small⟩
  · refine ⟨_, ?_, leftWhole.quotient leftSmall rightWhole rightSmall nonzero leftShort⟩
    simp only [Check.foldBinary, leftKept, rightKept]
    rw [if_neg (noZero nonzero)]
  · refine ⟨_, ?_, leftWhole.remainder leftSmall rightWhole rightSmall nonzero⟩
    simp only [Check.foldBinary, leftKept, rightKept]
    rw [if_neg (noZero nonzero)]

theorem fold_gives_nearest (gives : operator.whole? x y = some number) (leftWhole : Double.IsWhole left x)
    (rightWhole : Double.IsWhole right y) (leftRange : leftTy.InRange x) (rightRange : rightTy.InRange y) :
    ∃ folded, Check.foldBinary operator left right = some folded ∧
      Double.toInt (Double.roundToEven folded) = nearestWhole number ∧
        (number.natAbs < 2 ^ 53 → Double.IsWhole folded number) := by
  by_cases small : number.natAbs < 2 ^ 53
  · obtain ⟨folded, folds, isWhole⟩ := fold_gives_whole gives leftWhole rightWhole leftRange.short rightRange.short small
    exact ⟨folded, folds, (isWhole.to_int small).trans (nearest_small small).symm, fun _ => isWhole⟩
  · have bounded := BinaryOperator.whole_bound gives leftRange rightRange
    obtain ⟨rfl, rfl⟩ := BinaryOperator.large_product gives leftRange rightRange small
    have leftNonzero : x ≠ 0 := by
      rintro rfl
      exact small (by simp)
    have rightNonzero : y ≠ 0 := by
      rintro rfl
      exact small (by simp)
    refine ⟨left * right, rfl, ?_, fun few => absurd few small⟩
    rw [leftWhole.nonzero leftNonzero, rightWhole.nonzero rightNonzero]
    exact Double.to_int_mul leftRange.exact rightRange.exact bounded

end Operators

/-- What the checker and the code make of a number: the code wraps it to the type of the expression, and the checker does
not. -/
structure Expr.Folds (expr : Expr) (symbols : SymbolTable) (environment : Environment) (number : Int) : Prop where
  static : expr.Static
  isWhole : expr.ty.IsWhole
  bounded : number.natAbs < 2 ^ 63
  folded : ∃ folded, Check.fold symbols expr = some folded ∧
    Double.toInt (Double.roundToEven folded) = nearestWhole number ∧ (number.natAbs < 2 ^ 53 → Double.IsWhole folded number)
  evaluated : expr.evaluate environment = .ok (expr.ty.whole (nearestWhole number), environment)

section Expressions

variable {symbols table : SymbolTable} {registry : Registry} {constants : String → Option Int} {environment : Environment}
  {expr : Expr} {x y number : Int}

theorem Expr.Folds.whole (folds : expr.Folds symbols environment number) (inRange : expr.ty.InRange number) :
    ∃ folded, Check.fold symbols expr = some folded ∧ Double.IsWhole folded number := by
  obtain ⟨folded, isFolded, -, isWhole⟩ := folds.folded
  exact ⟨folded, isFolded, isWhole inRange.exact⟩

theorem Expr.Folds.value (folds : expr.Folds symbols environment number) (inRange : expr.ty.InRange number) :
    expr.evaluate environment = .ok (expr.ty.whole number, environment) := by
  rw [folds.evaluated, nearest_small inRange.exact]

theorem Expr.Folds.of_in_range (static : expr.Static) (inRange : expr.ty.InRange number) {folded : Float}
    (folds : Check.fold symbols expr = some folded) (isWhole : Double.IsWhole folded number)
    (evaluated : expr.evaluate environment = .ok (expr.ty.whole number, environment)) :
    expr.Folds symbols environment number := by
  have small := inRange.exact
  refine ⟨static, inRange.is_whole, by omega, ⟨folded, folds, ?_, fun _ => isWhole⟩, ?_⟩
  · rw [isWhole.to_int small, nearest_small small]
  · rw [evaluated, nearest_small small]

theorem Expr.Folds.binary {operator : BinaryOperator} {left right : Expr} {info : ExprInfo}
    (accepted : (Expr.binary operator left right info).Accepted table registry)
    (leftFolds : left.Folds symbols environment x) (leftRange : left.ty.InRange x)
    (rightFolds : right.Folds symbols environment y) (rightRange : right.ty.InRange y)
    (gives : operator.whole? x y = some number) :
    (Expr.binary operator left right info).Folds symbols environment number := by
  obtain ⟨leftFolded, leftFold, leftWhole⟩ := leftFolds.whole leftRange
  obtain ⟨rightFolded, rightFold, rightWhole⟩ := rightFolds.whole rightRange
  obtain ⟨-, -, -, typed⟩ := accepted
  rw [BinaryOperator.result_type_whole (BinaryOperator.stays_of_whole gives) leftFolds.isWhole rightFolds.isWhole] at typed
  have same : (Expr.binary operator left right info).ty = left.ty.wider right.ty := by
    rw [Expr.ty, Expr.info, ← typed]
    rfl
  have isWhole : (left.ty.wider right.ty).IsWhole := (leftRange.wider rightFolds.isWhole).is_whole
  have definite : (Expr.binary operator left right info).ty.isDefinite = true := by
    rw [same]
    rcases isWhole with isTy | isTy <;> rw [isTy] <;> rfl
  obtain ⟨folded, folds, nearest, exact⟩ := fold_gives_nearest gives leftWhole rightWhole leftRange rightRange
  have bounded := BinaryOperator.whole_bound gives leftRange rightRange
  refine ⟨⟨leftFolds.static, rightFolds.static, definite⟩, same ▸ isWhole, by omega, ⟨folded, ?_, nearest, exact⟩, ?_⟩
  · rw [Check.fold, leftFold, rightFold]
    exact folds
  · rw [same, Expr.evaluate, leftFolds.value leftRange]
    change (right.evaluate environment >>= _) = _
    rw [rightFolds.value rightRange]
    change (Fault.ofArithmetic (operator.apply _ _) >>= _) = _
    rw [BinaryOperator.apply_gives gives leftRange rightRange]
    rfl

theorem Expr.Folds.negate {operand : Expr} {info : ExprInfo}
    (accepted : (Expr.unary .negate operand info).Accepted table registry) (folds : operand.Folds symbols environment x)
    (range : operand.ty.InRange x) : (Expr.unary .negate operand info).Folds symbols environment (-x) := by
  obtain ⟨folded, fold, isWhole⟩ := folds.whole range
  have same : (Expr.unary .negate operand info).ty = operand.ty := by
    rw [Expr.ty, Expr.info, ← accepted.2.2]
    rcases range.is_whole with isTy | isTy <;> rw [isTy] <;> rfl
  have definite : (Expr.unary .negate operand info).ty.isDefinite = true := same ▸ range.definite
  have small : (-x).natAbs < 2 ^ 53 := Int.natAbs_neg x ▸ range.exact
  have opposite := isWhole.neg range.exact
  refine ⟨⟨folds.static, definite⟩, same ▸ range.is_whole, by omega, ⟨-folded, ?_, ?_, fun _ => opposite⟩, ?_⟩
  · rw [Check.fold, fold]
    rfl
  · rw [opposite.to_int small, nearest_small small]
  · rw [same, Expr.evaluate, folds.value range]
    change (Fault.ofArithmetic (Value.negate _) >>= _) = _
    rw [negate_whole (Value.whole_in_range range), Ty.whole_ty range, nearest_small small]
    rfl

-- The induction is on the expression: each operator has a result in the range of its type, so its operand is a number too.
theorem Expr.folds_of_whole (known : environment.Knows symbols constants) (expr : Expr)
    (accepted : expr.Accepted table registry) (bound : expr.Bound symbols) {number : Int}
    (isWhole : expr.whole? constants = some number) : expr.Folds symbols environment number ∧ expr.ty.InRange number := by
  cases expr with
  | literal literal info =>
    have typed : (Expr.literal literal info).ty = Check.literalType literal := by
      rw [Expr.ty, Expr.info, accepted.2]
      rfl
    have inRange := accepted.1
    cases literal with
    | integer value =>
      cases isWhole
      have least : -32768 ≤ number ∧ number ≤ 32767 := inRange
      have evaluated : (Expr.literal (.integer number) info).evaluate environment = .ok
        (Ty.integer.whole number, environment) := by
        rw [Expr.evaluate, Literal.value, if_pos least]
        rfl
      exact ⟨.of_in_range trivial (typed ▸ inRange) rfl (.inl rfl) (typed ▸ evaluated), typed ▸ inRange⟩
    | long value =>
      cases isWhole
      have least : -2147483648 ≤ number ∧ number ≤ 2147483647 := inRange
      have evaluated : (Expr.literal (.long number) info).evaluate environment = .ok (Ty.long.whole number, environment) := by
        rw [Expr.evaluate, Literal.value, Value.ofWide, if_pos least]
        rfl
      exact ⟨.of_in_range trivial (typed ▸ inRange) rfl (.inl rfl) (typed ▸ evaluated), typed ▸ inRange⟩
    | _ => cases isWhole
  | «variable» name info =>
    obtain ⟨entry, folded, declared, isConstant, foldedWhole, inRange, value⟩ := known name number isWhole
    obtain ⟨found, foundDeclared, typed⟩ := bound
    obtain rfl := Option.some.inj (declared.symm.trans foundDeclared)
    have same : (Expr.variable name info).ty = entry.ty := by
      rw [Expr.ty, Expr.info, typed]
      rfl
    rw [← same] at inRange value
    have folds : Check.fold symbols (.variable name info) = some folded := by
      rw [Check.fold, declared]
      exact isConstant
    refine ⟨.of_in_range inRange.definite inRange folds foldedWhole ?_, inRange⟩
    rw [Expr.evaluate, Environment.fetch, value]
  | binary operator left right info =>
    rw [Expr.whole?] at isWhole
    obtain ⟨x, leftWhole, further⟩ := Option.bind_eq_some_iff.mp isWhole
    obtain ⟨y, rightWhole, applying⟩ := Option.bind_eq_some_iff.mp further
    obtain ⟨result, gives, held⟩ := Option.bind_eq_some_iff.mp applying
    obtain ⟨rfl, inRange⟩ := Ty.held_iff.mp held
    obtain ⟨leftFolds, leftRange⟩ := Expr.folds_of_whole known left accepted.1 bound.1 leftWhole
    obtain ⟨rightFolds, rightRange⟩ := Expr.folds_of_whole known right accepted.2.1 bound.2 rightWhole
    exact ⟨.binary accepted leftFolds leftRange rightFolds rightRange gives, inRange⟩
  | unary operator operand info =>
    cases operator with
    | not => cases isWhole
    | negate =>
      rw [Expr.whole?] at isWhole
      obtain ⟨x, operandWhole, held⟩ := Option.bind_eq_some_iff.mp isWhole
      obtain ⟨rfl, inRange⟩ := Ty.held_iff.mp held
      obtain ⟨folds, range⟩ := Expr.folds_of_whole known operand accepted.1 bound operandWhole
      exact ⟨.negate accepted folds range, inRange⟩
  | grouped inner info =>
    have same : (Expr.grouped inner info).ty = inner.ty := by
      rw [Expr.ty, Expr.info, accepted.2]
      rfl
    obtain ⟨folds, inRange⟩ := Expr.folds_of_whole known inner accepted.1 bound isWhole
    have definite : (Expr.grouped inner info).ty.isDefinite = true := same ▸ inRange.definite
    obtain ⟨folded, isFolded, foldedWhole⟩ := folds.whole inRange
    have evaluated := folds.value inRange
    rw [← same] at inRange evaluated
    exact ⟨.of_in_range ⟨folds.static, definite⟩ inRange isFolded foldedWhole evaluated, inRange⟩
  | _ => cases isWhole

theorem Expr.folds_of_outermost (known : environment.Knows symbols constants) (expr : Expr)
    (accepted : expr.Accepted table registry) (bound : expr.Bound symbols)
    (isNumber : expr.outermost? constants = some number) : expr.Folds symbols environment number := by
  cases expr with
  | binary operator left right info =>
    rw [Expr.outermost?] at isNumber
    obtain ⟨x, leftWhole, further⟩ := Option.bind_eq_some_iff.mp isNumber
    obtain ⟨y, rightWhole, gives⟩ := Option.bind_eq_some_iff.mp further
    obtain ⟨leftFolds, leftRange⟩ := Expr.folds_of_whole known left accepted.1 bound.1 leftWhole
    obtain ⟨rightFolds, rightRange⟩ := Expr.folds_of_whole known right accepted.2.1 bound.2 rightWhole
    exact .binary accepted leftFolds leftRange rightFolds rightRange gives
  | unary operator operand info =>
    cases operator with
    | not => cases isNumber
    | negate =>
      rw [Expr.outermost?] at isNumber
      obtain ⟨x, operandWhole, same⟩ := Option.bind_eq_some_iff.mp isNumber
      cases same
      obtain ⟨folds, range⟩ := Expr.folds_of_whole known operand accepted.1 bound operandWhole
      exact .negate accepted folds range
  | _ => exact (Expr.folds_of_whole known _ accepted bound isNumber).1

theorem Expr.Folds.same_iff (folds : expr.Folds symbols environment number) {folded : Float} {computed : Int}
    (isFolded : Check.fold symbols expr = some folded)
        (isComputed : (expr.ty.whole (nearestWhole number)).whole? = some computed) :
    Double.IsWhole folded computed ↔ expr.ty.InRange number := by
  obtain ⟨found, isFound, nearest, exact⟩ := folds.folded
  obtain rfl := Option.some.inj (isFolded.symm.trans isFound)
  have typed := Ty.whole_ty_of_is_whole folds.isWhole (nearestWhole number)
  have computedRange := (Value.whole_cases isComputed).1
  rw [typed] at computedRange
  constructor
  · intro same
    rw [← Ty.nearest_in_range folds.bounded, ← nearest, same.to_int computedRange.exact]
    exact computedRange
  · intro inRange
    rw [nearest_small inRange.exact, Value.whole_in_range inRange] at isComputed
    cases isComputed
    exact exact inRange.exact

end Expressions

end BasicLang
