import BasicLang.Proofs.StructuredProgram
import BasicLang.Proofs.Typing.Implicit

set_option autoImplicit false

namespace BasicLang

def Fault.Sound {α : Type} (holds : α → Prop) : Except Fault α → Prop
  | .ok result => holds result
  | .error fault => fault.code ≠ 13

def Interpretation.Sound {α : Type} (holds : α → Prop) (interpretation : Interpretation α) : Prop :=
  ∀ result ∈ interpretation.run, Fault.Sound holds result

section Rules

variable {α β : Type} {holds : α → Prop} {final : β → Prop}

theorem Fault.sound_seq {first : Except Fault α} {next : α → Except Fault β} (soundFirst : Fault.Sound holds first)
    (soundNext : ∀ value, holds value → Fault.Sound final (next value)) : Fault.Sound final (first >>= next) := by
  cases first with
  | error fault => exact soundFirst
  | ok value => exact soundNext value soundFirst

theorem Fault.sound_value {result : Except ValueFault Value} {holds : Value → Prop}
    (known : ∃ value, result = .ok value ∧ holds value) : Fault.Sound holds (Fault.ofValue result) := by
  obtain ⟨value, rfl, given⟩ := known
  exact given

theorem Interpretation.sound_unit {result : α} (known : holds result) :
    Interpretation.Sound holds (pure result) := by
  rintro _ ⟨⟩
  exact known

theorem Interpretation.sound_result {result : Except Fault α} (sound : Fault.Sound holds result) :
    Interpretation.Sound holds (.ofResult result) := by
  rintro _ ⟨⟩
  exact sound

theorem Interpretation.sound_seq {first : Interpretation α} {next : α → Interpretation β}
    (soundFirst : Interpretation.Sound holds first)
    (soundNext : ∀ value, holds value → Interpretation.Sound final (next value)) :
    Interpretation.Sound final (first >>= next) := by
  intro result found
  rw [ExceptT.run_bind] at found
  cases ran : first.run with
  | none =>
    rw [ran] at found
    cases found
  | some outcome =>
    rw [ran] at found
    have sound := soundFirst outcome ran
    cases outcome with
    | ok value => exact soundNext value sound result found
    | error fault =>
      cases found
      exact sound

end Rules

namespace Environment

structure Typed (environment : Environment) : Prop where
  fresh : ∀ name, environment.implicitType name = .implicit name
  values : ∀ name value, environment.value? name = some value → value.ty = .implicit name

variable {environment : Environment}

theorem initial_typed : initial.Typed := ⟨fun _ => rfl, fun _ _ found => nomatch found⟩

theorem Typed.set (typed : environment.Typed) {name : String} {value : Value} (suits : value.ty = .implicit name) :
    (environment.set name value).Typed := by
  refine ⟨typed.fresh, fun other held found => ?_⟩
  dsimp only [Environment.set] at found
  split at found
  · next same => rw [← Option.some.inj found, same, suits]
  · exact typed.values other held found

theorem Typed.find (typed : environment.Typed) (name : String) :
    (environment.find name).1.ty = .implicit name ∧ (environment.find name).2.Typed := by
  unfold Environment.find fetch
  split
  · next value found => exact ⟨typed.values name value found, typed⟩
  · rw [typed.fresh]
    have suits := Ty.IsScalar.default_ty (Ty.implicit_scalar name)
    exact ⟨suits, typed.set suits⟩

/-- A value of a type, beside variables with the types of their names. -/
def Yields (ty : Ty) : Value × Environment → Prop
  | (value, environment) => value.ty = ty ∧ environment.Typed

end Environment

section Expressions

variable {symbols : SymbolTable} {registry : Registry}

theorem Expr.type_scalar {expr : Expr} (accepted : expr.Accepted symbols registry) (scalar : expr.isScalar = true)
    (implicit : expr.Implicit) : expr.ty.IsScalar := by
  cases expr with
  | literal value info =>
    rw [Expr.ty, Expr.info, accepted.2]
    cases value <;> first | exact .inl rfl | exact .inr rfl
  | «variable» name info =>
    rw [Expr.isScalar, Bool.not_eq_true'] at scalar
    rcases implicit with isArray | typed
    · rw [scalar] at isArray
      cases isArray
    · rw [Expr.ty, Expr.info, typed]
      exact Ty.implicit_scalar name
  | binary operator left right info =>
    rw [Expr.isScalar, Bool.and_eq_true] at scalar
    obtain ⟨leftAccepted, rightAccepted, known, typed⟩ := accepted
    have leftScalar := Expr.type_scalar leftAccepted scalar.1 implicit.1
    have rightScalar := Expr.type_scalar rightAccepted scalar.2 implicit.2
    rw [ExprInfo.typed known] at typed
    exact BinaryOperator.result_scalar leftScalar.static rightScalar.static typed
  | unary operator operand info =>
    obtain ⟨operandAccepted, known, typed⟩ := accepted
    have operandScalar := Expr.type_scalar operandAccepted scalar implicit
    rw [ExprInfo.typed known] at typed
    exact .inl (UnaryOperator.result_numeric operandScalar.static typed)
  | grouped inner info =>
    rw [Expr.ty, Expr.info, accepted.2]
    exact Expr.type_scalar accepted.1 scalar implicit
  | _ => cases scalar

theorem BinaryOperator.apply_sound {operator : BinaryOperator} {left right : Value} {ty : Ty}
    (scalar : left.ty.IsScalar) (otherScalar : right.ty.IsScalar)
    (typed : operator.resultType? left.ty right.ty = some ty) :
    Fault.Sound (fun result => result.ty = ty) (Fault.ofArithmetic (operator.apply left right)) := by
  cases applied : operator.apply left right with
  | ok result => exact BinaryOperator.apply_typed scalar.present otherScalar.present typed applied
  | error fault => exact BinaryOperator.apply_fault scalar otherScalar typed applied

theorem UnaryOperator.apply_sound {operator : UnaryOperator} {value : Value} {ty : Ty}
    (typed : operator.resultType? value.ty = some ty) :
    Fault.Sound (fun result => result.ty = ty) (Fault.ofArithmetic (operator.apply value)) := by
  obtain ⟨result, applied, isTyped⟩ := UnaryOperator.apply_typed typed
  rw [applied]
  exact isTyped

theorem Expr.evaluate_sound {expr : Expr} (accepted : expr.Accepted symbols registry)
    (scalar : expr.isScalar = true) (implicit : expr.Implicit) {environment : Environment} (typed : environment.Typed) :
    Fault.Sound (Environment.Yields expr.ty) (expr.evaluate environment) := by
  -- By recursion on the expression. The variables stay typed from operand to operand, since the first use
  -- of a variable creates it with the type of its name.
  cases expr with
  | literal value info =>
    refine ⟨?_, typed⟩
    rw [Expr.ty, Expr.info, accepted.2]
    exact Literal.value_typed accepted.1
  | «variable» name info =>
    rw [Expr.isScalar, Bool.not_eq_true'] at scalar
    rcases implicit with isArray | isTyped
    · rw [scalar] at isArray
      cases isArray
    · rw [Expr.ty, Expr.info, isTyped]
      exact typed.find name
  | binary operator left right info =>
    rw [Expr.isScalar, Bool.and_eq_true] at scalar
    obtain ⟨leftAccepted, rightAccepted, known, suits⟩ := accepted
    have leftScalar := Expr.type_scalar leftAccepted scalar.1 implicit.1
    have rightScalar := Expr.type_scalar rightAccepted scalar.2 implicit.2
    rw [ExprInfo.typed known] at suits
    rw [Expr.evaluate]
    refine Fault.sound_seq (Expr.evaluate_sound leftAccepted scalar.1 implicit.1 typed) ?_
    rintro ⟨leftValue, between⟩ ⟨leftTyped, typed⟩
    refine Fault.sound_seq (Expr.evaluate_sound rightAccepted scalar.2 implicit.2 typed) ?_
    rintro ⟨rightValue, after⟩ ⟨rightTyped, typed⟩
    rw [← leftTyped] at leftScalar
    rw [← rightTyped] at rightScalar
    rw [← leftTyped, ← rightTyped] at suits
    exact Fault.sound_seq (BinaryOperator.apply_sound leftScalar rightScalar suits) fun result isTyped =>
      ⟨isTyped, typed⟩
  | unary operator operand info =>
    obtain ⟨operandAccepted, known, suits⟩ := accepted
    rw [ExprInfo.typed known] at suits
    rw [Expr.evaluate]
    refine Fault.sound_seq (Expr.evaluate_sound operandAccepted scalar implicit typed) ?_
    rintro ⟨value, after⟩ ⟨valueTyped, typed⟩
    rw [← valueTyped] at suits
    exact Fault.sound_seq (UnaryOperator.apply_sound suits) fun result isTyped => ⟨isTyped, typed⟩
  | grouped inner info =>
    rw [Expr.ty, Expr.info, accepted.2, Expr.evaluate]
    exact Expr.evaluate_sound accepted.1 scalar implicit typed
  | _ => cases scalar

theorem Expr.evaluate_double_sound {expr : Expr} (accepted : expr.Accepted symbols registry)
    (scalar : expr.isScalar = true) (counts : expr.Counts) {environment : Environment}
    (typed : environment.Typed) : Fault.Sound (Environment.Yields .double) (expr.evaluateDouble environment) := by
  have numeric := (Expr.type_scalar accepted scalar counts.1).numeric_of_number counts.2
  refine Fault.sound_seq (Expr.evaluate_sound accepted scalar counts.1 typed) ?_
  rintro ⟨value, after⟩ ⟨isTyped, typed⟩
  rw [← isTyped] at numeric
  exact Fault.sound_seq (Fault.sound_value (Ty.convert_numeric rfl numeric)) fun result isDouble =>
    ⟨isDouble, typed⟩

theorem Expr.evaluate_step_sound {step : Option Expr} (accepted : ∀ expr ∈ step, expr.Accepted symbols registry)
    (scalar : step.all Expr.isScalar = true) (counts : ∀ expr ∈ step, expr.Counts) {environment : Environment}
    (typed : environment.Typed) :
    Fault.Sound (Environment.Yields .double) (Expr.evaluateStep environment step) := by
  cases step with
  | none => exact ⟨rfl, typed⟩
  | some expr => exact Expr.evaluate_double_sound (accepted expr rfl) scalar (counts expr rfl) typed

end Expressions

namespace Environment

variable {symbols : SymbolTable} {registry : Registry} {environment : Environment}

theorem assign_sound (typed : environment.Typed) {name : String} {value : Value} (scalar : value.ty.IsScalar)
    (compatible : (Ty.implicit name).isCompatible value.ty = true) :
    Fault.Sound Typed (environment.assign name value) := by
  obtain ⟨heldTyped, found⟩ := typed.find name
  have nameScalar := Ty.implicit_scalar name
  -- Only a variable that holds the absent value takes a value of any type, and no name has that type.
  have present : (environment.find name).1.ty ≠ .null := by
    rw [heldTyped]
    intro isNull
    rw [isNull] at nameScalar
    rcases nameScalar with numeric | isText
    · cases numeric
    · cases isText
  rw [assign]
  dsimp only
  rw [if_neg present, heldTyped]
  exact Fault.sound_seq (Fault.sound_value (Ty.convert_compatible nameScalar scalar compatible)) fun _ suits =>
    found.set suits

theorem assign_from_sound (typed : environment.Typed) {name : String} {source : Expr}
    (accepted : source.Accepted symbols registry) (scalar : source.isScalar = true) (implicit : source.Implicit)
    (compatible : (Ty.implicit name).isCompatible source.ty = true) :
    Fault.Sound Typed (environment.assignFrom name source) := by
  have sourceScalar := Expr.type_scalar accepted scalar implicit
  refine Fault.sound_seq (Expr.evaluate_sound accepted scalar implicit (typed.find name).2) ?_
  rintro ⟨value, after⟩ ⟨isTyped, typed⟩
  rw [← isTyped] at sourceScalar compatible
  exact assign_sound typed sourceScalar compatible

theorem number_sound {value : Value} (numeric : value.ty.isNumeric = true) :
    Fault.Sound (fun _ => True) value.number := by
  obtain ⟨number, isNumber⟩ := Value.numeric_double numeric
  rw [Value.number, isNumber]
  trivial

theorem counts_sound (typed : environment.Typed) {counter : String}
    (numeric : (Ty.implicit counter).isNumeric = true) {last step : Value}
    (lastNumeric : last.ty.isNumeric = true) (stepNumeric : step.ty.isNumeric = true) :
    Fault.Sound (fun found => found.2.Typed) (counts counter last step environment) := by
  obtain ⟨heldTyped, found⟩ := typed.find counter
  rw [← heldTyped] at numeric
  exact Fault.sound_seq (number_sound stepNumeric) fun _ _ => Fault.sound_seq (number_sound lastNumeric) fun _ _ =>
    Fault.sound_seq (number_sound numeric) fun _ _ => found

theorem advance_sound (typed : environment.Typed) {counter : String}
    (numeric : (Ty.implicit counter).isNumeric = true) {step : Value} (stepNumeric : step.ty.isNumeric = true) :
    Fault.Sound Typed (advance counter step environment) := by
  obtain ⟨heldTyped, foundTyped⟩ := typed.find counter
  rw [advance]
  -- The value that is found occurs four times, so that it gets a name before the fault is decided.
  generalize environment.find counter = found at heldTyped foundTyped
  obtain ⟨held, found⟩ := found
  obtain ⟨number, isNumber⟩ := Value.numeric_double (heldTyped.symm ▸ numeric)
  refine Fault.sound_seq (number_sound stepNumeric) fun size _ => ?_
  simp only [isNumber]
  split
  · exact assign_sound foundTyped (.inl rfl) (Ty.numeric_compatible numeric rfl)
  · exact (by decide : Fault.counterOverflow.code ≠ 13)

end Environment

section Tests

variable {symbols : SymbolTable} {registry : Registry}

theorem CaseMatch.compare_sound {tested : Value} (testedScalar : tested.ty.IsScalar) {operator : BinaryOperator}
    (comparison : operator.isComparison = true) {wanted : Expr} (accepted : wanted.Accepted symbols registry)
    (scalar : wanted.isScalar = true) (implicit : wanted.Implicit)
    (comparable : (BinaryOperator.equal.resultType? tested.ty wanted.ty).isSome = true)
    {environment : Environment} (typed : environment.Typed) :
    Fault.Sound (Environment.Yields .integer) (CaseMatch.compare tested operator wanted environment) := by
  have wantedScalar := Expr.type_scalar accepted scalar implicit
  have suits := BinaryOperator.comparison_suits comparison comparable
  refine Fault.sound_seq (Expr.evaluate_sound accepted scalar implicit typed) ?_
  rintro ⟨value, after⟩ ⟨isTyped, typed⟩
  rw [← isTyped] at wantedScalar suits
  exact Fault.sound_seq (BinaryOperator.apply_sound testedScalar wantedScalar suits) fun _ isTruth =>
    ⟨isTruth, typed⟩

theorem CaseMatch.evaluate_sound {tested : Value} (testedScalar : tested.ty.IsScalar) {pattern : CaseMatch}
    (accepted : pattern.Accepted symbols registry) (scalar : pattern.isScalar = true)
    (suits : pattern.Suits tested.ty) {environment : Environment} (typed : environment.Typed) :
    Fault.Sound (Environment.Yields .integer) (pattern.evaluate tested environment) := by
  cases pattern with
  | single wanted => exact compare_sound testedScalar rfl accepted scalar suits.1 suits.2 typed
  | range first last =>
    rw [CaseMatch.isScalar, Bool.and_eq_true] at scalar
    refine Fault.sound_seq
      (compare_sound testedScalar rfl accepted.1 scalar.1 suits.1.1 suits.1.2 typed) ?_
    rintro ⟨above, between⟩ ⟨aboveTruth, typed⟩
    refine Fault.sound_seq
      (compare_sound testedScalar rfl accepted.2 scalar.2 suits.2.1 suits.2.2 typed) ?_
    rintro ⟨below, after⟩ ⟨belowTruth, typed⟩
    have whole : BinaryOperator.and.resultType? above.ty below.ty = some .integer := by
      rw [aboveTruth, belowTruth]
      rfl
    exact Fault.sound_seq (BinaryOperator.apply_sound (.inl (aboveTruth ▸ rfl)) (.inl (belowTruth ▸ rfl)) whole)
      fun _ isTruth => ⟨isTruth, typed⟩
  | comparison operator wanted =>
    exact compare_sound testedScalar suits.1 accepted scalar suits.2.1 suits.2.2 typed

theorem CaseMatch.any_sound {tested : Value} (testedScalar : tested.ty.IsScalar) {patterns : List CaseMatch}
    (accepted : ∀ pattern ∈ patterns, pattern.Accepted symbols registry)
    (scalar : patterns.all CaseMatch.isScalar = true) (suits : ∀ pattern ∈ patterns, pattern.Suits tested.ty)
    {environment : Environment} (typed : environment.Typed) :
    Fault.Sound (fun found => found.2.Typed) (CaseMatch.anyMatches tested environment patterns) := by
  induction patterns generalizing environment with
  | nil => exact typed
  | cons pattern rest ih =>
    rw [List.all_cons, Bool.and_eq_true] at scalar
    obtain ⟨acceptedHead, acceptedRest⟩ := List.forall_mem_cons.mp accepted
    obtain ⟨suitsHead, suitsRest⟩ := List.forall_mem_cons.mp suits
    refine Fault.sound_seq (CaseMatch.evaluate_sound testedScalar acceptedHead scalar.1 suitsHead typed) ?_
    rintro ⟨truth, after⟩ ⟨-, typed⟩
    dsimp only
    split
    · exact typed
    · exact ih acceptedRest scalar.2 suitsRest typed

theorem LoopCondition.goes_on_sound {condition : Option LoopCondition}
    (accepted : ∀ loop ∈ condition, loop.condition.Accepted symbols registry)
    (scalar : condition.all (·.condition.isScalar) = true) (implicit : ∀ loop ∈ condition, loop.condition.Implicit)
    {environment : Environment} (typed : environment.Typed) :
    Fault.Sound (fun found => found.2.Typed) (LoopCondition.goesOn condition environment) := by
  cases condition with
  | none => exact typed
  | some loop =>
    refine Fault.sound_seq (Expr.evaluate_sound (accepted loop rfl) scalar (implicit loop rfl) typed) ?_
    rintro ⟨value, after⟩ ⟨-, typed⟩
    exact typed

end Tests

section Statements

open Environment Interpretation

theorem loop_sound {kind : ExitTarget} {test further : Environment → Except Fault (Bool × Environment)}
    {body : Environment → Interpretation Flow}
    (testSound : ∀ environment : Environment, environment.Typed →
      Fault.Sound (fun found => found.2.Typed) (test environment))
    (bodySound : ∀ environment : Environment, environment.Typed →
      Interpretation.Sound (fun flow => flow.2.Typed) (body environment))
    (furtherSound : ∀ environment : Environment, environment.Typed →
      Fault.Sound (fun found => found.2.Typed) (further environment))
    (rounds : Nat) {environment : Environment} (typed : environment.Typed) :
    Interpretation.Sound (fun flow => flow.2.Typed) (loop kind test body further rounds environment) := by
  -- The induction is on the rounds, with typed variables as the invariant at the top of the loop. An
  -- unfinished loop has no fault.
  induction rounds generalizing environment with
  | zero => exact fun _ found => nomatch found
  | succ rounds ih =>
    rw [loop]
    refine sound_seq (sound_result (testSound environment typed)) ?_
    rintro ⟨enters, entered⟩ typed
    cases enters with
    | false => exact sound_unit typed
    | true =>
      refine sound_seq (bodySound entered typed) ?_
      rintro ⟨exit, left⟩ typed
      cases exit with
      | some target => exact sound_unit typed
      | none =>
        refine sound_seq (sound_result (furtherSound left typed)) ?_
        rintro ⟨again, back⟩ typed
        cases again with
        | false => exact sound_unit typed
        | true => exact ih typed

mutual

theorem Stmt.interpret_sound {symbols : SymbolTable} {context : CheckContext} {stmt : Stmt}
    (accepted : stmt.Accepted symbols context) (structured : stmt.isStructured = true) (suits : stmt.Suits)
    (rounds : Nat) {environment : Environment} (typed : environment.Typed) :
    Interpretation.Sound (fun flow => flow.2.Typed) (stmt.interpret rounds environment) := by
  cases stmt with
  | assign target source =>
    cases target with
    | «variable» name info =>
      rw [Stmt.isStructured, Bool.and_eq_true] at structured
      rw [Stmt.interpret]
      exact sound_seq (sound_result (assign_from_sound typed accepted.2 structured.2 suits.1 suits.2))
        fun _ typed => sound_unit typed
    | _ => cases structured
  | cond branches =>
    rw [Stmt.interpret]
    exact Arms.interpret_sound accepted structured suits rounds typed
  | select test clauses =>
    rw [Stmt.isStructured, Bool.and_eq_true] at structured
    have testScalar := Expr.type_scalar accepted.1 structured.1 suits.1
    rw [Stmt.interpret]
    refine sound_seq (sound_result (Expr.evaluate_sound accepted.1 structured.1 suits.1 typed)) ?_
    rintro ⟨tested, after⟩ ⟨isTyped, typed⟩
    -- The clauses were checked against the type of the tested expression, which is that of its value.
    exact Cases.interpret_sound accepted.2 structured.2 (isTyped ▸ testScalar) (isTyped ▸ suits.2) rounds typed
  | forLoop counter first last step body next =>
    obtain ⟨-, firstAccepted, lastAccepted, stepAccepted, bodyAccepted⟩ := accepted
    obtain ⟨numeric, firstCounts, lastCounts, stepCounts, bodySuits⟩ := suits
    simp only [Stmt.isStructured, Bool.and_eq_true] at structured
    obtain ⟨⟨⟨firstScalar, lastScalar⟩, stepScalar⟩, bodyStructured⟩ := structured
    -- The end and the step are numbers of the type `DOUBLE`, whatever the type of the counter.
    have firstNumeric := (Expr.type_scalar firstAccepted firstScalar firstCounts.1).numeric_of_number firstCounts.2
    have compatible := Ty.numeric_compatible numeric firstNumeric
    rw [Stmt.interpret]
    refine sound_seq (sound_result (assign_from_sound typed firstAccepted firstScalar firstCounts.1 compatible)) ?_
    intro begun typed
    refine sound_seq (sound_result (Expr.evaluate_double_sound lastAccepted lastScalar lastCounts typed)) ?_
    rintro ⟨lastValue, bounded⟩ ⟨lastTyped, typed⟩
    refine sound_seq (sound_result (Expr.evaluate_step_sound stepAccepted stepScalar stepCounts typed)) ?_
    rintro ⟨stepValue, stepped⟩ ⟨stepTyped, typed⟩
    have lastNumeric : lastValue.ty.isNumeric = true := lastTyped ▸ rfl
    have stepNumeric : stepValue.ty.isNumeric = true := stepTyped ▸ rfl
    refine loop_sound (fun _ typed => counts_sound typed numeric lastNumeric stepNumeric)
      (fun _ typed => Block.interpret_sound bodyAccepted bodyStructured bodySuits rounds typed) (fun _ typed => ?_)
      rounds typed
    exact Fault.sound_seq (advance_sound typed numeric stepNumeric) fun _ typed => typed
  | whileLoop condition body =>
    rw [Stmt.isStructured, Bool.and_eq_true] at structured
    rw [Stmt.interpret]
    refine loop_sound (fun _ typed => ?_)
      (fun _ typed => Block.interpret_sound accepted.2 structured.2 suits.2 rounds typed) (fun _ typed => ?_)
      rounds typed
    · have isCondition {good : Expr → Prop} (known : good condition) :
          ∀ loop ∈ some (⟨true, condition⟩ : LoopCondition), good loop.condition := by
        rintro _ ⟨⟩
        exact known
      exact LoopCondition.goes_on_sound (isCondition accepted.1) structured.1 (isCondition suits.1) typed
    · exact typed
  | doLoop before body after =>
    obtain ⟨beforeAccepted, bodyAccepted, afterAccepted⟩ := accepted
    obtain ⟨beforeImplicit, bodySuits, afterImplicit⟩ := suits
    simp only [Stmt.isStructured, Bool.and_eq_true] at structured
    rw [Stmt.interpret]
    exact loop_sound
      (fun _ typed => LoopCondition.goes_on_sound beforeAccepted structured.1.1 beforeImplicit typed)
      (fun _ typed => Block.interpret_sound bodyAccepted structured.1.2 bodySuits rounds typed)
      (fun _ typed => LoopCondition.goes_on_sound afterAccepted structured.2 afterImplicit typed) rounds typed
  | exit target =>
    rw [Stmt.interpret]
    exact sound_unit typed
  | comment text => exact sound_unit typed
  | _ => cases structured

theorem Block.interpret_sound {symbols : SymbolTable} {context : CheckContext} {block : Block}
    (accepted : block.Accepted symbols context) (structured : block.isStructured = true) (suits : block.Suits)
    (rounds : Nat) {environment : Environment} (typed : environment.Typed) :
    Interpretation.Sound (fun flow => flow.2.Typed) (block.interpret rounds environment) := by
  cases block with
  | nil => exact sound_unit typed
  | cons locus head tail =>
    rw [Block.isStructured, Bool.and_eq_true] at structured
    rw [Block.interpret]
    refine sound_seq (Stmt.interpret_sound accepted.1 structured.1 suits.1 rounds typed) ?_
    rintro ⟨exit, after⟩ typed
    cases exit with
    | some target => exact sound_unit typed
    | none => exact Block.interpret_sound accepted.2 structured.2 suits.2 rounds typed

theorem Arms.interpret_sound {symbols : SymbolTable} {context : CheckContext} {branches : Arms}
    (accepted : branches.Accepted symbols context) (structured : branches.isStructured = true)
    (suits : branches.Suits) (rounds : Nat) {environment : Environment} (typed : environment.Typed) :
    Interpretation.Sound (fun flow => flow.2.Typed) (branches.interpret rounds environment) := by
  cases branches with
  | none => exact sound_unit typed
  | otherwise body =>
    rw [Arms.interpret]
    exact Block.interpret_sound accepted structured suits rounds typed
  | arm condition body rest =>
    obtain ⟨conditionAccepted, bodyAccepted, restAccepted⟩ := accepted
    simp only [Arms.isStructured, Bool.and_eq_true] at structured
    rw [Arms.interpret]
    refine sound_seq (sound_result (Expr.evaluate_sound conditionAccepted structured.1.1 suits.1 typed)) ?_
    rintro ⟨value, after⟩ ⟨-, typed⟩
    dsimp only
    split
    · exact Block.interpret_sound bodyAccepted structured.1.2 suits.2.1 rounds typed
    · exact Arms.interpret_sound restAccepted structured.2 suits.2.2 rounds typed

theorem Cases.interpret_sound {symbols : SymbolTable} {context : CheckContext} {clauses : Cases}
    (accepted : clauses.Accepted symbols context) (structured : clauses.isStructured = true) {tested : Value}
    (testedScalar : tested.ty.IsScalar) (suits : clauses.Suits tested.ty) (rounds : Nat)
    {environment : Environment} (typed : environment.Typed) :
    Interpretation.Sound (fun flow => flow.2.Typed) (clauses.interpret rounds tested environment) := by
  cases clauses with
  | none => exact sound_unit typed
  | otherwise body =>
    rw [Cases.interpret]
    exact Block.interpret_sound accepted structured suits rounds typed
  | clause locus patterns body rest =>
    obtain ⟨patternsAccepted, bodyAccepted, restAccepted⟩ := accepted
    simp only [Cases.isStructured, Bool.and_eq_true] at structured
    rw [Cases.interpret]
    refine sound_seq (sound_result
      (CaseMatch.any_sound testedScalar patternsAccepted structured.1.1 suits.1 typed)) ?_
    rintro ⟨found, after⟩ typed
    dsimp only
    split
    · exact Block.interpret_sound bodyAccepted structured.1.2 suits.2.1 rounds typed
    · exact Cases.interpret_sound restAccepted structured.2 testedScalar suits.2.2 rounds typed

end

end Statements

/-- A program with a structured main routine never stops with a type mismatch, whatever the devices do. -/
theorem structured_program_never_mismatches (source : String) (registry : Registry) (program : Program)
    (image : Image) (parsed : parse (tokenize source).1 = .ok program)
    (compiled : compile source registry = .ok image)
    (structured : (program.check registry).program.main.isStructured = true)
    {σ : Type} (setup : Setup σ) (machine : Machine σ) (error : RuntimeError) (after : Machine σ)
    (stopped : Run.StopsWith setup image machine error after) : error.code ≠ 13 := by
  obtain ⟨quiet, coded⟩ := compile_inversion compiled parsed
  have wellFormed := parse_well_formed (tokenize_lexed source) parsed
  have accepted := Program.check_accepted wellFormed quiet
  have main := accepted.bodies (.main (program.check registry).program.main) List.mem_cons_self
  have suits := Program.main_suits wellFormed quiet structured
  obtain ⟨fuel, ran⟩ := stopped
  -- Statements that end or go on for ever do so on the machine as well, and a run ends in one way only.
  rcases Block.interpret_cases accepted structured coded with ⟨result, ends⟩ | ⟨fault, faults⟩ | diverges
  · obtain ⟨last, ⟨more, finished⟩, -⟩ := ends.finishes accepted structured coded setup machine
    exact nomatch (Run.program_once ran finished (nomatch ·) (nomatch ·)).1
  · obtain ⟨other, last, ⟨more, again⟩, isFault⟩ := faults.stops accepted structured coded setup machine
    obtain ⟨same, -⟩ := Run.program_once ran again (nomatch ·) (nomatch ·)
    obtain ⟨rounds, failed⟩ := faults
    rw [Except.error.inj same, RuntimeError.code, isFault]
    exact Block.interpret_sound main structured suits rounds Environment.initial_typed _ failed
  · exact nomatch (diverges.goes_on accepted structured coded setup machine).not_ended ran

def sampleCountdown : String := "FOR I% = 2 TO 0 STEP -1\nA$ = A$ + \"x\"\nIF A$ > \"x\" THEN Q = 6 / I%\nNEXT\n"

def Run.stopCode? {σ : Type} (setup : Setup σ) (image : Image) (machine : Machine σ) (fuel : Nat) : Option Nat :=
  match ((program setup image fuel).on machine).1 with
  | .error error => some error.code
  | .ok _ => none

theorem Run.stops_with_code {σ : Type} {setup : Setup σ} {image : Image} {machine : Machine σ} {fuel code : Nat}
    (found : Run.stopCode? setup image machine fuel = some code) :
    ∃ error after, Run.StopsWith setup image machine error after ∧ error.code = code := by
  unfold Run.stopCode? at found
  split at found
  · next error isError =>
    exact ⟨error, _, ⟨fuel, Prod.ext isError rfl⟩, Option.some.inj found⟩
  · cases found

theorem sample_countdown_stops : ∃ image error after,
    compile sampleCountdown .standard = .ok image ∧
      Run.StopsWith (.ofDevices Bench.bare .standard) image (Machine.create Bench.empty) error after ∧
      error.code = 11 ∧ error.code ≠ 13 := by
  obtain ⟨program, parsed, structured, runs⟩ := exists_parsed sampleCountdown
    (fun program => (program.check .standard).program.main.isStructured = true ∧
      (compile sampleCountdown .standard).toOption.any (fun image =>
        Run.stopCode? (.ofDevices Bench.bare .standard) image (Machine.create Bench.empty) 99 == some 11) = true)
    (by decide +kernel)
  cases compiled : compile sampleCountdown .standard with
  | error errors =>
    rw [compiled] at runs
    cases runs
  | ok image =>
    rw [compiled] at runs
    obtain ⟨error, after, stops, isDivision⟩ := Run.stops_with_code (eq_of_beq runs)
    refine ⟨image, error, after, rfl, stops, isDivision, ?_⟩
    exact structured_program_never_mismatches sampleCountdown .standard program image parsed compiled structured
      _ _ error after stops

def Stmt.assigns (ty : Ty) : Stmt → Bool
  | .assign target value => target.ty == ty && value.ty == ty
  | _ => true

def sampleSkipped : String := "GOTO L\nDIM A AS STRING\nL:\nA = \"x\"\n"

/-- Checking has found a text that is assigned to a text, and yet the assignment stops. -/
theorem skipped_declaration_mismatches : ∃ program image error after,
    parse (tokenize sampleSkipped).1 = .ok program ∧ compile sampleSkipped .standard = .ok image ∧
      (program.check .standard).program.main.toList.all (fun item => item.2.assigns .string) = true ∧
      Run.StopsWith (.ofDevices Bench.bare .standard) image (Machine.create Bench.empty) error after ∧
      error.code = 13 := by
  obtain ⟨program, parsed, texts, runs⟩ := exists_parsed sampleSkipped
    (fun program => (program.check .standard).program.main.toList.all (fun item => item.2.assigns .string) = true ∧
      (compile sampleSkipped .standard).toOption.any (fun image =>
        Run.stopCode? (.ofDevices Bench.bare .standard) image (Machine.create Bench.empty) 30 == some 13) = true)
    (by decide +kernel)
  cases compiled : compile sampleSkipped .standard with
  | error errors =>
    rw [compiled] at runs
    cases runs
  | ok image =>
    rw [compiled] at runs
    obtain ⟨error, after, stops, mismatch⟩ := Run.stops_with_code (eq_of_beq runs)
    exact ⟨program, image, error, after, parsed, rfl, texts, stops, mismatch⟩

end BasicLang
