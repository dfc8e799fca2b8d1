import BasicLang.Code.Expr
import BasicLang.Machine.Fault
import BasicLang.Proofs.Typing.Bound
import BasicLang.Proofs.Values

set_option autoImplicit false

namespace BasicLang

structure Environment where
  value? : String → Option Value
  implicitType : String → Ty

namespace Environment

def set (environment : Environment) (name : String) (value : Value) : Environment :=
  { environment with
    value? := fun other => if other = name then some value else environment.value? other }

def fetch (environment : Environment) (name : String) (fresh : Value) : Value × Environment :=
  match environment.value? name with
  | some value => (value, environment)
  | none => (fresh, environment.set name fresh)

end Environment

namespace Value

def subscript (value : Value) : Except Fault Int :=
  match value.toInt? with
  | some number => .ok number
  | none => .error (.expectedNumber value.typeName)

def expectArray (value : Value) (name : String) : Except Fault Unit :=
  if value.ty.isArray then .ok () else .error (.notAnArrayVariable name value.typeName)

def element (array : Value) (indices : List Int) : Except Fault Value :=
  match array with
  | .array _ bounds slots =>
    match (⟨bounds, slots.toArray⟩ : Grid Value).get indices with
    | .ok slot => .ok slot
    | .error fault => .error (.value (.ofGrid fault))
  | other => .error (.notAnArray other.typeName)

def member (record : Value) (name : String) : Except Fault Value :=
  match record with
  | .record title members fields =>
    match (members.index? name).bind (fields[·]?) with
    | some field => .ok field
    | none => .error (.noMember title name)
  | other => .error (.notARecord other.typeName)

end Value

def Fault.ofArithmetic (result : Except ArithmeticFault Value) : Except Fault Value :=
  match result with
  | .ok found => .ok found
  | .error fault => .error (.arithmetic fault)

mutual

/-- The value of an expression, and the variables with those that it has created. Calls are not
evaluated. -/
def Expr.evaluate (environment : Environment) : Expr → Except Fault (Value × Environment)
  | .literal constant _ => .ok (constant.value, environment)
  | .variable name _ => .ok (environment.fetch name (environment.implicitType name).default)
  | .apply name arguments callee info =>
    if callee = .element then do
      let (array, environment) :=
        environment.fetch name (Ty.array (info.ty.getD .any) arguments.length).default
      array.expectArray name
      let (indices, environment) ← Expr.evaluateAll environment arguments
      return (← array.element (← indices.mapM Value.subscript), environment)
    else throw (.unknownBuiltin name)
  | .member object name _ => do
    let (record, environment) ← object.evaluate environment
    return (← record.member name, environment)
  | .binary operator left right _ => do
    let (leftValue, environment) ← left.evaluate environment
    let (rightValue, environment) ← right.evaluate environment
    return (← Fault.ofArithmetic (operator.apply leftValue rightValue), environment)
  | .unary operator operand _ => do
    let (value, environment) ← operand.evaluate environment
    return (← Fault.ofArithmetic (operator.apply value), environment)
  | .grouped inner _ => inner.evaluate environment

def Expr.evaluateAll (environment : Environment) : List Expr → Except Fault (List Value × Environment)
  | [] => .ok ([], environment)
  | first :: rest => do
    let (value, environment) ← first.evaluate environment
    let (values, environment) ← Expr.evaluateAll environment rest
    return (value :: values, environment)

end

mutual

/-- Literals, variables, elements, members, operators and grouping, where no part is an array or of
the type `ANY` or `NULL`. -/
def Expr.Static : Expr → Prop
  | .literal _ _ => True
  | .variable _ info => (info.ty.getD .any).isDefinite = true
  | .apply _ arguments callee info =>
    callee = .element ∧ arguments ≠ [] ∧ Expr.AllStatic arguments ∧ (info.ty.getD .any).isDefinite = true
  | .member object _ info => object.Static ∧ (info.ty.getD .any).isDefinite = true
  | .binary _ left right info => left.Static ∧ right.Static ∧ (info.ty.getD .any).isDefinite = true
  | .unary _ operand info => operand.Static ∧ (info.ty.getD .any).isDefinite = true
  | .grouped inner info => inner.Static ∧ (info.ty.getD .any).isDefinite = true

def Expr.AllStatic : List Expr → Prop
  | [] => True
  | first :: rest => first.Static ∧ Expr.AllStatic rest

end

mutual

instance Expr.decideStatic : (expr : Expr) → Decidable expr.Static
  | .literal _ _ => .isTrue trivial
  | .variable _ info => inferInstanceAs (Decidable ((info.ty.getD .any).isDefinite = true))
  | .apply _ arguments callee info =>
    have := Expr.decideAllStatic arguments
    inferInstanceAs (Decidable (callee = .element ∧ arguments ≠ [] ∧ Expr.AllStatic arguments ∧
      (info.ty.getD .any).isDefinite = true))
  | .member object _ info =>
    have := Expr.decideStatic object
    inferInstanceAs (Decidable (object.Static ∧ (info.ty.getD .any).isDefinite = true))
  | .binary _ left right info =>
    have := Expr.decideStatic left
    have := Expr.decideStatic right
    inferInstanceAs (Decidable (left.Static ∧ right.Static ∧ (info.ty.getD .any).isDefinite = true))
  | .unary _ operand info =>
    have := Expr.decideStatic operand
    inferInstanceAs (Decidable (operand.Static ∧ (info.ty.getD .any).isDefinite = true))
  | .grouped inner info =>
    have := Expr.decideStatic inner
    inferInstanceAs (Decidable (inner.Static ∧ (info.ty.getD .any).isDefinite = true))

instance Expr.decideAllStatic : (exprs : List Expr) → Decidable (Expr.AllStatic exprs)
  | [] => .isTrue trivial
  | first :: rest =>
    have := Expr.decideStatic first
    have := Expr.decideAllStatic rest
    inferInstanceAs (Decidable (first.Static ∧ Expr.AllStatic rest))

end

/-- Every declared variable holds a value of its type, or will be created with one. -/
def Environment.Holds (environment : Environment) (symbols : SymbolTable) : Prop :=
  ∀ name entry, symbols.lookup? name = some entry →
    match environment.value? name with
    | some value => entry.ty.Holds value
    | none => entry.ty.isArray = true ∨ environment.implicitType name = entry.ty

theorem Literal.value_typed {literal : Literal} (inRange : literal.InRange) :
    literal.value.ty = Check.literalType literal := by
  cases literal with
  | integer number =>
    have fits : -32768 ≤ number ∧ number ≤ 32767 := inRange
    rw [Literal.value, if_pos fits]
    rfl
  | long number =>
    have fits : -2147483648 ≤ number ∧ number ≤ 2147483647 := inRange
    rw [Literal.value, Value.ofWide, if_pos fits]
    rfl
  | _ => rfl

theorem Literal.type_holds {literal : Literal} (inRange : literal.InRange) :
    (Check.literalType literal).Holds literal.value := by
  have typed := Literal.value_typed inRange
  cases literal <;> exact typed

theorem Fault.seq_ok {α β : Type} {first : Except Fault α} {next : α → Except Fault β} {result : β}
    (ran : first >>= next = .ok result) : ∃ value, first = .ok value ∧ next value = .ok result := by
  cases first with
  | error fault => cases ran
  | ok value => exact ⟨value, rfl, ran⟩

theorem Expr.static_definite {symbols : SymbolTable} {registry : Registry} {expr : Expr}
    (static : expr.Static) (accepted : expr.Accepted symbols registry) : expr.ty.isDefinite = true := by
  cases expr with
  | literal literal info =>
    rw [Expr.ty, Expr.info, accepted.2]
    cases literal <;> rfl
  | «variable» name info => exact static
  | apply name arguments callee info => exact static.2.2.2
  | member object name info => exact static.2
  | binary operator left right info => exact static.2.2
  | unary operator operand info => exact static.2
  | grouped inner info => exact static.2

namespace Environment

variable {environment : Environment} {symbols : SymbolTable}

theorem fetch_typed {name : String} {entry : SymbolEntry} {fresh : Value}
    (holds : environment.Holds symbols) (declared : symbols.lookup? name = some entry)
    (suits : entry.ty.Holds fresh) :
    entry.ty.Holds (environment.fetch name fresh).1 ∧
      (environment.fetch name fresh).2.Holds symbols := by
  have here := holds name entry declared
  unfold fetch
  cases found : environment.value? name with
  | some value =>
    rw [found] at here
    exact ⟨here, holds⟩
  | none =>
    refine ⟨suits, fun other otherEntry otherDeclared => ?_⟩
    by_cases same : other = name
    · subst same
      rw [declared] at otherDeclared
      simpa [set, ← Option.some.inj otherDeclared] using suits
    · simpa [set, same] using holds other otherEntry otherDeclared

theorem holds_of_none (none : ∀ name, environment.value? name = none)
    (suits : ∀ declaration ∈ symbols.locals.headD [] ++ symbols.shared,
      declaration.2.ty.isArray = true ∨ environment.implicitType declaration.1 = declaration.2.ty) :
    environment.Holds symbols := by
  intro name entry found
  rw [none]
  refine suits (name, entry) ?_
  unfold SymbolTable.lookup? at found
  cases scopes : symbols.locals with
  | nil =>
    rw [scopes] at found
    exact List.mem_append_right _ (Table.mem_of_get found)
  | cons scope outer =>
    simp only [scopes, List.head?_cons, Option.bind_some, Option.orElse_eq_orElse, Option.orElse_eq_or,
      Option.or_eq_some_iff] at found
    rcases found with isLocal | ⟨-, isShared⟩
    · exact List.mem_append_left _ (Table.mem_of_get isLocal)
    · exact List.mem_append_right _ (Table.mem_of_get isShared)

theorem variable_typed {name : String} {entry : SymbolEntry} (holds : environment.Holds symbols)
    (declared : symbols.lookup? name = some entry) (scalar : entry.ty.isArray = false) :
    entry.ty.Holds (environment.fetch name (environment.implicitType name).default).1 ∧
      (environment.fetch name (environment.implicitType name).default).2.Holds symbols := by
  have here := holds name entry declared
  cases found : environment.value? name with
  | some value =>
    rw [found] at here
    simp only [fetch, found]
    exact ⟨here, holds⟩
  | none =>
    rw [found] at here
    have typed : environment.implicitType name = entry.ty :=
      here.resolve_left fun isArray => by rw [scalar] at isArray; cases isArray
    rw [typed]
    exact fetch_typed holds declared entry.ty.default_holds

end Environment

theorem Grid.get_eq {α : Type} (grid : Grid α) (indices : List Int) :
    grid.get indices =
      match Grid.offset grid.bounds indices with
      | .error fault => .error fault
      | .ok place =>
        match grid.slots[place]? with
        | some slot => .ok slot
        | none => .error .subscript := by
  unfold Grid.get
  cases Grid.offset grid.bounds indices with
  | error fault => rfl
  | ok place => rfl

theorem Value.element_typed {array slot : Value} {element : Ty} {rank : Nat} {indices : List Int}
    (holds : (Ty.array element rank).Holds array) (found : array.element indices = .ok slot) :
    element.Holds slot := by
  cases array with
  | array held bounds slots =>
    obtain ⟨rfl, -, each⟩ := holds
    rw [Value.element, Grid.get_eq] at found
    cases located : Grid.offset bounds indices with
    | error fault =>
      simp only [located] at found
      cases found
    | ok place =>
      simp only [located] at found
      cases stored : slots.toArray[place]? with
      | none =>
        simp only [stored] at found
        cases found
      | some value =>
        simp only [stored] at found
        rw [← Except.ok.inj found]
        exact each value (List.mem_of_getElem? (by simpa using stored))
  | _ => exact holds.elim

theorem Value.member_typed {record : Value} {title name : String} {members : Members} {ty : Ty}
    (holds : (Ty.record title members).Holds record) (typed : members.type? name = some ty) :
    ∃ field, record.member name = .ok field ∧ ty.Holds field := by
  cases record with
  | record other held fields =>
    obtain ⟨rfl, rfl, hold⟩ := holds
    obtain ⟨field, found, fieldHolds⟩ := Members.hold_member hold typed
    exact ⟨field, by rw [Value.member, found], fieldHolds⟩
  | _ => exact holds.elim

theorem ExprInfo.typed {info : ExprInfo} (known : info.ty.isSome = true) :
    info.ty = some (info.ty.getD .any) := by
  obtain ⟨ty, found⟩ := Option.isSome_iff_exists.mp known
  rw [found]
  rfl

theorem Ty.record_of_member {object ty : Ty} {name : String} (definite : object.isDefinite = true)
    (typed : object.memberType? name = some ty) :
    ∃ title members, object = .record title members ∧ members.type? name = some ty := by
  cases object with
  | record title members => exact ⟨title, members, rfl, typed⟩
  | any => cases definite
  | _ => cases typed

theorem Expr.evaluate_all_length {exprs : List Expr} {environment after : Environment}
    {values : List Value} (evaluated : Expr.evaluateAll environment exprs = .ok (values, after)) :
    values.length = exprs.length := by
  induction exprs generalizing environment values with
  | nil =>
    rw [Expr.evaluateAll] at evaluated
    cases evaluated
    rfl
  | cons first rest ih =>
    rw [Expr.evaluateAll] at evaluated
    obtain ⟨⟨value, between⟩, _, further⟩ := Fault.seq_ok evaluated
    obtain ⟨⟨others, last⟩, evaluatedRest, finished⟩ := Fault.seq_ok further
    cases finished
    rw [List.length_cons, List.length_cons, ih evaluatedRest]

section Typed

variable {symbols table : SymbolTable} {registry : Registry}

theorem Value.unary_typed {operator : UnaryOperator} {value result : Value} {operand ty : Ty}
    (definite : operand.isDefinite = true) (holds : operand.Holds value)
    (typed : operator.resultType? operand = some ty)
    (applied : Fault.ofArithmetic (operator.apply value) = .ok result) : ty.Holds result := by
  have numeric := UnaryOperator.result_numeric (Ty.definite_static definite) typed
  rw [← Ty.holds_ty definite holds] at typed
  obtain ⟨found, gives, isTyped⟩ := UnaryOperator.apply_typed typed
  rw [gives] at applied
  rw [← Except.ok.inj applied]
  exact Ty.scalar_holds (.inl numeric) isTyped

theorem Value.binary_typed {operator : BinaryOperator} {left right result : Value} {leftTy rightTy ty : Ty}
    (definite : leftTy.isDefinite = true) (otherDefinite : rightTy.isDefinite = true)
    (holds : leftTy.Holds left) (otherHolds : rightTy.Holds right)
    (typed : operator.resultType? leftTy rightTy = some ty)
    (applied : Fault.ofArithmetic (operator.apply left right) = .ok result) : ty.Holds result := by
  have scalar := BinaryOperator.result_scalar (Ty.definite_static definite)
    (Ty.definite_static otherDefinite) typed
  rw [← Ty.holds_ty definite holds, ← Ty.holds_ty otherDefinite otherHolds] at typed
  cases gives : operator.apply left right with
  | error fault =>
    rw [gives] at applied
    cases applied
  | ok found =>
    rw [gives] at applied
    rw [← Except.ok.inj applied]
    exact Ty.scalar_holds scalar (BinaryOperator.apply_typed (Ty.not_null definite holds)
      (Ty.not_null otherDefinite otherHolds) typed gives)

mutual

theorem Expr.evaluate_typed (expr : Expr) (static : expr.Static)
    (accepted : expr.Accepted table registry) (bound : expr.Bound symbols) (environment : Environment)
    (holds : environment.Holds symbols) {value : Value} {after : Environment}
    (evaluated : expr.evaluate environment = .ok (value, after)) :
    expr.ty.Holds value ∧ after.Holds symbols := by
  cases expr with
  | literal literal info =>
    rw [Expr.evaluate] at evaluated
    cases evaluated
    refine ⟨?_, holds⟩
    rw [Expr.ty, Expr.info, accepted.2]
    exact Literal.type_holds accepted.1
  | «variable» name info =>
    obtain ⟨entry, declared, typed⟩ := bound
    have same : info.ty.getD .any = entry.ty := by rw [typed]; rfl
    have scalar : entry.ty.isArray = false := by
      have definite : (info.ty.getD .any).isDefinite = true := static
      rw [same] at definite
      cases isArray : entry.ty <;> rw [isArray] at definite <;> first | rfl | cases definite
    rw [Expr.evaluate] at evaluated
    have found := Environment.variable_typed holds declared scalar
    rw [Except.ok.inj evaluated] at found
    rw [Expr.ty, Expr.info, same]
    exact found
  | apply name arguments callee info =>
    obtain ⟨rfl, some, argumentsStatic, -⟩ := static
    obtain ⟨argumentsBound, declares⟩ := bound
    obtain ⟨-, entry, rank, declared, typed, suits⟩ := declares rfl some
    obtain ⟨recalled, stillHolds⟩ := Environment.fetch_typed holds declared
      (typed ▸ Ty.array_default_holds suits)
    rw [typed] at recalled
    simp only [Expr.evaluate, if_true] at evaluated
    obtain ⟨-, -, further⟩ := Fault.seq_ok evaluated
    obtain ⟨⟨indices, between⟩, evaluatedAll, last⟩ := Fault.seq_ok further
    obtain ⟨places, -, found⟩ := Fault.seq_ok last
    obtain ⟨slot, located, finished⟩ := Fault.seq_ok found
    cases finished
    refine ⟨Value.element_typed recalled located, ?_⟩
    exact (Expr.evaluate_all_typed arguments argumentsStatic accepted.2.2.1 argumentsBound _ stillHolds
      evaluatedAll).2
  | member object name info =>
    rw [Expr.evaluate] at evaluated
    obtain ⟨⟨record, between⟩, evaluatedObject, further⟩ := Fault.seq_ok evaluated
    obtain ⟨field, found, finished⟩ := Fault.seq_ok further
    cases finished
    obtain ⟨recordHolds, stillHolds⟩ :=
      Expr.evaluate_typed object static.1 accepted.1 bound environment holds evaluatedObject
    obtain ⟨title, members, isRecord, typed⟩ := Ty.record_of_member
      (Expr.static_definite static.1 accepted.1) (accepted.2.2.trans (ExprInfo.typed accepted.2.1))
    rw [isRecord] at recordHolds
    obtain ⟨expected, isField, fieldHolds⟩ := Value.member_typed recordHolds typed
    rw [found] at isField
    rw [Except.ok.inj isField]
    exact ⟨fieldHolds, stillHolds⟩
  | binary operator left right info =>
    rw [Expr.evaluate] at evaluated
    obtain ⟨⟨leftValue, between⟩, evaluatedLeft, further⟩ := Fault.seq_ok evaluated
    obtain ⟨⟨rightValue, last⟩, evaluatedRight, applying⟩ := Fault.seq_ok further
    obtain ⟨result, applied, finished⟩ := Fault.seq_ok applying
    cases finished
    obtain ⟨leftHolds, holdsBetween⟩ :=
      Expr.evaluate_typed left static.1 accepted.1 bound.1 environment holds evaluatedLeft
    obtain ⟨rightHolds, holdsLast⟩ :=
      Expr.evaluate_typed right static.2.1 accepted.2.1 bound.2 between holdsBetween evaluatedRight
    refine ⟨?_, holdsLast⟩
    exact Value.binary_typed (Expr.static_definite static.1 accepted.1)
      (Expr.static_definite static.2.1 accepted.2.1) leftHolds rightHolds
      (accepted.2.2.2.trans (ExprInfo.typed accepted.2.2.1)) applied
  | unary operator operand info =>
    rw [Expr.evaluate] at evaluated
    obtain ⟨⟨operandValue, between⟩, evaluatedOperand, applying⟩ := Fault.seq_ok evaluated
    obtain ⟨result, applied, finished⟩ := Fault.seq_ok applying
    cases finished
    obtain ⟨operandHolds, stillHolds⟩ :=
      Expr.evaluate_typed operand static.1 accepted.1 bound environment holds evaluatedOperand
    refine ⟨?_, stillHolds⟩
    exact Value.unary_typed (Expr.static_definite static.1 accepted.1) operandHolds
      (accepted.2.2.trans (ExprInfo.typed accepted.2.1)) applied
  | grouped inner info =>
    rw [Expr.evaluate] at evaluated
    have found := Expr.evaluate_typed inner static.1 accepted.1 bound environment holds evaluated
    rw [Expr.ty, Expr.info, accepted.2]
    exact found

theorem Expr.evaluate_all_typed (exprs : List Expr) (static : Expr.AllStatic exprs)
    (accepted : Expr.AllAccepted table registry exprs) (bound : Expr.AllBound symbols exprs)
    (environment : Environment) (holds : environment.Holds symbols) {values : List Value}
    {after : Environment} (evaluated : Expr.evaluateAll environment exprs = .ok (values, after)) :
    (∀ value ∈ values, ∃ expr ∈ exprs, expr.ty.Holds value) ∧ after.Holds symbols := by
  cases exprs with
  | nil =>
    rw [Expr.evaluateAll] at evaluated
    cases evaluated
    exact ⟨fun _ inside => (nomatch inside), holds⟩
  | cons first rest =>
    rw [Expr.evaluateAll] at evaluated
    obtain ⟨⟨value, between⟩, evaluatedFirst, further⟩ := Fault.seq_ok evaluated
    obtain ⟨⟨others, last⟩, evaluatedRest, finished⟩ := Fault.seq_ok further
    cases finished
    obtain ⟨valueHolds, holdsBetween⟩ :=
      Expr.evaluate_typed first static.1 accepted.1 bound.1 environment holds evaluatedFirst
    obtain ⟨othersHold, holdsAfter⟩ :=
      Expr.evaluate_all_typed rest static.2 accepted.2 bound.2 between holdsBetween evaluatedRest
    refine ⟨List.forall_mem_cons.mpr ⟨⟨first, List.mem_cons_self, valueHolds⟩, fun other inside => ?_⟩, holdsAfter⟩
    obtain ⟨expr, isExpr, otherHolds⟩ := othersHold other inside
    exact ⟨expr, List.mem_cons_of_mem _ isExpr, otherHolds⟩

end

end Typed

end BasicLang
