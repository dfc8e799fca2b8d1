import BasicLang.Proofs.Syntax.WellFormed
import BasicLang.Proofs.Typing.Quiet

set_option autoImplicit false

namespace BasicLang

def Ty.memberType? (name : String) : Ty → Option Ty
  | .record _ members => members.type? name
  | .any => some .any
  | _ => none

def UnaryOperator.resultType? (operator : UnaryOperator) (operand : Ty) : Option Ty :=
  if operand = .any then some .any
  else if operand.isNumeric then
    match operator with
    | .negate => some operand
    | .not => some operand.integral
  else none

def Signature.Takes (signature : Signature) (count : Nat) : Prop :=
  signature.required ≤ count ∧ count ≤ signature.arguments.length

mutual

def Expr.Accepted (symbols : SymbolTable) (registry : Registry) : Expr → Prop
  | .literal value info => value.InRange ∧ info.ty = some (Check.literalType value)
  | .variable name info => SourceName name ∧ info.ty.isSome
  | .apply name arguments callee info =>
    SourceName name ∧ info.ty.isSome ∧ Expr.AllAccepted symbols registry arguments ∧
      match callee with
      | .unresolved => False
      | .element => True
      | .function => ∃ entry, symbols.procedure? name = some entry ∧ entry.kind = .function ∧
          entry.params.length = arguments.length
      | .builtin => ∃ builtin, registry.function? name = some builtin ∧
          builtin.signature.Takes arguments.length
  | .member object name info =>
    object.Accepted symbols registry ∧ info.ty.isSome ∧ object.ty.memberType? name = info.ty
  | .binary operator left right info =>
    left.Accepted symbols registry ∧ right.Accepted symbols registry ∧ info.ty.isSome ∧
      operator.resultType? left.ty right.ty = info.ty
  | .unary operator operand info =>
    operand.Accepted symbols registry ∧ info.ty.isSome ∧ operator.resultType? operand.ty = info.ty
  | .grouped inner info => inner.Accepted symbols registry ∧ info.ty = some inner.ty

def Expr.AllAccepted (symbols : SymbolTable) (registry : Registry) : List Expr → Prop
  | [] => True
  | first :: rest => first.Accepted symbols registry ∧ Expr.AllAccepted symbols registry rest

end

def Expr.Stored (symbols : SymbolTable) (registry : Registry) (expr : Expr) : Prop :=
  expr.Accepted symbols registry ∧ expr.isLvalue = true

theorem Expr.all_accepted_iff (symbols : SymbolTable) (registry : Registry) (exprs : List Expr) :
    Expr.AllAccepted symbols registry exprs ↔ ∀ expr ∈ exprs, expr.Accepted symbols registry := by
  induction exprs with
  | nil => simp [Expr.AllAccepted]
  | cons first rest ih => simp [Expr.AllAccepted, ih]

namespace Check

variable {table : SymbolTable}

theorem ensures_define {β : Type} {final : β → Prop} (entry : SymbolEntry) (shared : Bool)
    {next : Unit → Check β} {refuse : SymbolEntry → Check β} (ensures : Ensures table final (next ()))
    (ensuresRefuse : ∀ existing, Ensures table final (refuse existing)) :
    Ensures table final (do
      match (← symbols).define entry shared with
      | .ok after => setSymbols after >>= next
      | .error existing => refuse existing) := by
  intro state
  have unfolded : (do
      match (← symbols).define entry shared with
      | .ok after => setSymbols after >>= next
      | .error existing => refuse existing : Check β).run state =
      (match state.symbols.define entry shared with
        | .ok after => setSymbols after >>= next
        | .error existing => refuse existing : Check β).run state := rfl
  rw [unfolded]
  cases defined : state.symbols.define entry shared with
  | ok after =>
    have rest := ensures { state with symbols := after }
    refine ⟨rest.1, fun quiet agrees => ?_⟩
    exact rest.2 quiet ((SymbolTable.define_agrees defined).trans agrees)
  | error existing => exact ensuresRefuse existing state

theorem ensures_declare (entry : SymbolEntry) (shared : Bool) :
    Ensures table (fun _ => True) (declare entry shared) :=
  ensures_define entry shared (ensures_unit trivial) fun _ =>
    ensures_weaken (ensures_report _ _) fun _ impossible => impossible.elim

theorem ensures_declare_implicit (name : String) (ty : Ty) (locus : Locus) :
    Ensures table (fun _ => True) (declareImplicit name ty locus) :=
  ensures_define _ false (ensures_unit trivial) fun _ => ensures_unit trivial

theorem ensures_variable_type (name : String) (locus : Locus) :
    Ensures table (fun _ => True) (variableType name locus) := by
  refine ensures_seq ensures_symbols fun found => ?_
  split
  · exact ensures_unit fun _ => trivial
  · exact ensures_seq ensures_symbols fun _ =>
      ensures_seq (ensures_declare_implicit _ _ _) fun _ => ensures_unit fun _ _ _ => trivial

def Demand.Mild (table : SymbolTable) (demand : Demand) : Prop :=
  ∀ position ty locus, Ensures table (fun _ => True) (demand position ty locus)

theorem no_demand_mild : Demand.Mild table noDemand := fun _ _ _ => ensures_unit trivial

theorem demand_index_mild : Demand.Mild table demandIndex := fun _ _ _ =>
  ensures_weaken (ensures_report_if _ _ _) fun _ _ => trivial

theorem demand_types_mild (name : String) (expected : List Ty) :
    Demand.Mild table (demandTypes name expected) := by
  intro position ty locus
  unfold demandTypes
  split
  · exact ensures_weaken (ensures_report_if _ _ _) fun _ _ => trivial
  · exact ensures_unit trivial

section Demands

variable {β : Type} {final : β → Prop} {next : Demand → Check β}

theorem ensures_call_demand (name : String) (params : List (String × Ty)) (count : Nat)
    (locus : Locus)
    (ensures : ∀ demand : Demand, demand.Mild table →
      Ensures table (fun result => params.length = count → final result) (next demand)) :
    Ensures table final (callDemand name params count locus >>= next) := by
  unfold callDemand
  split
  · next same =>
    exact ensures_weaken (ensures _ (demand_types_mild _ _)) fun _ found => found same
  · rw [bind_assoc]
    exact ensures_refused _ _ (ensures _ no_demand_mild)

theorem ensures_builtin_demand (builtin : Builtin) (count : Nat) (locus : Locus)
    (ensures : ∀ demand : Demand, demand.Mild table →
      Ensures table (fun result => builtin.signature.Takes count → final result) (next demand)) :
    Ensures table final (builtinDemand builtin count locus >>= next) := by
  unfold builtinDemand
  dsimp only
  split
  · next takes =>
    exact ensures_weaken (ensures _ (demand_types_mild _ _)) fun _ found => found takes
  · rw [bind_assoc]
    exact ensures_refused _ _ (ensures _ no_demand_mild)

def Resolution.Takes (resolved : Resolution) (count : Nat) : Prop :=
  match resolved with
  | .function params _ => params.length = count
  | .builtin called => called.signature.Takes count
  | _ => True

theorem ensures_apply_demand (resolved : Resolution) (symbols : SymbolTable) (name : String)
    (count : Nat) (locus : Locus)
    (ensures : ∀ demand : Demand, demand.Mild table →
      Ensures table (fun result => resolved.Takes count → final result) (next demand)) :
    Ensures table final (applyDemand resolved symbols name count locus >>= next) := by
  cases resolved with
  | array element rank =>
    unfold applyDemand
    have rest := ensures_weaken (ensures _ demand_index_mild) fun _ found => found trivial
    dsimp only
    split
    · rw [bind_assoc]
      exact ensures_refused _ _ rest
    · exact rest
  | function params result => exact ensures_call_demand _ _ _ _ ensures
  | sub => exact ensures_weaken (ensures _ no_demand_mild) fun _ found => found trivial
  | builtin builtin => exact ensures_builtin_demand _ _ _ ensures
  | notAnArray => exact ensures_weaken (ensures _ no_demand_mild) fun _ found => found trivial
  | implicit =>
    unfold applyDemand
    have rest := ensures_weaken (ensures _ demand_index_mild) fun _ found => found trivial
    dsimp only
    split
    · rw [bind_assoc]
      exact ensures_seq (ensures_declare_implicit _ _ _) fun _ =>
        ensures_weaken rest fun _ found _ => found
    · exact rest

end Demands

theorem resolution_function {registry : Registry} {symbols : SymbolTable} {name : String}
    {params : List (String × Ty)} {result : Ty}
    (resolved : resolution registry symbols name = .function params result) :
    ∃ entry, symbols.procedure? name = some entry ∧ entry.kind = .function ∧
      entry.params = params := by
  unfold resolution at resolved
  grind

theorem resolution_builtin {registry : Registry} {symbols : SymbolTable} {name : String}
    {builtin : Builtin} (resolved : resolution registry symbols name = .builtin builtin) :
    registry.function? name = some builtin := by
  unfold resolution at resolved
  grind

theorem ensures_apply_result (registry : Registry) (symbols : SymbolTable) (name : String)
    (count : Nat) (locus : Locus) :
    Ensures table (fun found => symbols.Agrees table →
      (resolution registry symbols name).Takes count →
        match found.1 with
        | .unresolved => False
        | .element => True
        | .function => ∃ entry, table.procedure? name = some entry ∧ entry.kind = .function ∧
            entry.params.length = count
        | .builtin => ∃ builtin, registry.function? name = some builtin ∧
            builtin.signature.Takes count)
      (applyResult (resolution registry symbols name) symbols name count locus) := by
  cases resolved : resolution registry symbols name with
  | array element rank => exact ensures_unit fun _ _ => trivial
  | function params result =>
    refine ensures_unit fun agrees takes => ?_
    obtain ⟨entry, found, isFunction, rfl⟩ := resolution_function resolved
    exact ⟨entry, (agrees.procedure name).symm.trans found, isFunction, takes⟩
  | sub => exact ensures_reporting _ _ _
  | builtin builtin => exact ensures_unit fun _ takes => ⟨builtin, resolution_builtin resolved, takes⟩
  | notAnArray => exact ensures_reporting _ _ _
  | implicit => exact ensures_unit fun _ _ => trivial

theorem ensures_unary_type (operator : UnaryOperator) (operand : Ty) (locus : Locus) :
    Ensures table (fun ty => operator.resultType? operand = some ty)
      (unaryType operator operand locus) := by
  unfold unaryType
  split
  · next isAny => exact ensures_unit (by simp [UnaryOperator.resultType?, isAny])
  · next notAny =>
    split
    · exact ensures_reporting _ _ _
    · next numeric =>
      cases operator <;> exact ensures_unit (by simp_all [UnaryOperator.resultType?])

theorem ensures_binary_type (operator : BinaryOperator) (left right : Ty) (locus : Locus) :
    Ensures table (fun ty => operator.resultType? left right = some ty)
      (binaryType operator left right locus) := by
  unfold binaryType
  split
  · next found => exact ensures_unit found
  · exact ensures_reporting _ _ _

theorem ensures_member_type (object : Ty) (member : String) (locus : Locus) :
    Ensures table (fun ty => object.memberType? member = some ty)
      (memberType object member locus) := by
  unfold memberType
  split
  · split
    · next found => exact ensures_unit found
    · exact ensures_reporting _ _ _
  · exact ensures_unit rfl
  · exact ensures_reporting _ _ _

mutual

theorem ensures_expr (context : CheckContext) (expr : Expr) (wellFormed : expr.WellFormed) :
    Ensures table (Expr.Accepted table context.registry) (Check.expr context expr) := by
  cases expr with
  | literal value info => exact ensures_unit ⟨wellFormed, rfl⟩
  | «variable» name info =>
    refine ensures_seq ensures_symbols fun symbols => ?_
    split
    · refine ensures_apply_demand _ _ _ _ _ fun _ _ =>
        ensures_seq (ensures_apply_result _ _ _ _ _) fun found => ensures_unit ?_
      exact fun refers takes agrees => ⟨wellFormed, rfl, trivial, refers agrees takes⟩
    · exact ensures_seq (ensures_variable_type _ _) fun ty => ensures_unit fun _ _ =>
        ⟨wellFormed, rfl⟩
  | apply name arguments callee info =>
    obtain ⟨named, argumentsFormed⟩ := wellFormed
    refine ensures_seq ensures_symbols fun symbols => ?_
    refine ensures_apply_demand _ _ _ _ _ fun demand mild =>
      ensures_seq (ensures_checked_each context demand mild 0 arguments argumentsFormed) fun checked =>
        ensures_seq (ensures_apply_result _ _ _ _ _) fun found => ensures_unit ?_
    rintro refers ⟨sameLength, accepted⟩ takes agrees
    refine ⟨named, rfl, accepted, ?_⟩
    rw [sameLength]
    exact refers agrees takes
  | member object name info =>
    refine ensures_seq (ensures_expr context object wellFormed) fun checked =>
      ensures_seq (ensures_member_type _ _ _) fun ty => ensures_unit fun typed accepted => ?_
    exact ⟨accepted, rfl, typed⟩
  | binary operator left right info =>
    refine ensures_seq (ensures_expr context left wellFormed.1) fun checkedLeft =>
      ensures_seq (ensures_expr context right wellFormed.2) fun checkedRight =>
        ensures_seq (ensures_binary_type _ _ _ _) fun ty => ensures_unit ?_
    exact fun typed acceptedRight acceptedLeft => ⟨acceptedLeft, acceptedRight, rfl, typed⟩
  | unary operator operand info =>
    refine ensures_seq (ensures_expr context operand wellFormed) fun checked =>
      ensures_seq (ensures_unary_type _ _ _) fun ty => ensures_unit fun typed accepted => ?_
    exact ⟨accepted, rfl, typed⟩
  | grouped inner info =>
    exact ensures_seq (ensures_expr context inner wellFormed) fun checked =>
      ensures_unit fun accepted => ⟨accepted, rfl⟩

theorem ensures_checked_each (context : CheckContext) (demand : Demand) (mild : demand.Mild table)
    (position : Nat) (exprs : List Expr) (wellFormed : Expr.AllWellFormed exprs) :
    Ensures table (fun found => found.length = exprs.length ∧
      Expr.AllAccepted table context.registry found) (each context demand position exprs) := by
  cases exprs with
  | nil => exact ensures_unit ⟨rfl, trivial⟩
  | cons first rest =>
    refine ensures_seq (ensures_expr context first wellFormed.1) fun checked =>
      ensures_seq (mild _ _ _) fun _ =>
        ensures_seq (ensures_checked_each context demand mild _ rest wellFormed.2) fun others =>
          ensures_unit ?_
    exact fun othersAccepted _ accepted =>
      ⟨by simp [othersAccepted.1], accepted, othersAccepted.2⟩

end

end Check

end BasicLang
