import BasicLang.Proofs.Typing.AcceptedStmt
import BasicLang.Proofs.WholeConstants

set_option autoImplicit false

namespace BasicLang

def Dimension.lowest? (constants : String → Option Int) : Option Expr → Option Int
  | some lower => lower.whole? constants
  | none => some 0

def Dimension.whole? (constants : String → Option Int) (dim : Dimension) : Option Bounds := do
  return ⟨← Dimension.lowest? constants dim.lower, ← dim.upper.whole? constants⟩

theorem Dimension.whole_cons {constants : String → Option Int} {dim : Dimension} {rest : List Dimension} {bounds : List Bounds}
    (isWhole : (dim :: rest).mapM (Dimension.whole? constants) = some bounds) : ∃ found others,
      dim.whole? constants = some found ∧ rest.mapM (Dimension.whole? constants) = some others ∧ bounds = found :: others := by
  rw [List.mapM_cons] at isWhole
  obtain ⟨found, foundWhole, further⟩ := Option.bind_eq_some_iff.mp isWhole
  obtain ⟨others, otherWhole, same⟩ := Option.bind_eq_some_iff.mp further
  exact ⟨found, others, foundWhole, otherWhole, (Option.some.inj same).symm⟩

def Bounds.IsReversed (bounds : Bounds) : Prop := bounds.upper < bounds.lower

instance (bounds : Bounds) : Decidable bounds.IsReversed := inferInstanceAs (Decidable (_ < _))

def SymbolTable.Declares (table : SymbolTable) (constants : String → Option Int) : Prop :=
  ∀ name number, constants name = some number → (table.lookup? name).isSome = true

theorem Environment.Knows.declares {environment : Environment} {table : SymbolTable} {constants : String → Option Int}
    (known : environment.Knows table constants) : table.Declares constants := by
  intro name number isConstant
  obtain ⟨entry, _, declared, -⟩ := known name number isConstant
  exact declared ▸ rfl

section Operands

variable {constants : String → Option Int}

theorem Expr.operands_whole {operator : BinaryOperator} {left right : Expr} {info : ExprInfo}
    (known : ((Expr.binary operator left right info).outermost? constants).isSome = true) :
    (left.whole? constants).isSome = true ∧ (right.whole? constants).isSome = true := by
  obtain ⟨number, isNumber⟩ := Option.isSome_iff_exists.mp known
  rw [Expr.outermost?] at isNumber
  obtain ⟨x, leftWhole, further⟩ := Option.bind_eq_some_iff.mp isNumber
  obtain ⟨y, rightWhole, -⟩ := Option.bind_eq_some_iff.mp further
  exact ⟨leftWhole ▸ rfl, rightWhole ▸ rfl⟩

theorem Expr.operand_whole {operator : UnaryOperator} {operand : Expr} {info : ExprInfo}
    (known : ((Expr.unary operator operand info).outermost? constants).isSome = true) :
      (operand.whole? constants).isSome = true := by
  cases operator with
  | not => cases known
  | negate =>
    obtain ⟨number, isNumber⟩ := Option.isSome_iff_exists.mp known
    rw [Expr.outermost?] at isNumber
    obtain ⟨x, operandWhole, -⟩ := Option.bind_eq_some_iff.mp isNumber
    exact operandWhole ▸ rfl

theorem Expr.outermost_of_whole {expr : Expr} (known : (expr.whole? constants).isSome = true) :
    (expr.outermost? constants).isSome = true := by
  obtain ⟨number, isWhole⟩ := Option.isSome_iff_exists.mp known
  cases expr with
  | binary operator left right info =>
    rw [Expr.whole?] at isWhole
    obtain ⟨x, leftWhole, further⟩ := Option.bind_eq_some_iff.mp isWhole
    obtain ⟨y, rightWhole, applying⟩ := Option.bind_eq_some_iff.mp further
    obtain ⟨result, gives, -⟩ := Option.bind_eq_some_iff.mp applying
    rw [Expr.outermost?, leftWhole, rightWhole]
    exact congrArg Option.isSome gives
  | unary operator operand info =>
    cases operator with
    | not => cases known
    | negate =>
      rw [Expr.whole?] at isWhole
      obtain ⟨x, operandWhole, -⟩ := Option.bind_eq_some_iff.mp isWhole
      rw [Expr.outermost?, operandWhole]
      rfl
  | _ => exact known

end Operands

structure Expr.Checked (expr : Expr) (table : SymbolTable) (registry : Registry) : Prop where
  accepted : expr.Accepted table registry
  bound : expr.Bound table

theorem Expr.Checked.folded {expr : Expr} {table : SymbolTable} {registry : Registry} {environment : Environment}
    {constants : String → Option Int} {number : Int} (checked : expr.Checked table registry)
    (known : environment.Knows table constants) (isWhole : expr.whole? constants = some number) :
    (∃ folded, Check.fold table expr = some folded ∧ Double.IsWhole folded number) ∧ expr.ty.InRange number := by
  obtain ⟨folds, inRange⟩ := Expr.folds_of_whole known expr checked.accepted checked.bound isWhole
  exact ⟨folds.whole inRange, inRange⟩

structure Dimension.Checked (dim : Dimension) (table : SymbolTable) (registry : Registry) : Prop where
  lower : ∀ lower ∈ dim.lower, lower.Checked table registry
  upper : dim.upper.Checked table registry

theorem SymbolTable.lookup_defined {table after : SymbolTable} {entry : SymbolEntry} {shared : Bool}
    (absent : table.lookup? entry.name = none) (defined : table.define entry shared = .ok after) (name : String) :
    after.lookup? name = if name = entry.name then some entry else table.lookup? name := by
  unfold SymbolTable.lookup? SymbolTable.define at *
  cases scopes : table.locals with
  | nil =>
    simp only [scopes, List.head?_nil, Option.bind_none, Option.orElse_eq_orElse, Option.orElse_eq_or, Option.none_or]
      at absent defined ⊢
    rw [absent] at defined
    cases defined
    simp [Table.get_set]
  | cons scope outer =>
    simp only [scopes, List.head?_cons, Option.bind_some, Option.orElse_eq_orElse, Option.orElse_eq_or,
      Option.or_eq_none_iff] at absent defined ⊢
    rw [absent.1, absent.2] at defined
    cases shared with
    | true =>
      cases defined
      simp only [List.head?_cons, Option.bind_some, Table.get_set]
      split
      · next same => rw [same, absent.1, Option.none_or]
      · rfl
    | false =>
      cases defined
      simp only [List.head?_cons, Option.bind_some, Table.get_set]
      split <;> rfl

namespace Check

variable {α β : Type}

theorem Follows.of_run {relation : SymbolTable → α → SymbolTable → Prop} {check : Check α} (follows : Follows relation check)
    {before after : CheckState} {result : α} (ran : check.run before = (result, after))
    (quiet : after.diagnostics = before.diagnostics) : relation before.symbols result after.symbols := by
  have found := (follows before).2
  rw [ran] at found
  exact found quiet

def Still (check : Check α) (table : SymbolTable) (result : α) : Prop :=
  ∀ diagnostics, check.run ⟨table, diagnostics⟩ = (result, ⟨table, diagnostics⟩)

theorem still_unit (table : SymbolTable) (result : α) : Still (pure result) table result := fun _ => rfl

theorem still_symbols (table : SymbolTable) : Still symbols table table := fun _ => rfl

theorem run_seq {first : Check α} {next : α → Check β} {before between : CheckState} {value : α}
    (ran : first.run before = (value, between)) : (first >>= next).run before = (next value).run between := by
  rw [StateT.run_bind, ran]
  rfl

theorem still_seq {first : Check α} {next : α → Check β} {table : SymbolTable} {value : α} {result : β}
    (still : Still first table value) (stillNext : Still (next value) table result) : Still (first >>= next) table result := by
  intro diagnostics
  rw [run_seq (still diagnostics)]
  exact stillNext diagnostics

def Settles (known : SymbolTable → α → Prop) (check : Check α) : Prop :=
  Follows (fun before result after => known before result → after = before ∧ Still check before result) check

theorem settles_unit {known : SymbolTable → α → Prop} (result : α) : Settles known (pure result) := by
  refine follows_weaken (follows_unit result) ?_
  rintro before found after ⟨rfl, rfl⟩ -
  exact ⟨rfl, still_unit _ _⟩

theorem settles_binary_type (operator : BinaryOperator) (left right : Ty) (locus : Locus) :
    Settles (fun _ _ => True) (binaryType operator left right locus) := by
  unfold binaryType
  split
  · exact settles_unit _
  · exact follows_weaken (follows_seq (@follows_report (fun _ _ _ => False) _ _) fun _ => follows_unit _)
      fun _ _ _ found => by simp at found

theorem settles_unary_type (operator : UnaryOperator) (operand : Ty) (locus : Locus) :
    Settles (fun _ _ => True) (unaryType operator operand locus) := by
  unfold unaryType
  split
  · exact settles_unit _
  · split
    · exact follows_weaken (follows_seq (@follows_report (fun _ _ _ => False) _ _) fun _ => follows_unit _)
        fun _ _ _ found => by simp at found
    · split <;> exact settles_unit _

theorem settles_expr (context : CheckContext) (constants : String → Option Int) (source : Expr) :
    Settles (fun table result => table.Declares constants ∧ (result.outermost? constants).isSome = true)
      (Check.expr context source) := by
  cases source with
  | literal literal info => exact settles_unit _
  | «variable» name info =>
    have unfolded (state : CheckState) : (Check.expr context (.variable name info)).run state =
        (if isCall context.registry state.symbols name then do
          let resolved := resolution context.registry state.symbols name
          let _ ← applyDemand resolved state.symbols name 0 info.locus
          let found ← applyResult resolved state.symbols name 0 info.locus
          return .apply name [] found.1 ⟨info.locus, some found.2⟩
        else do
          let ty ← variableType name info.locus
          return .variable name ⟨info.locus, some ty⟩ : Check Expr).run state := rfl
    refine fun state => ⟨(@binds_expr .empty context _ state).1, fun _ => ?_⟩
    rw [unfolded]
    split
    · rintro ⟨-, called⟩
      cases called
    · next notCalled =>
      rintro ⟨declares, isConstant⟩
      obtain ⟨number, isConstant⟩ := Option.isSome_iff_exists.mp isConstant
      obtain ⟨entry, declared⟩ := Option.isSome_iff_exists.mp (declares name number isConstant)
      have typed : Still (variableType name info.locus) state.symbols entry.ty := by
        intro diagnostics
        rw [variableType, run_seq (still_symbols state.symbols diagnostics), declared]
        rfl
      have still : Still (variableType name info.locus >>= fun ty => pure (Expr.variable name ⟨info.locus, some ty⟩))
          state.symbols (.variable name ⟨info.locus, some entry.ty⟩) := by
        refine still_seq typed ?_
        exact still_unit _ _
      rw [still state.diagnostics]
      refine ⟨rfl, fun diagnostics => ?_⟩
      rw [unfolded, if_neg notCalled]
      exact still diagnostics
  | apply name arguments callee info =>
    refine fun state => ⟨(@binds_expr .empty context _ state).1, fun _ known => ?_⟩
    cases known.2
  | member object name info =>
    refine fun state => ⟨(@binds_expr .empty context _ state).1, fun _ known => ?_⟩
    cases known.2
  | binary operator left right info =>
    refine follows_weaken (follows_seq (settles_expr context constants left) fun _ =>
      follows_seq (settles_expr context constants right)
      fun _ => follows_seq (settles_binary_type _ _ _ _) fun _ => follows_unit _) ?_
    rintro before result after ⟨_, _, settlesLeft, _, _, settlesRight, _, _, settlesTy, rfl, rfl⟩ ⟨declares, whole⟩
    obtain ⟨leftWhole, rightWhole⟩ := Expr.operands_whole whole
    obtain ⟨rfl, stillLeft⟩ := settlesLeft ⟨declares, Expr.outermost_of_whole leftWhole⟩
    obtain ⟨rfl, stillRight⟩ := settlesRight ⟨declares, Expr.outermost_of_whole rightWhole⟩
    obtain ⟨rfl, stillTy⟩ := settlesTy trivial
    exact ⟨rfl, still_seq stillLeft (still_seq stillRight (still_seq stillTy (still_unit _ _)))⟩
  | unary operator operand info =>
    refine follows_weaken (follows_seq (settles_expr context constants operand) fun _ =>
      follows_seq (settles_unary_type _ _ _) fun _ => follows_unit _) ?_
    rintro before result after ⟨_, _, settles, _, _, settlesTy, rfl, rfl⟩ ⟨declares, whole⟩
    obtain ⟨rfl, still⟩ := settles ⟨declares, Expr.outermost_of_whole (Expr.operand_whole whole)⟩
    obtain ⟨rfl, stillTy⟩ := settlesTy trivial
    exact ⟨rfl, still_seq still (still_seq stillTy (still_unit _ _))⟩
  | grouped inner info =>
    refine follows_weaken (follows_seq (settles_expr context constants inner) fun _ => follows_unit _) ?_
    rintro before result after ⟨_, _, settles, rfl, rfl⟩ ⟨declares, whole⟩
    obtain ⟨rfl, still⟩ := settles ⟨declares, Expr.outermost_of_whole whole⟩
    exact ⟨rfl, still_seq still (still_unit _ _)⟩

theorem follows_passed (condition : Bool) (kind : DiagnosticKind) (locus : Locus) (value : α) :
    Follows (fun before result after => result = value ∧ after = before ∧
      Still (if condition = true then do report kind locus; return value else return value) before value)
      (if condition = true then do report kind locus; return value else return value) := by
  split
  · exact follows_weaken (follows_seq (@follows_report (fun _ _ _ => False) _ _) fun _ => follows_unit _)
      fun _ _ _ found => by simp at found
  · refine follows_weaken (follows_unit value) ?_
    rintro before result after ⟨rfl, rfl⟩
    exact ⟨rfl, rfl, still_unit _ _⟩

theorem settles_bound (context : CheckContext) (constants : String → Option Int) (source : Expr) :
    Settles (fun table result => table.Declares constants ∧ (result.whole? constants).isSome = true)
      (bound context source) := by
  refine follows_weaken (follows_seq (settles_expr context constants source) fun checked => follows_passed _ _ _ checked) ?_
  rintro before result after ⟨_, _, settles, rfl, rfl, passed⟩ ⟨declares, whole⟩
  obtain ⟨rfl, still⟩ := settles ⟨declares, Expr.outermost_of_whole whole⟩
  exact ⟨rfl, still_seq still passed⟩

theorem settles_checked {known : SymbolTable → Expr → Prop} {check : Check Expr} {registry : Registry}
    (settles : Settles known check) (ensures : ∀ table, Ensures table (Expr.Accepted table registry) check)
    (binds : ∀ final, Binds final (Expr.Bound final) check) :
    Follows (fun before result after => known before result →
      after = before ∧ Still check before result ∧ result.Checked before registry) check := by
  intro state
  refine ⟨(settles state).1, fun quiet isKnown => ?_⟩
  obtain ⟨same, still⟩ := (settles state).2 quiet isKnown
  have accepted := ((ensures state.symbols state).2 quiet (.refl _)).2
  have bound := ((binds _ state).2 quiet).2 (.refl _)
  exact ⟨same, still, accepted, same ▸ bound⟩

section Bounds

variable {context : CheckContext} {environment : Environment} {constants : String → Option Int} {before after : CheckState}

def reversals (decl : VarDecl) (bounds : List Bounds) : List Diagnostic :=
  List.replicate (bounds.countP (·.IsReversed)) ⟨.invalidBounds decl.name, decl.locus⟩

theorem binds_bound {final : SymbolTable} (context : CheckContext) (source : Expr) :
    Binds final (Expr.Bound final) (bound context source) := by
  refine binds_seq (binds_expr context source) fun checked => follows_weaken (follows_passed _ _ _ checked) ?_
  rintro before result after ⟨rfl, rfl, -⟩
  exact ⟨.refl _, fun _ isBound => isBound⟩

theorem follows_bound (constants : String → Option Int) {source : Expr} (wellFormed : source.WellFormed) :
    Follows (fun before result after => before.Declares constants ∧ (result.whole? constants).isSome = true →
      after = before ∧ Still (bound context source) before result ∧ result.Checked before context.registry)
      (bound context source) :=
  settles_checked (settles_bound context constants source) (fun _ => ensures_bound context source wellFormed)
    fun _ => binds_bound context source

theorem follows_lower (constants : String → Option Int) {source : Option Expr}
    (wellFormed : ∀ lower ∈ source, lower.WellFormed) :
    Follows (fun before result after => before.Declares constants ∧ (Dimension.lowest? constants result).isSome = true →
      after = before ∧ Still (option (bound context) source) before result ∧
        ∀ lower ∈ result, lower.Checked before context.registry) (option (bound context) source) := by
  cases source with
  | none =>
    refine follows_weaken (follows_unit none) ?_
    rintro before result after ⟨rfl, rfl⟩ -
    exact ⟨rfl, still_unit _ _, by simp⟩
  | some lower =>
    refine follows_weaken (follows_seq (follows_bound constants (wellFormed lower rfl)) fun _ => follows_unit _) ?_
    rintro before result after ⟨_, _, settles, rfl, rfl⟩ known
    obtain ⟨rfl, still, checked⟩ := settles known
    exact ⟨rfl, still_seq still (still_unit _ _), by simpa using checked⟩

theorem run_reversed (decl : VarDecl) (dim : Dimension) {low high : Float} {least most : Int}
    (lowWhole : Double.IsWhole low least) (lowSmall : least.natAbs < 2 ^ 53) (highWhole : Double.IsWhole high most)
    (highSmall : most.natAbs < 2 ^ 53) (table : SymbolTable) (diagnostics : List Diagnostic) :
    (if high < low then do report (.invalidBounds decl.name) decl.locus; return dim
      else return dim : Check Dimension).run ⟨table, diagnostics⟩ =
      (dim, ⟨table, reversals decl [⟨least, most⟩] ++ diagnostics⟩) := by
  have less := highWhole.lt_iff highSmall lowWhole lowSmall
  by_cases reversed : most < least
  · have isReversed : reversals decl [⟨least, most⟩] = [⟨.invalidBounds decl.name, decl.locus⟩] := by
      simp [reversals, Bounds.IsReversed, reversed]
    rw [if_pos (less.mpr reversed), isReversed]
    rfl
  · have isOrdered : reversals decl [⟨least, most⟩] = [] := by
      simp [reversals, Bounds.IsReversed, reversed]
    rw [if_neg (reversed ∘ less.mp), isOrdered]
    rfl

theorem follows_dimension (decl : VarDecl) (constants : String → Option Int) {source : Dimension}
    (wellFormed : source.WellFormed) :
    Follows (fun before dim after => ∀ environment found, Environment.Knows environment before constants →
      dim.whole? constants = some found → after = before ∧ dim.Checked before context.registry ∧
        ∀ diagnostics, (declaredDimension context decl source).run ⟨before, diagnostics⟩ =
          (dim, ⟨before, reversals decl [found] ++ diagnostics⟩)) (dimension context source) := by
  refine follows_weaken (follows_seq (follows_lower constants wellFormed.1) fun _ =>
    follows_seq (follows_bound constants wellFormed.2)
    fun _ => follows_unit _) ?_
  rintro _ dim table ⟨lower, _, settlesLower, upper, _, settlesUpper, rfl, rfl⟩ environment found known isWhole
  obtain ⟨least, lowerWhole, further⟩ := Option.bind_eq_some_iff.mp isWhole
  obtain ⟨most, upperWhole, same⟩ := Option.bind_eq_some_iff.mp further
  cases same
  obtain ⟨rfl, stillLower, lowerChecked⟩ := settlesLower ⟨known.declares, lowerWhole ▸ rfl⟩
  obtain ⟨rfl, stillUpper, upperChecked⟩ := settlesUpper ⟨known.declares, upperWhole ▸ rfl⟩
  obtain ⟨⟨high, isHigh, highWhole⟩, highRange⟩ := upperChecked.folded known upperWhole
  refine ⟨rfl, ⟨lowerChecked, upperChecked⟩, fun diagnostics => ?_⟩
  rw [declaredDimension, run_seq (stillLower diagnostics), run_seq (still_symbols table diagnostics)]
  dsimp only
  rw [run_seq (stillUpper diagnostics), run_seq (still_symbols table diagnostics), isHigh]
  cases lower with
  | none =>
    cases lowerWhole
    exact run_reversed decl _ (.inl zero_of_int) (by decide) highWhole highRange.exact _ _
  | some lower =>
    obtain ⟨⟨low, isLow, lowWhole⟩, lowRange⟩ := (lowerChecked lower rfl).folded known lowerWhole
    dsimp only
    rw [isLow]
    exact run_reversed decl _ lowWhole lowRange.exact highWhole highRange.exact _ _

theorem reversals_cons (decl : VarDecl) (first : Bounds) (rest : List Bounds) (diagnostics : List Diagnostic) :
    reversals decl (first :: rest) ++ diagnostics = reversals decl rest ++ (reversals decl [first] ++ diagnostics) := by
  have count : (first :: rest).countP (·.IsReversed) = rest.countP (·.IsReversed) + [first].countP (·.IsReversed) := by
    rw [Nat.add_comm, ← List.countP_append]
    rfl
  rw [reversals, count, ← List.replicate_append_replicate, List.append_assoc]
  rfl

theorem follows_dimensions (decl : VarDecl) (constants : String → Option Int) {sources : List Dimension}
    (wellFormed : ∀ source ∈ sources, source.WellFormed) :
    Follows (fun before dims after => ∀ environment bounds, Environment.Knows environment before constants →
      dims.mapM (Dimension.whole? constants) = some bounds → after = before ∧
        (∀ dim ∈ dims, dim.Checked before context.registry) ∧
        ∀ diagnostics, (sources.mapM (declaredDimension context decl)).run ⟨before, diagnostics⟩ =
          (dims, ⟨before, reversals decl bounds ++ diagnostics⟩)) (sources.mapM (dimension context)) := by
  induction sources with
  | nil =>
    refine follows_weaken (follows_unit []) ?_
    rintro before dims after ⟨rfl, rfl⟩ environment bounds - none
    cases none
    exact ⟨rfl, by simp, fun _ => rfl⟩
  | cons source rest ih =>
    have checking : (source :: rest).mapM (dimension context) =
        (do return (← dimension context source) :: (← rest.mapM (dimension context))) := List.mapM_cons
    rw [checking]
    refine follows_weaken (follows_seq (follows_dimension decl constants (wellFormed source List.mem_cons_self)) fun _ =>
      follows_seq (ih fun other among => wellFormed other (List.mem_cons_of_mem _ among)) fun _ => follows_unit _) ?_
    rintro _ dims table ⟨dim, _, settles, others, _, settlesRest, rfl, rfl⟩ environment bounds known isWhole
    obtain ⟨found, otherBounds, foundWhole, otherWhole, rfl⟩ := Dimension.whole_cons isWhole
    obtain ⟨rfl, checked, runs⟩ := settles environment found known foundWhole
    obtain ⟨rfl, othersChecked, runsRest⟩ := settlesRest environment otherBounds known otherWhole
    refine ⟨rfl, List.forall_mem_cons.mpr ⟨checked, othersChecked⟩, fun diagnostics => ?_⟩
    rw [List.mapM_cons, run_seq (runs diagnostics), run_seq (runsRest _), ← reversals_cons]
    rfl

theorem reversals_mem {decl : VarDecl} {bounds : List Bounds} :
    ⟨.invalidBounds decl.name, decl.locus⟩ ∈ reversals decl bounds ↔ ∃ found ∈ bounds, found.IsReversed := by
  rw [reversals, List.mem_replicate, ← Nat.pos_iff_ne_zero, List.countP_pos_iff]
  simp

end Bounds

def Reports (check : Check α) (before : CheckState) (diagnostic : Diagnostic) : Prop :=
  ∃ reported, (check.run before).2.diagnostics = reported ++ before.diagnostics ∧ diagnostic ∈ reported

def Omits (diagnostic : Diagnostic) (check : Check α) : Prop :=
  ∀ before, ∃ reported, (check.run before).2.diagnostics = reported ++ before.diagnostics ∧ diagnostic ∉ reported

section Omitting

variable {diagnostic : Diagnostic}

theorem omits_unit (result : α) : Omits diagnostic (pure result) := fun _ => ⟨[], rfl, by simp⟩

theorem omits_seq {first : Check α} {next : α → Check β} (omits : Omits diagnostic first)
    (omitsNext : ∀ value, Omits diagnostic (next value)) : Omits diagnostic (first >>= next) := by
  intro before
  obtain ⟨early, isEarly, notEarly⟩ := omits before
  obtain ⟨late, isLate, notLate⟩ := omitsNext (first.run before).1 (first.run before).2
  refine ⟨late ++ early, ?_, ?_⟩
  · rw [List.append_assoc, ← isEarly, ← isLate]
    rfl
  · rw [List.mem_append, not_or]
    exact ⟨notLate, notEarly⟩

theorem omits_read {next : SymbolTable → Check β} (omits : ∀ table, Omits diagnostic (next table)) :
    Omits diagnostic (symbols >>= next) :=
  omits_seq (fun _ => ⟨[], rfl, by simp⟩) omits

theorem omits_report {kind : DiagnosticKind} (locus : Locus) (different : kind ≠ diagnostic.kind) :
    Omits diagnostic (report kind locus) := by
  refine fun before => ⟨[⟨kind, locus⟩], rfl, ?_⟩
  rw [List.mem_singleton]
  rintro rfl
  exact different rfl

theorem said_between {early middle diagnostics : List Diagnostic} (notEarly : diagnostic ∉ early) {rest : Check α}
    (omits : Omits diagnostic rest) {table : SymbolTable} :
    (∃ reported, (rest.run ⟨table, middle ++ (early ++ diagnostics)⟩).2.diagnostics = reported ++ diagnostics ∧
      diagnostic ∈ reported) ↔ diagnostic ∈ middle := by
  obtain ⟨late, said, notLate⟩ := omits ⟨table, middle ++ (early ++ diagnostics)⟩
  have all : (rest.run ⟨table, middle ++ (early ++ diagnostics)⟩).2.diagnostics = (late ++ (middle ++ early)) ++
    diagnostics := by
    rw [said, List.append_assoc, List.append_assoc]
  rw [all]
  constructor
  · rintro ⟨reported, same, among⟩
    rw [← List.append_cancel_right same, List.mem_append, List.mem_append] at among
    exact (among.resolve_left notLate).resolve_right notEarly
  · intro among
    exact ⟨_, rfl, List.mem_append_right _ (List.mem_append_left _ among)⟩

end Omitting

section Declaring

variable {name : String} {locus : Locus}

theorem omits_declare (entry : SymbolEntry) (shared : Bool) : Omits ⟨.invalidBounds name, locus⟩ (declare entry shared) := by
  refine omits_read fun table => ?_
  split
  · exact fun _ => ⟨[], rfl, by simp⟩
  · exact omits_report _ (by simp)

theorem resolve_or_run (spec : Option TypeSpec) (other : String) (place : Locus) (table : SymbolTable)
    (diagnostics : List Diagnostic) : ∃ ty reported, (resolveOr spec other place).run ⟨table, diagnostics⟩ =
      (ty, ⟨table, reported ++ diagnostics⟩) ∧ ∀ found ∈ reported, found.kind ≠ .invalidBounds name := by
  cases spec with
  | none => exact ⟨_, [], rfl, by simp⟩
  | some written =>
    unfold resolveOr resolve
    rw [run_seq (still_symbols table diagnostics)]
    split
    · exact ⟨_, [], rfl, by simp⟩
    · cases written with
      | record title => exact ⟨_, [⟨.unknownType title, place⟩], rfl, by simp⟩
      | _ => exact ⟨_, [], rfl, by simp⟩

theorem dim_decl_reports {context : CheckContext} {shared : Bool} {decl : VarDecl} (isArray : decl.isArray = true)
    {table : SymbolTable} {dims : List Dimension} {bounds : List Bounds}
    (runs : ∀ diagnostics, (decl.dimensions.mapM (declaredDimension context decl)).run ⟨table, diagnostics⟩ =
      (dims, ⟨table, reversals decl bounds ++ diagnostics⟩)) (diagnostics : List Diagnostic) :
    Reports (dimDecl context shared decl) ⟨table, diagnostics⟩ ⟨.invalidBounds decl.name, decl.locus⟩ ↔
      ∃ found ∈ bounds, found.IsReversed := by
  obtain ⟨element, early, ran, notEarly⟩ :=
    @resolve_or_run decl.name decl.typeSpec decl.name decl.locus table diagnostics
  have others : ⟨.invalidBounds decl.name, decl.locus⟩ ∉ early := fun among => notEarly _ among rfl
  rw [Reports, dimDecl, run_seq ran, if_pos isArray, run_seq (runs _), if_pos isArray, ← @reversals_mem decl]
  refine said_between others ?_
  refine omits_read fun table => ?_
  dsimp only
  split
  · split
    · exact omits_seq (omits_report _ (by simp)) fun _ => omits_unit _
    · exact omits_seq (omits_report _ (by simp)) fun _ => omits_unit _
  · exact omits_seq (omits_declare _ _) fun _ => omits_unit _

theorem dim_decl_result {context : CheckContext} {shared : Bool} {decl : VarDecl} (isArray : decl.isArray = true)
    {table : SymbolTable} {dims : List Dimension} {bounds : List Bounds}
    (runs : ∀ diagnostics, (decl.dimensions.mapM (declaredDimension context decl)).run ⟨table, diagnostics⟩ =
      (dims, ⟨table, reversals decl bounds ++ diagnostics⟩)) (diagnostics : List Diagnostic) :
    ((dimDecl context shared decl).run ⟨table, diagnostics⟩).1 = { decl with dimensions := dims } := by
  obtain ⟨element, early, ran, -⟩ := @resolve_or_run decl.name decl.typeSpec decl.name decl.locus table diagnostics
  rw [dimDecl, run_seq ran, if_pos isArray, run_seq (runs _), run_seq (still_symbols table _)]
  split
  · split <;> rfl
  · rfl

end Declaring

section Constants

variable {context : CheckContext}

theorem follows_declare (entry : SymbolEntry) (shared : Bool) :
    Follows (fun before _ after => before.define entry shared = .ok after) (declare entry shared) := by
  refine follows_read fun table => ?_
  split
  · next after defined =>
    refine follows_weaken (follows_set after) ?_
    rintro before _ _ rfl rfl
    exact defined
  · exact follows_report _ _

theorem follows_unless {α : Type} {relation : SymbolTable → α → SymbolTable → Prop} {condition : Prop} [Decidable condition]
    {kind : DiagnosticKind} {locus : Locus} {next : Check α} (follows : Follows relation next) :
    Follows relation (if condition then do report kind locus; next else next) := by
  split
  · refine follows_weaken (follows_seq (@follows_report (fun _ _ _ => False) _ _) fun _ => follows) ?_
    rintro before result after ⟨_, _, impossible, -⟩
    exact impossible.elim
  · exact follows

theorem follows_constant (constants : String → Option Int) (name : String) (locus : Locus) {source : Expr}
    (wellFormed : source.WellFormed) :
    Follows (fun before result after => before.Declares constants → (result.whole? constants).isSome = true →
      before.lookup? name = none → result.Checked before context.registry ∧ ∀ other, after.lookup? other =
        if other = name then some ⟨name, .constant, constantType name result, locus, fold before result⟩
        else before.lookup? other) (constant context name source locus) := by
  have settles := settles_checked (settles_expr context constants source) (fun _ => ensures_expr context source wellFormed)
    fun _ => binds_expr context source
  have declares (checked : Expr) : Follows (fun before result after => result = checked ∧ before.define
      ⟨name, .constant, constantType name checked, locus, fold before checked⟩ context.inMain = .ok after) (do
        let table ← symbols
        if !isConstant table checked then report .notConstant checked.locus
        let ty := constantType name checked
        if !ty.isCompatible checked.ty then report (.typeMismatch ty.name checked.ty.name) checked.locus
        declare { name, kind := .constant, ty, locus, constant := fold table checked } context.inMain
        return checked) := by
    refine follows_read fun table => follows_unless (follows_unless ?_)
    refine follows_weaken (follows_seq (follows_declare _ _) fun _ => follows_unit _) ?_
    rintro before result after ⟨_, _, defined, rfl, rfl⟩ rfl
    exact ⟨rfl, defined⟩
  refine follows_weaken (follows_seq settles declares) ?_
  rintro before result after ⟨checked, _, settles, rfl, defined⟩ declares isWhole absent
  obtain ⟨rfl, -, isChecked⟩ := settles ⟨declares, Expr.outermost_of_whole isWhole⟩
  exact ⟨isChecked, SymbolTable.lookup_defined absent defined⟩

end Constants

end Check

end BasicLang
