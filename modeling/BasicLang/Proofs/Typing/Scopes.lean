import BasicLang.Proofs.Table
import BasicLang.Proofs.Typing.Bound

set_option autoImplicit false

namespace BasicLang

namespace SymbolTable

def Owns (table : SymbolTable) (name : String) : Prop :=
  ((table.locals.headD []).get? name).isSome = true

def Shares (table : SymbolTable) (name : String) : Prop := (table.shared.get? name).isSome = true

instance (table : SymbolTable) (name : String) : Decidable (table.Owns name) :=
  inferInstanceAs (Decidable (_ = true))

instance (table : SymbolTable) (name : String) : Decidable (table.Shares name) :=
  inferInstanceAs (Decidable (_ = true))

/-- All names are also in the other table, and in the same scope. -/
structure Within (table other : SymbolTable) : Prop where
  owns : ∀ name, table.Owns name → other.Owns name
  shares : ∀ name, table.Shares name → other.Shares name

/-- Some names become shared and some the routine's own. Other own names are added only where they
are new. -/
structure Gains (shared own : List String) (before after : SymbolTable) : Prop where
  entered : after.locals ≠ []
  procedures : after.procedures = before.procedures
  shares : ∀ name, after.Shares name ↔ before.Shares name ∨ name ∈ shared
  owns : ∀ name, before.Owns name ∨ name ∈ own → after.Owns name
  fresh : ∀ name, after.Owns name → before.Owns name ∨ name ∈ own ∨ ¬before.Shares name

variable {table after : SymbolTable} {entry : SymbolEntry}

theorem absent_iff (table : SymbolTable) (name : String) :
    table.lookup? name = none ↔ ¬table.Owns name ∧ ¬table.Shares name := by
  cases scopes : table.locals <;> simp [lookup?, Owns, Shares, scopes, Table.get_nil]

theorem define_own (entered : table.locals ≠ []) (defined : table.define entry false = .ok after) :
    after.locals ≠ [] ∧ (∀ name, after.Shares name ↔ table.Shares name) ∧
      ∀ name, after.Owns name ↔ table.Owns name ∨ name = entry.name := by
  unfold define at defined
  cases scopes : table.locals with
  | nil => exact absurd scopes entered
  | cons scope outer =>
    simp only [scopes, Bool.false_eq_true, if_false] at defined
    split at defined
    · cases defined
    · obtain rfl := Except.ok.inj defined
      refine ⟨List.cons_ne_nil _ _, fun _ => .rfl, fun name => ?_⟩
      simp only [Owns, scopes, List.headD_cons, Table.get_set]
      split
      · next same => simp [same]
      · next different => simp [different]

theorem define_new (entered : table.locals ≠ []) (defined : table.define entry false = .ok after) :
    ¬table.Owns entry.name := by
  unfold define at defined
  cases scopes : table.locals with
  | nil => exact absurd scopes entered
  | cons scope outer =>
    simp only [scopes, Bool.false_eq_true, if_false] at defined
    split at defined
    · cases defined
    · next absent => simp [Owns, scopes, absent]

theorem define_shared (defined : table.define entry true = .ok after) :
    after.locals = table.locals ∧ ∀ name, after.Shares name ↔ table.Shares name ∨ name = entry.name := by
  have added (missing : table.shared.get? entry.name = none)
      (same : after = { table with shared := table.shared.set entry.name entry }) :
      after.locals = table.locals ∧ ∀ name, after.Shares name ↔ table.Shares name ∨ name = entry.name := by
    subst same
    refine ⟨rfl, fun name => ?_⟩
    simp only [Shares, Table.get_set]
    split
    · next same => simp [same]
    · next different => simp [different]
  unfold define at defined
  grind

theorem retype_scopes (table : SymbolTable) (name : String) (ty : Ty) (entered : table.locals ≠ []) :
    (table.retype name ty).locals ≠ [] ∧
      (∀ other, (table.retype name ty).Shares other ↔ table.Shares other) ∧
      ∀ other, (table.retype name ty).Owns other ↔ table.Owns other := by
  unfold retype
  cases scopes : table.locals with
  | nil => exact absurd scopes entered
  | cons scope outer =>
    dsimp only
    split
    · refine ⟨List.cons_ne_nil _ _, fun _ => .rfl, fun other => ?_⟩
      simp only [Owns, scopes, List.headD_cons, Table.get_update]
      split <;> simp
    · refine ⟨List.cons_ne_nil _ _, fun other => ?_, fun other => by rw [Owns, Owns, scopes]⟩
      simp only [Shares, Table.get_update]
      split <;> simp

namespace Gains

variable {shared own moreShared moreOwn : List String} {before between : SymbolTable}

theorem refl (entered : table.locals ≠ []) : table.Gains [] [] table where
  entered := entered
  procedures := rfl
  shares := by simp
  owns := by simp
  fresh := fun _ => .inl

theorem trans (early : before.Gains shared own between) (late : between.Gains moreShared moreOwn after) :
    before.Gains (shared ++ moreShared) (own ++ moreOwn) after where
  entered := late.entered
  procedures := late.procedures.trans early.procedures
  shares := fun name => by rw [late.shares, early.shares, List.mem_append, or_assoc]
  owns := fun name => by
    rw [List.mem_append, ← or_assoc]
    rintro (known | added)
    · exact late.owns name (.inl (early.owns name known))
    · exact late.owns name (.inr added)
  fresh := fun name isOwn => by
    -- A name that was new later on was not shared before either, since sharing only grows.
    rw [List.mem_append]
    rcases late.fresh name isOwn with known | added | new
    · rcases early.fresh name known with first | added | new
      · exact .inl first
      · exact .inr (.inl (.inl added))
      · exact .inr (.inr new)
    · exact .inr (.inl (.inr added))
    · exact .inr (.inr fun isShared => new ((early.shares name).mpr (.inl isShared)))

theorem within (gains : before.Gains shared own after) : before.Within after where
  owns := fun name isOwn => gains.owns name (.inl isOwn)
  shares := fun name isShared => (gains.shares name).mpr (.inl isShared)

theorem of_new (entered : table.locals ≠ []) (defined : table.define entry false = .ok after)
    (absent : ¬table.Shares entry.name) : table.Gains [] [] after := by
  obtain ⟨stillEntered, shares, owns⟩ := define_own entered defined
  refine ⟨stillEntered, (define_agrees defined).procedures, by simpa using shares, fun name known => ?_,
    fun name isOwn => ?_⟩
  · exact (owns name).mpr (.inl (known.resolve_right List.not_mem_nil))
  · rcases (owns name).mp isOwn with known | rfl
    · exact .inl known
    · exact .inr (.inr absent)

theorem of_own (entered : table.locals ≠ []) (defined : table.define entry false = .ok after) :
    table.Gains [] [entry.name] after := by
  obtain ⟨stillEntered, shares, owns⟩ := define_own entered defined
  refine ⟨stillEntered, (define_agrees defined).procedures, by simpa using shares, fun name known => ?_,
    fun name isOwn => ?_⟩
  · exact (owns name).mpr (by simpa using known)
  · simpa [or_assoc] using Or.inl (b := ¬table.Shares name) ((owns name).mp isOwn)

theorem of_shared (entered : table.locals ≠ []) (defined : table.define entry true = .ok after) :
    table.Gains [entry.name] [] after := by
  obtain ⟨same, shares⟩ := define_shared defined
  have owns (name : String) : after.Owns name ↔ table.Owns name := by rw [Owns, same, Owns]
  refine ⟨same ▸ entered, (define_agrees defined).procedures, by simpa using shares, fun name known => ?_,
    fun name isOwn => ?_⟩
  · exact (owns name).mpr (known.resolve_right List.not_mem_nil)
  · exact .inl ((owns name).mp isOwn)

end Gains

end SymbolTable

namespace Check

variable {α β : Type} {shared own moreShared moreOwn : List String}

def Declares (shared own : List String) (check : Check α) : Prop :=
  Follows (fun before _ after => before.locals ≠ [] → before.Gains shared own after) check

section Rules

theorem declares_unit (result : α) : Declares [] [] (pure result : Check α) :=
  follows_weaken (follows_unit result) fun _ _ _ same entered => by
    rw [same.2]
    exact .refl entered

theorem declares_seq {first : Check α} {next : α → Check β} (declaresFirst : Declares shared own first)
    (declaresNext : ∀ value, Declares moreShared moreOwn (next value)) :
    Declares (shared ++ moreShared) (own ++ moreOwn) (first >>= next) := by
  refine follows_weaken (follows_seq declaresFirst declaresNext) ?_
  rintro before result after ⟨value, between, early, late⟩ entered
  exact (early entered).trans (late (early entered).entered)

theorem declares_after {first : Check α} {next : α → Check β} (nothing : Declares [] [] first)
    (declares : ∀ value, Declares shared own (next value)) : Declares shared own (first >>= next) :=
  declares_seq nothing declares

theorem declares_then {first : Check α} {next : α → Check β} (declares : Declares shared own first)
    (nothing : ∀ value, Declares [] [] (next value)) : Declares shared own (first >>= next) := by
  have both := declares_seq declares nothing
  rwa [List.append_nil, List.append_nil] at both

theorem declares_result {first : Check α} {result : α → β} (declares : Declares shared own first) :
    Declares shared own (do return result (← first)) :=
  declares_then declares fun _ => declares_unit _

theorem declares_report (kind : DiagnosticKind) (locus : Locus) :
    Declares shared own (report kind locus) := follows_report kind locus

theorem declares_refused {next : Unit → Check β} {anyShared anyOwn : List String}
    (kind : DiagnosticKind) (locus : Locus) (declares : Declares anyShared anyOwn (next ())) :
    Declares shared own (report kind locus >>= next) := by
  have reported : Follows (fun _ (_ : Unit) _ => False) (report kind locus) := follows_report kind locus
  refine follows_weaken (follows_seq reported fun _ => declares) ?_
  rintro before result after ⟨_, between, impossible, -⟩
  exact impossible.elim

theorem declares_unless {condition : Prop} [Decidable condition] {next : Unit → Check β}
    {kind : DiagnosticKind} {locus : Locus} (declares : Declares shared own (next ())) :
    Declares shared own (if condition then report kind locus >>= next else next ()) := by
  split
  · exact declares_refused _ _ declares
  · exact declares

theorem declares_report_if (condition : Prop) [Decidable condition] (kind : DiagnosticKind)
    (locus : Locus) : Declares [] [] (if condition then report kind locus else pure ()) := by
  split
  · exact declares_report _ _
  · exact declares_unit ()

theorem declares_symbols : Declares [] [] symbols :=
  follows_weaken follows_symbols fun _ _ _ same entered => by
    rw [same.2]
    exact .refl entered

theorem declares_reading {next : SymbolTable → Check β}
    (declares : ∀ table, Declares shared own (next table)) : Declares shared own (symbols >>= next) :=
  declares_after declares_symbols declares

theorem declares_gather {items : List α} {check : α → Check β} (shared own : α → List String)
    (each : ∀ item ∈ items, Declares (shared item) (own item) (check item)) :
    Declares (items.flatMap shared) (items.flatMap own) (items.mapM check) := by
  induction items with
  | nil => exact declares_unit []
  | cons head tail ih =>
    rw [List.mapM_cons, List.flatMap_cons, List.flatMap_cons]
    refine declares_seq (each head List.mem_cons_self) fun first => ?_
    exact declares_result (ih fun item inside => each item (List.mem_cons_of_mem _ inside))

theorem declares_map {items : List α} {check : α → Check β}
    (each : ∀ item ∈ items, Declares [] [] (check item)) : Declares [] [] (items.mapM check) := by
  have none : items.flatMap (fun _ => ([] : List String)) = [] := List.flatMap_eq_nil_iff.mpr fun _ _ => rfl
  have all := declares_gather (fun _ => []) (fun _ => []) each
  rwa [none] at all

theorem declares_each {items : List α} {check : α → Check Unit} (own : α → List String)
    (each : ∀ item ∈ items, Declares [] (own item) (check item)) :
    Declares [] (items.flatMap own) (items.forM check) := by
  induction items with
  | nil => exact declares_unit ()
  | cons head tail ih =>
    rw [List.flatMap_cons]
    refine declares_seq (each head List.mem_cons_self) fun _ => ?_
    exact ih fun item inside => each item (List.mem_cons_of_mem _ inside)

theorem declares_option {item : Option α} {check : α → Check β}
    (each : ∀ value, Declares [] [] (check value)) : Declares [] [] (option check item) := by
  cases item with
  | none => exact declares_unit none
  | some value => exact declares_result (each value)

end Rules

section Expressions

def DeclaresFrom (table : SymbolTable) (shared own : List String) (check : Check α) : Prop :=
  Follows (fun before _ after => table = before → before.locals ≠ [] → before.Gains shared own after) check

theorem declares_from {table : SymbolTable} {check : Check α} (declares : Declares shared own check) :
    DeclaresFrom table shared own check :=
  follows_weaken declares fun _ _ _ gains _ => gains

theorem declares_read {next : SymbolTable → Check β}
    (declares : ∀ table, DeclaresFrom table shared own (next table)) :
    Declares shared own (symbols >>= next) :=
  follows_read fun table => follows_weaken (declares table) fun _ _ _ gains => gains

theorem declares_from_seq {table : SymbolTable} {first : Check α} {next : α → Check β}
    (nothing : DeclaresFrom table [] [] first) (declares : ∀ value, Declares shared own (next value)) :
    DeclaresFrom table shared own (first >>= next) := by
  refine follows_weaken (follows_seq nothing declares) ?_
  rintro before result after ⟨value, between, early, late⟩ same entered
  exact (early same entered).trans (late (early same entered).entered)

theorem declares_from_result {table : SymbolTable} {first : Check α} {result : α → β}
    (declares : DeclaresFrom table shared own first) :
    DeclaresFrom table shared own (do return result (← first)) := by
  refine follows_weaken (follows_seq declares fun value => follows_unit (result value)) ?_
  rintro before _ after ⟨value, between, gains, -, rfl⟩
  exact gains

theorem declares_define_new {table : SymbolTable} {entry : SymbolEntry} {next : Unit → Check β}
    {refuse : SymbolEntry → Check β} (absent : ¬table.Shares entry.name)
    (declares : Declares shared own (next ())) (declaresRefuse : ∀ existing, Declares shared own (refuse existing)) :
    DeclaresFrom table shared own (do
      match (← symbols).define entry false with
      | .ok after => setSymbols after >>= next
      | .error existing => refuse existing) := by
  refine follows_read fun found => ?_
  cases defined : found.define entry false with
  | ok after =>
    -- The name was in no scope, and so its declaration does not hide a shared one.
    refine follows_weaken (follows_seq (follows_set after) fun _ => declares) ?_
    rintro before _ last ⟨_, _, rfl, late⟩ rfl rfl entered
    have gains := SymbolTable.Gains.of_new entered defined absent
    exact gains.trans (late gains.entered)
  | error existing => exact follows_weaken (declaresRefuse existing) fun _ _ _ gains _ _ => gains

theorem declares_implicit {table : SymbolTable} (name : String) (ty : Ty) (locus : Locus)
    (absent : table.lookup? name = none) : DeclaresFrom table [] [] (declareImplicit name ty locus) :=
  declares_define_new ((SymbolTable.absent_iff _ _).mp absent).2 (declares_unit ()) fun _ => declares_unit ()

theorem declares_variable_type (name : String) (locus : Locus) :
    Declares [] [] (variableType name locus) := by
  refine declares_read fun table => ?_
  split
  · exact declares_from (declares_unit _)
  · next absent =>
    refine follows_read fun again => ?_
    refine follows_weaken (declares_from_seq (declares_implicit name _ locus absent) fun _ =>
      declares_unit _) ?_
    exact fun _ _ _ gains _ => gains

def Demand.Plain (demand : Demand) : Prop :=
  ∀ position ty locus, Declares [] [] (demand position ty locus)

theorem no_demand_plain : Demand.Plain noDemand := fun _ _ _ => declares_unit ()

theorem demand_index_plain : Demand.Plain demandIndex := fun _ _ _ => declares_report_if _ _ _

theorem demand_types_plain (name : String) (expected : List Ty) :
    Demand.Plain (demandTypes name expected) := by
  intro position ty locus
  unfold demandTypes
  split
  · exact declares_report_if _ _ _
  · exact declares_unit ()

variable {next : Demand → Check β}

theorem declares_call_demand (name : String) (params : List (String × Ty)) (count : Nat) (locus : Locus)
    (declares : ∀ demand : Demand, demand.Plain → Declares shared own (next demand)) :
    Declares shared own (callDemand name params count locus >>= next) := by
  unfold callDemand
  split
  · exact declares _ (demand_types_plain _ _)
  · rw [bind_assoc]
    exact declares_refused _ _ (declares _ no_demand_plain)

theorem declares_builtin_demand (builtin : Builtin) (count : Nat) (locus : Locus)
    (declares : ∀ demand : Demand, demand.Plain → Declares shared own (next demand)) :
    Declares shared own (builtinDemand builtin count locus >>= next) := by
  unfold builtinDemand
  dsimp only
  split
  · exact declares _ (demand_types_plain _ _)
  · rw [bind_assoc]
    exact declares_refused _ _ (declares _ no_demand_plain)

theorem declares_apply_demand (registry : Registry) (table : SymbolTable) (name : String) (count : Nat)
    (locus : Locus) (declares : ∀ demand : Demand, demand.Plain → Declares shared own (next demand)) :
    DeclaresFrom table shared own
      (applyDemand (resolution registry table name) table name count locus >>= next) := by
  cases resolved : resolution registry table name with
  | array element rank =>
    unfold applyDemand
    dsimp only
    split
    · rw [bind_assoc]
      exact declares_from (declares_refused _ _ (declares _ demand_index_plain))
    · exact declares_from (declares _ demand_index_plain)
  | function params result => exact declares_from (declares_call_demand _ _ _ _ declares)
  | sub => exact declares_from (declares _ no_demand_plain)
  | builtin builtin => exact declares_from (declares_builtin_demand _ _ _ declares)
  | notAnArray => exact declares_from (declares _ no_demand_plain)
  | implicit =>
    unfold applyDemand
    dsimp only
    split
    · rw [bind_assoc]
      exact declares_from_seq (declares_implicit _ _ _ (resolution_implicit resolved)) fun _ =>
        declares _ demand_index_plain
    · exact declares_from (declares _ demand_index_plain)

theorem declares_reporting (kind : DiagnosticKind) (locus : Locus) (result : α) :
    Declares shared own (do report kind locus; return result) :=
  declares_refused kind locus (declares_unit result)

theorem declares_apply_result (resolved : Resolution) (symbols : SymbolTable) (name : String)
    (count : Nat) (locus : Locus) :
    Declares [] [] (applyResult resolved symbols name count locus) := by
  cases resolved with
  | sub => exact declares_reporting _ _ _
  | notAnArray => exact declares_reporting _ _ _
  | _ => exact declares_unit _

theorem declares_member_type (object : Ty) (member : String) (locus : Locus) :
    Declares [] [] (memberType object member locus) := by
  unfold memberType
  split
  · split
    · exact declares_unit _
    · exact declares_reporting _ _ _
  · exact declares_unit _
  · exact declares_reporting _ _ _

theorem declares_binary_type (operator : BinaryOperator) (left right : Ty) (locus : Locus) :
    Declares [] [] (binaryType operator left right locus) := by
  unfold binaryType
  split
  · exact declares_unit _
  · exact declares_reporting _ _ _

theorem declares_unary_type (operator : UnaryOperator) (operand : Ty) (locus : Locus) :
    Declares [] [] (unaryType operator operand locus) := by
  unfold unaryType
  split
  · exact declares_unit _
  · split
    · exact declares_reporting _ _ _
    · cases operator <;> exact declares_unit _

mutual

theorem declares_expr (context : CheckContext) (expr : Expr) :
    Declares [] [] (Check.expr context expr) := by
  cases expr with
  | literal value info => exact declares_unit _
  | «variable» name info =>
    refine declares_read fun table => ?_
    split
    · exact declares_apply_demand _ _ _ _ _ fun _ _ => declares_result (declares_apply_result _ _ _ _ _)
    · exact declares_from (declares_result (declares_variable_type _ _))
  | apply name arguments callee info =>
    exact declares_read fun table => declares_apply_demand _ _ _ _ _ fun demand plain =>
      declares_after (declares_exprs context demand plain 0 arguments) fun _ =>
        declares_result (declares_apply_result _ _ _ _ _)
  | member object name info =>
    exact declares_after (declares_expr context object) fun _ =>
      declares_result (declares_member_type _ _ _)
  | binary operator left right info =>
    exact declares_after (declares_expr context left) fun _ =>
      declares_after (declares_expr context right) fun _ =>
        declares_result (declares_binary_type _ _ _ _)
  | unary operator operand info =>
    exact declares_after (declares_expr context operand) fun _ =>
      declares_result (declares_unary_type _ _ _)
  | grouped inner info => exact declares_result (declares_expr context inner)

theorem declares_exprs (context : CheckContext) (demand : Demand) (plain : demand.Plain) (position : Nat)
    (exprs : List Expr) : Declares [] [] (each context demand position exprs) := by
  cases exprs with
  | nil => exact declares_unit []
  | cons first rest =>
    exact declares_after (declares_expr context first) fun _ =>
      declares_after (plain _ _ _) fun _ =>
        declares_result (declares_exprs context demand plain _ rest)

end

theorem declares_then_report {check : Check Expr} (declares : Declares [] [] check)
    (condition : Expr → Bool) (kind : Expr → DiagnosticKind) :
    Declares [] [] (do
      let checked ← check
      if condition checked then report (kind checked) checked.locus
      return checked) :=
  declares_after declares fun _ => declares_unless (declares_unit _)

variable (context : CheckContext) (expr : Expr)

theorem declares_numeric : Declares [] [] (expectNumeric context expr) :=
  declares_then_report (declares_expr context expr) _ _

theorem declares_string : Declares [] [] (expectString context expr) :=
  declares_then_report (declares_expr context expr) _ _

theorem declares_condition : Declares [] [] (expectCondition context expr) :=
  declares_then_report (declares_expr context expr) _ _

theorem declares_bound : Declares [] [] (bound context expr) :=
  declares_then_report (declares_expr context expr) _ _

theorem declares_case_value (test : Ty) : Declares [] [] (caseValue context test expr) :=
  declares_then_report (declares_expr context expr) _ _

theorem declares_printable : Declares [] [] (expectPrintable context expr) := by
  refine declares_after (declares_expr context expr) fun checked => ?_
  split
  · exact declares_reporting _ _ _
  · exact declares_reporting _ _ _
  · exact declares_unit _

theorem declares_target : Declares [] [] (target context expr) := by
  refine declares_reading fun table => ?_
  dsimp only
  split
  · exact declares_reporting _ _ _
  · refine declares_after (declares_expr context expr) fun checked => ?_
    split
    · exact declares_reporting _ _ _
    · exact declares_unit _

theorem declares_scalar_target : Declares [] [] (scalarTarget context expr) :=
  declares_after (declares_target context expr) fun _ => declares_unless (declares_unit _)

theorem declares_string_target : Declares [] [] (stringTarget context expr) :=
  declares_after (declares_target context expr) fun _ => declares_unless (declares_unit _)

end Expressions

end Check

end BasicLang
