import BasicLang.Typing.Program

set_option autoImplicit false

namespace BasicLang

namespace SymbolTable

structure Agrees (left right : SymbolTable) : Prop where
  procedures : left.procedures = right.procedures
  types : left.types = right.types
  labels : left.labels = right.labels
  letters : left.letters = right.letters

namespace Agrees

variable {left right : SymbolTable}

theorem refl (table : SymbolTable) : table.Agrees table := ⟨rfl, rfl, rfl, rfl⟩

theorem symm (agrees : left.Agrees right) : right.Agrees left :=
  ⟨agrees.procedures.symm, agrees.types.symm, agrees.labels.symm, agrees.letters.symm⟩

theorem trans {other : SymbolTable} (agrees : left.Agrees right) (further : right.Agrees other) :
    left.Agrees other :=
  ⟨agrees.procedures.trans further.procedures, agrees.types.trans further.types,
    agrees.labels.trans further.labels, agrees.letters.trans further.letters⟩

theorem procedure (agrees : left.Agrees right) (name : String) :
    left.procedure? name = right.procedure? name := by rw [procedure?, agrees.procedures, procedure?]

theorem label (agrees : left.Agrees right) (name : String) :
    left.label? name = right.label? name := by rw [label?, agrees.labels, label?]

theorem resolve (agrees : left.Agrees right) (spec : TypeSpec) :
    left.resolve? spec = right.resolve? spec := by
  cases spec with
  | record name => rw [resolve?, resolve?, type?, type?, agrees.types]
  | _ => rfl

end Agrees

theorem define_agrees {table after : SymbolTable} {entry : SymbolEntry} {shared : Bool}
    (defined : table.define entry shared = .ok after) : after.Agrees table := by
  unfold define at defined
  grind [Agrees]

theorem retype_agrees (table : SymbolTable) (name : String) (ty : Ty) :
    (table.retype name ty).Agrees table := by
  unfold retype
  grind [Agrees]

end SymbolTable

namespace Check

/-- Diagnostics stay, and a check that reports none relates the names before, its result and the
names after. -/
def Follows {α : Type} (relation : SymbolTable → α → SymbolTable → Prop) (check : Check α) : Prop :=
  ∀ state, state.diagnostics <:+ (check.run state).2.diagnostics ∧
    ((check.run state).2.diagnostics = state.diagnostics →
      relation state.symbols (check.run state).1 (check.run state).2.symbols)

/-- From good names, a check that reports nothing has such a result, and the names are still good. -/
def Maintains {α : Type} (good : SymbolTable → Prop) (holds : α → Prop) (check : Check α) : Prop :=
  Follows (fun before result after => good before → good after ∧ holds result) check

/-- From names that agree with a table, a check that reports nothing has such a result, and the names
still agree. -/
abbrev Ensures {α : Type} (table : SymbolTable) (holds : α → Prop) (check : Check α) : Prop :=
  Maintains (·.Agrees table) holds check

section Rules

variable {α β : Type}

theorem follows_weaken {strong weak : SymbolTable → α → SymbolTable → Prop} {check : Check α}
    (follows : Follows strong check)
    (weaken : ∀ before result after, strong before result after → weak before result after) :
    Follows weak check :=
  fun state => ⟨(follows state).1, fun quiet => weaken _ _ _ ((follows state).2 quiet)⟩

theorem follows_unit (result : α) :
    Follows (fun before found after => found = result ∧ after = before) (pure result) :=
  fun _ => ⟨List.suffix_refl _, fun _ => ⟨rfl, rfl⟩⟩

theorem follows_seq {first : Check α} {next : α → Check β}
    {early : SymbolTable → α → SymbolTable → Prop}
    {late : α → SymbolTable → β → SymbolTable → Prop} (followsFirst : Follows early first)
    (followsNext : ∀ value, Follows (late value) (next value)) :
    Follows (fun before result after => ∃ value between,
      early before value between ∧ late value between result after) (first >>= next) := by
  intro state
  have start := followsFirst state
  have rest := followsNext (first.run state).1 (first.run state).2
  have unfolded : (first >>= next).run state = (next (first.run state).1).run (first.run state).2 := rfl
  rw [unfolded]
  refine ⟨start.1.trans rest.1, fun quiet => ?_⟩
  -- nothing reported in both parts together is nothing reported in each
  have same : (first.run state).2.diagnostics = state.diagnostics :=
    (start.1.eq_of_length_le (quiet ▸ rest.1).length_le).symm
  exact ⟨_, _, start.2 same, rest.2 (quiet.trans same.symm)⟩

theorem follows_report {relation : SymbolTable → Unit → SymbolTable → Prop} (kind : DiagnosticKind)
    (locus : Locus) : Follows relation (report kind locus) :=
  fun _ => ⟨List.suffix_cons _ _, fun quiet => absurd quiet (List.cons_ne_self _ _)⟩

theorem follows_symbols : Follows (fun before found after => found = before ∧ after = before) symbols :=
  fun _ => ⟨List.suffix_refl _, fun _ => ⟨rfl, rfl⟩⟩

theorem follows_read {relation : SymbolTable → β → SymbolTable → Prop} {next : SymbolTable → Check β}
    (follows : ∀ found, Follows (fun before result after => found = before →
      relation before result after) (next found)) :
    Follows relation (symbols >>= next) := by
  refine follows_weaken (follows_seq follows_symbols follows) ?_
  rintro before result after ⟨found, between, ⟨rfl, rfl⟩, further⟩
  exact further rfl

theorem follows_set (changed : SymbolTable) :
    Follows (fun _ _ after => after = changed) (setSymbols changed) :=
  fun _ => ⟨List.suffix_refl _, fun _ => rfl⟩

theorem follows_modify (change : SymbolTable → SymbolTable) :
    Follows (fun before _ after => after = change before)
      (modify fun state => { state with symbols := change state.symbols } : Check Unit) :=
  fun _ => ⟨List.suffix_refl _, fun _ => rfl⟩

variable {good : SymbolTable → Prop} {holds : α → Prop} {final : β → Prop}

theorem ensures_unit {result : α} (holdsResult : holds result) : Maintains good holds (pure result) :=
  follows_weaken (follows_unit result) fun _ _ _ same isGood => by
    rw [same.1, same.2]
    exact ⟨isGood, holdsResult⟩

theorem ensures_weaken {weaker : α → Prop} {check : Check α} (ensures : Maintains good holds check)
    (weaken : ∀ result, holds result → weaker result) : Maintains good weaker check :=
  follows_weaken ensures fun _ result _ found isGood =>
    ⟨(found isGood).1, weaken result (found isGood).2⟩

theorem ensures_seq {first : Check α} {next : α → Check β} (ensuresFirst : Maintains good holds first)
    (ensuresNext : ∀ value, Maintains good (fun result => holds value → final result) (next value)) :
    Maintains good final (first >>= next) := by
  refine follows_weaken (follows_seq ensuresFirst ensuresNext) ?_
  rintro before result after ⟨value, between, early, late⟩ isGood
  obtain ⟨goodBetween, holdsValue⟩ := early isGood
  exact ⟨(late goodBetween).1, (late goodBetween).2 holdsValue⟩

theorem ensures_symbols : Maintains good good symbols :=
  follows_weaken follows_symbols fun _ _ _ same isGood => by
    rw [same.1, same.2]
    exact ⟨isGood, isGood⟩

theorem ensures_report (kind : DiagnosticKind) (locus : Locus) :
    Maintains good (fun _ => False) (report kind locus) := follows_report kind locus

theorem ensures_refused {anything : β → Prop} {next : Unit → Check β} (kind : DiagnosticKind)
    (locus : Locus) (ensures : Maintains good anything (next ())) :
    Maintains good final (report kind locus >>= next) :=
  ensures_seq (ensures_report kind locus) fun _ =>
    ensures_weaken ensures fun _ _ impossible => False.elim impossible

theorem ensures_reporting (kind : DiagnosticKind) (locus : Locus) (result : α) :
    Maintains good holds (do report kind locus; return result) :=
  have made : Maintains good (fun _ => True) (pure result) := ensures_unit trivial
  ensures_refused kind locus made

theorem ensures_branch {condition : Prop} [Decidable condition] {accepted refused : Check α}
    (ensures : Maintains good (fun result => condition → holds result) accepted)
    (otherwise : Maintains good (fun result => ¬condition → holds result) refused) :
    Maintains good holds (if condition then accepted else refused) := by
  split
  · next yes => exact ensures_weaken ensures fun _ found => found yes
  · next no => exact ensures_weaken otherwise fun _ found => found no

theorem ensures_report_if (condition : Prop) [Decidable condition] (kind : DiagnosticKind)
    (locus : Locus) :
    Maintains good (fun _ => ¬condition) (if condition then report kind locus else pure ()) :=
  ensures_branch (ensures_weaken (ensures_report kind locus) fun _ impossible => impossible.elim)
    (ensures_unit id)

theorem ensures_unless {condition : Prop} [Decidable condition] {next : Unit → Check β}
    {kind : DiagnosticKind} {locus : Locus}
    (ensures : Maintains good (fun result => ¬condition → final result) (next ())) :
    Maintains good final (if condition then report kind locus >>= next else next ()) := by
  split
  · exact ensures_refused _ _ ensures
  · next no => exact ensures_weaken ensures fun _ found => found no

theorem ensures_map {items : List α} {check : α → Check β}
    (each : ∀ item ∈ items, Maintains good final (check item)) :
    Maintains good (fun found => found.length = items.length ∧ ∀ value ∈ found, final value)
      (items.mapM check) := by
  induction items with
  | nil => exact ensures_unit ⟨rfl, fun _ inside => nomatch inside⟩
  | cons head tail ih =>
    rw [List.mapM_cons]
    refine ensures_seq (each head List.mem_cons_self) fun first =>
      ensures_seq (ih fun item inside => each item (List.mem_cons_of_mem _ inside)) fun rest =>
        ensures_unit fun restHolds firstHolds => ?_
    exact ⟨by simp [restHolds.1], List.forall_mem_cons.mpr ⟨firstHolds, restHolds.2⟩⟩

theorem ensures_each {items : List α} {check : α → Check Unit} {holds : α → Prop}
    (each : ∀ item ∈ items, Maintains good (fun _ => holds item) (check item)) :
    Maintains good (fun _ => ∀ item ∈ items, holds item) (items.forM check) := by
  induction items with
  | nil => exact ensures_unit fun _ inside => nomatch inside
  | cons head tail ih =>
    refine ensures_seq (each head List.mem_cons_self) fun _ => ?_
    refine ensures_weaken (ih fun item inside => each item (List.mem_cons_of_mem _ inside)) ?_
    exact fun _ rest first => List.forall_mem_cons.mpr ⟨first, rest⟩

theorem ensures_option {item : Option α} {check : α → Check β}
    (each : ∀ value ∈ item, Maintains good final (check value)) :
    Maintains good (fun found => ∀ value ∈ found, final value) (option check item) := by
  cases item with
  | none => exact ensures_unit fun _ inside => nomatch inside
  | some value =>
    exact ensures_seq (each value rfl) fun found => ensures_unit fun holds => by simpa using holds

end Rules

end Check

end BasicLang
