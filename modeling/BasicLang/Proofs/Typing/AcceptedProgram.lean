import BasicLang.Proofs.Table
import BasicLang.Proofs.Typing.AcceptedStmt

set_option autoImplicit false

namespace BasicLang

structure ProcedureEntry.Describes (entry : ProcedureEntry) (routine : Routine) : Prop where
  kind : entry.kind = routine.kind
  params : entry.params.map Prod.fst = routine.params.map Parameter.name
  returns : entry.returns.isSome = true ↔ routine.kind = .function
  isDefined : entry.isDefined = true

def Routine.context (routine : Routine) (registry : Registry) : CheckContext :=
  { registry, routine := routine.name, kind := routine.kind, loops := [], depth := 0 }

structure SymbolTable.Defines (symbols : SymbolTable) (procedures : List Routine) : Prop where
  described : ∀ routine ∈ procedures, ∃ entry, symbols.procedure? routine.name = some entry ∧
    entry.Describes routine
  defined : ∀ name entry, symbols.procedure? name = some entry → entry.isDefined = true →
    ∃ routine ∈ procedures, routine.name = name
  distinct : (procedures.map Routine.name).Nodup

structure SymbolTable.Places (symbols : SymbolTable) (labels : List (String × String)) : Prop where
  labelled : ∀ name routine, symbols.HasLabel routine name ↔ (routine, name) ∈ labels
  distinct : (labels.map Prod.snd).Nodup

def Routine.heading (routine : Routine) : Routine := { routine with body := .nil }

theorem Routine.same_heading {left right : Routine} (same : left.heading = right.heading) :
    left.kind = right.kind ∧ left.name = right.name ∧ left.params = right.params :=
  ⟨(congrArg Routine.kind same :), (congrArg Routine.name same :), (congrArg Routine.params same :)⟩

def Routine.labels (routine : Routine) : List (String × String) :=
  routine.body.labels.map fun name => (routine.name, name)

structure Program.Accepted (program : Program) (symbols : SymbolTable) (registry : Registry) :
    Prop where
  defines : symbols.Defines program.procedures
  places : symbols.Places (program.routines.flatMap Routine.labels)
  bodies : ∀ routine ∈ program.routines, routine.body.Accepted symbols (routine.context registry)
  procedures : ∀ routine ∈ program.procedures, routine.kind ≠ .main ∧ SourceName routine.name
  params : ∀ routine ∈ program.procedures, ∀ param ∈ routine.params, SourceName param.name

namespace Check

variable {α : Type}

def Steps (step : α → SymbolTable → SymbolTable → Prop) :
    List α → SymbolTable → SymbolTable → Prop
  | [], before, after => after = before
  | head :: tail, before, after => ∃ between, step head before between ∧ Steps step tail between after

theorem follows_steps {step : α → SymbolTable → SymbolTable → Prop} {items : List α}
    {check : α → Check Unit}
    (each : ∀ item ∈ items, Follows (fun before _ after => step item before after) (check item)) :
    Follows (fun before _ after => Steps step items before after) (items.forM check) := by
  induction items with
  | nil => exact follows_weaken (follows_unit ()) fun _ _ _ same => same.2
  | cons head tail ih =>
    refine follows_weaken (follows_seq (each head List.mem_cons_self) fun _ =>
      ih fun item inside => each item (List.mem_cons_of_mem _ inside)) ?_
    rintro before _ after ⟨_, between, first, rest⟩
    exact ⟨between, first, rest⟩

theorem steps_keep {step : α → SymbolTable → SymbolTable → Prop} (holds : SymbolTable → Prop)
    (each : ∀ item before after, step item before after → holds before → holds after)
    {items : List α} {before after : SymbolTable} (steps : Steps step items before after)
    (start : holds before) : holds after := by
  induction items generalizing before with
  | nil =>
    obtain rfl := steps
    exact start
  | cons head tail ih =>
    obtain ⟨between, first, rest⟩ := steps
    exact ih rest (each head before between first start)

theorem follows_of_ensures {holds : SymbolTable → α → Prop} {check : Check α}
    (ensures : ∀ table, Ensures table (holds table) check) :
    Follows (fun before result after => after.Agrees before ∧ holds after result) check := by
  intro state
  have found := ensures state.symbols state
  refine ⟨found.1, fun quiet => ?_⟩
  have agrees := (found.2 quiet (.refl _)).1
  exact ⟨agrees, ((ensures _ state).2 quiet agrees.symm).2⟩

section Declarations

def KeepsProcedures (before after : SymbolTable) : Prop :=
  after.procedures = before.procedures ∧ after.labels = before.labels

theorem letters_keep (ranges : List (Char × Char)) (ty : Ty) (symbols : SymbolTable) :
    KeepsProcedures symbols
      (ranges.foldl (fun table (first, last) => table.setLetterType first last ty) symbols) := by
  induction ranges generalizing symbols with
  | nil => exact ⟨rfl, rfl⟩
  | cons head tail ih =>
    have rest := ih (symbols.setLetterType head.1 head.2 ty)
    exact ⟨rest.1, rest.2⟩

theorem follows_enter_type (name : String) (members : List (String × Ty)) (locus : Locus) :
    Follows (fun before (_ : Unit) after => KeepsProcedures before after) (do
      match (← symbols).defineType { name, members := .ofList members, locus } with
      | .ok table => setSymbols table
      | .error existing => report (.duplicateType name existing.locus) locus) := by
  refine follows_read fun found => ?_
  split
  · next changed defined =>
    refine follows_weaken (follows_set changed) ?_
    rintro before _ after rfl rfl
    unfold SymbolTable.defineType at defined
    split at defined
    · cases defined
    · cases defined
      exact ⟨rfl, rfl⟩
  · exact follows_report _ _

theorem follows_declare_types (locus : Locus) (stmt : Stmt) :
    Follows (fun before _ after => KeepsProcedures before after) (declareTypes locus stmt) := by
  have unchanged : Follows (fun before (_ : Unit) after => KeepsProcedures before after) (pure ()) :=
    follows_weaken (follows_unit ()) fun _ _ _ same => by rw [same.2]; exact ⟨rfl, rfl⟩
  unfold declareTypes
  split
  · next spec ranges =>
    refine follows_read fun found => ?_
    split
    · next ty _ =>
      refine follows_weaken (follows_modify fun symbols =>
        ranges.foldl (fun table (first, last) => table.setLetterType first last ty) symbols) ?_
      rintro before _ _ rfl _
      exact letters_keep _ _ _
    · exact follows_weaken unchanged fun _ _ _ kept _ => kept
  · next name members =>
    have resolved (member : TypeMember) : ∀ table, Ensures table (fun _ => True) (do
        return (member.name, ← resolve member.typeSpec member.locus)) := fun _ =>
      ensures_seq (ensures_resolve _ _) fun _ => ensures_unit fun _ => trivial
    refine follows_weaken (follows_seq (follows_of_ensures fun table =>
      ensures_map fun member _ => resolved member table) fun members => follows_enter_type name members locus) ?_
    rintro before _ after ⟨_, between, ⟨agrees, -⟩, kept⟩
    exact ⟨kept.1.trans agrees.procedures, kept.2.trans agrees.labels⟩
  · exact unchanged

theorem ensures_procedure_entry {table : SymbolTable} (kind : RoutineKind) (name : String)
    (params : List Parameter) (returns : Option TypeSpec) (locus : Locus) (isDefined : Bool) :
    Ensures table (fun entry => entry.name = name ∧ entry.kind = kind ∧
      entry.params.map Prod.fst = params.map Parameter.name ∧
      (entry.returns.isSome = true ↔ kind = .function) ∧ entry.isDefined = isDefined)
      (procedureEntry kind name params returns locus isDefined) := by
  have named : Ensures table (fun found : List (String × Ty) =>
      found.map Prod.fst = params.map Parameter.name) (params.mapM fun param => do
        let element ← resolveOr param.typeSpec param.name param.locus
        return (param.name, if param.isArray then .array element 0 else element)) := by
    induction params with
    | nil => exact ensures_unit rfl
    | cons head tail ih =>
      rw [List.mapM_cons, bind_assoc]
      refine ensures_seq (ensures_resolve_or _ _ _) fun element => ?_
      rw [pure_bind]
      exact ensures_seq ih fun others => ensures_unit fun same _ => by simp [same]
  refine ensures_seq named fun found => ?_
  dsimp only
  split
  · next isFunction =>
    exact ensures_seq (ensures_resolve_or _ _ _) fun _ => ensures_unit fun _ same =>
      ⟨rfl, rfl, same, by simp [isFunction], rfl⟩
  · next isSub => exact ensures_unit fun same => ⟨rfl, rfl, same, by simp [isSub], rfl⟩

def DefinesRoutine (routine : Routine) (before after : SymbolTable) : Prop :=
  ∃ entry : ProcedureEntry, entry.Describes routine ∧ before.procedure? routine.name = none ∧
    after.procedures = before.procedures.set routine.name entry ∧ after.labels = before.labels

def DeclaresRoutine (before after : SymbolTable) : Prop :=
  after.labels = before.labels ∧ (after.procedures = before.procedures ∨
    ∃ entry : ProcedureEntry, entry.isDefined = false ∧ before.procedure? entry.name = none ∧
      after.procedures = before.procedures.set entry.name entry)

theorem define_procedure_cases {before after : SymbolTable} {entry : ProcedureEntry}
    (defined : before.defineProcedure entry = .ok after) :
    before.procedure? entry.name = none ∧
      after = { before with procedures := before.procedures.set entry.name entry } := by
  unfold SymbolTable.defineProcedure at defined
  split at defined
  · cases defined
  · next absent => exact ⟨absent, (Except.ok.inj defined).symm⟩

theorem follows_enter_definition (routine : Routine) (entry : ProcedureEntry) :
    Follows (fun before (_ : Unit) after => entry.name = routine.name → entry.Describes routine →
      DefinesRoutine routine before after) (do
      match (← symbols).defineProcedure entry with
      | .ok table => setSymbols table
      | .error existing => report (.duplicateProcedure routine.name existing.locus) routine.locus) := by
  refine follows_read fun found => ?_
  split
  · next changed defined =>
    refine follows_weaken (follows_set changed) ?_
    rintro before _ after rfl rfl named describes
    obtain ⟨absent, rfl⟩ := define_procedure_cases defined
    rw [named] at absent
    exact ⟨entry, describes, absent, by rw [named], rfl⟩
  · exact follows_report _ _

theorem follows_declare_routine (routine : Routine) :
    Follows (fun before _ after => DefinesRoutine routine before after) (declareRoutine routine) := by
  refine follows_weaken (follows_seq (follows_of_ensures fun table =>
    ensures_procedure_entry _ _ _ _ _ _) (follows_enter_definition routine)) ?_
  rintro before _ after ⟨entry, between, ⟨agrees, named, kind, params, returns, isDefined⟩, defines⟩
  obtain ⟨stored, describes, absent, procedures, labels⟩ :=
    defines named ⟨kind, params, returns, isDefined⟩
  rw [agrees.procedures] at procedures
  exact ⟨stored, describes, (agrees.procedure _).symm.trans absent, procedures,
    labels.trans agrees.labels⟩

theorem follows_declares_nothing :
    Follows (fun before (_ : Unit) after => DeclaresRoutine before after) (pure ()) :=
  follows_weaken (follows_unit ()) fun _ _ _ same => by rw [same.2]; exact ⟨rfl, .inl rfl⟩

theorem follows_enter_declaration (entry : ProcedureEntry) (name : String) (locus : Locus) :
    Follows (fun before (_ : Unit) after => entry.isDefined = false →
      DeclaresRoutine before after) (do
      match (← symbols).defineProcedure entry with
      | .ok table => setSymbols table
      | .error defined =>
        match entry.mismatch? defined with
        | some mismatch => report (.declarationMismatch name mismatch) locus
        | none => return) := by
  refine follows_read fun found => ?_
  split
  · next changed defined =>
    refine follows_weaken (follows_set changed) ?_
    rintro before _ after rfl rfl isDeclared
    obtain ⟨absent, rfl⟩ := define_procedure_cases defined
    exact ⟨rfl, .inr ⟨entry, isDeclared, absent, rfl⟩⟩
  · split
    · exact follows_report _ _
    · exact follows_weaken follows_declares_nothing fun _ _ _ kept _ _ => kept

theorem follows_declare_procedure (locus : Locus) (stmt : Stmt) :
    Follows (fun before _ after => DeclaresRoutine before after) (declareProcedure locus stmt) := by
  unfold declareProcedure
  split
  · next kind name params returns =>
    refine follows_weaken (follows_seq (follows_of_ensures fun table =>
      ensures_procedure_entry _ _ _ _ _ _) fun entry => follows_enter_declaration entry name locus) ?_
    rintro before _ after ⟨entry, between, ⟨agrees, -, -, -, -, isDeclared⟩, declares⟩
    obtain ⟨labels, kept | ⟨stored, isOnly, absent, procedures⟩⟩ := declares isDeclared
    · exact ⟨labels.trans agrees.labels, .inl (kept.trans agrees.procedures)⟩
    · rw [agrees.procedures] at procedures
      exact ⟨labels.trans agrees.labels,
        .inr ⟨stored, isOnly, (agrees.procedure _).symm.trans absent, procedures⟩⟩
  · exact follows_declares_nothing

def AddsLabels (routine : String) (names : List String) (before after : SymbolTable) : Prop :=
  after.procedures = before.procedures ∧ names.Nodup ∧
    (∀ name ∈ names, before.label? name = none) ∧
    ∀ name owner, after.HasLabel owner name ↔
      before.HasLabel owner name ∨ (owner = routine ∧ name ∈ names)

theorem adds_nothing (routine : String) (symbols : SymbolTable) :
    AddsLabels routine [] symbols symbols :=
  ⟨rfl, .nil, fun _ inside => (nomatch inside), by simp⟩

theorem label_absent_iff (symbols : SymbolTable) (name : String) :
    symbols.label? name = none ↔ ∀ owner, ¬symbols.HasLabel owner name := by
  constructor
  · rintro absent owner ⟨label, found, -⟩
    rw [absent] at found
    cases found
  · intro nowhere
    cases found : symbols.label? name with
    | none => rfl
    | some label => exact absurd ⟨label, found, rfl⟩ (nowhere label.routine)

theorem define_label_adds {before after : SymbolTable} {name routine : String} {locus : Locus}
    (defined : before.defineLabel { name, locus, routine } = .ok after) :
    AddsLabels routine [name] before after := by
  unfold SymbolTable.defineLabel at defined
  split at defined
  · cases defined
  · next absent =>
    cases defined
    have nowhere : before.label? name = none := absent
    refine ⟨rfl, by simp, by simpa using nowhere, fun other owner => ?_⟩
    unfold SymbolTable.HasLabel SymbolTable.label?
    rw [Table.get_set]
    split
    · next same =>
      subst same
      simp only [Option.some.injEq, exists_eq_left', List.mem_singleton, and_true]
      simp [show before.labels.get? other = none from absent, eq_comm]
    · next different => simp [different]

theorem adds_append {routine : String} {first second : List String}
    {before between after : SymbolTable} (early : AddsLabels routine first before between)
    (late : AddsLabels routine second between after) :
    AddsLabels routine (first ++ second) before after := by
  obtain ⟨procedures, firstDistinct, firstNew, firstAdded⟩ := early
  obtain ⟨laterProcedures, secondDistinct, secondNew, secondAdded⟩ := late
  refine ⟨laterProcedures.trans procedures, ?_, ?_, ?_⟩
  · refine List.nodup_append.mpr ⟨firstDistinct, secondDistinct, ?_⟩
    rintro name inFirst _ inSecond rfl
    have there := (firstAdded name routine).mpr (.inr ⟨rfl, inFirst⟩)
    exact (label_absent_iff between name).mp (secondNew name inSecond) routine there
  · refine List.forall_mem_append.mpr ⟨firstNew, fun name inside => ?_⟩
    refine (label_absent_iff before name).mpr fun owner there => ?_
    have still := (firstAdded name owner).mpr (.inl there)
    exact (label_absent_iff between name).mp (secondNew name inside) owner still
  · intro name owner
    rw [secondAdded, firstAdded, List.mem_append, or_assoc, and_or_left]

mutual

theorem follows_stmt_labels (routine : String) (locus : Locus) (stmt : Stmt) :
    Follows (fun before _ after => AddsLabels routine stmt.labels before after)
      (stmtLabels routine locus stmt) := by
  have unchanged : Follows (fun before (_ : Unit) after => AddsLabels routine [] before after)
      (pure ()) :=
    follows_weaken (follows_unit ()) fun _ _ _ same => same.2 ▸ adds_nothing routine _
  cases stmt with
  | label name =>
    refine follows_read fun found => ?_
    split
    · next changed defined =>
      refine follows_weaken (follows_set changed) ?_
      rintro before _ after rfl rfl
      exact define_label_adds defined
    · exact follows_report _ _
  | cond branches => exact follows_arms_labels routine branches
  | select test clauses => exact follows_cases_labels routine clauses
  | forLoop counter first last step body next => exact follows_block_labels routine body
  | whileLoop condition body => exact follows_block_labels routine body
  | doLoop before body after => exact follows_block_labels routine body
  | _ => exact unchanged

theorem follows_block_labels (routine : String) (block : Block) :
    Follows (fun before _ after => AddsLabels routine block.labels before after)
      (blockLabels routine block) := by
  cases block with
  | nil => exact follows_weaken (follows_unit ()) fun _ _ _ same => same.2 ▸ adds_nothing routine _
  | cons locus head tail =>
    refine follows_weaken (follows_seq (follows_stmt_labels routine locus head) fun _ =>
      follows_block_labels routine tail) ?_
    rintro before _ after ⟨_, between, early, late⟩
    exact adds_append early late

theorem follows_arms_labels (routine : String) (branches : Arms) :
    Follows (fun before _ after => AddsLabels routine branches.labels before after)
      (armsLabels routine branches) := by
  cases branches with
  | none => exact follows_weaken (follows_unit ()) fun _ _ _ same => same.2 ▸ adds_nothing routine _
  | otherwise body => exact follows_block_labels routine body
  | arm condition body rest =>
    refine follows_weaken (follows_seq (follows_block_labels routine body) fun _ =>
      follows_arms_labels routine rest) ?_
    rintro before _ after ⟨_, between, early, late⟩
    exact adds_append early late

theorem follows_cases_labels (routine : String) (clauses : Cases) :
    Follows (fun before _ after => AddsLabels routine clauses.labels before after)
      (casesLabels routine clauses) := by
  cases clauses with
  | none => exact follows_weaken (follows_unit ()) fun _ _ _ same => same.2 ▸ adds_nothing routine _
  | otherwise body => exact follows_block_labels routine body
  | clause locus patterns body rest =>
    refine follows_weaken (follows_seq (follows_block_labels routine body) fun _ =>
      follows_cases_labels routine rest) ?_
    rintro before _ after ⟨_, between, early, late⟩
    exact adds_append early late

end

theorem steps_define {routines : List Routine} {before after : SymbolTable}
    (steps : Steps DefinesRoutine routines before after) (done : List Routine)
    (defines : before.Defines done) : after.Defines (done ++ routines) := by
  induction routines generalizing before done with
  | nil =>
    obtain rfl := steps
    simpa using defines
  | cons head tail ih =>
    obtain ⟨between, ⟨entry, describes, absent, procedures, -⟩, rest⟩ := steps
    have entries (name : String) : between.procedure? name =
        if name = head.name then some entry else before.procedure? name := by
      rw [SymbolTable.procedure?, procedures, Table.get_set, SymbolTable.procedure?]
    have others (routine : Routine) (inside : routine ∈ done) : routine.name ≠ head.name := by
      intro same
      obtain ⟨other, found, -⟩ := defines.described routine inside
      rw [same, absent] at found
      cases found
    have further : between.Defines (done ++ [head]) :=
      { described := by
          refine List.forall_mem_append.mpr ⟨fun routine inside => ?_, by simp [entries, describes]⟩
          rw [entries, if_neg (others routine inside)]
          exact defines.described routine inside
        defined := by
          intro name other found isDefined
          rw [entries] at found
          split at found
          · next same => exact ⟨head, by simp, same.symm⟩
          · obtain ⟨routine, inside, named⟩ := defines.defined name other found isDefined
            exact ⟨routine, by simp [inside], named⟩
        distinct := by
          rw [List.map_append, List.nodup_append]
          refine ⟨defines.distinct, by simp, ?_⟩
          simpa using others }
    simpa using ih rest (done ++ [head]) further

theorem declares_keeps {before after : SymbolTable} {procedures : List Routine}
    (declares : DeclaresRoutine before after) (defines : before.Defines procedures) :
    after.Defines procedures := by
  obtain ⟨-, same | ⟨entry, isDeclared, absent, changed⟩⟩ := declares
  · have entries (name : String) : after.procedure? name = before.procedure? name := by
      rw [SymbolTable.procedure?, same, SymbolTable.procedure?]
    exact
      { described := fun routine inside => by rw [entries]; exact defines.described routine inside
        defined := fun name found => by rw [entries]; exact defines.defined name found
        distinct := defines.distinct }
  · have entries (name : String) : after.procedure? name =
        if name = entry.name then some entry else before.procedure? name := by
      rw [SymbolTable.procedure?, changed, Table.get_set, SymbolTable.procedure?]
    refine
      { described := fun routine inside => ?_
        defined := fun name other found isDefined => ?_
        distinct := defines.distinct }
    · obtain ⟨other, found, describes⟩ := defines.described routine inside
      have different : routine.name ≠ entry.name := by
        intro same
        rw [same, absent] at found
        cases found
      exact ⟨other, by rw [entries, if_neg different, found], describes⟩
    · rw [entries] at found
      split at found
      · rw [← Option.some.inj found, isDeclared] at isDefined
        cases isDefined
      · exact defines.defined name other found isDefined

theorem steps_place {routines : List Routine} {before after : SymbolTable}
    (steps : Steps (fun routine => AddsLabels routine.name routine.body.labels) routines before after)
    (done : List (String × String)) (places : before.Places done) :
    after.Places (done ++ routines.flatMap Routine.labels) := by
  induction routines generalizing before done with
  | nil =>
    obtain rfl := steps
    simpa using places
  | cons head tail ih =>
    obtain ⟨between, ⟨-, distinct, fresh, added⟩, rest⟩ := steps
    have further : between.Places (done ++ head.labels) :=
      { labelled := by
          intro name routine
          rw [added, places.labelled, List.mem_append, Routine.labels, List.mem_map]
          simp only [Prod.mk.injEq]
          constructor
          · rintro (old | ⟨rfl, inside⟩)
            · exact .inl old
            · exact .inr ⟨name, inside, rfl, rfl⟩
          · rintro (old | ⟨_, inside, rfl, rfl⟩)
            · exact .inl old
            · exact .inr ⟨rfl, inside⟩
        distinct := by
          rw [List.map_append, List.nodup_append, Routine.labels, List.map_map]
          refine ⟨places.distinct, by simpa [Function.comp_def] using distinct, ?_⟩
          rintro name inDone other inHead rfl
          obtain ⟨⟨owner, _⟩, inside, rfl⟩ := List.mem_map.mp inDone
          have there := (places.labelled _ owner).mpr inside
          exact (label_absent_iff before _).mp (fresh _ (by simpa using inHead)) owner there }
    simpa [List.append_assoc] using ih rest (done ++ head.labels) further

theorem follows_declarations (program : Program) :
    Follows (fun before _ after => before.procedures = [] → before.labels = [] →
      after.Defines program.procedures ∧
        after.Places (program.routines.flatMap Routine.labels)) (declarations program) := by
  refine follows_weaken (follows_seq (follows_steps fun item _ => follows_declare_types item.1 item.2)
    fun _ => follows_seq (follows_steps fun routine _ => follows_declare_routine routine) fun _ =>
      follows_seq (follows_steps fun item _ => follows_declare_procedure item.1 item.2) fun _ =>
        follows_steps fun routine _ => follows_block_labels routine.name routine.body) ?_
  rintro before _ after ⟨_, typed, types, _, defined, routines, _, declared, declarations, labels⟩
    noProcedures noLabels
  obtain ⟨noneTyped, typedLabels⟩ := steps_keep (fun table => table.procedures = [] ∧ table.labels = [])
    (fun _ _ _ kept start => ⟨kept.1.trans start.1, kept.2.trans start.2⟩) types
    ⟨noProcedures, noLabels⟩
  have definedLabels : defined.labels = [] := steps_keep (fun table => table.labels = [])
    (fun _ _ _ ⟨_, _, _, _, kept⟩ start => kept.trans start) routines typedLabels
  have declaredLabels : declared.labels = [] := steps_keep (fun table => table.labels = [])
    (fun _ _ _ kept start => kept.1.trans start) declarations definedLabels
  have noneDefined : typed.Defines [] :=
    { described := fun _ inside => nomatch inside
      defined := fun name entry found => by
        rw [SymbolTable.procedure?, noneTyped] at found
        cases found
      distinct := .nil }
  have defines : declared.Defines program.procedures :=
    steps_keep (fun table => table.Defines program.procedures)
      (fun _ _ _ kept start => declares_keeps kept start) declarations
      (steps_define routines [] noneDefined)
  have nonePlaced : declared.Places [] :=
    { labelled := fun name routine => by
        simp [SymbolTable.HasLabel, SymbolTable.label?, declaredLabels, Table.get_nil]
      distinct := .nil }
  have sameProcedures : after.procedures = declared.procedures :=
    steps_keep (fun table => table.procedures = declared.procedures)
      (fun _ _ _ added start => added.1.trans start) labels rfl
  have entries (name : String) : after.procedure? name = declared.procedure? name := by
    rw [SymbolTable.procedure?, sameProcedures, SymbolTable.procedure?]
  refine ⟨?_, steps_place labels [] nonePlaced⟩
  exact
    { described := fun routine inside => by rw [entries]; exact defines.described routine inside
      defined := fun name entry => by rw [entries]; exact defines.defined name entry
      distinct := defines.distinct }

end Declarations

variable {table : SymbolTable}

theorem ensures_scope {change : SymbolTable → SymbolTable}
    (keeps : ∀ symbols : SymbolTable, (change symbols).Agrees symbols) :
    Ensures table (fun _ => True)
      (modify fun state => { state with symbols := change state.symbols } : Check Unit) := by
  refine follows_weaken (follows_modify change) ?_
  rintro before _ _ rfl agrees
  exact ⟨(keeps before).trans agrees, trivial⟩

theorem ensures_parameters (params : List (Parameter × String × Ty)) :
    Ensures table (fun _ => True) (params.forM fun (param, _, ty) =>
      declareLocal param.name .parameter ty param.locus) :=
  ensures_weaken (ensures_each fun _ _ => ensures_declare _ _) fun _ _ => trivial

theorem ensures_routine (registry : Registry) (routine : Routine)
    (wellFormed : routine.body.WellFormed) :
    Ensures table (fun found => found.heading = routine.heading ∧
      found.body.Accepted table (found.context registry) ∧ found.labels = routine.labels)
      (Check.routine registry routine) := by
  have rest : Ensures table (fun found : Routine => found.heading = routine.heading ∧
      found.body.Accepted table (found.context registry) ∧ found.labels = routine.labels) (do
      let body ← block (routine.context registry) routine.body
      modify fun state => { state with symbols := state.symbols.exitScope }
      return { routine with body }) :=
    ensures_seq (ensures_block _ _ wellFormed) fun _ =>
      ensures_seq (ensures_scope fun symbols => ⟨rfl, rfl, rfl, rfl⟩) fun _ =>
        ensures_unit fun _ accepted => ⟨rfl, accepted.1, by simp only [Routine.labels, accepted.2]⟩
  refine ensures_seq (ensures_scope fun symbols => ⟨rfl, rfl, rfl, rfl⟩) fun _ =>
    ensures_seq ensures_symbols fun symbols => ?_
  split
  · refine ensures_seq (ensures_parameters _) fun _ => ?_
    split
    · exact ensures_seq (ensures_declare _ _) fun _ =>
        ensures_weaken rest fun _ found _ _ _ _ => found
    · exact ensures_weaken rest fun _ found _ _ _ => found
  · exact ensures_weaken rest fun _ found _ _ => found

theorem ensures_routines (registry : Registry) (routines : List Routine)
    (wellFormed : ∀ routine ∈ routines, routine.body.WellFormed) :
    Ensures table (fun found => found.map Routine.heading = routines.map Routine.heading ∧
      found.flatMap Routine.labels = routines.flatMap Routine.labels ∧
      ∀ routine ∈ found, routine.body.Accepted table (routine.context registry))
      (routines.mapM (Check.routine registry)) := by
  induction routines with
  | nil => exact ensures_unit ⟨rfl, rfl, fun _ inside => nomatch inside⟩
  | cons head tail ih =>
    rw [List.mapM_cons]
    have restFormed := fun routine inside => wellFormed routine (List.mem_cons_of_mem head inside)
    refine ensures_seq (ensures_routine registry head (wellFormed head List.mem_cons_self)) fun first =>
      ensures_seq (ih restFormed) fun rest => ensures_unit ?_
    rintro ⟨headings, labels, accepted⟩ ⟨heading, bodyAccepted, ownLabels⟩
    exact ⟨by simp [heading, headings], by simp [ownLabels, labels],
      List.forall_mem_cons.mpr ⟨bodyAccepted, accepted⟩⟩

end Check

namespace SymbolTable

variable {symbols : SymbolTable} {procedures found : List Routine}

theorem Defines.of_headings (defines : symbols.Defines procedures)
    (same : found.map Routine.heading = procedures.map Routine.heading) :
    symbols.Defines found := by
  have counterpart {left right : List Routine}
      (headings : left.map Routine.heading = right.map Routine.heading) {routine : Routine}
      (inside : routine ∈ left) : ∃ other ∈ right, other.heading = routine.heading :=
    List.mem_map.mp (headings ▸ List.mem_map_of_mem inside)
  have sameNames : found.map Routine.name = procedures.map Routine.name := by
    have names (routines : List Routine) :
        routines.map Routine.name = (routines.map Routine.heading).map Routine.name := by
      simp [Function.comp_def, Routine.heading]
    rw [names found, same, ← names]
  refine
    { described := fun routine inside => ?_
      defined := fun name entry present isDefined => ?_
      distinct := sameNames ▸ defines.distinct }
  · obtain ⟨other, there, heading⟩ := counterpart same inside
    obtain ⟨entry, present, describes⟩ := defines.described other there
    obtain ⟨sameKind, sameName, sameParams⟩ := Routine.same_heading heading
    refine ⟨entry, sameName ▸ present, ?_⟩
    exact ⟨describes.kind.trans sameKind, sameParams ▸ describes.params,
      sameKind ▸ describes.returns, describes.isDefined⟩
  · obtain ⟨other, there, rfl⟩ := defines.defined name entry present isDefined
    obtain ⟨routine, inside, heading⟩ := counterpart same.symm there
    exact ⟨routine, inside, (Routine.same_heading heading).2.1⟩

theorem Agrees.defines {other : SymbolTable} (agrees : symbols.Agrees other)
    (defines : other.Defines procedures) : symbols.Defines procedures where
  described := fun routine inside => by rw [agrees.procedure]; exact defines.described routine inside
  defined := fun name entry => by rw [agrees.procedure]; exact defines.defined name entry
  distinct := defines.distinct

theorem Agrees.places {other : SymbolTable} (agrees : symbols.Agrees other)
    {labels : List (String × String)} (places : other.Places labels) : symbols.Places labels where
  labelled := fun name routine => by
    rw [HasLabel, agrees.label]
    exact places.labelled name routine
  distinct := places.distinct

end SymbolTable

namespace Diagnostic

theorem insert_sorted_ne_nil (diagnostic : Diagnostic) (sorted : List Diagnostic) :
    diagnostic.insertSorted sorted ≠ [] := by
  unfold insertSorted
  split
  · exact List.cons_ne_nil _ _
  · split <;> exact List.cons_ne_nil _ _

theorem of_sort_nil {diagnostics : List Diagnostic} (none : sort diagnostics = []) :
    diagnostics = [] := by
  cases diagnostics with
  | nil => rfl
  | cons first rest => exact absurd none (insert_sorted_ne_nil first _)

end Diagnostic

theorem Check.follows_program (registry : Registry) (program : Program)
    (wellFormed : program.WellFormed) :
    Follows (fun before found after => before.procedures = [] → before.labels = [] →
      found.Accepted after registry) (Check.program registry program) := by
  have bodies : Follows (fun before (found : Program) after => after.Agrees before ∧
      (found.procedures.map Routine.heading = program.procedures.map Routine.heading ∧
        found.routines.flatMap Routine.labels = program.routines.flatMap Routine.labels ∧
        ∀ routine ∈ found.routines, routine.body.Accepted after (routine.context registry))) (do
        let main ← routine registry (.main program.main)
        let procedures ← program.procedures.mapM (routine registry)
        return { main := main.body, procedures }) := by
    refine follows_of_ensures fun table =>
      ensures_seq (ensures_routine registry (.main program.main) wellFormed.main) fun main =>
        ensures_seq (ensures_routines registry _ fun routine inside =>
          (wellFormed.procedures routine inside).body) fun procedures => ensures_unit ?_
    rintro ⟨headings, labels, accepted⟩ ⟨heading, mainAccepted, mainLabels⟩
    have asMain : Routine.main main.body = main := by
      cases main
      simp_all [Routine.main, Routine.heading]
    refine ⟨headings, ?_, ?_⟩
    · rw [Program.routines, Program.routines, asMain]
      simp [mainLabels, labels]
    · rw [Program.routines, asMain]
      exact List.forall_mem_cons.mpr ⟨mainAccepted, accepted⟩
  refine follows_weaken (follows_seq (follows_declarations program) fun _ => bodies) ?_
  rintro before found after ⟨_, declared, declarations, agrees, headings, labels, accepted⟩
    noProcedures noLabels
  obtain ⟨defines, places⟩ := declarations noProcedures noLabels
  refine
    { defines := (agrees.defines defines).of_headings headings
      places := labels ▸ agrees.places places
      bodies := accepted
      procedures := fun routine inside => ?_
      params := fun routine inside => ?_ }
  all_goals
    obtain ⟨other, there, heading⟩ :=
      List.mem_map.mp (headings ▸ List.mem_map_of_mem (f := Routine.heading) inside)
    obtain ⟨sameKind, sameName, sameParams⟩ := Routine.same_heading heading
    have formed := wellFormed.procedures other there
  · exact ⟨sameKind ▸ formed.kind, sameName ▸ formed.name⟩
  · exact sameParams ▸ formed.params

theorem Program.check_accepted {program : Program} {registry : Registry}
    (wellFormed : program.WellFormed) (quiet : (program.check registry).diagnostics = []) :
    (program.check registry).program.Accepted (program.check registry).symbols registry := by
  have follows := Check.follows_program registry program wellFormed ⟨.empty, []⟩
  have nothing : ((Check.program registry program).run ⟨.empty, []⟩).2.diagnostics = [] :=
    List.reverse_eq_nil_iff.mp (Diagnostic.of_sort_nil quiet)
  exact follows.2 nothing rfl rfl

end BasicLang
