import BasicLang.Proofs.Typing.AcceptedProgram
import BasicLang.Proofs.Typing.ScopesStmt

set_option autoImplicit false

namespace BasicLang

def Routine.sharedNames (routine : Routine) : List String :=
  routine.body.collect (Stmt.shares (routine.kind == .main))

/-- The names of parameters, of the result and of constants. They are a procedure's own even where
the same names are shared. -/
def Routine.ownNames (routine : Routine) : List String :=
  routine.params.map Parameter.name ++ (if routine.kind = .function then [routine.name] else []) ++
    routine.body.collect (Stmt.owns (routine.kind == .main))

def Program.sharedNames (program : Program) : List String := (Routine.main program.main).sharedNames

theorem Routine.shared_names_procedure {routine : Routine} (isProcedure : routine.kind ≠ .main) :
    routine.sharedNames = [] := by
  rw [sharedNames, beq_eq_false_iff_ne.mpr isProcedure]
  exact Block.collect_nothing Stmt.shares_nothing routine.body

theorem Routine.own_names_main (body : Block) : (Routine.main body).ownNames = [] :=
  Block.collect_nothing Stmt.owns_nothing body

theorem Program.mem_routines_cases {program : Program} (wellFormed : program.WellFormed) {routine : Routine}
    (inside : routine ∈ program.routines) :
    routine = .main program.main ∨ (routine ∈ program.procedures ∧ routine.kind ≠ .main) :=
  (List.mem_cons.mp inside).imp_right fun inProcedures =>
    ⟨inProcedures, (wellFormed.procedures routine inProcedures).kind⟩

theorem Program.shared_names_upto {program : Program} (wellFormed : program.WellFormed) {done rest : List Routine}
    {routine : Routine} (split : program.routines = done ++ routine :: rest) :
    done.flatMap Routine.sharedNames ++ routine.sharedNames = program.sharedNames ∧
      rest.flatMap Routine.sharedNames = [] := by
  have nothing (routines : List Routine) (among : ∀ other ∈ routines, other ∈ program.procedures) :
      routines.flatMap Routine.sharedNames = [] := by
    refine List.flatMap_eq_nil_iff.mpr fun other inside => ?_
    exact Routine.shared_names_procedure (wellFormed.procedures other (among other inside)).kind
  rw [Program.routines] at split
  cases done with
  | nil =>
    obtain ⟨rfl, same⟩ := List.cons.inj split
    exact ⟨rfl, nothing _ fun other inside => same ▸ inside⟩
  | cons first others =>
    obtain ⟨rfl, same⟩ := List.cons.inj split
    have later := nothing (others ++ routine :: rest) fun other inside => same ▸ inside
    simp only [List.flatMap_append, List.flatMap_cons, List.append_eq_nil_iff] at later
    obtain ⟨none, noneHere, noneAfter⟩ := later
    simp [none, noneHere, noneAfter, Program.sharedNames]

namespace Check

variable {α β : Type}

def Keeps {γ : Type} (view : SymbolTable → γ) (check : Check α) : Prop :=
  Follows (fun before _ after => view after = view before) check

section Declarations

variable {γ : Type} {view : SymbolTable → γ}

theorem keeps_unit (result : α) : Keeps view (pure result : Check α) :=
  follows_weaken (follows_unit result) fun _ _ _ same => by rw [same.2]

theorem keeps_seq {first : Check α} {next : α → Check β} (keepsFirst : Keeps view first)
    (keepsNext : ∀ value, Keeps view (next value)) : Keeps view (first >>= next) := by
  refine follows_weaken (follows_seq keepsFirst keepsNext) ?_
  rintro before result after ⟨value, between, early, late⟩
  exact late.trans early

theorem keeps_still {check : Check α} (still : Follows (fun before _ after => after = before) check) :
    Keeps view check := follows_weaken still fun _ _ _ same => by rw [same]

theorem keeps_map {items : List α} {check : α → Check β} (each : ∀ item, Keeps view (check item)) :
    Keeps view (items.mapM check) := by
  induction items with
  | nil => exact keeps_unit []
  | cons head tail ih =>
    rw [List.mapM_cons]
    exact keeps_seq (each head) fun _ => keeps_seq ih fun _ => keeps_unit _

theorem keeps_each {items : List α} {check : α → Check Unit} (each : ∀ item ∈ items, Keeps view (check item)) :
    Keeps view (items.forM check) := by
  induction items with
  | nil => exact keeps_unit ()
  | cons head tail ih =>
    exact keeps_seq (each head List.mem_cons_self) fun _ => ih fun item inside =>
      each item (List.mem_cons_of_mem _ inside)

theorem keeps_set {table changed : SymbolTable} (same : view changed = view table) :
    Follows (fun before _ after => table = before → view after = view before) (setSymbols changed) := by
  refine follows_weaken (follows_set changed) ?_
  rintro before _ _ rfl rfl
  exact same

theorem letters_keep_shared (ranges : List (Char × Char)) (ty : Ty) (table : SymbolTable) :
    (ranges.foldl (fun table (first, last) => table.setLetterType first last ty) table).shared =
      table.shared := by
  induction ranges generalizing table with
  | nil => rfl
  | cons head tail ih => exact ih (table.setLetterType head.1 head.2 ty)

theorem keeps_shared_types (locus : Locus) (stmt : Stmt) :
    Keeps SymbolTable.shared (declareTypes locus stmt) := by
  unfold declareTypes
  split
  · next spec ranges =>
    refine follows_read fun found => ?_
    split
    · next ty _ =>
      refine follows_weaken (follows_modify fun symbols =>
        ranges.foldl (fun table (first, last) => table.setLetterType first last ty) symbols) ?_
      rintro before _ _ rfl _
      exact letters_keep_shared _ _ _
    · exact follows_weaken (keeps_unit ()) fun _ _ _ kept _ => kept
  · next name members =>
    refine keeps_seq (keeps_map fun member => keeps_seq
      (keeps_still (still_resolve _ _)) fun _ => keeps_unit _) fun _ => ?_
    refine follows_read fun table => ?_
    split
    · next after defined =>
      refine keeps_set ?_
      unfold SymbolTable.defineType at defined
      grind
    · exact follows_report _ _
  · exact keeps_unit ()

theorem keeps_entry (kind : RoutineKind) (name : String) (params : List Parameter)
    (returns : Option TypeSpec) (locus : Locus) (isDefined : Bool) :
    Keeps view (procedureEntry kind name params returns locus isDefined) := by
  refine keeps_seq (keeps_map fun param => keeps_seq
    (keeps_still (still_resolve_or _ _ _)) fun _ => keeps_unit _) fun _ => ?_
  dsimp only
  split
  · exact keeps_seq (keeps_still (still_resolve_or _ _ _)) fun _ => keeps_unit _
  · exact keeps_unit _

def Overlooks (view : SymbolTable → γ) : Prop :=
  ∀ left right : SymbolTable, left.shared = right.shared → left.letters = right.letters → view left = view right

theorem keeps_defined_procedure (overlooks : Overlooks view) {table after : SymbolTable} {entry : ProcedureEntry}
    (defined : table.defineProcedure entry = .ok after) : view after = view table := by
  unfold SymbolTable.defineProcedure at defined
  apply overlooks <;> grind

theorem keeps_routine (overlooks : Overlooks view) (routine : Routine) : Keeps view (declareRoutine routine) := by
  refine keeps_seq (keeps_entry _ _ _ _ _ _) fun _ => follows_read fun table => ?_
  split
  · next defined => exact keeps_set (keeps_defined_procedure overlooks defined)
  · exact follows_report _ _

theorem keeps_procedure (overlooks : Overlooks view) (locus : Locus) (stmt : Stmt) :
    Keeps view (declareProcedure locus stmt) := by
  unfold declareProcedure
  split
  · refine keeps_seq (keeps_entry _ _ _ _ _ _) fun entry => follows_read fun table => ?_
    split
    · next defined => exact keeps_set (keeps_defined_procedure overlooks defined)
    · split
      · exact follows_report _ _
      · exact follows_weaken (keeps_unit ()) fun _ _ _ kept _ => kept
  · exact keeps_unit ()

mutual

theorem keeps_stmt_labels (overlooks : Overlooks view) (routine : String) (locus : Locus) (stmt : Stmt) :
    Keeps view (stmtLabels routine locus stmt) := by
  cases stmt with
  | label name =>
    refine follows_read fun table => ?_
    split
    · next after defined =>
      refine keeps_set ?_
      unfold SymbolTable.defineLabel at defined
      apply overlooks <;> grind
    · exact follows_report _ _
  | cond branches => exact keeps_arms_labels overlooks routine branches
  | select test clauses => exact keeps_cases_labels overlooks routine clauses
  | forLoop counter first last step body next => exact keeps_labels overlooks routine body
  | whileLoop condition body => exact keeps_labels overlooks routine body
  | doLoop before body after => exact keeps_labels overlooks routine body
  | _ => exact keeps_unit ()

theorem keeps_labels (overlooks : Overlooks view) (routine : String) (block : Block) :
    Keeps view (blockLabels routine block) := by
  cases block with
  | nil => exact keeps_unit ()
  | cons locus head tail =>
    exact keeps_seq (keeps_stmt_labels overlooks routine locus head) fun _ => keeps_labels overlooks routine tail

theorem keeps_arms_labels (overlooks : Overlooks view) (routine : String) (branches : Arms) :
    Keeps view (armsLabels routine branches) := by
  cases branches with
  | none => exact keeps_unit ()
  | otherwise body => exact keeps_labels overlooks routine body
  | arm condition body rest =>
    exact keeps_seq (keeps_labels overlooks routine body) fun _ => keeps_arms_labels overlooks routine rest

theorem keeps_cases_labels (overlooks : Overlooks view) (routine : String) (clauses : Cases) :
    Keeps view (casesLabels routine clauses) := by
  cases clauses with
  | none => exact keeps_unit ()
  | otherwise body => exact keeps_labels overlooks routine body
  | clause locus patterns body rest =>
    exact keeps_seq (keeps_labels overlooks routine body) fun _ => keeps_cases_labels overlooks routine rest

end

theorem keeps_declarations (overlooks : Overlooks view) {program : Program}
    (types : ∀ item ∈ program.main.toList, Keeps view (declareTypes item.1 item.2)) :
    Keeps view (declarations program) :=
  keeps_seq (keeps_each types) fun _ =>
    keeps_seq (keeps_each fun routine _ => keeps_routine overlooks routine) fun _ =>
      keeps_seq (keeps_each fun item _ => keeps_procedure overlooks item.1 item.2) fun _ =>
        keeps_each fun routine _ => keeps_labels overlooks routine.name routine.body

end Declarations

theorem keeps_shared_declarations (program : Program) : Keeps SymbolTable.shared (declarations program) :=
  keeps_declarations (fun _ _ same _ => same) fun item _ => keeps_shared_types item.1 item.2

def headed (registry : Registry) (routine : Routine) : Check Block := do
  match (← symbols).procedure? routine.name with
  | some entry =>
    (routine.params.zip entry.params).forM fun (param, _, ty) =>
      declareLocal param.name .parameter ty param.locus
    match entry.returns with
    | some ty => declareLocal routine.name .variable ty routine.locus
    | none => pure ()
  | none => pure ()
  block (routine.context registry) routine.body

def opened (registry : Registry) (routine : Routine) : Check Block := do
  modify fun state => { state with symbols := state.symbols.enterScope }
  headed registry routine

theorem routine_opened (registry : Registry) (routine : Routine) :
    Check.routine registry routine = (do
      let body ← opened registry routine
      modify fun state => { state with symbols := state.symbols.exitScope }
      return { routine with body }) := by
  unfold Check.routine opened headed
  simp only [bind_assoc, Routine.context]
  congr 1
  funext _
  congr 1
  funext table
  cases table.procedure? routine.name with
  | none => rfl
  | some entry =>
    dsimp only
    cases entry.returns with
    | none => simp only [bind_assoc]
    | some ty => simp only [bind_assoc]

theorem routines_headings (registry : Registry) (routines : List Routine) (state : CheckState) :
    ((routines.mapM (Check.routine registry)).run state).1.map Routine.heading = routines.map Routine.heading := by
  induction routines generalizing state with
  | nil => rfl
  | cons head tail ih =>
    rw [List.mapM_cons, List.map_cons, ← ih ((Check.routine registry head).run state).2, routine_opened]
    rfl

theorem declares_local (name : String) (kind : SymbolKind) (ty : Ty) (locus : Locus) :
    Declares [] [name] (declareLocal name kind ty locus) :=
  declares_declare { name, kind, ty, locus, constant := none } false

theorem declares_params (items : List (Parameter × String × Ty)) :
    Declares [] (items.flatMap fun item => [item.1.name])
      (items.forM fun (param, _, ty) => declareLocal param.name .parameter ty param.locus) :=
  declares_each (fun item : Parameter × String × Ty => [item.1.name]) fun item _ =>
    declares_local item.1.name .parameter item.2.2 item.1.locus

theorem own_names_described {routine : Routine} {entry : ProcedureEntry} (describes : entry.Describes routine) :
    routine.ownNames = ((routine.params.zip entry.params).flatMap fun item => [item.1.name]) ++
      (if entry.returns.isSome then [routine.name] else []) ++
        routine.body.collect (Stmt.owns (routine.kind == .main)) := by
  have sameLength : entry.params.length = routine.params.length := by
    simpa using congrArg List.length describes.params
  have params : ((routine.params.zip entry.params).flatMap fun item => [item.1.name]) =
      routine.params.map Parameter.name := by
    rw [← List.map_eq_flatMap, ← Function.comp_def Parameter.name Prod.fst, ← List.map_map,
      List.map_fst_zip (Nat.le_of_eq sameLength.symm)]
  rw [params, Routine.ownNames]
  simp only [describes.returns]

theorem follows_headed (registry : Registry) (routine : Routine) :
    Follows (fun before _ after => before.locals ≠ [] → ∃ own, before.Gains routine.sharedNames own after ∧
      ∀ entry, before.procedure? routine.name = some entry → entry.Describes routine →
        own = routine.ownNames) (headed registry routine) := by
  have body := declares_block (routine.context registry) routine.body
  refine follows_read fun table => ?_
  cases found : table.procedure? routine.name with
  | none =>
    refine follows_weaken body ?_
    rintro before _ after gains rfl entered
    refine ⟨_, gains entered, fun entry isThere => ?_⟩
    rw [found] at isThere
    cases isThere
  | some entry =>
    -- What the entry says of the result decides whether the name of the routine is declared.
    have result : Declares routine.sharedNames ((if entry.returns.isSome then [routine.name] else []) ++
        routine.body.collect (Stmt.owns (routine.kind == .main))) (do
          match entry.returns with
          | some ty => declareLocal routine.name .variable ty routine.locus
          | none => pure ()
          block (routine.context registry) routine.body) := by
      cases entry.returns with
      | none => exact body
      | some ty => exact declares_seq (declares_local _ _ _ _) fun _ => body
    refine follows_weaken (declares_seq (declares_params (routine.params.zip entry.params)) fun _ => result) ?_
    rintro before _ after gains rfl entered
    refine ⟨_, gains entered, fun other isThere describes => ?_⟩
    rw [found] at isThere
    cases isThere
    rw [own_names_described describes, List.append_assoc]

theorem follows_opened (registry : Registry) (routine : Routine) :
    Follows (fun before _ after => ∃ own, before.enterScope.Gains routine.sharedNames own after ∧
      ∀ entry, before.procedure? routine.name = some entry → entry.Describes routine →
        own = routine.ownNames) (opened registry routine) := by
  refine follows_weaken (follows_seq (follows_modify SymbolTable.enterScope) fun _ =>
    follows_headed registry routine) ?_
  rintro before _ after ⟨_, _, rfl, gains⟩
  exact gains (List.cons_ne_nil _ _)

def SharesMore (names : List String) (before after : SymbolTable) : Prop :=
  after.procedures = before.procedures ∧ ∀ name, after.Shares name ↔ before.Shares name ∨ name ∈ names

theorem follows_routine (registry : Registry) (routine : Routine) :
    Follows (fun before _ after => SharesMore routine.sharedNames before after)
      (Check.routine registry routine) := by
  rw [routine_opened]
  refine follows_weaken (follows_seq (follows_opened registry routine) fun _ =>
    follows_seq (follows_modify SymbolTable.exitScope) fun _ => follows_unit _) ?_
  rintro before _ _ ⟨body, between, ⟨own, gains, -⟩, _, _, rfl, -, rfl⟩
  exact ⟨gains.procedures, gains.shares⟩

theorem follows_routines (registry : Registry) (routines : List Routine) :
    Follows (fun before _ after => SharesMore (routines.flatMap Routine.sharedNames) before after)
      (routines.mapM (Check.routine registry)) := by
  induction routines with
  | nil => exact follows_weaken (follows_unit []) fun _ _ _ same => by rw [same.2]; exact ⟨rfl, by simp⟩
  | cons head tail ih =>
    rw [List.mapM_cons]
    refine follows_weaken (follows_seq (follows_routine registry head) fun _ => follows_seq ih fun _ =>
      follows_unit _) ?_
    rintro before _ _ ⟨_, between, early, _, _, late, -, rfl⟩
    refine ⟨late.1.trans early.1, fun name => ?_⟩
    rw [late.2, early.2, List.flatMap_cons, List.mem_append, or_assoc]

theorem follows_both {check : Check α} {left right : SymbolTable → α → SymbolTable → Prop}
    (followsLeft : Follows left check) (followsRight : Follows right check) :
    Follows (fun before result after => left before result after ∧ right before result after) check :=
  fun state => ⟨(followsLeft state).1, fun quiet => ⟨(followsLeft state).2 quiet, (followsRight state).2 quiet⟩⟩

def upTo (registry : Registry) (program : Program) (done : List Routine) (routine : Routine) : Check Block := do
  declarations program
  let _ ← done.mapM (Check.routine registry)
  opened registry routine

theorem follows_up_to (registry : Registry) (program : Program) (done : List Routine) (routine : Routine) :
    Follows (fun before _ after => before.shared = [] → before.procedures = [] → before.labels = [] →
      (∀ name, after.Shares name ↔ name ∈ done.flatMap Routine.sharedNames ++ routine.sharedNames) ∧
        (routine ∈ program.procedures → (∀ name ∈ routine.ownNames, after.Owns name) ∧
          ∀ name, after.Owns name → name ∈ routine.ownNames ∨ name ∉ done.flatMap Routine.sharedNames))
      (upTo registry program done routine) := by
  refine follows_weaken (follows_seq
    (follows_both (keeps_shared_declarations program) (follows_declarations program)) fun _ =>
      follows_seq (follows_routines registry done) fun _ => follows_opened registry routine) ?_
  rintro before _ after ⟨_, declared, ⟨sameShared, declarations⟩, _, start, ⟨sameProcedures, sharedBefore⟩,
    own, gains, isOwn⟩ noneShared noProcedures noLabels
  have startShares (name : String) : start.Shares name ↔ name ∈ done.flatMap Routine.sharedNames := by
    rw [sharedBefore, SymbolTable.Shares, sameShared, noneShared]
    simp [Table.get_nil]
  refine ⟨fun name => ?_, fun isProcedure => ?_⟩
  · rw [gains.shares, List.mem_append, ← startShares]
    rfl
  · obtain ⟨entry, found, describes⟩ := (declarations noProcedures noLabels).1.described routine isProcedure
    have isThere : start.procedure? routine.name = some entry := by
      rw [SymbolTable.procedure?, sameProcedures]
      exact found
    -- The entry that the declarations have made describes the routine, which fixes its own names.
    obtain rfl := isOwn entry isThere describes
    refine ⟨fun name inside => gains.owns name (.inr inside), fun name owned => ?_⟩
    -- The scope was empty when it was entered.
    rcases gains.fresh name owned with impossible | inside | new
    · cases impossible
    · exact .inl inside
    · exact .inr fun isShared => new ((startShares name).mpr isShared)

theorem follows_declare_local (name : String) (kind : SymbolKind) (ty : Ty) (locus : Locus) :
    Follows (fun before _ after => before.locals ≠ [] → ¬before.Owns name ∧ before.Gains [] [name] after)
      (declareLocal name kind ty locus) := by
  refine follows_read fun table => ?_
  cases defined : table.define { name, kind, ty, locus, constant := none } false with
  | ok after =>
    refine follows_weaken (follows_set after) ?_
    rintro before _ _ rfl rfl entered
    exact ⟨SymbolTable.define_new entered defined, .of_own entered defined⟩
  | error existing => exact follows_report _ _

theorem follows_parameters (items : List (Parameter × String × Ty)) :
    Follows (fun before _ _ => before.locals ≠ [] →
      (items.map fun item => item.1.name).Nodup ∧ ∀ item ∈ items, ¬before.Owns item.1.name)
      (items.forM fun (param, _, ty) => declareLocal param.name .parameter ty param.locus) := by
  induction items with
  | nil => exact follows_weaken (follows_unit ()) fun _ _ _ _ _ =>
    ⟨List.nodup_nil, fun _ inside => absurd inside List.not_mem_nil⟩
  | cons head tail ih =>
    refine follows_weaken (follows_seq (follows_declare_local head.1.name .parameter head.2.2 head.1.locus) fun _ => ih) ?_
    rintro before _ after ⟨_, between, declares, others⟩ entered
    obtain ⟨isNew, gains⟩ := declares entered
    obtain ⟨distinct, fresh⟩ := others gains.entered
    have owned : between.Owns head.1.name := gains.owns _ (.inr List.mem_cons_self)
    refine ⟨List.nodup_cons.mpr ⟨fun again => ?_, distinct⟩, List.forall_mem_cons.mpr ⟨isNew, fun item inside isOwn => ?_⟩⟩
    · obtain ⟨item, inside, same⟩ := List.mem_map.mp again
      exact fresh item inside (same ▸ owned)
    · exact fresh item inside (gains.owns _ (.inl isOwn))

theorem follows_distinct (registry : Registry) (routine : Routine) :
    Follows (fun before _ _ => ∀ entry, before.procedure? routine.name = some entry → entry.Describes routine →
      (routine.params.map Parameter.name).Nodup) (opened registry routine) := by
  have anything {check : Check Block} {shared own : List String} (declares : Declares shared own check) :
      Follows (fun _ _ _ => True) check := follows_weaken declares fun _ _ _ _ => trivial
  have body := declares_block (routine.context registry) routine.body
  have inner : Follows (fun before _ _ => before.locals ≠ [] → ∀ entry, before.procedure? routine.name = some entry →
      entry.Describes routine → (routine.params.map Parameter.name).Nodup) (headed registry routine) := by
    refine follows_read fun table => ?_
    cases found : table.procedure? routine.name with
    | none =>
      refine follows_weaken body ?_
      rintro before _ after - rfl - entry isThere
      rw [found] at isThere
      cases isThere
    | some entry =>
      have result : Follows (fun _ _ _ => True) (do
          match entry.returns with
          | some ty => declareLocal routine.name .variable ty routine.locus
          | none => pure ()
          block (routine.context registry) routine.body) := by
        cases entry.returns with
        | none => exact anything body
        | some ty => exact anything (declares_seq (declares_local _ _ _ _) fun _ => body)
      refine follows_weaken (follows_seq (follows_parameters (routine.params.zip entry.params)) fun _ => result) ?_
      rintro before _ after ⟨_, _, distinct, -⟩ rfl entered other isThere describes
      rw [found] at isThere
      cases isThere
      have sameLength : entry.params.length = routine.params.length := by
        simpa using congrArg List.length describes.params
      have names : (routine.params.zip entry.params).map (fun item => item.1.name) = routine.params.map Parameter.name := by
        rw [← Function.comp_def Parameter.name Prod.fst, ← List.map_map, List.map_fst_zip (Nat.le_of_eq sameLength.symm)]
      exact names ▸ (distinct entered).1
  refine follows_weaken (follows_seq (follows_modify SymbolTable.enterScope) fun _ => inner) ?_
  rintro before _ after ⟨_, _, rfl, distinct⟩
  exact distinct (List.cons_ne_nil _ _)

def remaining (registry : Registry) (rest : List Routine) : Check (List Routine) := do
  modify fun state => { state with symbols := state.symbols.exitScope }
  rest.mapM (Check.routine registry)

theorem program_up_to (registry : Registry) {program : Program} {done rest : List Routine} {routine : Routine}
    (split : program.routines = done ++ routine :: rest) (state : CheckState) :
    ((Check.program registry program).run state).2 =
      ((remaining registry rest).run ((upTo registry program done routine).run state).2).2 := by
  -- The routines are checked in one list with the main one at its head, which can be cut anywhere.
  have gathered : Check.program registry program = (do
      declarations program
      let found ← program.routines.mapM (Check.routine registry)
      return { main := (found.head?.map Routine.body).getD .nil, procedures := found.tail }) := by
    simp [Check.program, Program.routines, List.mapM_cons]
  rw [gathered, split, List.mapM_append, List.mapM_cons, routine_opened]
  rfl

theorem program_main (registry : Registry) (program : Program) (state : CheckState) :
    ((Check.program registry program).run state).1.main =
      ((upTo registry program [] (.main program.main)).run state).1 := by
  rw [Check.program, routine_opened]
  rfl

theorem follows_remaining (registry : Registry) (rest : List Routine) :
    Follows (fun before _ after => SharesMore (rest.flatMap Routine.sharedNames) before after)
      (remaining registry rest) := by
  refine follows_weaken (follows_seq (follows_modify SymbolTable.exitScope) fun _ =>
    follows_routines registry rest) ?_
  rintro before _ after ⟨_, _, rfl, shares⟩
  exact shares

end Check

namespace Program

/-- The names that are known when the body of a routine has been checked. -/
def scopesAt (program : Program) (registry : Registry) (done : List Routine) (routine : Routine) : SymbolTable :=
  ((Check.upTo registry program done routine).run ⟨.empty, []⟩).2.symbols

structure Scopes (program : Program) (routine : Routine) (table final : SymbolTable) : Prop where
  shares : ∀ name, table.Shares name ↔ name ∈ program.sharedNames
  final : ∀ name, final.Shares name ↔ name ∈ program.sharedNames
  owns : routine.kind ≠ .main → ∀ name ∈ routine.ownNames, table.Owns name
  fresh : routine.kind ≠ .main → ∀ name, table.Owns name → name ∈ routine.ownNames ∨ name ∉ program.sharedNames

theorem quiet_up_to {program : Program} {registry : Registry} (quiet : (program.check registry).diagnostics = [])
    {done rest : List Routine} {routine : Routine} (split : program.routines = done ++ routine :: rest) :
    ((Check.upTo registry program done routine).run ⟨.empty, []⟩).2.diagnostics = [] ∧
      ((Check.remaining registry rest).run
        ((Check.upTo registry program done routine).run ⟨.empty, []⟩).2).2.diagnostics = [] := by
  have nothing : ((Check.program registry program).run ⟨.empty, []⟩).2.diagnostics = [] :=
    List.reverse_eq_nil_iff.mp (Diagnostic.of_sort_nil quiet)
  rw [Check.program_up_to registry split ⟨.empty, []⟩] at nothing
  -- Diagnostics are only ever added.
  have late := (Check.follows_remaining registry rest
    ((Check.upTo registry program done routine).run ⟨.empty, []⟩).2).1
  rw [nothing] at late
  exact ⟨List.suffix_nil.mp late, nothing⟩

theorem check_scopes {program : Program} {registry : Registry} (wellFormed : program.WellFormed)
    (quiet : (program.check registry).diagnostics = []) {done rest : List Routine} {routine : Routine}
    (split : program.routines = done ++ routine :: rest) :
    program.Scopes routine (program.scopesAt registry done routine) (program.check registry).symbols := by
  obtain ⟨none, nothing⟩ := quiet_up_to quiet split
  have final : (program.check registry).symbols =
      ((Check.remaining registry rest).run ((Check.upTo registry program done routine).run ⟨.empty, []⟩).2).2.symbols :=
    congrArg CheckState.symbols (Check.program_up_to registry split ⟨.empty, []⟩)
  obtain ⟨-, gains⟩ := Check.follows_up_to registry program done routine ⟨.empty, []⟩
  obtain ⟨-, further⟩ := Check.follows_remaining registry rest
    ((Check.upTo registry program done routine).run ⟨.empty, []⟩).2
  obtain ⟨shares, own⟩ := gains none rfl rfl rfl
  obtain ⟨-, finalShares⟩ := further (nothing.trans none.symm)
  -- Only the main routine shares names, and it is checked before the procedures.
  obtain ⟨sharedNames, noMore⟩ := Program.shared_names_upto wellFormed split
  rw [sharedNames] at shares
  have isProcedure (kind : routine.kind ≠ .main) : routine ∈ program.procedures := by
    have inside : routine ∈ program.routines := split ▸ List.mem_append_right _ List.mem_cons_self
    rcases Program.mem_routines_cases wellFormed inside with rfl | ⟨inProcedures, -⟩
    · exact absurd rfl kind
    · exact inProcedures
  refine ⟨shares, fun name => ?_, fun kind => (own (isProcedure kind)).1, fun kind name owned => ?_⟩
  · rw [final, finalShares, noMore]
    simpa using shares name
  · rw [← sharedNames, Routine.shared_names_procedure kind, List.append_nil]
    exact (own (isProcedure kind)).2 name owned

theorem distinct_parameters {program : Program} {registry : Registry} (quiet : (program.check registry).diagnostics = [])
    {checked : Routine} (isChecked : checked ∈ (program.check registry).program.procedures) :
    (checked.params.map Parameter.name).Nodup := by
  have headings : (program.check registry).program.procedures.map Routine.heading = program.procedures.map Routine.heading :=
    Check.routines_headings registry program.procedures _
  obtain ⟨routine, isProcedure, heading⟩ :=
    List.mem_map.mp (headings ▸ List.mem_map_of_mem (f := Routine.heading) isChecked)
  rw [← (Routine.same_heading heading).2.2]
  obtain ⟨done, rest, split⟩ := List.append_of_mem (List.mem_cons_of_mem (Routine.main program.main) isProcedure)
  obtain ⟨none, -⟩ := quiet_up_to quiet (split : program.routines = done ++ routine :: rest)
  obtain ⟨-, follows⟩ := Check.follows_seq (Check.follows_declarations program) (fun _ =>
    Check.follows_seq (Check.follows_routines registry done) fun _ => Check.follows_distinct registry routine) ⟨.empty, []⟩
  obtain ⟨_, declared, declarations, _, start, ⟨sameProcedures, -⟩, distinct⟩ := follows none
  obtain ⟨entry, found, describes⟩ := (declarations rfl rfl).1.described routine isProcedure
  exact distinct entry (by rw [SymbolTable.procedure?, sameProcedures]; exact found) describes

end Program

end BasicLang
