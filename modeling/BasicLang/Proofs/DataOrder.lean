import BasicLang.Device.Bench
import BasicLang.Proofs.Derivation.Places
import BasicLang.Proofs.Machine.DataPointer
import Mathlib.Data.List.Sort

set_option autoImplicit false

namespace BasicLang

def Mark.lists (mark : Mark) : Bool := !mark.given.isEmpty

def ListsBefore (early late : Locus × Mark) : Prop :=
  early.2.lists = true ∨ late.2.lists = true → early.1.Before late.1

instance : DecidableRel ListsBefore := fun early late =>
  inferInstanceAs (Decidable (early.2.lists = true ∨ late.2.lists = true → early.1.Before late.1))

def NotBehind (early late : Locus × Mark) : Prop := ¬late.1.Before early.1

instance : DecidableRel NotBehind := fun early late => inferInstanceAs (Decidable (¬late.1.Before early.1))

instance : Std.Total NotBehind where
  total early late := by
    unfold NotBehind Locus.Before
    omega

instance : IsTrans (Locus × Mark) NotBehind where
  trans first second third early late := by
    unfold NotBehind Locus.Before at *
    omega

namespace Program

/-- Whether what the main routine lists stands in the source before what the procedures list, and so do its labels. -/
def listsInOrder (program : Program) : Bool :=
  program.main.marks.all fun mark => program.procedureMarks.all fun other => decide (ListsBefore mark other)

/-- The values of all `DATA` statements in the order of the source. -/
def sourceValues (program : Program) : List Value := valuesOf (program.marks.insertionSort NotBehind)

def valuesBefore (program : Program) (locus : Locus) : List Value :=
  valuesOf (program.marks.filter fun mark => decide (mark.1.Before locus))

/-- A `RESTORE` passes over the values that stand before its label, or over none if it has no label. -/
def Skips (program : Program) (label : Option String) (count : Nat) : Prop :=
  match label with
  | none => count = 0
  | some name => ∃ locus, (locus, Mark.label name) ∈ program.marks ∧ count = (program.valuesBefore locus).length

end Program

section Marks

variable {marks front back : List (Locus × Mark)} {keeps : Locus × Mark → Bool} {locus : Locus} {mark : Mark}

theorem values_of_filter (all : ∀ mark ∈ marks, mark.2.lists = true → keeps mark = true) :
    valuesOf (marks.filter keeps) = valuesOf marks := by
  induction marks with
  | nil => rfl
  | cons mark marks ih =>
    obtain ⟨first, others⟩ := List.forall_mem_cons.mp all
    rw [values_of_cons, ← ih others]
    by_cases kept : keeps mark = true
    · rw [List.filter_cons_of_pos kept, values_of_cons]
    · have nothing : mark.2.given = [] := by
        by_contra lists
        exact kept (first (by simp [Mark.lists, lists]))
      rw [List.filter_cons_of_neg kept, nothing, List.nil_append]

theorem values_of_rejected (none : ∀ mark ∈ marks, mark.2.lists = true → keeps mark = false) :
    valuesOf (marks.filter keeps) = [] := by
  refine List.flatMap_eq_nil_iff.mpr fun mark kept => ?_
  obtain ⟨inside, isKept⟩ := List.mem_filter.mp kept
  by_contra lists
  rw [none mark inside (by simp [Mark.lists, lists])] at isKept
  cases isKept

theorem values_of_lists (marks : List (Locus × Mark)) : valuesOf (marks.filter fun mark => mark.2.lists) = valuesOf marks :=
  values_of_filter fun _ _ lists => lists

theorem values_of_sorted (ordered : marks.Pairwise ListsBefore) :
    valuesOf (marks.insertionSort NotBehind) = valuesOf marks := by
  have perm := (List.perm_insertionSort NotBehind marks).filter fun mark => mark.2.lists
  have sorted : ((marks.insertionSort NotBehind).filter fun mark => mark.2.lists).Pairwise NotBehind :=
    (List.pairwise_insertionSort NotBehind marks).sublist List.filter_sublist
  have strict : (marks.filter fun mark => mark.2.lists).Pairwise fun early late => early.1.Before late.1 := by
    refine (ordered.sublist List.filter_sublist).imp_of_mem fun isEarly _ before => before (.inl ?_)
    exact (List.mem_filter.mp isEarly).2
  have inOrder : (marks.filter fun mark => mark.2.lists).Pairwise NotBehind :=
    strict.imp fun {early late} before (behind : late.1.Before early.1) => Locus.before_irrefl _ (before.trans behind)
  have same := perm.eq_of_pairwise (fun early late isEarly isLate first second => ?_) sorted inOrder
  · rw [← values_of_lists, same, values_of_lists]
  · -- Marks that list values stand at places of their own.
    by_contra other
    have apart : (marks.filter fun mark => mark.2.lists).Pairwise fun early late =>
        early.1.Before late.1 ∨ late.1.Before early.1 := strict.imp .inl
    have either : Std.Symm fun early late : Locus × Mark => early.1.Before late.1 ∨ late.1.Before early.1 :=
      ⟨fun _ _ => Or.symm⟩
    rcases apart.forall (perm.subset isEarly) isLate other with before | behind
    · exact second before
    · exact first behind

theorem values_of_front (ordered : (front ++ (locus, mark) :: back).Pairwise ListsBefore) :
    valuesOf ((front ++ (locus, mark) :: back).filter fun other => decide (other.1.Before locus)) = valuesOf front := by
  obtain ⟨-, rest, before⟩ := List.pairwise_append.mp ordered
  have behind := (List.pairwise_cons.mp rest).1
  rw [List.filter_append, values_of_append, values_of_filter fun other inside lists => ?_, values_of_rejected, List.append_nil]
  · rintro other inside lists
    refine decide_eq_false fun early => ?_
    rcases List.mem_cons.mp inside with rfl | isBack
    · exact Locus.before_irrefl _ early
    · exact Locus.before_irrefl _ (early.trans (behind other isBack (.inr lists)))
  · exact decide_eq_true (before other inside _ List.mem_cons_self (.inl lists))

end Marks

section Reading

variable {source : String} {registry : Registry} {program : Program} {image : Image} {spans : List Span}

namespace Program

theorem marks_in_order (parsed : parse (tokenize source).1 = .ok program) (inOrder : program.listsInOrder = true) :
    program.marks.Pairwise ListsBefore := by
  obtain ⟨main, procedures⟩ := parsed_in_order parsed
  refine List.pairwise_append.mpr ⟨?_, ?_, fun mark isMain other isOther => ?_⟩
  · exact List.Pairwise.imp (fun {early late} before (_ : early.2.lists = true ∨ late.2.lists = true) => before)
      (List.pairwise_map.mp main)
  · exact List.Pairwise.imp (fun {early late} before (_ : early.2.lists = true ∨ late.2.lists = true) => before)
      (List.pairwise_map.mp procedures)
  · exact of_decide_eq_true (List.all_eq_true.mp (List.all_eq_true.mp inOrder mark isMain) other isOther)

theorem checked_marks (program : Program) (registry : Registry) : (program.check registry).program.marks = program.marks := by
  obtain ⟨main, procedures⟩ := program.check_marks registry
  rw [marks, main, procedures, ← marks]

theorem data_sorted (parsed : parse (tokenize source).1 = .ok program) (inOrder : program.listsInOrder = true)
    (coded : (program.check registry).program.image (program.check registry).symbols registry = .ok image) :
    image.data.toList = program.sourceValues := by
  rw [image_data coded, checked_marks, sourceValues, values_of_sorted (marks_in_order parsed inOrder)]

theorem restores_to_label (parsed : parse (tokenize source).1 = .ok program) (inOrder : program.listsInOrder = true)
    (coded : (program.check registry).program.image (program.check registry).symbols registry = .ok image)
    (isLayout : (program.check registry).program.layout? (program.check registry).symbols registry = some spans)
    {span : Span} (isSpan : span ∈ spans) {place count : Nat} {label : Option String}
    (isRestore : (place, Stmt.restore label) ∈ span.places) (skips : program.Skips label count) :
    image.Fetches place (.restore (.resolved count)) := by
  cases label with
  | none =>
    obtain rfl : count = 0 := skips
    exact image_restores_first coded isLayout isSpan isRestore
  | some name =>
    obtain ⟨locus, isMark, rfl⟩ := skips
    obtain ⟨front, back, split⟩ := List.append_of_mem isMark
    have ordered := marks_in_order parsed inOrder
    rw [valuesBefore, split, values_of_front (split ▸ ordered)]
    exact image_restores coded isLayout isSpan isRestore ((program.checked_marks registry).trans split)

end Program

end Reading

section Runs

variable {σ : Type} {setup : Setup σ} {machine here : Machine σ} {image : Image} {calls : List HostCall}
  {before after : List (Run.Deed σ)} {instruction : Instruction}

def Machine.Reads (setup : Setup σ) (machine : Machine σ) (datum : Option Value) : Prop :=
  (Run.execute setup .read).on { machine with next := machine.next + 1 } =
    (Run.deliver datum).on { machine with next := machine.next + 1 }

theorem Run.reads_next (loaded : machine.image = image) (goOn : ∀ call ∈ calls, call.restarts = false)
    (done : machine.reset.deeds setup calls = before ++ .executes instruction here :: after) :
    here.Reads setup image.data.toList[nextAfter 0 before]? := by
  obtain ⟨-, sameImage, next⟩ := executes_next loaded goOn done
  rw [Machine.Reads, execute_read]
  dsimp only
  rw [sameImage, next, Array.getElem?_toList]

theorem Run.reads_behind (loaded : machine.image = image) (goOn : ∀ call ∈ calls, call.restarts = false)
    {early between : List (Run.Deed σ)} {restored : Instruction} {there : Machine σ} {count : Nat}
    (done : machine.reset.deeds setup calls =
      (early ++ .executes restored there :: between) ++ .executes instruction here :: after)
    (forward : ∀ deed ∈ between, deed.isRestore = false)
    (goes : image.Fetches there.next (.restore (.resolved count))) :
    here.Reads setup (image.data.toList.drop count)[between.countP Deed.isRead]? := by
  have first : machine.reset.deeds setup calls =
      early ++ .executes restored there :: (between ++ .executes instruction here :: after) := by
    rw [done, List.append_assoc, List.cons_append]
  obtain ⟨locus, fetched⟩ := goes
  obtain ⟨found, -⟩ := executes_next loaded goOn first
  obtain rfl : restored = ⟨.restore (.resolved count), locus⟩ := Option.some.inj (found.symm.trans fetched)
  have next : nextAfter 0 (early ++ .executes ⟨.restore (.resolved count), locus⟩ there :: between) =
      count + between.countP Deed.isRead := by
    rw [next_after_append, nextAfter, List.foldl_cons, ← nextAfter]
    exact next_after_reads count forward
  rw [List.getElem?_drop, ← next]
  exact reads_next loaded goOn done

end Runs

/-- Let the main routine list its values and labels before the procedures list theirs. Then the values are those of the
source in its order. The first `READ` takes the first of them, one behind a `RESTORE` the first behind its label, and each
other one the next, until one finds none and fails with the error for missing data. -/
theorem data_in_source_order (source : String) (registry : Registry) (program : Program) (image : Image)
    (parsed : parse (tokenize source).1 = .ok program) (compiled : compile source registry = .ok image)
    (inOrder : program.listsInOrder = true) :
    image.data.toList = program.sourceValues ∧ Fault.outOfData.code = 4 ∧
      ∃ spans, (program.check registry).program.layout? (program.check registry).symbols registry = some spans ∧
        (∀ span ∈ spans, ∀ place label, (place, Stmt.restore label) ∈ span.places →
          (∃ count, program.Skips label count) ∧
            ∀ count, program.Skips label count → image.Fetches place (.restore (.resolved count))) ∧
        ∀ (σ : Type) (setup : Setup σ) (machine : Machine σ) (calls : List HostCall) (before after : List (Run.Deed σ))
          (instruction : Instruction) (here : Machine σ), machine.image = image →
          (∀ call ∈ calls, call.restarts = false) →
          machine.reset.deeds setup calls = before ++ .executes instruction here :: after → instruction.op.isRead = true →
          ((∀ deed ∈ before, deed.isRestore = false) →
            here.Reads setup program.sourceValues[before.countP Run.Deed.isRead]?) ∧
          ∀ (early between : List (Run.Deed σ)) (restored : Instruction) (there : Machine σ),
            before = early ++ .executes restored there :: between → (∀ deed ∈ between, deed.isRestore = false) →
            ∀ span ∈ spans, ∀ label count, (there.next, Stmt.restore label) ∈ span.places → program.Skips label count →
              here.Reads setup (program.sourceValues.drop count)[between.countP Run.Deed.isRead]? := by
  obtain ⟨quiet, coded⟩ := compile_inversion compiled parsed
  have accepted := Program.check_accepted (parse_well_formed (tokenize_lexed source) parsed) quiet
  obtain ⟨spans, isLayout⟩ := Program.layout_of_image coded
  have sorted := Program.data_sorted parsed inOrder coded
  refine ⟨sorted, rfl, spans, isLayout, fun span isSpan place label isRestore => ⟨?_, fun count skips => ?_⟩, ?_⟩
  · cases label with
    | none => exact ⟨0, rfl⟩
    | some name =>
      obtain ⟨locus, isMark⟩ := accepted.restore_marked coded isLayout isSpan isRestore
      exact ⟨_, locus, program.checked_marks registry ▸ isMark, rfl⟩
  · exact Program.restores_to_label parsed inOrder coded isLayout isSpan isRestore skips
  · intro σ setup machine calls before after instruction here loaded goOn done isRead
    refine ⟨fun forward => ?_, ?_⟩
    · have reads := Run.reads_next loaded goOn done
      rwa [Run.next_after_reads 0 forward, Nat.zero_add, sorted] at reads
    · rintro early between restored there rfl forward span isSpan label count isRestore skips
      have goes := Program.restores_to_label parsed inOrder coded isLayout isSpan isRestore skips
      exact sorted ▸ Run.reads_behind loaded goOn done forward goes

/-- A program with a label between its values, and with another value in a procedure behind them. -/
def sampleData : String := "A:\nDATA 1, 2\nB:\nDATA 3\nRESTORE B\nREAD X\nSUB S\nDATA 4\nEND SUB\n"

def dataSetup : Setup Bench := .ofDevices Bench.bare .standard

def dataMachine (image : Image) : Machine Bench := { Machine.create Bench.empty with image }

def dataDeeds (image : Image) : List (Run.Deed Bench) := (dataMachine image).reset.deeds dataSetup [.slice 8]

def Run.Deed.executed? {σ : Type} : Deed σ → Option (Instruction × Machine σ)
  | .executes instruction here => some (instruction, here)
  | _ => none

theorem Run.executed_splits {σ : Type} {deeds : List (Deed σ)} {place : Nat} {instruction : Instruction}
    {here : Machine σ} (found : deeds[place]?.bind Deed.executed? = some (instruction, here)) :
    deeds = deeds.take place ++ .executes instruction here :: deeds.drop (place + 1) := by
  obtain ⟨deed, isDeed, executed⟩ := Option.bind_eq_some_iff.mp found
  obtain ⟨inside, rfl⟩ := List.getElem?_eq_some_iff.mp isDeed
  have split : deeds.take place ++ deeds[place] :: deeds.drop (place + 1) = deeds := by
    rw [List.getElem_cons_drop, List.take_append_drop]
  cases isExecuted : deeds[place] with
  | executes other machine =>
    rw [isExecuted] at executed split
    cases executed
    exact split.symm
  | delivers | asks =>
    rw [isExecuted] at executed
    cases executed

def Mark.names (name : String) : Mark → Bool
  | .label other => other == name
  | .data _ => false

def Stmt.restores (name : String) : Stmt → Bool
  | .restore target => target == some name
  | _ => false

theorem Stmt.restores_label {name : String} {stmt : Stmt} (restores : stmt.restores name = true) :
    stmt = .restore (some name) := by
  cases stmt with
  | restore target => rw [eq_of_beq (show (target == some name) = true from restores)]
  | _ => cases restores

theorem value_behind_label_is_read : ∃ program image before instruction here after value,
    parse (tokenize sampleData).1 = .ok program ∧ compile sampleData .standard = .ok image ∧
      program.listsInOrder = true ∧ program.sourceValues.map Value.toInt? = [some 1, some 2, some 3, some 4] ∧
      dataDeeds image = before ++ .executes instruction here :: after ∧ instruction.op.isRead = true ∧
      value.toInt? = some 3 ∧ here.Reads dataSetup (some value) := by
  obtain ⟨program, parsed, inOrder, numbers, behindTwo, runs⟩ := exists_parsed sampleData
    (fun program => program.listsInOrder = true ∧
      program.sourceValues.map Value.toInt? = [some 1, some 2, some 3, some 4] ∧
      (program.marks.all fun mark => !mark.2.names "B" || (program.valuesBefore mark.1).length == 2) = true ∧
      (compile sampleData .standard).toOption.any (fun image => decide (
        ((dataDeeds image)[2]?.bind Run.Deed.executed?).any (fun executed => executed.1.op.isRead) = true ∧
        (((dataDeeds image).take 2)[0]?.bind Run.Deed.executed?).any (fun executed =>
          ((program.check .standard).program.layout? (program.check .standard).symbols .standard).any fun spans =>
            spans.any fun span => span.places.any fun place => place.1 == executed.2.next && place.2.restores "B") = true ∧
        (∀ deed ∈ ((dataDeeds image).take 2).drop 1, deed.isRestore = false) ∧
        (((dataDeeds image).take 2).drop 1).countP Run.Deed.isRead = 0)) = true)
    (by decide +kernel)
  obtain ⟨image, compiled, reads, restores, forward, fresh⟩ := exists_ok _ runs
  obtain ⟨⟨instruction, here⟩, executed, isRead⟩ := (Option.any_eq_true _ _).mp reads
  obtain ⟨⟨restored, there⟩, executedFirst, goes⟩ := (Option.any_eq_true _ _).mp restores
  have done := Run.executed_splits executed
  have doneFirst := Run.executed_splits executedFirst
  obtain ⟨-, -, spans, isLayout, labelled, runs⟩ :=
    data_in_source_order sampleData .standard program image parsed compiled inOrder
  rw [isLayout, Option.any_some] at goes
  obtain ⟨span, isSpan, goes⟩ := List.any_eq_true.mp goes
  obtain ⟨⟨place, stmt⟩, isPlace, goes⟩ := List.any_eq_true.mp goes
  obtain ⟨samePlace, isRestore⟩ := (Bool.and_eq_true _ _).mp goes
  obtain rfl := eq_of_beq samePlace
  obtain rfl := Stmt.restores_label isRestore
  obtain ⟨⟨count, skips⟩, -⟩ := labelled span isSpan _ _ isPlace
  obtain ⟨locus, isMark, isCount⟩ := id skips
  have two : count = 2 := by
    have names : (Mark.label "B").names "B" = true := by decide
    have behind := List.all_eq_true.mp behindTwo _ isMark
    rw [names] at behind
    exact isCount.trans (eq_of_beq behind)
  have taken := (runs Bench dataSetup (dataMachine image) [.slice 8] _ _ instruction here rfl (by decide) done isRead).2
    _ _ restored there doneFirst forward span isSpan (some "B") count isPlace skips
  rw [fresh, two, List.getElem?_drop] at taken
  have third : program.sourceValues[2]?.map Value.toInt? = some (some 3) := by
    rw [← List.getElem?_map, numbers]
    rfl
  obtain ⟨value, isThird, isThree⟩ := Option.map_eq_some_iff.mp third
  rw [isThird] at taken
  exact ⟨program, image, _, instruction, here, _, value, parsed, compiled, inOrder, numbers, done, isRead, isThree, taken⟩

def sampleDataBefore : String := "SUB S\nDATA 1\nEND SUB\nREAD A\nPRINT A\nDATA 2"

theorem values_of_main_come_first : ∃ program image,
    parse (tokenize sampleDataBefore).1 = .ok program ∧ compile sampleDataBefore .standard = .ok image ∧
      program.listsInOrder = false ∧ program.sourceValues.map Value.toInt? = [some 1, some 2] ∧
      image.data.toList.map Value.toInt? = [some 2, some 1] ∧ image.data.toList ≠ program.sourceValues := by
  obtain ⟨program, parsed, outOfOrder, sourceNumbers, runs⟩ := exists_parsed sampleDataBefore
    (fun program => program.listsInOrder = false ∧ program.sourceValues.map Value.toInt? = [some 1, some 2] ∧
      (compile sampleDataBefore .standard).toOption.any (fun image =>
        decide (image.data.toList.map Value.toInt? = [some 2, some 1])) = true)
    (by decide +kernel)
  obtain ⟨image, compiled, numbers⟩ := exists_ok _ runs
  refine ⟨program, image, parsed, compiled, outOfOrder, sourceNumbers, numbers, fun same => ?_⟩
  rw [same, sourceNumbers] at numbers
  exact absurd numbers (by decide)

end BasicLang
