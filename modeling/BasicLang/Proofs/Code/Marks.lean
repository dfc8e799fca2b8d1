import BasicLang.Proofs.Code.Arguments
import BasicLang.Proofs.Code.Exits

set_option autoImplicit false

namespace BasicLang

inductive Mark where
  | data (values : List Value)
  | label (name : String)

def Mark.given : Mark → List Value
  | .data values => values
  | .label _ => []

def valuesOf (marks : List (Locus × Mark)) : List Value := marks.flatMap fun mark => mark.2.given

mutual

def Stmt.marks (locus : Locus) : Stmt → List (Locus × Mark)
  | .data items => [(locus, .data (items.map DataItem.value))]
  | .label name => [(locus, .label name)]
  | .cond arms => arms.marks
  | .select _ cases => cases.marks
  | .forLoop _ _ _ _ body _ => body.marks
  | .whileLoop _ body => body.marks
  | .doLoop _ body _ => body.marks
  | _ => []

def Block.marks : Block → List (Locus × Mark)
  | .nil => []
  | .cons locus head tail => head.marks locus ++ tail.marks

def Arms.marks : Arms → List (Locus × Mark)
  | .none => []
  | .otherwise body => body.marks
  | .arm _ body rest => body.marks ++ rest.marks

def Cases.marks : Cases → List (Locus × Mark)
  | .none => []
  | .otherwise body => body.marks
  | .clause _ _ body rest => body.marks ++ rest.marks

end

def Program.procedureMarks (program : Program) : List (Locus × Mark) :=
  program.procedures.flatMap fun routine => routine.body.marks

def Program.marks (program : Program) : List (Locus × Mark) := program.main.marks ++ program.procedureMarks

def Stmt.mark? : Stmt → Option Mark
  | .data items => some (.data (items.map DataItem.value))
  | .label name => some (.label name)
  | _ => none

mutual

theorem Stmt.marks_listed (stmt : Stmt) (locus : Locus) :
    (stmt.marks locus).map Prod.snd = (stmt :: stmt.parts).filterMap Stmt.mark? := by
  cases stmt with
  | cond arms => exact arms.marks_listed
  | select test cases => exact cases.marks_listed
  | forLoop counter first last step body next => exact body.marks_listed
  | whileLoop condition body => exact body.marks_listed
  | doLoop before body after => exact body.marks_listed
  | _ => rfl

theorem Block.marks_listed (block : Block) : block.marks.map Prod.snd = block.statements.filterMap Stmt.mark? := by
  cases block with
  | nil => rfl
  | cons locus head tail =>
    rw [Block.marks, List.map_append, head.marks_listed locus, tail.marks_listed, ← List.filterMap_append]
    rfl

theorem Arms.marks_listed (arms : Arms) : arms.marks.map Prod.snd = arms.statements.filterMap Stmt.mark? := by
  cases arms with
  | none => rfl
  | otherwise body => exact body.marks_listed
  | arm condition body rest =>
    rw [Arms.marks, List.map_append, body.marks_listed, rest.marks_listed, ← List.filterMap_append]
    rfl

theorem Cases.marks_listed (cases : Cases) : cases.marks.map Prod.snd = cases.statements.filterMap Stmt.mark? := by
  cases cases with
  | none => rfl
  | otherwise body => exact body.marks_listed
  | clause locus patterns body rest =>
    rw [Cases.marks, List.map_append, body.marks_listed, rest.marks_listed, ← List.filterMap_append]
    rfl

end

theorem values_of_cons (mark : Locus × Mark) (marks : List (Locus × Mark)) :
    valuesOf (mark :: marks) = mark.2.given ++ valuesOf marks := List.flatMap_cons

theorem values_of_append (early late : List (Locus × Mark)) :
    valuesOf (early ++ late) = valuesOf early ++ valuesOf late :=
  List.flatMap_append

section Labels

variable {name : String}

mutual

theorem Stmt.label_marked (stmt : Stmt) (locus : Locus) (isLabel : name ∈ stmt.labels) :
    ∃ place, (place, Mark.label name) ∈ stmt.marks locus := by
  cases stmt with
  | label other =>
    obtain rfl := List.mem_singleton.mp isLabel
    exact ⟨locus, List.mem_singleton_self _⟩
  | cond arms => exact Arms.label_marked arms isLabel
  | select test cases => exact Cases.label_marked cases isLabel
  | forLoop counter first last step body next => exact Block.label_marked body isLabel
  | whileLoop condition body => exact Block.label_marked body isLabel
  | doLoop before body after => exact Block.label_marked body isLabel
  | _ => exact absurd isLabel List.not_mem_nil

theorem Block.label_marked (block : Block) (isLabel : name ∈ block.labels) :
    ∃ place, (place, Mark.label name) ∈ block.marks := by
  cases block with
  | nil => exact absurd isLabel List.not_mem_nil
  | cons locus head tail =>
    rcases List.mem_append.mp isLabel with inHead | inTail
    · exact (Stmt.label_marked head locus inHead).imp fun _ => List.mem_append_left _
    · exact (Block.label_marked tail inTail).imp fun _ => List.mem_append_right _

theorem Arms.label_marked (arms : Arms) (isLabel : name ∈ arms.labels) :
    ∃ place, (place, Mark.label name) ∈ arms.marks := by
  cases arms with
  | none => exact absurd isLabel List.not_mem_nil
  | otherwise body => exact Block.label_marked body isLabel
  | arm condition body rest =>
    rcases List.mem_append.mp isLabel with inBody | inRest
    · exact (Block.label_marked body inBody).imp fun _ => List.mem_append_left _
    · exact (Arms.label_marked rest inRest).imp fun _ => List.mem_append_right _

theorem Cases.label_marked (cases : Cases) (isLabel : name ∈ cases.labels) :
    ∃ place, (place, Mark.label name) ∈ cases.marks := by
  cases cases with
  | none => exact absurd isLabel List.not_mem_nil
  | otherwise body => exact Block.label_marked body isLabel
  | clause locus patterns body rest =>
    rcases List.mem_append.mp isLabel with inBody | inRest
    · exact (Block.label_marked body inBody).imp fun _ => List.mem_append_left _
    · exact (Cases.label_marked rest inRest).imp fun _ => List.mem_append_right _

end

end Labels

namespace Assembly

variable {first second : List Mark} {before between after : Assembly}

def Labelled (assembly : Assembly) (name : String) (count : Nat) : Prop :=
  ∃ id label, assembly.named.get? name = some id ∧ assembly.labels[id]? = some label ∧ label.code.isSome = true ∧
    label.data = some count

theorem named_label_kept (assembly : Assembly) (name : String) :
    ((assembly.namedLabel name).2.code, (assembly.namedLabel name).2.data) = (assembly.code, assembly.data) := by
  unfold namedLabel
  split <;> rfl

theorem Labelled.grows {name : String} {count : Nat} (labelled : before.Labelled name count)
    (grows : Grows before after) :
    after.Labelled name count := by
  obtain ⟨id, label, isNamed, found, placed, isData⟩ := labelled
  exact ⟨id, label, grows.named name id isNamed, grows.placed id label found placed, placed, isData⟩

structure Feeds (marks : List Mark) (before after : Assembly) : Prop where
  grows : Grows before after
  data : after.data.toList = before.data.toList ++ marks.flatMap Mark.given
  labels : ∀ front name back, marks = front ++ Mark.label name :: back →
    after.Labelled name (before.data.size + (front.flatMap Mark.given).length)

theorem feeds_still (grows : Grows before after) (same : after.data = before.data) : Feeds [] before after where
  grows := grows
  data := by rw [same, List.flatMap_nil, List.append_nil]
  labels := fun front name back split => by simp at split

theorem Feeds.trans (early : Feeds first before between) (late : Feeds second between after) :
    Feeds (first ++ second) before after where
  grows := early.grows.trans late.grows
  data := by rw [late.data, early.data, List.flatMap_append, List.append_assoc]
  labels := fun front name back split => by
    have size : between.data.size = before.data.size + (first.flatMap Mark.given).length := by
      rw [← Array.length_toList, early.data, List.length_append, Array.length_toList]
    rcases List.append_eq_append_iff.mp split with ⟨rest, rfl, isSecond⟩ | ⟨rest, isFirst, isBack⟩
    · have labelled := late.labels rest name back isSecond
      rwa [size, Nat.add_assoc, ← List.length_append, ← List.flatMap_append] at labelled
    · cases rest with
      | nil =>
        rw [List.append_nil] at isFirst
        subst isFirst
        have labelled := late.labels [] name back isBack.symm
        rwa [size] at labelled
      | cons mark rest =>
        obtain ⟨rfl, -⟩ := List.cons.inj isBack
        exact (early.labels front name rest isFirst).grows late.grows

theorem feeds_values (assembly : Assembly) (values : List Value) :
    Feeds [.data values] assembly { assembly with data := assembly.data ++ values } where
  grows := { Grows.refl assembly with }
  data := by simp [Mark.given]
  labels := fun front name back split => by
    cases front with
    | nil => cases split
    | cons mark front => simp at split

theorem feeds_label {name : String} {id : Nat} (isNamed : before.named.get? name = some id)
    (placed : before.place id = .ok after) : Feeds [.label name] before after := by
  have grows := (place_step placed).1
  obtain ⟨label, found, -, rfl⟩ := place_cases placed
  refine ⟨grows, by simp [Mark.given], fun front other back split => ?_⟩
  cases front with
  | cons mark front => simp at split
  | nil =>
    cases split
    exact ⟨id, { label with code := some before.code.size, data := some before.data.size }, isNamed,
      by simp [(Array.getElem?_eq_some_iff.mp found).1], rfl, rfl⟩

end Assembly

namespace Emit

variable {α β : Type} {context : EmitContext} {marks first second : List Mark}

def Feeds (marks : List Mark) (emit : Emit α) : Prop := Keeps (Assembly.Feeds marks) α emit

theorem feeds_seq {emit : Emit α} {next : α → Emit β} (feeds : Feeds first emit)
    (rest : ∀ value, Feeds second (next value)) :
    Feeds (first ++ second) (emit >>= next) := by
  intro before result after ran
  obtain ⟨value, between, ranFirst, ranNext⟩ := run_seq ran
  exact (feeds before value between ranFirst).trans (rest value between result after ranNext)

theorem feeds_behind {emit : Emit α} {next : α → Emit β} (still : Feeds [] emit)
    (rest : ∀ value, Feeds marks (next value)) :
    Feeds marks (emit >>= next) := feeds_seq still rest

theorem feeds_before {emit : Emit α} {next : α → Emit β} (feeds : Feeds marks emit)
    (rest : ∀ value, Feeds [] (next value)) :
    Feeds marks (emit >>= next) := by
  have both := feeds_seq feeds rest
  rwa [List.append_nil] at both

theorem feeds_nothing : Straight (fun _ => true) (Keeps (Assembly.Feeds [])) :=
  keeps_straight _ (fun assembly => Assembly.feeds_still (.refl assembly) rfl) (fun _ _ _ early late => early.trans late)
    (fun assembly op _ => Assembly.feeds_still (Assembly.emit_step assembly op).1 rfl)
    (fun assembly _ => Assembly.feeds_still { Assembly.Grows.refl assembly with } rfl)
    (fun assembly => Assembly.feeds_still (Assembly.new_label_step assembly none).1 rfl)
    (fun assembly name => Assembly.feeds_still (Assembly.named_label_step assembly name).1
      (congrArg Prod.snd (Assembly.named_label_kept assembly name)))
    (fun assembly name => Assembly.feeds_still (Assembly.entry_label_step assembly name).1
      (by unfold Assembly.entryLabel; split <;> rfl))
    (fun assembly => Assembly.feeds_still { Assembly.Grows.refl assembly with } rfl)

theorem feeds_place (id : Nat) : Keeps (Assembly.Feeds []) Unit (place id) := by
  intro before _ after ran
  have placed := run_place ran
  refine Assembly.feeds_still (Assembly.place_step placed).1 ?_
  obtain ⟨label, -, -, rfl⟩ := Assembly.place_cases placed
  rfl

theorem feeds_leaf (context : EmitContext) (locus : Locus) (stmt : Stmt) (leaf : stmt.isCompound = false) :
    Keeps (Assembly.Feeds stmt.mark?.toList) Unit (Emit.stmt context locus stmt) := by
  have plain {unmarked : Stmt} (leaf : unmarked.isCompound = false) (isPlain : unmarked.isMark = false) :
      Keeps (Assembly.Feeds []) Unit (Emit.stmt context locus unmarked) :=
    straight_leaf context locus unmarked leaf heeds_anything (fun _ _ _ => rfl) (feeds_nothing.restrict fun _ _ => rfl) isPlain
  cases stmt with
  | data items =>
    intro before _ after ran
    cases ran
    exact Assembly.feeds_values before _
  | label name =>
    intro before _ after ran
    obtain ⟨id, named, ranNamed, ran⟩ := run_seq ran
    have isNamed : before.namedLabel name = (id, named) := Except.ok.inj ranNamed
    have found := before.named_label_found name
    rw [isNamed] at found
    exact (feeds_nothing.namedLabel name before id named ranNamed).trans (Assembly.feeds_label found (run_place ran))
  | cond _ | select _ _ | forLoop _ _ _ _ _ _ | whileLoop _ _ | doLoop _ _ _ => cases leaf
  | _ => exact plain rfl rfl

theorem feeds_block (context : EmitContext) (block : Block) :
    Feeds (block.marks.map Prod.snd) (Emit.block context block) := by
  have walk : Walk context (fun _ => true) (fun _ => True) (Assembly.Feeds []) fun places before after =>
      Assembly.Feeds ((places.map Prod.snd).filterMap Stmt.mark?) before after := by
    refine (feeds_nothing.restrict fun _ _ => rfl).gathers feeds_place id (fun {_ _ _ _ _} early late => ?_)
      fun {loops locus stmt inner before after} _ ran parts => ?_
    · rw [List.map_append, List.filterMap_append]
      exact early.trans late
    · cases compound : stmt.isCompound with
      | true =>
        have unmarked : stmt.mark? = none := by cases stmt <;> first | rfl | cases compound
        rw [List.map_cons, List.filterMap_cons_none unmarked]
        exact parts compound
      | false =>
        obtain ⟨rfl, -⟩ := leaf_places compound ran
        have own := feeds_leaf { context with loops } locus stmt compound before () after
          (run_forget (forget_stmt { context with loops } locus stmt) ran)
        cases isMark : stmt.mark? with
        | none => simpa [isMark] using own
        | some mark => simpa [isMark] using own
  intro before _ after ran
  obtain ⟨places, ranPlaces⟩ := run_remember (forget_block context block) ran
  obtain ⟨listed, _, rfl, feeds⟩ :=
    walk.block context.loops block heeds_anything (fun _ _ => trivial) before places after ranPlaces
  rw [block.marks_listed, ← listed]
  exact feeds

theorem feeds_procedure (context : EmitContext) (routine : Routine) :
    Feeds (routine.body.marks.map Prod.snd) (procedure context routine) := by
  unfold procedure
  split
  · intro _ _ _ ran
    cases ran
  · refine feeds_behind (feeds_nothing.setLocus _) fun _ => feeds_behind feeds_nothing.newLabel fun _ =>
      feeds_behind (feeds_nothing.op _ rfl) fun _ => feeds_behind (feeds_nothing.entryLabel _) fun _ =>
      feeds_behind (feeds_place _) fun _ =>
      feeds_behind (closed_each feeds_nothing fun _ _ => feeds_nothing.op _ rfl) fun _ => ?_
    by_cases isFunction : routine.kind = .function
    · simp only [if_pos isFunction]
      exact feeds_behind (feeds_nothing.op _ rfl) fun _ => feeds_behind feeds_nothing.newLabel fun _ =>
        feeds_before (feeds_block _ _) fun _ => feeds_behind (feeds_place _) fun _ =>
        feeds_behind (feeds_nothing.op _ rfl) fun _ => feeds_behind (feeds_nothing.op _ rfl) fun _ => feeds_place _
    · simp only [if_neg isFunction]
      exact feeds_behind feeds_nothing.newLabel fun _ => feeds_before (feeds_block _ _) fun _ =>
        feeds_behind (feeds_place _) fun _ => feeds_behind (feeds_nothing.op _ rfl) fun _ => feeds_place _

theorem feeds_procedures (context : EmitContext) (procedures : List Routine) :
    Feeds ((procedures.flatMap fun routine => routine.body.marks).map Prod.snd) (procedures.forM (procedure context)) := by
  induction procedures with
  | nil => exact feeds_nothing.unit ()
  | cons routine rest ih =>
    rw [List.flatMap_cons, List.map_append]
    exact feeds_seq (feeds_procedure context routine) fun _ => ih

theorem feeds_program (context : EmitContext) (program : Program) :
    Feeds (program.marks.map Prod.snd) (Emit.program context program) := by
  rw [Program.marks, List.map_append]
  refine feeds_behind (closed_each feeds_nothing fun listed _ => ?_) fun _ =>
    feeds_seq (feeds_block _ _) fun _ => feeds_behind (feeds_nothing.op _ rfl) fun _ =>
    feeds_before (feeds_procedures _ _) fun _ => ?_
  · exact keeps_letter_types feeds_nothing (fun _ _ _ => feeds_nothing.op _ rfl) _ listed.1 listed.2
  · split
    · exact feeds_nothing.op _ rfl
    · exact feeds_nothing.unit ()

theorem CodeAt.restore {whole : Assembly} {place : Nat} {name : String}
    (code : CodeAt context whole place (.restore (some name))) :
    ∃ id locus, whole.named.get? name = some id ∧ whole.code[place]? = some ⟨.restore (.label id), locus⟩ := by
  obtain ⟨loops, locus, before, places, after, rfl, grows, ran⟩ := code
  obtain ⟨⟨⟩, restored, ran, rest⟩ := run_seq ran
  cases rest
  obtain ⟨id, named, ranNamed, ran⟩ := run_seq ran
  cases ran
  have isNamed : before.namedLabel name = (id, named) := Except.ok.inj ranNamed
  have found := before.named_label_found name
  have same := congrArg Prod.fst (before.named_label_kept name)
  rw [isNamed] at found same
  exact ⟨id, named.locus, grows.named name id found, grows.fetched (by simp [Assembly.emit, ← show _ = before.code from same])⟩

theorem CodeAt.restore_first {whole : Assembly} {place : Nat} (code : CodeAt context whole place (.restore none)) :
    ∃ locus, whole.code[place]? = some ⟨.restore (.resolved 0), locus⟩ := by
  obtain ⟨loops, locus, before, places, after, rfl, grows, ran⟩ := code
  cases ran
  exact ⟨before.locus, grows.fetched (by simp [Assembly.emit])⟩

end Emit

namespace Program

variable {program : Program} {symbols : SymbolTable} {registry : Registry} {image : Image} {spans : List Span}

theorem image_data (coded : program.image symbols registry = .ok image) :
    image.data.toList = valuesOf program.marks := by
  obtain ⟨spans, whole, -, ran, -, -, -, data⟩ := image_laid_out coded
  rw [data, (Emit.feeds_program _ program .empty () whole ran).data, List.flatMap_map]
  rfl

theorem image_restores (coded : program.image symbols registry = .ok image)
    (isLayout : program.layout? symbols registry = some spans) {span : Span} (isSpan : span ∈ spans) {place : Nat}
    {name : String} (isRestore : (place, Stmt.restore (some name)) ∈ span.places) {front back : List (Locus × Mark)}
    {locus : Locus} (marks : program.marks = front ++ (locus, .label name) :: back) :
    image.Fetches place (.restore (.resolved (valuesOf front).length)) := by
  obtain ⟨whole, ran, ranLayout, links, -⟩ := laid_out coded isLayout
  obtain ⟨exit, housed⟩ := Emit.housed_layout ranLayout span isSpan
  obtain ⟨id, locus, isId, found⟩ := (housed.statements place _ isRestore).restore
  obtain ⟨other, label, isOther, isLabel, -, isData⟩ :=
    (Emit.feeds_program _ program .empty () whole ran).labels (front.map Prod.snd) name (back.map Prod.snd) (by simp [marks])
  obtain rfl : id = other := Option.some.inj (isId.symm.trans isOther)
  obtain ⟨result, isResult, there⟩ := links _ _ found
  obtain ⟨_, data, rfl, -, resolves⟩ := Assembly.link_cases isResult
  obtain ⟨count, isCount, isTarget⟩ := Assembly.resolve_label_place (resolves _ rfl)
  obtain rfl : count = (valuesOf front).length := by
    rw [isLabel, Option.bind_some, isData, Option.some.injEq, List.flatMap_map] at isCount
    rw [← isCount]
    exact Nat.zero_add _
  rw [Op.retarget, isTarget] at there
  exact ⟨locus, there⟩

theorem image_restores_first (coded : program.image symbols registry = .ok image)
    (isLayout : program.layout? symbols registry = some spans) {span : Span} (isSpan : span ∈ spans) {place : Nat}
    (isRestore : (place, Stmt.restore none) ∈ span.places) : image.Fetches place (.restore (.resolved 0)) := by
  obtain ⟨whole, -, ranLayout, links, -⟩ := laid_out coded isLayout
  obtain ⟨exit, housed⟩ := Emit.housed_layout ranLayout span isSpan
  obtain ⟨locus, found⟩ := (housed.statements place _ isRestore).restore_first
  obtain ⟨result, isResult, there⟩ := links _ _ found
  rw [Assembly.link_plain whole rfl locus] at isResult
  cases isResult
  exact ⟨locus, there⟩

theorem Accepted.restore_marked (accepted : program.Accepted symbols registry)
    (coded : program.image symbols registry = .ok image) (isLayout : program.layout? symbols registry = some spans)
    {span : Span} (isSpan : span ∈ spans) {place : Nat}
    {name : String} (isRestore : (place, Stmt.restore (some name)) ∈ span.places) :
    ∃ locus, (locus, Mark.label name) ∈ program.marks := by
  obtain ⟨whole, -, ranLayout, -⟩ := laid_out coded isLayout
  obtain ⟨spread, routines⟩ := Emit.spread_layout ranLayout
  have isRoutine : span.routine ∈ program.routines := routines ▸ List.mem_map_of_mem isSpan
  have listed : Stmt.restore (some name) ∈ span.routine.body.statements :=
    (spread.each span isSpan).statements ▸ List.mem_map_of_mem isRestore
  obtain ⟨checked, -, known⟩ := Block.Accepted.statements _ _ (accepted.bodies _ isRoutine) _ listed
  have isLabel : name ∈ program.labels := accepted.knows name (known name rfl)
  rw [labels_of_bodies, List.mem_flatMap] at isLabel
  obtain ⟨routine, inside, isLabel⟩ := isLabel
  obtain ⟨locus, isMark⟩ := Block.label_marked routine.body isLabel
  rcases List.mem_cons.mp inside with rfl | isProcedure
  · exact ⟨locus, List.mem_append_left _ isMark⟩
  · exact ⟨locus, List.mem_append_right _ (List.mem_flatMap.mpr ⟨routine, isProcedure, isMark⟩)⟩

end Program

namespace Check

def Results {α : Type} (holds : α → Prop) (check : Check α) : Prop := ∀ state, holds (check.run state).1

section Rules

variable {α β : Type} {holds : α → Prop} {final : β → Prop}

theorem results_unit {value : α} (isSo : holds value) : Results holds (pure value) := fun _ => isSo

theorem results_seq {first : Check α} {next : α → Check β} (results : Results holds first)
    (rest : ∀ value, holds value → Results final (next value)) : Results final (first >>= next) :=
  fun state => rest _ (results state) _

theorem results_behind {first : Check α} {next : α → Check β} (rest : ∀ value, Results final (next value)) :
    Results final (first >>= next) := fun _ => rest _ _

end Rules

mutual

theorem marks_stmt (context : CheckContext) (locus : Locus) (stmt : Stmt) :
    Results (fun checked => checked.marks locus = stmt.marks locus) (Check.stmt context locus stmt) := by
  cases stmt with
  | cond branches =>
    exact results_seq (marks_arms context branches) fun _ same => results_unit same
  | select test clauses =>
    exact results_behind fun _ => results_seq (marks_cases context _ clauses) fun _ same => results_unit same
  | forLoop name first last step body next =>
    refine results_behind fun _ => results_behind fun _ => results_behind fun _ => results_behind fun _ =>
      results_seq (marks_block (context.inLoop .forLoop) body) fun _ same => ?_
    split
    · split
      · exact results_behind fun _ => results_unit same
      · exact results_unit same
    · exact results_unit same
  | whileLoop condition body =>
    exact results_behind fun _ => results_seq (marks_block (context.inLoop .whileLoop) body) fun _ same => results_unit same
  | doLoop before body after =>
    exact results_behind fun _ => results_seq (marks_block (context.inLoop .doLoop) body) fun _ same =>
      results_behind fun _ => results_unit same
  | assign target value =>
    refine results_behind fun _ => results_behind fun _ => ?_
    split
    · exact results_behind fun _ => results_unit rfl
    · exact results_unit rfl
  | dim shared decls =>
    rw [Check.stmt]
    split
    · exact results_behind fun _ => results_behind fun _ => results_unit rfl
    · exact results_behind fun _ => results_unit rfl
  | exit target =>
    rw [Check.stmt]
    split
    · exact results_behind fun _ => results_unit rfl
    · exact results_unit rfl
  | restore label =>
    cases label with
    | none => exact results_unit rfl
    | some name =>
      refine results_behind fun _ => ?_
      split
      · exact results_behind fun _ => results_unit rfl
      · exact results_unit rfl
  | _ => exact fun _ => rfl

theorem marks_block (context : CheckContext) (block : Block) :
    Results (fun checked => checked.marks = block.marks) (Check.block context block) := by
  cases block with
  | nil => exact results_unit rfl
  | cons locus head tail =>
    refine results_seq (marks_stmt context locus head) fun checked isHead =>
      results_seq (marks_block context tail) fun others isTail => results_unit ?_
    rw [Block.marks, isHead, isTail, Block.marks]

theorem marks_arms (context : CheckContext) (arms : Arms) :
    Results (fun checked => checked.marks = arms.marks) (Check.arms context arms) := by
  cases arms with
  | none => exact results_unit rfl
  | otherwise body => exact results_seq (marks_block context.nested body) fun _ same => results_unit same
  | arm condition body rest =>
    refine results_behind fun _ => results_seq (marks_block context.nested body) fun checked isBody =>
      results_seq (marks_arms context rest) fun others isRest => results_unit ?_
    rw [Arms.marks, isBody, isRest, Arms.marks]

theorem marks_cases (context : CheckContext) (test : Ty) (cases : Cases) :
    Results (fun checked => checked.marks = cases.marks) (Check.cases context test cases) := by
  cases cases with
  | none => exact results_unit rfl
  | otherwise body => exact results_seq (marks_block context.nested body) fun _ same => results_unit same
  | clause locus patterns body rest =>
    refine results_behind fun _ => results_seq (marks_block context.nested body) fun checked isBody =>
      results_seq (marks_cases context test rest) fun others isRest => results_unit ?_
    rw [Cases.marks, isBody, isRest, Cases.marks]

end

theorem marks_routine (registry : Registry) (routine : Routine) :
    Results (fun checked => checked.body.marks = routine.body.marks) (Check.routine registry routine) := by
  have rest (context : CheckContext) : Results (fun checked => checked.body.marks = routine.body.marks) (do
      let body ← block context routine.body
      modify fun state => { state with symbols := state.symbols.exitScope }
      return { routine with body }) :=
    results_seq (marks_block context routine.body) fun _ same => results_behind fun _ => results_unit same
  refine results_behind fun _ => results_behind fun _ => ?_
  split
  · refine results_behind fun _ => ?_
    split
    · exact results_behind fun _ => rest _
    · exact rest _
  · exact rest _

theorem marks_routines (registry : Registry) (routines : List Routine) :
    Results (fun checked => (checked.flatMap fun routine => routine.body.marks) =
      routines.flatMap fun routine => routine.body.marks) (routines.mapM (Check.routine registry)) := by
  induction routines with
  | nil => exact results_unit rfl
  | cons routine rest ih =>
    rw [List.mapM_cons]
    refine results_seq (marks_routine registry routine) fun checked isFirst => results_seq ih fun others isRest =>
      results_unit ?_
    rw [List.flatMap_cons, List.flatMap_cons, isFirst, isRest]

theorem marks_program (registry : Registry) (program : Program) :
    Results (fun checked => checked.main.marks = program.main.marks ∧ checked.procedureMarks = program.procedureMarks)
      (Check.program registry program) :=
  results_behind fun _ => results_seq (marks_routine registry (.main program.main)) fun _ isMain =>
    results_seq (marks_routines registry program.procedures) fun _ isRest => results_unit ⟨isMain, isRest⟩

end Check

theorem Program.check_marks (program : Program) (registry : Registry) :
    (program.check registry).program.main.marks = program.main.marks ∧
      (program.check registry).program.procedureMarks = program.procedureMarks :=
  Check.marks_program registry program ⟨.empty, []⟩

end BasicLang
