import BasicLang.Proofs.Code.Layout
import BasicLang.Proofs.Code.Phrase

set_option autoImplicit false

namespace BasicLang

namespace Assembly

theorem place_of_placed {before after : Assembly} {id : Nat} (placed : before.place id = .ok after) (other : Nat) :
    after.placeOf? other = if other = id then some before.code.size else before.placeOf? other := by
  obtain ⟨label, found, -, rfl⟩ := place_cases placed
  unfold placeOf?
  rw [Array.getElem?_setIfInBounds]
  by_cases same : other = id
  · subst same
    simp [(Array.getElem?_eq_some_iff.mp found).1]
  · simp [same, Ne.symm same]

theorem named_label_places (assembly : Assembly) (name : String) (id : Nat) :
    (assembly.namedLabel name).2.placeOf? id = assembly.placeOf? id := by
  unfold namedLabel
  split
  · rfl
  · exact place_of_push _ _ _

theorem named_label_code (assembly : Assembly) (name : String) :
    (assembly.namedLabel name).2.code = assembly.code := by
  unfold namedLabel
  split <;> rfl

theorem entry_label_places (assembly : Assembly) (name : String) (id : Nat) :
    (assembly.entryLabel name).2.placeOf? id = assembly.placeOf? id := by
  unfold entryLabel
  split
  · rfl
  · exact place_of_push _ _ _

theorem entry_label_code (assembly : Assembly) (name : String) :
    (assembly.entryLabel name).2.code = assembly.code := by
  unfold entryLabel
  split <;> rfl

theorem entry_label_named (assembly : Assembly) (name : String) :
    (assembly.entryLabel name).2.named = assembly.named := by
  unfold entryLabel
  split <;> rfl

def Labels (assembly : Assembly) (places : List (Nat × Stmt)) : Prop :=
  ∀ place name, (place, Stmt.label name) ∈ places →
    ∃ id, assembly.named.get? name = some id ∧ assembly.placeOf? id = some place

structure Holds (assembly : Assembly) (span : Span) : Prop where
  filled : span.first < span.stop
  inside : span.stop ≤ assembly.code.size
  statements : span.places.map Prod.snd = span.routine.body.statements
  labels : assembly.Labels span.places
  ends : ∃ locus, assembly.code[span.stop - 1]? = some ⟨.ret, locus⟩ ∨ assembly.code[span.stop - 1]? = some ⟨.stop, locus⟩
  procedure : span.routine.kind ≠ .main →
    (∃ id, assembly.entries.get? span.routine.name = some id ∧ assembly.placeOf? id = some span.first) ∧
      ∃ locus, assembly.code[span.stop - 1]? = some ⟨.ret, locus⟩

structure Spread (spans : List Span) (assembly : Assembly) : Prop where
  each : ∀ span ∈ spans, assembly.Holds span
  ordered : spans.Pairwise fun left right => left.stop ≤ right.first

def dataOf? (assembly : Assembly) (id : Nat) : Option Nat :=
  assembly.labels[id]?.bind LabelPlace.data

structure Within (assembly : Assembly) : Prop where
  code : ∀ id place, assembly.placeOf? id = some place → place ≤ assembly.code.size
  data : ∀ id place, assembly.dataOf? id = some place → place ≤ assembly.data.size
  targets : ∀ instruction ∈ assembly.code, instruction.op.isUnlinked = true

variable {before after : Assembly}

theorem Grows.longer (grows : Grows before after) : before.code.size ≤ after.code.size := by
  simpa using grows.code.length_le

theorem Within.below {last : Assembly} (within : last.Within) {op : Op} {id place : Nat}
    (placed : (last.emit op).placeOf? id = some place) : place < (last.emit op).code.size := by
  rw [emit, Array.size_push]
  exact Nat.lt_succ_of_le (within.code id place placed)

theorem empty_within : Within empty where
  code := fun _ _ placed => nomatch placed
  data := fun _ _ placed => nomatch placed
  targets := fun _ inside => nomatch inside

theorem Within.labels {assembly : Assembly} (within : assembly.Within) {name : Option String}
    {named entries : Table Nat} :
    Within { assembly with labels := assembly.labels.push { name, code := none, data := none }, named, entries } where
  code := fun id place placed => within.code id place ((place_of_push _ name id).symm.trans placed)
  data := fun id place placed => by
    refine within.data id place ?_
    rw [dataOf?, Array.getElem?_push] at placed
    split at placed
    · cases placed
    · exact placed
  targets := within.targets

theorem Within.emit {assembly : Assembly} (within : assembly.Within) {op : Op} (unlinked : op.isUnlinked = true) :
    (assembly.emit op).Within where
  code := fun id place placed => Nat.le_trans (within.code id place placed) (by simp [Assembly.emit])
  data := within.data
  targets := fun instruction inside => by
    rcases Array.mem_push.mp inside with isOld | rfl
    · exact within.targets instruction isOld
    · exact unlinked

theorem Within.place {before after : Assembly} (within : before.Within) {id : Nat}
    (isPlaced : before.place id = .ok after) :
    after.Within := by
  have places := place_of_placed isPlaced
  obtain ⟨label, found, -, rfl⟩ := place_cases isPlaced
  refine ⟨fun other place placed => ?_, fun other place placed => ?_, within.targets⟩
  · rw [places] at placed
    split at placed
    · exact Nat.le_of_eq (Option.some.inj placed).symm
    · exact within.code other place placed
  · rw [dataOf?, Array.getElem?_setIfInBounds] at placed
    split at placed
    · split at placed
      · exact Nat.le_of_eq (Option.some.inj placed).symm
      · cases placed
    · exact within.data other place placed

theorem Labels.grows {places : List (Nat × Stmt)} (labels : before.Labels places) (grows : Grows before after) :
    after.Labels places := by
  intro place name inside
  obtain ⟨id, found, placed⟩ := labels place name inside
  exact ⟨id, grows.named name id found, grows.place_kept placed⟩

theorem Holds.grows {span : Span} (holds : before.Holds span) (grows : Grows before after) : after.Holds span where
  filled := holds.filled
  inside := Nat.le_trans holds.inside grows.longer
  statements := holds.statements
  labels := holds.labels.grows grows
  ends := by
    obtain ⟨locus, ends⟩ := holds.ends
    exact ⟨locus, ends.imp grows.fetched grows.fetched⟩
  procedure := fun isProcedure => by
    obtain ⟨⟨id, isEntry, placed⟩, locus, returns⟩ := holds.procedure isProcedure
    exact ⟨⟨id, grows.entries _ id isEntry, grows.place_kept placed⟩, locus, grows.fetched returns⟩

theorem Spread.grows {spans : List Span} (spread : before.Spread spans) (grows : Grows before after) :
    after.Spread spans :=
  ⟨fun span isSpan => (spread.each span isSpan).grows grows, spread.ordered⟩

end Assembly

namespace Emit

theorem keeps_seen {admits : Op → Bool} {relation : Assembly → Assembly → Prop}
    (same : ∀ before after : Assembly, after.code = before.code → after.placeOf? = before.placeOf? →
      relation before after)
    (trans : ∀ first second third, relation first second → relation second third → relation first third)
    (op : ∀ assembly operation, admits operation = true → relation assembly (assembly.emit operation)) :
    Straight admits (Keeps relation) :=
  keeps_straight relation (fun _ => same _ _ rfl rfl) trans op (fun _ _ => same _ _ rfl rfl)
    (fun _ => same _ _ rfl (funext (Assembly.place_of_push _ none)))
    (fun assembly name => same _ _ (assembly.named_label_code name) (funext (assembly.named_label_places name)))
    (fun assembly name => same _ _ (assembly.entry_label_code name) (funext (assembly.entry_label_places name)))
    fun _ => same _ _ rfl rfl

section Statements

variable {α : Type} {context : EmitContext} {noted : List (Nat × Stmt)} {stmts inside : List Stmt}

def CodeAt (context : EmitContext) (whole : Assembly) (place : Nat) (stmt : Stmt) : Prop :=
  ∃ loops locus before places after, before.code.size = place ∧ Assembly.Grows after whole ∧
    (stmtPlaces { context with loops } locus stmt).run before = .ok (places, after)

def CodesAt (context : EmitContext) (places : List (Nat × Stmt)) (whole : Assembly) : Prop :=
  ∀ place stmt, (place, stmt) ∈ places → CodeAt context whole place stmt

theorem CodesAt.grows {places : List (Nat × Stmt)} {before after : Assembly} (codes : CodesAt context places before)
    (grows : Assembly.Grows before after) : CodesAt context places after := by
  intro place stmt inside
  obtain ⟨loops, locus, start, inner, last, here, within, ran⟩ := codes place stmt inside
  exact ⟨loops, locus, start, inner, last, here, within.trans grows, ran⟩

theorem codes_block {block : Block} {before after : Assembly} {places : List (Nat × Stmt)}
    (ran : (blockPlaces context block).run before = .ok (places, after)) :
    CodesAt context places after ∧ places.map Prod.snd = block.statements := by
  have walk : Walk context (fun _ => true) (fun _ => True) Assembly.Step
      fun places before after => Assembly.Step before after ∧ CodesAt context places after := by
    refine keeps_step.plain.toStraight.gathers keeps_step.place (fun steps => ⟨steps, fun _ _ inside => nomatch inside⟩)
      (fun {_ _ _ _ _} early late => ⟨Assembly.step_trans early.1 late.1, fun place stmt inside => ?_⟩)
      fun {loops locus head inner before after} _ ran parts => ?_
    · rcases List.mem_append.mp inside with isEarly | isLate
      · exact early.2.grows late.1.1 place stmt isEarly
      · exact late.2 place stmt isLate
    · have grows := keeps_stmt_places keeps_step.body { context with loops } locus head before inner after ran
      refine ⟨grows, fun place stmt inside => ?_⟩
      rcases List.mem_cons.mp inside with isFirst | isInner
      · obtain ⟨rfl, rfl⟩ := Prod.mk.inj isFirst
        exact ⟨loops, locus, before, inner, after, rfl, .refl _, ran⟩
      · cases compound : head.isCompound with
        | true => exact (parts compound).2 place stmt isInner
        | false =>
          rw [(leaf_places compound ran).1] at isInner
          cases isInner
  obtain ⟨listed, _, rfl, -, codes⟩ := walk.block context.loops block heeds_anything (fun _ _ => trivial)
    before places after ran
  exact ⟨codes, listed⟩

theorem CodeAt.label {whole : Assembly} {place : Nat} {name : String}
    (coded : CodeAt context whole place (.label name)) :
    ∃ id, whole.named.get? name = some id ∧ whole.placeOf? id = some place := by
  obtain ⟨loops, locus, before, places, after, rfl, grows, ran⟩ := coded
  obtain ⟨⟨⟩, placed, ran, rest⟩ := run_seq ran
  cases rest
  obtain ⟨id, named, ranNamed, ran⟩ := run_seq ran
  have isNamed : before.namedLabel name = (id, named) := Except.ok.inj ranNamed
  have found := before.named_label_found name
  have code : named.code = before.code := by
    have same := Assembly.named_label_code before name
    rwa [isNamed] at same
  rw [isNamed] at found
  have isPlaced := run_place ran
  refine ⟨id, grows.named name id ((Assembly.place_step isPlaced).1.named name id found), grows.place_kept ?_⟩
  rw [Assembly.place_of_placed isPlaced, if_pos rfl, code]

theorem CodesAt.labels {places : List (Nat × Stmt)} {whole : Assembly} (codes : CodesAt context places whole) :
    whole.Labels places :=
  fun place name inside => (codes place (.label name) inside).label

end Statements

section Spans

variable {context : EmitContext} {before after start last closed : Assembly} {routine : Routine}

theorem head_enters {skip : Nat} (ran : (procedureHead routine).run before = .ok (skip, start)) :
    before.code.size < start.code.size ∧
      ∃ id, start.entries.get? routine.name = some id ∧ start.placeOf? id = some start.code.size := by
  obtain ⟨-, placed⟩ := procedure_head_cases ran
  have size : (skipping routine before).2.code.size = before.code.size + 1 := by
    rw [skipping, Assembly.entry_label_code]
    exact Array.size_push _
  have isEntry : (skipping routine before).2.entries.get? routine.name = some (skipping routine before).1 :=
    Assembly.entry_label_found _ routine.name
  have places := Assembly.place_of_placed placed (skipping routine before).1
  have kept := (Assembly.place_step placed).1.entries routine.name _ isEntry
  have code : start.code = (skipping routine before).2.code := by
    obtain ⟨label, -, -, rfl⟩ := Assembly.place_cases placed
    rfl
  rw [if_pos rfl, ← code] at places
  rw [code, size]
  refine ⟨Nat.lt_succ_self _, _, kept, ?_⟩
  rw [places, code, size]

theorem tail_returns (ran : (procedureTail routine).run last = .ok ((), closed)) :
    last.code.size < closed.code.size ∧ ∃ locus, closed.code[closed.code.size - 1]? = some ⟨.ret, locus⟩ := by
  have ends (before : Assembly) :
      (before.emit .ret).code[(before.emit .ret).code.size - 1]? = some ⟨.ret, before.locus⟩ := by
    simp [Assembly.emit]
  rw [procedure_tail_cases ran]
  refine ⟨?_, _, ends _⟩
  split
  · simp only [Assembly.emit, Array.size_push]
    omega
  · simp [Assembly.emit]

theorem body_codes {entry : ProcedureEntry} {places : List (Nat × Stmt)}
    (ran : (procedureBody context entry routine).run start = .ok (places, last)) :
    ∃ exit, last.placeOf? exit = some last.code.size ∧ CodesAt { context with exit := some exit } places last ∧
      places.map Prod.snd = routine.body.statements := by
  obtain ⟨⟨⟩, bound, -, ran⟩ := run_seq ran
  have rest {before : Assembly} (ran : (do
      let exit ← newLabel
      let places ← blockPlaces { context with exit := some exit } routine.body
      place exit
      return places : Emit (List (Nat × Stmt))).run before = .ok (places, last)) :
      ∃ exit, last.placeOf? exit = some last.code.size ∧ CodesAt { context with exit := some exit } places last ∧
        places.map Prod.snd = routine.body.statements := by
    obtain ⟨exit, labelled, -, ran⟩ := run_seq ran
    obtain ⟨inner, between, body, ran⟩ := run_seq ran
    obtain ⟨⟨⟩, placed, ranPlace, ran⟩ := run_seq ran
    cases ran
    have isPlaced := run_place ranPlace
    obtain ⟨codes, statements⟩ :=
      codes_block body
    refine ⟨exit, ?_, codes.grows (Assembly.place_step isPlaced).1, statements⟩
    rw [Assembly.place_of_placed isPlaced, if_pos rfl]
    obtain ⟨label, -, -, rfl⟩ := Assembly.place_cases isPlaced
    rfl
  dsimp only at ran
  split at ran
  · obtain ⟨⟨⟩, declared, -, ran⟩ := run_seq ran
    exact rest ran
  · exact rest ran

theorem holds_procedure {span : Span} (ran : (procedureSpan context routine).run before = .ok (span, after)) :
    before.code.size < span.first ∧ span.routine = routine ∧ after.Holds span := by
  obtain ⟨entry, skip, start, places, last, closed, -, head, body, tail, placed, rfl⟩ := procedure_span_cases ran
  obtain ⟨later, id, isEntry, isPlace⟩ := head_enters head
  have bodyGrows := (keeps_procedure_body keeps_step.body keeps_step.parameter context entry routine start places last body).1
  have tailGrows := (keeps_procedure_tail keeps_step.plain routine last () closed tail).1
  have placeGrows := (Assembly.place_step placed).1
  obtain ⟨_, -, codes, statements⟩ := body_codes body
  obtain ⟨longer, locus, returns⟩ := tail_returns tail
  refine ⟨later, rfl, ?_, placeGrows.longer, statements, codes.labels.grows (tailGrows.trans placeGrows),
    ⟨locus, .inl ?_⟩, fun _ => ⟨⟨id, ?_, ?_⟩, locus, ?_⟩⟩
  · exact Nat.lt_of_le_of_lt bodyGrows.longer longer
  · exact placeGrows.fetched returns
  · exact (bodyGrows.trans (tailGrows.trans placeGrows)).entries _ id isEntry
  · exact (bodyGrows.trans (tailGrows.trans placeGrows)).place_kept isPlace
  · exact placeGrows.fetched returns

theorem spread_procedure (routine : Routine) (done : List Span) :
    Reaches (Assembly.Spread done) (procedureSpan context routine) fun span => Assembly.Spread (done ++ [span]) := by
  intro before span after spread ran
  obtain ⟨later, -, holds⟩ := holds_procedure ran
  have grown := spread.grows (keeps_procedure_span keeps_step.body keeps_step.parameter context routine before span after ran).1
  refine ⟨List.forall_mem_append.mpr ⟨grown.each, List.forall_mem_singleton.mpr holds⟩, ?_⟩
  refine List.pairwise_append.mpr ⟨spread.ordered, List.pairwise_singleton _ _, fun early isEarly late isLate => ?_⟩
  rw [List.mem_singleton.mp isLate]
  exact Nat.le_trans (spread.each early isEarly).inside (Nat.le_of_lt later)

theorem spread_main {main : Block} {span : Span} (ran : (mainSpan context main).run before = .ok (span, after)) :
    after.Spread [span] := by
  obtain ⟨start, places, last, -, body, rfl, rfl⟩ := main_span_cases ran
  have size : (last.emit .stop).code.size = last.code.size + 1 := Array.size_push _
  obtain ⟨codes, statements⟩ := codes_block body
  refine ⟨List.forall_mem_singleton.mpr ⟨?_, Nat.le_refl _, statements, codes.labels.grows (Assembly.emit_step last _).1,
    ⟨last.locus, .inr ?_⟩, ?_⟩, List.pairwise_singleton _ _⟩
  · rw [size]
    exact Nat.succ_pos _
  · simp [Assembly.emit]
  · exact fun isProcedure => absurd rfl isProcedure

theorem procedure_routines {routines : List Routine} {spans : List Span}
    (ran : (routines.mapM (procedureSpan context)).run before = .ok (spans, after)) :
    spans.map Span.routine = routines := by
  induction routines generalizing before spans with
  | nil =>
    rw [List.mapM_nil] at ran
    cases ran
    rfl
  | cons head tail ih =>
    rw [List.mapM_cons] at ran
    obtain ⟨span, between, ranHead, ran⟩ := run_seq ran
    obtain ⟨rest, last, ranTail, ran⟩ := run_seq ran
    cases ran
    rw [List.map_cons, (holds_procedure ranHead).2.1, ih ranTail]

theorem spread_layout {program : Program} {spans : List Span} {whole : Assembly}
    (ran : (layout context program).run before = .ok (spans, whole)) :
    whole.Spread spans ∧ spans.map Span.routine = program.routines := by
  obtain ⟨main, others, between, last, ranMain, ranOthers, rfl, rfl⟩ := layout_cases ran
  have spread := reaches_map (fun routine _ done => spread_procedure routine done) [main] between others last
    (spread_main ranMain) ranOthers
  refine ⟨?_, ?_⟩
  · split
    · exact spread
    · exact spread.grows (Assembly.emit_step last _).1
  · obtain ⟨_, _, _, -, -, -, rfl⟩ := main_span_cases ranMain
    rw [List.map_cons, procedure_routines ranOthers]
    rfl

end Spans

section Within

variable {context : EmitContext} {program : Program} {whole : Assembly} {spans : List Span}

theorem keeps_within : Growing Op.isUnlinked fun before after => before.Within → after.Within :=
  keeps_closed _ (fun _ => id) (fun _ _ _ early late => late ∘ early)
    (fun _ _ unlinked within => within.emit unlinked)
    (fun _ _ within => { within with })
    (fun _ within => within.labels)
    (fun assembly name within => by
      unfold Assembly.namedLabel
      split
      · exact within
      · exact within.labels)
    (fun assembly name within => by
      unfold Assembly.entryLabel
      split
      · exact within
      · exact within.labels)
    (fun _ within => { within with })
    (fun assembly values within =>
      { within with
        data := fun id place placed => by
          have grown : (assembly.data ++ values).size = assembly.data.size + values.length := by
            rw [← Array.length_toList, Array.toList_appendList, List.length_append, Array.length_toList]
          exact grown ▸ Nat.le_add_right_of_le (within.data id place placed) })
    fun _ _ _ isPlaced within => within.place isPlaced

theorem main_ends {main : Block} {before after : Assembly} {span : Span}
    (ran : (mainSpan context main).run before = .ok (span, after)) (within : before.Within) :
    ∃ last : Assembly, last.Within ∧ after = last.emit .stop := by
  obtain ⟨start, places, last, letters, body, rfl, -⟩ := main_span_cases ran
  have started := keeps_letters keeps_within.plain (fun _ _ _ => keeps_within.op _ rfl) context main before () start
    letters within
  exact ⟨last, keeps_block_places keeps_within.body context main start places last body started, rfl⟩

theorem layout_ends (ran : (layout context program).run .empty = .ok (spans, whole)) :
    ∃ last : Assembly, last.Within ∧ whole = last.emit .stop := by
  obtain ⟨main, others, between, last, ranMain, ranOthers, -, rfl⟩ := layout_cases ran
  obtain ⟨mainLast, mainWithin, rfl⟩ := main_ends ranMain Assembly.empty_within
  split
  · next none =>
    rw [none, List.mapM_nil] at ranOthers
    cases ranOthers
    exact ⟨mainLast, mainWithin, rfl⟩
  · have mainEnd := keeps_within.op .stop rfl mainLast () _ rfl mainWithin
    have each := keeps_map keeps_within program.procedures
      (keeps_procedure_span keeps_within.body keeps_within.parameter context)
    exact ⟨last, each _ others last ranOthers mainEnd, rfl⟩

end Within

end Emit

end BasicLang
