import BasicLang.Proofs.Code.StackDiscipline
import BasicLang.Proofs.Machine.Control

set_option autoImplicit false

namespace BasicLang

def Span.Has (span : Span) (place : Nat) : Prop := span.first ≤ place ∧ place < span.stop

namespace Assembly

variable {before after start last closed : Assembly} {symbols : SymbolTable} {site : Site}

def Later (before after : Assembly) : Prop :=
  before.code.size ≤ after.code.size ∧
    ∀ id place, after.placeOf? id = some place → before.placeOf? id = some place ∨ before.code.size ≤ place

theorem later_trans {first second third : Assembly} (early : Later first second) (late : Later second third) :
    Later first third := by
  refine ⟨Nat.le_trans early.1 late.1, fun id place placed => ?_⟩
  rcases late.2 id place placed with isOld | isLate
  · exact early.2 id place isOld
  · exact .inr (Nat.le_trans early.1 isLate)

-- A label of the source or of the code that stands before an instruction of the routine. It is not one that binds a
-- parameter.
def Lies (span : Span) (assembly : Assembly) (id : Nat) : Prop :=
  ∃ place, assembly.placeOf? id = some place ∧ span.Has place ∧
    ∃ instruction, assembly.code[place]? = some instruction ∧ instruction.op.bindsParameter = false

def Contains (assembly : Assembly) (span : Span) : Prop :=
  ∀ place instruction, span.Has place → assembly.code[place]? = some instruction →
    assembly.Aims (assembly.Lies span) instruction.op

theorem Lies.grows {span : Span} {id : Nat} (lies : before.Lies span id) (grows : Grows before after) :
    after.Lies span id := by
  obtain ⟨place, placed, inside, instruction, found, unbound⟩ := lies
  exact ⟨place, grows.place_kept placed, inside, instruction, grows.fetched found, unbound⟩

def Adds (admits : Op → Bool) (before after : Assembly) : Prop :=
  before.code.toList <+: after.code.toList ∧
    ∀ place instruction, before.code.size ≤ place → after.code[place]? = some instruction → admits instruction.op = true

theorem adds_trans {admits : Op → Bool} {first second third : Assembly} (early : Adds admits first second)
    (late : Adds admits second third) : Adds admits first third := by
  refine ⟨early.1.trans late.1, fun place instruction behind found => ?_⟩
  by_cases isOld : place < second.code.size
  · have old : second.code[place]? = some second.code[place] := Array.getElem?_eq_getElem isOld
    rw [← Option.some.inj ((fetched_longer late.1 old).symm.trans found)]
    exact early.2 place _ behind old
  · exact late.2 place instruction (Nat.not_lt.mp isOld) found

theorem adds_still {admits : Op → Bool} (same : after.code = before.code) : Adds admits before after := by
  refine ⟨same ▸ List.prefix_refl _, fun place instruction behind found => ?_⟩
  rw [same] at found
  exact absurd (Array.getElem?_eq_some_iff.mp found).1 (Nat.not_lt.mpr behind)

theorem adds_emit {admits : Op → Bool} {op : Op} (admitted : admits op = true) :
    Adds admits before (before.emit op) := by
  refine ⟨(emit_step before op).1.code, fun place instruction behind found => ?_⟩
  rw [emit, Array.getElem?_push] at found
  split at found
  · exact Option.some.inj found ▸ admitted
  · exact absurd (Array.getElem?_eq_some_iff.mp found).1 (Nat.not_lt.mpr behind)

theorem Contains.grows {span : Span} (contains : before.Contains span) (inside : span.stop ≤ before.code.size)
    (grows : Grows before after) : after.Contains span := by
  intro place instruction isPart found
  have below : place < before.code.size := Nat.lt_of_lt_of_le isPart.2 inside
  have old : before.code[place]? = some before.code[place] := Array.getElem?_eq_getElem below
  rw [← Option.some.inj ((grows.fetched old).symm.trans found)]
  exact (contains place _ isPart old).grows grows fun _ lies => lies.grows grows

-- Where every pending label is older, the labels of a routine are placed once its names are.
theorem Own.placed {known : List String} {progress : Progress} {id : Nat} (own : after.Own site id)
    (reached : after.At known progress) (settled : ∀ id, progress.pending id → id < site.bound)
    (names : ∀ name ∈ site.names, name ∈ progress.names) : ∃ place, after.placeOf? id = some place := by
  obtain ⟨⟨below, notEntry⟩, young | ⟨name, isName, found⟩⟩ := own
  · cases placed : after.placeOf? id with
    | some place => exact ⟨place, rfl⟩
    | none =>
      rcases reached.accounted id below placed with isPending | ⟨name, isNamed⟩ | ⟨name, isEntry⟩
      · exact absurd (settled id isPending) (Nat.not_lt.mpr young.1)
      · exact absurd isNamed (young.2 name)
      · exact absurd isEntry (notEntry name)
  · exact Option.isSome_iff_exists.mp ((reached.named name id found).2.mpr (names name isName))

theorem Own.fresh {known : List String} {progress : Progress} {id : Nat} (own : after.Own site id)
    (here : before.At known progress) (grows : Grows before after) (bound : before.labels.size ≤ site.bound)
    (names : ∀ name ∈ site.names, name ∉ progress.names) : before.placeOf? id = none := by
  have young {id : Nat} (above : before.labels.size ≤ id) : before.placeOf? id = none := by
    rw [placeOf?, Array.getElem?_eq_none above]
    rfl
  rcases own.2 with ⟨above, -⟩ | ⟨name, isName, found⟩
  · exact young (Nat.le_trans bound above)
  · rcases grows.newNamed name id found with isOld | isNew
    · have placed := (here.named name id isOld).2
      simpa [names name isName] using placed
    · exact young isNew

theorem Laid.fresh (sound : start.Sound) (names : List String) (known : List (Nat × Nat)) (now : Nat) :
    start.Laid symbols ⟨start.code.size, start.labels.size, names, False⟩ [] known now := by
  refine ⟨sound, Nat.le_refl _, fun _ inside => (nomatch inside), fun place instruction beyond found => ?_,
    fun small => small.elim⟩
  exact absurd (Array.getElem?_eq_some_iff.mp found).1 (Nat.not_lt.mpr beyond)

end Assembly

namespace Emit

variable {context : EmitContext} {before after start last closed : Assembly} {routine : Routine}

theorem keeps_later : Growing Op.isUnlinked Assembly.Later where
  toStraight := by
    refine keeps_seen (fun before after code places => ?_) (fun _ _ _ => Assembly.later_trans) fun _ _ _ => ?_
    · exact ⟨Nat.le_of_eq (by rw [code]), fun id place placed => .inl (by rwa [places] at placed)⟩
    · exact ⟨by simp [Assembly.emit], fun _ _ placed => .inl placed⟩
  data items before _ after ran := by
    cases ran
    exact ⟨Nat.le_refl _, fun _ _ placed => .inl placed⟩
  place id before _ after ran := by
    have isPlaced := run_place ran
    have places := Assembly.place_of_placed isPlaced
    obtain ⟨label, -, -, rfl⟩ := Assembly.place_cases isPlaced
    refine ⟨Nat.le_refl _, fun other place placed => ?_⟩
    rw [places] at placed
    split at placed
    · exact .inr (Nat.le_of_eq (Option.some.inj placed))
    · exact .inl placed
  trans _ _ _ := Assembly.later_trans

theorem keeps_adds {admits allowed : Op → Bool} (covers : ∀ op, admits op = true → allowed op = true) :
    Growing admits (Assembly.Adds allowed) where
  toStraight := keeps_seen (fun _ _ code _ => Assembly.adds_still code) (fun _ _ _ => Assembly.adds_trans)
    fun _ _ admitted => Assembly.adds_emit (covers _ admitted)
  data items before _ after ran := by
    cases ran
    exact Assembly.adds_still rfl
  place id before _ after ran := by
    obtain ⟨label, -, -, rfl⟩ := Assembly.place_cases (run_place ran)
    exact Assembly.adds_still rfl
  trans _ _ _ := Assembly.adds_trans

theorem keeps_unbound : Growing Op.isBody (Assembly.Adds fun op => !op.bindsParameter) :=
  keeps_adds fun _ => Op.body_unbound

theorem keeps_sets_unbound {first last : Char} {ty : Ty} :
    Keeps (Assembly.Adds fun op => !op.bindsParameter) Unit (op (.setDefaultType first last ty)) := by
  intro before _ after ran
  cases ran
  exact Assembly.adds_emit rfl

theorem Emits.reached {α : Type} {known : List String} {bound : Nat} {effect : Effect} {emit : Emit α}
    {progress : Progress}
    {result : α} (emits : Emits known bound effect emit) (enough : bound ≤ progress.bound)
    (allows : progress.Allows known effect) (here : before.At known progress) (calls : before.Calls progress)
    (ran : emit.run before = .ok (result, after)) :
    after.At known (progress.after effect) ∧ after.Calls (progress.after effect) := by
  obtain ⟨works, fails⟩ := emits progress before enough allows here calls
  by_cases succeeds : effect.can
  · obtain ⟨other, assembly, reaches, reached⟩ := works succeeds
    rw [ran] at reaches
    cases reaches
    exact reached
  · obtain ⟨error, failed⟩ := fails succeeds
    rw [ran] at failed
    cases failed

theorem run_parameters {params : List (String × Ty)} {bound : Assembly}
    (ran : (params.forM fun (name, ty) => op (.popParam name ty)).run start = .ok ((), bound)) :
    bound.code.toList.map Instruction.op =
        start.code.toList.map Instruction.op ++ params.map (fun (name, ty) => .popParam name ty) ∧
      bound.labels = start.labels ∧ start.code.toList <+: bound.code.toList := by
  induction params generalizing start with
  | nil =>
    cases ran
    exact ⟨by simp, rfl, List.prefix_refl _⟩
  | cons param rest ih =>
    obtain ⟨⟨⟩, between, first, others⟩ := run_seq ran
    obtain rfl : start.emit (.popParam param.1 param.2) = between := congrArg Prod.snd (Except.ok.inj first)
    obtain ⟨code, labels, longer⟩ := ih others
    refine ⟨?_, labels, (Assembly.emit_step start _).1.code.trans longer⟩
    rw [code]
    simp [Assembly.emit]

theorem head_places {skip : Nat} (ran : (procedureHead routine).run before = .ok (skip, start)) :
    skip = before.labels.size ∧ before.labels.size < start.labels.size ∧ start.named = before.named ∧
      ∀ id place, start.placeOf? id = some place →
        before.placeOf? id = some place ∨ start.entries.get? routine.name = some id := by
  obtain ⟨isSkip, placed⟩ := procedure_head_cases ran
  have places := Assembly.place_of_placed placed
  have size : before.labels.size < (skipping routine before).2.labels.size := by
    have grows := (Assembly.entry_label_step ((({ before with locus := routine.locus } : Assembly).newLabel none).2.emit
      (.jump (.label before.labels.size))) routine.name).1.size
    refine Nat.lt_of_lt_of_le ?_ grows
    simp [Assembly.newLabel, Assembly.emit]
  have named : (skipping routine before).2.named = before.named := Assembly.entry_label_named _ routine.name
  have isEntry : (skipping routine before).2.entries.get? routine.name = some (skipping routine before).1 :=
    Assembly.entry_label_found _ routine.name
  obtain ⟨label, -, -, rfl⟩ := Assembly.place_cases placed
  refine ⟨isSkip, by simpa using size, named, fun id place isPlace => ?_⟩
  rw [places] at isPlace
  split at isPlace
  · next same => exact .inr (same ▸ isEntry)
  · rw [skipping, Assembly.entry_label_places] at isPlace
    exact .inl ((Assembly.place_of_push _ none id).symm.trans isPlace)

theorem tail_straight (ran : (procedureTail routine).run last = .ok ((), closed)) :
    closed.labels = last.labels ∧ ∀ own place instruction, closed.code[place]? = some instruction →
      last.code.size ≤ place → closed.Aims own instruction.op := by
  have plain (before : Assembly) (op : Op) {place : Nat} {instruction : Instruction}
      (found : (before.emit op).code[place]? = some instruction) :
      instruction.op = op ∨ before.code[place]? = some instruction := by
    rw [Assembly.emit, Array.getElem?_push] at found
    split at found
    · cases found
      exact .inl rfl
    · exact .inr found
  have outside {place : Nat} {instruction : Instruction} (found : last.code[place]? = some instruction) :
      ¬last.code.size ≤ place :=
    Nat.not_le.mpr (Array.getElem?_eq_some_iff.mp found).1
  rw [procedure_tail_cases ran]
  split
  · refine ⟨rfl, fun own place instruction found beyond => ?_⟩
    obtain isReturn | found := plain _ .ret found
    · exact Assembly.aims_straight (by simp [isReturn]) (by simp [isReturn, Op.aims, Op.jumps])
    · obtain isPush | found := plain _ (.pushValue routine.name) found
      · exact Assembly.aims_straight (by simp [isPush]) (by simp [isPush, Op.aims, Op.jumps])
      · exact absurd beyond (outside found)
  · refine ⟨rfl, fun own place instruction found beyond => ?_⟩
    obtain isReturn | found := plain _ .ret found
    · exact Assembly.aims_straight (by simp [isReturn]) (by simp [isReturn, Op.aims, Op.jumps])
    · exact absurd beyond (outside found)

theorem own_inside {entry : ProcedureEntry} {places : List (Nat × Stmt)} {skip id next : Nat} {small : Prop}
    {known : List String} {progress : Progress} {bound : Assembly} (here : before.At known progress)
    (head : (procedureHead routine).run before = .ok (skip, start))
    (params : (entry.params.reverse.forM fun (name, ty) => op (.popParam name ty)).run start = .ok ((), bound))
    (inner : (procedureInner context entry routine).run bound = .ok (places, last))
    (tail : (procedureTail routine).run last = .ok ((), closed)) (placed : closed.place skip = .ok after)
    (within : last.Within) (fresh : ∀ name ∈ routine.body.labels, name ∉ progress.names)
    (own : after.Own ⟨start.code.size, start.labels.size, routine.body.labels, small⟩ id)
    (isPlace : after.placeOf? id = some next) : bound.code.size ≤ next ∧ next < closed.code.size := by
  obtain ⟨isSkip, longer, named, startPlaces⟩ := head_places head
  have headStep := keeps_procedure_head keeps_step.plain routine before skip start head
  have paramsStep : Assembly.Step start bound :=
    closed_each keeps_step.toStraight (fun _ _ => keeps_step.op _ rfl) start () bound params
  have innerStep := keeps_procedure_inner keeps_step.body context entry routine bound places last inner
  have tailStep := keeps_procedure_tail keeps_step.plain routine last () closed tail
  have rest := Assembly.step_trans (Assembly.step_trans paramsStep innerStep)
    (Assembly.step_trans tailStep (Assembly.place_step placed))
  have notSkip : id ≠ skip := by
    rintro rfl
    rcases own.2 with ⟨above, -⟩ | ⟨name, -, found⟩
    · exact absurd above (Nat.not_le.mpr (isSkip ▸ longer))
    · rcases rest.1.newNamed name id found with isOld | isNew
      · rw [named] at isOld
        exact absurd (here.sound.named name id isOld) (Nat.not_lt.mpr (Nat.le_of_eq isSkip.symm))
      · exact absurd isNew (Nat.not_le.mpr (isSkip ▸ longer))
  constructor
  · have later : Assembly.Later bound after :=
      Assembly.later_trans (keeps_procedure_inner keeps_later.body context entry routine bound places last inner)
        (Assembly.later_trans (keeps_procedure_tail keeps_later.plain routine last () closed tail)
          (keeps_later.place skip closed () after (run_place_ok placed)))
    rcases later.2 id next isPlace with isOld | isLate
    · rw [Assembly.placeOf?, (run_parameters params).2.1] at isOld
      rcases startPlaces id next isOld with isOlder | isEntry
      · have unplaced := own.fresh here (headStep.1.trans rest.1) (Nat.le_of_lt longer) fresh
        rw [unplaced] at isOlder
        cases isOlder
      · exact absurd (rest.1.entries _ id isEntry) (own.1.2 routine.name)
    · exact isLate
  · obtain ⟨labels, -⟩ := tail_straight tail
    rw [Assembly.place_of_placed placed, if_neg notSkip] at isPlace
    have early : last.placeOf? id = some next := by
      rw [Assembly.placeOf?, ← labels]
      exact isPlace
    exact Nat.lt_of_le_of_lt (within.code id next early) (tail_returns tail).1

theorem contained_procedure {known : List String} {progress later : Progress} {span : Span}
    (here : before.At known progress) (reached : after.At known later) (settled : ∀ id, ¬later.pending id)
    (within : before.Within) (fresh : ∀ name ∈ routine.body.labels, name ∉ progress.names)
    (named : ∀ name ∈ routine.body.labels, name ∈ later.names)
    (ran : (procedureSpan context routine).run before = .ok (span, after)) (outside : context.loops = [])
    (labels : ∀ name, context.symbols.HasLabel routine.name name → name ∈ routine.body.labels)
    (accepted : routine.body.Accepted context.symbols (routine.context context.registry)) : after.Contains span := by
  obtain ⟨entry, skip, start, places, last, closed, -, head, body, tail, placed, rfl⟩ := procedure_span_cases ran
  have headStep := keeps_procedure_head keeps_step.plain routine before skip start head
  have bodyStep := keeps_procedure_body keeps_step.body keeps_step.parameter context entry routine start places last body
  have tailStep := keeps_procedure_tail keeps_step.plain routine last () closed tail
  have placeStep := Assembly.place_step placed
  have startWithin := keeps_procedure_head keeps_within.plain routine before skip start head within
  have lastWithin := keeps_procedure_body keeps_within.body keeps_within.parameter context entry routine start places
    last body startWithin
  have laid := laid_body (Assembly.Laid.fresh (headStep.2 here.sound) [] [] entry.params.length) body outside labels
    (fun small => small.elim) accepted
  obtain ⟨bound, params, inner⟩ := procedure_body_cases body
  -- Nothing is bound behind the parameters.
  have unbound : Assembly.Adds (fun op => !op.bindsParameter) bound closed :=
    Assembly.adds_trans (keeps_procedure_inner keeps_unbound context entry routine bound places last inner)
      (keeps_procedure_tail keeps_unbound.quiet routine last () closed tail)
  intro place instruction isPart found
  have inClosed : closed.code[place]? = some instruction := by
    obtain ⟨label, -, -, rfl⟩ := Assembly.place_cases placed
    exact found
  by_cases inBody : place < last.code.size
  · have old : last.code[place]? = some last.code[place] := Array.getElem?_eq_getElem inBody
    rw [← Option.some.inj ((tailStep.1.fetched old).symm.trans inClosed)]
    have grows := tailStep.1.trans placeStep.1
    refine (laid.aims place _ isPart.1 old).grows grows fun id own => ?_
    -- No label is pending behind the procedure, so the label was placed, and in the procedure.
    have ownLast := own.grows grows
    obtain ⟨next, isPlace⟩ := ownLast.placed reached (fun id isPending => absurd isPending (settled id)) named
    have inside := own_inside here head params inner tail placed lastWithin fresh ownLast isPlace
    have there : closed.code[next]? = some closed.code[next] := Array.getElem?_eq_getElem inside.2
    refine ⟨next, isPlace, ⟨Nat.le_trans ?_ inside.1, inside.2⟩, _, placeStep.1.fetched there, ?_⟩
    · exact (run_parameters params).2.2.length_le
    · simpa using unbound.2 next _ inside.1 there
  · exact ((tail_straight tail).2 (after.Lies _) place instruction inClosed (Nat.not_lt.mp inBody)).grows placeStep.1
      fun _ lies => lies

theorem contained_main {main : Block} {known : List String} {span : Span} (knows : Knows context known)
    (allows : Emit.start.Allows known (blockEffect context main))
    (ran : (mainSpan context main).run .empty = .ok (span, after)) (outside : context.loops = [] ∧ context.exit = none)
    (labels : ∀ name, context.symbols.HasLabel mainName name → name ∈ main.labels)
    (accepted : main.Accepted context.symbols ((Routine.main main).context context.registry)) :
    (after.At known (Emit.start.after (blockEffect context main)) ∧
      after.Calls (Emit.start.after (blockEffect context main))) ∧ after.Contains span := by
  obtain ⟨start, places, last, letters, body, rfl, rfl⟩ := main_span_cases ran
  have served : context.Serves ((Routine.main main).context context.registry) 0 :=
    ⟨rfl, fun target allowed => by cases target <;> cases allowed⟩
  have emits : Emits known 0 (blockEffect context main) (do
      mainLetters context main
      block context main) :=
    emits_before (emits_all_letter_types main accepted) fun _ => emits_block context _ main knows 0 served accepted
  have ranMain : (do
      mainLetters context main
      block context main : Emit Unit).run .empty = .ok ((), last) := by
    rw [run_ok letters]
    exact run_forget (forget_block context main) body
  obtain ⟨reached, calls⟩ := emits.reached (Nat.le_refl 0) allows empty_at_start (fun _ isCall => isCall.elim) ranMain
  have grows := (Assembly.emit_step last .stop).1
  refine ⟨⟨reached.emit .stop fun _ inside => (nomatch inside), calls.grows grows⟩, ?_⟩
  have laid := laid_main_body letters body outside labels (fun small : False => small.elim) accepted
  have startWithin := keeps_letters keeps_within.plain (fun _ _ _ => keeps_within.op _ rfl) context main .empty () start
    letters Assembly.empty_within
  have within := keeps_block_places keeps_within.body context main start places last body startWithin
  have unbound : Assembly.Adds (fun op => !op.bindsParameter) .empty (last.emit .stop) :=
    Assembly.adds_trans (keeps_letters keeps_unbound.quiet (fun _ _ _ => keeps_sets_unbound) context main .empty ()
      start letters)
      (Assembly.adds_trans (keeps_block_places keeps_unbound context main start places last body) (Assembly.adds_emit rfl))
  intro place instruction isPart found
  rw [Assembly.emit, Array.getElem?_push] at found
  split at found
  · cases found
    exact Assembly.aims_straight (by simp) rfl
  · refine (laid.aims place instruction isPart.1 found).grows grows fun id own => ?_
    obtain ⟨next, isPlace⟩ := own.placed reached (fun id isPending => isPending.1.elim) fun name inside => inside
    have below : next < (last.emit .stop).code.size := within.below isPlace
    have there : (last.emit .stop).code[next]? = some (last.emit .stop).code[next] := Array.getElem?_eq_getElem below
    exact ⟨next, isPlace, ⟨Nat.zero_le _, below⟩, _, there, by simpa using unbound.2 next _ (Nat.zero_le _) there⟩

theorem contained_procedures {known : List String} {progress : Progress} {routines : List Routine} {spans : List Span}
    (knows : Knows context known) (here : before.At known progress) (calls : before.Calls progress)
    (settled : ∀ id, ¬progress.pending id) (within : before.Within)
    (allows : progress.Allows known (routinesEffect context routines))
    (ran : (routines.mapM (procedureSpan context)).run before = .ok (spans, after)) (outside : context.loops = [])
    (labels : ∀ routine ∈ routines, ∀ name, context.symbols.HasLabel routine.name name → name ∈ routine.body.labels)
    (hasEntry : ∀ routine ∈ routines, (context.symbols.procedure? routine.name).isSome = true)
    (accepted : ∀ routine ∈ routines, routine.body.Accepted context.symbols (routine.context context.registry)) :
    ∀ span ∈ spans, after.Contains span := by
  induction routines generalizing before progress spans with
  | nil =>
    rw [List.mapM_nil] at ran
    cases ran
    exact fun _ inside => nomatch inside
  | cons head tail ih =>
    rw [List.mapM_cons] at ran
    obtain ⟨span, between, ranHead, ran⟩ := run_seq ran
    obtain ⟨rest, last, ranTail, ran⟩ := run_seq ran
    cases ran
    rw [List.forall_mem_cons] at labels hasEntry accepted
    have parts := Progress.allows_same (routines_effect_cons head tail).symm allows
    obtain ⟨reached, called⟩ := (emits_procedure head knows hasEntry.1 accepted.1).reached (Nat.zero_le _) parts.first here
      calls (run_forget (forget_procedure context head) ranHead)
    have unsettled (id : Nat) : ¬(progress.after (routineEffect context head)).pending id :=
      fun isPending => settled id isPending.1
    have betweenWithin :=
      keeps_procedure_span keeps_within.body keeps_within.parameter context head before span between ranHead within
    have contains := contained_procedure here reached unsettled within (fun name inside => (parts.first.fresh name inside).2)
      (fun name inside => List.mem_append_right _ inside) ranHead outside labels.1 accepted.1
    have grows := (keeps_map keeps_step tail (keeps_procedure_span keeps_step.body keeps_step.parameter context) between
      rest after ranTail).1
    refine List.forall_mem_cons.mpr ⟨contains.grows (holds_procedure ranHead).2.2.inside grows, ?_⟩
    exact ih reached called unsettled betweenWithin parts.second ranTail labels.2 hasEntry.2 accepted.2

theorem contained_layout {program : Program} {symbols : SymbolTable} {registry : Registry} {spans : List Span}
    {whole : Assembly} (accepted : program.Accepted symbols registry)
    (ran : (layout (Program.emitContext symbols registry) program).run .empty = .ok (spans, whole)) :
    ∀ span ∈ spans, whole.Contains span := by
  obtain ⟨main, others, between, last, ranMain, ranOthers, rfl, rfl⟩ := layout_cases ran
  have isMain : Routine.main program.main ∈ program.routines := List.mem_cons_self
  have parts := Progress.allows_same (program_effect_parts program).symm accepted.allows
  obtain ⟨⟨reached, calls⟩, contains⟩ := contained_main accepted.knows parts.first ranMain ⟨rfl, rfl⟩
    (fun _ isLabel => accepted.own_label isMain isLabel) (accepted.bodies _ isMain)
  obtain ⟨mainLast, mainWithin, rfl⟩ := main_ends ranMain Assembly.empty_within
  have within := mainWithin.emit (rfl : Op.isUnlinked .stop = true)
  have each := contained_procedures accepted.knows reached calls (fun _ isPending => isPending.1) within parts.second
    ranOthers rfl
    (fun routine inside _ isLabel => accepted.own_label (List.mem_cons_of_mem _ inside) isLabel)
    (fun routine inside => by
      obtain ⟨entry, found, -⟩ := accepted.defines.described routine inside
      exact Option.isSome_iff_exists.mpr ⟨entry, found⟩)
    fun routine inside => accepted.bodies routine (List.mem_cons_of_mem _ inside)
  have grows := (keeps_map keeps_step program.procedures (keeps_procedure_span keeps_step.body keeps_step.parameter _) _
    others last ranOthers).1
  have all : ∀ span ∈ main :: others, last.Contains span :=
    List.forall_mem_cons.mpr
      ⟨contains.grows ((spread_main ranMain).each main List.mem_cons_self).inside grows, each⟩
  split
  · exact all
  · have spread := reaches_map (fun routine _ done => spread_procedure routine done) [main] _ others last
      (spread_main ranMain) ranOthers
    exact fun span isSpan => (all span isSpan).grows (spread.each span isSpan).inside (Assembly.emit_step last .stop).1

end Emit

namespace Image

/-- No label is left. Instructions go to instructions, and `RESTORE` goes to values or behind the last one. -/
structure Resolved (image : Image) : Prop where
  code : ∀ instruction ∈ image.instructions, ∀ target, instruction.op.address? = some target →
    ∃ place < image.instructions.size, target = .resolved place
  data : ∀ instruction ∈ image.instructions, ∀ target, instruction.op.dataPlace? = some target →
    ∃ place ≤ image.data.size, target = .resolved place

structure Contained (image : Image) (spans : List Span) : Prop where
  filled : ∀ span ∈ spans, span.first < span.stop ∧ span.stop ≤ image.instructions.size
  apart : spans.Pairwise fun left right => left.stop ≤ right.first
  starts : ∃ span ∈ spans, span.routine.kind = .main ∧ span.first = 0
  aims : ∀ span ∈ spans, ∀ place instruction, span.Has place → image.instructions[place]? = some instruction →
    ∀ target ∈ instruction.op.aims, ∃ next, target = .resolved next ∧ span.Has next
  calls : ∀ span ∈ spans, ∀ place instruction, span.Has place → image.instructions[place]? = some instruction →
    ∀ target, instruction.op = .call target →
      ∃ callee ∈ spans, callee.routine.kind ≠ .main ∧ target = .resolved callee.first
  ends : ∀ span ∈ spans, ∃ locus, image.instructions[span.stop - 1]? = some ⟨.ret, locus⟩ ∨
    image.instructions[span.stop - 1]? = some ⟨.stop, locus⟩

end Image

namespace Assembly

variable {whole last linked : Assembly} {image : Image}

theorem link_data (isLinked : whole.link = .ok linked) : linked.data = whole.data := by
  rw [link] at isLinked
  split at isLinked
  · cases isLinked
  · split at isLinked
    · rw [← Except.ok.inj isLinked]
    · cases isLinked

theorem Linked.source (isLinked : whole.Linked image) (size : image.instructions.size = whole.code.size) {place : Nat}
    {instruction : Instruction} (found : image.instructions[place]? = some instruction) :
    ∃ unlinked, whole.code[place]? = some unlinked ∧ whole.linkInstruction unlinked = .ok instruction := by
  have below : place < whole.code.size := size ▸ (Array.getElem?_eq_some_iff.mp found).1
  have source : whole.code[place]? = some whole.code[place] := Array.getElem?_eq_getElem below
  obtain ⟨result, links, isResult⟩ := isLinked place _ source
  rw [found] at isResult
  exact ⟨_, source, Option.some.inj isResult ▸ links⟩

-- Labels have places in the code and in the data, once an `END` stands behind all of them.
theorem Within.resolved (within : last.Within) (isLinked : (last.emit .stop).Linked image)
    (size : image.instructions.size = (last.emit .stop).code.size) (data : image.data = last.data) : image.Resolved := by
  have targets : ∀ instruction ∈ (last.emit .stop).code, instruction.op.isUnlinked = true :=
    (within.emit (rfl : Op.isUnlinked .stop = true)).targets
  refine ⟨fun instruction inside target isTarget => ?_, fun instruction inside target isTarget => ?_⟩
  · obtain ⟨place, found⟩ := Array.getElem?_of_mem inside
    obtain ⟨⟨op, locus⟩, source, links⟩ := isLinked.source size found
    have unlinked := targets _ (Array.mem_of_getElem? source)
    obtain ⟨code, _, rfl, resolves, -⟩ := link_cases links
    rw [Op.retarget_address, Option.map_eq_some_iff] at isTarget
    obtain ⟨label, isLabel, rfl⟩ := isTarget
    cases label with
    | resolved place => simp [Op.isUnlinked, isLabel] at unlinked
    | label id =>
      obtain ⟨next, placed, isNext⟩ := resolve_label_place (resolves _ isLabel)
      exact ⟨next, size ▸ within.below placed, isNext⟩
  · obtain ⟨place, found⟩ := Array.getElem?_of_mem inside
    obtain ⟨⟨op, locus⟩, source, links⟩ := isLinked.source size found
    have unlinked := targets _ (Array.mem_of_getElem? source)
    obtain ⟨_, values, rfl, -, resolves⟩ := link_cases links
    rw [Op.retarget_data, Option.map_eq_some_iff] at isTarget
    obtain ⟨label, isLabel, rfl⟩ := isTarget
    have resolved := resolves label isLabel
    cases label with
    | resolved place =>
      -- Only `RESTORE` without a label goes to a place at once, the first value.
      have isFirst : place = 0 := by
        cases op <;> simp_all [Op.isUnlinked, Op.address?, Op.dataPlace?]
      exact ⟨place, isFirst ▸ Nat.zero_le _, (Except.ok.inj resolved).symm⟩
    | label id =>
      obtain ⟨next, placed, isNext⟩ := resolve_label_place resolved
      exact ⟨next, data ▸ within.data id next placed, isNext⟩

end Assembly

namespace Program

variable {program : Program} {symbols : SymbolTable} {registry : Registry} {image : Image}

theorem image_laid_out (coded : program.image symbols registry = .ok image) :
    ∃ spans whole, program.layout? symbols registry = some spans ∧
      (Emit.program (emitContext symbols registry) program).run .empty = .ok ((), whole) ∧
      (Emit.layout (emitContext symbols registry) program).run .empty = .ok (spans, whole) ∧ whole.Linked image ∧
      image.instructions.size = whole.code.size ∧ image.data = whole.data := by
  obtain ⟨whole, linked, ran, isLinked, same, -⟩ := image_inversion coded
  obtain ⟨spans, ranLayout⟩ := Emit.run_remember (Emit.forget_layout _ program) ran
  refine ⟨spans, whole, by rw [layout?, ranLayout], ran, ranLayout, Assembly.link_linked isLinked same,
    by rw [same, Assembly.link_size isLinked], ?_⟩
  rw [← Assembly.link_data isLinked]
  rw [Program.image, ← emitContext] at coded
  simp only [ran, bind, Except.bind, isLinked] at coded
  rw [← Except.ok.inj coded]

theorem laid_out (coded : program.image symbols registry = .ok image) {spans : List Span}
    (isLayout : program.layout? symbols registry = some spans) :
    ∃ whole, (Emit.program (emitContext symbols registry) program).run .empty = .ok ((), whole) ∧
      (Emit.layout (emitContext symbols registry) program).run .empty = .ok (spans, whole) ∧ whole.Linked image ∧
      image.instructions.size = whole.code.size ∧ image.data = whole.data := by
  obtain ⟨others, whole, isOther, made⟩ := image_laid_out coded
  obtain rfl : others = spans := Option.some.inj (isOther.symm.trans isLayout)
  exact ⟨whole, made⟩

theorem image_resolved (coded : program.image symbols registry = .ok image) : image.Resolved := by
  obtain ⟨spans, whole, -, -, ranLayout, links, size, data⟩ := image_laid_out coded
  obtain ⟨last, within, rfl⟩ := Emit.layout_ends ranLayout
  exact within.resolved links size data

theorem image_ends (coded : program.image symbols registry = .ok image) :
    ∃ last locus, image.instructions.size = last + 1 ∧ image.instructions[last]? = some ⟨.stop, locus⟩ := by
  obtain ⟨spans, whole, -, -, ranLayout, links, size, -⟩ := image_laid_out coded
  obtain ⟨last, -, rfl⟩ := Emit.layout_ends ranLayout
  have source : (last.emit .stop).code[last.code.size]? = some ⟨.stop, last.locus⟩ := by simp [Assembly.emit]
  obtain ⟨result, isResult, found⟩ := links _ _ source
  cases isResult
  exact ⟨last.code.size, last.locus, by simpa [Assembly.emit] using size, found⟩

theorem layout_of_image (coded : program.image symbols registry = .ok image) :
    ∃ spans, program.layout? symbols registry = some spans := by
  obtain ⟨spans, whole, isLayout, -⟩ := image_laid_out coded
  exact ⟨spans, isLayout⟩

theorem Accepted.contained (accepted : program.Accepted symbols registry)
    (coded : program.image symbols registry = .ok image) {spans : List Span}
    (isLayout : program.layout? symbols registry = some spans) : image.Contained spans := by
  obtain ⟨whole, ran, ranLayout, links, size, -⟩ := laid_out coded isLayout
  obtain ⟨spread, routines⟩ := Emit.spread_layout ranLayout
  have contains := Emit.contained_layout accepted ranLayout
  refine ⟨fun span isSpan => ?_, spread.ordered, ?_, ?_, ?_, fun span isSpan => ?_⟩
  · exact ⟨(spread.each span isSpan).filled, size ▸ (spread.each span isSpan).inside⟩
  · obtain ⟨main, others, _, _, ranMain, -, rfl, -⟩ := Emit.layout_cases ranLayout
    obtain ⟨_, _, _, -, -, -, rfl⟩ := Emit.main_span_cases ranMain
    exact ⟨_, List.mem_cons_self, rfl, rfl⟩
  · intro span isSpan place instruction isPart found target isAim
    obtain ⟨⟨op, locus⟩, source, isResult⟩ := links.source size found
    obtain ⟨code, data, rfl, resolves, -⟩ := Assembly.link_cases isResult
    rw [Op.retarget_aims] at isAim
    obtain ⟨label, isLabel, rfl⟩ := List.mem_map.mp isAim
    obtain ⟨id, rfl, next, placed, inside, -⟩ := (contains span isSpan place _ isPart source).at isLabel
    obtain ⟨other, isPlace, isNext⟩ := Assembly.resolve_label_place (resolves _ (Op.aims_address _ isLabel))
    obtain rfl : other = next := Option.some.inj (isPlace.symm.trans placed)
    exact ⟨other, isNext, inside⟩
  · intro span isSpan place instruction isPart found target isCall
    obtain ⟨⟨op, locus⟩, source, isResult⟩ := links.source size found
    obtain ⟨code, data, rfl, resolves, -⟩ := Assembly.link_cases isResult
    obtain ⟨label, rfl, rfl⟩ : ∃ label, op = .call label ∧ target = code label := by
      cases op <;> cases isCall
      exact ⟨_, rfl, rfl⟩
    obtain ⟨name, id, rfl, isEntry⟩ := contains span isSpan place _ isPart source
    obtain ⟨next, placed, isNext⟩ := Assembly.resolve_label_place (resolves (.label id) rfl)
    obtain ⟨callee, isCallee, isProcedure, -, rfl⟩ := accepted.calls_first ran spread routines isEntry placed
    exact ⟨callee, isCallee, (accepted.procedures _ isProcedure).1, isNext⟩
  · obtain ⟨locus, ends⟩ := (spread.each span isSpan).ends
    refine ⟨locus, ends.imp (fun returns => ?_) fun stops => ?_⟩
    · obtain ⟨result, isResult, found⟩ := links _ _ returns
      cases isResult
      exact found
    · obtain ⟨result, isResult, found⟩ := links _ _ stops
      cases isResult
      exact found

end Program

end BasicLang
