import BasicLang.Proofs.Code.DepthStmt
import Mathlib.Data.List.Nodup

set_option autoImplicit false

namespace BasicLang

def Routine.results (routine : Routine) : Nat := if routine.kind = .function then 1 else 0

def Span.depths (span : Span) : List (Nat × Nat) :=
  (span.first, span.routine.params.length) :: (span.stop - 1, span.routine.results) :: Emit.emptyAt span.places

def Op.successors (place : Nat) (op : Op) : List Target :=
  if op.fallsThrough then .resolved (place + 1) :: op.jumps else op.jumps

namespace Assembly

variable {symbols : SymbolTable} {site : Site} {given : List Nat} {known : List (Nat × Nat)} {now : Nat}
  {assembly : Assembly}

theorem Laid.enter (laid : assembly.Laid symbols site given known now) (names : List String) :
    assembly.Laid symbols ⟨assembly.code.size, assembly.labels.size, names, site.small⟩ [] known now := by
  refine ⟨laid.sound, Nat.le_refl _, fun _ inside => (nomatch inside), fun place instruction beyond found => ?_, laid.deep⟩
  exact absurd (Array.getElem?_eq_some_iff.mp found).1 (Nat.not_lt.mpr beyond)

theorem empty_laid (names : List String) (small : Prop) :
    Assembly.empty.Laid symbols ⟨0, 0, names, small⟩ [] [] 0 where
  sound := empty_sound
  bound := Nat.le_refl _
  own := fun _ inside => nomatch inside
  aims := fun _ _ _ found => nomatch found
  deep := fun _ => by
    refine ⟨fun _ => 0, ⟨?_, ?_, ?_, ?_⟩, rfl, fun _ inside => nomatch inside⟩
    · exact fun _ _ found => nomatch found
    · exact fun _ _ found => nomatch found
    · exact fun _ _ _ _ => rfl
    · exact fun _ _ _ _ found => nomatch found

end Assembly

namespace Program

variable {program : Program} {symbols : SymbolTable} {registry : Registry}

theorem main_name_apart {name : String} (named : SourceName name) : name ≠ mainName := by
  rintro rfl
  obtain ⟨first, rest, same, isLetter⟩ := named
  have isFirst : first = '_' := (List.cons.inj same).1.symm
  rw [isFirst] at isLetter
  cases isLetter

theorem Accepted.one_routine (accepted : program.Accepted symbols registry) {left right : Routine}
    (isLeft : left ∈ program.routines) (isRight : right ∈ program.routines) (same : left.name = right.name) :
    left = right := by
  have apart : ∀ routine ∈ program.procedures, routine.name ≠ mainName :=
    fun routine inside => main_name_apart (accepted.procedures routine inside).2
  rcases List.mem_cons.mp isLeft with rfl | isLeft <;> rcases List.mem_cons.mp isRight with rfl | isRight
  · rfl
  · exact absurd same.symm (apart right isRight)
  · exact absurd same (apart left isLeft)
  · exact List.inj_on_of_nodup_map accepted.defines.distinct isLeft isRight same

theorem Accepted.own_label (accepted : program.Accepted symbols registry) {routine : Routine}
    (inside : routine ∈ program.routines) {name : String} (isLabel : symbols.HasLabel routine.name name) :
    name ∈ routine.body.labels := by
  have listed := (accepted.places.labelled name routine.name).mp isLabel
  obtain ⟨other, isRoutine, isOwn⟩ := List.mem_flatMap.mp listed
  obtain ⟨label, isListed, same⟩ := List.mem_map.mp isOwn
  obtain ⟨sameName, rfl⟩ := Prod.mk.inj same
  rw [← accepted.one_routine isRoutine inside sameName]
  exact isListed

end Program

namespace Emit

variable {context : EmitContext} {site : Site} {given : List Nat} {known : List (Nat × Nat)} {old : Nat}

theorem notes_when {symbols : SymbolTable} {noted : List (Nat × Stmt)} {condition : Prop} [Decidable condition]
    {first : Emit Unit} {next : Unit → Emit (List (Nat × Stmt))} (lays : Lays symbols site given old first old)
    (rest : ∀ value, Notes symbols site given noted old (next value)) :
    Notes symbols site given noted old (if condition then first >>= next else next ()) := by
  split
  · exact notes_seq lays rest
  · exact rest ()

theorem lays_parameters {symbols : SymbolTable} (params : List (String × Ty)) :
    Lays symbols site given params.length (params.forM fun (name, ty) => op (.popParam name ty)) 0 := by
  induction params with
  | nil => exact lays_unit ()
  | cons head tail ih =>
    exact lays_seq (lays_at _ (fun _ => rfl) rfl rfl (Nat.le_add_left _ _) (Nat.add_sub_cancel _ _)) fun _ => ih

theorem stays_routine {routine : Routine} {exit : Nat} (outside : context.loops = [])
    (labels : ∀ name, context.symbols.HasLabel routine.name name → name ∈ site.names) (isGiven : exit ∈ given) :
    EmitContext.Stays { context with exit := some exit } (routine.context context.registry) site given := by
  refine ⟨rfl, fun target id found => ?_, labels⟩
  cases target with
  | sub | function =>
    rw [← Option.some.inj found]
    exact isGiven
  | _ => simp [EmitContext.exitLabel?, outside] at found

theorem notes_body {routine : Routine} (entry : ProcedureEntry) (outside : context.loops = [])
    (labels : ∀ name, context.symbols.HasLabel routine.name name → name ∈ site.names)
    (few : site.small → ∀ count ∈ routine.body.itemCounts, count ≤ mostItems)
    (accepted : routine.body.Accepted context.symbols (routine.context context.registry)) :
    Notes context.symbols site given [] entry.params.length (procedureBody context entry routine) := by
  have parameters := (lays_parameters entry.params.reverse : Lays context.symbols site given _ _ _)
  rw [List.length_reverse] at parameters
  refine notes_seq parameters fun _ => notes_when (lays_still _ (fun _ => rfl) rfl rfl) fun _ => ?_
  refine notes_new_label fun exit => ?_
  have inner := notes_block { context with exit := some exit } _ (exit :: given) routine.body
    (stays_routine outside labels List.mem_cons_self) few accepted
  exact notes_inner inner fun places => notes_seq (lays_place List.mem_cons_self) fun _ =>
    notes_return (List.Subset.refl _)

theorem laid_head {routine : Routine} {entry : ProcedureEntry} {symbols : SymbolTable} {before start : Assembly}
    {skip : Nat}
    (laid : before.Laid symbols site given known 0) (ran : (procedureHead routine).run before = .ok (skip, start))
    (found : symbols.procedure? routine.name = some entry) :
    start.Inner skip ∧ start.Laid symbols site given known entry.params.length := by
  obtain ⟨rfl, placed⟩ := procedure_head_cases ran
  have located : ({ before with locus := routine.locus } : Assembly).Laid symbols site given known 0 :=
    lays_locus routine.locus known before () _ laid rfl
  have labelled := Assembly.Laid.new_label located
  -- Nothing goes on behind the jump, so the depth there is that of the entry.
  have jumped : (Assembly.emit _ (.jump (.label before.labels.size))).Laid symbols site (before.labels.size :: given) known
      entry.params.length :=
    labelled.emit _ 0 0 (fun _ => rfl) (Nat.zero_le _) (fun falls => nomatch falls) (fun _ => rfl) fun target isTarget =>
      ⟨before.labels.size, List.mem_singleton.mp isTarget, List.mem_cons_self⟩
  have entered : (skipping routine before).2.Laid symbols site (before.labels.size :: given) known entry.params.length :=
    lays_entry routine.name known _ _ _ jumped rfl
  have isEntry : (skipping routine before).2.entries.get? routine.name = some (skipping routine before).1 :=
    Assembly.entry_label_found _ routine.name
  have started := entered.place_any placed (fun notEntry => absurd isEntry (notEntry _)) fun name other isOther isFound => by
    rw [entered.sound.oneEntry _ _ _ isOther isEntry, found] at isFound
    rw [Option.some.inj isFound]
  exact ⟨(started.own _ List.mem_cons_self).1, started.weaken (List.subset_cons_self _ _) (List.Subset.refl _)⟩

theorem laid_end {symbols : SymbolTable} {before : Assembly} (laid : before.Laid symbols site given known old)
    (operation : Op) (use : ∀ count, operation.stackUse? (fun _ => none) count = some (0, 0))
    (ends : operation.fallsThrough = false) (straight : operation.aims = []) :
    (before.emit operation).Laid symbols site given (((before.emit operation).code.size - 1, old) :: known) 0 := by
  have size : (before.emit operation).code.size - 1 = before.code.size := by simp [Assembly.emit]
  rw [size]
  exact lays_end operation use ends straight _ before () _ laid.mark rfl

theorem laid_tail {routine : Routine} {symbols : SymbolTable} {last closed : Assembly}
    (laid : last.Laid symbols site given known 0) (ran : (procedureTail routine).run last = .ok ((), closed)) :
    closed.Laid symbols site given ((closed.code.size - 1, routine.results) :: known) 0 := by
  rw [procedure_tail_cases ran, Routine.results]
  split
  · have pushed : (last.emit (.pushValue routine.name)).Laid symbols site given known 1 :=
      laid.emit _ 0 1 (fun _ => rfl) (Nat.zero_le _) (fun _ => rfl) (fun jumps => absurd rfl jumps) fun _ isTarget =>
        nomatch isTarget
    exact laid_end pushed .ret (fun _ => rfl) rfl rfl
  · exact laid_end laid .ret (fun _ => rfl) rfl rfl

theorem laid_body {routine : Routine} {entry : ProcedureEntry} {start last : Assembly} {places : List (Nat × Stmt)}
    (laid : start.Laid context.symbols site given known entry.params.length)
    (ran : (procedureBody context entry routine).run start = .ok (places, last)) (outside : context.loops = [])
    (labels : ∀ name, context.symbols.HasLabel routine.name name → name ∈ routine.body.labels)
    (few : site.small → ∀ count ∈ routine.body.itemCounts, count ≤ mostItems)
    (accepted : routine.body.Accepted context.symbols (routine.context context.registry)) :
    last.Laid context.symbols ⟨start.code.size, start.labels.size, routine.body.labels, site.small⟩ []
      (emptyAt places ++ known) 0 := by
  have notes : Notes context.symbols ⟨start.code.size, start.labels.size, routine.body.labels, site.small⟩ [] []
      entry.params.length (procedureBody context entry routine) :=
    notes_body entry outside labels few accepted
  exact notes known start places last (laid.enter routine.body.labels) ran

theorem laid_procedure {routine : Routine} {entry : ProcedureEntry} {before after : Assembly} {span : Span}
    (laid : before.Laid context.symbols site [] known 0)
    (ran : (procedureSpan context routine).run before = .ok (span, after)) (outside : context.loops = [])
    (found : context.symbols.procedure? routine.name = some entry) (describes : entry.Describes routine)
    (labels : ∀ name, context.symbols.HasLabel routine.name name → name ∈ routine.body.labels)
    (few : site.small → ∀ count ∈ routine.body.itemCounts, count ≤ mostItems)
    (accepted : routine.body.Accepted context.symbols (routine.context context.registry)) :
    ∃ other : Site, other.small = site.small ∧ after.Laid context.symbols other [] (span.depths ++ known) 0 := by
  obtain ⟨other, skip, start, places, last, closed, isFound, head, body, tail, placed, rfl⟩ := procedure_span_cases ran
  obtain rfl : other = entry := Option.some.inj (isFound.symm.trans found)
  obtain ⟨inner, started⟩ := laid_head laid head found
  have ended := laid_tail (laid_body started.mark body outside labels few accepted) tail
  have skips : closed.Inner skip := by
    have bodyGrows := keeps_procedure_body keeps_step.body keeps_step.parameter context other routine start places last body
    have tailGrows := keeps_procedure_tail keeps_step.plain routine last () closed tail
    exact inner.grows (bodyGrows.1.trans tailGrows.1)
  have params : other.params.length = routine.params.length := by
    simpa using congrArg List.length describes.params
  refine ⟨⟨start.code.size, start.labels.size, routine.body.labels, site.small⟩, rfl,
    (ended.place skips placed).weaken (List.Subset.refl _) fun mark inside => ?_⟩
  simp only [Span.depths, ← params, List.cons_append, List.mem_cons, List.mem_append] at inside ⊢
  grind

theorem lays_letter_types (locus : Locus) (stmt : Stmt) :
    Lays context.symbols site given 0 (letterTypes context locus stmt) 0 := by
  cases stmt with
  | defType spec ranges =>
    exact lays_seq (lays_locus _) fun _ => lays_seq (lays_type spec locus) fun _ =>
      lays_all fun _ _ => lays_still _ (fun _ => rfl) rfl rfl
  | _ => exact lays_unit ()

theorem laid_main_body {main : Block} {start last : Assembly} {places : List (Nat × Stmt)} {small : Prop}
    (letters : (mainLetters context main).run .empty = .ok ((), start))
    (body : (blockPlaces context main).run start = .ok (places, last))
    (outside : context.loops = [] ∧ context.exit = none)
    (labels : ∀ name, context.symbols.HasLabel mainName name → name ∈ main.labels)
    (few : small → ∀ count ∈ main.itemCounts, count ≤ mostItems)
    (accepted : main.Accepted context.symbols ((Routine.main main).context context.registry)) :
    last.Laid context.symbols ⟨0, 0, main.labels, small⟩ [] (emptyAt places ++ [(0, 0)]) 0 := by
  have stays : context.Stays ((Routine.main main).context context.registry) ⟨0, 0, main.labels, small⟩ [] := by
    refine ⟨rfl, fun target id found => ?_, labels⟩
    cases target <;> simp [EmitContext.exitLabel?, outside] at found
  have started := lays_all (fun item _ => lays_letter_types item.1 item.2) _ Assembly.empty () start
    (Assembly.empty_laid main.labels small).mark letters
  exact notes_block context _ [] main stays few accepted _ start places last started body

theorem laid_main {main : Block} {after : Assembly} {span : Span} {small : Prop}
    (ran : (mainSpan context main).run .empty = .ok (span, after)) (outside : context.loops = [] ∧ context.exit = none)
    (labels : ∀ name, context.symbols.HasLabel mainName name → name ∈ main.labels)
    (few : small → ∀ count ∈ main.itemCounts, count ≤ mostItems)
    (accepted : main.Accepted context.symbols ((Routine.main main).context context.registry)) :
    after.Laid context.symbols ⟨0, 0, main.labels, small⟩ [] span.depths 0 := by
  obtain ⟨start, places, last, letters, body, rfl, rfl⟩ := main_span_cases ran
  have ended := laid_main_body letters body outside labels few accepted
  refine (laid_end ended .stop (fun _ => rfl) rfl rfl).weaken (List.Subset.refl _) fun mark inside => ?_
  simp only [Span.depths, Routine.main, Routine.results, List.mem_cons, List.mem_append] at inside ⊢
  grind

theorem deep_layout {program : Program} {symbols : SymbolTable} {registry : Registry} {spans : List Span}
    {whole : Assembly} (accepted : program.Accepted symbols registry)
    (few : ∀ count ∈ program.itemCounts, count ≤ mostItems)
    (ran : (layout (Program.emitContext symbols registry) program).run .empty = .ok (spans, whole)) :
    whole.Deep symbols (spans.flatMap Span.depths) 0 := by
  obtain ⟨main, others, between, last, ranMain, ranOthers, rfl, rfl⟩ := layout_cases ran
  have isFew (routine : Routine) (inside : routine ∈ program.routines) :
      ∀ count ∈ routine.body.itemCounts, count ≤ mostItems :=
    fun count isCount => few count (List.mem_flatMap.mpr ⟨routine, inside, isCount⟩)
  have isMain : Routine.main program.main ∈ program.routines := List.mem_cons_self
  have first : between.Laid symbols ⟨0, 0, program.main.labels, True⟩ [] main.depths 0 :=
    laid_main ranMain ⟨rfl, rfl⟩ (fun _ isLabel => accepted.own_label isMain isLabel) (fun _ => isFew _ isMain)
      (accepted.bodies _ isMain)
  have each : ∀ routine ∈ program.procedures, ∀ done,
      Reaches (fun assembly => ∃ site : Site, site.small = True ∧ assembly.Laid symbols site [] (done.flatMap Span.depths) 0)
        (procedureSpan (Program.emitContext symbols registry) routine) fun span assembly =>
          ∃ site : Site, site.small = True ∧ assembly.Laid symbols site [] ((done ++ [span]).flatMap Span.depths) 0 := by
    rintro routine isProcedure done before span after ⟨site, isSmall, laid⟩ ran
    have inside : routine ∈ program.routines := List.mem_cons_of_mem _ isProcedure
    obtain ⟨entry, found, describes⟩ := accepted.defines.described routine isProcedure
    obtain ⟨other, same, later⟩ := laid_procedure laid ran rfl found describes
      (fun _ isLabel => accepted.own_label inside isLabel) (fun _ => isFew routine inside) (accepted.bodies routine inside)
    refine ⟨other, same.trans isSmall, later.weaken (List.Subset.refl _) fun mark isMark => ?_⟩
    simpa [or_comm] using isMark
  obtain ⟨site, isSmall, laid⟩ := reaches_map each [main] between others last ⟨_, rfl, by simpa using first⟩ ranOthers
  have small : site.small := isSmall ▸ trivial
  split
  · exact laid.deep small
  · exact (lays_end .stop (fun _ => rfl) rfl rfl _ last () _ laid rfl : Assembly.Laid _ _ _ _ 0 _).deep small

end Emit

namespace Assembly

variable {whole : Assembly} {op : Op} {locus : Locus} {linked : Instruction}

-- What an operation takes and leaves is the same after linking, where calls find their procedures.
theorem link_uses {symbols : SymbolTable} {callee : Target → Option (Nat × Nat)} {count : Nat} {use : Nat × Nat}
    {code data : Target → Target} (uses : whole.Uses symbols count op use)
    (calls : ∀ name id entry, op = .call (.label id) → whole.entries.get? name = some id →
      symbols.procedure? name = some entry → callee (code (.label id)) = some entry.stackUse) :
    (op.retarget code data).stackUse? callee count = some use := by
  cases op with
  | call source =>
    obtain ⟨name, id, entry, rfl, isEntry, found, rfl⟩ := uses
    exact calls name id entry rfl isEntry found
  | _ => exact uses

end Assembly

namespace Span

def callee? (spans : List Span) : Target → Option (Nat × Nat)
  | .label _ => none
  | .resolved place =>
    (spans.find? fun span => span.first = place ∧ span.routine.kind ≠ .main).map fun span =>
      (span.routine.params.length, span.routine.results)

theorem one_first {spans : List Span} {assembly : Assembly} (spread : assembly.Spread spans) {left right : Span}
    (isLeft : left ∈ spans) (isRight : right ∈ spans) (same : left.first = right.first) : left = right := by
  have apart : (spans.map Span.first).Nodup :=
    List.pairwise_map.mpr (spread.ordered.imp_of_mem fun isEarly _ behind same =>
      absurd (spread.each _ isEarly).filled (Nat.not_lt.mpr (same ▸ behind)))
  exact List.inj_on_of_nodup_map apart isLeft isRight same

theorem callee_found {spans : List Span} {assembly : Assembly} (spread : assembly.Spread spans) {span : Span}
    (isSpan : span ∈ spans) (isProcedure : span.routine.kind ≠ .main) :
    callee? spans (.resolved span.first) = some (span.routine.params.length, span.routine.results) := by
  rw [callee?]
  cases found : spans.find? fun other => other.first = span.first ∧ other.routine.kind ≠ .main with
  | none => exact absurd (List.find?_eq_none.mp found span isSpan) (by simpa using isProcedure)
  | some other =>
    have here := List.find?_some found
    rw [one_first spread (List.mem_of_find?_eq_some found) isSpan (by simpa using (of_decide_eq_true here).1)]
    rfl

end Span

namespace Image

def countAt (image : Image) : Nat → Nat
  | 0 => 0
  | previous + 1 => (image.instructions[previous]?.map fun instruction => instruction.op.passedCount).getD 0

/-- Depths of the stack that every instruction agrees with, and that are those asked of each routine. -/
structure Balanced (image : Image) (spans : List Span) (depth : Nat → Nat) : Prop where
  fits : ∀ place instruction, image.instructions[place]? = some instruction →
    ∃ takes leaves, instruction.op.stackUse? (Span.callee? spans) (image.countAt place) = some (takes, leaves) ∧
      takes ≤ depth place ∧
      (∀ target ∈ instruction.op.successors place,
        ∃ next < image.instructions.size, target = .resolved next ∧ depth next = depth place - takes + leaves)
  -- Labels are statements.
  starts : ∀ span ∈ spans, ∀ start ∈ span.places, depth start.1 = 0
  entries : ∀ span ∈ spans, depth span.first = span.routine.params.length
  returns : ∀ span ∈ spans, span.routine.kind ≠ .main →
    (∃ locus, image.instructions[span.stop - 1]? = some ⟨.ret, locus⟩) ∧ depth (span.stop - 1) = span.routine.results

end Image

namespace Program

variable {program : Program} {symbols : SymbolTable} {registry : Registry} {image : Image} {whole : Assembly}
  {spans : List Span}

theorem Accepted.reached (accepted : program.Accepted symbols registry)
    (ran : (Emit.program (emitContext symbols registry) program).run .empty = .ok ((), whole)) :
    whole.At program.labels (Emit.start.after (Emit.programEffect (emitContext symbols registry) program)) := by
  obtain ⟨works, fails⟩ := accepted.emits Emit.start .empty (Nat.le_refl 0) accepted.allows
    Emit.empty_at_start fun _ isCall => isCall.elim
  by_cases succeeds : (Emit.programEffect (emitContext symbols registry) program).can
  · obtain ⟨result, assembly, reaches, reached, -⟩ := works succeeds
    rw [ran] at reaches
    cases reaches
    exact reached
  · obtain ⟨error, failed⟩ := fails succeeds
    rw [ran] at failed
    cases failed

theorem Accepted.calls_first (accepted : program.Accepted symbols registry)
    (ran : (Emit.program (emitContext symbols registry) program).run .empty = .ok ((), whole))
    (spread : whole.Spread spans) (routines : spans.map Span.routine = program.routines) {name : String} {id place : Nat}
    (isEntry : whole.entries.get? name = some id) (placed : whole.placeOf? id = some place) :
    ∃ span ∈ spans, span.routine ∈ program.procedures ∧ span.routine.name = name ∧ span.first = place := by
  have defined := ((accepted.reached ran).entries name id isEntry).2.mp (by rw [placed]; rfl)
  obtain ⟨routine, isProcedure, rfl⟩ := List.mem_map.mp defined
  have listed : routine ∈ spans.map Span.routine := by
    rw [routines]
    exact List.mem_cons_of_mem _ isProcedure
  obtain ⟨span, isSpan, rfl⟩ := List.mem_map.mp listed
  obtain ⟨⟨other, isOther, otherPlaced⟩, -⟩ :=
    (spread.each span isSpan).procedure (accepted.procedures _ isProcedure).1
  refine ⟨span, isSpan, isProcedure, rfl, ?_⟩
  rw [isEntry] at isOther
  rw [Option.some.inj isOther, otherPlaced] at placed
  exact Option.some.inj placed

theorem Accepted.call_use (accepted : program.Accepted symbols registry)
    (ran : (Emit.program (emitContext symbols registry) program).run .empty = .ok ((), whole))
    (spread : whole.Spread spans) (routines : spans.map Span.routine = program.routines) {name : String} {id place : Nat}
    {entry : ProcedureEntry} (isEntry : whole.entries.get? name = some id) (placed : whole.placeOf? id = some place)
    (found : symbols.procedure? name = some entry) : Span.callee? spans (.resolved place) = some entry.stackUse := by
  obtain ⟨span, isSpan, isProcedure, rfl, rfl⟩ := accepted.calls_first ran spread routines isEntry placed
  obtain ⟨other, isOther, describes⟩ := accepted.defines.described span.routine isProcedure
  obtain rfl : other = entry := Option.some.inj (isOther.symm.trans found)
  have params : other.params.length = span.routine.params.length := by
    simpa using congrArg List.length describes.params
  rw [Span.callee_found spread isSpan (accepted.procedures _ isProcedure).1, ProcedureEntry.stackUse, params,
    describes.kind]
  rfl

end Program

namespace Assembly

variable {symbols : SymbolTable} {depth : Nat → Nat} {spans : List Span} {image : Image} {whole last : Assembly}

theorem Linked.count_at (linked : whole.Linked image) (size : image.instructions.size = whole.code.size) (place : Nat) :
    image.countAt place = whole.countAt place := by
  cases place with
  | zero => rfl
  | succ previous =>
    rw [Image.countAt, countAt]
    cases found : whole.code[previous]? with
    | none =>
      have absent : image.instructions[previous]? = none := by
        rw [Array.getElem?_eq_none_iff] at found ⊢
        omega
      rw [absent]
    | some instruction =>
      obtain ⟨result, isLinked, isResult⟩ := linked previous instruction found
      obtain ⟨code, data, rfl, -⟩ := link_cases isLinked
      rw [isResult, Option.map_some, Option.map_some, Op.retarget_count]

theorem falls_before_end {place : Nat} {instruction : Instruction}
    (found : (last.emit .stop).code[place]? = some instruction) (falls : instruction.op.fallsThrough = true) :
    place + 1 < (last.emit .stop).code.size := by
  rw [emit, Array.getElem?_push] at found
  split at found
  · cases found
    cases falls
  · have below := (Array.getElem?_eq_some_iff.mp found).1
    rw [emit, Array.size_push]
    omega

theorem Stacked.balances (stacked : whole.Stacked symbols depth) (linked : whole.Linked image)
    (size : image.instructions.size = whole.code.size) (within : last.Within) (ends : whole = last.emit .stop)
    (calls : ∀ name id place entry, whole.entries.get? name = some id → whole.placeOf? id = some place →
      symbols.procedure? name = some entry → Span.callee? spans (.resolved place) = some entry.stackUse)
    {place : Nat} {instruction : Instruction} (found : image.instructions[place]? = some instruction) :
    ∃ takes leaves, instruction.op.stackUse? (Span.callee? spans) (image.countAt place) = some (takes, leaves) ∧
      takes ≤ depth place ∧
      ∀ target ∈ instruction.op.successors place,
        ∃ next < image.instructions.size, target = .resolved next ∧ depth next = depth place - takes + leaves := by
  have inCode : place < whole.code.size := size ▸ (Array.getElem?_eq_some_iff.mp found).1
  have source : whole.code[place]? = some whole.code[place] := Array.getElem?_eq_getElem inCode
  obtain ⟨result, isLinked, isResult⟩ := linked place _ source
  obtain ⟨code, data, rfl, resolves, -⟩ := link_cases isLinked
  obtain rfl := Option.some.inj (found.symm.trans isResult)
  obtain ⟨takes, leaves, uses, enough, falls, jumps⟩ := stacked.fits place _ source
  refine ⟨takes, leaves, ?_, enough, fun target isNext => ?_⟩
  · rw [linked.count_at size]
    refine link_uses uses fun name id entry isCall isEntry isFound => ?_
    obtain ⟨next, isPlace, isNext⟩ := resolve_label_place (resolves (.label id) (by rw [isCall]; rfl))
    rw [isNext]
    exact calls name id next entry isEntry isPlace isFound
  -- The stack is empty at every jump and at every label.
  · have jumping (isJump : target ∈ whole.code[place].op.jumps.map code) :
        ∃ next < image.instructions.size, target = .resolved next ∧ depth next = depth place - takes + leaves := by
      obtain ⟨source, isSource, rfl⟩ := List.mem_map.mp isJump
      obtain ⟨isEmpty, id, rfl, inner⟩ := jumps source isSource
      obtain ⟨next, isPlace, isNext⟩ := resolve_label_place (resolves _ (Op.aims_address _ (Op.jumps_aims _ isSource)))
      refine ⟨next, ?_, isNext, ?_⟩
      · rw [size, ends]
        exact within.below (ends ▸ isPlace)
      · rw [isEmpty]
        exact stacked.level id next isPlace inner.2
    rw [Op.successors, Op.retarget_falls, Op.retarget_jumps] at isNext
    split at isNext
    · next goesOn =>
      rcases List.mem_cons.mp isNext with rfl | isJump
      · refine ⟨place + 1, ?_, rfl, falls goesOn⟩
        rw [size, ends]
        exact falls_before_end (ends ▸ source) goesOn
      · exact jumping isJump
    · exact jumping isNext

end Assembly

namespace Program

variable {program : Program} {symbols : SymbolTable} {registry : Registry} {image : Image}

theorem Accepted.balanced (accepted : program.Accepted symbols registry)
    (few : ∀ count ∈ program.itemCounts, count ≤ mostItems) (coded : program.image symbols registry = .ok image) :
    ∃ spans depth, program.layout? symbols registry = some spans ∧ spans.map Span.routine = program.routines ∧
      (∀ span ∈ spans, span.places.map Prod.snd = span.routine.body.statements) ∧ image.Balanced spans depth := by
  obtain ⟨whole, link, ran, isLinked, same, -⟩ := image_inversion coded
  have linked := Assembly.link_linked isLinked same
  have size : image.instructions.size = whole.code.size := by rw [same, Assembly.link_size isLinked]
  obtain ⟨spans, ranLayout⟩ := Emit.run_remember (Emit.forget_layout _ program) ran
  obtain ⟨spread, routines⟩ := Emit.spread_layout ranLayout
  obtain ⟨last, within, ends⟩ := Emit.layout_ends ranLayout
  obtain ⟨depth, stacked, -, marks⟩ := Emit.deep_layout accepted few ranLayout
  have asked (span : Span) (isSpan : span ∈ spans) (mark : Nat × Nat) (isMark : mark ∈ span.depths) :
      depth mark.1 = mark.2 :=
    (marks mark (List.mem_flatMap.mpr ⟨span, isSpan, isMark⟩)).2
  refine ⟨spans, depth, ?_, routines, fun span isSpan => (spread.each span isSpan).statements, ?_, ?_, ?_, ?_⟩
  · rw [layout?, ranLayout]
  · intro place instruction found
    exact stacked.balances linked size within ends
      (fun _ _ _ _ isEntry placed found => accepted.call_use ran spread routines isEntry placed found) found
  · intro span isSpan start isStart
    refine asked span isSpan (start.1, 0) (List.mem_cons_of_mem _ (List.mem_cons_of_mem _ ?_))
    exact List.mem_map.mpr ⟨start, isStart, rfl⟩
  · intro span isSpan
    exact asked span isSpan _ List.mem_cons_self
  · intro span isSpan isProcedure
    obtain ⟨-, locus, returns⟩ := (spread.each span isSpan).procedure isProcedure
    obtain ⟨result, isResult, found⟩ := linked _ _ returns
    cases isResult
    exact ⟨⟨locus, found⟩, asked span isSpan _ (List.mem_cons_of_mem _ List.mem_cons_self)⟩

end Program

/-- The code of an accepted program has a depth for every instruction: one that what the instructions take and leave
agrees with along every way the code can go, that is nothing between statements, that is the number of parameters at
the entry of a routine, and the number of its results at its final `RET`. -/
theorem accepted_code_balances (source : String) (registry : Registry) (program : Program) (image : Image)
    (parsed : parse (tokenize source).1 = .ok program) (quiet : (program.check registry).diagnostics = [])
    (coded : (program.check registry).program.image (program.check registry).symbols registry = .ok image)
    (few : ∀ count ∈ (program.check registry).program.itemCounts, count ≤ 32767) :
    ∃ spans depth,
      (program.check registry).program.layout? (program.check registry).symbols registry = some spans ∧
        spans.map Span.routine = (program.check registry).program.routines ∧
        (∀ span ∈ spans, span.places.map Prod.snd = span.routine.body.statements) ∧ image.Balanced spans depth :=
  (Program.check_accepted (parse_well_formed (tokenize_lexed source) parsed) quiet).balanced few coded

def sampleWithCalls : String :=
  "FOR I = 1 TO F(3)\nIF I > 2 THEN GOSUB Show\nNEXT I\nEND\nShow: CALL S(I)\nRETURN\n" ++
    "FUNCTION F(X)\nF = X * X\nEND FUNCTION\nSUB S(A)\nPRINT USING \"#\"; A; A + 1\nEND SUB\n"

theorem sample_code_balances : ∃ program image spans depth,
    parse (tokenize sampleWithCalls).1 = .ok program ∧
      (program.check .standard).program.image (program.check .standard).symbols .standard = .ok image ∧
      (program.check .standard).program.layout? (program.check .standard).symbols .standard = some spans ∧
      image.Balanced spans depth := by
  obtain ⟨program, parsed, quiet, bodies, storage, few⟩ := exists_parsed sampleWithCalls
    (fun program => (program.check .standard).diagnostics = [] ∧
      (∀ name ∈ (program.check .standard).program.calls, (program.check .standard).symbols.HasBody name) ∧
      (∀ expr ∈ (program.check .standard).program.taken (program.check .standard).symbols .standard,
        expr.isStorage = true) ∧
      ∀ count ∈ (program.check .standard).program.itemCounts, count ≤ 32767)
    (by decide +kernel)
  have accepted := Program.check_accepted (parse_well_formed (tokenize_lexed sampleWithCalls) parsed) quiet
  obtain ⟨image, coded⟩ := accepted.image_ok.mpr ⟨bodies, storage⟩
  obtain ⟨spans, depth, isLayout, -, -, balanced⟩ :=
    accepted_code_balances sampleWithCalls .standard program image parsed quiet coded few
  exact ⟨program, image, spans, depth, parsed, coded, isLayout, balanced⟩

end BasicLang
