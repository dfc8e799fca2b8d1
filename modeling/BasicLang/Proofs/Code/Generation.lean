import BasicLang.Proofs.Code.Linking
import BasicLang.Proofs.Code.OutcomeStmt
import BasicLang.Proofs.Lexer
import BasicLang.Proofs.Syntax.BlockGrammar

set_option autoImplicit false

namespace BasicLang

def SymbolTable.HasBody (symbols : SymbolTable) (name : String) : Prop :=
  ∃ entry, symbols.procedure? name = some entry ∧ entry.isDefined = true

instance (symbols : SymbolTable) (name : String) : Decidable (symbols.HasBody name) :=
  decidable_of_iff ((symbols.procedure? name).any ProcedureEntry.isDefined = true)
    (Option.any_eq_true _ _)

section Called

variable {symbols : SymbolTable}

mutual

theorem Stmt.called_has_body (context : CheckContext) (stmt : Stmt)
    (accepted : stmt.Accepted symbols context) : ∀ name ∈ stmt.called symbols, symbols.HasBody name := by
  cases stmt with
  | call name arguments =>
    obtain ⟨-, -, ⟨entry, found, -, isDefined, -⟩ | ⟨absent, -⟩⟩ := accepted
    · intro other inside
      rw [Stmt.called, found] at inside
      rw [List.mem_singleton.mp inside]
      exact ⟨entry, found, isDefined⟩
    · simp [Stmt.called, absent]
  | cond branches => exact Arms.called_has_body context branches accepted
  | select test clauses => exact Cases.called_has_body context clauses accepted.2
  | forLoop counter first last step body next =>
    exact Block.called_has_body _ body accepted.2.2.2.2
  | whileLoop condition body => exact Block.called_has_body _ body accepted.2
  | doLoop before body after => exact Block.called_has_body _ body accepted.2.1
  | _ => exact fun _ inside => nomatch inside

theorem Block.called_has_body (context : CheckContext) (block : Block)
    (accepted : block.Accepted symbols context) : ∀ name ∈ block.called symbols, symbols.HasBody name := by
  cases block with
  | nil => exact fun _ inside => nomatch inside
  | cons locus head tail =>
    exact List.forall_mem_append.mpr
      ⟨Stmt.called_has_body context head accepted.1, Block.called_has_body context tail accepted.2⟩

theorem Arms.called_has_body (context : CheckContext) (branches : Arms)
    (accepted : branches.Accepted symbols context) :
    ∀ name ∈ branches.called symbols, symbols.HasBody name := by
  cases branches with
  | none => exact fun _ inside => nomatch inside
  | otherwise body => exact Block.called_has_body _ body accepted
  | arm condition body rest =>
    exact List.forall_mem_append.mpr
      ⟨Block.called_has_body _ body accepted.2.1, Arms.called_has_body context rest accepted.2.2⟩

theorem Cases.called_has_body (context : CheckContext) (clauses : Cases)
    (accepted : clauses.Accepted symbols context) :
    ∀ name ∈ clauses.called symbols, symbols.HasBody name := by
  cases clauses with
  | none => exact fun _ inside => nomatch inside
  | otherwise body => exact Block.called_has_body _ body accepted
  | clause locus patterns body rest =>
    exact List.forall_mem_append.mpr
      ⟨Block.called_has_body _ body accepted.2.1, Cases.called_has_body context rest accepted.2.2⟩

end

end Called

namespace Emit

variable {known : List String} {bound : Nat} {context : EmitContext}

theorem emits_all {α : Type} {items : List α} {emit : α → Emit Unit}
    (each : ∀ item ∈ items, Emits known bound .nothing (emit item)) :
    Emits known bound .nothing (items.forM emit) := by
  induction items with
  | nil => exact emits_unit ()
  | cons head tail ih =>
    exact emits_before (each head List.mem_cons_self) fun _ =>
      ih fun item inside => each item (List.mem_cons_of_mem _ inside)

theorem emits_when {effect : Effect} {first : Emit Unit} {next : Unit → Emit Unit} (condition : Prop)
    [Decidable condition] (emits : Emits known bound .nothing first)
    (emitsNext : ∀ result, Emits known bound effect (next result)) :
    Emits known bound effect (if condition then first >>= next else next ()) := by
  split
  · exact emits_before emits emitsNext
  · exact emitsNext ()

theorem block_statements {checked : CheckContext} (block : Block)
    (accepted : block.Accepted context.symbols checked) :
    ∀ item ∈ block.toList, item.2.Accepted context.symbols checked := by
  cases block with
  | nil => exact fun _ inside => nomatch inside
  | cons locus head tail =>
    exact List.forall_mem_cons.mpr ⟨accepted.1, block_statements tail accepted.2⟩

theorem emits_letter_types {checked : CheckContext} (locus : Locus) (stmt : Stmt)
    (accepted : stmt.Accepted context.symbols checked) :
    Emits known bound .nothing (letterTypes context locus stmt) := by
  cases stmt with
  | defType spec ranges =>
    have isKnown : spec.Known context.symbols := by
      cases spec with
      | record name => exact accepted.elim
      | _ => rfl
    exact emits_before (emits_locus _) fun _ => emits_before (emits_type spec locus isKnown) fun _ =>
      emits_all fun _ _ => emits_plain _ rfl
  | _ => exact emits_unit ()

def routineEffect (context : EmitContext) (routine : Routine) : Effect :=
  { blockEffect context routine.body with entries := [routine.name] }

theorem serves_routine {routine : Routine} {exit : Nat} (below : exit < bound) :
    EmitContext.Serves { context with exit := some exit } (routine.context context.registry) bound := by
  refine ⟨rfl, fun target allowed => ?_⟩
  cases target with
  | sub => exact ⟨exit, rfl, below⟩
  | function => exact ⟨exit, rfl, below⟩
  | _ => exact absurd allowed (by simp [Routine.context, CheckContext.allowsExit])

theorem emits_procedure (routine : Routine) (knows : Knows context known)
    (hasEntry : (context.symbols.procedure? routine.name).isSome = true)
    (accepted : routine.body.Accepted context.symbols (routine.context context.registry)) :
    Emits known bound (routineEffect context routine) (procedure context routine) := by
  obtain ⟨entry, found⟩ := Option.isSome_iff_exists.mp hasEntry
  rw [procedure, found]
  refine emits_before (emits_locus _) fun _ => emits_new_label fun skip above =>
    emits_before (emits_jump (Nat.lt_succ_self skip)) fun _ => ?_
  have body : Emits known (skip + 1) (placing [skip] (blockEffect context routine.body)) (do
      let exit ← newLabel
      block { context with exit := some exit } routine.body
      place exit
      if routine.kind = .function then op (.pushValue routine.name)
      op .ret
      place skip) := by
    refine emits_new_label fun exit aboveSkip => ?_
    have served : EmitContext.Serves { context with exit := some exit }
        (routine.context context.registry) (exit + 1) :=
      serves_routine (Nat.lt_succ_self exit)
    have emitted := emits_block { context with exit := some exit } (routine.context context.registry)
      routine.body knows (exit + 1) served accepted
    have closing : Emits known (exit + 1) (placing [exit, skip] (effectOn context [] [] [] [])) (do
        place exit
        if routine.kind = .function then op (.pushValue routine.name)
        op .ret
        place skip) :=
      emits_place_first exit fun _ => emits_when _ (emits_plain _ rfl) fun _ =>
        emits_before (emits_plain _ rfl) fun _ => emits_place_last skip
    have whole := emits_join_placing emitted fun _ => closing
    simp only [List.append_nil] at whole
    exact whole
  have entered := emits_seq (emits_entry routine.name) fun _ =>
    emits_before (emits_all fun param (_ : param ∈ entry.params.reverse) =>
      emits_plain (.popParam param.1 param.2) rfl) fun _ =>
        emits_when (routine.kind = .function)
          (emits_plain (.dim routine.name (entry.returns.getD .any)) rfl) fun _ => body
  rw [bind_assoc] at entered
  exact emits_same entered ⟨rfl, rfl, .refl _, fun _ => .rfl, by simp [routineEffect, placing, Effect.seq, Effect.nothing]⟩

def routinesEffect (context : EmitContext) (routines : List Routine) : Effect :=
  { effectOn context (routines.flatMap fun routine => routine.body.labels)
      (routines.flatMap fun routine => routine.body.exprs)
      (routines.flatMap fun routine => routine.body.targets context.symbols context.registry)
      (routines.flatMap fun routine => routine.body.called context.symbols) with
    entries := routines.map Routine.name }

theorem routines_effect_cons (head : Routine) (tail : List Routine) :
    (routinesEffect context (head :: tail)).Same ((routineEffect context head).seq (routinesEffect context tail)) := by
  refine ⟨rfl, rfl, .refl _, fun name => ?_, ?_⟩
  · simp only [routinesEffect, routineEffect, blockEffect, effectOn, effectOf, Effect.seq,
      List.flatMap_cons, List.flatMap_append, List.mem_append]
    grind
  · simp only [routinesEffect, routineEffect, blockEffect, effectOn, effectOf, Effect.seq,
      List.flatMap_cons, List.flatMap_append, List.forall_mem_append]
    grind

theorem emits_procedures (routines : List Routine) (knows : Knows context known)
    (hasEntry : ∀ routine ∈ routines, (context.symbols.procedure? routine.name).isSome = true)
    (accepted : ∀ routine ∈ routines,
      routine.body.Accepted context.symbols (routine.context context.registry)) :
    Emits known bound (routinesEffect context routines) (routines.forM (procedure context)) := by
  induction routines with
  | nil => exact emits_still (emits_unit ())
  | cons head tail ih =>
    rw [List.forall_mem_cons] at hasEntry accepted
    exact emits_same (emits_seq (emits_procedure head knows hasEntry.1 accepted.1) fun _ =>
      ih hasEntry.2 accepted.2) (routines_effect_cons head tail)

theorem emits_all_letter_types {checked : CheckContext} (block : Block)
    (accepted : block.Accepted context.symbols checked) :
    Emits known bound .nothing
      (block.toList.forM fun (locus, stmt) => letterTypes context locus stmt) :=
  emits_all fun item inside =>
    emits_letter_types item.1 item.2 (block_statements block accepted item inside)

def programEffect (context : EmitContext) (program : Program) : Effect :=
  { routinesEffect context program.routines with entries := program.procedures.map Routine.name }

theorem program_effect_parts (program : Program) :
    (programEffect context program).Same
      ((blockEffect context program.main).seq (routinesEffect context program.procedures)) := by
  refine ⟨rfl, rfl, .refl _, fun name => ?_, ?_⟩
  · simp only [programEffect, routinesEffect, blockEffect, effectOn, effectOf, Effect.seq, Program.routines,
      Routine.main, List.flatMap_cons, List.flatMap_append, List.mem_append]
    grind
  · simp only [programEffect, routinesEffect, blockEffect, effectOn, effectOf, Effect.seq, Program.routines,
      Routine.main, List.flatMap_cons, List.flatMap_append, List.forall_mem_append]
    grind

theorem emits_program (program : Program) (knows : Knows context known)
    (hasEntry : ∀ routine ∈ program.procedures,
      (context.symbols.procedure? routine.name).isSome = true)
    (accepted : ∀ routine ∈ program.routines,
      routine.body.Accepted context.symbols (routine.context context.registry)) :
    Emits known bound (programEffect context program) (Emit.program context program) := by
  obtain ⟨mainAccepted, proceduresAccepted⟩ := List.forall_mem_cons.mp accepted
  have served : context.Serves (Routine.context (.main program.main) context.registry) bound :=
    ⟨rfl, fun target allowed => by cases target <;> cases allowed⟩
  have body := emits_block context _ program.main knows bound served mainAccepted
  have closing : Emits known bound .nothing
      (if !program.procedures.isEmpty then op .stop else pure () : Emit Unit) := by
    split
    · exact emits_plain _ rfl
    · exact emits_unit ()
  have procedures := emits_behind (emits_procedures program.procedures knows hasEntry proceduresAccepted)
    fun _ => closing
  refine emits_before (emits_all_letter_types program.main mainAccepted) fun _ => ?_
  exact emits_same (emits_seq body fun _ => emits_before (emits_plain _ rfl) fun _ => procedures)
    (program_effect_parts program)

def start : Progress :=
  { bound := 0, pending := fun _ => False, names := [], entries := [], calls := fun _ => False }

theorem empty_at_start : Assembly.empty.At known start where
  sound := Assembly.empty_sound
  bound := Nat.le_refl _
  unlinked := rfl
  targets := fun _ inside => nomatch inside
  pending := fun _ isPending => isPending.elim
  unnamed := fun _ isPending => isPending.elim
  accounted := fun _ below => absurd below (Nat.not_lt_zero _)
  named := fun _ _ found => nomatch found
  present := fun _ inside => nomatch inside
  entries := fun _ _ found => nomatch found
  presentEntries := fun _ inside => nomatch inside

end Emit

theorem Assembly.At.link_ok {known : List String} {progress : Progress} {assembly : Assembly}
    (here : assembly.At known progress) (calls : assembly.Calls progress)
    (settled : ∀ id, ¬progress.pending id) (placed : ∀ name ∈ known, name ∈ progress.names) :
    (∃ linked, assembly.link = .ok linked) ↔
      ∀ name, progress.calls name → name ∈ progress.entries := by
  rw [Assembly.link_ok here.sound here.unlinked]
  constructor
  · intro resolves name called
    obtain ⟨id, isEntry, instruction, inCode, isCall⟩ := calls name called
    have isPlaced := resolves instruction inCode id (by rw [isCall]; exact List.mem_singleton_self id)
    exact (here.entries name id isEntry).2.mp isPlaced
  · intro defined instruction inCode id isTarget
    cases found : assembly.placeOf? id with
    | some place => rfl
    | none =>
      rcases here.accounted id (here.targets instruction inCode id isTarget) found with
        isPending | ⟨name, isLabel⟩ | ⟨name, isEntry⟩
      · exact absurd isPending (settled id)
      · obtain ⟨isKnown, isPlaced⟩ := here.named name id isLabel
        rw [← found]
        exact isPlaced.mpr (placed name isKnown)
      · obtain ⟨called, isPlaced⟩ := here.entries name id isEntry
        rw [← found]
        exact isPlaced.mpr (called.elim (defined name) fun inside => inside)

namespace Program

variable {program : Program} {symbols : SymbolTable} {registry : Registry}

def emitContext (symbols : SymbolTable) (registry : Registry) : EmitContext :=
  { symbols, registry, loops := [], exit := none }

def labels (program : Program) : List String :=
  (program.routines.flatMap Routine.labels).map Prod.snd

theorem labels_of_bodies (program : Program) :
    program.labels = program.routines.flatMap fun routine => routine.body.labels := by
  simp [labels, Routine.labels, List.map_flatMap, Function.comp_def]

theorem Accepted.knows (accepted : program.Accepted symbols registry) :
    Emit.Knows (emitContext symbols registry) program.labels := by
  intro name isLabel
  obtain ⟨label, found⟩ := Option.isSome_iff_exists.mp isLabel
  have inside := (accepted.places.labelled name label.routine).mp ⟨label, found, rfl⟩
  exact List.mem_map_of_mem inside

theorem Accepted.emits (accepted : program.Accepted symbols registry) :
    Emit.Emits program.labels 0 (Emit.programEffect (emitContext symbols registry) program)
      (Emit.program (emitContext symbols registry) program) := by
  refine Emit.emits_program program accepted.knows (fun routine inside => ?_) accepted.bodies
  obtain ⟨entry, found, -⟩ := accepted.defines.described routine inside
  exact Option.isSome_iff_exists.mpr ⟨entry, found⟩

theorem Accepted.allows (accepted : program.Accepted symbols registry) :
    Emit.start.Allows program.labels (Emit.programEffect (emitContext symbols registry) program) where
  distinct := by
    have distinct := accepted.places.distinct
    rwa [← labels, labels_of_bodies] at distinct
  fresh := fun name inside => ⟨program.labels_of_bodies ▸ inside, List.not_mem_nil⟩
  distinctEntries := accepted.defines.distinct
  freshEntries := fun _ _ => List.not_mem_nil
  distinctPlaces := List.nodup_nil
  pending := fun _ inside => nomatch inside

theorem Accepted.has_body_iff (accepted : program.Accepted symbols registry) (name : String) :
    symbols.HasBody name ↔ name ∈ program.procedures.map Routine.name := by
  rw [List.mem_map]
  constructor
  · rintro ⟨entry, found, isDefined⟩
    exact accepted.defines.defined name entry found isDefined
  · rintro ⟨routine, inside, rfl⟩
    obtain ⟨entry, found, describes⟩ := accepted.defines.described routine inside
    exact ⟨entry, found, describes.isDefined⟩

theorem image_of_run {result : Unit} {assembly : Assembly}
    (ran : (Emit.program (emitContext symbols registry) program).run .empty = .ok (result, assembly)) :
    (∃ image, program.image symbols registry = .ok image) ↔ ∃ linked, assembly.link = .ok linked := by
  rw [image, ← emitContext, ran]
  exact Assembly.except_map_ok assembly.link _

theorem no_image_of_error {error : CodeError}
    (failed : (Emit.program (emitContext symbols registry) program).run .empty = .error error) :
    ¬∃ image, program.image symbols registry = .ok image := by
  rw [image, ← emitContext, failed]
  rintro ⟨_, found⟩
  cases found

theorem image_inversion {image : Image} (coded : program.image symbols registry = .ok image) :
    ∃ whole linked, (Emit.program (emitContext symbols registry) program).run .empty = .ok ((), whole) ∧
      whole.link = .ok linked ∧ image.instructions = linked.code ∧ image.defaultType = .single ∧
      image.shared = symbols.shared.names := by
  rw [Program.image, ← emitContext] at coded
  cases ran : (Emit.program (emitContext symbols registry) program).run .empty with
  | error error =>
    rw [ran] at coded
    cases coded
  | ok emitted =>
    obtain ⟨⟨⟩, whole⟩ := emitted
    simp only [ran, bind, Except.bind] at coded
    cases isLinked : whole.link with
    | error error =>
      rw [isLinked] at coded
      cases coded
    | ok linked =>
      rw [isLinked] at coded
      rw [← Except.ok.inj coded]
      exact ⟨whole, linked, rfl, isLinked, rfl, rfl, rfl⟩

theorem Accepted.image_ok (accepted : program.Accepted symbols registry) :
    (∃ image, program.image symbols registry = .ok image) ↔
      (∀ name ∈ program.calls, symbols.HasBody name) ∧
        ∀ expr ∈ program.taken symbols registry, expr.isStorage = true := by
  obtain ⟨works, fails⟩ := accepted.emits Emit.start .empty (Nat.le_refl 0) accepted.allows
    Emit.empty_at_start fun _ isCall => isCall.elim
  have can : (Emit.programEffect (emitContext symbols registry) program).can ↔
      ∀ expr ∈ program.taken symbols registry, expr.isStorage = true := by
    simp only [Emit.programEffect, Emit.routinesEffect, Emit.effectOn, Emit.effectOf, taken, emitContext,
      List.mem_append, List.mem_flatMap]
    grind
  have called (name : String) :
      name ∈ (Emit.programEffect (emitContext symbols registry) program).calls ↔
        name ∈ program.calls ∨ ∃ routine ∈ program.routines, name ∈ routine.body.called symbols := by
    simp only [Emit.programEffect, Emit.routinesEffect, Emit.effectOn, Emit.effectOf, calls, emitContext,
      List.mem_append, List.mem_flatMap]
    grind
  rw [← can]
  by_cases succeeds : (Emit.programEffect (emitContext symbols registry) program).can
  · obtain ⟨result, assembly, ran, reached, inCode⟩ := works succeeds
    have placed : ∀ name ∈ program.labels,
        name ∈ (Emit.start.after (Emit.programEffect (emitContext symbols registry) program)).names :=
      fun name inside => by
        rw [labels_of_bodies] at inside
        exact inside
    have settled (id : Nat) :
        ¬(Emit.start.after (Emit.programEffect (emitContext symbols registry) program)).pending id :=
      fun isPending => isPending.1
    rw [image_of_run ran, reached.link_ok inCode settled placed]
    constructor
    · refine fun defined => ⟨fun name isCalled => ?_, succeeds⟩
      exact (accepted.has_body_iff name).mpr (defined name (.inr ((called name).mpr (.inl isCalled))))
    · rintro ⟨hasBody, -⟩ name (none | isCalled)
      · exact none.elim
      · rcases (called name).mp isCalled with inExpr | ⟨routine, inside, isSub⟩
        · exact (accepted.has_body_iff name).mp (hasBody name inExpr)
        · exact (accepted.has_body_iff name).mp
            (Block.called_has_body _ routine.body (accepted.bodies routine inside) name isSub)
  · obtain ⟨error, failed⟩ := fails succeeds
    exact iff_of_false (no_image_of_error failed) fun both => succeeds both.2

end Program

theorem compile_inversion {source : String} {registry : Registry} {image : Image}
    (compiled : compile source registry = .ok image) {program : Program}
    (parsed : parse (tokenize source).1 = .ok program) :
    (program.check registry).diagnostics = [] ∧
      (program.check registry).program.image (program.check registry).symbols registry = .ok image := by
  unfold compile at compiled
  simp only [parsed] at compiled
  split at compiled
  · cases compiled
  · split at compiled
    · cases compiled
    · next quiet =>
      split at compiled
      · next coded =>
        rw [← Except.ok.inj compiled]
        exact ⟨by simpa using quiet, coded⟩
      · cases compiled

/-- A program that is parsed and checked without a diagnostic has code if and only if every function
that it calls has a body and everything that it takes as storage is storage. -/
theorem checked_program_has_code_iff (source : String) (registry : Registry) (program : Program)
    (parsed : parse (tokenize source).1 = .ok program)
    (quiet : (program.check registry).diagnostics = []) :
    (∃ image, (program.check registry).program.image (program.check registry).symbols registry =
        .ok image) ↔
      (∀ name ∈ (program.check registry).program.calls, (program.check registry).symbols.HasBody name) ∧
        ∀ expr ∈ (program.check registry).program.taken (program.check registry).symbols registry,
          expr.isStorage = true :=
  (Program.check_accepted (parse_well_formed (tokenize_lexed source) parsed) quiet).image_ok

theorem exists_ok {ε α : Type} {result : Except ε α} (test : α → Prop) [DecidablePred test]
    (passes : result.toOption.any (fun value => decide (test value)) = true) :
    ∃ value, result = .ok value ∧ test value := by
  cases result with
  | error errors => cases passes
  | ok value => exact ⟨value, rfl, of_decide_eq_true passes⟩

theorem exists_parsed (source : String) (test : Program → Prop) [DecidablePred test]
    (passes : (parse (tokenize source).1).toOption.any (fun program => decide (test program)) = true) :
    ∃ program, parse (tokenize source).1 = .ok program ∧ test program :=
  exists_ok test passes

theorem exists_compiled (source : String) (test : Image → Prop) [DecidablePred test]
    (passes : (compile source .standard).toOption.any (fun image => decide (test image)) = true) :
    ∃ image, compile source .standard = .ok image ∧ test image :=
  exists_ok test passes

theorem square_has_code : ∃ program image,
    parse (tokenize "A = F(2)\nFUNCTION F(X)\nF = X * X\nEND FUNCTION\n").1 = .ok program ∧
      (program.check .standard).program.image (program.check .standard).symbols .standard = .ok image := by
  obtain ⟨program, parsed, quiet, bodies, storage⟩ := exists_parsed
    "A = F(2)\nFUNCTION F(X)\nF = X * X\nEND FUNCTION\n"
    (fun program => (program.check .standard).diagnostics = [] ∧
      (∀ name ∈ (program.check .standard).program.calls,
        (program.check .standard).symbols.HasBody name) ∧
      ∀ expr ∈ (program.check .standard).program.taken (program.check .standard).symbols .standard,
        expr.isStorage = true)
    (by decide +kernel)
  obtain ⟨image, coded⟩ := (checked_program_has_code_iff _ _ program parsed quiet).mpr ⟨bodies, storage⟩
  exact ⟨program, image, parsed, coded⟩

/-- A function that is declared only may be called, as far as checking goes. -/
theorem declared_function_has_no_code : ∃ program,
    parse (tokenize "DECLARE FUNCTION F(X)\nA = F(1)\n").1 = .ok program ∧
      (program.check .standard).diagnostics = [] ∧
      ¬∃ image, (program.check .standard).program.image (program.check .standard).symbols .standard =
        .ok image := by
  obtain ⟨program, parsed, quiet, fails⟩ := exists_parsed "DECLARE FUNCTION F(X)\nA = F(1)\n"
    (fun program => (program.check .standard).diagnostics = [] ∧
      ((program.check .standard).program.image
        (program.check .standard).symbols .standard).toOption.isNone = true)
    (by decide +kernel)
  refine ⟨program, parsed, quiet, ?_⟩
  rintro ⟨image, coded⟩
  rw [coded] at fails
  cases fails

end BasicLang
