import BasicLang.Proofs.Code.Structured

set_option autoImplicit false

namespace BasicLang

theorem Environment.Keeps.lower {limit higher : Nat} {made later : Environment}
    (keeps : Keeps higher made later) (below : limit ≤ higher) : Keeps limit made later :=
  (Keeps.refl limit made).trans keeps below

theorem Environment.find_again (environment : Environment) (name : String) :
    (environment.find name).2.find name = environment.find name := by
  unfold Environment.find Environment.fetch
  cases found : environment.value? name with
  | some value => simp only [found]
  | none => simp [Environment.set]

theorem Environment.advance_found (environment : Environment) (counter : String) (step : Value) :
    (environment.find counter).2.advance counter step = environment.advance counter step := by
  unfold Environment.advance
  rw [Environment.find_again]

namespace Emit

variable {whole : Assembly} {image : Image} {context : EmitContext} {fuel : Nat}
  {interpret : Environment → Interpretation Flow} {before after first last : Assembly}

theorem Performs.within (performs : Performs image whole context fuel interpret before after)
    (start : first.code.size = before.code.size) (fewer : first.temporaries ≤ before.temporaries)
    (finish : last.code.size = after.code.size) :
    Performs image whole context fuel interpret first last := by
  intro environment made
  rw [start, finish]
  refine Point.follows_weaken (performs environment made) ?_
  rintro ⟨exit, changed⟩ _ ⟨next, later, keeps, lands, rfl⟩
  exact ⟨next, later, keeps.lower fewer, lands, rfl⟩

theorem Changes.performs {change : Environment → Except Fault Environment}
    (changes : Changes image change before after) :
    Performs image whole context fuel (fun environment => do
      return (none, ← .ofResult (change environment))) before after := by
  intro environment made
  refine Point.follows_seq (changes fuel environment made) ?_
  rintro changed _ rfl
  exact Point.follows_unit ⟨_, made, .refl _ _, rfl, rfl⟩

theorem performs_nothing (same : after.code.size = before.code.size) :
    Performs image whole context fuel (fun environment => return (none, environment)) before after := by
  intro environment made
  rw [← same]
  exact Point.follows_unit ⟨_, made, .refl _ _, rfl, rfl⟩

theorem Performs.seq {between : Assembly} {next : Environment → Interpretation Flow}
    (head : Performs image whole context fuel interpret before between)
    (tail : Performs image whole context fuel next between after)
    (more : before.temporaries ≤ between.temporaries) :
    Performs image whole context fuel (fun environment => do
      let (exit, environment) ← interpret environment
      match exit with
      | some target => return (some target, environment)
      | none => next environment) before after := by
  intro environment made
  refine Point.follows_seq (head environment made) ?_
  rintro ⟨exit, changed⟩ _ ⟨place, later, keeps, lands, rfl⟩
  cases exit with
  | some target => exact Point.follows_unit ⟨place, later, keeps, lands, rfl⟩
  | none =>
    -- Without an exit the first statements end where the next ones start.
    cases lands
    refine Point.follows_weaken (tail changed later) ?_
    rintro ⟨exit, finally_⟩ _ ⟨place, latest, kept, landed, rfl⟩
    exact ⟨place, latest, keeps.trans kept more, landed, rfl⟩

theorem Performs.jump {place : Nat} (performs : Performs image whole context fuel interpret before after)
    (jumps : image.Fetches after.code.size (.jump (.resolved place))) (ends : last.code.size = place) :
    Performs image whole context fuel interpret before last := by
  intro environment made
  have same : interpret environment = interpret environment >>= pure := (bind_pure _).symm
  rw [same]
  refine Point.follows_seq (performs environment made) ?_
  rintro ⟨exit, changed⟩ _ ⟨next, later, keeps, lands, rfl⟩
  cases exit with
  | some target => exact Point.follows_unit ⟨next, later, keeps, lands, rfl⟩
  | none =>
    cases lands
    exact Point.follows_move (.jump jumps) (Point.follows_unit ⟨place, later, keeps, ends.symm, rfl⟩)

variable (linked : whole.Linked image) {table : SymbolTable} {registry : Registry}

def conditionLoop (context : EmitContext) (kind : ExitTarget) (test : Option LoopCondition) (body : Block)
    (further : Option LoopCondition) : Emit Unit := do
  let top ← newLabel
  let exit ← newLabel
  place top
  leave context test exit
  block (context.inLoop kind exit) body
  goBack context further top
  place exit

theorem while_loop_code (locus : Locus) (condition : Expr) (body : Block) :
    stmt context locus (.whileLoop condition body) =
      conditionLoop context .whileLoop (some ⟨true, condition⟩) body none := by
  simp only [stmt, conditionLoop, leave, branch, goBack, Bool.not_true, Bool.false_eq_true, if_false, bind_assoc]

theorem leave_code (condition : LoopCondition) (exit : Nat) :
    leaveUnless context condition exit = branch context condition.condition (!condition.isWhile) exit := by
  rw [leaveUnless, branch]
  cases condition.isWhile <;> rfl

theorem do_loop_code (locus : Locus) (test further : Option LoopCondition) (body : Block) :
    stmt context locus (.doLoop test body further) = conditionLoop context .doLoop test body further := by
  rw [stmt, conditionLoop]
  refine congrArg (newLabel >>= ·) (funext fun top => congrArg (newLabel >>= ·) (funext fun exit =>
    congrArg (place top >>= ·) (funext fun _ => ?_)))
  cases test with
  | none => cases further <;> rfl
  | some condition =>
    simp only [leave_code]
    cases further <;> rfl

include linked

theorem phrase_condition_loop {kind : ExitTarget} {test further : Option LoopCondition} {body : Block}
    (testScalar : ∀ loop ∈ test, loop.condition.isScalar = true)
    (testAccepted : ∀ loop ∈ test, loop.condition.Accepted table registry)
    (furtherScalar : ∀ loop ∈ further, loop.condition.isScalar = true)
    (furtherAccepted : ∀ loop ∈ further, loop.condition.Accepted table registry)
    (bodies : ∀ exit, Phrase whole (block (context.inLoop kind exit) body) fun before _ after =>
      Performs image whole (context.inLoop kind exit) fuel interpret before after) :
    Phrase whole (conditionLoop context kind test body further) fun before _ after =>
      Performs image whole context fuel
        (loop kind (LoopCondition.goesOn test) interpret (LoopCondition.goesOn further) fuel) before after := by
  refine phrase_weaken (phrase_seq phrase_new_label fun top => phrase_seq phrase_new_label fun exit =>
    phrase_seq (phrase_place top) fun _ =>
      phrase_seq (phrase_leave linked context test exit testScalar testAccepted) fun _ =>
        phrase_seq (bodies exit) fun _ =>
          phrase_seq (phrase_go_back linked context further top furtherScalar furtherAccepted) fun _ =>
            phrase_place exit) ?_
  rintro before _ after - ⟨top, first, isFirst, moreFirst, exit, second, isSecond, moreSecond, _, started,
    ⟨isTop, isStarted⟩, moreStarted, _, inner, tests, moreInner, _, outer, performs, -, _, ended, furthers, -,
    isExit, isEnded⟩
  intro environment made
  have start : before.code.size = second.code.size := by rw [isSecond.size, isFirst.size]
  have older : before.temporaries ≤ inner.temporaries := by omega
  have finish : after.code.size = ended.code.size := isEnded.size
  -- The loop adds no variables of its own; those of the body are newer than those before the loop.
  have stays (early late : Environment) (keeps : Environment.Keeps before.temporaries made early)
      (kept : Environment.Keeps inner.temporaries early late) : Environment.Keeps before.temporaries made late :=
    keeps.trans kept older
  rw [start, finish]
  exact performs_loop context isExit stays
    (fun environment made _ => isStarted.size ▸ tests fuel _ environment made isExit) performs
    (fun environment made _ => furthers fuel _ environment made isTop) environment made (.refl _ _)

def stepValue (context : EmitContext) (step : Option Expr) : Emit Unit :=
  match step with
  | some step => value context step
  | none => pushInteger 1

def stepSource (environment : Environment) : Option Expr → Except Fault (Value × Environment)
  | some step => step.evaluate environment
  | none => .ok (.integer 1, environment)

omit linked in
theorem kept_step (environment : Environment) (step : Option Expr) :
    (do
      let (value, changed) ← stepSource environment step
      return (← Ty.double.kept value, changed)) = Expr.evaluateStep environment step := by
  cases step with
  | none => rfl
  | some step => rfl

omit linked in
theorem kept_any (result : Except Fault (Value × Environment)) :
    (do
      let (value, changed) ← result
      return (← Ty.any.kept value, changed)) = result := by
  cases result <;> rfl

theorem phrase_step (step : Option Expr) (scalar : ∀ expr ∈ step, expr.isScalar = true)
    (accepted : ∀ expr ∈ step, expr.Accepted table registry) :
    Phrase whole (stepValue context step) fun before _ after => Pushes image (stepSource · step) before after := by
  cases step with
  | some step => exact phrase_value linked context step (scalar step rfl) (accepted step rfl)
  | none =>
    refine phrase_weaken (phrase_op linked _ rfl) fun before _ after _ said => ?_
    intro least stack environment made
    rw [said.2]
    exact Point.follows_move (.constant said.1 rfl) (Point.follows_unit rfl)

def countTest (counter lastName stepName : String) (exit : Nat) : Emit Unit := do
  op (.pushValue counter)
  op (.pushValue lastName)
  op (.pushValue stepName)
  op (.forLoop (.label exit))

def countFurther (counter stepName : String) (top : Nat) : Emit Unit := do
  op (.pushRef counter)
  op (.pushValue stepName)
  op .forStep
  jump top

def countLoop (context : EmitContext) (counter lastName stepName : String) (body : Block) : Emit Unit := do
  let top ← newLabel
  let exit ← newLabel
  place top
  countTest counter lastName stepName exit
  block (context.inLoop .forLoop exit) body
  countFurther counter stepName top
  place exit

omit linked in
theorem for_loop_code (locus : Locus) (counter : String) (first last : Expr) (step : Option Expr) (body : Block)
    (next : Option (String × Locus)) :
    stmt context locus (.forLoop counter first last step body next) = (do
      assignment context counter first
      let lastName ← temporary "FOREND"
      let stepName ← temporary "FORSTEP"
      assignNew lastName .double (value context last)
      assignNew stepName .double (stepValue context step)
      countLoop context counter lastName stepName body) := by
  cases step <;> simp only [stmt, assignment, countLoop, countTest, countFurther, stepValue, bind_assoc]

theorem phrase_count_test {counter stem other : String} (isSource : isMade counter = false)
    {number another : Nat} (exit : Nat) :
    Phrase whole (countTest counter (madeName stem number) (madeName other another) exit)
      fun before _ after => ∀ least place (environment made : Environment) last step,
        made.value? (madeName stem number) = some last → made.value? (madeName other another) = some step →
        whole.placeOf? exit = some place →
        Point.Follows image least ⟨before.code.size, [], environment.beside made⟩
          (.ofResult (environment.counts counter last step))
          fun (enters, changed) point =>
            point = ⟨if enters then after.code.size else place, [], changed.beside made⟩ := by
  refine phrase_weaken (phrase_seq (phrase_op linked _ rfl) fun _ => phrase_seq (phrase_op linked _ rfl) fun _ =>
    phrase_seq (phrase_op linked _ rfl) fun _ => phrase_jump linked .forLoop exit fun _ _ _ => rfl) ?_
  rintro before _ after - ⟨_, counted, ⟨counts, sizeCounted⟩, -, _, ended, ⟨ends, sizeEnded⟩, -, _, stepped,
    ⟨steps, sizeStepped⟩, -, ⟨target, placed, loops⟩, size⟩
  intro least place environment made last step isLast isStep isPlace
  rw [isPlace] at placed
  cases placed
  have count : Point.Moves image ⟨before.code.size, [], environment.beside made⟩ _ := .variable counts
  rw [Environment.find_source isSource, ← sizeCounted] at count
  have recallLast : Point.Moves image ⟨counted.code.size, [.value (environment.find counter).1],
      (environment.find counter).2.beside made⟩ _ := .variable ends
  rw [Environment.find_made (made_is_made _ _) isLast, ← sizeEnded] at recallLast
  have recallStep : Point.Moves image ⟨ended.code.size, [.value last, .value (environment.find counter).1],
      (environment.find counter).2.beside made⟩ _ := .variable steps
  rw [Environment.find_made (made_is_made _ _) isStep, ← sizeStepped] at recallStep
  refine Point.follows_move count (Point.follows_move recallLast (Point.follows_move recallStep ?_))
  have test : Point.Moves image ⟨stepped.code.size,
      [.value step, .value last, .value (environment.find counter).1],
      (environment.find counter).2.beside made⟩ _ := .forLoop loops
  rw [← size] at test
  unfold Environment.counts
  dsimp only
  generalize (environment.find counter).1 = held at test ⊢
  -- The machine takes the three numbers from the stack in this order, and the first that is none is the fault.
  cases stepNumber : step.number with
  | error fault =>
    rw [stepNumber] at test
    exact ⟨0, _, .refl _, test⟩
  | ok by_ =>
    cases lastNumber : last.number with
    | error fault =>
      rw [stepNumber, lastNumber] at test
      exact ⟨0, _, .refl _, test⟩
    | ok end_ =>
      cases number : held.number with
      | error fault =>
        rw [stepNumber, lastNumber, number] at test
        exact ⟨0, _, .refl _, test⟩
      | ok now =>
        rw [stepNumber, lastNumber, number] at test
        refine Point.follows_move test (Point.follows_unit ?_)
        by_cases past : if 0 ≤ by_ then end_ < now else now < end_ <;> simp [past]

theorem phrase_count_further {counter stem : String} (isSource : isMade counter = false) {number : Nat}
    (top : Nat) :
    Phrase whole (countFurther counter (madeName stem number) top)
      fun before _ after => ∀ least place (environment made : Environment) step,
        made.value? (madeName stem number) = some step → whole.placeOf? top = some place →
        Point.Follows image least ⟨before.code.size, [], environment.beside made⟩
          (.ofResult do return (true, ← environment.advance counter step))
          fun (again, changed) point => Point.Moves image point
            (.ok ⟨if again then place else after.code.size, [], changed.beside made⟩) := by
  refine phrase_weaken (phrase_seq (phrase_op linked _ rfl) fun _ => phrase_seq (phrase_op linked _ rfl) fun _ =>
    phrase_seq (phrase_op linked _ rfl) fun _ => phrase_jump linked .jump top fun _ _ _ => rfl) ?_
  rintro before _ after - ⟨_, located, ⟨locates, sizeLocated⟩, -, _, stepped, ⟨steps, sizeStepped⟩, -, _,
    advanced, ⟨advances, sizeAdvanced⟩, -, ⟨target, placed, jumps⟩, -⟩
  intro least place environment made step isStep isPlace
  rw [isPlace] at placed
  cases placed
  have locate : Point.Moves image ⟨before.code.size, [], environment.beside made⟩ _ := .storage locates
  rw [Environment.find_source isSource, ← sizeLocated] at locate
  have fetch : Point.Moves image ⟨located.code.size, [.storage counter],
      (environment.find counter).2.beside made⟩ _ := .variable steps
  rw [Environment.find_made (made_is_made _ _) isStep, ← sizeStepped] at fetch
  refine Point.follows_move locate (Point.follows_move fetch ?_)
  have advance : Point.Moves image ⟨stepped.code.size, [.value step, .storage counter],
      (environment.find counter).2.beside made⟩ _ := .forStep advances
  rw [Environment.advance_source isSource, Environment.advance_found, ← sizeAdvanced, bind_assoc] at advance
  simp only [pure_bind] at advance
  refine Point.follows_then (Point.follows_result advance) ?_
  rintro changed _ rfl
  exact Point.follows_unit (.jump jumps)

theorem phrase_count_loop {counter stem other : String} (isSource : isMade counter = false)
    (known : stem ∈ madeStems) (otherKnown : other ∈ madeStems) {number another : Nat} {body : Block}
    (bodies : ∀ exit, Phrase whole (block (context.inLoop .forLoop exit) body) fun before _ after =>
      Performs image whole (context.inLoop .forLoop exit) fuel interpret before after) :
    Phrase whole (countLoop context counter (madeName stem number) (madeName other another) body)
      fun before _ after => number ≤ before.temporaries → another ≤ before.temporaries →
        ∀ (environment made : Environment) last step, made.value? (madeName stem number) = some last →
          made.value? (madeName other another) = some step →
          Point.Follows image fuel ⟨before.code.size, [], environment.beside made⟩
            (loop .forLoop (Environment.counts counter last step) interpret
              (fun environment => do return (true, ← environment.advance counter step)) fuel environment)
            fun (exit, changed) point => ∃ next later, Environment.Keeps before.temporaries made later ∧
              Lands whole context after.code.size next exit ∧ point = ⟨next, [], changed.beside later⟩ := by
  refine phrase_weaken (phrase_seq phrase_new_label fun top => phrase_seq phrase_new_label fun exit =>
    phrase_seq (phrase_place top) fun _ => phrase_seq (phrase_count_test linked isSource exit) fun _ =>
      phrase_seq (bodies exit) fun _ => phrase_seq (phrase_count_further linked isSource top) fun _ =>
        phrase_place exit) ?_
  rintro before _ after - ⟨top, first, isFirst, moreFirst, exit, second, isSecond, moreSecond, _, started,
    ⟨isTop, isStarted⟩, moreStarted, _, inner, tests, moreInner, _, outer, performs, -, _, ended, furthers, -,
    isExit, isEnded⟩
  intro below otherBelow environment made last step isLast isStep
  have start : before.code.size = second.code.size := by rw [isSecond.size, isFirst.size]
  have older : before.temporaries ≤ inner.temporaries := by omega
  have finish : after.code.size = ended.code.size := isEnded.size
  -- The end and the step are older than every variable of the body, so that the body keeps them.
  let holds (later : Environment) : Prop := Environment.Keeps before.temporaries made later
  have lastHeld (later : Environment) (held : holds later) : later.value? (madeName stem number) = some last :=
    (held _ ⟨stem, known, number, below, rfl⟩).trans isLast
  have stepHeld (later : Environment) (held : holds later) :
      later.value? (madeName other another) = some step :=
    (held _ ⟨other, otherKnown, another, otherBelow, rfl⟩).trans isStep
  have stays (early late : Environment) (held : holds early)
      (kept : Environment.Keeps inner.temporaries early late) : holds late := held.trans kept older
  rw [start, finish]
  exact performs_loop context isExit stays
    (fun environment made held =>
      isStarted.size ▸ tests fuel _ environment made last step (lastHeld made held) (stepHeld made held) isExit)
    performs
    (fun environment made held => furthers fuel _ environment made step (stepHeld made held) isTop)
    environment made (.refl _ _)

omit linked in
theorem phrase_made {β : Type} {stem : String} {next : String → Emit β}
    {late : Nat → Assembly → β → Assembly → Prop}
    (phraseNext : ∀ number, Phrase whole (next (madeName stem number)) (late number)) :
    Phrase whole (temporary stem >>= next) fun before result after => ∃ between,
      between.temporaries = before.temporaries + 1 ∧ between.code.size = before.code.size ∧
        late between.temporaries between result after := by
  intro before result after ran grows
  obtain ⟨name, between, made, ranNext⟩ := run_seq ran
  cases made
  -- A new name is a number, and adds no code.
  obtain ⟨grown, more, said⟩ := phraseNext (before.temporaries + 1) _ _ _ ranNext grows
  exact ⟨{ grown with }, Nat.le_trans (Nat.le_succ _) more,
    { before with temporaries := before.temporaries + 1 }, rfl, rfl, said⟩

theorem phrase_for_loop {counter : String} (isSource : isMade counter = false) {first last : Expr}
    {step : Option Expr} {body : Block} (locus : Locus) (next : Option (String × Locus))
    (firstScalar : first.isScalar = true) (firstAccepted : first.Accepted table registry)
    (lastScalar : last.isScalar = true) (lastAccepted : last.Accepted table registry)
    (stepScalar : ∀ expr ∈ step, expr.isScalar = true)
    (stepAccepted : ∀ expr ∈ step, expr.Accepted table registry)
    (bodies : ∀ exit, Phrase whole (block (context.inLoop .forLoop exit) body) fun before _ after =>
      Performs image whole (context.inLoop .forLoop exit) fuel (body.interpret fuel) before after) :
    Phrase whole (stmt context locus (.forLoop counter first last step body next)) fun before _ after =>
      Performs image whole context fuel (Stmt.interpret fuel (.forLoop counter first last step body next))
        before after := by
  rw [for_loop_code]
  refine phrase_weaken (phrase_seq (phrase_assignment linked context isSource firstScalar firstAccepted) fun _ =>
    phrase_made fun number => phrase_made fun another =>
      phrase_seq (phrase_assign_new linked rfl (phrase_value linked context last lastScalar lastAccepted)) fun _ =>
        phrase_seq (phrase_assign_new linked rfl (phrase_step linked step stepScalar stepAccepted)) fun _ =>
          phrase_count_loop linked isSource (by decide) (by decide) bodies) ?_
  rintro before _ after - ⟨_, assigned, assigns, moreAssigned, lastMade, isLastMade, lastSize, stepMade, isStepMade,
    stepSize, _, ended, ends, moreEnded, _, stepped, steps, moreStepped, loops⟩
  intro environment made
  rw [Stmt.interpret]
  refine Point.follows_seq (assigns fuel environment made) ?_
  rintro environment _ rfl
  rw [← lastSize, ← stepSize]
  refine Point.follows_seq (ends fuel environment made) ?_
  rintro ⟨last, environment⟩ _ rfl
  have stepsKept := steps fuel environment (made.set (madeName "FOREND" lastMade.temporaries) last)
  rw [kept_step] at stepsKept
  refine Point.follows_seq stepsKept ?_
  rintro ⟨step, environment⟩ _ rfl
  -- The name of the step is newer than that of the end, so that keeping the step leaves the end alone.
  have lastStays : ((made.set (madeName "FOREND" lastMade.temporaries) last).set
      (madeName "FORSTEP" stepMade.temporaries) step).value? (madeName "FOREND" lastMade.temporaries) =
        some last := by
    have different : madeName "FOREND" lastMade.temporaries ≠ madeName "FORSTEP" stepMade.temporaries :=
      newer_name (by decide) (by omega : lastMade.temporaries < stepMade.temporaries)
        ⟨"FOREND", by decide, _, Nat.le_refl _, rfl⟩
    simp [Environment.set, different]
  refine Point.follows_weaken (loops (by omega) (by omega) environment _ last step lastStays
    Environment.find_set) ?_
  rintro ⟨exit, changed⟩ _ ⟨next, later, keeps, lands, rfl⟩
  refine ⟨next, later, ?_, lands, rfl⟩
  have lastNewer : before.temporaries < lastMade.temporaries := by omega
  have stepNewer : before.temporaries < stepMade.temporaries := by omega
  have isLastStem : "FOREND" ∈ madeStems := by decide
  have isStepStem : "FORSTEP" ∈ madeStems := by decide
  exact ((Environment.keeps_set isLastStem lastNewer last).trans
    (Environment.keeps_set isStepStem stepNewer step) (Nat.le_refl _)).trans keeps (by omega)

omit linked

mutual

theorem phrase_stmt (linked : whole.Linked image) (context : EmitContext) (checked : CheckContext) (locus : Locus)
    (stmt : Stmt) (structured : stmt.isStructured = true) (accepted : stmt.Accepted table checked) :
    Phrase whole (Emit.stmt context locus stmt) fun before _ after =>
      Performs image whole context fuel (stmt.interpret fuel) before after := by
  cases stmt with
  | assign target source =>
    cases target with
    | «variable» name info =>
      have both : (info.ty.getD .any).isArray = false ∧ source.isScalar = true := by
        simpa [Stmt.isStructured] using structured
      have written : Emit.stmt context locus (.assign (.variable name info) source) =
          assignment context name source := by
        rw [Emit.stmt, reference, Run.named_storage_plain both.1]
        rfl
      rw [written]
      exact phrase_weaken (phrase_assignment linked context accepted.1.1.1.not_made both.2 accepted.2)
        fun _ _ _ _ changes => changes.performs
    | _ => cases structured
  | cond branches =>
    refine phrase_weaken (phrase_seq phrase_new_label fun done =>
      phrase_seq (phrase_arms linked context checked done branches structured accepted) fun _ =>
        phrase_place done) ?_
    rintro before _ after - ⟨done, labelled, isLabelled, moreLabelled, _, between, performs, -, isDone, isAfter⟩
    exact (performs isDone).within isLabelled.size.symm moreLabelled isAfter.size
  | select test clauses =>
    have both : test.isScalar = true ∧ clauses.isStructured = true := by
      simpa [Stmt.isStructured] using structured
    refine phrase_weaken (phrase_made fun number =>
      phrase_seq (phrase_assign_new linked rfl (phrase_value linked context test both.1 accepted.1)) fun _ =>
        phrase_seq phrase_new_label fun done =>
          phrase_seq (phrase_cases linked context checked done clauses both.2 accepted.2) fun _ =>
            phrase_place done) ?_
    rintro before _ after - ⟨named, isNamed, namedSize, _, tested, tests, moreTested, done, labelled, isLabelled,
      moreLabelled, _, between, performs, -, isDone, isAfter⟩
    intro environment made
    rw [Stmt.interpret, ← namedSize, isAfter.size]
    have kept := tests fuel environment made
    rw [kept_any] at kept
    refine Point.follows_seq kept ?_
    rintro ⟨value, changed⟩ _ rfl
    rw [← isLabelled.size]
    refine Point.follows_weaken (performs isDone changed _ value Environment.find_set) ?_
    rintro ⟨exit, finally_⟩ _ ⟨next, later, keeps, lands, rfl⟩
    have isStem : "SEL" ∈ madeStems := by decide
    have newer : before.temporaries < named.temporaries := by omega
    exact ⟨next, later, (Environment.keeps_set isStem newer value).trans keeps (by omega), lands, rfl⟩
  | forLoop counter first last step body next =>
    have scalars : ((first.isScalar = true ∧ last.isScalar = true) ∧ step.all Expr.isScalar = true) ∧
        body.isStructured = true := by
      simpa [Stmt.isStructured] using structured
    obtain ⟨⟨⟨firstScalar, lastScalar⟩, stepScalar⟩, bodyStructured⟩ := scalars
    exact phrase_for_loop linked accepted.1.not_made locus next firstScalar accepted.2.1 lastScalar accepted.2.2.1
      (fun expr inside => by cases inside; exact stepScalar) accepted.2.2.2.1
      fun exit => phrase_block linked (context.inLoop .forLoop exit) (checked.inLoop .forLoop) body bodyStructured
        accepted.2.2.2.2
  | whileLoop condition body =>
    have both : condition.isScalar = true ∧ body.isStructured = true := by
      simpa [Stmt.isStructured] using structured
    rw [while_loop_code]
    exact phrase_condition_loop linked (fun _ inside => by cases inside; exact both.1)
      (fun _ inside => by cases inside; exact accepted.1) (fun _ inside => nomatch inside)
      (fun _ inside => nomatch inside)
      fun exit =>
        phrase_block linked (context.inLoop .whileLoop exit) (checked.inLoop .whileLoop) body both.2 accepted.2
  | doLoop test body further =>
    have parts : (test.all (·.condition.isScalar) = true ∧ body.isStructured = true) ∧
        further.all (·.condition.isScalar) = true := by
      simpa [Stmt.isStructured] using structured
    rw [do_loop_code]
    exact phrase_condition_loop linked (fun _ inside => by cases inside; exact parts.1.1) accepted.1
      (fun _ inside => by cases inside; exact parts.2) accepted.2.2
      fun exit =>
        phrase_block linked (context.inLoop .doLoop exit) (checked.inLoop .doLoop) body parts.1.2 accepted.2.1
  | exit target =>
    have found : context.exitLabel? target = context.loops.lookup target := by
      cases target <;> first | rfl | cases structured
    rw [Emit.stmt, found]
    cases inLoop : context.loops.lookup target with
    | none =>
      intro before _ after ran
      cases ran
    | some id =>
      refine phrase_weaken (phrase_jump linked .jump id fun _ _ _ => rfl) ?_
      rintro before _ after - ⟨⟨place, placed, jumps⟩, -⟩
      intro environment made
      exact Point.follows_move (.jump jumps)
        (Point.follows_unit ⟨place, made, .refl _ _, ⟨id, inLoop, placed⟩, rfl⟩)
  | comment text =>
    exact phrase_weaken (phrase_unit ()) fun _ _ _ _ said => performs_nothing (by rw [said.2])
  | _ => cases structured

theorem phrase_block (linked : whole.Linked image) (context : EmitContext) (checked : CheckContext) (block : Block)
    (structured : block.isStructured = true) (accepted : block.Accepted table checked) :
    Phrase whole (Emit.block context block) fun before _ after =>
      Performs image whole context fuel (block.interpret fuel) before after := by
  cases block with
  | nil => exact phrase_weaken (phrase_unit ()) fun _ _ _ _ said => performs_nothing (by rw [said.2])
  | cons locus head tail =>
    have both : head.isStructured = true ∧ tail.isStructured = true := by
      simpa [Block.isStructured] using structured
    refine phrase_weaken (phrase_seq (phrase_locus locus) fun _ =>
      phrase_seq (phrase_stmt linked context checked locus head both.1 accepted.1) fun _ =>
        phrase_block linked context checked tail both.2 accepted.2) ?_
    rintro before _ after - ⟨_, located, isLocated, -, _, between, performsHead, more, performsTail⟩
    have fewer := Nat.le_of_eq isLocated.temporaries.symm
    exact (performsHead.seq performsTail more).within isLocated.size.symm fewer rfl

theorem phrase_arms (linked : whole.Linked image) (context : EmitContext) (checked : CheckContext) (done : Nat)
    (branches : Arms) (structured : branches.isStructured = true) (accepted : branches.Accepted table checked) :
    Phrase whole (arms context done branches) fun before _ after =>
      whole.placeOf? done = some after.code.size →
        Performs image whole context fuel (branches.interpret fuel) before after := by
  cases branches with
  | none => exact phrase_weaken (phrase_unit ()) fun _ _ _ _ said _ => performs_nothing (by rw [said.2])
  | otherwise body =>
    exact phrase_weaken (phrase_block linked context checked.nested body structured accepted)
      fun _ _ _ _ performs _ => performs
  | arm condition body rest =>
    have parts : (condition.isScalar = true ∧ body.isStructured = true) ∧ rest.isStructured = true := by
      simpa [Arms.isStructured] using structured
    have written : arms context done (.arm condition body rest) = (do
        let next ← newLabel
        branch context condition false next
        block context body
        jump done
        place next
        arms context done rest) := by
      simp only [arms, branch, bind_assoc]
      rfl
    rw [written]
    refine phrase_weaken (phrase_seq phrase_new_label fun next =>
      phrase_seq (phrase_branch linked context false next parts.1.1 accepted.1) fun _ =>
        phrase_seq (phrase_block linked context checked.nested body parts.1.2 accepted.2.1) fun _ =>
          phrase_seq (phrase_jump linked .jump done fun _ _ _ => rfl) fun _ =>
            phrase_seq (phrase_place next) fun _ =>
              phrase_arms linked context checked done rest parts.2 accepted.2.2) ?_
    rintro before _ after - ⟨next, labelled, isLabelled, moreLabelled, _, tested, ⟨place, isNext, tests⟩, moreTested,
      _, performed, performs, morePerformed, _, jumped, ⟨⟨target, placed, jumps⟩, -⟩, moreJumped, _, reached,
      ⟨isPlace, isReached⟩, moreReached, others⟩
    intro isDone environment made
    rw [isDone] at placed
    cases placed
    rw [isNext] at isPlace
    cases isPlace
    -- The body of an arm jumps over the later arms to the end of the statement.
    have taken := performs.jump jumps (rfl : after.code.size = _)
    rw [Arms.interpret, ← isLabelled.size]
    refine Point.follows_seq (tests fuel environment made) ?_
    rintro ⟨value, changed⟩ point moves
    cases isTrue : value.isTrue with
    | true =>
      simp only [isTrue] at moves ⊢
      refine Point.follows_move moves (Point.follows_weaken (taken changed made) ?_)
      rintro ⟨exit, finally_⟩ _ ⟨next, later, keeps, lands, rfl⟩
      exact ⟨next, later, keeps.lower (by omega), lands, rfl⟩
    | false =>
      simp only [isTrue] at moves ⊢
      rw [← isReached.size] at moves
      refine Point.follows_move moves (Point.follows_weaken (others isDone changed made) ?_)
      rintro ⟨exit, finally_⟩ _ ⟨next, later, keeps, lands, rfl⟩
      exact ⟨next, later, keeps.lower (by omega), lands, rfl⟩

theorem phrase_cases (linked : whole.Linked image) (context : EmitContext) (checked : CheckContext) (done : Nat)
    (clauses : Cases) {number : Nat} (structured : clauses.isStructured = true)
    (accepted : clauses.Accepted table checked) :
    Phrase whole (cases context (madeName "SEL" number) done clauses) fun before _ after =>
      whole.placeOf? done = some after.code.size → ∀ environment made tested,
        made.value? (madeName "SEL" number) = some tested →
        Point.Follows image fuel ⟨before.code.size, [], environment.beside made⟩
          (clauses.interpret fuel tested environment) fun (exit, changed) point => ∃ next later,
            Environment.Keeps before.temporaries made later ∧ Lands whole context after.code.size next exit ∧
              point = ⟨next, [], changed.beside later⟩ := by
  cases clauses with
  | none =>
    refine phrase_weaken (phrase_unit ()) fun before _ after _ said => ?_
    intro _ environment made tested _
    rw [said.2]
    exact Point.follows_unit ⟨_, made, .refl _ _, rfl, rfl⟩
  | otherwise body =>
    exact phrase_weaken (phrase_block linked context checked.nested body structured accepted)
      fun _ _ _ _ performs _ environment made _ _ => performs environment made
  | clause locus patterns body rest =>
    have parts : ((∀ pattern ∈ patterns, pattern.isScalar = true) ∧ body.isStructured = true) ∧
        rest.isStructured = true := by
      simpa [Cases.isStructured] using structured
    refine phrase_weaken (phrase_seq (phrase_locus locus) fun _ => phrase_seq phrase_new_label fun start =>
      phrase_seq phrase_new_label fun next =>
        phrase_seq (phrase_case_patterns linked context start patterns parts.1.1 accepted.1) fun _ =>
          phrase_seq (phrase_jump linked .jump next fun _ _ _ => rfl) fun _ =>
            phrase_seq (phrase_place start) fun _ =>
              phrase_seq (phrase_block linked context checked.nested body parts.1.2 accepted.2.1) fun _ =>
                phrase_seq (phrase_jump linked .jump done fun _ _ _ => rfl) fun _ =>
                  phrase_seq (phrase_place next) fun _ =>
                    phrase_cases linked context checked done rest parts.2 accepted.2.2) ?_
    rintro before _ after - ⟨_, located, isLocated, -, start, first, isFirst, -, next, second, isSecond, moreSecond, _,
      tried, tries, moreTried, _, skipped, ⟨⟨place, isNext, skips⟩, -⟩, moreSkipped, _, begun, ⟨isStart, isBegun⟩,
      moreBegun, _, performed, performs, morePerformed, _, jumped, ⟨⟨target, placed, jumps⟩, -⟩, moreJumped, _,
      reached, ⟨isPlace, isReached⟩, moreReached, others⟩
    intro isDone environment made tested isTested
    rw [isDone] at placed
    cases placed
    rw [isNext] at isPlace
    cases isPlace
    have taken := performs.jump jumps (rfl : after.code.size = _)
    have size : before.code.size = second.code.size := by rw [isSecond.size, isFirst.size, isLocated.size]
    have fewer : before.temporaries = second.temporaries := by
      rw [isSecond.temporaries, isFirst.temporaries, isLocated.temporaries]
    rw [Cases.interpret, size]
    refine Point.follows_seq (tries fuel _ environment made tested isTested isStart) ?_
    rintro ⟨found, changed⟩ _ rfl
    cases found with
    | true =>
      dsimp only
      rw [if_pos rfl, if_pos rfl, ← isBegun.size]
      refine Point.follows_weaken (taken changed made) ?_
      rintro ⟨exit, finally_⟩ _ ⟨next, later, keeps, lands, rfl⟩
      exact ⟨next, later, keeps.lower (by omega), lands, rfl⟩
    | false =>
      -- No pattern matches, and the clauses behind this one are tried.
      dsimp only
      rw [if_neg Bool.false_ne_true, if_neg Bool.false_ne_true]
      have skip : Point.Moves image ⟨tried.code.size, [], changed.beside made⟩ _ := .jump skips
      rw [← isReached.size] at skip
      refine Point.follows_move skip (Point.follows_weaken (others isDone changed made tested isTested) ?_)
      rintro ⟨exit, finally_⟩ _ ⟨next, later, keeps, lands, rfl⟩
      exact ⟨next, later, keeps.lower (by omega), lands, rfl⟩

end

end Emit

end BasicLang
