import BasicLang.Proofs.Code.Generation

set_option autoImplicit false

namespace BasicLang

mutual

def Stmt.parts : Stmt → List Stmt
  | .cond arms => arms.statements
  | .select _ cases => cases.statements
  | .forLoop _ _ _ _ body _ => body.statements
  | .whileLoop _ body => body.statements
  | .doLoop _ body _ => body.statements
  | _ => []

def Block.statements : Block → List Stmt
  | .nil => []
  | .cons _ head tail => head :: (head.parts ++ tail.statements)

def Arms.statements : Arms → List Stmt
  | .none => []
  | .otherwise body => body.statements
  | .arm _ body rest => body.statements ++ rest.statements

def Cases.statements : Cases → List Stmt
  | .none => []
  | .otherwise body => body.statements
  | .clause _ _ body rest => body.statements ++ rest.statements

end

def Stmt.isCompound : Stmt → Bool
  | .cond _ | .select _ _ | .forLoop _ _ _ _ _ _ | .whileLoop _ _ | .doLoop _ _ _ => true
  | _ => false

section Accepting

variable {symbols : SymbolTable} {context : CheckContext}

def Stmt.AcceptedIn (symbols : SymbolTable) (registry : Registry) (stmt : Stmt) : Prop :=
  ∃ context : CheckContext, context.registry = registry ∧ stmt.Accepted symbols context

mutual

theorem Stmt.Accepted.parts (stmt : Stmt) (context : CheckContext) (accepted : stmt.Accepted symbols context) :
    ∀ inner ∈ stmt.parts, inner.AcceptedIn symbols context.registry := by
  cases stmt with
  | cond arms => exact Arms.Accepted.statements arms context accepted
  | select test cases => exact Cases.Accepted.statements cases context accepted.2
  | forLoop counter first last step body next =>
    exact Block.Accepted.statements body (context.inLoop .forLoop) accepted.2.2.2.2
  | whileLoop condition body => exact Block.Accepted.statements body (context.inLoop .whileLoop) accepted.2
  | doLoop before body after => exact Block.Accepted.statements body (context.inLoop .doLoop) accepted.2.1
  | _ => exact fun _ inside => absurd inside List.not_mem_nil

theorem Block.Accepted.statements (block : Block) (context : CheckContext) (accepted : block.Accepted symbols context) :
    ∀ stmt ∈ block.statements, stmt.AcceptedIn symbols context.registry := by
  cases block with
  | nil => exact fun _ inside => absurd inside List.not_mem_nil
  | cons locus head tail =>
    refine List.forall_mem_cons.mpr ⟨⟨context, rfl, accepted.1⟩, List.forall_mem_append.mpr ⟨?_, ?_⟩⟩
    · exact Stmt.Accepted.parts head context accepted.1
    · exact Block.Accepted.statements tail context accepted.2

theorem Arms.Accepted.statements (arms : Arms) (context : CheckContext) (accepted : arms.Accepted symbols context) :
    ∀ stmt ∈ arms.statements, stmt.AcceptedIn symbols context.registry := by
  cases arms with
  | none => exact fun _ inside => absurd inside List.not_mem_nil
  | otherwise body => exact Block.Accepted.statements body context.nested accepted
  | arm condition body rest =>
    exact List.forall_mem_append.mpr ⟨Block.Accepted.statements body context.nested accepted.2.1,
      Arms.Accepted.statements rest context accepted.2.2⟩

theorem Cases.Accepted.statements (cases : Cases) (context : CheckContext) (accepted : cases.Accepted symbols context) :
    ∀ stmt ∈ cases.statements, stmt.AcceptedIn symbols context.registry := by
  cases cases with
  | none => exact fun _ inside => absurd inside List.not_mem_nil
  | otherwise body => exact Block.Accepted.statements body context.nested accepted
  | clause locus patterns body rest =>
    exact List.forall_mem_append.mpr ⟨Block.Accepted.statements body context.nested accepted.2.1,
      Cases.Accepted.statements rest context accepted.2.2⟩

end

end Accepting

/-- The code of a routine, and the instructions that its statements start with. -/
structure Span where
  routine : Routine
  first : Nat
  -- The instruction behind its last one.
  stop : Nat
  places : List (Nat × Stmt)

namespace Emit

variable {α β : Type}

def size : Emit Nat := do return (← get).code.size

mutual

def stmtPlaces (context : EmitContext) (locus : Locus) : Stmt → Emit (List (Nat × Stmt))
  | .cond branches => do
    let done ← newLabel
    let places ← armsPlaces context done branches
    place done
    return places
  | .select test clauses => do
    let tested ← temporary "SEL"
    assignNew tested .any (value context test)
    let done ← newLabel
    let places ← casesPlaces context tested done clauses
    place done
    return places
  | .forLoop counter first last step body _ => do
    op (.pushRef counter)
    value context first
    op .assign
    let lastName ← temporary "FOREND"
    let stepName ← temporary "FORSTEP"
    assignNew lastName .double (value context last)
    assignNew stepName .double
      (match step with
        | some step => value context step
        | none => pushInteger 1)
    let top ← newLabel
    let exit ← newLabel
    place top
    op (.pushValue counter)
    op (.pushValue lastName)
    op (.pushValue stepName)
    op (.forLoop (.label exit))
    let places ← blockPlaces (context.inLoop .forLoop exit) body
    op (.pushRef counter)
    op (.pushValue stepName)
    op .forStep
    jump top
    place exit
    return places
  | .whileLoop condition body => do
    let top ← newLabel
    let exit ← newLabel
    place top
    value context condition
    op (.jumpIfZero (.label exit))
    let places ← blockPlaces (context.inLoop .whileLoop exit) body
    jump top
    place exit
    return places
  | .doLoop before body after => do
    let top ← newLabel
    let exit ← newLabel
    place top
    match before with
    | some condition => leaveUnless context condition exit
    | none => pure ()
    let places ← blockPlaces (context.inLoop .doLoop exit) body
    match after with
    | some condition => repeatIf context condition top
    | none => jump top
    place exit
    return places
  | other => do
    stmt context locus other
    return []

def blockPlaces (context : EmitContext) : Block → Emit (List (Nat × Stmt))
  | .nil => return []
  | .cons locus head tail => do
    setLocus locus
    let start ← size
    let inner ← stmtPlaces context locus head
    let rest ← blockPlaces context tail
    return (start, head) :: (inner ++ rest)

def armsPlaces (context : EmitContext) (done : Nat) : Arms → Emit (List (Nat × Stmt))
  | .none => return []
  | .otherwise body => blockPlaces context body
  | .arm condition body rest => do
    let next ← newLabel
    value context condition
    op (.jumpIfZero (.label next))
    let places ← blockPlaces context body
    jump done
    place next
    let others ← armsPlaces context done rest
    return places ++ others

def casesPlaces (context : EmitContext) (tested : String) (done : Nat) : Cases → Emit (List (Nat × Stmt))
  | .none => return []
  | .otherwise body => blockPlaces context body
  | .clause locus patterns body rest => do
    setLocus locus
    let start ← newLabel
    let next ← newLabel
    casePatterns context tested start patterns
    jump next
    place start
    let places ← blockPlaces context body
    jump done
    place next
    let others ← casesPlaces context tested done rest
    return places ++ others

end

/-- Behind a jump over the procedure, its entry. The jump goes to the label that is given back. -/
def procedureHead (routine : Routine) : Emit Nat := do
  setLocus routine.locus
  let skip ← newLabel
  jump skip
  place (← entryLabel routine.name)
  return skip

def procedureBody (context : EmitContext) (entry : ProcedureEntry) (routine : Routine) : Emit (List (Nat × Stmt)) := do
  entry.params.reverse.forM fun (name, ty) => op (.popParam name ty)
  if routine.kind = .function then op (.dim routine.name (entry.returns.getD .any))
  let exit ← newLabel
  let places ← blockPlaces { context with exit := some exit } routine.body
  place exit
  return places

def procedureTail (routine : Routine) : Emit Unit := do
  if routine.kind = .function then op (.pushValue routine.name)
  op .ret

def procedureSpan (context : EmitContext) (routine : Routine) : Emit Span := do
  match context.symbols.procedure? routine.name with
  | none => throw (.located (.unresolved routine.name) routine.locus)
  | some entry =>
    let skip ← procedureHead routine
    let first ← size
    let places ← procedureBody context entry routine
    procedureTail routine
    let stop ← size
    place skip
    return { routine, first, stop, places }

def mainLetters (context : EmitContext) (main : Block) : Emit Unit :=
  main.toList.forM fun (locus, stmt) => letterTypes context locus stmt

def mainSpan (context : EmitContext) (main : Block) : Emit Span := do
  mainLetters context main
  let places ← blockPlaces context main
  op .stop
  let stop ← size
  return { routine := .main main, first := 0, stop, places }

def layout (context : EmitContext) (program : Program) : Emit (List Span) := do
  let main ← mainSpan context program.main
  let others ← program.procedures.mapM (procedureSpan context)
  if !program.procedures.isEmpty then op .stop
  return main :: others

def forget (emit : Emit α) : Emit Unit := do let _ ← emit

theorem forget_bind (emit : Emit α) (next : α → Emit β) :
    forget (emit >>= next) = emit >>= fun value => forget (next value) := by
  simp [forget]

theorem forget_pure (value : α) : forget (pure value : Emit α) = pure () := by simp [forget]

theorem seq_forget {emit : Emit α} {plain : Emit Unit} (same : forget emit = plain) (next : Emit β) :
    (emit >>= fun _ => next) = (plain >>= fun _ => next) := by
  rw [← same]
  simp [forget]

theorem seq_size (next : Emit β) : (size >>= fun _ => next) = next := rfl

theorem seq_nothing (emit : Emit Unit) : (emit >>= fun _ => pure ()) = emit := by simp

mutual

theorem forget_stmt (context : EmitContext) (locus : Locus) (stmt : Stmt) :
    forget (stmtPlaces context locus stmt) = Emit.stmt context locus stmt := by
  cases stmt with
  | cond branches =>
    simp only [stmtPlaces, Emit.stmt, forget_bind, forget_pure, seq_nothing]
    simp only [seq_forget (forget_arms context _ branches)]
  | select test clauses =>
    simp only [stmtPlaces, Emit.stmt, forget_bind, forget_pure, seq_nothing]
    simp only [seq_forget (forget_cases context _ _ clauses)]
  | forLoop counter first last step body next =>
    cases step <;>
      simp only [stmtPlaces, Emit.stmt, forget_bind, forget_pure, seq_nothing, seq_forget (forget_block _ body)]
  | whileLoop condition body =>
    simp only [stmtPlaces, Emit.stmt, forget_bind, forget_pure, seq_nothing]
    simp only [seq_forget (forget_block _ body)]
  | doLoop before body after =>
    cases before <;> cases after <;>
      (simp only [stmtPlaces, Emit.stmt, forget_bind, forget_pure, seq_nothing]
       simp only [seq_forget (forget_block _ body)])
  | _ =>
    simp only [stmtPlaces, forget_bind, forget_pure, seq_nothing]

theorem forget_block (context : EmitContext) (block : Block) :
    forget (blockPlaces context block) = Emit.block context block := by
  cases block with
  | nil => simp only [blockPlaces, Emit.block, forget_pure]
  | cons locus head tail =>
    simp only [blockPlaces, Emit.block, forget_bind, forget_pure, seq_size]
    simp only [seq_forget (forget_stmt context locus head), seq_forget (forget_block context tail), seq_nothing]

theorem forget_arms (context : EmitContext) (done : Nat) (branches : Arms) :
    forget (armsPlaces context done branches) = Emit.arms context done branches := by
  cases branches with
  | none => simp only [armsPlaces, Emit.arms, forget_pure]
  | otherwise body => simpa only [armsPlaces, Emit.arms] using forget_block context body
  | arm condition body rest =>
    simp only [armsPlaces, Emit.arms, forget_bind, forget_pure]
    simp only [seq_forget (forget_block context body), seq_forget (forget_arms context done rest), seq_nothing]

theorem forget_cases (context : EmitContext) (tested : String) (done : Nat) (clauses : Cases) :
    forget (casesPlaces context tested done clauses) = Emit.cases context tested done clauses := by
  cases clauses with
  | none => simp only [casesPlaces, Emit.cases, forget_pure]
  | otherwise body => simpa only [casesPlaces, Emit.cases] using forget_block context body
  | clause locus patterns body rest =>
    simp only [casesPlaces, Emit.cases, forget_bind, forget_pure]
    simp only [seq_forget (forget_block context body), seq_forget (forget_cases context tested done rest), seq_nothing]

end

theorem forget_procedure (context : EmitContext) (routine : Routine) :
    forget (procedureSpan context routine) = procedure context routine := by
  unfold procedureSpan procedure
  cases context.symbols.procedure? routine.name with
  | none => rfl
  | some entry =>
    by_cases isFunction : routine.kind = .function
    all_goals
      simp only [procedureHead, procedureBody, procedureTail, isFunction, if_true, if_false, bind_assoc, pure_bind,
        forget_bind, forget_pure, seq_size, seq_nothing]
      simp only [seq_forget (forget_block _ routine.body)]

theorem forget_map {items : List α} {emit : α → Emit β} {plain : α → Emit Unit}
    (same : ∀ item, forget (emit item) = plain item) : forget (items.mapM emit) = items.forM plain := by
  induction items with
  | nil => simp [forget]
  | cons head tail ih =>
    show forget _ = (plain head >>= fun _ => tail.forM plain)
    rw [List.mapM_cons]
    simp only [forget_bind, forget_pure, seq_forget ih, seq_forget (same head), seq_nothing]

theorem forget_layout (context : EmitContext) (program : Program) :
    forget (layout context program) = Emit.program context program := by
  unfold layout mainSpan mainLetters Emit.program
  cases empty : program.procedures.isEmpty
  all_goals
    simp only [bind_assoc, pure_bind, forget_bind, forget_pure, seq_size, Bool.not_true, Bool.not_false, if_true,
      Bool.false_eq_true, if_false]
    simp only [seq_forget (forget_map (forget_procedure context)), seq_forget (forget_block context program.main),
      seq_nothing]

theorem run_forget {emit : Emit α} {plain : Emit Unit} (same : forget emit = plain) {before after : Assembly}
    {result : α} (ran : emit.run before = .ok (result, after)) : plain.run before = .ok ((), after) := by
  rw [← same, forget, run_ok ran]
  rfl

theorem run_remember {emit : Emit α} {plain : Emit Unit} (same : forget emit = plain) {before after : Assembly}
    (ran : plain.run before = .ok ((), after)) : ∃ result, emit.run before = .ok (result, after) := by
  rw [← same, forget] at ran
  obtain ⟨result, between, emitted, rest⟩ := run_seq ran
  cases rest
  exact ⟨result, emitted⟩

theorem run_size {next : Nat → Emit β} {before after : Assembly} {result : β}
    (ran : (size >>= next).run before = .ok (result, after)) : (next before.code.size).run before = .ok (result, after) :=
  ran

section Walks

/-- The places that are noted in the end are those of some statements, and those that emission adds to them are
related to the code before and after it. -/
def Gathers (relation : List (Nat × Stmt) → Assembly → Assembly → Prop) (noted : List (Nat × Stmt)) (listed : List Stmt)
    (emit : Emit (List (Nat × Stmt))) : Prop :=
  ∀ before result after, emit.run before = .ok (result, after) → result.map Prod.snd = listed ∧
    ∃ places, result = noted ++ places ∧ relation places before after

/-- What holds of the code of statements and of their places, if it holds of what each statement adds around those inside
it. What `steps` relates notes no place. -/
structure Walk (context : EmitContext) (allows : String → Bool) (accepts : Stmt → Prop)
    (steps : Assembly → Assembly → Prop) (relation : List (Nat × Stmt) → Assembly → Assembly → Prop) : Prop
    extends Straight (Op.heeds Op.isPlain allows) (Keeps steps) where
  place : ∀ id, Keeps steps Unit (Emit.place id)
  still : ∀ {before after}, steps before after → relation [] before after
  join : ∀ {first second before between after}, relation first before between → relation second between after →
    relation (first ++ second) before after
  select : ∀ {push : Emit Unit} {listed : List Stmt} {next : String → Emit (List (Nat × Stmt))},
    Keeps steps Unit push → (∀ tested, Gathers relation [] listed (next tested)) → Gathers relation [] listed (do
      let tested ← Emit.temporary "SEL"
      assignNew tested .any push
      next tested)
  loop : ∀ {limit step : Emit Unit} {listed : List Stmt} {next : String → String → Emit (List (Nat × Stmt))},
    Keeps steps Unit limit → Keeps steps Unit step →
    (∀ lastName stepName, Gathers relation [] listed (next lastName stepName)) → Gathers relation [] listed (do
      let lastName ← Emit.temporary "FOREND"
      let stepName ← Emit.temporary "FORSTEP"
      assignNew lastName .double limit
      assignNew stepName .double step
      next lastName stepName)
  head : ∀ {loops locus stmt places before after}, accepts stmt → stmt.Heeds context.symbols context.registry allows →
    (stmtPlaces { context with loops } locus stmt).run before = .ok (places, after) →
    (stmt.isCompound = true → relation places before after) → relation ((before.code.size, stmt) :: places) before after

section Steps

variable {steps : Assembly → Assembly → Prop} {relation : List (Nat × Stmt) → Assembly → Assembly → Prop}
  {noted : List (Nat × Stmt)} {listed : List Stmt}

theorem gathers_after (still : ∀ {before after}, steps before after → relation [] before after)
    (join : ∀ {first second before between after}, relation first before between → relation second between after →
      relation (first ++ second) before after) {first : Emit α} {next : α → Emit (List (Nat × Stmt))}
    (keeps : Keeps steps α first) (rest : ∀ value, Gathers relation noted listed (next value)) :
    Gathers relation noted listed (first >>= next) := by
  intro before result after ran
  obtain ⟨value, between, ranFirst, ranNext⟩ := run_seq ran
  obtain ⟨isListed, places, same, late⟩ := rest value between result after ranNext
  exact ⟨isListed, places, same, join (still (keeps before value between ranFirst)) late⟩

theorem Straight.gathers {context : EmitContext} {accepts : Stmt → Prop} (straight : Straight Op.isPlain (Keeps steps))
    (place : ∀ id, Keeps steps Unit (Emit.place id))
    (still : ∀ {before after}, steps before after → relation [] before after)
    (join : ∀ {first second before between after}, relation first before between → relation second between after →
      relation (first ++ second) before after)
    (head : ∀ {loops locus stmt places before after}, accepts stmt →
      (stmtPlaces { context with loops } locus stmt).run before = .ok (places, after) →
      (stmt.isCompound = true → relation places before after) → relation ((before.code.size, stmt) :: places) before after) :
    Walk context (fun _ => true) accepts steps relation where
  toStraight := straight.any
  place := place
  still := still
  join := join
  select pushes rest :=
    gathers_after still join (straight.temporary _) fun _ =>
      gathers_after still join (closed_assign_new straight.any rfl pushes) fun _ => rest _
  loop limits steps rest :=
    gathers_after still join (straight.temporary _) fun _ => gathers_after still join (straight.temporary _) fun _ =>
      gathers_after still join (closed_assign_new straight.any rfl limits) fun _ =>
      gathers_after still join (closed_assign_new straight.any rfl steps) fun _ => rest _ _
  head accepted _ := head accepted

end Steps

theorem leaf_places {context : EmitContext} {locus : Locus} {stmt : Stmt} {before after : Assembly}
    {places : List (Nat × Stmt)} (leaf : stmt.isCompound = false)
    (ran : (stmtPlaces context locus stmt).run before = .ok (places, after)) :
    places = [] ∧ places.map Prod.snd = stmt.parts := by
  cases stmt with
  | cond _ | select _ _ | forLoop _ _ _ _ _ _ | whileLoop _ _ | doLoop _ _ _ => cases leaf
  | _ =>
    obtain ⟨⟨⟩, between, -, ran⟩ := run_seq ran
    cases ran
    exact ⟨rfl, rfl⟩

namespace Walk

variable {context : EmitContext} {allows : String → Bool} {accepts : Stmt → Prop}
  {steps : Assembly → Assembly → Prop} {relation : List (Nat × Stmt) → Assembly → Assembly → Prop}
  {noted : List (Nat × Stmt)} {listed : List Stmt} (walk : Walk context allows accepts steps relation)

include walk

theorem done (same : noted.map Prod.snd = listed) : Gathers relation noted listed (pure noted) := by
  intro before result after ran
  cases ran
  exact ⟨same, [], (List.append_nil _).symm, walk.still (walk.unit () before () before rfl)⟩

theorem after {first : Emit α} {next : α → Emit (List (Nat × Stmt))} (keeps : Keeps steps α first)
    (rest : ∀ value, Gathers relation noted listed (next value)) : Gathers relation noted listed (first >>= next) :=
  gathers_after walk.still walk.join keeps rest

theorem inside {inner : Emit (List (Nat × Stmt))} {next : List (Nat × Stmt) → Emit (List (Nat × Stmt))}
    {part : List Stmt}
    (gathers : Gathers relation [] part inner)
    (rest : ∀ places, places.map Prod.snd = part → Gathers relation (noted ++ places) listed (next places)) :
    Gathers relation noted listed (inner >>= next) := by
  intro before result after ran
  obtain ⟨found, between, ranInner, ranNext⟩ := run_seq ran
  obtain ⟨isPart, places, rfl, early⟩ := gathers before found between ranInner
  obtain ⟨isListed, others, same, late⟩ := rest _ isPart between result after ranNext
  exact ⟨isListed, found ++ others, by rw [same, List.append_assoc], walk.join early late⟩

theorem value {expr : Expr} {loops : List (ExitTarget × Nat)}
    (heeds : expr.Heeds context.symbols context.registry allows) :
    Keeps steps Unit (Emit.value { context with loops } expr) := closed_value walk.quiet expr heeds

theorem around {inner : Emit (List (Nat × Stmt))} {last : Emit Unit} (gathers : Gathers relation [] listed inner)
    (keeps : Keeps steps Unit last) : Gathers relation [] listed (do let places ← inner; last; return places) :=
  walk.inside gathers fun _ same => walk.after keeps fun _ => walk.done same

mutual

theorem stmt (loops : List (ExitTarget × Nat)) (locus : Locus) (stmt : Stmt) (compound : stmt.isCompound = true)
    (heeds : stmt.Heeds context.symbols context.registry allows) (accepted : ∀ part ∈ stmt.parts, accepts part) :
    Gathers relation [] stmt.parts (stmtPlaces { context with loops } locus stmt) := by
  cases stmt with
  | cond branches =>
    exact walk.after walk.newLabel fun done =>
      walk.around (arms loops done branches heeds accepted) (walk.place _)
  | select test clauses =>
    obtain ⟨testHeeds, heeds⟩ := heeds_expr.mp heeds
    exact walk.select (walk.value testHeeds) fun tested => walk.after walk.newLabel fun done =>
      walk.around (cases loops tested done clauses heeds accepted) (walk.place _)
  | forLoop counter first last step body next =>
    obtain ⟨firstHeeds, heeds⟩ := heeds_expr.mp heeds
    obtain ⟨lastHeeds, heeds⟩ := heeds_expr.mp heeds
    obtain ⟨stepHeeds, targets, exprs, names⟩ := heeds_exprs.mp heeds
    obtain ⟨counterAllowed, names⟩ := List.forall_mem_cons.mp names
    have counted : Op.heeds Op.isPlain allows (.pushRef counter) = true := Op.heeds_named rfl rfl counterAllowed
    refine walk.after (walk.op _ counted) fun _ => walk.after (walk.value firstHeeds) fun _ =>
      walk.after (walk.op _ rfl) fun _ => walk.loop (walk.value lastHeeds) ?_ fun lastName stepName => ?_
    · cases step with
      | none => exact walk.op _ rfl
      | some step => exact walk.value (stepHeeds step List.mem_cons_self)
    · refine walk.after walk.newLabel fun top => walk.after walk.newLabel fun exit => walk.after (walk.place _) fun _ =>
        walk.after (walk.op _ rfl) fun _ => walk.after (walk.op _ rfl) fun _ => walk.after (walk.op _ rfl) fun _ =>
        walk.after (walk.op _ rfl) fun _ =>
        walk.inside (block ((.forLoop, exit) :: loops) body ⟨targets, exprs, names⟩ accepted) fun places same => ?_
      exact walk.after (walk.op _ counted) fun _ => walk.after (walk.op _ rfl) fun _ => walk.after (walk.op _ rfl) fun _ =>
        walk.after (walk.op _ rfl) fun _ => walk.after (walk.place _) fun _ => walk.done same
  | whileLoop condition body =>
    obtain ⟨conditionHeeds, heeds⟩ := heeds_expr.mp heeds
    refine walk.after walk.newLabel fun top => walk.after walk.newLabel fun exit => walk.after (walk.place _) fun _ =>
      walk.after (walk.value conditionHeeds) fun _ => walk.after (walk.op _ rfl) fun _ =>
      walk.inside (block ((.whileLoop, exit) :: loops) body heeds accepted) fun places same => ?_
    exact walk.after (walk.op _ rfl) fun _ => walk.after (walk.place _) fun _ => walk.done same
  | doLoop before body after =>
    obtain ⟨targets, exprs, names⟩ := heeds
    obtain ⟨early, afterHeed⟩ := List.forall_mem_append.mp exprs
    obtain ⟨beforeHeed, exprs⟩ := List.forall_mem_append.mp early
    refine walk.after walk.newLabel fun top => walk.after walk.newLabel fun exit => walk.after (walk.place _) fun _ => ?_
    have inner := block ((.doLoop, exit) :: loops) body ⟨targets, exprs, names⟩ accepted
    have body (places : List (Nat × Stmt)) (same : places.map Prod.snd = body.statements) :
        Gathers relation places body.statements (do
        match after with
        | some condition => repeatIf { context with loops } condition top
        | none => jump top
        Emit.place exit
        return places) := by
      cases after with
      | none => exact walk.after (walk.op _ rfl) fun _ => walk.after (walk.place _) fun _ => walk.done same
      | some condition =>
        exact walk.after (closed_repeat_if walk.toStraight top (afterHeed _ List.mem_cons_self)) fun _ =>
          walk.after (walk.place _) fun _ => walk.done same
    cases before with
    | none => exact walk.inside inner body
    | some condition =>
      exact walk.after (closed_leave_unless walk.toStraight exit (beforeHeed _ List.mem_cons_self)) fun _ =>
        walk.inside inner body
  | _ => cases compound

theorem block (loops : List (ExitTarget × Nat)) (block : Block)
    (heeds : block.Heeds context.symbols context.registry allows)
    (accepted : ∀ part ∈ block.statements, accepts part) :
    Gathers relation [] block.statements (blockPlaces { context with loops } block) := by
  cases block with
  | nil => exact walk.done rfl
  | cons locus head tail =>
    obtain ⟨headHeeds, tailHeeds⟩ := heeds_append.mp heeds
    obtain ⟨headAccepted, rest⟩ := List.forall_mem_cons.mp accepted
    obtain ⟨partsAccepted, tailAccepted⟩ := List.forall_mem_append.mp rest
    refine walk.after (walk.setLocus _) fun _ => ?_
    intro before result after ran
    obtain ⟨inner, between, ranHead, ran⟩ := run_seq (run_size ran)
    obtain ⟨others, last, ranTail, ran⟩ := run_seq ran
    cases ran
    obtain ⟨isInner, first⟩ :
        inner.map Prod.snd = head.parts ∧ relation ((before.code.size, head) :: inner) before between := by
      cases compound : head.isCompound with
      | true =>
        obtain ⟨isInner, places, rfl, holds⟩ :=
          stmt loops locus head compound headHeeds partsAccepted before inner between ranHead
        exact ⟨isInner, walk.head headAccepted headHeeds ranHead fun _ => holds⟩
      | false =>
        obtain ⟨rfl, isLeaf⟩ := leaf_places compound ranHead
        exact ⟨isLeaf, walk.head headAccepted headHeeds ranHead fun isCompound => nomatch compound.symm.trans isCompound⟩
    obtain ⟨isTail, places, rfl, late⟩ :=
      Walk.block loops tail tailHeeds tailAccepted between others after ranTail
    exact ⟨by rw [List.map_cons, List.map_append, isInner, isTail]; rfl, _, List.nil_append _, walk.join first late⟩

theorem arms (loops : List (ExitTarget × Nat)) (done : Nat) (branches : Arms)
    (heeds : branches.Heeds context.symbols context.registry allows)
    (accepted : ∀ part ∈ branches.statements, accepts part) :
    Gathers relation [] branches.statements (armsPlaces { context with loops } done branches) := by
  cases branches with
  | none => exact walk.done rfl
  | otherwise body => exact block loops body heeds accepted
  | arm condition body rest =>
    obtain ⟨conditionHeeds, heeds⟩ := heeds_expr.mp heeds
    obtain ⟨bodyHeeds, restHeeds⟩ := heeds_append.mp heeds
    obtain ⟨bodyAccepted, restAccepted⟩ := List.forall_mem_append.mp accepted
    refine walk.after walk.newLabel fun next => walk.after (walk.value conditionHeeds) fun _ =>
      walk.after (walk.op _ rfl) fun _ =>
      walk.inside (block loops body bodyHeeds bodyAccepted) fun places isBody => ?_
    exact walk.after (walk.op _ rfl) fun _ => walk.after (walk.place _) fun _ =>
      walk.inside (arms loops done rest restHeeds restAccepted) fun _ isRest =>
        walk.done (by rw [List.nil_append, List.map_append, isBody, isRest]; rfl)

theorem cases (loops : List (ExitTarget × Nat)) (tested : String) (done : Nat) (clauses : Cases)
    (heeds : clauses.Heeds context.symbols context.registry allows) (accepted : ∀ part ∈ clauses.statements, accepts part) :
    Gathers relation [] clauses.statements (casesPlaces { context with loops } tested done clauses) := by
  cases clauses with
  | none => exact walk.done rfl
  | otherwise body => exact block loops body heeds accepted
  | clause locus patterns body rest =>
    obtain ⟨early, restHeeds⟩ := heeds_append.mp heeds
    obtain ⟨patternExprs, bodyHeeds⟩ := heeds_exprs.mp early
    obtain ⟨bodyAccepted, restAccepted⟩ := List.forall_mem_append.mp accepted
    refine walk.after (walk.setLocus _) fun _ => walk.after walk.newLabel fun start => walk.after walk.newLabel fun next =>
      walk.after (closed_case_patterns walk.toStraight tested start patternExprs) fun _ =>
      walk.after (walk.op _ rfl) fun _ => walk.after (walk.place _) fun _ =>
      walk.inside (block loops body bodyHeeds bodyAccepted) fun places isBody => ?_
    exact walk.after (walk.op _ rfl) fun _ => walk.after (walk.place _) fun _ =>
      walk.inside (cases loops tested done rest restHeeds restAccepted) fun _ isRest =>
        walk.done (by rw [List.nil_append, List.map_append, isBody, isRest]; rfl)

end

end Walk

end Walks

def Reaches (before : Assembly → Prop) (emit : Emit α) (after : α → Assembly → Prop) : Prop :=
  ∀ assembly result later, before assembly → emit.run assembly = .ok (result, later) → after result later

theorem reaches_seq {before : Assembly → Prop} {between : α → Assembly → Prop} {after : β → Assembly → Prop}
    {first : Emit α} {next : α → Emit β} (reaches : Reaches before first between)
    (rest : ∀ value, Reaches (between value) (next value) after) : Reaches before (first >>= next) after := by
  intro assembly result later held ran
  obtain ⟨value, middle, ranFirst, ranNext⟩ := run_seq ran
  exact rest value middle result later (reaches assembly value middle held ranFirst) ranNext

theorem reaches_weaken {before stronger : Assembly → Prop} {after weaker : α → Assembly → Prop} {emit : Emit α}
    (reaches : Reaches before emit after) (view : ∀ assembly, stronger assembly → before assembly)
    (last : ∀ value assembly, after value assembly → weaker value assembly) : Reaches stronger emit weaker :=
  fun assembly result later held ran => last result later (reaches assembly result later (view assembly held) ran)

theorem reaches_unit {before : Assembly → Prop} (value : α) :
    Reaches before (pure value : Emit α) fun _ => before := by
  intro assembly result later held ran
  cases ran
  exact held

theorem reaches_error {before : Assembly → Prop} {after : α → Assembly → Prop} (error : CodeError) :
    Reaches before (throw error : Emit α) after := by
  intro assembly result later held ran
  cases ran

theorem reaches_map {items : List α} {emit : α → Emit β} {holds : List β → Assembly → Prop}
    (each : ∀ item ∈ items, ∀ done, Reaches (holds done) (emit item) fun result => holds (done ++ [result]))
    (done : List β) : Reaches (holds done) (items.mapM emit) fun results => holds (done ++ results) := by
  induction items generalizing done with
  | nil =>
    rw [List.mapM_nil]
    intro assembly result later held ran
    cases ran
    rw [List.append_nil]
    exact held
  | cons head tail ih =>
    rw [List.mapM_cons]
    refine reaches_seq (each head List.mem_cons_self done) fun first => ?_
    refine reaches_seq (ih (fun item inside => each item (List.mem_cons_of_mem _ inside)) (done ++ [first])) fun rest => ?_
    intro assembly result later held ran
    cases ran
    rw [List.append_assoc] at held
    exact held

section Cases

def skipping (routine : Routine) (before : Assembly) : Nat × Assembly :=
  let (skip, labelled) := ({ before with locus := routine.locus } : Assembly).newLabel none
  (labelled.emit (.jump (.label skip))).entryLabel routine.name

theorem procedure_head_cases {routine : Routine} {before start : Assembly} {skip : Nat}
    (ran : (procedureHead routine).run before = .ok (skip, start)) :
    skip = before.labels.size ∧ (skipping routine before).2.place (skipping routine before).1 = .ok start := by
  obtain ⟨⟨⟩, located, ranLocus, ran⟩ := run_seq ran
  cases ranLocus
  obtain ⟨id, labelled, ranLabel, ran⟩ := run_seq ran
  cases ranLabel
  obtain ⟨⟨⟩, jumped, ranJump, ran⟩ := run_seq ran
  cases ranJump
  obtain ⟨entry, entered, ranEntry, ran⟩ := run_seq ran
  obtain ⟨⟨⟩, placed, ranPlace, ran⟩ := run_seq ran
  cases ran
  have isEntered : skipping routine before = (entry, entered) := Except.ok.inj ranEntry
  rw [isEntered]
  exact ⟨rfl, run_place ranPlace⟩

theorem procedure_span_cases {context : EmitContext} {routine : Routine} {before after : Assembly} {span : Span}
    (ran : (procedureSpan context routine).run before = .ok (span, after)) :
    ∃ entry skip start places last closed, context.symbols.procedure? routine.name = some entry ∧
      (procedureHead routine).run before = .ok (skip, start) ∧
      (procedureBody context entry routine).run start = .ok (places, last) ∧
      (procedureTail routine).run last = .ok ((), closed) ∧ closed.place skip = .ok after ∧
      span = { routine, first := start.code.size, stop := closed.code.size, places } := by
  unfold procedureSpan at ran
  cases found : context.symbols.procedure? routine.name with
  | none =>
    rw [found] at ran
    cases ran
  | some entry =>
    rw [found] at ran
    obtain ⟨skip, start, head, ran⟩ := run_seq ran
    obtain ⟨places, last, body, ran⟩ := run_seq (run_size ran)
    obtain ⟨⟨⟩, closed, tail, ran⟩ := run_seq ran
    obtain ⟨⟨⟩, placed, skipped, ran⟩ := run_seq (run_size ran)
    cases ran
    exact ⟨entry, skip, start, places, last, closed, rfl, head, body, tail, run_place skipped, rfl⟩

def procedureInner (context : EmitContext) (entry : ProcedureEntry) (routine : Routine) : Emit (List (Nat × Stmt)) := do
  if routine.kind = .function then op (.dim routine.name (entry.returns.getD .any))
  let exit ← newLabel
  let places ← blockPlaces { context with exit := some exit } routine.body
  place exit
  return places

theorem procedure_body_cases {context : EmitContext} {entry : ProcedureEntry} {routine : Routine}
    {start last : Assembly}
    {places : List (Nat × Stmt)} (ran : (procedureBody context entry routine).run start = .ok (places, last)) :
    ∃ bound, (entry.params.reverse.forM fun (name, ty) => op (.popParam name ty)).run start = .ok ((), bound) ∧
      (procedureInner context entry routine).run bound = .ok (places, last) := by
  obtain ⟨⟨⟩, bound, params, inner⟩ := run_seq ran
  exact ⟨bound, params, inner⟩

theorem procedure_tail_cases {routine : Routine} {last closed : Assembly}
    (ran : (procedureTail routine).run last = .ok ((), closed)) :
    closed = (if routine.kind = .function then last.emit (.pushValue routine.name) else last).emit .ret := by
  unfold procedureTail at ran
  split at ran
  · next isFunction =>
    rw [if_pos isFunction]
    obtain ⟨⟨⟩, pushed, ranPush, ran⟩ := run_seq ran
    cases ranPush
    cases ran
    rfl
  · next isSub =>
    rw [if_neg isSub]
    cases ran
    rfl

theorem main_span_cases {context : EmitContext} {main : Block} {before after : Assembly} {span : Span}
    (ran : (mainSpan context main).run before = .ok (span, after)) :
    ∃ start places last,
      (mainLetters context main).run before = .ok ((), start) ∧
        (blockPlaces context main).run start = .ok (places, last) ∧ after = last.emit .stop ∧
      span = { routine := .main main, first := 0, stop := (last.emit .stop).code.size, places } := by
  obtain ⟨⟨⟩, start, letters, ran⟩ := run_seq ran
  obtain ⟨places, last, body, ran⟩ := run_seq ran
  obtain ⟨⟨⟩, stopped, stop, ran⟩ := run_seq ran
  cases stop
  cases ran
  exact ⟨start, places, last, letters, body, rfl, rfl⟩

theorem layout_cases {context : EmitContext} {program : Program} {before whole : Assembly} {spans : List Span}
    (ran : (layout context program).run before = .ok (spans, whole)) :
    ∃ main others between last, (mainSpan context program.main).run before = .ok (main, between) ∧
      (program.procedures.mapM (procedureSpan context)).run between = .ok (others, last) ∧ spans = main :: others ∧
      whole = if program.procedures = [] then last else last.emit .stop := by
  obtain ⟨main, between, ranMain, ran⟩ := run_seq ran
  obtain ⟨others, last, ranOthers, ran⟩ := run_seq ran
  refine ⟨main, others, between, last, ranMain, ranOthers, ?_⟩
  cases procedures : program.procedures with
  | nil =>
    rw [procedures] at ran
    cases ran
    exact ⟨rfl, rfl⟩
  | cons first rest =>
    rw [procedures] at ran
    cases ran
    exact ⟨rfl, rfl⟩

end Cases

section Kept

variable {relation : Assembly → Assembly → Prop}

theorem keeps_letter_types {admits : Op → Bool} (straight : Straight admits (Keeps relation))
    (sets : ∀ first last ty, Keeps relation Unit (op (.setDefaultType first last ty)))
    (context : EmitContext) (locus : Locus) (stmt : Stmt) : Keeps relation Unit (letterTypes context locus stmt) := by
  cases stmt with
  | defType spec ranges =>
    exact straight.seq _ _ (straight.setLocus _) fun _ =>
      straight.seq _ _ (closed_type_of straight _ _ _) fun _ => closed_each straight fun _ _ => sets _ _ _
  | _ => exact straight.unit ()

theorem keeps_map {admits : Op → Bool} (growing : Growing admits relation) (items : List α) {emit : α → Emit β}
    (each : ∀ item, Keeps relation β (emit item)) : Keeps relation (List β) (items.mapM emit) := by
  induction items with
  | nil =>
    rw [List.mapM_nil]
    exact growing.unit _
  | cons head tail ih =>
    rw [List.mapM_cons]
    exact growing.seq _ _ (each head) fun _ => growing.seq _ _ ih fun _ => growing.unit _

section Plain

variable (growing : Growing Op.isPlain relation)

include growing

theorem keeps_letters (sets : ∀ first last ty, Keeps relation Unit (op (.setDefaultType first last ty)))
    (context : EmitContext) (main : Block) : Keeps relation Unit (mainLetters context main) :=
  closed_each growing.toStraight fun item _ => keeps_letter_types growing.toStraight sets context item.1 item.2

theorem keeps_procedure_head (routine : Routine) : Keeps relation Nat (procedureHead routine) :=
  growing.seq _ _ (growing.setLocus _) fun _ => growing.seq _ _ growing.newLabel fun _ =>
    growing.seq _ _ (growing.op _ rfl) fun _ => growing.seq _ _ (growing.entryLabel _) fun _ =>
    growing.seq _ _ (growing.place _) fun _ => growing.unit _

theorem keeps_procedure_tail (routine : Routine) : Keeps relation Unit (procedureTail routine) := by
  unfold procedureTail
  split
  · exact growing.seq _ _ (growing.op _ rfl) fun _ => growing.op _ rfl
  · exact growing.op _ rfl

end Plain

section Leaf

variable (context : EmitContext) {allows : String → Bool} {holds : (α : Type) → Emit α → Prop} (locus : Locus)
  (stmt : Stmt)
  (leaf : stmt.isCompound = false) (heeds : stmt.Heeds context.symbols context.registry allows)
  (constant : ∀ name source, stmt = .const name source → allows name = true)

include leaf heeds constant

theorem straight_leaf (straight : Straight (Op.heeds Op.isBody allows) holds) (unmarked : stmt.isMark = false) :
    holds Unit (Emit.stmt context locus stmt) := by
  have plain : Straight (Op.heeds Op.isPlain allows) holds := straight.restrict (Op.heeds_weaken fun _ => Op.plain_body)
  have prints : Straight (Op.heeds Op.isPrinting allows) holds :=
    straight.restrict (Op.heeds_weaken fun _ => Op.printing_body)
  cases stmt with
  | print file format items newline =>
    have selected : ∀ expr ∈ file, expr.Heeds context.symbols context.registry allows := fun expr isFile =>
      heeds.exprs expr (by simp [Stmt.exprs, Option.mem_def.mp isFile])
    exact closed_redirected straight selected (closed_print_items prints heeds)
  | write file sources =>
    have selected : ∀ expr ∈ file, expr.Heeds context.symbols context.registry allows := fun expr isFile =>
      heeds.exprs expr (by simp [Stmt.exprs, Option.mem_def.mp isFile])
    exact closed_redirected straight selected (closed_write_items prints heeds)
  | call name arguments => exact closed_call plain heeds fun _ _ => straight.op _ rfl
  | cond _ | select _ _ | forLoop _ _ _ _ _ _ | whileLoop _ _ | doLoop _ _ _ => cases leaf
  | _ => exact straight_simple plain locus _ rfl unmarked heeds constant

theorem closed_leaf (closed : Closed (Op.heeds Op.isBody allows) holds) :
    holds Unit (Emit.stmt context locus stmt) := by
  cases unmarked : stmt.isMark with
  | false => exact straight_leaf context locus stmt leaf heeds constant closed.toStraight unmarked
  | true =>
    have simple : stmt.isSimple = true := by cases stmt <;> first | rfl | cases unmarked
    exact closed_simple (closed.restrict (Op.heeds_weaken fun _ => Op.plain_body)) locus stmt simple heeds constant

end Leaf

section Body

variable (growing : Growing Op.isBody relation)

include growing

theorem Growing.gathers (context : EmitContext) :
    Walk context (fun _ => true) (fun _ => True) relation fun _ => relation := by
  refine growing.quiet.toStraight.gathers growing.place id (growing.trans _ _ _)
    fun {loops locus stmt _ before after} _ ran inner => ?_
  cases compound : stmt.isCompound with
  | true => exact inner compound
  | false =>
    exact closed_leaf { context with loops } locus stmt compound heeds_anything (fun _ _ _ => rfl) growing.toClosed.any
      before () after (run_forget (forget_stmt { context with loops } locus stmt) ran)

theorem keeps_block_places (context : EmitContext) (block : Block) : Keeps relation _ (blockPlaces context block) := by
  intro before result after ran
  obtain ⟨-, _, -, kept⟩ := (growing.gathers context).block context.loops block
    heeds_anything (fun _ _ => trivial) before result after ran
  exact kept

theorem keeps_stmt_places (context : EmitContext) (locus : Locus) (stmt : Stmt) :
    Keeps relation _ (stmtPlaces context locus stmt) := by
  intro before result after ran
  have walk := growing.gathers context
  refine walk.head trivial heeds_anything ran fun compound => ?_
  obtain ⟨-, _, -, kept⟩ := walk.stmt context.loops locus stmt compound heeds_anything
    (fun _ _ => trivial) before result after ran
  exact kept

theorem keeps_procedure_inner (context : EmitContext) (entry : ProcedureEntry) (routine : Routine) :
    Keeps relation _ (procedureInner context entry routine) := by
  have rest : Keeps relation (List (Nat × Stmt)) (do
      let exit ← newLabel
      let places ← blockPlaces { context with exit := some exit } routine.body
      place exit
      return places) :=
    growing.seq _ _ growing.newLabel fun _ => growing.seq _ _ (keeps_block_places growing _ _) fun _ =>
      growing.seq _ _ (growing.place _) fun _ => growing.unit _
  unfold procedureInner
  dsimp only
  split
  · exact growing.seq _ _ (growing.op _ rfl) fun _ => rest
  · exact rest

theorem keeps_block (context : EmitContext) (block : Block) : Keeps relation Unit (Emit.block context block) := by
  intro before _ after ran
  obtain ⟨places, ranPlaces⟩ := run_remember (forget_block context block) ran
  exact keeps_block_places growing context block before places after ranPlaces

variable (parameter : ∀ name ty, Keeps relation Unit (op (.popParam name ty)))

include parameter

theorem keeps_procedure_body (context : EmitContext) (entry : ProcedureEntry) (routine : Routine) :
    Keeps relation _ (procedureBody context entry routine) :=
  growing.seq _ _ (closed_each growing.toStraight fun _ _ => parameter _ _) fun _ =>
    keeps_procedure_inner growing context entry routine

theorem keeps_procedure_span (context : EmitContext) (routine : Routine) :
    Keeps relation _ (procedureSpan context routine) := by
  unfold procedureSpan
  split
  · exact growing.error _
  · next entry found =>
    refine growing.seq _ _ (keeps_procedure_head growing.quiet routine) fun skip => ?_
    intro before span after ran
    refine growing.seq _ _ (keeps_procedure_body growing parameter context entry routine) (fun _ => ?_) before span after
      (run_size ran)
    refine growing.seq _ _ (keeps_procedure_tail growing.quiet routine) fun _ => ?_
    intro before span after ran
    exact growing.seq _ _ (growing.place skip) (fun _ => growing.unit _) before span after (run_size ran)

theorem keeps_procedures (context : EmitContext) (program : Program) : Keeps relation Unit (do
    program.procedures.forM (procedure context)
    if !program.procedures.isEmpty then op .stop) := by
  refine growing.seq _ _ (closed_each growing.toStraight fun routine _ => ?_) fun _ => ?_
  · intro before _ after ran
    obtain ⟨span, ranSpan⟩ := run_remember (forget_procedure context routine) ran
    exact keeps_procedure_span growing parameter context routine before span after ranSpan
  · split
    · exact growing.op _ rfl
    · exact growing.unit ()

end Body

end Kept

end Emit

def Program.layout? (program : Program) (symbols : SymbolTable) (registry : Registry) : Option (List Span) :=
  match (Emit.layout (emitContext symbols registry) program).run .empty with
  | .ok (spans, _) => some spans
  | .error _ => none

end BasicLang
