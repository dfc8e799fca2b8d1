import BasicLang.Proofs.Code.Layout
import BasicLang.Proofs.Code.Phrase

set_option autoImplicit false

namespace BasicLang

section Heeding

variable {symbols : SymbolTable} {registry : Registry} {context : EmitContext} {checked : CheckContext}
  {allows : String → Bool} (allowed : ∀ name, SourceName name → allows name = true)

theorem Expr.storage_arguments_sublist (params : List Ty) (arguments : List Expr) :
    (storageArguments params arguments).Sublist arguments := by
  induction arguments generalizing params with
  | nil => exact .slnil
  | cons first rest ih =>
    rw [storageArguments]
    split
    · exact (ih _).cons_cons first
    · exact (ih _).cons first

theorem Expr.passed_sublist (name : String) (arguments : List Expr) (callee : Callee) :
    (passedStorage symbols registry name arguments callee).Sublist arguments := by
  unfold passedStorage
  split
  · split
    · exact storage_arguments_sublist _ arguments
    · exact List.nil_sublist _
  · split
    · exact List.filter_sublist
    · exact List.nil_sublist _
  · exact List.nil_sublist _

include allowed in
theorem Expr.Accepted.rooted : (expr : Expr) → expr.Accepted symbols registry → expr.rootVariable?.all allows = true
  | .variable name _, accepted => allowed name accepted.1
  | .member object _ _, accepted => Expr.Accepted.rooted object accepted.1
  | .grouped inner _, accepted => Expr.Accepted.rooted inner accepted.1
  | .literal _ _, _ | .apply _ _ _ _, _ | .binary _ _ _ _, _ | .unary _ _ _, _ => rfl

mutual

theorem Expr.Accepted.heeds (allowed : ∀ name, SourceName name → allows name = true) (expr : Expr)
    (accepted : expr.Accepted symbols registry) : expr.Heeds symbols registry allows := by
  cases expr with
  | literal literal info => exact Expr.rooted_nil
  | «variable» name info => exact Expr.rooted_nil
  | apply name arguments callee info =>
    have each := (Expr.all_accepted_iff _ _ _).mp accepted.2.2.1
    exact Expr.rooted_append.mpr ⟨fun stored inside => Expr.Accepted.rooted allowed stored
      (each stored ((Expr.passed_sublist name arguments callee).subset inside)),
        Expr.AllAccepted.heed allowed arguments accepted.2.2.1⟩
  | member object name info =>
    refine Expr.rooted_append.mpr ⟨fun stored inside => ?_, Expr.Accepted.heeds allowed object accepted.1⟩
    split at inside
    · rw [List.mem_singleton.mp inside]
      exact Expr.Accepted.rooted allowed object accepted.1
    · cases inside
  | binary operator left right info =>
    exact Expr.rooted_append.mpr ⟨Expr.Accepted.heeds allowed left accepted.1,
      Expr.Accepted.heeds allowed right accepted.2.1⟩
  | unary operator operand info => exact Expr.Accepted.heeds allowed operand accepted.1
  | grouped inner info => exact Expr.Accepted.heeds allowed inner accepted.1

theorem Expr.AllAccepted.heed (allowed : ∀ name, SourceName name → allows name = true) (exprs : List Expr)
    (accepted : Expr.AllAccepted symbols registry exprs) : Expr.RootedIn allows (Expr.takenOfAll symbols registry exprs) := by
  cases exprs with
  | nil => exact Expr.rooted_nil
  | cons first rest =>
    exact Expr.rooted_append.mpr ⟨Expr.Accepted.heeds allowed first accepted.1, Expr.AllAccepted.heed allowed rest accepted.2⟩

end

include allowed

theorem heeds_accepted {targets exprs : List Expr} {names : List String}
    (stored : ∀ target ∈ targets, target.Accepted symbols registry) (used : ∀ expr ∈ exprs, expr.Accepted symbols registry)
    (named : ∀ name ∈ names, SourceName name) : Heeds symbols registry allows targets exprs names where
  targets target inside := Expr.Accepted.rooted allowed target (stored target inside)
  exprs expr inside := Expr.Accepted.heeds allowed expr (used expr inside)
  names name inside := allowed name (named name inside)

omit allowed in
theorem Dimension.Accepted.bounds {dimensions : List Dimension}
    (accepted : ∀ dimension ∈ dimensions, dimension.Accepted symbols registry) :
    ∀ expr ∈ dimensions.flatMap Dimension.exprs, expr.Accepted symbols registry := by
  intro expr inside
  obtain ⟨dimension, isDimension, isBound⟩ := List.mem_flatMap.mp inside
  obtain ⟨lower, upper⟩ := accepted dimension isDimension
  obtain isLower | isUpper := List.mem_append.mp isBound
  · exact lower expr (Option.mem_toList.mp isLower)
  · rw [List.mem_singleton.mp isUpper]
    exact upper

omit allowed in
theorem CaseMatch.Accepted.wanted {patterns : List CaseMatch}
    (accepted : ∀ pattern ∈ patterns, pattern.Accepted symbols registry) :
    ∀ expr ∈ patterns.flatMap CaseMatch.exprs, expr.Accepted symbols registry := by
  intro expr inside
  obtain ⟨pattern, isPattern, isWanted⟩ := List.mem_flatMap.mp inside
  have known := accepted pattern isPattern
  cases pattern with
  | single wanted | comparison operator wanted => exact List.mem_singleton.mp isWanted ▸ known
  | range first last =>
    obtain rfl | isLast := List.mem_cons.mp isWanted
    · exact known.1
    · exact List.mem_singleton.mp isLast ▸ known.2

mutual

theorem Stmt.Accepted.heeds (stmt : Stmt) (checked : CheckContext) (accepted : stmt.Accepted symbols checked) :
    stmt.Heeds symbols checked.registry allows := by
  have listed {given : Option Expr} (accepted : ∀ expr ∈ given, expr.Accepted symbols checked.registry) :
      ∀ expr ∈ given.toList, expr.Accepted symbols checked.registry :=
    fun expr inside => accepted expr (Option.mem_toList.mp inside)
  have computes {exprs : List Expr} (accepted : ∀ expr ∈ exprs, expr.Accepted symbols checked.registry) :
      BasicLang.Heeds symbols checked.registry allows [] exprs [] := heeds_accepted allowed nofun accepted nofun
  have stores {targets : List Expr} (stored : ∀ target ∈ targets, target.Stored symbols checked.registry) :
      ∀ target ∈ targets, target.Accepted symbols checked.registry := fun target inside => (stored target inside).1
  have value (expr : Expr) (accepted : expr.Accepted symbols checked.registry) :
      expr.Heeds symbols checked.registry allows := Expr.Accepted.heeds allowed expr accepted
  cases stmt with
  | print file format items newline =>
    exact computes (List.forall_mem_append.mpr ⟨List.forall_mem_append.mpr ⟨listed accepted.1, listed accepted.2.1⟩,
      List.forall_mem_map.mpr accepted.2.2⟩)
  | write file sources => exact computes (List.forall_mem_append.mpr ⟨listed accepted.1, accepted.2⟩)
  | assign target source =>
    exact heeds_accepted allowed (List.forall_mem_singleton.mpr accepted.1.1)
      (List.forall_mem_cons.mpr ⟨accepted.1.1, List.forall_mem_singleton.mpr accepted.2⟩) nofun
  | dim shared decls =>
    refine heeds_accepted allowed nofun (fun expr inside => ?_)
      (List.forall_mem_map.mpr fun decl inside => (accepted decl inside).1)
    obtain ⟨decl, isDecl, isBound⟩ := List.mem_flatMap.mp inside
    split at isBound
    · next isArray => exact Dimension.Accepted.bounds ((accepted decl isDecl).2.2 isArray) expr isBound
    · cases isBound
  | redim preserve decls =>
    refine heeds_accepted allowed nofun (fun expr inside => ?_)
      (List.forall_mem_map.mpr fun decl inside => (accepted decl inside).1)
    obtain ⟨decl, isDecl, isBound⟩ := List.mem_flatMap.mp inside
    exact Dimension.Accepted.bounds (accepted decl isDecl).2.2 expr isBound
  | const name source => exact computes (List.forall_mem_singleton.mpr accepted.2)
  | call name arguments =>
    refine heeds_accepted allowed (fun target inside => accepted.2.1 target ?_) accepted.2.1 nofun
    unfold Stmt.targets SymbolTable.calledStorage at inside
    split at inside
    · exact (Expr.storage_arguments_sublist _ arguments).subset inside
    · split at inside
      · exact (List.mem_filter.mp inside).1
      · cases inside
  | input prompt question targets => exact heeds_accepted allowed (stores accepted) (stores accepted) nofun
  | lineInput prompt target =>
    have stored := List.forall_mem_singleton.mpr accepted.1
    exact heeds_accepted allowed stored stored nofun
  | fileInput file targets line =>
    exact heeds_accepted allowed (stores accepted.2.1) (List.forall_mem_cons.mpr ⟨accepted.1, stores accepted.2.1⟩) nofun
  | openFile path mode file =>
    exact computes (List.forall_mem_cons.mpr ⟨accepted.1, List.forall_mem_singleton.mpr accepted.2⟩)
  | close files => exact computes accepted
  | read targets => exact heeds_accepted allowed (stores accepted) (stores accepted) nofun
  | onEvent key target => exact computes (List.forall_mem_singleton.mpr accepted.1)
  | cond branches => exact Arms.Accepted.heeds branches checked accepted
  | select test clauses => exact heeds_expr.mpr ⟨value test accepted.1, Cases.Accepted.heeds clauses checked accepted.2⟩
  | forLoop counter first last step body next =>
    obtain ⟨named, firstAccepted, lastAccepted, stepAccepted, bodyAccepted⟩ := accepted
    obtain ⟨targets, exprs, names⟩ := Block.Accepted.heeds body (checked.inLoop .forLoop) bodyAccepted
    exact heeds_expr.mpr ⟨value first firstAccepted, heeds_expr.mpr ⟨value last lastAccepted, heeds_exprs.mpr
      ⟨fun expr inside => value expr (listed stepAccepted expr inside), targets, exprs,
        List.forall_mem_cons.mpr ⟨allowed counter named, names⟩⟩⟩⟩
  | whileLoop condition body =>
    exact heeds_expr.mpr ⟨value condition accepted.1, Block.Accepted.heeds body (checked.inLoop .whileLoop) accepted.2⟩
  | doLoop before body after =>
    have conditions {given : Option LoopCondition}
        (accepted : ∀ loop ∈ given, loop.condition.Accepted symbols checked.registry) :
        ∀ expr ∈ given.toList.map LoopCondition.condition, expr.Heeds symbols checked.registry allows :=
      List.forall_mem_map.mpr fun loop inside => value _ (accepted loop (Option.mem_toList.mp inside))
    obtain ⟨targets, exprs, names⟩ := Block.Accepted.heeds body (checked.inLoop .doLoop) accepted.2.1
    exact ⟨targets, List.forall_mem_append.mpr ⟨List.forall_mem_append.mpr ⟨conditions accepted.1, exprs⟩,
      conditions accepted.2.2⟩, names⟩
  | _ => exact computes nofun

theorem Block.Accepted.heeds (block : Block) (checked : CheckContext) (accepted : block.Accepted symbols checked) :
    block.Heeds symbols checked.registry allows := by
  cases block with
  | nil => exact heeds_accepted allowed nofun nofun nofun
  | cons locus head tail =>
    exact heeds_append.mpr ⟨Stmt.Accepted.heeds head checked accepted.1, Block.Accepted.heeds tail checked accepted.2⟩

theorem Arms.Accepted.heeds (arms : Arms) (checked : CheckContext) (accepted : arms.Accepted symbols checked) :
    arms.Heeds symbols checked.registry allows := by
  cases arms with
  | none => exact heeds_accepted allowed nofun nofun nofun
  | otherwise body => exact Block.Accepted.heeds body checked.nested accepted
  | arm condition body rest =>
    exact heeds_expr.mpr ⟨Expr.Accepted.heeds allowed condition accepted.1, heeds_append.mpr
      ⟨Block.Accepted.heeds body checked.nested accepted.2.1, Arms.Accepted.heeds rest checked accepted.2.2⟩⟩

theorem Cases.Accepted.heeds (cases : Cases) (checked : CheckContext) (accepted : cases.Accepted symbols checked) :
    cases.Heeds symbols checked.registry allows := by
  cases cases with
  | none => exact heeds_accepted allowed nofun nofun nofun
  | otherwise body => exact Block.Accepted.heeds body checked.nested accepted
  | clause locus patterns body rest =>
    obtain ⟨patternsAccepted, bodyAccepted, restAccepted⟩ := accepted
    exact heeds_append.mpr ⟨heeds_exprs.mpr ⟨fun expr inside => Expr.Accepted.heeds allowed expr
      (CaseMatch.Accepted.wanted patternsAccepted expr inside), Block.Accepted.heeds body checked.nested bodyAccepted⟩,
      Cases.Accepted.heeds rest checked restAccepted⟩

end

end Heeding

namespace Assembly

structure Makes (numbers : Nat → Prop) (before after : Assembly) : Prop where
  code : before.code.toList <+: after.code.toList
  more : before.temporaries ≤ after.temporaries
  made : ∀ place instruction name, before.code.size ≤ place → after.code[place]? = some instruction →
    instruction.op.changed? = some name → isMade name = true →
    ∃ stem ∈ madeStems, ∃ number, numbers number ∧ name = madeName stem number
  once : ∀ place other first second name, before.code.size ≤ place → place < other →
    after.code[place]? = some first → after.code[other]? = some second →
    first.op.changed? = some name → second.op.changed? = some name → isMade name = true → other = place + 1

def Names (before after : Assembly) : Prop :=
  Makes (fun number => before.temporaries < number ∧ number ≤ after.temporaries) before after

variable {before middle after : Assembly} {numbers fewer more : Nat → Prop}

theorem Makes.weaken (makes : Makes fewer before after) (view : ∀ number, fewer number → numbers number) :
    Makes numbers before after where
  code := makes.code
  more := makes.more
  made := fun place instruction name new found changed isNew => by
    obtain ⟨stem, known, number, isOne, same⟩ := makes.made place instruction name new found changed isNew
    exact ⟨stem, known, number, view number isOne, same⟩
  once := makes.once

theorem Makes.trans (early : Makes fewer before middle) (late : Makes more middle after)
    (apart : ∀ number, fewer number → ¬more number) :
    Makes (fun number => fewer number ∨ more number) before after where
  code := early.code.trans late.code
  more := Nat.le_trans early.more late.more
  made := fun place instruction name new found changed isNew => by
    by_cases old : place < middle.code.size
    · obtain ⟨stem, known, number, isOne, same⟩ :=
        early.made place instruction name new (found_before late.code found old) changed isNew
      exact ⟨stem, known, number, .inl isOne, same⟩
    · obtain ⟨stem, known, number, isOne, same⟩ :=
        late.made place instruction name (Nat.not_lt.mp old) found changed isNew
      exact ⟨stem, known, number, .inr isOne, same⟩
  once := fun place other first second name new behind found foundOther changed changedOther isNew => by
    by_cases old : other < middle.code.size
    · exact early.once place other first second name new behind
        (found_before late.code found (Nat.lt_trans behind old)) (found_before late.code foundOther old) changed
        changedOther isNew
    · by_cases older : place < middle.code.size
      · -- The two would have the same number.
        obtain ⟨stem, known, number, isOne, rfl⟩ :=
          early.made place first name new (found_before late.code found older) changed isNew
        obtain ⟨other, otherKnown, same, isOther, isName⟩ :=
          late.made other second _ (Nat.not_lt.mp old) foundOther changedOther isNew
        exact absurd isOther (made_number known otherKnown isName ▸ apart number isOne)
      · exact late.once place other first second name (Nat.not_lt.mp older) behind found foundOther changed changedOther isNew

theorem Makes.still (code : after.code = before.code) (more : before.temporaries ≤ after.temporaries) :
    Makes numbers before after where
  code := code ▸ List.prefix_refl _
  more := more
  made := fun place instruction name new found => by
    rw [code] at found
    exact absurd (Array.getElem?_eq_some_iff.mp found).1 (Nat.not_lt.mpr new)
  once := fun place other first second name new _ found => by
    rw [code] at found
    exact absurd (Array.getElem?_eq_some_iff.mp found).1 (Nat.not_lt.mpr new)

theorem Makes.op {op : Op} (named : ∀ name, op.changed? = some name → isMade name = true →
    ∃ stem ∈ madeStems, ∃ number, numbers number ∧ name = madeName stem number) :
    Makes numbers before (before.emit op) where
  code := (emit_step before op).1.code
  more := Nat.le_refl _
  made := fun place instruction name new found changed isNew => by
    obtain old | ⟨-, rfl⟩ := emit_found found
    · exact absurd (found_below old) (Nat.not_lt.mpr new)
    · exact named name changed isNew
  once := fun place other first second name new behind found foundOther => by
    have last := found_below foundOther
    rw [Assembly.emit, Array.size_push] at last
    omega

theorem Makes.pair {name : String} {ty : Ty} (named : ∀ other, name = other →
    ∃ stem ∈ madeStems, ∃ number, numbers number ∧ other = madeName stem number) :
    Makes numbers before ((before.emit (.dim name ty)).emit (.pushRef name)) where
  code := (emit_step before _).1.code.trans (emit_step _ _).1.code
  more := Nat.le_refl _
  made := fun place instruction other new found changed isNew => by
    obtain found | ⟨-, rfl⟩ := emit_found found
    · obtain old | ⟨-, rfl⟩ := emit_found found
      · exact absurd (found_below old) (Nat.not_lt.mpr new)
      · exact named other (Option.some.inj changed)
    · exact named other (Option.some.inj changed)
  once := fun place other first second _ new behind found foundOther => by
    have last := found_below foundOther
    simp only [Assembly.emit, Array.size_push] at last
    omega

theorem Names.trans (early : Names before middle) (late : Names middle after) : Names before after := by
  have less := early.more
  have more := late.more
  refine (Makes.trans early late fun number isOld isNew => ?_).weaken fun number isOne => ?_
  · omega
  · omega

end Assembly

namespace Emit

open Assembly (Makes Names)

def isSourced (name : String) : Bool := !isMade name

theorem sourced_named (name : String) (named : SourceName name) : isSourced name = true := by
  rw [isSourced, named.not_made]
  rfl

theorem names_closed : Closed (Op.heeds (fun _ => true) isSourced) (Keeps Names) where
  unit _ before _ after ran := by cases ran; exact .still rfl (Nat.le_refl _)
  seq first next names rest before result after ran := by
    obtain ⟨middle, between, ranFirst, ranNext⟩ := run_seq ran
    exact (names _ _ _ ranFirst).trans (rest _ _ _ _ ranNext)
  error _ _ _ _ ran := by cases ran
  op operation sourced before _ after ran := by
    cases ran
    refine .op fun name changed isNew => ?_
    have allowed := (Bool.and_eq_true_iff.mp sourced).2
    rw [changed, Option.all_some, isSourced, isNew] at allowed
    cases allowed
  setLocus _ before _ after ran := by cases ran; exact .still rfl (Nat.le_refl _)
  newLabel before _ after ran := by cases ran; exact .still rfl (Nat.le_refl _)
  namedLabel name before id after ran := by
    obtain rfl : (before.namedLabel name).2 = after := congrArg Prod.snd (Except.ok.inj ran)
    unfold Assembly.namedLabel
    split <;> exact .still rfl (Nat.le_refl _)
  entryLabel name before id after ran := by
    obtain rfl : (before.entryLabel name).2 = after := congrArg Prod.snd (Except.ok.inj ran)
    unfold Assembly.entryLabel
    split <;> exact .still rfl (Nat.le_refl _)
  temporary _ before _ after ran := by cases ran; exact .still rfl (Nat.le_succ _)
  data _ before _ after ran := by cases ran; exact .still rfl (Nat.le_refl _)
  place _ before _ after ran := by
    obtain ⟨_, -, -, rfl⟩ := Assembly.place_cases (run_place ran)
    exact .still rfl (Nat.le_refl _)

theorem makes_new {stem : String} (number : Nat) (known : stem ∈ madeStems) {ty : Ty} {push : Emit Unit}
    (pushes : Keeps Names Unit push) {before after : Assembly} (isOld : number ≤ before.temporaries)
    (ran : (assignNew (madeName stem number) ty push).run before = .ok ((), after)) :
    Makes (fun other => other = number ∨ before.temporaries < other ∧ other ≤ after.temporaries) before after := by
  obtain ⟨⟨⟩, declared, ranDim, ran⟩ := run_seq ran
  obtain ⟨⟨⟩, referred, ranRef, ran⟩ := run_seq ran
  obtain ⟨⟨⟩, pushed, ranPush, ranAssign⟩ := run_seq ran
  cases ranDim
  cases ranRef
  have first : Makes (· = number) before
    ((before.emit (.dim (madeName stem number) ty)).emit (.pushRef (madeName stem number))) :=
    .pair fun name isName => ⟨stem, known, number, rfl, isName.symm⟩
  have inner := pushes _ () pushed ranPush
  have last : Names pushed after := names_closed.op _ rfl _ _ _ ranAssign
  have rest := inner.trans last
  have more := rest.more
  refine (Makes.trans first rest fun other isNumber isNew => ?_).weaken fun other isOne => ?_
  · exact absurd isNew.1 (Nat.not_lt.mpr (isNumber ▸ isOld))
  · exact isOne

theorem names_walk (context : EmitContext) :
    Walk context isSourced (fun stmt => ∃ registry, stmt.AcceptedIn context.symbols registry) Names fun _ => Names where
  toStraight := names_closed.toStraight.restrict (Op.heeds_weaken fun _ _ => rfl)
  place := names_closed.place
  still := id
  join := Names.trans
  select pushes rest before result after ran := by
    obtain ⟨tested, counted, ranName, ran⟩ := run_seq ran
    cases ranName
    obtain ⟨⟨⟩, assigned, ranNew, ran⟩ := run_seq ran
    have new := makes_new (before.temporaries + 1) (by simp [madeStems]) pushes (Nat.le_refl _) ranNew
    obtain ⟨isListed, places, same, late⟩ := rest _ assigned result after ran
    have still : Makes (fun _ => False) before { before with temporaries := before.temporaries + 1 } :=
      .still rfl (Nat.le_succ _)
    have more := new.more
    have much := late.more
    dsimp only at new more
    refine ⟨isListed, places, same, ((still.trans new fun _ no => no.elim).trans late fun number old isNew => ?_).weaken
      fun number isOne => ?_⟩
    · simp only [false_or] at old
      omega
    · simp only [false_or] at isOne
      omega
  loop limits steps rest before result after ran := by
    obtain ⟨lastName, once, ranLastName, ran⟩ := run_seq ran
    cases ranLastName
    obtain ⟨stepName, twice, ranStepName, ran⟩ := run_seq ran
    cases ranStepName
    obtain ⟨⟨⟩, ended, ranLast, ran⟩ := run_seq ran
    obtain ⟨⟨⟩, stepped, ranStep, ran⟩ := run_seq ran
    have ends := makes_new (before.temporaries + 1) (by simp [madeStems]) limits (Nat.le_succ _) ranLast
    have endMore := ends.more
    dsimp only at ends endMore
    have advances := makes_new (before.temporaries + 1 + 1) (by simp [madeStems]) steps endMore ranStep
    have stepMore := advances.more
    obtain ⟨isListed, places, same, late⟩ := rest _ _ stepped result after ran
    have more := late.more
    have still : Makes (fun _ => False) before { before with temporaries := before.temporaries + 1 + 1 } :=
      .still rfl (Nat.le_add_right _ 2)
    refine ⟨isListed, places, same, (((still.trans ends fun _ no => no.elim).trans advances fun number old isNew => ?_).trans
      late fun number old isNew => ?_).weaken fun number isOne => ?_⟩
    · simp only [false_or] at old
      omega
    · simp only [false_or] at old
      omega
    · simp only [false_or] at isOne
      omega
  head {loops locus stmt places before after} accepted heeds ran inner := by
    cases compound : stmt.isCompound with
    | true => exact inner compound
    | false =>
      refine closed_leaf { context with loops } locus stmt compound heeds (fun name source isConst => ?_)
        (names_closed.restrict (Op.heeds_weaken fun _ _ => rfl)) before () after
        (run_forget (forget_stmt { context with loops } locus stmt) ran)
      subst isConst
      obtain ⟨_, checked, -, named, -⟩ := accepted
      exact sourced_named name named

theorem names_block (context : EmitContext) {checked : CheckContext}
    (sameRegistry : context.registry = checked.registry)
    (block : Block) (accepted : block.Accepted context.symbols checked) : Keeps Names Unit (Emit.block context block) := by
  intro before _ after ran
  obtain ⟨places, ranPlaces⟩ := run_remember (forget_block context block) ran
  have heeds : block.Heeds context.symbols context.registry isSourced :=
    sameRegistry ▸ Block.Accepted.heeds sourced_named block checked accepted
  obtain ⟨-, _, -, names⟩ := (names_walk context).block context.loops block heeds
    (fun part inside => ⟨_, Block.Accepted.statements block checked accepted part inside⟩) before places after ranPlaces
  exact names

section Programs

variable {context : EmitContext} {registry : Registry}

theorem names_procedure (sameRegistry : context.registry = registry) {routine : Routine} {entry : ProcedureEntry}
    (found : context.symbols.procedure? routine.name = some entry) (describes : entry.Describes routine)
    (named : SourceName routine.name) (params : ∀ param ∈ routine.params, SourceName param.name)
    (accepted : routine.body.Accepted context.symbols (routine.context registry)) :
    Keeps Names Unit (procedure context routine) := by
  have paramNamed : ∀ param ∈ entry.params, SourceName param.1 := by
    intro param inside
    have isParam : param.1 ∈ routine.params.map Parameter.name := describes.params ▸ List.mem_map_of_mem inside
    obtain ⟨written, isWritten, same⟩ := List.mem_map.mp isParam
    exact same ▸ params written isWritten
  rw [procedure, found]
  refine names_closed.seq _ _ (names_closed.setLocus _) fun _ => names_closed.seq _ _ names_closed.newLabel fun skip =>
    names_closed.seq _ _ (names_closed.op _ rfl) fun _ => names_closed.seq _ _ (names_closed.entryLabel _) fun _ =>
    names_closed.seq _ _ (names_closed.place _) fun _ =>
      names_closed.seq _ _ (closed_each names_closed.toStraight fun param inside =>
      names_closed.op _ (Op.heeds_named rfl rfl (sourced_named _ (paramNamed param (List.mem_reverse.mp inside))))) fun _ => ?_
  have body (exit : Nat) : Keeps Names Unit (block { context with exit := some exit } routine.body) :=
    names_block { context with exit := some exit } sameRegistry routine.body accepted
  by_cases isFunction : routine.kind = .function
  · simp only [if_pos isFunction]
    exact names_closed.seq _ _ (names_closed.op _ (Op.heeds_named rfl rfl (sourced_named _ named))) fun _ =>
      names_closed.seq _ _ names_closed.newLabel fun exit => names_closed.seq _ _ (body exit) fun _ =>
      names_closed.seq _ _ (names_closed.place _) fun _ => names_closed.seq _ _ (names_closed.op _ rfl) fun _ =>
      names_closed.seq _ _ (names_closed.op _ rfl) fun _ => names_closed.place _
  · simp only [if_neg isFunction]
    exact names_closed.seq _ _ names_closed.newLabel fun exit => names_closed.seq _ _ (body exit) fun _ =>
      names_closed.seq _ _ (names_closed.place _) fun _ => names_closed.seq _ _ (names_closed.op _ rfl) fun _ =>
      names_closed.place _

theorem names_program {program : Program} {symbols : SymbolTable} (accepted : program.Accepted symbols registry) :
    Keeps Names Unit (Emit.program (Program.emitContext symbols registry) program) := by
  obtain ⟨main, procedures⟩ := List.forall_mem_cons.mp accepted.bodies
  have letters (item : Locus × Stmt) : Keeps Names Unit (letterTypes (Program.emitContext symbols registry) item.1 item.2) :=
    keeps_letter_types names_closed.toStraight (fun _ _ _ => names_closed.op _ rfl) _ item.1 item.2
  refine names_closed.seq _ _ (closed_each names_closed.toStraight fun item _ => letters item) fun _ =>
    names_closed.seq _ _ (names_block _ rfl program.main main) fun _ => names_closed.seq _ _ (names_closed.op _ rfl) fun _ =>
    names_closed.seq _ _ (closed_each names_closed.toStraight fun routine inside => ?_) fun _ => ?_
  · obtain ⟨entry, found, describes⟩ := accepted.defines.described routine inside
    exact names_procedure rfl found describes (accepted.procedures routine inside).2 (accepted.params routine inside)
      (procedures routine inside)
  · split
    · exact names_closed.op _ rfl
    · exact names_closed.unit ()

end Programs

end Emit

end BasicLang
