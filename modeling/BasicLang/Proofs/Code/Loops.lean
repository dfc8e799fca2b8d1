import BasicLang.Proofs.Code.Exits
import BasicLang.Proofs.Code.Naming
import BasicLang.Proofs.Code.StructuredStmt
import BasicLang.Proofs.Machine.Constancy

set_option autoImplicit false

namespace BasicLang

/-- Where the instructions of a `FOR` statement stand. The code of its expressions and of its body is between them. -/
structure Loop where
  counter : String
  lastName : String
  stepName : String
  start : Nat
  -- The first value, the last one and the step are assigned here.
  assigned : Nat
  ended : Nat
  stepped : Nat
  -- The first instruction behind the body.
  tail : Nat

namespace Loop

def top (loop : Loop) : Nat := loop.stepped + 1

def body (loop : Loop) : Nat := loop.top + 4

def exit (loop : Loop) : Nat := loop.tail + 4

def test (loop : Loop) : List Op :=
  [.pushValue loop.counter, .pushValue loop.lastName, .pushValue loop.stepName, .forLoop (.resolved loop.exit)]

def further (loop : Loop) : List Op :=
  [.pushRef loop.counter, .pushValue loop.stepName, .forStep, .jump (.resolved loop.top)]

def Own (loop : Loop) (place : Nat) : Prop :=
  place = loop.start ∨ (loop.assigned ≤ place ∧ place ≤ loop.assigned + 2) ∨
    (loop.ended ≤ place ∧ place ≤ loop.ended + 2) ∨ (loop.stepped ≤ place ∧ place < loop.body) ∨
    (loop.tail ≤ place ∧ place < loop.exit)

end Loop

namespace Image

namespace Embeds

variable {image : Image} {place : Nat} {op : Op} {ops : List Op}

theorem nil : image.Embeds place [] := fun _ _ found => nomatch found

theorem cons (here : image.Fetches place op) (rest : image.Embeds (place + 1) ops) :
    image.Embeds place (op :: ops) := by
  intro offset other found
  cases offset with
  | zero =>
    cases found
    exact here
  | succ offset =>
    rw [Nat.add_comm offset, ← Nat.add_assoc]
    exact rest offset other found

end Embeds

structure LaysOut (image : Image) (loop : Loop) : Prop where
  refers : image.Fetches loop.start (.pushRef loop.counter)
  assigns : image.Fetches loop.assigned .assign
  declaresLast : image.Fetches (loop.assigned + 1) (.dim loop.lastName .double)
  refersLast : image.Fetches (loop.assigned + 2) (.pushRef loop.lastName)
  ends : image.Fetches loop.ended .assign
  declaresStep : image.Fetches (loop.ended + 1) (.dim loop.stepName .double)
  refersStep : image.Fetches (loop.ended + 2) (.pushRef loop.stepName)
  steps : image.Fetches loop.stepped .assign
  tests : image.Embeds loop.top loop.test
  advances : image.Embeds loop.tail loop.further
  assigned : loop.start + 1 < loop.assigned
  ended : loop.assigned + 3 < loop.ended
  stepped : loop.ended + 3 < loop.stepped
  tail : loop.body ≤ loop.tail

def Confines (image : Image) (name : String) (place : Nat) : Prop :=
  name ∉ image.shared ∧ ∀ other op, image.Fetches other op → op.changes name = true → other = place ∨ other = place + 1

structure Loops (image : Image) (loop : Loop) : Prop extends image.LaysOut loop where
  lastOwn : image.Confines loop.lastName (loop.assigned + 1)
  stepOwn : image.Confines loop.stepName (loop.ended + 1)
  lastMade : isMade loop.lastName = true
  stepMade : isMade loop.stepName = true
  apart : loop.lastName ≠ loop.stepName
  inside : loop.exit < image.instructions.size

end Image

namespace Emit

variable {whole : Assembly} {image : Image}

theorem keeps_count : Growing Op.isBody fun before after => before.temporaries ≤ after.temporaries :=
  keeps_closed _ (fun _ => Nat.le_refl _) (fun _ _ _ => Nat.le_trans) (fun _ _ _ => Nat.le_refl _)
    (fun _ _ => Nat.le_refl _) (fun _ => Nat.le_refl _)
    (fun assembly name => by
      unfold Assembly.namedLabel
      split <;> exact Nat.le_refl _)
    (fun assembly name => by
      unfold Assembly.entryLabel
      split <;> exact Nat.le_refl _)
    (fun _ => Nat.le_succ _) (fun _ _ => Nat.le_refl _) fun _ _ _ placed => by
      obtain ⟨_, -, -, rfl⟩ := Assembly.place_cases placed
      exact Nat.le_refl _

theorem phrase_some {emit : Emit Unit} (steps : Keeps Assembly.Step Unit emit)
    (counts : Keeps (fun before after => before.temporaries ≤ after.temporaries) Unit emit) :
    Phrase whole emit fun before _ after => before.code.size ≤ after.code.size := by
  intro before result after ran grows
  have grown := (steps _ _ _ ran).1
  exact ⟨grown.trans grows, counts _ _ _ ran, grown.longer⟩

section Longer

def Longer (before after : Assembly) : Prop := before.code.size < after.code.size

theorem longer_op (operation : Op) : Keeps Longer Unit (op operation) := by
  intro before _ after ran
  cases ran
  simp [Longer, Assembly.emit]

theorem longer_behind {α : Type} {first : Emit α} {next : α → Emit Unit} (steps : Keeps Assembly.Step α first)
    (longer : ∀ item, Keeps Longer Unit (next item)) : Keeps Longer Unit (first >>= next) := by
  intro before result after ran
  obtain ⟨middle, between, ranFirst, ranNext⟩ := run_seq ran
  exact Nat.lt_of_le_of_lt (steps _ _ _ ranFirst).1.longer (longer _ _ _ _ ranNext)

theorem longer_error (error : CodeError) : Keeps Longer Unit (throw error) := fun _ _ _ ran => nomatch ran

theorem longer_storage (name : String) (ty : Ty) (byRef : Bool) : Keeps Longer Unit (namedStorage name ty byRef) := by
  unfold namedStorage
  split
  · exact longer_op _
  · cases byRef <;> exact longer_op _

theorem longer_array (name : String) (ty : Ty) : Keeps Longer Unit (wholeArray name ty) := by
  unfold wholeArray
  split <;> exact longer_op _

theorem longer_call (context : EmitContext) (entry : ProcedureEntry) (name : String) (arguments : List Expr) :
    Keeps Longer Unit (callProcedure context entry name arguments) :=
  longer_behind (closed_procedure_arguments keeps_step.plain.inner _ _ (Expr.rooted_anywhere _)
    (Expr.rooted_anywhere _)) fun _ =>
    longer_behind (keeps_step.entryLabel _) fun _ => longer_op _

theorem longer_value (context : EmitContext) (expr : Expr) : Keeps Longer Unit (value context expr) := by
  have inner := keeps_step.plain.inner
  have pushes (expr : Expr) : Keeps Assembly.Step Unit (value context expr) := closed_value inner expr (Expr.rooted_anywhere _)
  cases expr with
  | literal literal info => exact longer_op _
  | «variable» name info => exact longer_storage _ _ _
  | apply name arguments callee info =>
    cases callee with
    | element =>
      cases arguments with
      | nil => exact longer_array _ _
      | cons first rest =>
        exact longer_behind (inner.op _ rfl) fun _ =>
          longer_behind (closed_values inner _ (Expr.rooted_anywhere _)) fun _ => longer_op _
    | function =>
      rw [value_function]
      split
      · exact longer_call context _ _ _
      · exact longer_error _
    | builtin =>
      rw [value_builtin]
      split
      · refine longer_behind (closed_builtin_arguments inner _ _ (Expr.rooted_anywhere _) (Expr.rooted_anywhere _)) fun _ => ?_
        split
        · exact longer_behind (inner.op _ rfl) fun _ => longer_op _
        · exact longer_op _
      · exact longer_error _
    | unresolved => exact longer_error _
  | member object name info =>
    rw [value]
    split
    · exact longer_behind (closed_reference inner object (by cases object.rootVariable? <;> rfl)
        (Expr.rooted_anywhere _)) fun _ => longer_op _
    · exact longer_behind (pushes object) fun _ => longer_op _
  | binary operator left right info =>
    exact longer_behind (pushes left) fun _ =>
      longer_behind (pushes right) fun _ => longer_op _
  | unary operator operand info =>
    refine longer_behind (pushes operand) fun _ => ?_
    cases operator <;> exact longer_op _
  | grouped inner info => exact longer_value context inner

end Longer

theorem phrase_longer {emit : Emit Unit} (longer : Keeps Longer Unit emit) (steps : Keeps Assembly.Step Unit emit)
    (counts : Keeps (fun before after => before.temporaries ≤ after.temporaries) Unit emit) :
    Phrase whole emit fun before _ after => before.code.size < after.code.size := by
  intro before result after ran grows
  exact ⟨(steps _ _ _ ran).1.trans grows, counts _ _ _ ran, longer _ _ _ ran⟩

theorem phrase_any_value (context : EmitContext) (expr : Expr) :
    Phrase whole (value context expr) fun before _ after => before.code.size < after.code.size :=
  phrase_longer (longer_value context expr) (closed_value keeps_step.plain.inner _ (Expr.rooted_anywhere _))
    (closed_value keeps_count.quiet.inner _ (Expr.rooted_anywhere _))

theorem phrase_any_step (context : EmitContext) (step : Option Expr) :
    Phrase whole (stepValue context step) fun before _ after => before.code.size < after.code.size := by
  cases step with
  | some step => exact phrase_any_value context step
  | none => exact phrase_longer (longer_op _) (keeps_step.op _ rfl) (keeps_count.op _ rfl)

theorem phrase_any_block (context : EmitContext) (body : Block) :
    Phrase whole (block context body) fun before _ after => before.code.size ≤ after.code.size :=
  phrase_some (keeps_block keeps_step.body _ _) (keeps_block keeps_count _ _)

variable (linked : whole.Linked image)

include linked

theorem phrase_any_new {name : String} {push : Emit Unit}
    (pushes : Phrase whole push fun before _ after => before.code.size < after.code.size) :
    Phrase whole (assignNew name .double push) fun before _ after =>
      image.Fetches before.code.size (.dim name .double) ∧ image.Fetches (before.code.size + 1) (.pushRef name) ∧
        before.code.size + 2 < after.code.size - 1 ∧ image.Fetches (after.code.size - 1) .assign := by
  refine phrase_weaken (phrase_seq (phrase_op linked _ rfl) fun _ => phrase_seq (phrase_op linked _ rfl) fun _ =>
    phrase_seq pushes fun _ => phrase_op linked _ rfl) ?_
  rintro before _ after - ⟨_, declared, ⟨declares, sizeDeclared⟩, -, _, referred, ⟨refers, sizeReferred⟩, -, _, pushed,
    longer, -, assigns, size⟩
  rw [sizeDeclared] at refers
  refine ⟨declares, refers, by omega, ?_⟩
  rwa [size, Nat.add_sub_cancel]

theorem phrase_any_assignment {context : EmitContext} {name : String} {source : Expr} :
    Phrase whole (assignment context name source) fun before _ after =>
      image.Fetches before.code.size (.pushRef name) ∧ before.code.size + 1 < after.code.size - 1 ∧
        image.Fetches (after.code.size - 1) .assign := by
  refine phrase_weaken (phrase_seq (phrase_op linked _ rfl) fun _ => phrase_seq (phrase_any_value context source) fun _ =>
    phrase_op linked _ rfl) ?_
  rintro before _ after - ⟨_, referred, ⟨refers, sizeReferred⟩, -, _, pushed, longer, -, assigns, size⟩
  refine ⟨refers, by omega, ?_⟩
  rwa [size, Nat.add_sub_cancel]

theorem phrase_any_test {counter lastName stepName : String} (exit : Nat) :
    Phrase whole (countTest counter lastName stepName exit) fun before _ after =>
      (∃ place, whole.placeOf? exit = some place ∧ image.Embeds before.code.size
          [.pushValue counter, .pushValue lastName, .pushValue stepName, .forLoop (.resolved place)]) ∧
        after.code.size = before.code.size + 4 := by
  refine phrase_weaken (phrase_seq (phrase_op linked _ rfl) fun _ => phrase_seq (phrase_op linked _ rfl) fun _ =>
    phrase_seq (phrase_op linked _ rfl) fun _ => phrase_jump linked .forLoop exit fun _ _ _ => rfl) ?_
  rintro before _ after - ⟨_, counted, ⟨counts, sizeCounted⟩, -, _, ended, ⟨ends, sizeEnded⟩, -, _, stepped,
    ⟨steps, sizeStepped⟩, -, ⟨place, placed, loops⟩, size⟩
  rw [sizeCounted] at ends
  rw [sizeEnded, sizeCounted] at steps
  rw [sizeStepped, sizeEnded, sizeCounted] at loops
  exact ⟨⟨place, placed, .cons counts (.cons ends (.cons steps (.cons loops .nil)))⟩, by omega⟩

theorem phrase_any_further {counter stepName : String} (top : Nat) :
    Phrase whole (countFurther counter stepName top) fun before _ after =>
      (∃ place, whole.placeOf? top = some place ∧ image.Embeds before.code.size
          [.pushRef counter, .pushValue stepName, .forStep, .jump (.resolved place)]) ∧
        after.code.size = before.code.size + 4 := by
  refine phrase_weaken (phrase_seq (phrase_op linked _ rfl) fun _ => phrase_seq (phrase_op linked _ rfl) fun _ =>
    phrase_seq (phrase_op linked _ rfl) fun _ => phrase_jump linked .jump top fun _ _ _ => rfl) ?_
  rintro before _ after - ⟨_, located, ⟨locates, sizeLocated⟩, -, _, stepped, ⟨steps, sizeStepped⟩, -, _, advanced,
    ⟨advances, sizeAdvanced⟩, -, ⟨place, placed, jumps⟩, size⟩
  rw [sizeLocated] at steps
  rw [sizeStepped, sizeLocated] at advances
  rw [sizeAdvanced, sizeStepped, sizeLocated] at jumps
  exact ⟨⟨place, placed, .cons locates (.cons steps (.cons advances (.cons jumps .nil)))⟩, by omega⟩

theorem phrase_any_loop {context : EmitContext} {counter lastName stepName : String} {body : Block} :
    Phrase whole (countLoop context counter lastName stepName body) fun before _ _ =>
      ∃ tail, before.code.size + 4 ≤ tail ∧ (∃ id, whole.placeOf? id = some (tail + 4)) ∧
        image.Embeds before.code.size [.pushValue counter, .pushValue lastName, .pushValue stepName,
          .forLoop (.resolved (tail + 4))] ∧
        image.Embeds tail [.pushRef counter, .pushValue stepName, .forStep, .jump (.resolved before.code.size)] := by
  refine phrase_weaken (phrase_seq phrase_new_label fun top => phrase_seq phrase_new_label fun exit =>
    phrase_seq (phrase_place top) fun _ => phrase_seq (phrase_any_test linked exit) fun _ =>
      phrase_seq (phrase_any_block _ body) fun _ => phrase_seq (phrase_any_further linked top) fun _ =>
        phrase_place exit) ?_
  rintro before _ _ - ⟨top, first, isFirst, -, exit, second, isSecond, -, _, started, ⟨isTop, isStarted⟩, -, _, inner,
    ⟨⟨behind, isBehind, tests⟩, sizeInner⟩, -, _, outer, longer, -, _, ended, ⟨⟨again, isAgain, furthers⟩, sizeEnded⟩, -,
    isExit, isEnded⟩
  have start : second.code.size = before.code.size := by rw [isSecond.size, isFirst.size]
  obtain rfl : again = before.code.size := by
    rw [isAgain] at isTop
    exact (Option.some.inj isTop).trans start
  obtain rfl : behind = outer.code.size + 4 := by
    rw [isBehind] at isExit
    exact (Option.some.inj isExit).trans sizeEnded
  rw [isStarted.size, start] at tests sizeInner
  exact ⟨outer.code.size, by omega, ⟨exit, isBehind⟩, tests, furthers⟩

theorem phrase_any_for {context : EmitContext} {locus : Locus} {counter : String} {first last : Expr}
    {step : Option Expr}
    {body : Block} {next : Option (String × Locus)} :
    Phrase whole (stmt context locus (.forLoop counter first last step body next)) fun before _ _ =>
      ∃ loop : Loop, ∃ number, loop.start = before.code.size ∧ loop.counter = counter ∧
        loop.lastName = madeName "FOREND" number ∧ loop.stepName = madeName "FORSTEP" (number + 1) ∧
        (∃ id, whole.placeOf? id = some loop.exit) ∧ image.LaysOut loop := by
  rw [for_loop_code]
  refine phrase_weaken (phrase_seq (phrase_any_assignment linked) fun _ => phrase_made fun number => phrase_made fun another =>
    phrase_seq (phrase_any_new linked (phrase_any_value context last)) fun _ =>
      phrase_seq (phrase_any_new linked (phrase_any_step context step)) fun _ => phrase_any_loop linked) ?_
  rintro before _ after - ⟨_, assigned, ⟨refers, more, assigns⟩, -, lastMade, isLastMade, lastSize, stepMade, isStepMade,
    stepSize, _, ended, ⟨declaresLast, refersLast, moreEnded, ends⟩, -, _, stepped,
    ⟨declaresStep, refersStep, moreStepped, steps⟩, -, tail, moreTail, placed, tests, furthers⟩
  have same : stepMade.code.size = assigned.code.size := stepSize.trans lastSize
  rw [same] at declaresLast refersLast moreEnded
  have isAssigned : assigned.code.size = assigned.code.size - 1 + 1 := by omega
  have isEnded : ended.code.size = ended.code.size - 1 + 1 := by omega
  have isStepped : stepped.code.size = stepped.code.size - 1 + 1 := by omega
  refine ⟨⟨counter, madeName "FOREND" lastMade.temporaries, madeName "FORSTEP" stepMade.temporaries, before.code.size,
    assigned.code.size - 1, ended.code.size - 1, stepped.code.size - 1, tail⟩,
    lastMade.temporaries, rfl, rfl, rfl, congrArg (madeName "FORSTEP") isStepMade, placed, ?_⟩
  exact {
    refers, assigns, ends, steps
    declaresLast := isAssigned ▸ declaresLast
    refersLast := isAssigned ▸ refersLast
    declaresStep := isEnded ▸ declaresStep
    refersStep := isEnded ▸ refersStep
    tests := isStepped ▸ tests
    advances := isStepped ▸ furthers
    assigned := more
    ended := by dsimp only; omega
    stepped := by dsimp only; omega
    tail := by dsimp only [Loop.body, Loop.top]; omega }

end Emit

section Owning

variable {image : Image} {loop : Loop}

theorem Op.changes_named (op : Op) (name : String) : op.changes name = true ↔ op.changed? = some name := by
  cases op <;> simp [Op.changes, Op.changed?]

theorem Op.retarget_changes (op : Op) (code data : Target → Target) (name : String) :
    (op.retarget code data).changes name = op.changes name := by
  cases op <;> rfl

-- The declaration of a variable and the reference behind it are all that change the variable.
theorem Assembly.Names.confines {whole : Assembly} (names : Assembly.empty.Names whole) (links : whole.Linked image)
    (size : image.instructions.size = whole.code.size) {name : String} {place : Nat} {ty : Ty} (made : isMade name = true)
    (declares : image.Fetches place (.dim name ty)) (refers : image.Fetches (place + 1) (.pushRef name)) {other : Nat} {op : Op}
    (fetches : image.Fetches other op) (changes : op.changes name = true) : other = place ∨ other = place + 1 := by
  have source {place : Nat} {op : Op} (fetches : image.Fetches place op) (changes : op.changes name = true) :
      ∃ instruction, whole.code[place]? = some instruction ∧ instruction.op.changed? = some name := by
    obtain ⟨locus, found⟩ := fetches
    obtain ⟨instruction, isSource, linked⟩ := links.source size found
    obtain ⟨code, data, same, -⟩ := Assembly.link_cases linked
    refine ⟨instruction, isSource, (instruction.op.changes_named name).mp ?_⟩
    rw [← Op.retarget_changes _ code data, ← (Instruction.mk.inj same).1]
    exact changes
  obtain ⟨first, isFirst, firstChanges⟩ := source declares (by simp [Op.changes])
  obtain ⟨second, isSecond, secondChanges⟩ := source refers (by simp [Op.changes])
  obtain ⟨third, isThird, thirdChanges⟩ := source fetches changes
  have once := names.once
  rcases Nat.lt_trichotomy other place with before | same | behind
  · have next := once other place third first name (Nat.zero_le _) before isThird isFirst thirdChanges firstChanges made
    have apart := once other (place + 1) third second name (Nat.zero_le _) (Nat.lt_succ_of_lt before) isThird isSecond
      thirdChanges secondChanges made
    omega
  · exact .inl same
  · exact .inr (once place other first third name (Nat.zero_le _) behind isFirst isThird firstChanges thirdChanges made)

end Owning

namespace Program

variable {program : Program} {symbols : SymbolTable} {registry : Registry} {image : Image} {spans : List Span}

theorem Accepted.loops (accepted : program.Accepted symbols registry)
    (coded : program.image symbols registry = .ok image)
    (isLayout : program.layout? symbols registry = some spans) (unshared : ∀ name ∈ image.shared, isMade name = false) :
    ∀ span ∈ spans, ∀ place counter first last step body next,
      (place, Stmt.forLoop counter first last step body next) ∈ span.places →
        ∃ loop : Loop, loop.start = place ∧ loop.counter = counter ∧ image.Loops loop := by
  obtain ⟨whole, ran, ranLayout, links, size, -⟩ := laid_out coded isLayout
  have names : Assembly.empty.Names whole := Emit.names_program accepted _ _ _ ran
  obtain ⟨ending, within, isWhole⟩ := Emit.layout_ends ranLayout
  intro span isSpan place counter first last step body next isLoop
  obtain ⟨exit, housed⟩ := Emit.housed_layout ranLayout span isSpan
  obtain ⟨loops, locus, before, places, after, rfl, grows, ranStmt⟩ := housed.statements _ _ isLoop
  obtain ⟨-, -, loop, number, start, isCounter, isLast, isStep, ⟨id, placed⟩, laid⟩ :=
    Emit.phrase_any_for links before () after (Emit.run_forget (Emit.forget_stmt _ _ _) ranStmt) grows
  have lastMade : isMade loop.lastName = true := isLast ▸ made_is_made _ _
  have stepMade : isMade loop.stepName = true := isStep ▸ made_is_made _ _
  have confines {name : String} {place : Nat} (made : isMade name = true) (declares : image.Fetches place (.dim name .double))
      (refers : image.Fetches (place + 1) (.pushRef name)) : image.Confines name place :=
    ⟨fun isShared => by simp [unshared name isShared] at made,
      fun other op fetches changes => names.confines links size made declares refers fetches changes⟩
  refine ⟨loop, start, isCounter, { laid with
    lastOwn := confines lastMade laid.declaresLast laid.refersLast
    stepOwn := confines stepMade laid.declaresStep laid.refersStep
    lastMade, stepMade
    apart := fun alike => ?_
    inside := ?_ }⟩
  · rw [isLast, isStep] at alike
    exact absurd (made_number (by decide) (by decide) alike) (Nat.ne_of_lt (Nat.lt_succ_self _))
  · rw [isWhole] at placed size
    exact size ▸ within.below placed

end Program

end BasicLang
