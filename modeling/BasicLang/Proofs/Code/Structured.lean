import BasicLang.Proofs.Code.OutcomeStmt
import BasicLang.Proofs.Code.Phrase

set_option autoImplicit false

namespace BasicLang

theorem Environment.set_again (environment : Environment) (name : String) (first second : Value) :
    (environment.set name first).set name second = environment.set name second := by
  unfold Environment.set
  congr 1
  funext other
  by_cases same : other = name
  · simp [same]
  · simp [same]

theorem Environment.find_set {environment : Environment} {name : String} {value : Value} :
    (environment.set name value).value? name = some value := if_pos rfl

def Ty.kept (ty : Ty) (value : Value) : Except Fault Value :=
  if ty.default.ty = .null then .ok value else Fault.ofValue (ty.default.ty.convert value)

namespace Point

variable {image : Image} {least : Nat} {point : Point} {α : Type}

theorem follows_less {fewer : Nat} {outcome : Interpretation α} {reaches : α → Point → Prop}
    (follows : Follows image least point outcome reaches) (below : fewer ≤ least) :
    Follows image fewer point outcome reaches := by
  unfold Follows at follows ⊢
  split
  · next unfinished =>
    rw [unfinished] at follows
    obtain ⟨count, last, enough, steps⟩ := follows
    exact ⟨count, last, Nat.le_trans below enough, steps⟩
  · next fault failed =>
    rw [failed] at follows
    exact follows
  · next result ended =>
    rw [ended] at follows
    exact follows

theorem follows_more {outcome : Interpretation α} {reaches : α → Point → Prop} {second : Point}
    (moves : Moves image point (.ok second)) (follows : Follows image least second outcome reaches) :
    Follows image (least + 1) point outcome reaches := by
  unfold Follows at follows ⊢
  split
  · next unfinished =>
    rw [unfinished] at follows
    obtain ⟨count, last, enough, steps⟩ := follows
    exact ⟨count + 1, last, Nat.succ_le_succ enough, .head moves steps⟩
  · next fault failed =>
    rw [failed] at follows
    obtain ⟨count, last, steps, fails⟩ := follows
    exact ⟨count + 1, last, .head moves steps, fails⟩
  · next result ended =>
    rw [ended] at follows
    obtain ⟨count, last, steps, there⟩ := follows
    exact ⟨count + 1, last, .head moves steps, there⟩

section Loop

variable {fuel : Nat} {kind : ExitTarget} {test : Environment → Except Fault (Bool × Environment)}
  {body : Environment → Interpretation Flow} {further : Environment → Except Fault (Bool × Environment)}
  {done : Flow → Point → Prop}

theorem follows_loop (top inside behind : Environment → Point → Prop)
    (tests : ∀ environment point, top environment point →
      Follows image fuel point (.ofResult (test environment)) fun (enters, changed) last =>
        if enters then inside changed last else done (none, changed) last)
    (bodies : ∀ environment point, inside environment point →
      Follows image fuel point (body environment) fun (exit, changed) last =>
        match exit with
        | none => behind changed last
        | some target => done (kind.beyond target, changed) last)
    (furthers : ∀ environment point, behind environment point →
      Follows image fuel point (.ofResult (further environment)) fun (again, changed) last =>
        ∃ next, Moves image last (.ok next) ∧
          if again then top changed next else done (none, changed) next)
    (rounds : Nat) (enough : rounds ≤ fuel) (environment : Environment) (point : Point)
    (here : top environment point) :
    Follows image rounds point (loop kind test body further rounds environment) done := by
  -- Every round has a move of its own, the jump back to the top. That is what makes a loop that is
  -- unfinished after its rounds go on for as many moves.
  induction rounds generalizing environment point with
  | zero => exact ⟨0, point, Nat.le_refl _, .refl point⟩
  | succ rounds ih =>
    rw [loop]
    refine follows_seq (follows_less (tests environment point here) enough) ?_
    rintro ⟨enters, environment⟩ point found
    cases enters with
    | false => exact follows_unit found
    | true =>
      refine follows_seq (follows_less (bodies environment point found) enough) ?_
      rintro ⟨exit, environment⟩ point found
      cases exit with
      | some target => exact follows_unit found
      | none =>
        refine follows_seq (follows_less (furthers environment point found) enough) ?_
        rintro ⟨again, environment⟩ point ⟨next, moves, found⟩
        cases again with
        | false => exact follows_move moves (follows_unit found)
        | true => exact follows_more moves (ih (Nat.le_of_succ_le enough) environment next found)

end Loop

end Point

namespace Emit

variable {whole : Assembly} {image : Image} (linked : whole.Linked image) {table : SymbolTable}
  {registry : Registry} (context : EmitContext)

include linked

def Changes (image : Image) (change : Environment → Except Fault Environment) (before after : Assembly) : Prop :=
  ∀ least environment made, Point.Follows image least
    ⟨before.code.size, [], environment.beside made⟩ (.ofResult (change environment))
    fun changed point => point = ⟨after.code.size, [], changed.beside made⟩

def assignment (context : EmitContext) (name : String) (source : Expr) : Emit Unit := do
  op (.pushRef name)
  value context source
  op .assign

theorem phrase_assignment {name : String} (isSource : isMade name = false) {source : Expr}
    (scalar : source.isScalar = true) (accepted : source.Accepted table registry) :
    Phrase whole (assignment context name source) fun before _ after =>
      Changes image (Environment.assignFrom · name source) before after := by
  refine phrase_weaken (phrase_seq (phrase_op linked _ rfl) fun _ =>
    phrase_seq (phrase_value linked context source scalar accepted) fun _ => phrase_op linked _ rfl) ?_
  rintro before _ after - ⟨_, located, ⟨fetches, size⟩, -, _, valued, pushes, -, assigns, last⟩
  intro least environment made
  have moves : Point.Moves image ⟨before.code.size, [], environment.beside made⟩ _ := .storage fetches
  rw [Environment.find_source isSource, ← size] at moves
  refine Point.follows_move moves (Point.follows_then (pushes least _ _ made) ?_)
  rintro ⟨value, changed⟩ _ rfl
  have assigned : Point.Moves image
      ⟨valued.code.size, [.value value, .storage name], changed.beside made⟩ _ := .assign assigns
  rw [Environment.assign_source isSource, bind_assoc, ← last] at assigned
  simp only [pure_bind] at assigned
  exact Point.follows_result assigned

theorem phrase_assign_new {stem : String} {number : Nat} {ty : Ty} (scalar : ty.default.isScalar = true)
    {push : Emit Unit} {evaluate : Environment → Except Fault (Value × Environment)}
    (phrase : Phrase whole push fun before _ after => Pushes image evaluate before after) :
    Phrase whole (assignNew (madeName stem number) ty push) fun before _ after =>
      ∀ least environment made, Point.Follows image least
        ⟨before.code.size, [], environment.beside made⟩
        (.ofResult do
          let (value, changed) ← evaluate environment
          return (← ty.kept value, changed))
        fun (value, changed) point =>
          point = ⟨after.code.size, [], changed.beside (made.set (madeName stem number) value)⟩ := by
  have isName := made_is_made stem number
  refine phrase_weaken (phrase_seq (phrase_op linked _ rfl) fun _ => phrase_seq (phrase_op linked _ rfl) fun _ =>
    phrase_seq phrase fun _ => phrase_op linked _ rfl) ?_
  rintro before _ after -
    ⟨_, created, ⟨creates, sizeCreated⟩, -, _, located, ⟨locates, sizeLocated⟩, -, _, valued, pushes, -, assigns,
      size⟩
  intro least environment made
  have create : Point.Moves image ⟨before.code.size, [], environment.beside made⟩ _ := .dim creates scalar
  rw [Environment.set_made isName, ← sizeCreated] at create
  have locate : Point.Moves image ⟨created.code.size, [], environment.beside
      (made.set (madeName stem number) ty.default)⟩ _ := .storage locates
  rw [Environment.find_made isName Environment.find_set, ← sizeLocated] at locate
  refine Point.follows_move create (Point.follows_move locate (Point.follows_then (pushes least _ _ _) ?_))
  rintro ⟨value, changed⟩ _ rfl
  have assign : Point.Moves image ⟨valued.code.size, [.value value, .storage (madeName stem number)],
      changed.beside (made.set (madeName stem number) ty.default)⟩ _ := .assign assigns
  rw [Environment.assign_made isName Environment.find_set, ← size] at assign
  simp only [Environment.set_again] at assign
  -- The value is converted to the type of the variable, unless that type takes every value.
  have kept : Point.Moves image ⟨valued.code.size, [.value value, .storage (madeName stem number)],
      changed.beside (made.set (madeName stem number) ty.default)⟩ (do
        return ⟨after.code.size, [], changed.beside (made.set (madeName stem number) (← ty.kept value))⟩) := by
    unfold Ty.kept
    split at assign
    · next absent =>
      rw [if_pos absent]
      exact assign
    · next present =>
      rw [if_neg present]
      simpa only [bind_assoc, pure_bind] using assign
  refine Point.follows_then (Point.follows_result kept) ?_
  rintro result _ rfl
  exact Point.follows_unit rfl

/-- Code that pushes what an evaluation makes of the value of a variable beside those of the source. -/
def PushesOf (image : Image) (name : String)
    (evaluate : Value → Environment → Except Fault (Value × Environment)) (before after : Assembly) : Prop :=
  ∀ least stack environment made tested, made.value? name = some tested →
    Point.Follows image least ⟨before.code.size, stack, environment.beside made⟩
      (.ofResult (evaluate tested environment))
      fun (value, changed) point => point = ⟨after.code.size, .value value :: stack, changed.beside made⟩

theorem phrase_compare {stem : String} {number : Nat} (operator : BinaryOperator) {wanted : Expr}
    (scalar : wanted.isScalar = true) (accepted : wanted.Accepted table registry) :
    Phrase whole (caseMatch.compare context (madeName stem number) operator wanted) fun before _ after =>
      PushesOf image (madeName stem number) (CaseMatch.compare · operator wanted) before after := by
  refine phrase_weaken (phrase_seq (phrase_op linked _ rfl) fun _ =>
    phrase_seq (phrase_value linked context wanted scalar accepted) fun _ => phrase_op linked _ rfl) ?_
  rintro before _ after - ⟨_, recalled, ⟨recalls, sizeRecalled⟩, -, _, valued, pushes, -, compares, size⟩
  intro least stack environment made tested known
  have fetch : Point.Moves image ⟨before.code.size, stack, environment.beside made⟩ _ := .variable recalls
  rw [Environment.find_made (made_is_made stem number) known, ← sizeRecalled] at fetch
  refine Point.follows_move fetch (Point.follows_then (pushes least _ _ _) ?_)
  rintro ⟨value, changed⟩ _ rfl
  rw [size]
  refine Point.follows_then (Point.follows_result (.binary compares)) ?_
  rintro result _ rfl
  exact Point.follows_unit rfl

theorem phrase_case_match {stem : String} {number : Nat} (pattern : CaseMatch)
    (scalar : pattern.isScalar = true) (accepted : pattern.Accepted table registry) :
    Phrase whole (caseMatch context (madeName stem number) pattern) fun before _ after =>
      PushesOf image (madeName stem number) (fun tested => (CaseMatch.evaluate tested · pattern)) before after := by
  cases pattern with
  | single wanted => exact phrase_compare linked context _ scalar accepted
  | comparison operator wanted => exact phrase_compare linked context _ scalar accepted
  | range first last =>
    have both : first.isScalar = true ∧ last.isScalar = true := by simpa [CaseMatch.isScalar] using scalar
    refine phrase_weaken (phrase_seq (phrase_compare linked context _ both.1 accepted.1) fun _ =>
      phrase_seq (phrase_compare linked context _ both.2 accepted.2) fun _ => phrase_op linked _ rfl) ?_
    rintro before _ after - ⟨_, between, above, -, _, valued, below, -, combines, size⟩
    intro least stack environment made tested known
    refine Point.follows_then (above least _ _ made tested known) ?_
    rintro ⟨left, changed⟩ _ rfl
    refine Point.follows_then (below least _ _ made tested known) ?_
    rintro ⟨right, changed⟩ _ rfl
    rw [size]
    refine Point.follows_then (Point.follows_result (.binary combines)) ?_
    rintro result _ rfl
    exact Point.follows_unit rfl

theorem phrase_case_patterns {stem : String} {number : Nat} (body : Nat)
    (patterns : List CaseMatch) (scalar : ∀ pattern ∈ patterns, pattern.isScalar = true)
    (accepted : ∀ pattern ∈ patterns, pattern.Accepted table registry) :
    Phrase whole (casePatterns context (madeName stem number) body patterns) fun before _ after =>
      ∀ least place environment made tested, made.value? (madeName stem number) = some tested →
        whole.placeOf? body = some place →
        Point.Follows image least ⟨before.code.size, [], environment.beside made⟩
          (.ofResult (CaseMatch.anyMatches tested environment patterns))
          fun (found, changed) point =>
            point = ⟨if found then place else after.code.size, [], changed.beside made⟩ := by
  -- The jumps of the patterns aim at the body, and a pattern that does not match falls through to the next one.
  induction patterns with
  | nil =>
    refine phrase_weaken (phrase_unit ()) fun before _ after _ said => ?_
    intro least place environment made tested _ _
    rw [said.2]
    exact Point.follows_unit rfl
  | cons pattern rest ih =>
    have written : casePatterns context (madeName stem number) body (pattern :: rest) =
        caseMatch context (madeName stem number) pattern >>= fun _ =>
          op (.jumpIfNonzero (.label body)) >>= fun _ =>
            casePatterns context (madeName stem number) body rest := bind_assoc _ _ _
    rw [written]
    refine phrase_weaken (phrase_seq (phrase_case_match linked context pattern (scalar _ List.mem_cons_self)
        (accepted _ List.mem_cons_self)) fun _ =>
      phrase_seq (phrase_jump linked .jumpIfNonzero body fun _ _ _ => rfl) fun _ =>
        ih (fun other inside => scalar other (List.mem_cons_of_mem _ inside))
          fun other inside => accepted other (List.mem_cons_of_mem _ inside)) ?_
    rintro before _ after - ⟨_, matched, tests, -, _, jumped, ⟨⟨target, placed, jumps⟩, size⟩, -, others⟩
    intro least place environment made tested known isPlace
    rw [isPlace] at placed
    cases placed
    refine Point.follows_then (tests least _ _ made tested known) ?_
    rintro ⟨truth, changed⟩ _ rfl
    have jump : Point.Moves image ⟨matched.code.size, [.value truth], changed.beside made⟩ _ :=
      .jumpIfNonzero jumps
    rw [← size] at jump
    refine Point.follows_move jump ?_
    cases isTrue : truth.isTrue with
    | true =>
      simp only [isTrue, if_true]
      exact Point.follows_unit rfl
    | false =>
      simp only [isTrue, Bool.false_eq_true, if_false]
      exact others least target changed made tested known isPlace

def branch (context : EmitContext) (condition : Expr) (whenTrue : Bool) (id : Nat) : Emit Unit := do
  value context condition
  op (if whenTrue then .jumpIfNonzero (.label id) else .jumpIfZero (.label id))

theorem phrase_branch {condition : Expr} (whenTrue : Bool) (id : Nat) (scalar : condition.isScalar = true)
    (accepted : condition.Accepted table registry) :
    Phrase whole (branch context condition whenTrue id) fun before _ after =>
      ∃ place, whole.placeOf? id = some place ∧ ∀ least environment made,
        Point.Follows image least ⟨before.code.size, [], environment.beside made⟩
          (.ofResult (condition.evaluate environment))
          fun (value, changed) point => Point.Moves image point
            (.ok ⟨if value.isTrue == whenTrue then place else after.code.size, [], changed.beside made⟩) := by
  have pushed := phrase_value linked context condition scalar accepted
  cases whenTrue with
  | true =>
    refine phrase_weaken (phrase_seq pushed fun _ => phrase_jump linked .jumpIfNonzero id fun _ _ _ => rfl) ?_
    rintro before _ after - ⟨_, valued, pushes, -, ⟨place, placed, jumps⟩, size⟩
    refine ⟨place, placed, fun least environment made => Point.follows_weaken (pushes least _ _ made) ?_⟩
    rintro ⟨value, changed⟩ _ rfl
    have jump : Point.Moves image ⟨valued.code.size, [.value value], changed.beside made⟩ _ := .jumpIfNonzero jumps
    rw [← size] at jump
    dsimp only
    generalize value.isTrue = truth at jump ⊢
    cases truth <;> exact jump
  | false =>
    refine phrase_weaken (phrase_seq pushed fun _ => phrase_jump linked .jumpIfZero id fun _ _ _ => rfl) ?_
    rintro before _ after - ⟨_, valued, pushes, -, ⟨place, placed, jumps⟩, size⟩
    refine ⟨place, placed, fun least environment made => Point.follows_weaken (pushes least _ _ made) ?_⟩
    rintro ⟨value, changed⟩ _ rfl
    have jump : Point.Moves image ⟨valued.code.size, [.value value], changed.beside made⟩ _ := .jumpIfZero jumps
    rw [← size] at jump
    dsimp only
    generalize value.isTrue = truth at jump ⊢
    cases truth <;> exact jump

def leave (context : EmitContext) (condition : Option LoopCondition) (exit : Nat) : Emit Unit :=
  match condition with
  | some loop => branch context loop.condition (!loop.isWhile) exit
  | none => pure ()

def goBack (context : EmitContext) (condition : Option LoopCondition) (top : Nat) : Emit Unit :=
  match condition with
  | some loop => branch context loop.condition loop.isWhile top
  | none => jump top

theorem phrase_leave (condition : Option LoopCondition) (exit : Nat)
    (scalar : ∀ loop ∈ condition, loop.condition.isScalar = true)
    (accepted : ∀ loop ∈ condition, loop.condition.Accepted table registry) :
    Phrase whole (leave context condition exit) fun before _ after =>
      ∀ least place environment made, whole.placeOf? exit = some place →
        Point.Follows image least ⟨before.code.size, [], environment.beside made⟩
          (.ofResult (LoopCondition.goesOn condition environment))
          fun (enters, changed) point =>
            point = ⟨if enters then after.code.size else place, [], changed.beside made⟩ := by
  cases condition with
  | none =>
    refine phrase_weaken (phrase_unit ()) fun before _ after _ said => ?_
    intro least place environment made _
    rw [said.2]
    exact Point.follows_unit rfl
  | some loop =>
    refine phrase_weaken (phrase_branch linked context (!loop.isWhile) exit (scalar _ rfl) (accepted _ rfl)) ?_
    rintro before _ after - ⟨target, placed, jumps⟩
    intro least place environment made isPlace
    rw [isPlace] at placed
    cases placed
    refine Point.follows_then (jumps least _ made) ?_
    rintro ⟨value, changed⟩ point moves
    refine Point.follows_move moves (Point.follows_unit ?_)
    cases value.isTrue <;> cases loop.isWhile <;> rfl

theorem phrase_go_back (condition : Option LoopCondition) (top : Nat)
    (scalar : ∀ loop ∈ condition, loop.condition.isScalar = true)
    (accepted : ∀ loop ∈ condition, loop.condition.Accepted table registry) :
    Phrase whole (goBack context condition top) fun before _ after =>
      ∀ least place environment made, whole.placeOf? top = some place →
        Point.Follows image least ⟨before.code.size, [], environment.beside made⟩
          (.ofResult (LoopCondition.goesOn condition environment))
          fun (again, changed) point => Point.Moves image point
            (.ok ⟨if again then place else after.code.size, [], changed.beside made⟩) := by
  cases condition with
  | none =>
    refine phrase_weaken (phrase_jump linked .jump top fun _ _ _ => rfl) ?_
    rintro before _ after - ⟨⟨target, placed, jumps⟩, size⟩
    intro least place environment made isPlace
    rw [isPlace] at placed
    cases placed
    exact Point.follows_unit (.jump jumps)
  | some loop =>
    refine phrase_weaken (phrase_branch linked context loop.isWhile top (scalar _ rfl) (accepted _ rfl)) ?_
    rintro before _ after - ⟨target, placed, jumps⟩
    intro least place environment made isPlace
    rw [isPlace] at placed
    cases placed
    refine Point.follows_then (jumps least _ made) ?_
    rintro ⟨value, changed⟩ point moves
    exact Point.follows_unit moves

def Lands (whole : Assembly) (context : EmitContext) (behind next : Nat) : Option ExitTarget → Prop
  | none => next = behind
  | some target => ∃ id, context.loops.lookup target = some id ∧ whole.placeOf? id = some next

omit linked in
theorem lands_beyond {kind target : ExitTarget} {exit last next : Nat}
    (isExit : whole.placeOf? exit = some last)
    (lands : Lands whole (context.inLoop kind exit) last next (some target)) :
    Lands whole context last next (kind.beyond target) := by
  obtain ⟨id, found, placed⟩ := lands
  rw [EmitContext.inLoop, List.lookup_cons] at found
  unfold ExitTarget.beyond
  by_cases same : target = kind
  · have isLabel : some exit = some id := by simpa [same] using found
    rw [if_pos same]
    rw [← Option.some.inj isLabel, isExit] at placed
    exact (Option.some.inj placed).symm
  · rw [beq_false_of_ne same] at found
    rw [if_neg same]
    exact ⟨id, found, placed⟩

def Performs (image : Image) (whole : Assembly) (context : EmitContext) (fuel : Nat)
    (interpret : Environment → Interpretation Flow) (before after : Assembly) : Prop :=
  ∀ environment made, Point.Follows image fuel ⟨before.code.size, [], environment.beside made⟩
    (interpret environment) fun (exit, changed) point => ∃ next later,
      Environment.Keeps before.temporaries made later ∧ Lands whole context after.code.size next exit ∧
        point = ⟨next, [], changed.beside later⟩

omit linked in
theorem performs_loop {fuel exit top last : Nat} {kind : ExitTarget} {inner outer : Assembly}
    {test : Environment → Except Fault (Bool × Environment)} {body : Environment → Interpretation Flow}
    {further : Environment → Except Fault (Bool × Environment)} {holds : Environment → Prop}
    (isExit : whole.placeOf? exit = some last)
    (stays : ∀ made later, holds made → Environment.Keeps inner.temporaries made later → holds later)
    (tests : ∀ environment made, holds made →
      Point.Follows image fuel ⟨top, [], environment.beside made⟩ (.ofResult (test environment))
        fun (enters, changed) point =>
          point = ⟨if enters then inner.code.size else last, [], changed.beside made⟩)
    (performs : Performs image whole (context.inLoop kind exit) fuel body inner outer)
    (furthers : ∀ environment made, holds made →
      Point.Follows image fuel ⟨outer.code.size, [], environment.beside made⟩ (.ofResult (further environment))
        fun (again, changed) point => Point.Moves image point
          (.ok ⟨if again then top else last, [], changed.beside made⟩))
    (environment made : Environment) (start : holds made) :
    Point.Follows image fuel ⟨top, [], environment.beside made⟩
      (loop kind test body further fuel environment) fun (exit, changed) point => ∃ next later,
        holds later ∧ Lands whole context last next exit ∧ point = ⟨next, [], changed.beside later⟩ := by
  -- The variables that code has made up may change in the body, but not what `holds` says of them.
  let at_ (place : Nat) (environment : Environment) (point : Point) : Prop :=
    ∃ later, holds later ∧ point = ⟨place, [], environment.beside later⟩
  refine Point.follows_loop (at_ top) (at_ inner.code.size) (at_ outer.code.size) ?_ ?_ ?_ fuel (Nat.le_refl _)
    environment _ ⟨made, start, rfl⟩
  · rintro environment _ ⟨later, held, rfl⟩
    refine Point.follows_weaken (tests environment later held) ?_
    rintro ⟨enters, changed⟩ _ rfl
    cases enters with
    | true => exact ⟨later, held, rfl⟩
    | false => exact ⟨last, later, held, rfl, rfl⟩
  · rintro environment _ ⟨later, held, rfl⟩
    refine Point.follows_weaken (performs environment later) ?_
    rintro ⟨leaves, changed⟩ _ ⟨next, latest, keeps, lands, rfl⟩
    have still := stays later latest held keeps
    cases leaves with
    | none =>
      cases lands
      exact ⟨latest, still, rfl⟩
    | some target => exact ⟨next, latest, still, lands_beyond context isExit lands, rfl⟩
  · rintro environment _ ⟨later, held, rfl⟩
    refine Point.follows_weaken (furthers environment later held) ?_
    rintro ⟨again, changed⟩ point moves
    refine ⟨_, moves, ?_⟩
    cases again with
    | true => exact ⟨later, held, rfl⟩
    | false => exact ⟨last, later, held, rfl, rfl⟩

end Emit

end BasicLang
