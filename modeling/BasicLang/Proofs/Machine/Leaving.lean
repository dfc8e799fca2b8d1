import BasicLang.Proofs.Code.Exits
import BasicLang.Proofs.Machine.Constancy

set_option autoImplicit false

namespace BasicLang

def Image.Declares (image : Image) (spans : List Span) (handler : Nat) : Prop :=
  ∃ span ∈ spans, ∃ place, span.Has place ∧ image.Fetches place (.onEvent (.resolved handler))

-- What holds of the place and the frames while the routines of an image run and the frames are among those allowed.
structure Image.Carries (image : Image) (spans : List Span) (allowed : List Frame → Prop)
    (holds : Nat → List Frame → Prop) : Prop where
  interrupts : ∀ place frames handler, image.Declares spans handler → holds place frames →
    holds handler (⟨.event, place, 0⟩ :: frames)
  leads : ∀ (here after : Control) span instruction, here.image = image → span ∈ spans → span.Has here.next →
    holds here.next here.frames → image.instructions[here.next]? = some instruction →
    instruction.op.Leads { here with next := here.next + 1 } after →
    span.Leads spans image.instructions.size instruction.op here.next here.frames after.next after.frames →
    allowed after.frames → holds after.next after.frames

structure Machine.Carried {σ : Type} (image : Image) (spans : List Span) (holds : Nat → List Frame → Prop)
    (machine : Machine σ) : Prop extends machine.Nests image spans where
  declared : machine.phase ≠ .failed → ∀ key handler, machine.handlers.get? key = some handler →
    image.Declares spans handler
  held : machine.phase ≠ .failed → holds machine.next machine.frames

namespace Run

variable {σ : Type} {setup : Setup σ} {image : Image} {spans : List Span} {allowed : List Frame → Prop}
  {holds : Nat → List Frame → Prop} {machine : Machine σ}

theorem ready_carried (setup : Setup σ) (carries : image.Carries spans allowed holds)
    (carried : machine.Carried image spans holds) (goes : machine.phase = .idle ∨ machine.phase = .running) :
    (∀ key handler, (ready setup machine).handlers.get? key = some handler → image.Declares spans handler) ∧
      holds (ready setup machine).next (ready setup machine).frames := by
  have declared := carried.declared (going_alive goes)
  have held := carried.held (going_alive goes)
  obtain same | ⟨key, handler, found, same⟩ := ready_control setup machine
  · rw [show (ready setup machine).next = machine.next from congrArg Control.next same,
      show (ready setup machine).frames = machine.frames from congrArg Control.frames same,
      show (ready setup machine).handlers = machine.handlers from congrArg Control.handlers same]
    exact ⟨declared, held⟩
  · rw [show (ready setup machine).next = handler from congrArg Control.next same,
      show (ready setup machine).frames = ⟨.event, machine.next, 0⟩ :: machine.frames from congrArg Control.frames same,
      show (ready setup machine).handlers = machine.handlers from congrArg Control.handlers same]
    exact ⟨declared, carries.interrupts _ _ handler (declared key handler found) held⟩

theorem step_carried (contained : image.Contained spans) (carries : image.Carries spans allowed holds)
    (carried : machine.Carried image spans holds) (isAllowed : allowed ((step setup).on machine).2.frames) :
    ((step setup).on machine).2.Carried image spans holds := by
  have nests : ((step setup).on machine).2.Nests image spans := step_nests contained machine carried.toNests
  by_cases goes : machine.phase = .idle ∨ machine.phase = .running
  · have started := ready_nests setup (carried.nested (going_alive goes))
    obtain ⟨declared, ready⟩ := ready_carried setup carries carried goes
    generalize stepped : ((step setup).on machine).2 = after at nests isAllowed ⊢
    obtain ⟨-, same⟩ | ⟨instruction, found, ⟨_, _, same⟩ | ⟨control, phase, leads, same⟩⟩ := step_control goes stepped
    · refine ⟨nests, fun _ => ?_, fun _ => ?_⟩
      · rw [show after.handlers = (Run.ready setup machine).handlers from congrArg Control.handlers same]
        exact declared
      · rw [show after.next = (Run.ready setup machine).next from congrArg Control.next same,
          show after.frames = (Run.ready setup machine).frames from congrArg Control.frames same]
        exact ready
    · have failed : after.phase = .failed := congrArg Control.phase same
      exact ⟨nests, fun alive => absurd failed alive, fun alive => absurd failed alive⟩
    · rw [carried.loaded] at found
      obtain ⟨span, isSpan, inside⟩ := started.nested.routine (Array.getElem?_eq_some_iff.mp found).1
      have led := contained.leads isSpan inside started.loaded found leads
      have frames : after.frames = control.frames := congrArg Control.frames same
      refine ⟨nests, fun _ => ?_, fun _ => ?_⟩
      · rw [show after.handlers = control.handlers from congrArg Control.handlers same]
        refine leads.handlers_hold declared fun next isDeclaration => ?_
        obtain ⟨op, locus⟩ := instruction
        obtain rfl : op = .onEvent (.resolved next) := isDeclaration
        exact ⟨span, isSpan, _, inside, locus, found⟩
      · rw [show after.next = control.next from congrArg Control.next same, frames]
        exact carries.leads (Run.ready setup machine).control control span instruction started.loaded isSpan inside ready found
          leads led (frames ▸ isAllowed)
  · rw [on_step_still goes]
    exact carried

theorem resume_carried (reply : Except DeviceError Reply) :
    Upholds (Machine.Carried image spans holds) (resume reply : Run σ Unit) := by
  intro machine carried
  have nests : ((resume reply).on machine).2.Nests image spans := resume_nests reply machine carried.toNests
  cases waits : machine.pending with
  | none =>
    rw [on_resume_nothing waits]
    exact carried
  | some pending =>
    have alive : machine.phase ≠ .failed := by
      rw [carried.orderly.mp (by simp [waits])]
      simp
    obtain ⟨next, frames, handlers⟩ := resume_in_place reply machine
    exact ⟨nests, fun _ => handlers ▸ carried.declared alive, fun _ => next ▸ frames ▸ carried.held alive⟩

theorem reset_carried (contained : image.Contained spans) (starts : holds 0 [Machine.mainFrame])
    (loaded : machine.image = image) : machine.reset.Carried image spans holds :=
  ⟨reset_nests contained loaded, fun _ _ _ found => (nomatch found), fun _ => starts⟩

theorem call_carried (contained : image.Contained spans) (carries : image.Carries spans (fun _ => True) holds)
    (starts : holds 0 [Machine.mainFrame]) {call : HostCall} (sameImage : ∀ other, call ≠ .load other) :
    Upholds (Machine.Carried image spans holds) (call.run setup) := by
  cases restarts : call.restarts with
  | false =>
    refine upholds_call (fun machine carried => step_carried contained carries carried trivial) resume_carried
      (fun machine world events carried => ?_) restarts
    exact ⟨⟨carried.orderly, carried.loaded, carried.nested⟩, carried.declared, carried.held⟩
  | true =>
    cases call with
    | load other => exact absurd rfl (sameImage other)
    | reset => exact fun _ carried => reset_carried contained starts carried.loaded
    | _ => cases restarts

end Run

theorem Machine.loaded_carries {σ : Type} {image : Image} {spans : List Span} {holds : Nat → List Frame → Prop}
    (setup : Setup σ) (contained : image.Contained spans) (carries : image.Carries spans (fun _ => True) holds)
    (starts : holds 0 [mainFrame]) (world : σ) {calls : List HostCall}
    (sameImage : ∀ call ∈ calls, ∀ other, call ≠ .load other) :
    ((create world).afterAll setup (.load image :: calls)).Carried image spans holds := by
  have start : ((create world).load setup.devices image).Carried image spans holds :=
    Run.reset_carried contained starts rfl
  have each : ∀ call ∈ calls, Run.Upholds (Machine.Carried image spans holds) (call.run setup) :=
    fun call inside => Run.call_carried contained carries starts (sameImage call inside)
  have kept : (((create world).load setup.devices image).afterAll setup calls).Carried image spans holds :=
    after_all_holds setup each start
  exact kept

def CalledFrom (image : Image) (spans : List Span) : Nat → List Frame → Prop
  | _, [] => True
  | place, frame :: rest =>
    (frame.kind = .call → (∃ home ∈ spans, home.Has frame.returnTo) ∧
      (place = image.instructions.size ∨ ∃ span ∈ spans, span.Has place ∧
        ∃ caller, frame.returnTo = caller + 1 ∧ image.Fetches caller (.call (.resolved span.first)))) ∧
      CalledFrom image spans frame.returnTo rest

section Calling

variable {image : Image} {spans : List Span} {span : Span} {place next : Nat} {frames : List Frame}

theorem CalledFrom.move (contained : image.Contained spans) (called : CalledFrom image spans place frames)
    (isSpan : span ∈ spans) (inside : span.Has place) (goes : span.Has next ∨ next = image.instructions.size) :
    CalledFrom image spans next frames := by
  cases frames with
  | nil => trivial
  | cons frame rest =>
    refine ⟨fun isCall => ⟨(called.1 isCall).1, ?_⟩, called.2⟩
    rcases goes with goes | ended
    · rcases (called.1 isCall).2 with ended | ⟨other, isOther, inOther, caller⟩
      · exact absurd ended (contained.before_end isSpan inside)
      · obtain rfl := contained.one_span isSpan isOther inside inOther
        exact .inr ⟨span, isSpan, goes, caller⟩
    · exact .inl ended

theorem Nested.frames_ne_nil (nested : Nested spans image.instructions.size place frames) : frames ≠ [] := by
  induction nested with
  | ended _ _ _ ih => exact ih
  | _ => exact List.cons_ne_nil _ _

theorem CalledFrom.caller {frame : Frame} {above rest : List Frame} (contained : image.Contained spans)
    (called : CalledFrom image spans place (above ++ frame :: rest))
    (nested : Nested spans image.instructions.size place (above ++ frame :: rest)) (isSpan : span ∈ spans)
    (inside : span.Has place) (subroutines : ∀ other ∈ above, other.kind = .gosub) (isCall : frame.kind = .call) :
    ∃ caller, frame.returnTo = caller + 1 ∧ image.Fetches caller (.call (.resolved span.first)) := by
  induction above generalizing place with
  | nil =>
    rcases (called.1 isCall).2 with ended | ⟨callee, isCallee, inCallee, caller⟩
    · exact absurd ended (contained.before_end isSpan inside)
    · obtain rfl := contained.one_span isSpan isCallee inside inCallee
      exact caller
  | cons top above ih =>
    obtain ⟨isGosub, others⟩ := List.forall_mem_cons.mp subroutines
    have isInner : above ++ frame :: rest ≠ [] := by simp
    have outer := nested.leave contained isSpan inside isInner
    refine ih called.2 outer ?_ others
    rw [List.cons_append] at nested
    generalize above ++ frame :: rest = frames at nested isInner
    cases nested with
    | main => exact absurd rfl isInner
    | gosub home _ _ _ isHome inHome _ returns _ =>
      obtain rfl := contained.one_span isSpan isHome inside inHome
      exact returns
    | call _ _ _ _ _ _ _ isCall => rw [isGosub] at isCall; cases isCall
    | event _ _ _ _ _ _ isEvent => rw [isGosub] at isEvent; cases isEvent
    | ended => exact absurd rfl (contained.before_end isSpan inside)

theorem Nested.caller_frames {frame : Frame} {rest : List Frame} (contained : image.Contained spans)
    (nested : Nested spans image.instructions.size place (frame :: rest)) (isSpan : span ∈ spans)
    (inside : span.Has place) (isCall : frame.kind = .call) : rest ≠ [] := by
  cases nested with
  | call _ _ _ _ _ _ _ _ caller => exact caller.frames_ne_nil
  | gosub _ _ _ _ _ _ _ _ outer => exact outer.frames_ne_nil
  | event _ _ _ _ _ _ _ interrupted => exact interrupted.frames_ne_nil
  | main => cases isCall
  | ended => exact absurd rfl (contained.before_end isSpan inside)

theorem Image.Contained.called (contained : image.Contained spans) :
    image.Carries spans (fun _ => True) (CalledFrom image spans) where
  interrupts := fun place frames handler _ called => ⟨nofun, called⟩
  leads := by
    intro here after span instruction _ isSpan inside called found leads led _
    have goesOn {next : Nat} (goes : span.Has next) : CalledFrom image spans next here.frames :=
      called.move contained isSpan inside (.inl goes)
    cases led with
    | stays goes same => exact same ▸ goesOn goes
    | subroutine scope _ goes returns entered =>
      rw [entered]
      exact ⟨nofun, goesOn returns⟩
    | calls callee scope isCall isCallee _ starts returns entered =>
      rw [entered]
      refine ⟨fun _ => ⟨⟨span, isSpan, returns⟩, .inr ⟨callee, isCallee, ?_, here.next, rfl, ?_⟩⟩, goesOn returns⟩
      · exact starts ▸ ⟨Nat.le_refl _, (contained.filled callee isCallee).1⟩
      · obtain ⟨op, locus⟩ := instruction
        obtain ⟨target, rfl⟩ : ∃ target, op = .call target := isCall
        obtain ⟨place, _, rfl, rfl⟩ := leads
        exact ⟨locus, starts ▸ found⟩
    | returns frame _ _ left back =>
      rw [left] at called
      exact back ▸ called.2
    | ends _ same behind => exact same ▸ called.move contained isSpan inside (.inr behind)

end Calling

section Advancing

variable {σ : Type} {setup : Setup σ} {machine after other : Machine σ} {op : Op}

theorem Machine.Advances.same (advances : machine.Advances setup after) (also : machine.Advances setup other) :
    after = other := congrArg Prod.snd (advances.2.symm.trans also.2)

theorem Machine.advances_by (last : σ → List (String × String) → List Notice → Machine σ)
    (goes : machine.phase = .idle ∨ machine.phase = .running)
    (calm : (Run.ready setup machine).frames = machine.frames) (fetches : machine.image.Fetches machine.next op)
    (executes : ∀ world events notices, (Run.execute setup op).on
      { machine with world, events, notices, phase := .running, next := machine.next + 1 } =
        (.ok (), last world events notices)) :
    ∃ world events notices, machine.Advances setup
      (if (last world events notices).image.instructions.size ≤ (last world events notices).next ∧
          (last world events notices).phase = .running then (last world events notices).setPhase .finished
        else last world events notices) := by
  obtain ⟨world, events, notices, ready⟩ := ready_calm calm
  obtain ⟨locus, found⟩ := fetches
  refine ⟨world, events, notices, calm, ?_⟩
  rw [Run.on_step_ready goes, ready, found]
  dsimp only
  rw [executes]

end Advancing

section Leaving

variable {σ : Type} {setup : Setup σ} {image : Image} {spans : List Span} {span : Span} {machine after : Machine σ}
  {frame : Frame} {rest : List Frame}

def Span.Leaves (span : Span) (place count : Nat) : Prop :=
  place = span.exit ∧ count = span.routine.results + 1 ∨
    (∃ target : ExitTarget, target.leaves = true ∧ (place, Stmt.exit target) ∈ span.places) ∧
      count = span.routine.results + 2

def Machine.variableValue (machine : Machine σ) (name : String) : Value :=
  (machine.ensureVariable name).2.store.read (machine.ensureVariable name).1

def Span.results (span : Span) (machine : Machine σ) : List StackItem :=
  if span.routine.kind = .function then [.value (machine.variableValue span.routine.name)] else []

structure Machine.Left (machine : Machine σ) (span : Span) (frame : Frame) (rest : List Frame) (after : Machine σ) : Prop where
  image : after.image = machine.image
  next : after.next = frame.returnTo
  frames : after.frames = rest
  stack : after.stack = span.results machine ++ machine.stack
  phase : frame.returnTo < machine.image.instructions.size → after.phase = .running

def Machine.GoesTo (setup : Setup σ) (count : Nat) (holds : Machine σ → Prop) (machine : Machine σ) : Prop :=
  (∀ early < count, ∀ between, Goes setup early machine between →
      (Run.ready setup between).frames = between.frames → ∃ after, between.Advances setup after) ∧
    ∀ after, Goes setup count machine after → holds after

theorem Machine.goes_nowhere {holds : Machine σ → Prop} (held : holds machine) : machine.GoesTo setup 0 holds := by
  refine ⟨fun early none => absurd none (Nat.not_lt_zero _), fun after goes => ?_⟩
  cases goes
  exact held

theorem Machine.goes_further {count : Nat} {holds : Machine σ → Prop}
    (first : (Run.ready setup machine).frames = machine.frames →
      ∃ after, machine.Advances setup after ∧ after.GoesTo setup count holds) :
    machine.GoesTo setup (count + 1) holds := by
  refine ⟨fun early fewer between goes calm => ?_, fun after goes => ?_⟩
  · cases goes with
    | refl =>
      obtain ⟨after, advances, -⟩ := first calm
      exact ⟨after, advances⟩
    | head advances goes =>
      obtain ⟨after, same, rest⟩ := first advances.1
      obtain rfl := advances.same same
      exact rest.1 _ (Nat.lt_of_succ_lt_succ fewer) between goes calm
  · cases goes with
    | head advances goes =>
      obtain ⟨between, same, rest⟩ := first advances.1
      obtain rfl := advances.same same
      exact rest.2 after goes

variable {count place : Nat}

theorem Machine.goes_through_jump {holds : Machine σ → Prop} (goes : machine.phase = .idle ∨ machine.phase = .running)
    (fetches : machine.image.Fetches machine.next (.jump (.resolved place)))
    (inside : place < machine.image.instructions.size)
    (rest : ∀ world events notices,
      GoesTo setup count holds { machine with world, events, notices, phase := .running, next := place }) :
    machine.GoesTo setup (count + 1) holds := by
  refine goes_further fun calm => ?_
  obtain ⟨world, events, notices, advances⟩ :=
    advances_by (fun world events notices => { machine with world, events, notices, phase := .running, next := place })
      goes calm fetches fun _ _ _ => rfl
  rw [if_neg fun past => Nat.not_le_of_lt inside past.1] at advances
  exact ⟨_, advances, rest world events notices⟩

theorem Machine.goes_through_variable {holds : Machine σ → Prop} {name : String}
    (goes : machine.phase = .idle ∨ machine.phase = .running)
    (fetches : machine.image.Fetches machine.next (.pushValue name))
    (inside : machine.next + 1 < machine.image.instructions.size)
    (rest : ∀ world events notices scopes store, GoesTo setup count holds
      { machine with
        world, events, notices, scopes, store, phase := .running, next := machine.next + 1
        stack := .value (machine.variableValue name) :: machine.stack }) :
    machine.GoesTo setup (count + 1) holds := by
  refine goes_further fun calm => ?_
  let started world events notices : Machine σ :=
    { machine with world, events, notices, phase := .running, next := machine.next + 1 }
  have ensured (world : σ) (events : List (String × String)) (notices : List Notice) : ∃ scopes store,
      (Run.execute setup (.pushValue name)).on (started world events notices) = (.ok (),
        { started world events notices with
          scopes, store, stack := .value (machine.variableValue name) :: machine.stack }) := by
    rw [Run.execute, Run.on_seq (Run.on_variable name _), Run.on_seq (Run.on_read _ _), Run.on_push, variableValue,
      ensureVariable, ensureVariable]
    have same : (started world events notices).lookup? name = machine.lookup? name := rfl
    rw [same]
    cases machine.lookup? name <;> exact ⟨_, _, rfl⟩
  choose scopes store ensured using ensured
  obtain ⟨world, events, notices, advances⟩ := advances_by _ goes calm fetches ensured
  rw [if_neg fun past => Nat.not_le_of_lt inside past.1] at advances
  exact ⟨_, advances, rest world events notices _ _⟩

theorem Machine.goes_by_return {holds : Machine σ → Prop} (goes : machine.phase = .idle ∨ machine.phase = .running)
    (fetches : machine.image.Fetches machine.next .ret) (top : machine.frames = frame :: rest) (isInner : rest ≠ [])
    (returned : ∀ world events notices scopes phase,
      (frame.returnTo < machine.image.instructions.size → phase = .running) →
      holds { machine with world, events, notices, scopes, phase, next := frame.returnTo, frames := rest }) :
    machine.GoesTo setup 1 holds := by
  obtain ⟨outer, rest, rfl⟩ := List.exists_cons_of_ne_nil isInner
  refine goes_further fun calm => ?_
  let returns world events notices : Machine σ :=
    { machine with
      world, events, notices, phase := .running, next := frame.returnTo, frames := outer :: rest
      scopes := if frame.kind = .call then machine.scopes.pop else machine.scopes }
  obtain ⟨world, events, notices, advances⟩ := advances_by returns goes calm fetches
    fun world events notices => by
      rw [Run.execute, Run.ret, Run.on_seq (Run.on_get _)]
      dsimp only
      rw [top]
      rfl
  refine ⟨_, advances, goes_nowhere ?_⟩
  split
  · next past =>
    obtain ⟨notices, finished⟩ := (returns world events notices).set_phase_only .finished
    rw [finished]
    exact returned world events notices _ _ fun below => absurd past.1 (Nat.not_le_of_lt below)
  · exact returned world events notices _ _ fun _ => rfl

theorem Machine.goes_from_end (exits : machine.image.Exits span) (below : span.stop ≤ machine.image.instructions.size)
    (atEnd : machine.next = span.exit) (goes : machine.phase = .idle ∨ machine.phase = .running)
    (top : machine.frames = frame :: rest) (isInner : rest ≠ []) :
    machine.GoesTo setup (span.routine.results + 1) (machine.Left span frame rest) := by
  have stop := exits.stop
  by_cases isFunction : span.routine.kind = .function
  · have one : span.routine.results = 1 := if_pos isFunction
    rw [one] at stop ⊢
    refine goes_through_variable goes (atEnd ▸ exits.result isFunction) (by omega) fun _ _ _ _ _ => ?_
    refine goes_by_return (.inr rfl) ?_ top isInner fun _ _ _ _ phase running => ?_
    · have last : machine.next + 1 = span.stop - 1 := by omega
      exact last ▸ exits.returns
    · refine ⟨rfl, rfl, rfl, ?_, running⟩
      rw [Span.results, if_pos isFunction]
      rfl
  · have none : span.routine.results = 0 := if_neg isFunction
    have last : machine.next = span.stop - 1 := by omega
    rw [none]
    refine goes_by_return goes (last ▸ exits.returns) top isInner fun _ _ _ _ phase running => ?_
    refine ⟨rfl, rfl, rfl, ?_, running⟩
    rw [Span.results, if_neg isFunction]
    rfl

theorem Machine.goes_out (setup : Setup σ) (exits : machine.image.Exits span)
    (below : span.stop ≤ machine.image.instructions.size)
    (leaves : span.Leaves machine.next count) (goes : machine.phase = .idle ∨ machine.phase = .running)
    (top : machine.frames = frame :: rest) (isInner : rest ≠ []) :
    machine.GoesTo setup count (machine.Left span frame rest) := by
  obtain ⟨atEnd, rfl⟩ | ⟨⟨target, leaves, isExit⟩, rfl⟩ := leaves
  · exact goes_from_end exits below atEnd goes top isInner
  · have stop := exits.stop
    refine goes_through_jump goes (exits.jumps _ target isExit leaves) (by omega) fun world events notices => ?_
    let jumped : Machine σ := { machine with world, events, notices, phase := .running, next := span.exit }
    have rest : jumped.GoesTo setup _ (jumped.Left span frame rest) := goes_from_end exits below rfl (.inr rfl) top isInner
    have same : span.results jumped = span.results machine := by
      have value (name : String) : jumped.variableValue name = machine.variableValue name := by
        have looked : jumped.lookup? name = machine.lookup? name := rfl
        rw [variableValue, variableValue, ensureVariable, ensureVariable, looked]
        cases machine.lookup? name <;> rfl
      rw [Span.results, Span.results, value]
    exact ⟨rest.1, fun after goes => { rest.2 after goes with stack := same ▸ (rest.2 after goes).stack }⟩

theorem Span.Leaves.inside (contained : image.Contained spans) (exits : image.Exits span)
    (leaves : span.Leaves machine.next count) (isSpan : span ∈ spans)
    (nested : Nested spans image.instructions.size machine.next machine.frames) : span.Has machine.next := by
  have first := exits.first
  have stop := exits.stop
  have inside : span.Has span.exit := ⟨first, by omega⟩
  obtain ⟨atEnd, -⟩ | ⟨⟨target, leaves, isExit⟩, -⟩ := leaves
  · exact atEnd ▸ inside
  · obtain ⟨locus, found⟩ := exits.jumps _ target isExit leaves
    obtain ⟨home, isHome, inHome⟩ := nested.routine (Array.getElem?_eq_some_iff.mp found).1
    obtain ⟨next, isNext, goes⟩ := contained.aims home isHome _ _ inHome found _ List.mem_cons_self
    cases isNext
    exact contained.one_span isHome isSpan goes inside ▸ inHome

/-- While an accepted program runs, whatever the host does, the end of a procedure and each of its `EXIT` statements lead
behind the call of the activation, with the frame of the caller on top and the result of a function pushed, exactly if no
subroutine is open in the activation and no event is handled. Otherwise only the innermost of these is left. -/
theorem procedures_are_left_by_one_frame (source : String) (registry : Registry) (program : Program) (image : Image)
    (parsed : parse (tokenize source).1 = .ok program) (quiet : (program.check registry).diagnostics = [])
    (coded : (program.check registry).program.image (program.check registry).symbols registry = .ok image) :
    ∃ spans, (program.check registry).program.layout? (program.check registry).symbols registry = some spans ∧
      ∀ (σ : Type) (setup : Setup σ) (world : σ) (calls : List HostCall), (∀ call ∈ calls, ∀ other, call ≠ .load other) →
        let machine := (Machine.create world).afterAll setup (.load image :: calls)
        machine.phase = .idle ∨ machine.phase = .running →
        ∀ span ∈ spans, ∀ count above frame rest, span.routine.kind ≠ .main → span.Leaves machine.next count →
          machine.frames = above ++ frame :: rest → frame.kind = .call →
          ((∀ other ∈ above, other.kind = .gosub) →
              ∃ caller, frame.returnTo = caller + 1 ∧ image.Fetches caller (.call (.resolved span.first))) ∧
            machine.GoesTo setup count fun after =>
              (machine.Left span frame rest after ∧ after.phase = .running ↔ above = []) ∧
                ∀ top others, above = top :: others → machine.Left span top (others ++ frame :: rest) after := by
  obtain ⟨spans, isLayout⟩ := Program.layout_of_image coded
  have accepted := Program.check_accepted (parse_well_formed (tokenize_lexed source) parsed) quiet
  have contained := accepted.contained coded isLayout
  refine ⟨spans, isLayout, ?_⟩
  intro σ setup world calls sameImage machine goes span isSpan count above frame rest isProcedure leaves frames isCall
  have carried : machine.Carried image spans (CalledFrom image spans) :=
    Machine.loaded_carries setup contained contained.called ⟨nofun, trivial⟩ world sameImage
  have nested : Nested spans image.instructions.size machine.next machine.frames :=
    (carried.nested (Run.going_alive goes)).nested
  have called := carried.held (Run.going_alive goes)
  have exits : machine.image.Exits span := by
    rw [carried.loaded]
    exact Program.image_exits coded isLayout span isSpan isProcedure
  have below : span.stop ≤ machine.image.instructions.size := by
    rw [carried.loaded]
    exact (contained.filled span isSpan).2
  have inside := leaves.inside contained (carried.loaded ▸ exits) isSpan nested
  rw [frames] at nested called
  refine ⟨fun subroutines => called.caller contained nested isSpan inside subroutines isCall, ?_⟩
  cases above with
  | nil =>
    have isInner := nested.caller_frames contained isSpan inside isCall
    obtain ⟨certain, leads⟩ := Machine.goes_out setup exits below leaves goes frames isInner
    refine ⟨certain, fun after behind => ⟨iff_of_true ⟨leads after behind, ?_⟩ rfl, nofun⟩⟩
    obtain ⟨home, isHome, returns⟩ := (called.1 isCall).1
    refine (leads after behind).phase ?_
    rw [carried.loaded]
    exact Nat.lt_of_lt_of_le returns.2 (contained.filled home isHome).2
  | cons top others =>
    have isInner : others ++ frame :: rest ≠ [] := by simp
    obtain ⟨certain, leads⟩ := Machine.goes_out setup exits below leaves goes frames isInner
    refine ⟨certain, fun after behind => ⟨iff_of_false (fun ⟨left, _⟩ => ?_) nofun, fun _ _ same => ?_⟩⟩
    · have same := congrArg List.length (left.frames.symm.trans (leads after behind).frames)
      simp only [List.append_eq, List.length_append, List.length_cons] at same
      omega
    · cases same
      exact leads after behind

end Leaving

def sampleLeaving : String :=
  "PRINT F(3)\nEND\nFUNCTION F(X)\nF = X\nGOSUB L\nF = X + 1\nEXIT FUNCTION\nL: EXIT FUNCTION\nEND FUNCTION\n"

def afterSteps (image : Image) (count : Nat) : Machine Bench :=
  (Machine.create Bench.empty).afterAll (.ofDevices Bench.bare .standard) (.load image :: List.replicate count .step)

def sampleCall : Frame := ⟨.call, 2, 1⟩

section Going

variable {σ : Type}

def Machine.going (setup : Setup σ) : Nat → Machine σ → Option (Machine σ)
  | 0, machine => some machine
  | count + 1, machine =>
    if (Run.ready setup machine).frames = machine.frames then
      match (Run.step setup).on machine with
      | (.ok true, after) => going setup count after
      | _ => none
    else none

theorem Machine.going_goes {setup : Setup σ} {count : Nat} {machine after : Machine σ}
    (going : machine.going setup count = some after) : Goes setup count machine after := by
  induction count generalizing machine with
  | zero =>
    exact Option.some.inj going ▸ .refl machine
  | succ count ih =>
    rw [Machine.going] at going
    split at going
    · next calm =>
      split at going
      · next between stepped => exact .head ⟨calm, stepped⟩ (ih going)
      · cases going
    · cases going

end Going

def Stmt.leaves : Stmt → Bool
  | .exit target => target.leaves
  | _ => false

def leadsTo (count : Nat) (frames : List Frame) (place : Nat) (outer : List Frame) (image : Image) (span : Span) : Bool :=
  span.routine.kind = .function ∧
    (span.places.any fun listed => listed.1 = (afterSteps image count).next ∧ listed.2.leaves) ∧
    (afterSteps image count).phase = .running ∧ (afterSteps image count).frames = frames ∧
    ((afterSteps image count).going (.ofDevices Bench.bare .standard) 3).any fun after =>
      after.next = place ∧ after.frames = outer

theorem exists_leading (count : Nat) (frames : List Frame) (place : Nat) (outer : List Frame)
    (seen : (parse (tokenize sampleLeaving).1).toOption.any (fun program =>
      decide ((program.check .standard).diagnostics = [] ∧
        ((program.check .standard).program.image (program.check .standard).symbols .standard).toOption.any fun image =>
          ((program.check .standard).program.layout? (program.check .standard).symbols .standard).any fun spans =>
            spans.any (leadsTo count frames place outer image))) = true) :
    ∃ program image spans, parse (tokenize sampleLeaving).1 = .ok program ∧ (program.check .standard).diagnostics = [] ∧
      (program.check .standard).program.image (program.check .standard).symbols .standard = .ok image ∧
      (program.check .standard).program.layout? (program.check .standard).symbols .standard = some spans ∧
      ∃ span ∈ spans, span.routine.kind = .function ∧ span.Leaves (afterSteps image count).next 3 ∧
        (afterSteps image count).phase = .running ∧ (afterSteps image count).frames = frames ∧
        ∃ after, (afterSteps image count).Goes (.ofDevices Bench.bare .standard) 3 after ∧
          after.next = place ∧ after.frames = outer := by
  obtain ⟨program, parsed, quiet, leads⟩ := exists_parsed sampleLeaving _ seen
  obtain ⟨image, coded, leads⟩ := (Option.any_eq_true _ _).mp leads
  obtain ⟨spans, isLayout, leads⟩ := (Option.any_eq_true _ _).mp leads
  obtain ⟨span, isSpan, leads⟩ := List.any_eq_true.mp leads
  obtain ⟨isFunction, isExit, running, isFrames, leads⟩ := of_decide_eq_true leads
  obtain ⟨after, going, leads⟩ := (Option.any_eq_true _ _).mp leads
  obtain ⟨⟨here, stmt⟩, listed, leaves⟩ := List.any_eq_true.mp isExit
  obtain ⟨isPlace, leaves⟩ := of_decide_eq_true leaves
  refine ⟨program, image, spans, parsed, quiet, ?_, isLayout, span, isSpan, isFunction, ?_, running, isFrames,
    after, Machine.going_goes going, of_decide_eq_true leads⟩
  · cases result : (program.check .standard).program.image (program.check .standard).symbols .standard with
    | error error =>
      rw [result] at coded
      cases coded
    | ok other =>
      rw [result] at coded
      exact congrArg Except.ok (Option.some.inj coded)
  · cases stmt with
    | exit target =>
      refine .inr ⟨⟨target, leaves, isPlace ▸ listed⟩, ?_⟩
      rw [Routine.results, if_pos isFunction]
    | _ => cases leaves

theorem function_is_left_to_caller : ∃ program image spans,
    parse (tokenize sampleLeaving).1 = .ok program ∧ (program.check .standard).diagnostics = [] ∧
      (program.check .standard).program.image (program.check .standard).symbols .standard = .ok image ∧
      (program.check .standard).program.layout? (program.check .standard).symbols .standard = some spans ∧
      ∃ span ∈ spans, span.routine.kind = .function ∧ span.Leaves (afterSteps image 16).next 3 ∧
        (afterSteps image 16).frames = [sampleCall, Machine.mainFrame] ∧
        ∃ after, (afterSteps image 16).Goes (.ofDevices Bench.bare .standard) 3 after ∧
          (afterSteps image 16).Left span sampleCall [Machine.mainFrame] after ∧ after.phase = .running := by
  obtain ⟨program, image, spans, parsed, quiet, coded, isLayout, span, isSpan, isFunction, leaves, running, frames,
      after, goes, -⟩ :=
    exists_leading 16 [sampleCall, Machine.mainFrame] 2 [Machine.mainFrame] (by decide +kernel)
  obtain ⟨others, isOther, left⟩ := procedures_are_left_by_one_frame sampleLeaving .standard program image parsed quiet coded
  obtain rfl : others = spans := Option.some.inj (isOther.symm.trans isLayout)
  have leads := (left Bench (.ofDevices Bench.bare .standard) Bench.empty (List.replicate 16 .step) (by simp) (.inr running)
    span isSpan 3 [] sampleCall [Machine.mainFrame] (by simp [isFunction]) leaves frames rfl).2
  obtain ⟨behind, running⟩ := (leads.2 after goes).1.mpr rfl
  exact ⟨program, image, others, parsed, quiet, coded, isLayout, span, isSpan, isFunction, leaves, frames, after, goes,
    behind, running⟩

theorem function_is_not_left_from_subroutine : ∃ program image spans,
    parse (tokenize sampleLeaving).1 = .ok program ∧ (program.check .standard).diagnostics = [] ∧
      (program.check .standard).program.image (program.check .standard).symbols .standard = .ok image ∧
      (program.check .standard).program.layout? (program.check .standard).symbols .standard = some spans ∧
      ∃ span ∈ spans, span.routine.kind = .function ∧ span.Leaves (afterSteps image 8).next 3 ∧
        (afterSteps image 8).phase = .running ∧
        (afterSteps image 8).frames = [⟨.gosub, 13, 1⟩, sampleCall, Machine.mainFrame] ∧
        ∃ after, (afterSteps image 8).Goes (.ofDevices Bench.bare .standard) 3 after ∧
          after.next ≠ sampleCall.returnTo ∧ after.frames ≠ [Machine.mainFrame] := by
  obtain ⟨program, image, spans, parsed, quiet, coded, isLayout, span, isSpan, isFunction, leaves, running, frames, after,
      goes, next, inner⟩ :=
    exists_leading 8 [⟨.gosub, 13, 1⟩, sampleCall, Machine.mainFrame] 13 [sampleCall, Machine.mainFrame] (by decide +kernel)
  exact ⟨program, image, spans, parsed, quiet, coded, isLayout, span, isSpan, isFunction, leaves, running, frames, after,
    goes, by rw [next]; decide, by rw [inner]; decide⟩

end BasicLang
