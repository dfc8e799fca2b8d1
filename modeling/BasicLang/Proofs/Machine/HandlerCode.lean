import BasicLang.Proofs.Machine.Activations
import BasicLang.Proofs.Machine.Ending
import BasicLang.Proofs.Machine.FrameStack
import BasicLang.Proofs.Machine.Routing
import BasicLang.Proofs.NameResolution

set_option autoImplicit false

namespace BasicLang

def inHandler : List Frame → Bool
  | [] => false
  | frame :: rest => frame.kind == .event || frame.kind == .gosub && inHandler rest

def Handled (allowed : Nat → Prop) : Nat → List Frame → Prop
  | _, [] => True
  | place, frame :: rest => (inHandler (frame :: rest) = true → allowed place) ∧ Handled allowed frame.returnTo rest

def Op.declares : Op → Bool
  | .onEvent _ => true
  | _ => false

def Span.Declares (image : Image) (span : Span) : Prop :=
  ∃ place < span.stop, span.first ≤ place ∧ image.instructions[place]?.any (·.op.declares) = true

instance (image : Image) (span : Span) : Decidable (span.Declares image) :=
  inferInstanceAs (Decidable (∃ place < span.stop, _))

def Image.Handling (image : Image) (spans : List Span) (place : Nat) : Prop :=
  place = image.instructions.size ∨ ∃ span ∈ spans, span.Has place ∧ span.Declares image

section Handling

variable {allowed : Nat → Prop} {image : Image} {spans : List Span} {span : Span} {place next : Nat}
  {frames later : List Frame} {op : Op}

theorem Handled.here (handled : Handled allowed place frames) (handles : inHandler frames = true) : allowed place := by
  cases frames with
  | nil => cases handles
  | cons frame rest => exact handled.1 handles

theorem Handled.move (handled : Handled allowed place frames) (goes : inHandler frames = true → allowed next) :
    Handled allowed next frames := by
  cases frames with
  | nil => trivial
  | cons frame rest => exact ⟨goes, handled.2⟩

theorem Handled.enter {frame : Frame} (handled : Handled allowed frame.returnTo frames)
    (goes : inHandler (frame :: frames) = true → allowed next) : Handled allowed next (frame :: frames) := ⟨goes, handled⟩

theorem Handled.routine (contained : image.Contained spans) (handled : Handled (image.Handling spans) place frames)
    (isSpan : span ∈ spans) (inside : span.Has place) (handles : inHandler frames = true) (goes : span.Has next) :
    image.Handling spans next := by
  rcases handled.here handles with ended | ⟨other, isOther, inOther, declares⟩
  · exact absurd ended (contained.before_end isSpan inside)
  · obtain rfl := contained.one_span isSpan isOther inside inOther
    exact .inr ⟨span, isSpan, goes, declares⟩

theorem Handled.lead (contained : image.Contained spans) (handled : Handled (image.Handling spans) place frames)
    (isSpan : span ∈ spans) (inside : span.Has place)
    (leads : span.Leads spans image.instructions.size op place frames next later) :
    Handled (image.Handling spans) next later := by
  have goesOn {other : Nat} (goes : span.Has other) : Handled (image.Handling spans) other frames :=
    handled.move fun handles => handled.routine contained isSpan inside handles goes
  cases leads with
  | stays goes same =>
    rw [same]
    exact goesOn goes
  | subroutine scope _ goes returns entered =>
    rw [entered]
    apply Handled.enter (goesOn returns)
    intro handles
    exact handled.routine contained isSpan inside (by simpa [inHandler] using handles) goes
  | calls callee scope _ _ _ _ returns entered =>
    rw [entered]
    apply Handled.enter (goesOn returns)
    simp [inHandler]
  | returns frame _ _ left back =>
    rw [left] at handled
    rw [back]
    exact handled.2
  | ends _ same behind =>
    rw [same, behind]
    exact handled.move fun _ => .inl rfl

theorem Nested.has_frames {size : Nat} (nested : Nested spans size place frames) : frames ≠ [] := by
  induction nested with
  | ended _ _ _ ih => exact ih
  | _ => simp

theorem Nested.interrupts {size : Nat} (nested : Nested spans size place frames) (handles : inHandler frames = true) :
    1 < frames.length := by
  have inner {frame : Frame} {rest : List Frame} (some : rest ≠ []) : 1 < (frame :: rest).length := by
    rw [List.length_cons]
    exact Nat.succ_lt_succ (List.length_pos_of_ne_nil some)
  induction nested with
  | main => simp [inHandler, Machine.mainFrame] at handles
  | call _ _ _ _ _ _ _ _ caller _ => exact inner caller.has_frames
  | gosub _ _ _ _ _ _ _ _ outer _ => exact inner outer.has_frames
  | event _ _ _ _ _ _ _ interrupted _ => exact inner interrupted.has_frames
  | ended _ _ _ ih => exact ih handles

end Handling

structure Machine.Handles {σ : Type} (image : Image) (spans : List Span) (machine : Machine σ) : Prop
    extends machine.Nests image spans where
  declared : machine.phase ≠ .failed → ∀ key place, machine.handlers.get? key = some place →
    ∃ span ∈ spans, span.Has place ∧ span.Declares image
  handled : Handled (image.Handling spans) machine.next machine.frames

namespace Run

variable {σ α β : Type} {setup : Setup σ} {image : Image} {spans : List Span} {machine : Machine σ}

section Failing

def FailsInPlace (action : Run σ α) (machine : Machine σ) : Prop :=
  ∀ error after, action.on machine = (.error error, after) → after.control = machine.control

theorem fails_stays {action : Run σ α} (stays : Stays Machine.control action) : FailsInPlace action machine := by
  intro error after failed
  have stayed := stays machine.control machine rfl
  rw [Meets, failed] at stayed
  exact stayed

theorem fails_then {first : Run σ α} {next : α → Run σ β} (stays : Stays Machine.control first)
    (rest : ∀ value after, after.control = machine.control → FailsInPlace (next value) after) :
    FailsInPlace (first >>= next) machine := by
  intro error after failed
  have stayed := stays machine.control machine rfl
  rw [Meets] at stayed
  rw [on_bind] at failed
  cases ran : first.on machine with
  | mk result between =>
    rw [ran] at stayed failed
    cases result with
    | error other =>
      cases failed
      exact stayed
    | ok value => exact (rest value between stayed.1 error after failed).trans stayed.1

theorem fails_jump (place : Nat) : FailsInPlace (jump (.resolved place)) machine :=
  fun _ _ failed => nomatch failed

theorem fails_jump_if {condition : Prop} [Decidable condition] (place : Nat) :
    FailsInPlace (if condition then jump (.resolved place) else pure () : Run σ Unit) machine := by
  split
  · exact fails_jump place
  · exact fails_stays (stays_value ())

theorem fails_enter {kind : FrameKind} {scope place : Nat} {between : Run σ Unit}
    (succeeds : ∀ machine : Machine σ, ∃ after, between.on machine = (.ok (), after)) :
    FailsInPlace (do enter setup kind scope; between; jump (.resolved place)) machine := by
  intro error after failed
  rw [on_bind, enter, on_seq (on_get machine)] at failed
  by_cases full : setup.maxDepth ≤ machine.frames.length
  · rw [if_pos full] at failed
    cases failed
    rfl
  · obtain ⟨last, ran⟩ := succeeds { machine with frames := ⟨kind, machine.next, scope⟩ :: machine.frames }
    rw [if_neg full, on_modify] at failed
    dsimp only at failed
    rw [on_seq ran] at failed
    cases failed

/-- An operation without labels that fails leaves the machine where it was. Nothing goes on behind `RET`, but that fails
only in the main routine. -/
theorem execute_fails {op : Op} {error : RuntimeError} {after : Machine σ}
    (failed : (execute setup op).on machine = (.error error, after)) (waitsNot : machine.pending = none)
    (resolved : ∀ target, op.address? = some target → ∃ place, target = .resolved place) :
    after.control = machine.control ∧ (op.fallsThrough = true ∨ machine.frames.length ≤ 1) := by
  have value : Stays Machine.control (popValue : Run σ Value) := stays_pop_value aside_control
  have number : Stays Machine.control (popNumber : Run σ Float) := stays_pop_number aside_control
  have behind (falls : op.fallsThrough = true) (fails : FailsInPlace (execute setup op) machine) :
      after.control = machine.control ∧ (op.fallsThrough = true ∨ machine.frames.length ≤ 1) :=
    ⟨fails error after failed, .inl falls⟩
  cases op with
  | jump target =>
    obtain ⟨place, rfl⟩ := resolved target rfl
    cases failed
  | jumpIfZero target | jumpIfNonzero target =>
    obtain ⟨place, rfl⟩ := resolved target rfl
    exact behind rfl (fails_then value fun _ _ _ => fails_jump_if place)
  | forLoop target =>
    obtain ⟨place, rfl⟩ := resolved target rfl
    exact behind rfl (fails_then number fun _ _ _ => fails_then number fun _ _ _ => fails_then number fun _ _ _ =>
      fails_jump_if place)
  | call target =>
    obtain ⟨place, rfl⟩ := resolved target rfl
    exact behind rfl (fails_then stays_get fun _ _ _ => fails_enter fun _ => ⟨_, rfl⟩)
  | gosub target =>
    obtain ⟨place, rfl⟩ := resolved target rfl
    have entered (scope : Nat) (machine : Machine σ) :
        FailsInPlace (do enter setup .gosub scope; pure (); jump (.resolved place)) machine := fails_enter fun _ => ⟨_, rfl⟩
    exact behind rfl (fails_then stays_get fun _ after _ => entered _ after)
  | ret =>
    rw [execute, ret, on_seq (on_get machine)] at failed
    cases frames : machine.frames with
    | nil =>
      rw [frames] at failed
      cases failed
      exact ⟨rfl, .inr (Nat.zero_le _)⟩
    | cons frame others =>
      rw [frames] at failed
      cases others with
      | nil =>
        cases failed
        exact ⟨rfl, .inr (Nat.le_refl _)⟩
      | cons outer rest => cases failed
  | stop =>
    obtain ⟨last, succeeded, -⟩ := on_end waitsNot
    rw [succeeded] at failed
    cases failed
  | syscall name =>
    have ended := ends_syscall (preserved_control machine.control) (awaited_control _) setup setup.devices.within_any name
      (fun _ _ _ held => held) (fun _ _ _ _ held => held) (fun _ _ => trivial) machine rfl
    rw [execute] at failed
    rw [Meets, failed] at ended
    exact ⟨ended, .inl rfl⟩
  | onEvent target =>
    obtain ⟨place, rfl⟩ := resolved target rfl
    apply behind rfl
    apply fails_then (stays_pop_text aside_control)
    intro key between _ error last never
    cases never
  | _ => exact behind rfl (fails_stays (computing_stays aside_control setup rfl (fun _ _ _ => rfl) fun _ _ _ => rfl))

theorem step_fails_behind (resolved : image.Resolved) (loaded : machine.image = image) (orderly : machine.Orderly)
    (goes : machine.phase = .idle ∨ machine.phase = .running) (failed : ((step setup).on machine).2.phase = .failed) :
    ∃ instruction, image.instructions[(ready setup machine).next]? = some instruction ∧
      ((step setup).on machine).2.next = (ready setup machine).next + 1 ∧
      ((step setup).on machine).2.frames = (ready setup machine).frames ∧
      (instruction.op.fallsThrough = true ∨ (ready setup machine).frames.length ≤ 1) := by
  obtain ⟨running, pending, sameImage⟩ := ready_waits setup machine
  have waitsNot : (ready setup machine).pending = none := by
    refine pending.trans (orderly.waits_not fun suspended => ?_)
    simp [suspended] at goes
  rw [on_step_ready goes, sameImage, loaded] at failed ⊢
  cases found : image.instructions[(ready setup machine).next]? with
  | none =>
    rw [found] at failed
    dsimp only at failed
    rw [set_phase_phase] at failed
    cases failed
  | some instruction =>
    rw [found] at failed
    dsimp only at failed ⊢
    have moved := execute_moves setup instruction.op { ready setup machine with next := (ready setup machine).next + 1 }
    rw [Meets] at moved
    cases ran : (execute setup instruction.op).on { ready setup machine with next := (ready setup machine).next + 1 } with
    | mk result after =>
      rw [ran] at failed moved
      cases result with
      | error error =>
        have targets (target : Target) (isTarget : instruction.op.address? = some target) :
            ∃ place, target = .resolved place := by
          obtain ⟨place, -, same⟩ := resolved.code instruction (Array.mem_of_getElem? found) target isTarget
          exact ⟨place, same⟩
        obtain ⟨same, falls⟩ := execute_fails ran waitsNot targets
        exact ⟨instruction, rfl, congrArg Control.next same, congrArg Control.frames same, falls⟩
      | ok _ =>
        -- What succeeds runs, waits or has ended.
        dsimp only at failed
        have phase := lead_waits moved running waitsNot
        split at failed
        · rw [set_phase_phase] at failed
          cases failed
        · rcases phase with ⟨-, phase⟩ | ⟨-, phase⟩ <;> cases failed.symm.trans phase

end Failing

section Handling

theorem ready_handled (handles : machine.Handles image spans) (goes : machine.phase = .idle ∨ machine.phase = .running) :
    Handled (image.Handling spans) (ready setup machine).next (ready setup machine).frames := by
  obtain same | ⟨key, handler, found, same⟩ := ready_control setup machine
  · rw [show (ready setup machine).next = machine.next from congrArg Control.next same,
      show (ready setup machine).frames = machine.frames from congrArg Control.frames same]
    exact handles.handled
  · rw [show (ready setup machine).next = handler from congrArg Control.next same,
      show (ready setup machine).frames = ⟨.event, machine.next, 0⟩ :: machine.frames from congrArg Control.frames same]
    exact Handled.enter handles.handled fun _ => .inr (handles.declared (going_alive goes) key handler found)

theorem failed_handled (contained : image.Contained spans) (resolved : image.Resolved)
    (handles : machine.Handles image spans) (goes : machine.phase = .idle ∨ machine.phase = .running)
    (failed : ((step setup).on machine).2.phase = .failed) :
    Handled (image.Handling spans) ((step setup).on machine).2.next ((step setup).on machine).2.frames := by
  have started := ready_nests setup (handles.nested (going_alive goes))
  have handled : Handled (image.Handling spans) (ready setup machine).next (ready setup machine).frames :=
    ready_handled handles goes
  obtain ⟨instruction, found, behind, sameFrames, falls⟩ :=
    step_fails_behind resolved handles.loaded handles.orderly goes failed
  obtain ⟨span, isSpan, inside⟩ := started.nested.routine (Array.getElem?_eq_some_iff.mp found).1
  rw [behind, sameFrames]
  apply handled.move
  intro running
  have goesOn : instruction.op.fallsThrough = true :=
    falls.resolve_right (Nat.not_le_of_lt (started.nested.interrupts running))
  exact handled.routine contained isSpan inside running (contained.next_inside isSpan inside found goesOn)

theorem step_handles (contained : image.Contained spans) (resolved : image.Resolved) :
    Upholds (Machine.Handles image spans) (step setup) := by
  intro machine handles
  by_cases goes : machine.phase = .idle ∨ machine.phase = .running
  · have nests : ((step setup).on machine).2.Nests image spans := step_nests contained machine handles.toNests
    have started := ready_nests setup (handles.nested (going_alive goes))
    have declared : ∀ key place, (ready setup machine).handlers.get? key = some place →
        ∃ span ∈ spans, span.Has place ∧ span.Declares image := by
      rw [show (ready setup machine).handlers = machine.handlers by
        obtain same | ⟨_, _, -, same⟩ := ready_control setup machine <;> exact congrArg Control.handlers same]
      exact handles.declared (going_alive goes)
    have handled : Handled (image.Handling spans) (ready setup machine).next (ready setup machine).frames :=
      ready_handled handles goes
    have fails (failed : ((step setup).on machine).2.phase = .failed) :=
      failed_handled contained resolved handles goes failed
    generalize stepped : ((step setup).on machine).2 = after at nests fails ⊢
    obtain ⟨-, same⟩ | ⟨instruction, found, ⟨_, _, same⟩ | ⟨control, phase, leads, same⟩⟩ := step_control goes stepped
    · refine ⟨nests, fun _ => ?_, ?_⟩
      · rw [show after.handlers = (ready setup machine).handlers from congrArg Control.handlers same]
        exact declared
      · rw [show after.next = (ready setup machine).next from congrArg Control.next same,
          show after.frames = (ready setup machine).frames from congrArg Control.frames same]
        exact handled
    · have failed : after.phase = .failed := congrArg Control.phase same
      exact ⟨nests, fun alive => absurd failed alive, fails failed⟩
    · rw [handles.loaded] at found
      obtain ⟨span, isSpan, inside⟩ := started.nested.routine (Array.getElem?_eq_some_iff.mp found).1
      have led := contained.leads isSpan inside started.loaded found leads
      refine ⟨nests, fun _ => ?_, ?_⟩
      · rw [show after.handlers = control.handlers from congrArg Control.handlers same]
        refine leads.handlers_hold declared fun next isDeclaration => ?_
        obtain ⟨_, isNext, aimed⟩ := contained.aims span isSpan _ instruction inside found (.resolved next)
          (by simp [isDeclaration, Op.aims])
        have declares : image.instructions[(ready setup machine).next]?.any (·.op.declares) = true := by
          simp [found, isDeclaration, Op.declares]
        exact ⟨span, isSpan, Target.resolved.inj isNext ▸ aimed, _, inside.2, inside.1, declares⟩
      · rw [show after.next = control.next from congrArg Control.next same,
          show after.frames = control.frames from congrArg Control.frames same]
        exact handled.lead contained isSpan inside led
  · rw [on_step_still goes]
    exact handles

theorem resume_handles (reply : Except DeviceError Reply) :
    Upholds (Machine.Handles image spans) (resume reply : Run σ Unit) := by
  intro machine handles
  have nests : ((resume reply).on machine).2.Nests image spans := resume_nests reply machine handles.toNests
  cases waits : machine.pending with
  | none =>
    rw [on_resume_nothing waits]
    exact handles
  | some pending =>
    have alive : machine.phase ≠ .failed := by
      rw [handles.orderly.mp (by simp [waits])]
      simp
    obtain ⟨next, frames, handlers⟩ := resume_in_place reply machine
    refine ⟨nests, fun _ => ?_, ?_⟩
    · rw [handlers]
      exact handles.declared alive
    · rw [next, frames]
      exact handles.handled

theorem reset_handles (contained : image.Contained spans) (loaded : machine.image = image) :
    machine.reset.Handles image spans := by
  refine ⟨reset_nests contained loaded, fun _ _ _ found => (nomatch found), ?_⟩
  simp [Machine.reset, Handled, inHandler, Machine.mainFrame]

theorem call_handles (contained : image.Contained spans) (resolved : image.Resolved) {call : HostCall}
    (sameImage : ∀ other, call ≠ .load other) : Upholds (Machine.Handles image spans) (call.run setup) := by
  cases restarts : call.restarts with
  | false =>
    refine upholds_call (step_handles contained resolved) resume_handles (fun machine world events handles => ?_) restarts
    exact ⟨⟨handles.orderly, handles.loaded, handles.nested⟩, handles.declared, handles.handled⟩
  | true =>
    cases call with
    | load other => exact absurd rfl (sameImage other)
    | reset => exact fun _ handles => reset_handles contained handles.loaded
    | _ => cases restarts

end Handling

end Run

namespace Machine

variable {σ : Type} {image : Image} {spans : List Span} {machine : Machine σ}

theorem after_all_handles (setup : Setup σ) (contained : image.Contained spans) (resolved : image.Resolved)
    {calls : List HostCall} (handles : machine.Handles image spans)
    (sameImage : ∀ call ∈ calls, ∀ other, call ≠ .load other) : (machine.afterAll setup calls).Handles image spans :=
  after_all_holds setup (fun call inside => Run.call_handles contained resolved (sameImage call inside)) handles

-- A handler has the variables of the main routine, and so has what it enters by `GOSUB`.
theorem handler_scope {count : Nat} (stacked : Stacked machine.frames count)
    (handles : inHandler machine.frames = true) : machine.scope = 0 := by
  rw [scope]
  generalize machine.frames = frames at stacked handles
  induction stacked with
  | main => rfl
  | call => simp [inHandler] at handles
  | gosub returnTo stacked ih => exact ih (by simpa [inHandler] using handles)
  | event => rfl

theorem resolves_main (isMain : machine.scope = 0) (name : String) : machine.Resolves name 0 := by
  have home : machine.scopeOf name = 0 := by simp [scopeOf, isMain]
  exact home ▸ machine.resolves_scope_of name

end Machine

/-- While an accepted program handles an event, each name is one of the main routine, whichever routine the handler is
in. The code is that of a routine that declares handlers, which is the main one if no procedure does. -/
theorem handlers_run_where_declared (source : String) (registry : Registry) (program : Program) (image : Image)
    (parsed : parse (tokenize source).1 = .ok program) (compiled : compile source registry = .ok image) :
    ∃ spans, (program.check registry).program.layout? (program.check registry).symbols registry = some spans ∧
      ∀ (σ : Type) (setup : Setup σ) (world : σ) (history calls : List HostCall),
        (∀ call ∈ calls, ∀ other, call ≠ .load other) →
        let machine := (Machine.create world).afterAll setup (history ++ .load image :: calls)
        inHandler machine.frames = true →
          (machine.scope = 0 ∧ ∀ name, machine.Resolves name 0) ∧
          (machine.next = image.instructions.size ∨ ∃ span ∈ spans, span.Has machine.next ∧ span.Declares image) ∧
          ((∀ span ∈ spans, span.Declares image → span.routine.kind = .main) →
            machine.next = image.instructions.size ∨ ∃ main ∈ spans, main.routine.kind = .main ∧ main.Has machine.next) := by
  obtain ⟨quiet, coded⟩ := compile_inversion compiled parsed
  have accepted := Program.check_accepted (parse_well_formed (tokenize_lexed source) parsed) quiet
  obtain ⟨spans, isLayout⟩ := Program.layout_of_image coded
  have contained := accepted.contained coded isLayout
  refine ⟨spans, isLayout, ?_⟩
  intro σ setup world history calls sameImage machine handling
  have handles : machine.Handles image spans := by
    have loaded : ((HostCall.load image).after setup ((Machine.create world).afterAll setup history)).Handles image spans :=
      Run.reset_handles contained rfl
    have all := Machine.after_all_handles setup contained (Program.image_resolved coded) loaded sameImage
    rw [show machine = _ from Machine.after_all_append setup _ history (.load image :: calls)]
    exact all
  have framed : machine.Framed setup.maxDepth := Machine.after_all_framed setup (Machine.create_framed setup world) _
  -- A handler is entered above the frame of the main program, wherever the event finds the machine.
  have isMain := Machine.handler_scope framed.stacked handling
  have here := handles.handled.here handling
  refine ⟨⟨isMain, Machine.resolves_main isMain⟩, here, fun mainOnly => ?_⟩
  rcases here with ended | ⟨span, isSpan, inside, declares⟩
  · exact .inl ended
  · exact .inr ⟨span, isSpan, mainOnly span isSpan declares, inside⟩

theorem sample_handlers_run_where_declared : ∃ program image spans,
    parse (tokenize sampleDeep).1 = .ok program ∧ compile sampleDeep .standard = .ok image ∧
      (program.check .standard).program.layout? (program.check .standard).symbols .standard = some spans ∧
      inHandler (deepened image).frames = true ∧ (deepened image).Resolves "B" 0 ∧
      ∃ main ∈ spans, main.routine.kind = .main ∧ main.Has (deepened image).next := by
  obtain ⟨program, parsed, handling⟩ := exists_parsed sampleDeep
    (fun program => ((compile sampleDeep .standard).toOption.any fun image =>
      decide (inHandler (deepened image).frames = true ∧ (deepened image).next ≠ image.instructions.size ∧
        ((program.check .standard).program.layout? (program.check .standard).symbols .standard).all (fun spans =>
          decide (∀ span ∈ spans, span.Declares image → span.routine.kind = .main)) = true)) = true)
    (by decide +kernel)
  obtain ⟨image, compiled, handles, goesOn, mainOnly⟩ := exists_ok _ handling
  obtain ⟨spans, isLayout, runs⟩ := handlers_run_where_declared sampleDeep .standard program image parsed compiled
  obtain ⟨⟨-, resolves⟩, -, inMain⟩ := runs Bench { Setup.ofDevices Bench.bare .standard with maxDepth := 4 } Bench.empty []
    [.slice 3, .dispatch "k" "", .step] (by simp) handles
  rw [isLayout] at mainOnly
  exact ⟨program, image, spans, parsed, compiled, isLayout, handles, resolves "B",
    (inMain (of_decide_eq_true mainOnly)).resolve_left goesOn⟩

def sampleMisplaced : String :=
  "A = 5\nCALL S\nPRINT A\nEND\nSUB S\nON EVENT \"k\" GOSUB H\nEXIT SUB\nH: A = 1\nRETURN\nEND SUB\n"

def misplaced (image : Image) : Machine Bench :=
  (Machine.create Bench.empty).afterAll (.ofDevices Bench.bare .standard)
    [.load image, .slice 7, .dispatch "k" "", .step]

/-- The handler runs in the code of the procedure, with the variables of the main routine. -/
theorem handler_runs_in_procedure : ∃ program image spans,
    parse (tokenize sampleMisplaced).1 = .ok program ∧ compile sampleMisplaced .standard = .ok image ∧
      (program.check .standard).program.layout? (program.check .standard).symbols .standard = some spans ∧
      ((misplaced image).frames.map Frame.kind = [.event, .call, .main] ∧ (misplaced image).phase = .running) ∧
      (∃ span ∈ spans, span.routine.name = "S" ∧ span.Has (misplaced image).next) ∧
      (∀ main ∈ spans, main.routine.kind = .main → ¬main.Has (misplaced image).next) ∧
      (misplaced image).scopeOf "A" = 0 := by
  obtain ⟨program, parsed, handling⟩ := exists_parsed sampleMisplaced
    (fun program => ((compile sampleMisplaced .standard).toOption.any fun image =>
      decide ((misplaced image).frames.map Frame.kind = [.event, .call, .main] ∧ (misplaced image).phase = .running ∧
        (misplaced image).scopeOf "A" = 0 ∧
        ((program.check .standard).program.layout? (program.check .standard).symbols .standard).any (fun spans =>
          decide ((∃ span ∈ spans, span.routine.name = "S" ∧ span.Has (misplaced image).next) ∧
            ∀ main ∈ spans, main.routine.kind = .main → ¬main.Has (misplaced image).next)) = true)) = true)
    (by decide +kernel)
  obtain ⟨image, compiled, kinds, running, home, strays⟩ := exists_ok _ handling
  obtain ⟨spans, isLayout, strays⟩ := (Option.any_eq_true _ _).mp strays
  obtain ⟨inside, outside⟩ := of_decide_eq_true strays
  exact ⟨program, image, spans, parsed, compiled, isLayout, ⟨kinds, running⟩, inside, outside, home⟩

end BasicLang
