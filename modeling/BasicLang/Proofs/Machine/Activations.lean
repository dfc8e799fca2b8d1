import Mathlib.Data.List.Pairwise
import BasicLang.Device.Bench
import BasicLang.Proofs.Code.Containment
import BasicLang.Proofs.Machine.Suspension

set_option autoImplicit false

namespace BasicLang

inductive Nested (spans : List Span) (size : Nat) : Nat → List Frame → Prop where
  | main (span : Span) (place : Nat) (isSpan : span ∈ spans) (isMain : span.routine.kind = .main)
      (inside : span.Has place) : Nested spans size place [Machine.mainFrame]
  | call (span : Span) (place : Nat) (frame : Frame) (rest : List Frame) (isSpan : span ∈ spans)
      (isProcedure : span.routine.kind ≠ .main) (inside : span.Has place) (isCall : frame.kind = .call)
      (caller : Nested spans size frame.returnTo rest) : Nested spans size place (frame :: rest)
  -- A subroutine returns into its own routine.
  | gosub (span : Span) (place : Nat) (frame : Frame) (rest : List Frame) (isSpan : span ∈ spans)
      (inside : span.Has place) (isGosub : frame.kind = .gosub) (returns : span.Has frame.returnTo)
      (outer : Nested spans size frame.returnTo rest) : Nested spans size place (frame :: rest)
  | event (span : Span) (place : Nat) (frame : Frame) (rest : List Frame) (isSpan : span ∈ spans)
      (inside : span.Has place) (isEvent : frame.kind = .event)
      (interrupted : Nested spans size frame.returnTo rest) : Nested spans size place (frame :: rest)
  | ended (place : Nat) (frames : List Frame) (last : Nested spans size place frames) : Nested spans size size frames

instance (span : Span) (place : Nat) : Decidable (span.Has place) := inferInstanceAs (Decidable (_ ∧ _))

section Nesting

variable {image : Image} {spans : List Span} {span other : Span} {place next : Nat} {frame : Frame} {frames rest : List Frame}
  {instruction : Instruction}

theorem Image.Contained.one_span (contained : image.Contained spans) (isSpan : span ∈ spans) (isOther : other ∈ spans)
    (inside : span.Has place) (inOther : other.Has place) : span = other := by
  by_contra different
  have apart : spans.Pairwise fun left right => left.stop ≤ right.first ∨ right.stop ≤ left.first :=
    contained.apart.imp Or.inl
  have either : Std.Symm fun left right : Span => left.stop ≤ right.first ∨ right.stop ≤ left.first :=
    ⟨fun _ _ => Or.symm⟩
  have disjoint := apart.forall isSpan isOther different
  obtain ⟨above, below⟩ := inside
  obtain ⟨aboveOther, belowOther⟩ := inOther
  omega

theorem Image.Contained.before_end (contained : image.Contained spans) (isSpan : span ∈ spans) (inside : span.Has place) :
    place ≠ image.instructions.size := by
  have := (contained.filled span isSpan).2
  have := inside.2
  omega

theorem Nested.move (contained : image.Contained spans) (nested : Nested spans image.instructions.size place frames)
    (isSpan : span ∈ spans) (inside : span.Has place) (goes : span.Has next) :
    Nested spans image.instructions.size next frames := by
  cases nested with
  | main other _ isOther isMain inOther =>
    obtain rfl := contained.one_span isSpan isOther inside inOther
    exact .main span next isSpan isMain goes
  | call other _ frame rest isOther isProcedure inOther isCall caller =>
    obtain rfl := contained.one_span isSpan isOther inside inOther
    exact .call span next frame rest isSpan isProcedure goes isCall caller
  | gosub other _ frame rest isOther inOther isGosub returns outer =>
    obtain rfl := contained.one_span isSpan isOther inside inOther
    exact .gosub span next frame rest isSpan goes isGosub returns outer
  | event other _ frame rest isOther inOther isEvent interrupted =>
    exact .event span next frame rest isSpan goes isEvent interrupted
  | ended => exact absurd rfl (contained.before_end isSpan inside)

theorem Nested.leave (contained : image.Contained spans)
    (nested : Nested spans image.instructions.size place (frame :: rest)) (isSpan : span ∈ spans)
    (inside : span.Has place) (isInner : rest ≠ []) : Nested spans image.instructions.size frame.returnTo rest := by
  cases nested with
  | main => exact absurd rfl isInner
  | call _ _ _ _ _ _ _ _ caller => exact caller
  | gosub _ _ _ _ _ _ _ _ outer => exact outer
  | event _ _ _ _ _ _ _ interrupted => exact interrupted
  | ended => exact absurd rfl (contained.before_end isSpan inside)

theorem Nested.routine (nested : Nested spans image.instructions.size place frames)
    (below : place < image.instructions.size) : ∃ span ∈ spans, span.Has place := by
  cases nested with
  | main span _ isSpan _ inside => exact ⟨span, isSpan, inside⟩
  | call span _ _ _ isSpan _ inside => exact ⟨span, isSpan, inside⟩
  | gosub span _ _ _ isSpan inside => exact ⟨span, isSpan, inside⟩
  | event span _ _ _ isSpan inside => exact ⟨span, isSpan, inside⟩
  | ended => exact absurd below (Nat.lt_irrefl _)

theorem Image.Contained.next_inside (contained : image.Contained spans) (isSpan : span ∈ spans) (inside : span.Has place)
    (found : image.instructions[place]? = some instruction) (falls : instruction.op.fallsThrough = true) :
    span.Has (place + 1) := by
  refine ⟨Nat.le_succ_of_le inside.1, ?_⟩
  by_contra beyond
  obtain rfl : place = span.stop - 1 := by
    have := inside.2
    omega
  obtain ⟨locus, returns | stops⟩ := contained.ends span isSpan
  · rw [returns] at found
    cases found
    cases falls
  · rw [stops] at found
    cases found
    cases falls

end Nesting

inductive Span.Leads (spans : List Span) (span : Span) (size : Nat) (op : Op) (place : Nat) (frames : List Frame)
    (next : Nat) (later : List Frame) : Prop where
  | stays (inside : span.Has next) (same : later = frames)
  | subroutine (scope : Nat) (isGosub : ∃ target, op = .gosub target) (inside : span.Has next)
      (returns : span.Has (place + 1)) (entered : later = ⟨.gosub, place + 1, scope⟩ :: frames)
  | calls (callee : Span) (scope : Nat) (isCall : ∃ target, op = .call target) (isCallee : callee ∈ spans)
      (isProcedure : callee.routine.kind ≠ .main) (starts : next = callee.first) (returns : span.Has (place + 1))
      (entered : later = ⟨.call, place + 1, scope⟩ :: frames)
  | returns (frame : Frame) (isReturn : op = .ret) (isInner : later ≠ []) (left : frames = frame :: later)
      (back : next = frame.returnTo)
  | ends (isEnd : op = .stop) (same : later = frames) (behind : next = size)

section Leading

variable {image : Image} {spans : List Span} {span : Span} {here after : Control} {instruction : Instruction}

theorem Image.Contained.leads (contained : image.Contained spans) (isSpan : span ∈ spans) (inside : span.Has here.next)
    (isImage : here.image = image) (found : image.instructions[here.next]? = some instruction)
    (leads : instruction.op.Leads { here with next := here.next + 1 } after) :
    span.Leads spans image.instructions.size instruction.op here.next here.frames after.next after.frames := by
  have falls := contained.next_inside isSpan inside found
  have aims := contained.aims span isSpan here.next instruction inside found
  have waits {control : Control} (awaits : control.Awaits after) :
      after.next = control.next ∧ after.frames = control.frames := by
    obtain rfl | ⟨_, rfl⟩ := awaits <;> exact ⟨rfl, rfl⟩
  have goesOn (goes : instruction.op.fallsThrough = true)
      (awaits : { here with next := here.next + 1 : Control }.Awaits after) :
      span.Leads spans image.instructions.size instruction.op here.next here.frames after.next after.frames := by
    obtain ⟨next, frames⟩ := waits awaits
    exact .stays (next ▸ falls goes) frames
  -- Whether the jump is taken or not, it stays in the routine.
  have branches {target : Target} (goes : instruction.op.fallsThrough = true) (isAim : target ∈ instruction.op.aims)
      (leads : after = { here with next := here.next + 1 } ∨
        ∃ place, target = .resolved place ∧ after = { here with next := place }) :
      span.Leads spans image.instructions.size instruction.op here.next here.frames after.next after.frames := by
    obtain ⟨next, rfl, isNext⟩ := aims target isAim
    obtain rfl | ⟨place, isPlace, rfl⟩ := leads
    · exact .stays (falls goes) rfl
    · exact .stays (Target.resolved.inj isPlace ▸ isNext) rfl
  obtain ⟨op, locus⟩ := instruction
  cases op with
  | jump target =>
    obtain ⟨place, rfl, rfl⟩ := leads
    obtain ⟨next, isNext, goes⟩ := aims _ List.mem_cons_self
    exact .stays (Target.resolved.inj isNext ▸ goes) rfl
  | jumpIfZero target | jumpIfNonzero target | forLoop target => exact branches rfl List.mem_cons_self leads
  | call target =>
    obtain ⟨place, scope, rfl, rfl⟩ := leads
    obtain ⟨callee, isCallee, isProcedure, isFirst⟩ :=
      contained.calls span isSpan here.next _ inside found (.resolved place) rfl
    exact .calls callee scope ⟨_, rfl⟩ isCallee isProcedure (Target.resolved.inj isFirst) (falls rfl) rfl
  | gosub target =>
    obtain ⟨place, scope, rfl, rfl⟩ := leads
    obtain ⟨next, isNext, goes⟩ := aims _ List.mem_cons_self
    exact .subroutine scope ⟨_, rfl⟩ (Target.resolved.inj isNext ▸ goes) (falls rfl) rfl
  | ret =>
    obtain ⟨frame, outer, rest, frames, rfl⟩ := leads
    exact .returns frame rfl (by simp) frames rfl
  | stop =>
    obtain ⟨next, frames⟩ := waits leads
    exact .ends rfl frames (next.trans (by rw [isImage]))
  | onEvent target =>
    obtain ⟨key, place, -, rfl⟩ := leads
    exact .stays (falls rfl) rfl
  | _ => exact goesOn rfl leads

theorem Nested.lead {op : Op} (contained : image.Contained spans)
    (nested : Nested spans image.instructions.size here.next here.frames) (isSpan : span ∈ spans)
    (inside : span.Has here.next)
    (leads : span.Leads spans image.instructions.size op here.next here.frames after.next after.frames) :
    Nested spans image.instructions.size after.next after.frames := by
  cases leads with
  | stays goes same =>
    rw [same]
    exact nested.move contained isSpan inside goes
  | subroutine scope _ goes returns entered =>
    rw [entered]
    exact .gosub span _ _ _ isSpan goes rfl returns (nested.move contained isSpan inside returns)
  | calls callee scope _ isCallee isProcedure starts returns entered =>
    rw [entered, starts]
    have first : callee.Has callee.first := ⟨Nat.le_refl _, (contained.filled callee isCallee).1⟩
    exact .call callee _ _ _ isCallee isProcedure first rfl (nested.move contained isSpan inside returns)
  | returns frame _ isInner left back =>
    rw [left] at nested
    rw [back]
    exact nested.leave contained isSpan inside isInner
  | ends _ same behind =>
    rw [same, behind]
    exact .ended _ _ nested

theorem Op.Leads.handlers {op : Op} (leads : op.Leads here after) :
    after.image = here.image ∧ (after.handlers = here.handlers ∨
      ∃ key place, op = .onEvent (.resolved place) ∧ after.handlers = here.handlers.set key place) := by
  have waits {control : Control} (awaits : control.Awaits after) :
      after.image = control.image ∧ after.handlers = control.handlers := by
    obtain rfl | ⟨_, rfl⟩ := awaits <;> exact ⟨rfl, rfl⟩
  cases op with
  | jump target =>
    obtain ⟨_, -, rfl⟩ := leads
    exact ⟨rfl, .inl rfl⟩
  | jumpIfZero target | jumpIfNonzero target | forLoop target =>
    obtain rfl | ⟨_, -, rfl⟩ := leads <;> exact ⟨rfl, .inl rfl⟩
  | call target | gosub target =>
    obtain ⟨_, _, -, rfl⟩ := leads
    exact ⟨rfl, .inl rfl⟩
  | ret =>
    obtain ⟨_, _, _, -, rfl⟩ := leads
    exact ⟨rfl, .inl rfl⟩
  | onEvent target =>
    obtain ⟨key, place, rfl, rfl⟩ := leads
    exact ⟨rfl, .inr ⟨key, place, rfl, rfl⟩⟩
  | stop =>
    obtain ⟨image, handlers⟩ := waits leads
    exact ⟨image, .inl handlers⟩
  | _ =>
    obtain ⟨image, handlers⟩ := waits leads
    exact ⟨image, .inl handlers⟩

-- What holds of every handler holds of one that is declared, if it holds of its place.
theorem Op.Leads.handlers_hold {op : Op} {holds : Nat → Prop} (leads : op.Leads here after)
    (old : ∀ key place, here.handlers.get? key = some place → holds place)
    (declared : ∀ place, op = .onEvent (.resolved place) → holds place) :
    ∀ key place, after.handlers.get? key = some place → holds place := by
  intro key place isHandler
  obtain same | ⟨other, next, isDeclaration, changed⟩ := leads.handlers.2
  · exact old key place (same ▸ isHandler)
  · by_cases isKey : key = other
    · rw [changed, isKey, Table.get_set_self] at isHandler
      obtain rfl := Option.some.inj isHandler
      exact declared next isDeclaration
    · rw [changed, Table.get_set_other _ _ _ _ isKey] at isHandler
      exact old key place isHandler

structure Control.Nests (image : Image) (spans : List Span) (control : Control) : Prop where
  loaded : control.image = image
  handlers : ∀ key place, control.handlers.get? key = some place → ∃ span ∈ spans, span.Has place
  nested : Nested spans image.instructions.size control.next control.frames

theorem Control.Nests.lead (contained : image.Contained spans) (nests : here.Nests image spans)
    (found : image.instructions[here.next]? = some instruction)
    (leads : instruction.op.Leads { here with next := here.next + 1 } after) : after.Nests image spans := by
  obtain ⟨span, isSpan, inside⟩ := nests.nested.routine (Array.getElem?_eq_some_iff.mp found).1
  refine ⟨leads.handlers.1.trans nests.loaded, leads.handlers_hold nests.handlers fun next isDeclaration => ?_, ?_⟩
  · obtain ⟨_, isNext, goes⟩ := contained.aims span isSpan here.next instruction inside found (.resolved next)
      (by simp [isDeclaration, Op.aims])
    exact ⟨span, isSpan, Target.resolved.inj isNext ▸ goes⟩
  · exact nests.nested.lead contained isSpan inside (contained.leads isSpan inside nests.loaded found leads)

end Leading

structure Machine.Nests {σ : Type} (image : Image) (spans : List Span) (machine : Machine σ) : Prop where
  orderly : machine.Orderly
  loaded : machine.image = image
  nested : machine.phase ≠ .failed → machine.control.Nests image spans

namespace Run

variable {σ : Type} {setup : Setup σ} {image : Image} {spans : List Span} {machine : Machine σ}

theorem ready_nests (setup : Setup σ) (nests : machine.control.Nests image spans) :
    (ready setup machine).control.Nests image spans := by
  obtain same | ⟨key, handler, found, same⟩ := ready_control setup machine
  · rw [same]
    exact ⟨nests.loaded, nests.handlers, nests.nested⟩
  · rw [same]
    refine ⟨nests.loaded, nests.handlers, ?_⟩
    obtain ⟨span, isSpan, inside⟩ := nests.handlers key handler found
    exact .event span handler _ _ isSpan inside rfl nests.nested

theorem going_alive (goes : machine.phase = .idle ∨ machine.phase = .running) : machine.phase ≠ .failed := by
  rintro failed
  simp [failed] at goes

theorem step_nests (contained : image.Contained spans) : Upholds (Machine.Nests image spans) (step setup) := by
  intro machine nests
  have orderly : ((step setup).on machine).2.Orderly := step_orders machine nests.orderly
  by_cases goes : machine.phase = .idle ∨ machine.phase = .running
  · have started := ready_nests setup (nests.nested (going_alive goes))
    generalize stepped : ((step setup).on machine).2 = after at orderly ⊢
    obtain ⟨-, same⟩ | ⟨instruction, found, ⟨_, _, same⟩ | ⟨control, phase, leads, same⟩⟩ := step_control goes stepped
    · refine ⟨orderly, (congrArg Control.image same).trans started.loaded, fun _ => ?_⟩
      rw [same]
      exact ⟨started.loaded, started.handlers, started.nested⟩
    · refine ⟨orderly, (congrArg Control.image same).trans started.loaded, fun alive => ?_⟩
      exact absurd (congrArg Control.phase same) alive
    · rw [nests.loaded] at found
      have led := started.lead contained found leads
      refine ⟨orderly, (congrArg Control.image same).trans led.loaded, fun _ => ?_⟩
      rw [same]
      exact ⟨led.loaded, led.handlers, led.nested⟩
  · rw [on_step_still goes]
    exact nests

theorem resume_nests (reply : Except DeviceError Reply) :
    Upholds (Machine.Nests image spans) (resume reply : Run σ Unit) := by
  intro machine nests
  have orderly := resume_orders reply machine nests.orderly
  cases waits : machine.pending with
  | none =>
    rw [on_resume_nothing waits]
    exact nests
  | some pending =>
    have alive : machine.phase ≠ .failed := by
      rw [nests.orderly.mp (by simp [waits])]
      simp
    -- Of the control a reply changes the phase and the request only, whether it is taken or refused.
    have resumed := meets_resumed (preserved_control { machine.control with pending := none }) reply
      waits rfl (fun _ _ => trivial) fun _ _ _ _ held => held
    rw [Meets] at resumed
    cases ran : (resume reply).on machine with
    | mk result after =>
      rw [ran] at resumed orderly
      cases result with
      | ok _ =>
        obtain ⟨last, same, rfl⟩ := resumed
        have phased : (last.setPhase .running).control = { machine.control with phase := .running, pending := none } := by
          obtain ⟨notices, started⟩ := last.set_phase_only .running
          rw [started]
          exact congrArg (fun control : Control => { control with phase := .running }) same
        refine ⟨orderly, (congrArg Control.image phased).trans nests.loaded, fun _ => ?_⟩
        rw [phased]
        have nested := nests.nested alive
        exact ⟨nested.loaded, nested.handlers, nested.nested⟩
      | error error =>
        obtain ⟨last, same, rfl⟩ := resumed
        exact ⟨orderly, (congrArg Control.image same).trans nests.loaded, fun alive => absurd rfl alive⟩

theorem reset_nests (contained : image.Contained spans) (loaded : machine.image = image) :
    machine.reset.Nests image spans := by
  refine ⟨machine.reset_orderly, loaded, fun _ => ⟨loaded, fun _ _ found => (nomatch found), ?_⟩⟩
  obtain ⟨span, isSpan, isMain, isFirst⟩ := contained.starts
  exact .main span 0 isSpan isMain ⟨Nat.le_of_eq isFirst, isFirst ▸ (contained.filled span isSpan).1⟩

theorem call_nests (contained : image.Contained spans) {call : HostCall} (sameImage : ∀ other, call ≠ .load other) :
    Upholds (Machine.Nests image spans) (call.run setup) := by
  cases restarts : call.restarts with
  | false =>
    refine upholds_call (step_nests contained) resume_nests (fun machine world events nests => ?_) restarts
    exact ⟨nests.orderly, nests.loaded, nests.nested⟩
  | true =>
    cases call with
    | load other => exact absurd rfl (sameImage other)
    | reset => exact fun _ nests => reset_nests contained nests.loaded
    | _ => cases restarts

end Run

namespace Machine

variable {σ : Type} {image : Image} {spans : List Span}

def StepsWithin (setup : Setup σ) (image : Image) (spans : List Span) (machine : Machine σ) : Prop :=
  let here := (Run.ready setup machine).control
  let after := ((Run.step setup).on machine).2.control
  (here = { machine.control with phase := .running } ∨
      ∃ key handler, machine.handlers.get? key = some handler ∧
        here = { machine.control with
          phase := .running, next := handler, frames := ⟨.event, machine.next, 0⟩ :: machine.frames }) ∧
    (after = { here with phase := .finished } ∨
      ∃ span ∈ spans, ∃ instruction, span.Has here.next ∧ image.instructions[here.next]? = some instruction ∧
        (after.phase = .failed ∨
          span.Leads spans image.instructions.size instruction.op here.next here.frames after.next after.frames))

theorem Nests.steps_within {machine : Machine σ} (setup : Setup σ) (contained : image.Contained spans)
    (nests : machine.Nests image spans) (goes : machine.phase = .idle ∨ machine.phase = .running) :
    machine.StepsWithin setup image spans := by
  refine ⟨Run.ready_control setup machine, ?_⟩
  have started := Run.ready_nests setup (nests.nested (Run.going_alive goes))
  obtain ⟨-, same⟩ | ⟨instruction, found, outcome⟩ := Run.step_control goes (rfl : ((Run.step setup).on machine).2 = _)
  · exact .inl same
  · rw [nests.loaded] at found
    obtain ⟨span, isSpan, inside⟩ := started.nested.routine (Array.getElem?_eq_some_iff.mp found).1
    refine .inr ⟨span, isSpan, instruction, inside, found, ?_⟩
    obtain ⟨_, _, same⟩ | ⟨control, phase, leads, same⟩ := outcome
    · exact .inl (congrArg Control.phase same)
    · have led := contained.leads isSpan inside started.loaded found leads
      rw [same]
      exact .inr led

theorem after_all_nests (setup : Setup σ) (contained : image.Contained spans) {calls : List HostCall} {machine : Machine σ}
    (nests : machine.Nests image spans) (sameImage : ∀ call ∈ calls, ∀ other, call ≠ .load other) :
    (machine.afterAll setup calls).Nests image spans :=
  after_all_holds setup (fun call inside => Run.call_nests contained (sameImage call inside)) nests

end Machine

/-- Whenever a program has code, no label is left in it, all its places are in the code and in the data, and each label
of the source stands for the first instruction behind it. If checking has accepted the program, the jumps of a routine
stay in its code. While it runs, whatever the host does, each frame returns to where its routine was entered from, and
but for events, which enter handlers, routines are entered by calls at their first instruction only and left by `RET`
and `END` only. -/
theorem routines_keep_to_their_code (program : Program) (symbols : SymbolTable) (registry : Registry) (image : Image)
    (coded : program.image symbols registry = .ok image) :
    (image.Resolved ∧ ∃ whole spans,
      (Emit.program (Program.emitContext symbols registry) program).run .empty = .ok ((), whole) ∧ whole.Linked image ∧
        program.layout? symbols registry = some spans ∧
        ∀ span ∈ spans, span.places.map Prod.snd = span.routine.body.statements ∧
          ∀ place name, (place, Stmt.label name) ∈ span.places → place < image.instructions.size ∧
            ∃ id, whole.named.get? name = some id ∧
              ∀ locus, whole.resolve LabelPlace.code locus (.label id) = .ok (.resolved place)) ∧
      ∀ source original, parse (tokenize source).1 = .ok original → (original.check registry).diagnostics = [] →
        program = (original.check registry).program → symbols = (original.check registry).symbols →
        ∃ spans, program.layout? symbols registry = some spans ∧ spans.map Span.routine = program.routines ∧
          image.Contained spans ∧
          ∀ (σ : Type) (setup : Setup σ) (world : σ) (calls : List HostCall),
            (∀ call ∈ calls, ∀ other, call ≠ .load other) →
            let machine := (Machine.create world).afterAll setup (.load image :: calls)
            (machine.phase ≠ .failed → Nested spans image.instructions.size machine.next machine.frames) ∧
              (machine.phase = .idle ∨ machine.phase = .running → machine.StepsWithin setup image spans) := by
  obtain ⟨whole, linked, ran, isLinked, same, -⟩ := Program.image_inversion coded
  have size : image.instructions.size = whole.code.size := by rw [same, Assembly.link_size isLinked]
  obtain ⟨spans, ranLayout⟩ := Emit.run_remember (Emit.forget_layout _ program) ran
  obtain ⟨spread, routines⟩ := Emit.spread_layout ranLayout
  have isLayout : program.layout? symbols registry = some spans := by rw [Program.layout?, ranLayout]
  refine ⟨⟨Program.image_resolved coded, whole, spans, ran, Assembly.link_linked isLinked same, isLayout,
    fun span isSpan => ⟨(spread.each span isSpan).statements, fun place name isLabel => ?_⟩⟩, ?_⟩
  -- Linking moves no label, so that the place a jump is given is the place where its label stands.
  · obtain ⟨id, found, placed⟩ := (spread.each span isSpan).labels place name isLabel
    obtain ⟨last, within, rfl⟩ := Emit.layout_ends ranLayout
    refine ⟨size ▸ within.below placed, id, found, fun locus => ?_⟩
    rw [Assembly.placeOf?] at placed
    rw [Assembly.resolve, placed]
  · rintro source original parsed quiet rfl rfl
    have accepted := Program.check_accepted (parse_well_formed (tokenize_lexed source) parsed) quiet
    have contained := accepted.contained coded isLayout
    refine ⟨spans, isLayout, routines, contained, ?_⟩
    intro σ setup world calls sameImage machine
    have start : ((Machine.create world).load setup.devices image).Nests image spans := Run.reset_nests contained rfl
    have nests : (((Machine.create world).load setup.devices image).afterAll setup calls).Nests image spans :=
      Machine.after_all_nests setup contained start sameImage
    exact ⟨fun alive => (nests.nested alive).nested, nests.steps_within setup contained⟩

def sampleInterrupted : String :=
  "ON EVENT \"k\" GOSUB H\nCALL S\nEND\nH: B = 1\nRETURN\nSUB S\nA = 1\nEND SUB\n"

def interrupted (image : Image) : Machine Bench :=
  (Machine.create Bench.empty).afterAll (.ofDevices Bench.bare .standard)
    [.load image, .step, .step, .step, .dispatch "k" ""]

theorem interrupted_routines_keep_to_their_code : ∃ program image spans,
    parse (tokenize sampleInterrupted).1 = .ok program ∧
      (program.check .standard).program.image (program.check .standard).symbols .standard = .ok image ∧
      (program.check .standard).program.layout? (program.check .standard).symbols .standard = some spans ∧
      image.Resolved ∧ image.Contained spans ∧ (interrupted image).phase = .running ∧
      (interrupted image).StepsWithin (.ofDevices Bench.bare .standard) image spans := by
  obtain ⟨program, parsed, quiet, runs⟩ := exists_parsed sampleInterrupted
    (fun program => (program.check .standard).diagnostics = [] ∧
      ((program.check .standard).program.image (program.check .standard).symbols .standard).toOption.any
        (fun image => (interrupted image).phase == .running) = true)
    (by decide +kernel)
  cases coded : (program.check .standard).program.image (program.check .standard).symbols .standard with
  | error error =>
    rw [coded] at runs
    cases runs
  | ok image =>
    rw [coded] at runs
    have running : (interrupted image).phase = .running := eq_of_beq runs
    obtain ⟨⟨resolved, -⟩, keeps⟩ := routines_keep_to_their_code _ _ .standard image coded
    obtain ⟨spans, isLayout, -, contained, goes⟩ := keeps sampleInterrupted program parsed quiet rfl rfl
    have steps := (goes Bench (.ofDevices Bench.bare .standard) Bench.empty [.step, .step, .step, .dispatch "k" ""]
      (by simp)).2 (.inr running)
    exact ⟨program, image, spans, parsed, coded, isLayout, resolved, contained, running, steps⟩

-- Neither a call nor `RET` nor `END` leads out of the procedure, and yet the next instruction is outside.
theorem event_leaves_procedure : ∃ program image spans,
    parse (tokenize sampleInterrupted).1 = .ok program ∧ (program.check .standard).diagnostics = [] ∧
      (program.check .standard).program.image (program.check .standard).symbols .standard = .ok image ∧
      (program.check .standard).program.layout? (program.check .standard).symbols .standard = some spans ∧
      ∃ span ∈ spans, span.routine.name = "S" ∧ span.Has (interrupted image).next ∧
        (∃ locus, image.instructions[(interrupted image).next]? = some ⟨.pushRef "A", locus⟩) ∧
        let after := ((Run.step (.ofDevices Bench.bare .standard)).on (interrupted image)).2
        after.phase = .running ∧ ¬span.Has after.next := by
  let isAssignment (instruction : Instruction) : Bool :=
    match instruction.op with
    | .pushRef name => name == "A"
    | _ => false
  obtain ⟨program, parsed, quiet, strays⟩ := exists_parsed sampleInterrupted
    (fun program => (program.check .standard).diagnostics = [] ∧
      ((program.check .standard).program.image (program.check .standard).symbols .standard).toOption.any
        (fun image => ((program.check .standard).program.layout? (program.check .standard).symbols .standard).any
          fun spans => spans.any fun span => span.routine.name = "S" ∧ span.Has (interrupted image).next ∧
            image.instructions[(interrupted image).next]?.any isAssignment = true ∧
            ((Run.step (.ofDevices Bench.bare .standard)).on (interrupted image)).2.phase = .running ∧
            ¬span.Has ((Run.step (.ofDevices Bench.bare .standard)).on (interrupted image)).2.next) = true)
    (by decide +kernel)
  obtain ⟨image, coded, strays⟩ := (Option.any_eq_true _ _).mp strays
  obtain ⟨spans, isLayout, strays⟩ := (Option.any_eq_true _ _).mp strays
  obtain ⟨span, isSpan, strays⟩ := List.any_eq_true.mp strays
  obtain ⟨isProcedure, inside, isPart, running, outside⟩ := of_decide_eq_true strays
  obtain ⟨⟨op, locus⟩, found, isPush⟩ := (Option.any_eq_true _ _).mp isPart
  refine ⟨program, image, spans, parsed, quiet, ?_, isLayout, span, isSpan, isProcedure, inside, ⟨locus, ?_⟩, running,
    outside⟩
  · cases result : (program.check .standard).program.image (program.check .standard).symbols .standard with
    | error error =>
      rw [result] at coded
      cases coded
    | ok other =>
      rw [result] at coded
      exact congrArg Except.ok (Option.some.inj coded)
  · cases op with
    | pushRef name => exact eq_of_beq isPush ▸ found
    | _ => cases isPush

end BasicLang
