import BasicLang.Device.Bench
import BasicLang.Proofs.Action.Printing
import BasicLang.Proofs.Code.Redirection
import BasicLang.Proofs.Machine.Activations
import BasicLang.Proofs.Machine.Deeds

set_option autoImplicit false

namespace BasicLang

variable {σ : Type}

def Op.isRedirection : Op → Bool
  | .stop => true
  | op => op.isSelection

theorem Op.selects_not {op : Op} (keeps : op.isRedirection = false) : op.isSelection = false := by
  cases op with
  | stop => rfl
  | _ => exact keeps

theorem Op.redirection_cases {op : Op} (redirects : op.isRedirection = true) : op = .stop ∨ op.isSelection = true := by
  cases op with
  | stop => exact .inl rfl
  | _ => exact .inr redirects

theorem Op.redirects_redirection {op : Op} {registry : Registry} (redirects : op.Redirects registry) :
    op.isRedirection = true := by
  cases op with
  | stop => rfl
  | syscall name =>
    have named : Builtin.selectOutput.name = Text.upperAscii name := Registry.lookup_named redirects
    exact List.any_eq_true.mpr ⟨.selectOutput, List.mem_singleton_self _, beq_of_eq named⟩
  | _ => cases redirects

def Closing (code : Array Instruction) (place : Nat) : Prop :=
  Redirected code place ∧ code[place]?.any (fun instruction => instruction.op.isSelection) = true

instance (code : Array Instruction) (place : Nat) : Decidable (Closing code place) :=
  inferInstanceAs (Decidable (_ ∧ _))

namespace Run

namespace Deed

/-- Output is redirected while a statement that prints to a file waits for what it has called or what has interrupted
it, or an event comes between the number of the console and its selection. -/
def Disturbs : Deed σ → Prop
  | .delivers _ _ machine => Closing machine.image.instructions machine.next
  | .executes instruction machine => instruction.op.isRedirection = true ∧
      ∃ frame ∈ machine.frames, Redirected machine.image.instructions frame.returnTo
  | .asks _ _ => False

instance (deed : Deed σ) : Decidable deed.Disturbs :=
  match deed with
  | .delivers _ _ machine => inferInstanceAs (Decidable (Closing machine.image.instructions machine.next))
  | .executes instruction machine => inferInstanceAs (Decidable (instruction.op.isRedirection = true ∧
      ∃ frame ∈ machine.frames, Redirected machine.image.instructions frame.returnTo))
  | .asks _ _ => isFalse id

def Selects : Deed σ → Prop
  | .executes instruction _ => instruction.op.isSelection = true
  | _ => False

end Deed

def Selected (deeds : List (Deed σ)) (opened : Machine σ) : Prop :=
  ∃ early selection late, deeds = early ++ .executes selection opened :: late ∧
    selection.op.isSelection = true ∧ ∀ deed ∈ late, ¬deed.Selects

theorem Selected.later {deeds more : List (Deed σ)} {opened : Machine σ} (selected : Selected deeds opened)
    (still : ∀ deed ∈ more, ¬deed.Selects) : Selected (deeds ++ more) opened := by
  obtain ⟨early, selection, late, rfl, selects, isLast⟩ := selected
  exact ⟨early, selection, late ++ more, by simp, selects, List.forall_mem_append.mpr ⟨isLast, still⟩⟩

end Run

section Routing

variable {code : Array Instruction} {deeds : List (Run.Deed σ)} {output : Option Int} {place next : Nat}
  {frames : List Frame}

/-- The last selection was the first of the statement around a place, and has chosen what is printed to. -/
def Opened (code : Array Instruction) (deeds : List (Run.Deed σ)) (place : Nat) (frames : List Frame)
    (output : Option Int) : Prop :=
  ∃ opened, Run.Selected deeds opened ∧ opened.frames = frames ∧ ¬Redirected code opened.next ∧
    selections code place = selections code (opened.next + 1) ∧ opened.chosen? = some output

inductive Routing (code : Array Instruction) (deeds : List (Run.Deed σ)) (output : Option Int) :
    Nat → List Frame → Prop where
  | calm (next : Nat) (outside : ¬Redirected code next) (console : output = none) : Routing code deeds output next []
  | opened (next : Nat) (frames : List Frame) (inside : Redirected code next)
      (others : ∀ frame ∈ frames, ¬Redirected code frame.returnTo) (opened : Opened code deeds next frames output) :
      Routing code deeds output next frames
  | entered (next : Nat) (frame : Frame) (rest : List Frame) (outside : ¬Redirected code next)
      (goesOn : ¬Closing code frame.returnTo) (caller : Routing code deeds output frame.returnTo rest) :
      Routing code deeds output next (frame :: rest)

namespace Routing

theorem jump (routing : Routing code deeds output place frames) (outside : ¬Redirected code place)
    (goes : ¬Redirected code next) : Routing code deeds output next frames := by
  cases routing with
  | calm _ _ console => exact .calm next goes console
  | opened _ _ inside => exact absurd inside outside
  | entered _ frame rest _ goesOn caller => exact .entered next frame rest goes goesOn caller

theorem move (routing : Routing code deeds output place frames) (same : selections code next = selections code place) :
    Routing code deeds output next frames := by
  by_cases inside : Redirected code place
  · have goes : Redirected code next := by rwa [Redirected, same]
    cases routing with
    | calm _ outside => exact absurd inside outside
    | opened _ _ _ others opened =>
      obtain ⟨opened, selected, isFrames, calm, counted, chosen⟩ := opened
      exact .opened next frames goes others ⟨opened, selected, isFrames, calm, same.trans counted, chosen⟩
    | entered _ _ _ outside => exact absurd inside outside
  · exact routing.jump inside (by rwa [Redirected, same])

theorem later (routing : Routing code deeds output place frames) {more : List (Run.Deed σ)}
    (still : ∀ deed ∈ more, ¬deed.Selects) : Routing code (deeds ++ more) output place frames := by
  induction routing with
  | calm next outside console => exact .calm next outside console
  | opened next frames inside others opened =>
    obtain ⟨opened, selected, kept⟩ := opened
    exact .opened next frames inside others ⟨opened, selected.later still, kept⟩
  | entered next frame rest outside goesOn caller ih => exact .entered next frame rest outside goesOn ih

theorem of_calm (outside : ¬Redirected code place) (others : ∀ frame ∈ frames, ¬Redirected code frame.returnTo) :
    Routing code deeds none place frames := by
  induction frames generalizing place with
  | nil => exact .calm place outside rfl
  | cons frame rest ih =>
    obtain ⟨first, others⟩ := List.forall_mem_cons.mp others
    exact .entered place frame rest outside (fun closing => first closing.1) (ih first others)

theorem console (routing : Routing code deeds output place frames) (outside : ¬Redirected code place)
    (others : ∀ frame ∈ frames, ¬Redirected code frame.returnTo) : output = none := by
  induction routing with
  | calm _ _ console => exact console
  | opened _ _ inside => exact absurd inside outside
  | entered _ frame rest _ _ _ ih =>
    obtain ⟨first, others⟩ := List.forall_mem_cons.mp others
    exact ih first others

theorem inside (routing : Routing code deeds output place frames) (inside : Redirected code place) :
    (∀ frame ∈ frames, ¬Redirected code frame.returnTo) ∧ Opened code deeds place frames output := by
  cases routing with
  | calm _ outside => exact absurd inside outside
  | opened _ _ _ others opened => exact ⟨others, opened⟩
  | entered _ _ _ outside => exact absurd inside outside

-- A statement that prints to a file waits for what it has called, or what has interrupted it.
theorem redirected (routing : Routing code deeds output place frames) {frame : Frame} (isFrame : frame ∈ frames)
    (inside : Redirected code frame.returnTo) :
    ∃ inner outer, frames = inner ++ frame :: outer ∧ Opened code deeds frame.returnTo outer output := by
  induction routing with
  | calm => cases isFrame
  | opened _ _ _ others => exact absurd inside (others frame isFrame)
  | entered _ first rest _ _ caller ih =>
    obtain rfl | isRest := List.mem_cons.mp isFrame
    · exact ⟨[], rest, rfl, (caller.inside inside).2⟩
    · obtain ⟨inner, outer, rfl, opened⟩ := ih isRest
      exact ⟨first :: inner, outer, rfl, opened⟩

end Routing

end Routing

section Leading

variable {image : Image} {spans : List Span} {deeds : List (Run.Deed σ)} {output : Option Int} {here after : Control}
  {instruction : Instruction}

theorem Image.Routed.closing_pushed (routed : image.Routed spans) {place : Nat}
    (found : image.instructions[place]? = some instruction) (closing : Closing image.instructions (place + 1)) :
    instruction.op = .pushConst (.integer 0) := by
  obtain ⟨inside, selects⟩ := closing
  obtain ⟨selection, isNext, selects⟩ := (Option.any_eq_true _ _).mp selects
  obtain inner | text | ⟨-, earlier, locus, isEarlier, pushed⟩ := routed.inside _ _ isNext inside
  · have quiet := Op.inner_quiet inner
    simp [selects] at quiet
  · exact absurd selects (by simp [Op.text_selects_not text])
  · obtain rfl := Nat.succ.inj isEarlier
    rw [found] at pushed
    cases pushed
    rfl

-- Only what expressions and items are made of stands in a statement that prints to a file.
theorem Image.Routed.outside (routed : image.Routed spans) {place : Nat}
    (found : image.instructions[place]? = some instruction) (computesNot : instruction.op.isInner = false)
    (textNot : instruction.op.isText = false) (selectsNot : instruction.op.isSelection = false) :
    ¬Redirected image.instructions place := by
  intro redirected
  obtain inner | text | ⟨selects, -⟩ := routed.inside place instruction found redirected
  · simp [inner] at computesNot
  · simp [text] at textNot
  · simp [selects] at selectsNot

theorem Routing.lead (routed : image.Routed spans)
    (routing : Routing image.instructions deeds output here.next here.frames)
    (found : image.instructions[here.next]? = some instruction) (keeps : instruction.op.isRedirection = false)
    (leads : instruction.op.Leads { here with next := here.next + 1 } after) :
    Routing image.instructions deeds output after.next after.frames ∧
      (Closing image.instructions after.next → after.next = here.next + 1) := by
  have selectsNot := Op.selects_not keeps
  -- What the instruction does to the control: fall through, jump, wait for a reply or enter a routine.
  have falls : Routing image.instructions deeds output (here.next + 1) here.frames :=
    routing.move (by rw [selections_next found, selectsNot]; rfl)
  have aims {target : Nat} (isTarget : instruction.op.address? = some (.resolved target)) :
      ¬Redirected image.instructions target := routed.targets here.next instruction target found isTarget
  have jumps {target : Nat} (isTarget : instruction.op.address? = some (.resolved target))
      (outside : ¬Redirected image.instructions here.next) :
      Routing image.instructions deeds output target here.frames ∧
        (Closing image.instructions target → target = here.next + 1) :=
    ⟨routing.jump outside (aims isTarget), fun closing => absurd closing.1 (aims isTarget)⟩
  have goesOn (awaits : { here with next := here.next + 1 : Control }.Awaits after) :
      Routing image.instructions deeds output after.next after.frames ∧
        (Closing image.instructions after.next → after.next = here.next + 1) := by
    obtain rfl | ⟨_, rfl⟩ := awaits <;> exact ⟨falls, fun _ => rfl⟩
  have enters {target : Nat} {kind : FrameKind} {scope : Nat}
      (isTarget : instruction.op.address? = some (.resolved target)) :
      Routing image.instructions deeds output target (⟨kind, here.next + 1, scope⟩ :: here.frames) ∧
        (Closing image.instructions target → target = here.next + 1) := by
    refine ⟨.entered target _ _ (aims isTarget) (fun closing => ?_) falls, ?_⟩
    · have pushes := routed.closing_pushed found closing
      rw [pushes] at isTarget
      cases isTarget
    · exact fun closing => absurd closing.1 (aims isTarget)
  have outside := routed.outside found
  obtain ⟨op, locus⟩ := instruction
  cases op with
  | jump target =>
    obtain ⟨place, rfl, rfl⟩ := leads
    exact jumps rfl (outside rfl rfl rfl)
  | jumpIfZero target | jumpIfNonzero target | forLoop target =>
    obtain rfl | ⟨place, rfl, rfl⟩ := leads
    · exact ⟨falls, fun _ => rfl⟩
    · exact jumps rfl (outside rfl rfl rfl)
  | call target | gosub target =>
    obtain ⟨place, scope, rfl, rfl⟩ := leads
    exact enters rfl
  | ret =>
    obtain ⟨frame, outer, rest, frames, rfl⟩ := leads
    rw [show here.frames = frame :: outer :: rest from frames] at routing
    cases routing with
    | opened _ _ inside => exact absurd inside (outside rfl rfl rfl)
    | entered _ _ _ _ goesOn caller => exact ⟨caller, fun closing => absurd closing goesOn⟩
  | stop => cases keeps
  | onEvent target =>
    obtain ⟨key, place, -, rfl⟩ := leads
    exact ⟨falls, fun _ => rfl⟩
  | _ => exact goesOn leads

end Leading

/-- What is printed to is what the code says, and its number is on the stack when the console is selected. -/
structure Machine.Routes (image : Image) (deeds : List (Run.Deed σ)) (machine : Machine σ) : Prop where
  handlers : ∀ key place, machine.handlers.get? key = some place → ¬Redirected image.instructions place
  routing : Routing image.instructions deeds machine.output machine.next machine.frames
  closing : Closing image.instructions machine.next →
    machine.pending = none ∧ machine.stack.head? = some (.value (.integer 0))

structure Machine.Tracked (image : Image) (spans : List Span) (deeds : List (Run.Deed σ)) (machine : Machine σ) : Prop
    extends machine.Nests image spans where
  routes : machine.phase ≠ .failed → machine.Routes image deeds

theorem Machine.Routes.later {image : Image} {deeds more : List (Run.Deed σ)} {machine : Machine σ}
    (routes : machine.Routes image deeds) (still : ∀ deed ∈ more, ¬deed.Selects) : machine.Routes image (deeds ++ more) :=
  { routes with routing := routes.routing.later still }

theorem Machine.Routes.set_phase {image : Image} {deeds : List (Run.Deed σ)} {machine : Machine σ}
    (routes : machine.Routes image deeds) (phase : Phase) : (machine.setPhase phase).Routes image deeds := by
  obtain ⟨notices, same⟩ := machine.set_phase_only phase
  rw [same]
  exact ⟨routes.handlers, routes.routing, routes.closing⟩

namespace Run

variable {setup : Setup σ} {image : Image} {spans : List Span} {deeds : List (Deed σ)} {machine : Machine σ}

theorem apart_output : Apart (Machine.output : Machine σ → Option Int) where
  computing := fun _ _ _ _ => rfl
  around := fun _ _ _ _ _ _ => rfl
  control := fun _ _ _ _ _ _ _ => rfl

theorem ready_prints (setup : Setup σ) (machine : Machine σ) :
    (ready setup machine).output = machine.output ∧ (ready setup machine).stack = machine.stack := by
  have polled : (pollEvents setup.devices (machine.setPhase .running)).output = machine.output ∧
      (pollEvents setup.devices (machine.setPhase .running)).stack = machine.stack := by
    obtain ⟨notices, started⟩ := machine.set_phase_only .running
    rw [started, pollEvents]
    cases setup.devices.bus <;> exact ⟨rfl, rfl⟩
  rw [ready]
  obtain ⟨still, -⟩ | ⟨key, data, rest, -, -, ⟨-, dropped⟩ | ⟨handler, -, entered⟩⟩ :=
    deliver_cases (pollEvents setup.devices (machine.setPhase .running))
  · rwa [still]
  · rwa [dropped]
  · rwa [entered]

theorem ready_routes (setup : Setup σ) (loaded : machine.image = image) (routes : machine.Routes image deeds)
    (calm : ∀ deed ∈ news setup machine, ¬deed.Disturbs) :
    (ready setup machine).Routes image (deeds ++ news setup machine) := by
  obtain ⟨output, stack⟩ := ready_prints setup machine
  obtain ⟨isNews, same⟩ | ⟨key, data, polled, handler, isNews, arrived, -, found, same⟩ := news_cases setup machine
  · have next : (ready setup machine).next = machine.next := congrArg Control.next same
    have frames : (ready setup machine).frames = machine.frames := congrArg Control.frames same
    have pending : (ready setup machine).pending = machine.pending := congrArg Control.pending same
    have handlers : (ready setup machine).handlers = machine.handlers := congrArg Control.handlers same
    rw [isNews, List.append_nil]
    refine ⟨by rw [handlers]; exact routes.handlers, ?_, ?_⟩
    · rw [output, next, frames]
      exact routes.routing
    · rw [next, pending, stack]
      exact routes.closing
  · have next : (ready setup machine).next = handler := congrArg Control.next same
    have frames : (ready setup machine).frames = ⟨.event, machine.next, 0⟩ :: machine.frames :=
      congrArg Control.frames same
    have handlers : (ready setup machine).handlers = machine.handlers := congrArg Control.handlers same
    have place : polled.next = machine.next := congrArg Control.next arrived
    have code : polled.image = machine.image := congrArg Control.image arrived
    have goesOn : ¬Closing image.instructions machine.next := by
      have undisturbed := calm (.delivers key data polled) (by simp [isNews])
      rwa [Deed.Disturbs, place, code, loaded] at undisturbed
    have aims := routes.handlers key handler found
    rw [isNews]
    refine ⟨by rw [handlers]; exact routes.handlers, ?_, ?_⟩
    · rw [output, next, frames]
      refine .entered handler _ _ aims goesOn (routes.routing.later ?_)
      simp [Deed.Selects]
    · rw [next]
      exact fun closing => absurd closing.1 aims

section Executing

variable {instruction : Instruction} {after : Machine σ}

theorem executed_leads {op : Op}
    (executed : (execute setup op).on { machine with next := machine.next + 1 } = (.ok (), after)) :
    op.Leads { machine.control with next := machine.control.next + 1 } after.control := by
  have moved := execute_moves setup op { machine with next := machine.next + 1 }
  rw [Meets, executed] at moved
  exact moved

theorem kept_routing (routed : image.Routed spans) (routes : machine.Routes image deeds)
    (found : image.instructions[machine.next]? = some instruction) (keeps : instruction.op.isRedirection = false)
    (executed : (execute setup instruction.op).on { machine with next := machine.next + 1 } = (.ok (), after)) :
    Routing image.instructions (deeds ++ [.executes instruction machine]) after.output after.next after.frames ∧
      (Closing image.instructions after.next → after.next = machine.next + 1) := by
  have stays := execute_stays apart_output setup instruction.op (fun _ _ _ => rfl)
    (fun redirects => absurd (Op.redirects_redirection redirects) (by simp [keeps])) (fun _ _ _ => rfl) (fun _ _ _ => rfl)
    machine.output { machine with next := machine.next + 1 } rfl
  rw [Meets, executed] at stays
  have routing : Routing image.instructions deeds machine.output machine.control.next machine.control.frames :=
    routes.routing
  obtain ⟨led, closing⟩ := routing.lead routed found keeps (executed_leads executed)
  rw [stays.1]
  refine ⟨led.later ?_, closing⟩
  simp [Deed.Selects, Op.selects_not keeps]

theorem selected_routing (routes : machine.Routes image deeds)
    (found : image.instructions[machine.next]? = some instruction) (selects : instruction.op.isSelection = true)
    (others : ∀ frame ∈ machine.frames, ¬Redirected image.instructions frame.returnTo)
    (executed : (execute setup instruction.op).on { machine with next := machine.next + 1 } = (.ok (), after)) :
    Routing image.instructions (deeds ++ [.executes instruction machine]) after.output after.next after.frames ∧
      after.next = machine.next + 1 := by
  have selected := selection_stays setup { machine with next := machine.next + 1 } selects
  rw [Meets, executed] at selected
  have chosen : machine.chosen? = some after.output := selected
  have counted := selections_next found
  rw [selects, if_pos rfl] at counted
  obtain ⟨next, frames⟩ : after.next = machine.next + 1 ∧ after.frames = machine.frames := by
    have leads := executed_leads executed
    obtain ⟨name, isCall⟩ := Op.runs_syscall _ selects
    rw [isCall] at leads
    obtain same | ⟨_, same⟩ := leads <;>
      exact ⟨congrArg Control.next same, congrArg Control.frames same⟩
  rw [next, frames]
  refine ⟨?_, rfl⟩
  -- The second of two selections takes the number of the console from the stack, the first one that of a file.
  by_cases inside : Redirected image.instructions machine.next
  · obtain ⟨-, top⟩ := routes.closing ⟨inside, by rw [found]; exact selects⟩
    have console : machine.chosen? = some none := by
      have zero : (Value.integer 0).toInt? = some 0 := by decide +kernel
      rw [Machine.chosen?, top]
      exact congrArg (Option.map _) zero
    rw [Option.some.inj (chosen.symm.trans console)]
    refine .of_calm ?_ others
    rw [Redirected] at inside ⊢
    omega
  · have last : Selected (deeds ++ [.executes instruction machine]) machine :=
      ⟨deeds, instruction, [], rfl, selects, by simp⟩
    refine .opened _ _ ?_ others ⟨machine, last, rfl, inside, rfl, chosen⟩
    rw [Redirected] at inside ⊢
    omega

theorem stopped_routing (routed : image.Routed spans) (loaded : machine.image = image)
    (others : ∀ frame ∈ machine.frames, ¬Redirected image.instructions frame.returnTo)
    (executed : (execute setup .stop).on { machine with next := machine.next + 1 } = (.ok (), after)) :
    Routing image.instructions (deeds ++ [.executes instruction machine]) after.output after.next after.frames ∧
      ¬Closing image.instructions after.next := by
  have console : after.output = none := by
    have stops : Meets (execute setup .stop) { machine with next := machine.next + 1 }
        (fun _ after => after.output = none) fun _ _ => True := by
      rw [Meets, execute, stop, on_seq (on_get _), on_seq (on_modify _ _)]
      exact meets_weaken (ends_write_back (apart_output.awaited none) _ trivial _ rfl) (fun _ _ stays => stays)
        fun _ _ _ => trivial
    rwa [Meets, executed] at stops
  obtain ⟨next, frames⟩ : after.next = image.instructions.size ∧ after.frames = machine.frames := by
    rw [← loaded]
    obtain same | ⟨_, same⟩ := executed_leads executed <;>
      exact ⟨congrArg Control.next same, congrArg Control.frames same⟩
  rw [console, next, frames]
  exact ⟨.of_calm routed.calm others, fun closing => routed.calm closing.1⟩

theorem execute_routes (routed : image.Routed spans) (loaded : machine.image = image)
    (routes : machine.Routes image deeds) (waitsNot : machine.pending = none)
    (found : image.instructions[machine.next]? = some instruction)
    (calm : ¬(Deed.executes instruction machine).Disturbs)
    (executed : (execute setup instruction.op).on { machine with next := machine.next + 1 } = (.ok (), after)) :
    after.Routes image (deeds ++ [.executes instruction machine]) := by
  obtain ⟨routing, closes⟩ :
      Routing image.instructions (deeds ++ [.executes instruction machine]) after.output after.next after.frames ∧
        (Closing image.instructions after.next → after.next = machine.next + 1) := by
    cases keeps : instruction.op.isRedirection with
    | false => exact kept_routing routed routes found keeps executed
    | true =>
      have others : ∀ frame ∈ machine.frames, ¬Redirected image.instructions frame.returnTo := by
        intro frame isFrame redirected
        exact calm ⟨keeps, frame, isFrame, loaded ▸ redirected⟩
      obtain isStop | selects := Op.redirection_cases keeps
      · rw [isStop] at executed
        exact (stopped_routing routed loaded others executed).imp_right fun goesOn closing => absurd closing goesOn
      · exact (selected_routing routes found selects others executed).imp_right fun next _ => next
  have leads := executed_leads executed
  refine ⟨leads.handlers_hold routes.handlers fun target declares => ?_, routing, fun closing => ?_⟩
  · exact routed.targets machine.next instruction target found (by rw [declares]; rfl)
  · have pushes := routed.closing_pushed found (closes closing ▸ closing)
    rw [pushes] at executed
    cases executed
    exact ⟨waitsNot, rfl⟩

end Executing

section Turns

theorem step_routes (routed : image.Routed spans) (tracked : machine.Tracked image spans deeds)
    (goes : machine.phase = .idle ∨ machine.phase = .running)
    (calm : ∀ deed ∈ (toldStep setup machine).1, ¬deed.Disturbs)
    (alive : (HostCall.step.after setup machine).phase ≠ .failed) :
    (HostCall.step.after setup machine).Routes image (deeds ++ (toldStep setup machine).1) := by
  obtain ⟨-, pending, sameImage⟩ := ready_waits setup machine
  have loaded : (ready setup machine).image = image := sameImage.trans tracked.loaded
  have waitsNot : (ready setup machine).pending = none := by
    refine pending.trans (tracked.orderly.waits_not fun suspended => ?_)
    simp [suspended] at goes
  rw [told_step_ready goes, List.forall_mem_append] at calm
  rw [HostCall.after_step, on_step_ready goes, loaded] at alive ⊢
  rw [told_step_ready goes, ← List.append_assoc, tracked.loaded]
  rw [tracked.loaded] at calm
  -- Events come before the instruction. None of them disturbs, so the routing is still that of the machine.
  have started := ready_routes setup tracked.loaded (tracked.routes (going_alive goes)) calm.1
  cases found : image.instructions[(ready setup machine).next]? with
  | none =>
    rw [List.append_nil]
    exact started.set_phase .finished
  | some instruction =>
    rw [found] at calm alive
    dsimp only at alive ⊢
    cases ran : (execute setup instruction.op).on { ready setup machine with next := (ready setup machine).next + 1 } with
    | mk result after =>
      rw [ran] at alive
      cases result with
      | error error => exact absurd rfl alive
      | ok _ =>
        have executed := execute_routes routed loaded started waitsNot found (calm.2 _ (List.mem_singleton_self _)) ran
        dsimp only
        split
        · exact executed.set_phase .finished
        · exact executed

theorem resume_routes (reply : Except DeviceError Reply) : Upholds (fun machine : Machine σ => machine.Orderly ∧
    (machine.phase ≠ .failed → machine.Routes image deeds)) (resume reply) := by
  rintro machine ⟨orderly, routes⟩
  refine ⟨resume_orders reply machine orderly, fun alive => ?_⟩
  cases waits : machine.pending with
  | none =>
    rw [on_resume_nothing waits] at alive ⊢
    exact routes alive
  | some pending =>
    have before := routes (by simp [orderly.mp (by rw [waits]; rfl)])
    have resumed := meets_resumed (apart_output.preserved machine.output) reply waits rfl (fun _ _ => trivial)
      fun _ _ _ _ held => held
    cases ran : (resume reply).on machine with
    | mk result after =>
      rw [Meets, ran] at resumed
      cases result with
      | error error =>
        obtain ⟨last, -, rfl⟩ := resumed
        rw [ran] at alive
        exact absurd rfl alive
      | ok _ =>
        have same := resume_control ran
        obtain ⟨last, kept, isLast⟩ := resumed
        have output : after.output = machine.output := by
          obtain ⟨notices, started⟩ := last.set_phase_only .running
          rw [isLast, started]
          exact kept
        have next : after.next = machine.next := congrArg Control.next same
        have frames : after.frames = machine.frames := congrArg Control.frames same
        have handlers : after.handlers = machine.handlers := congrArg Control.handlers same
        refine ⟨by rw [handlers]; exact before.handlers, by rw [output, next, frames]; exact before.routing, ?_⟩
        intro closing
        rw [next] at closing
        exact absurd (waits.symm.trans (before.closing closing).1) (by simp)

theorem turn_tracked (contained : image.Contained spans) (routed : image.Routed spans)
    (tracked : machine.Tracked image spans deeds) {turn : HostCall} (isTurn : turn.isTurn = true)
    (calm : ∀ deed ∈ turn.deeds setup machine, ¬deed.Disturbs) :
    (turn.after setup machine).Tracked image spans (deeds ++ turn.deeds setup machine) := by
  have nests : (turn.after setup machine).Nests image spans := by
    refine call_nests contained (fun other isLoad => ?_) machine tracked.toNests
    rw [isLoad] at isTurn
    cases isTurn
  refine ⟨nests, fun alive => ?_⟩
  cases turn with
  | load image | reset | tick | slice count => cases isTurn
  | dispatch key data =>
    rw [HostCall.deeds, List.append_nil]
    have routes := tracked.routes alive
    exact ⟨routes.handlers, routes.routing, routes.closing⟩
  | step =>
    by_cases goes : machine.phase = .idle ∨ machine.phase = .running
    · exact step_routes routed tracked goes calm alive
    · rw [HostCall.after_step, on_step_still goes] at alive ⊢
      rw [HostCall.deeds, told_step_still goes, List.append_nil]
      exact tracked.routes alive
  | resume reply =>
    rw [HostCall.deeds, List.append_nil]
    exact (resume_routes reply machine ⟨tracked.orderly, tracked.routes⟩).2 alive
  | service =>
    have asks : ∀ deed ∈ (toldService setup machine).1, ¬deed.Selects := by
      unfold toldService
      cases machine.pending <;> simp [Tale.silent, Deed.Selects]
    have serves : Upholds (fun machine : Machine σ => machine.Orderly ∧
        (machine.phase ≠ .failed → machine.Routes image deeds)) (service setup) := by
      refine upholds_service (fun _ _ held => ⟨held.1, fun alive => ?_⟩) resume_routes
      have routes := held.2 alive
      exact ⟨routes.handlers, routes.routing, routes.closing⟩
    exact ((serves machine ⟨tracked.orderly, tracked.routes⟩).2 alive).later asks

theorem turns_tracked (contained : image.Contained spans) (routed : image.Routed spans)
    (tracked : machine.Tracked image spans deeds) {turns : List HostCall}
    (areTurns : ∀ turn ∈ turns, turn.isTurn = true) (calm : ∀ deed ∈ machine.deeds setup turns, ¬deed.Disturbs) :
    (machine.afterAll setup turns).Tracked image spans (deeds ++ machine.deeds setup turns) := by
  induction turns generalizing machine deeds with
  | nil =>
    rw [Machine.deeds, List.append_nil]
    exact tracked
  | cons turn turns ih =>
    obtain ⟨isTurn, others⟩ := List.forall_mem_cons.mp areTurns
    rw [Machine.deeds, List.forall_mem_append] at calm
    rw [Machine.deeds, ← List.append_assoc]
    exact ih (turn_tracked contained routed tracked isTurn calm.1) others calm.2

theorem reset_tracked (contained : image.Contained spans) (loaded : machine.image = image) :
    machine.reset.Tracked image spans [] := by
  have outside : ¬Redirected image.instructions 0 := by simp [Redirected, selections]
  refine ⟨reset_nests contained loaded, fun _ => ⟨fun _ _ found => ?_, ?_, fun closing => ?_⟩⟩
  · cases found
  · exact .of_calm outside (List.forall_mem_singleton.mpr outside)
  · exact absurd closing.1 outside

-- Before any instruction that a program executes, what is printed to is what the code says.
theorem executes_routes (contained : image.Contained spans) (routed : image.Routed spans)
    (loaded : machine.image = image) {calls : List HostCall} (goOn : ∀ call ∈ calls, call.restarts = false)
    {before after : List (Deed σ)} {instruction : Instruction} {here : Machine σ}
    (done : machine.reset.deeds setup calls = before ++ .executes instruction here :: after) :
    image.instructions[here.next]? = some instruction ∧
      ((∀ deed ∈ before, ¬deed.Disturbs) → here.Routes image before) := by
  obtain ⟨turns, areTurns, sameDeeds, -⟩ := exists_turns setup machine.reset goOn
  rw [← sameDeeds] at done
  obtain ⟨early, late, rfl, goes, rfl, found, rfl, -⟩ := executes_splits setup machine.reset areTurns done
  have earlyTurns : ∀ turn ∈ early, turn.isTurn = true := fun turn isEarly => areTurns turn (by simp [isEarly])
  have start : machine.reset.Tracked image spans [] := reset_tracked contained loaded
  have nests := Machine.after_all_nests setup contained start.toNests fun turn isEarly other isLoad => by
    have isTurn := earlyTurns turn isEarly
    rw [isLoad] at isTurn
    cases isTurn
  refine ⟨nests.loaded ▸ found, fun calm => ?_⟩
  obtain ⟨calmTurns, calmNews⟩ := List.forall_mem_append.mp calm
  have tracked := turns_tracked contained routed start earlyTurns calmTurns
  exact ready_routes setup nests.loaded (tracked.routes (going_alive goes)) calmNews

end Turns

end Run

def Span.At (span : Span) (place start : Nat) (stmt : Stmt) : Prop :=
  span.Has place ∧ ∃ earlier later, span.places = earlier ++ (start, stmt) :: later ∧ start ≤ place ∧
    ∀ entry ∈ later, place < entry.1

section Items

variable {image : Image} {spans : List Span} {place : Nat} {instruction : Instruction}

-- The first selection of a statement that prints to a file is part of the statement.
theorem Image.Routed.statement (routed : image.Routed spans) (found : image.instructions[place]? = some instruction)
    (isText : instruction.op.isText = true) :
    ∃ span ∈ spans, ∃ start stmt file, span.At place start stmt ∧ stmt.output? = some file ∧
      (file.isSome = true ↔ Redirected image.instructions place) ∧
      ∀ opened, ¬Redirected image.instructions opened → Redirected image.instructions place →
        selections image.instructions place = selections image.instructions (opened + 1) →
        start ≤ opened ∧ opened < place := by
  obtain ⟨span, isSpan, inside, earlier, start, stmt, file, later, isNoted, starts, isLast, isOutput, calm, counted⟩ :=
    routed.items place instruction found isText
  refine ⟨span, isSpan, start, stmt, file, ⟨inside, earlier, later, isNoted, starts, isLast⟩, isOutput, ?_, ?_⟩
  · cases file with
    | none => exact iff_of_false Bool.false_ne_true (by rwa [Redirected, counted])
    | some _ =>
      refine iff_of_true rfl ?_
      rw [Redirected, counted, Option.isSome_some, if_pos rfl]
      rw [Redirected] at calm
      omega
  · intro opened outside redirected same
    have early (late : opened < start) :
        selections image.instructions (opened + 1) ≤ selections image.instructions start := selections_mono late
    have behind (late : place ≤ opened) :
        selections image.instructions place ≤ selections image.instructions opened := selections_mono late
    have next : selections image.instructions opened ≤ selections image.instructions (opened + 1) :=
      selections_mono (Nat.le_succ opened)
    rw [Redirected] at calm outside redirected
    split at counted <;> omega

end Items

/-- Each item of an accepted program is one of a statement that prints, and goes to what is selected and nowhere else.
Let nothing have disturbed a statement that prints to a file. If no such statement waits, the items of a statement
without a file go to the console, and those of one with a file to what the statement itself has selected, with nothing
selected since. While one waits, what it has called and what has interrupted it print to its file. -/
theorem items_go_where_selected (source : String) (registry : Registry) (program : Program) (image : Image)
    (parsed : parse (tokenize source).1 = .ok program) (quiet : (program.check registry).diagnostics = [])
    (coded : (program.check registry).program.image (program.check registry).symbols registry = .ok image) :
    ∃ spans, (program.check registry).program.layout? (program.check registry).symbols registry = some spans ∧
      ∀ (σ : Type) (setup : Setup σ) (machine : Machine σ) (calls : List HostCall) (before after : List (Run.Deed σ))
        (instruction : Instruction) (here : Machine σ), machine.image = image →
        (∀ call ∈ calls, call.restarts = false) →
        machine.reset.deeds setup calls = before ++ .executes instruction here :: after →
        instruction.op.isText = true →
        { here with next := here.next + 1 }.PrintsItem setup instruction.op here.output ∧
          ∃ span ∈ spans, ∃ start stmt file, span.At here.next start stmt ∧ stmt.output? = some file ∧
            ((∀ deed ∈ before, ¬deed.Disturbs) →
              ((∀ frame ∈ here.frames, ¬Redirected image.instructions frame.returnTo) →
                match file with
                | none => here.output = none
                | some _ => ∃ opened, Run.Selected before opened ∧ opened.frames = here.frames ∧
                    start ≤ opened.next ∧ opened.next < here.next ∧ opened.chosen? = some here.output) ∧
                ∀ frame ∈ here.frames, Redirected image.instructions frame.returnTo → file = none ∧
                  ∃ inner outer, here.frames = inner ++ frame :: outer ∧
                    Opened image.instructions before frame.returnTo outer here.output) := by
  have accepted := Program.check_accepted (parse_well_formed (tokenize_lexed source) parsed) quiet
  obtain ⟨spans, isLayout⟩ := Program.layout_of_image coded
  have contained := accepted.contained coded isLayout
  have routed := accepted.routed coded isLayout
  refine ⟨spans, isLayout, fun σ setup machine calls before after instruction here loaded goOn done isText => ?_⟩
  obtain ⟨found, routes⟩ := Run.executes_routes contained routed loaded goOn done
  obtain ⟨span, isSpan, start, stmt, file, isAt, isOutput, redirects, belongs⟩ := routed.statement found isText
  refine ⟨Run.item_printed setup _ isText, span, isSpan, start, stmt, file, isAt, isOutput, fun calm => ?_⟩
  -- Undisturbed, the item stands in the stretch of code that its statement opened, or in a call from there.
  have routing := (routes calm).routing
  refine ⟨fun others => ?_, fun frame isFrame inside => ?_⟩
  · cases file with
    | none => exact routing.console (mt redirects.mpr Bool.false_ne_true) others
    | some expr =>
      have inside := redirects.mp rfl
      obtain ⟨opened, selected, isFrames, outside, counted, chosen⟩ := (routing.inside inside).2
      obtain ⟨behind, ahead⟩ := belongs opened.next outside inside counted
      exact ⟨opened, selected, isFrames, behind, ahead, chosen⟩
  · refine ⟨?_, routing.redirected isFrame inside⟩
    cases file with
    | none => rfl
    | some expr => exact absurd inside ((routing.inside (redirects.mp rfl)).1 frame isFrame)

def filesSetup : Setup Bench := .ofDevices { Bench.bare with files := some Bench.fileStore } .standard

def printingMachine (image : Image) : Machine Bench := { Machine.create Bench.empty with image }

def printingDeeds (image : Image) : List (Run.Deed Bench) := (printingMachine image).reset.deeds filesSetup [.slice 30]

def samplePrinting : String :=
  "OPEN \"f\" FOR OUTPUT AS #1\nPRINT #1, F(3)\nCLOSE #1\nFUNCTION F(X)\nF = X * X\nEND FUNCTION\n"

def Run.item? (deeds : List (Run.Deed σ)) : Option (Instruction × Machine σ) :=
  deeds.findSome? fun
    | .executes instruction here => if instruction.op.isText then some (instruction, here) else none
    | _ => none

theorem Run.item_splits {deeds : List (Run.Deed σ)} {instruction : Instruction} {here : Machine σ}
    (isItem : Run.item? deeds = some (instruction, here)) : instruction.op.isText = true ∧
      ∃ before after, deeds = before ++ .executes instruction here :: after := by
  obtain ⟨before, deed, after, rfl, found, -⟩ := List.findSome?_eq_some_iff.mp isItem
  cases deed with
  | executes executed machine =>
    dsimp only at found
    split at found
    · next isText =>
      cases found
      exact ⟨isText, before, after, rfl⟩
    · cases found
  | delivers | asks => cases found

theorem square_goes_to_file : ∃ program image spans before instruction here after,
    parse (tokenize samplePrinting).1 = .ok program ∧
      (program.check .standard).program.image (program.check .standard).symbols .standard = .ok image ∧
      (program.check .standard).program.layout? (program.check .standard).symbols .standard = some spans ∧
      printingDeeds image = before ++ .executes instruction here :: after ∧
      here.output = some 1 ∧ { here with next := here.next + 1 }.PrintsItem filesSetup instruction.op here.output ∧
      ∃ span ∈ spans, ∃ start stmt file opened, span.At here.next start stmt ∧ stmt.output? = some (some file) ∧
        Run.Selected before opened ∧ start ≤ opened.next ∧ opened.next < here.next ∧
        opened.chosen? = some here.output := by
  obtain ⟨program, parsed, quiet, prints⟩ := exists_parsed samplePrinting
    (fun program => (program.check .standard).diagnostics = [] ∧
      ((program.check .standard).program.image (program.check .standard).symbols .standard).toOption.any
        (fun image => decide ((∀ deed ∈ printingDeeds image, ¬deed.Disturbs) ∧
          (Run.item? (printingDeeds image)).any (fun (_, here) => here.output = some 1 ∧
            ∀ frame ∈ here.frames, ¬Redirected image.instructions frame.returnTo) = true)) = true)
    (by decide +kernel)
  obtain ⟨image, coded, calm, prints⟩ := exists_ok _ prints
  obtain ⟨⟨instruction, here⟩, isItem, prints⟩ := (Option.any_eq_true _ _).mp prints
  obtain ⟨isFirst, others⟩ := of_decide_eq_true prints
  obtain ⟨isText, before, after, done⟩ := Run.item_splits isItem
  obtain ⟨spans, isLayout, goes⟩ := items_go_where_selected samplePrinting .standard program image parsed quiet coded
  obtain ⟨printed, span, isSpan, start, stmt, file, isAt, isOutput, destined⟩ :=
    goes Bench filesSetup (printingMachine image) [.slice 30] before after instruction here rfl (by decide) done isText
  have own := (destined fun deed isDone => calm deed (done ▸ List.mem_append_left _ isDone)).1 others
  refine ⟨program, image, spans, before, instruction, here, after, parsed, coded, isLayout, done, isFirst, printed, span,
    isSpan, ?_⟩
  cases file with
  | none => cases isFirst.symm.trans own
  | some expr =>
    obtain ⟨opened, selected, -, behind, ahead, chosen⟩ := own
    exact ⟨start, stmt, expr, opened, isAt, isOutput, selected, behind, ahead, chosen⟩

def sampleNested : String :=
  "OPEN \"f\" FOR OUTPUT AS #1\nPRINT #1, F(1)\nCLOSE #1\nFUNCTION F(X)\nPRINT \"in\"\nF = X\nEND FUNCTION\n"

/-- A statement without a file prints to that of the statement which has called it, and nothing to the console. -/
theorem called_item_goes_to_file : ∃ program image spans before instruction here after,
    parse (tokenize sampleNested).1 = .ok program ∧ (program.check .standard).diagnostics = [] ∧
      (program.check .standard).program.image (program.check .standard).symbols .standard = .ok image ∧
      (program.check .standard).program.layout? (program.check .standard).symbols .standard = some spans ∧
      printingDeeds image = before ++ .executes instruction here :: after ∧
      instruction.op.isText = true ∧ here.output = some 1 ∧
      (∃ span ∈ spans, ∃ start stmt, span.At here.next start stmt ∧ stmt.output? = some none) ∧
      let last := (printingMachine image).reset.afterAll filesSetup [.slice 30, .service, .slice 30]
      last.phase = .finished ∧ last.world.files.get? "f" = some "in\n1\n" ∧ last.world.output = "" := by
  obtain ⟨program, parsed, quiet, prints⟩ := exists_parsed sampleNested
    (fun program => (program.check .standard).diagnostics = [] ∧
      ((program.check .standard).program.image (program.check .standard).symbols .standard).toOption.any
        (fun image => decide ((Run.item? (printingDeeds image)).any (fun (_, here) =>
            here.output = some 1 ∧ ¬Redirected image.instructions here.next ∧
              image.instructions[here.next]?.any (·.op.isText) = true) = true ∧
          let last := (printingMachine image).reset.afterAll filesSetup [.slice 30, .service, .slice 30]
          last.phase = .finished ∧ last.world.files.get? "f" = some "in\n1\n" ∧ last.world.output = "")) = true)
    (by decide +kernel)
  obtain ⟨image, coded, prints, ended⟩ := exists_ok _ prints
  obtain ⟨⟨instruction, here⟩, isItem, prints⟩ := (Option.any_eq_true _ _).mp prints
  obtain ⟨toFile, outside, isPrinted⟩ := of_decide_eq_true prints
  obtain ⟨printed, found, isText⟩ := (Option.any_eq_true _ _).mp isPrinted
  obtain ⟨executed, before, after, done⟩ := Run.item_splits isItem
  have accepted := Program.check_accepted (parse_well_formed (tokenize_lexed sampleNested) parsed) quiet
  obtain ⟨spans, isLayout⟩ := Program.layout_of_image coded
  obtain ⟨span, isSpan, start, stmt, file, isAt, isOutput, redirects, -⟩ :=
    (accepted.routed coded isLayout).statement found isText
  obtain rfl : file = none := Option.not_isSome_iff_eq_none.mp (mt redirects.mp outside)
  exact ⟨program, image, spans, before, instruction, here, after, parsed, quiet, coded, isLayout, done, executed, toFile,
    ⟨span, isSpan, start, stmt, isAt, isOutput⟩, ended⟩

end BasicLang
