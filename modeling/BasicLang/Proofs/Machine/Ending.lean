import BasicLang.Proofs.Code.Generation
import BasicLang.Proofs.Machine.Deeds
import BasicLang.Proofs.Machine.Replies

set_option autoImplicit false

namespace BasicLang

variable {σ : Type}

namespace Run.Deed

def Interrupts : Deed σ → Prop
  | .delivers key _ machine => ∃ handler instruction, machine.handlers.get? key = some handler ∧
      machine.image.instructions[handler]? = some instruction
  | _ => False

/-- No instruction is executed, and no device is asked but for writing files. -/
def Closes : Deed σ → Prop
  | .delivers _ _ _ => True
  | .executes _ _ => False
  | .asks request _ => ∃ flushes, request = .saveFiles flushes

end Run.Deed

namespace Machine

/-- The machine has ended, or all that is left to do is to write files. -/
def Concludes (machine : Machine σ) : Prop :=
  machine.phase = .finished ∨
    machine.next = machine.image.instructions.size ∧
      (machine.phase = .running ∨
        machine.phase = .suspended ∧ ∃ flushes, machine.pending = some ⟨.saveFiles flushes, .ignore⟩)

def Interruptible (machine : Machine σ) : Prop :=
  machine.phase ≠ .finished ∧ ∀ frame ∈ machine.frames, frame.kind ≠ .event

end Machine

namespace Run

variable {setup : Setup σ} {machine : Machine σ}

theorem on_end {machine : Machine σ} (waitsNot : machine.pending = none) :
    ∃ after, (execute setup .stop).on machine = (.ok (), after) ∧
      after.frames = machine.frames ∧ after.next = after.image.instructions.size ∧
        ((machine.files.flushes = [] ∧ after.phase = machine.phase) ∨
          (machine.files.flushes ≠ [] ∧ after.phase = .suspended ∧
            after.pending = some ⟨.saveFiles (machine.flushes setup.devices), .ignore⟩)) := by
  rw [execute, stop, on_seq (on_get machine), on_seq (on_modify _ _), writeBack, ne_eq,
    ← machine.flushes_eq_nil_iff setup.devices]
  cases flushes : machine.flushes setup.devices with
  | nil => exact ⟨_, rfl, rfl, rfl, .inl ⟨rfl, rfl⟩⟩
  | cons flush others =>
    rw [if_neg (by simp), suspend, on_seq (on_get _), if_neg (by simp [waitsNot]), on_modify]
    refine ⟨_, rfl, ?_⟩
    obtain ⟨notices, same⟩ := Machine.set_phase_only
      { machine with
        next := machine.image.instructions.size, files := [], output := none
        pending := some ⟨.saveFiles (flush :: others), .ignore⟩ } .suspended
    rw [same]
    exact ⟨rfl, rfl, .inr ⟨by simp, rfl, rfl⟩⟩

theorem end_concludes (orderly : machine.Orderly) (goes : machine.phase = .idle ∨ machine.phase = .running)
    {locus : Locus} (found : machine.image.instructions[(ready setup machine).next]? = some ⟨.stop, locus⟩) :
    (HostCall.step.after setup machine).Concludes ∧
      ((HostCall.step.after setup machine).Interruptible → (ready setup machine).files.flushes ≠ [] ∧
        ∀ frame ∈ (ready setup machine).frames, frame.kind ≠ .event) := by
  obtain ⟨running, pending, image⟩ := ready_waits setup machine
  have waitsNot : (ready setup machine).pending = none := by
    refine pending.trans (orderly.waits_not fun suspended => ?_)
    rw [suspended] at goes
    simp at goes
  have started : { ready setup machine with next := (ready setup machine).next + 1 }.pending = none := waitsNot
  obtain ⟨after, executed, frames, next, closed⟩ := on_end started
  rw [HostCall.after_step, on_step_ready goes, image, found]
  dsimp only
  rw [executed]
  dsimp only
  obtain ⟨-, phase⟩ | ⟨flushes, suspended, waits⟩ := closed
  · rw [if_pos ⟨Nat.le_of_eq next.symm, phase.trans running⟩]
    have finished := set_phase_phase after .finished
    exact ⟨.inl finished, fun interruptible => absurd finished interruptible.1⟩
  · rw [if_neg (by simp [suspended])]
    refine ⟨.inr ⟨next, .inr ⟨suspended, _, waits⟩⟩, fun interruptible => ⟨flushes, ?_⟩⟩
    exact frames ▸ interruptible.2

section Closing

variable {after : Machine σ}

theorem concludes_of_control (same : after.control = machine.control) (concludes : machine.Concludes) :
    after.Concludes := by
  have phase : after.phase = machine.phase := congrArg Control.phase same
  have next : after.next = machine.next := congrArg Control.next same
  have image : after.image = machine.image := congrArg Control.image same
  have pending : after.pending = machine.pending := congrArg Control.pending same
  rwa [Machine.Concludes, phase, next, image, pending]

theorem interruptible_of_control (same : after.control = machine.control) (interruptible : after.Interruptible) :
    machine.Interruptible := by
  have phase : after.phase = machine.phase := congrArg Control.phase same
  have frames : after.frames = machine.frames := congrArg Control.frames same
  rwa [Machine.Interruptible, phase, frames] at interruptible

theorem reply_concludes (machine : Machine σ) {flushes : List Flush}
    (waits : machine.pending = some ⟨.saveFiles flushes, .ignore⟩)
    (suspended : machine.phase = .suspended) (next : machine.next = machine.image.instructions.size)
    (reply : Except DeviceError Reply) :
    ((resume reply).on machine).2.Concludes ∧
      (((resume reply).on machine).2.Interruptible → machine.Interruptible) := by
  obtain ⟨after, resumed⟩ := resume_succeeds waits rfl reply
  have same := resume_control resumed
  rw [resumed]
  have phase : after.phase = .running := congrArg Control.phase same
  have sameNext : after.next = machine.next := congrArg Control.next same
  have image : after.image = machine.image := congrArg Control.image same
  have frames : after.frames = machine.frames := congrArg Control.frames same
  refine ⟨.inr ⟨by rw [sameNext, image, next], .inl phase⟩, fun interruptible => ⟨by simp [suspended], ?_⟩⟩
  exact frames ▸ interruptible.2

-- Behind the last instruction a machine finishes, unless an event leads it elsewhere.
theorem step_finishes (running : machine.phase = .running) (next : machine.next = machine.image.instructions.size) :
    ((∃ deed ∈ (toldStep setup machine).1, deed.Interrupts) ∧ machine.Interruptible) ∨
      ((∀ deed ∈ (toldStep setup machine).1, deed.Closes) ∧
        (HostCall.step.after setup machine).phase = .finished) := by
  have goes : machine.phase = .idle ∨ machine.phase = .running := .inr running
  have finishes (nothing : machine.image.instructions[(ready setup machine).next]? = none) :
      (HostCall.step.after setup machine).phase = .finished := by
    rw [HostCall.after_step, on_step_ready goes, (ready_waits setup machine).2.2, nothing]
    exact set_phase_phase _ _
  rw [told_step_ready goes]
  obtain ⟨isNews, same⟩ | ⟨key, data, polled, handler, isNews, arrived, calm, found, same⟩ := news_cases setup machine
  · have stays : (ready setup machine).next = machine.image.instructions.size := (congrArg Control.next same).trans next
    have nothing : machine.image.instructions[(ready setup machine).next]? = none := by simp [stays]
    rw [isNews, nothing]
    exact .inr ⟨by simp, finishes nothing⟩
  · have enters : (ready setup machine).next = handler := congrArg Control.next same
    rw [isNews]
    cases code : machine.image.instructions[(ready setup machine).next]? with
    | none => exact .inr ⟨by simp [Deed.Closes], finishes code⟩
    | some instruction =>
      have handlers : polled.handlers = machine.handlers := congrArg Control.handlers arrived
      have image : polled.image = machine.image := congrArg Control.image arrived
      refine .inl ⟨⟨.delivers key data polled, by simp, handler, instruction, ?_, ?_⟩, by simp [running], calm⟩
      · rw [handlers, found]
      · rw [image, ← enters, code]

theorem turn_concludes (setup : Setup σ) (orderly : machine.Orderly) (concludes : machine.Concludes) {turn : HostCall}
    (isTurn : turn.isTurn = true) :
    ((∃ deed ∈ turn.deeds setup machine, deed.Interrupts) ∧ machine.Interruptible) ∨
      ((∀ deed ∈ turn.deeds setup machine, deed.Closes) ∧ (turn.after setup machine).Concludes ∧
        ((turn.after setup machine).Interruptible → machine.Interruptible)) := by
  have quiet (nothing : turn.deeds setup machine = []) (same : (turn.after setup machine).control = machine.control) :
      (∀ deed ∈ turn.deeds setup machine, deed.Closes) ∧ (turn.after setup machine).Concludes ∧
        ((turn.after setup machine).Interruptible → machine.Interruptible) :=
    ⟨by simp [nothing], concludes_of_control same concludes, interruptible_of_control same⟩
  -- Only the files that `END` has closed can be waited for.
  have writes {pending : Pending} (waits : machine.pending = some pending) :
      machine.phase = .suspended ∧ machine.next = machine.image.instructions.size ∧
        ∃ flushes, pending = ⟨.saveFiles flushes, .ignore⟩ := by
    have suspended : machine.phase = .suspended := orderly.mp (by rw [waits]; rfl)
    obtain finished | ⟨next, running | ⟨-, flushes, saves⟩⟩ := concludes
    · simp [suspended] at finished
    · simp [suspended] at running
    · exact ⟨suspended, next, flushes, Option.some.inj (waits.symm.trans saves)⟩
  cases turn with
  | load image | reset | tick | slice count => cases isTurn
  | dispatch key data => exact .inr (quiet rfl rfl)
  | step =>
    by_cases running : machine.phase = .running
    · obtain finished | ⟨next, -⟩ := concludes
      · simp [running] at finished
      · obtain interrupts | ⟨closes, finished⟩ := step_finishes running next
        · exact .inl interrupts
        · exact .inr ⟨closes, .inl finished, fun interruptible => absurd finished interruptible.1⟩
    · have rests : ¬(machine.phase = .idle ∨ machine.phase = .running) := by
        refine not_or.mpr ⟨fun idle => ?_, running⟩
        simp [Machine.Concludes, idle] at concludes
      refine .inr (quiet (told_step_still rests) ?_)
      rw [HostCall.after_step, on_step_still rests]
  | resume reply =>
    cases waits : machine.pending with
    | none =>
      obtain ⟨-, -, same⟩ := reply_to_nothing setup waits
      exact .inr (quiet rfl (by rw [same]))
    | some pending =>
      obtain ⟨suspended, next, flushes, rfl⟩ := writes waits
      exact .inr ⟨by simp [HostCall.deeds], reply_concludes machine waits suspended next reply⟩
  | service =>
    cases waits : machine.pending with
    | none =>
      obtain ⟨nothing, same, -⟩ := reply_to_nothing setup waits
      exact .inr (quiet nothing (by rw [same]))
    | some pending =>
      obtain ⟨suspended, next, flushes, rfl⟩ := writes waits
      obtain ⟨asks, same⟩ := service_asks setup waits
      refine .inr ⟨by simp [asks, Deed.Closes], ?_⟩
      rw [same]
      exact reply_concludes { machine with world := (setup.devices.perform (.saveFiles flushes) machine.world).2 } waits
        suspended next _

theorem turns_conclude (setup : Setup σ) {turns : List HostCall} (orderly : machine.Orderly) (concludes : machine.Concludes)
    (areTurns : ∀ turn ∈ turns, turn.isTurn = true) :
    ((∃ deed ∈ machine.deeds setup turns, deed.Interrupts) ∧ machine.Interruptible) ∨
      ((∀ deed ∈ machine.deeds setup turns, deed.Closes) ∧ (machine.afterAll setup turns).Concludes) := by
  induction turns generalizing machine with
  | nil => exact .inr ⟨by simp [Machine.deeds], concludes⟩
  | cons turn turns ih =>
    obtain ⟨isTurn, others⟩ := List.forall_mem_cons.mp areTurns
    rw [Machine.deeds]
    obtain ⟨⟨deed, isDone, interrupts⟩, interruptible⟩ | ⟨closes, later, back⟩ :=
      turn_concludes setup orderly concludes isTurn
    · exact .inl ⟨⟨deed, List.mem_append_left _ isDone, interrupts⟩, interruptible⟩
    · obtain ⟨⟨deed, isDone, interrupts⟩, interruptible⟩ | ⟨further, last⟩ :=
        ih (call_orders turn machine orderly) later others
      · exact .inl ⟨⟨deed, List.mem_append_right _ isDone, interrupts⟩, back interruptible⟩
      · exact .inr ⟨List.forall_mem_append.mpr ⟨closes, further⟩, last⟩

end Closing

theorem turn_interrupts (setup : Setup σ) {turn : HostCall} (isTurn : turn.isTurn = true) {deed : Deed σ}
    (isDone : deed ∈ turn.deeds setup machine) (interrupts : deed.Interrupts) :
    ∃ instruction here, Deed.executes instruction here ∈ turn.deeds setup machine := by
  cases turn with
  | load image | reset | tick | slice count => cases isTurn
  | resume reply | dispatch key data => cases isDone
  | service =>
    have asks : ∀ deed ∈ (toldService setup machine).1, ¬deed.Interrupts := by
      unfold toldService
      cases machine.pending <;> simp [Tale.silent, Deed.Interrupts]
    exact absurd interrupts (asks deed isDone)
  | step =>
    by_cases goes : machine.phase = .idle ∨ machine.phase = .running
    · rw [HostCall.deeds, told_step_ready goes] at isDone ⊢
      cases found : machine.image.instructions[(ready setup machine).next]? with
      | some instruction => exact ⟨instruction, ready setup machine, by simp⟩
      | none =>
        rw [found, List.append_nil] at isDone
        obtain ⟨isNews, -⟩ | ⟨key, data, polled, handler, isNews, arrived, -, isHandler, same⟩ := news_cases setup machine
        · rw [isNews] at isDone
          cases isDone
        · rw [isNews, List.mem_singleton] at isDone
          subst isDone
          obtain ⟨place, instruction, isPlace, code⟩ := interrupts
          have handlers : polled.handlers = machine.handlers := congrArg Control.handlers arrived
          have image : polled.image = machine.image := congrArg Control.image arrived
          have enters : (ready setup machine).next = handler := congrArg Control.next same
          obtain rfl : place = handler := Option.some.inj (isPlace.symm.trans (handlers ▸ isHandler))
          rw [image, ← enters, found] at code
          cases code
    · rw [HostCall.deeds, told_step_still goes] at isDone
      cases isDone

theorem turns_interrupt (setup : Setup σ) {turns : List HostCall} (areTurns : ∀ turn ∈ turns, turn.isTurn = true)
    (interrupted : ∃ deed ∈ machine.deeds setup turns, deed.Interrupts) :
    ∃ instruction here, Deed.executes instruction here ∈ machine.deeds setup turns := by
  obtain ⟨deed, isDone, interrupts⟩ := interrupted
  induction turns generalizing machine with
  | nil => cases isDone
  | cons turn turns ih =>
    obtain ⟨isTurn, others⟩ := List.forall_mem_cons.mp areTurns
    obtain now | later := List.mem_append.mp isDone
    · obtain ⟨instruction, here, executes⟩ := turn_interrupts setup isTurn now interrupts
      exact ⟨instruction, here, List.mem_append_left _ executes⟩
    · obtain ⟨instruction, here, executes⟩ := ih others later
      exact ⟨instruction, here, List.mem_append_right _ executes⟩

end Run

/-- After `END` an instruction is executed if and only if an event enters a handler with code. That takes files that
have to be written, and no handler that `END` was in. Otherwise all that is asked of the devices is to write files,
and the machine has ended or waits for that only. -/
theorem end_is_final_unless_interrupted (setup : Setup σ) (world : σ) (history calls : List HostCall)
    (goOn : ∀ call ∈ calls, call.restarts = false) (before after : List (Run.Deed σ)) (locus : Locus)
    (ended : Machine σ)
    (done : ((Machine.create world).afterAll setup history).deeds setup calls =
      before ++ .executes ⟨.stop, locus⟩ ended :: after) :
    ((∃ instruction later, Run.Deed.executes instruction later ∈ after) ↔ ∃ deed ∈ after, deed.Interrupts) ∧
      ((∃ deed ∈ after, deed.Interrupts) →
        ended.files.flushes ≠ [] ∧ ∀ frame ∈ ended.frames, frame.kind ≠ .event) ∧
      ((∀ deed ∈ after, ¬deed.Interrupts) → (∀ deed ∈ after, deed.Closes) ∧
        (((Machine.create world).afterAll setup history).afterAll setup calls).Concludes) := by
  have orderly := Machine.after_all_orderly setup
    (Machine.orderly_nothing rfl (by simp [Machine.create]) : (Machine.create world).Orderly) history
  generalize (Machine.create world).afterAll setup history = machine at done orderly ⊢
  obtain ⟨turns, areTurns, sameDeeds, sameAfter⟩ := Run.exists_turns setup machine goOn
  rw [← sameDeeds] at done
  -- The calls are cut behind the turn that executes `END`. All that follows is about the later ones.
  obtain ⟨early, late, rfl, goes, rfl, found, -, rfl⟩ := Run.executes_splits setup machine areTurns done
  have lateTurns : ∀ turn ∈ late, turn.isTurn = true := fun turn isLate => areTurns turn (by simp [isLate])
  have reached := Machine.after_all_orderly setup orderly early
  obtain ⟨concludes, interruptible⟩ := Run.end_concludes reached goes found
  obtain ⟨interrupts, can⟩ | ⟨closes, last⟩ :=
    Run.turns_conclude setup (Run.call_orders .step _ reached) concludes lateTurns
  · refine ⟨⟨fun _ => interrupts, Run.turns_interrupt setup lateTurns⟩, fun _ => interruptible can, fun none => ?_⟩
    obtain ⟨deed, isDone, does⟩ := interrupts
    exact absurd does (none deed isDone)
  · have executesNot : ¬∃ instruction later, Run.Deed.executes instruction later ∈
        (HostCall.step.after setup (machine.afterAll setup early)).deeds setup late := by
      rintro ⟨instruction, later, executes⟩
      exact closes _ executes
    have interruptsNot := mt (Run.turns_interrupt setup lateTurns) executesNot
    refine ⟨iff_of_false executesNot interruptsNot, fun interrupts => absurd interrupts interruptsNot,
      fun _ => ⟨closes, ?_⟩⟩
    rw [← sameAfter, Machine.after_all_append]
    exact last

def sampleEnding : String :=
  "ON EVENT \"k\" GOSUB H\nOPEN \"f\" FOR OUTPUT AS #1\nEND\nH: PRINT \"late\"\nRETURN\n"

def Run.afterEnd? : List (Run.Deed σ) → Option (List (Run.Deed σ))
  | [] => none
  | .executes ⟨.stop, _⟩ _ :: after => some after
  | _ :: deeds => Run.afterEnd? deeds

theorem Run.after_end_splits {deeds after : List (Run.Deed σ)} (isAfter : Run.afterEnd? deeds = some after) :
    ∃ before locus ended, deeds = before ++ .executes ⟨.stop, locus⟩ ended :: after := by
  fun_induction Run.afterEnd? deeds with
  | case1 => cases isAfter
  | case2 locus ended rest =>
    cases isAfter
    exact ⟨[], locus, ended, rfl⟩
  | case3 deed deeds _ ih =>
    obtain ⟨before, locus, ended, same⟩ := ih isAfter
    exact ⟨deed :: before, locus, ended, congrArg (deed :: ·) same⟩

def Run.Deed.isDelivery : Run.Deed σ → Bool
  | .delivers _ _ _ => true
  | _ => false

def Run.Deed.isExecution : Run.Deed σ → Bool
  | .executes _ _ => true
  | _ => false

def endingSetup : Setup Bench := .ofDevices { Bench.bare with files := some Bench.fileStore } .standard

def endingDeeds (image : Image) (calls : List HostCall) : List (Run.Deed Bench) :=
  ((Machine.create Bench.empty).afterAll endingSetup [.load image]).deeds endingSetup calls

theorem files_written_after_end : ∃ image before locus ended after, compile sampleEnding .standard = .ok image ∧
    endingDeeds image [.slice 20, .service, .step] = before ++ .executes ⟨.stop, locus⟩ ended :: after ∧
      after ≠ [] ∧ ∀ deed ∈ after, deed.Closes := by
  obtain ⟨image, compiled, quiet⟩ := exists_compiled sampleEnding
    (fun image => (Run.afterEnd? (endingDeeds image [.slice 20, .service, .step])).any
      (fun after => !after.isEmpty && after.all (!·.isDelivery)) = true)
    (by decide +kernel)
  obtain ⟨after, isAfter, quiet⟩ := (Option.any_eq_true _ _).mp quiet
  obtain ⟨some_, quiet⟩ := Bool.and_eq_true_iff.mp quiet
  obtain ⟨before, locus, ended, done⟩ := Run.after_end_splits isAfter
  obtain ⟨-, -, closes⟩ := end_is_final_unless_interrupted endingSetup Bench.empty [.load image]
    [.slice 20, .service, .step] (by decide) before after locus ended done
  refine ⟨image, before, locus, ended, after, compiled, done, by simpa using some_, (closes ?_).1⟩
  intro deed isDone interrupts
  have delivers := List.all_eq_true.mp quiet deed isDone
  cases deed with
  | delivers key data machine => cases delivers
  | executes instruction machine => exact interrupts
  | asks request machine => exact interrupts

/-- The event arrives while the file is written, and its handler prints. -/
theorem handler_runs_after_end : ∃ image before locus ended after, compile sampleEnding .standard = .ok image ∧
    endingDeeds image [.slice 20, .dispatch "k" "", .service, .slice 20] =
      before ++ .executes ⟨.stop, locus⟩ ended :: after ∧
      ∃ instruction later, Run.Deed.executes instruction later ∈ after := by
  obtain ⟨image, compiled, late⟩ := exists_compiled sampleEnding
    (fun image => (Run.afterEnd? (endingDeeds image [.slice 20, .dispatch "k" "", .service, .slice 20])).any
      (fun after => after.any (·.isExecution)) = true)
    (by decide +kernel)
  obtain ⟨after, isAfter, late⟩ := (Option.any_eq_true _ _).mp late
  obtain ⟨deed, isDone, executes⟩ := List.any_eq_true.mp late
  obtain ⟨before, locus, ended, done⟩ := Run.after_end_splits isAfter
  refine ⟨image, before, locus, ended, after, compiled, done, ?_⟩
  cases deed with
  | executes instruction machine => exact ⟨instruction, machine, isDone⟩
  | delivers key data machine => cases executes
  | asks request machine => cases executes

end BasicLang
