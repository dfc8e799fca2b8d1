import BasicLang.Proofs.Machine.Control

set_option autoImplicit false

namespace BasicLang

inductive HostCall where
  | load (image : Image)
  | reset
  | step
  | tick
  -- A tick whose time is up after some instructions.
  | slice (count : Nat)
  | resume (reply : Except DeviceError Reply)
  | service
  | dispatch (key data : String)

namespace HostCall

variable {σ : Type}

def run (setup : Setup σ) : HostCall → Run σ Unit
  | .load image => Run.loadImage setup image
  | .reset => modify Machine.reset
  | .step => do let _ ← Run.step setup
  | .tick => do let _ ← Run.tick setup
  | .slice count => Run.slice setup count
  | .resume reply => Run.resume reply
  | .service => Run.service setup
  | .dispatch key data => Run.dispatch key data

def after (setup : Setup σ) (machine : Machine σ) (call : HostCall) : Machine σ := ((call.run setup).on machine).2

def restarts : HostCall → Bool
  | .load _ | .reset => true
  | _ => false

variable (setup : Setup σ) (machine : Machine σ)

theorem after_step : HostCall.step.after setup machine = ((Run.step setup).on machine).2 := by
  rw [after, run, Run.on_bind]
  obtain ⟨result | _, last⟩ := (Run.step setup).on machine <;> rfl

theorem after_tick : HostCall.tick.after setup machine = ((Run.slice setup setup.budget).on machine).2 := by
  rw [after, run, Run.tick, Run.on_bind, Run.on_bind]
  obtain ⟨result | _, last⟩ := (Run.slice setup setup.budget).on machine <;> rfl

end HostCall

namespace Machine

variable {σ : Type} {machine : Machine σ}

def afterAll (setup : Setup σ) (machine : Machine σ) (calls : List HostCall) : Machine σ :=
  calls.foldl (HostCall.after setup) machine

def Orderly (machine : Machine σ) : Prop := machine.pending.isSome = true ↔ machine.phase = .suspended

theorem orderly_nothing (waitsNot : machine.pending = none) (phase : machine.phase ≠ .suspended) : machine.Orderly := by
  simp [Orderly, waitsNot, phase]

theorem set_phase_orderly {phase : Phase} (waitsNot : machine.pending = none) (notSuspended : phase ≠ .suspended) :
    (machine.setPhase phase).Orderly := by
  obtain ⟨notices, same⟩ := machine.set_phase_only phase
  rw [same]
  exact orderly_nothing waitsNot notSuspended

theorem fail_orderly (waitsNot : machine.pending = none) (error : RuntimeError) : (machine.fail error).Orderly :=
  orderly_nothing waitsNot (by simp [fail])

theorem reset_orderly (machine : Machine σ) : machine.reset.Orderly := orderly_nothing rfl (by simp [reset])

theorem Orderly.waits_not (orderly : machine.Orderly) (phase : machine.phase ≠ .suspended) : machine.pending = none := by
  simpa [phase] using mt orderly.mp phase

def Over (machine : Machine σ) : Prop := machine.phase = .finished ∨ machine.phase = .failed

end Machine

namespace Run

variable {σ α β : Type} {setup : Setup σ} {machine : Machine σ}

section Upholding

variable {holds : Machine σ → Prop}

def Upholds (holds : Machine σ → Prop) (action : Run σ α) : Prop :=
  ∀ machine, holds machine → holds (action.on machine).2

theorem upholds_value (value : α) : Upholds holds (pure value : Run σ α) := fun _ held => held

theorem upholds_get : Upholds holds (get : Run σ (Machine σ)) := fun _ held => held

theorem upholds_seq {first : Run σ α} {next : α → Run σ β} (upholds : Upholds holds first)
    (rest : ∀ value, Upholds holds (next value)) : Upholds holds (first >>= next) := by
  intro machine held
  have early := upholds machine held
  rw [on_bind]
  cases ran : first.on machine with
  | mk result after =>
    rw [ran] at early
    cases result with
    | error error => exact early
    | ok value => exact rest value after early

theorem upholds_slice (steps : Upholds holds (step setup)) (count : Nat) : Upholds holds (slice setup count) := by
  induction count with
  | zero => exact upholds_value ()
  | succ count ih =>
    refine upholds_seq steps fun executed => ?_
    split
    · exact ih
    · exact upholds_value ()

theorem upholds_service (world : ∀ machine world, holds machine → holds { machine with world })
    (replies : ∀ reply, Upholds holds (resume reply)) : Upholds holds (service setup) := by
  intro machine held
  rw [service, on_seq (on_get machine)]
  cases waits : machine.pending with
  | none => exact held
  | some pending =>
    refine (upholds_seq ?_ fun reply => replies reply) machine held
    exact fun machine held => world machine _ held

theorem upholds_call (steps : Upholds holds (step setup)) (replies : ∀ reply, Upholds holds (resume reply))
    (arrives : ∀ machine world events, holds machine → holds { machine with world, events }) {call : HostCall}
    (goesOn : call.restarts = false) : Upholds holds (call.run setup) := by
  cases call with
  | load image => cases goesOn
  | reset => cases goesOn
  | step => exact upholds_seq steps fun _ => upholds_value ()
  | tick =>
    refine upholds_seq (upholds_seq (upholds_slice steps _) fun _ => ?_) fun _ => upholds_value ()
    exact upholds_seq upholds_get fun _ => upholds_value _
  | slice count => exact upholds_slice steps count
  | resume reply => exact replies reply
  | service => exact upholds_service (fun machine world held => arrives machine world machine.events held) replies
  | dispatch key data => exact fun machine held => arrives machine machine.world _ held

end Upholding

section Orderly

theorem lead_waits {op : Op} {control after : Control} (leads : op.Leads control after)
    (running : control.phase = .running) (waitsNot : control.pending = none) :
    after.pending = none ∧ after.phase = .running ∨ after.pending.isSome = true ∧ after.phase = .suspended := by
  have goes (between : Control) (same : between.phase = control.phase ∧ between.pending = control.pending)
      (awaits : between.Awaits after) :
      after.pending = none ∧ after.phase = .running ∨ after.pending.isSome = true ∧ after.phase = .suspended := by
    obtain rfl | ⟨pending, rfl⟩ := awaits
    · exact .inl ⟨same.2.trans waitsNot, same.1.trans running⟩
    · exact .inr ⟨rfl, rfl⟩
  cases op with
  | jump target =>
    obtain ⟨place, _, rfl⟩ := leads
    exact .inl ⟨waitsNot, running⟩
  | jumpIfZero target | jumpIfNonzero target | forLoop target =>
    obtain rfl | ⟨place, _, rfl⟩ := leads
    · exact .inl ⟨waitsNot, running⟩
    · exact .inl ⟨waitsNot, running⟩
  | call target | gosub target =>
    obtain ⟨place, scope, _, rfl⟩ := leads
    exact .inl ⟨waitsNot, running⟩
  | ret =>
    obtain ⟨frame, outer, rest, _, rfl⟩ := leads
    exact .inl ⟨waitsNot, running⟩
  | stop => exact goes { control with next := control.image.instructions.size } ⟨rfl, rfl⟩ leads
  | onEvent target =>
    obtain ⟨key, place, _, rfl⟩ := leads
    exact .inl ⟨waitsNot, running⟩
  | _ => exact goes control ⟨rfl, rfl⟩ leads

theorem step_orders : Upholds Machine.Orderly (step setup) := by
  intro machine orderly
  by_cases goes : machine.phase = .idle ∨ machine.phase = .running
  · have waitsNot : machine.pending = none := by
      refine orderly.waits_not fun suspended => ?_
      rw [suspended] at goes
      simp at goes
    obtain ⟨running, same, -⟩ := ready_waits setup machine
    rw [on_step_ready goes]
    cases (ready setup machine).image.instructions[(ready setup machine).next]? with
    | none => exact Machine.set_phase_orderly (same.trans waitsNot) (by simp)
    | some instruction =>
      dsimp only
      have moved := execute_moves setup instruction.op
        { ready setup machine with next := (ready setup machine).next + 1 }
      rw [Meets] at moved
      cases ran : (execute setup instruction.op).on
          { ready setup machine with next := (ready setup machine).next + 1 } with
      | mk result after =>
        rw [ran] at moved
        cases result with
        | error error =>
          obtain ⟨next, frames, leads⟩ := moved
          have still : after.pending = none := (congrArg Control.pending leads).trans (same.trans waitsNot)
          exact Machine.fail_orderly still _
        | ok _ =>
          dsimp only
          obtain ⟨still, runs⟩ | ⟨waits, suspended⟩ := lead_waits moved running (same.trans waitsNot)
          · split
            · exact Machine.set_phase_orderly still (by simp)
            · exact Machine.orderly_nothing still (by rw [show after.phase = .running from runs]; simp)
          · have notRunning : after.phase ≠ .running := by
              rw [show after.phase = .suspended from suspended]
              simp
            rw [if_neg fun both => notRunning both.2]
            exact ⟨fun _ => suspended, fun _ => waits⟩
  · rw [on_step_still goes]
    exact orderly

theorem resume_orders (reply : Except DeviceError Reply) :
    Upholds Machine.Orderly (resume reply : Run σ Unit) := by
  intro machine orderly
  cases waits : machine.pending with
  | none =>
    rw [on_resume_nothing waits]
    exact orderly
  | some pending =>
    have resumed := meets_resumed (preserved_control { machine.control with pending := none }) reply
      waits rfl (fun _ _ => trivial) fun _ _ _ _ held => held
    rw [Meets] at resumed
    cases ran : (resume reply).on machine with
    | mk result after =>
      rw [ran] at resumed
      cases result with
      | ok _ =>
        obtain ⟨last, same, rfl⟩ := resumed
        exact Machine.set_phase_orderly (congrArg Control.pending same) (by simp)
      | error error =>
        obtain ⟨last, same, rfl⟩ := resumed
        exact Machine.fail_orderly (congrArg Control.pending same) error

theorem call_orders (call : HostCall) : Upholds Machine.Orderly (call.run setup) := by
  cases restarts : call.restarts with
  | false => exact upholds_call step_orders resume_orders (fun _ _ _ orderly => orderly) restarts
  | true =>
    cases call with
    | load image => exact fun _ _ => Machine.reset_orderly _
    | reset => exact fun _ _ => Machine.reset_orderly _
    | _ => cases restarts

end Orderly

section Still

theorem on_slice_still (count : Nat) (rests : ¬(machine.phase = .idle ∨ machine.phase = .running)) :
    (slice setup count).on machine = (.ok (), machine) := by
  cases count with
  | zero => rfl
  | succ count =>
    rw [slice, on_seq (on_step_still rests)]
    rfl

theorem on_tick_still (rests : ¬(machine.phase = .idle ∨ machine.phase = .running)) :
    (tick setup).on machine = (.ok machine.phase, machine) := by
  rw [tick, on_seq (on_slice_still _ rests)]
  rfl

theorem resume_control {reply : Except DeviceError Reply} {after : Machine σ}
    (resumed : (resume reply).on machine = (.ok (), after)) :
    after.control = { machine.control with phase := .running, pending := none } := by
  cases waits : machine.pending with
  | none =>
    rw [on_resume_nothing waits] at resumed
    cases resumed
  | some pending =>
    have answered := meets_resumed (preserved_control { machine.control with pending := none }) reply waits rfl
      (fun _ _ => trivial) fun _ _ _ _ held => held
    rw [Meets, resumed] at answered
    obtain ⟨last, same, isLast⟩ := answered
    obtain ⟨notices, running⟩ := last.set_phase_only .running
    rw [isLast, running]
    exact congrArg (fun control : Control => { control with phase := .running }) same

theorem resume_keeps_place {reply : Except DeviceError Reply} {after : Machine σ}
    (resumed : (resume reply).on machine = (.ok (), after)) :
    after.next = machine.next ∧ after.frames = machine.frames ∧ after.phase = .running ∧ after.pending = none := by
  have same := resume_control resumed
  exact ⟨congrArg Control.next same, congrArg Control.frames same, congrArg Control.phase same,
    congrArg Control.pending same⟩

theorem resume_in_place (reply : Except DeviceError Reply) (machine : Machine σ) :
    ((resume reply).on machine).2.next = machine.next ∧ ((resume reply).on machine).2.frames = machine.frames ∧
      ((resume reply).on machine).2.handlers = machine.handlers := by
  cases waits : machine.pending with
  | none =>
    rw [on_resume_nothing waits]
    exact ⟨rfl, rfl, rfl⟩
  | some pending =>
    have resumed := meets_resumed (preserved_control { machine.control with pending := none }) reply waits rfl
      (fun _ _ => trivial) fun _ _ _ _ held => held
    rw [Meets] at resumed
    cases ran : (resume reply).on machine with
    | mk result after =>
      rw [ran] at resumed
      cases result with
      | ok _ =>
        have same := resume_control ran
        exact ⟨congrArg Control.next same, congrArg Control.frames same, congrArg Control.handlers same⟩
      | error error =>
        obtain ⟨last, same, rfl⟩ := resumed
        exact ⟨congrArg Control.next same, congrArg Control.frames same, congrArg Control.handlers same⟩

theorem over_stays (orderly : machine.Orderly) (isOver : machine.Over) {call : HostCall}
    (goesOn : call.restarts = false) : (call.after setup machine).phase = machine.phase := by
  have rests : ¬(machine.phase = .idle ∨ machine.phase = .running) := by
    rintro (idle | running)
    · simp [Machine.Over, idle] at isOver
    · simp [Machine.Over, running] at isOver
  have waitsNot : machine.pending = none := by
    refine orderly.waits_not fun suspended => ?_
    simp [Machine.Over, suspended] at isOver
  cases call with
  | load image => cases goesOn
  | reset => cases goesOn
  | step =>
    rw [HostCall.after, HostCall.run, on_seq (on_step_still rests)]
    rfl
  | tick =>
    rw [HostCall.after, HostCall.run, on_seq (on_tick_still rests)]
    rfl
  | slice count => rw [HostCall.after, HostCall.run, on_slice_still count rests]
  | resume reply => rw [HostCall.after, HostCall.run, on_resume_nothing waitsNot]
  | service =>
    rw [HostCall.after, HostCall.run, service, on_seq (on_get machine), waitsNot]
    rfl
  | dispatch key data => rfl

end Still

end Run

variable {σ : Type} (setup : Setup σ)

theorem Machine.after_all_holds {holds : Machine σ → Prop} {machine : Machine σ} {calls : List HostCall}
    (each : ∀ call ∈ calls, Run.Upholds holds (call.run setup)) (held : holds machine) :
    holds (machine.afterAll setup calls) := by
  induction calls generalizing machine with
  | nil => exact held
  | cons call calls ih =>
    obtain ⟨first, others⟩ := List.forall_mem_cons.mp each
    exact ih others (first machine held)

theorem Machine.after_all_orderly {machine : Machine σ} (orderly : machine.Orderly) (calls : List HostCall) :
    (machine.afterAll setup calls).Orderly :=
  after_all_holds setup (fun call _ => Run.call_orders call) orderly

/-- Whatever a host has done, the machine waits for a reply if and only if it is suspended. While it is suspended,
steps and slices leave it as it is. A reply that succeeds lets it run on from where it was, and one that nothing
waits for fails and changes nothing. Once it has ended, only a new start moves it. -/
theorem suspension_kept_by_every_call (world : σ) (calls : List HostCall) :
    let machine := (Machine.create world).afterAll setup calls
    (machine.pending.isSome = true ↔ machine.phase = .suspended) ∧
      (machine.phase = .suspended →
        (Run.step setup).on machine = (.ok false, machine) ∧
          (Run.tick setup).on machine = (.ok .suspended, machine) ∧
          ∀ count, (Run.slice setup count).on machine = (.ok (), machine)) ∧
      (∀ reply after, (Run.resume reply).on machine = (.ok (), after) →
        after.next = machine.next ∧ after.frames = machine.frames ∧ after.phase = .running ∧
          after.pending = none) ∧
      (machine.pending = none → ∀ reply,
        (Run.resume reply).on machine = (.error (.ofFault .nothingPending), machine)) ∧
      (machine.phase = .finished ∨ machine.phase = .failed → ∀ call : HostCall, call.restarts = false →
        (call.after setup machine).phase = machine.phase) := by
  intro machine
  have orderly : machine.Orderly :=
    Machine.after_all_orderly setup (Machine.orderly_nothing rfl (by simp [Machine.create])) calls
  refine ⟨orderly, fun suspended => ?_, fun reply after resumed => Run.resume_keeps_place resumed,
    fun waitsNot reply => Run.on_resume_nothing waitsNot reply, fun isOver call goesOn => Run.over_stays orderly isOver goesOn⟩
  have rests : ¬(machine.phase = .idle ∨ machine.phase = .running) := by simp [suspended]
  refine ⟨Run.on_step_still rests, ?_, fun count => Run.on_slice_still count rests⟩
  rw [Run.on_tick_still rests, suspended]

end BasicLang
