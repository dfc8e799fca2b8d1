import BasicLang.Proofs.Machine.Views

set_option autoImplicit false

namespace BasicLang

structure Control where
  image : Image
  next : Nat
  frames : List Frame
  phase : Phase
  pending : Option Pending
  handlers : Table Nat

namespace Machine

variable {σ : Type}

def control (machine : Machine σ) : Control :=
  { image := machine.image, next := machine.next, frames := machine.frames, phase := machine.phase
    pending := machine.pending, handlers := machine.handlers }

end Machine

def Control.Awaits (control after : Control) : Prop :=
  after = control ∨ ∃ pending, after = { control with phase := .suspended, pending := some pending }

def Op.Leads (op : Op) (control after : Control) : Prop :=
  match op with
  | .jump target => ∃ place, target = .resolved place ∧ after = { control with next := place }
  | .jumpIfZero target | .jumpIfNonzero target | .forLoop target =>
    after = control ∨ ∃ place, target = .resolved place ∧ after = { control with next := place }
  | .call target =>
    ∃ place scope, target = .resolved place ∧
      after = { control with next := place, frames := ⟨.call, control.next, scope⟩ :: control.frames }
  | .gosub target =>
    ∃ place scope, target = .resolved place ∧
      after = { control with next := place, frames := ⟨.gosub, control.next, scope⟩ :: control.frames }
  | .ret =>
    ∃ frame outer rest, control.frames = frame :: outer :: rest ∧
      after = { control with next := frame.returnTo, frames := outer :: rest }
  | .stop => { control with next := control.image.instructions.size }.Awaits after
  | .onEvent target =>
    ∃ key place, target = .resolved place ∧ after = { control with handlers := control.handlers.set key place }
  | _ => control.Awaits after

namespace Run

variable {σ α β : Type} {control : Control}

section Keeping

theorem aside_control : Aside (Machine.control : Machine σ → Control) where
  computing := fun _ _ _ _ => rfl
  around := fun _ _ _ _ _ _ => rfl

theorem preserved_control (control : Control) :
    Preserved (fun machine : Machine σ => machine.control = control) fun _ => True :=
  aside_control.preserved control

theorem awaited_control (control : Control) : Awaited (fun machine : Machine σ => machine.control = control)
    (fun machine => control.Awaits machine.control) (fun _ => True) fun _ => True where
  at_once := fun _ held => .inl held
  waits := fun _ request completion _ held _ _ _ => .inr ⟨⟨request, completion⟩, by rw [← held]; rfl⟩

end Keeping

section Leading

variable {setup : Setup σ}

def Moves (op : Op) (action : Run σ α) : Prop :=
  ∀ machine, Meets action machine (fun _ after => op.Leads machine.control after.control)
    fun _ after => ∃ next frames, after.control = { machine.control with next, frames }

theorem moves_stays {op : Op} {action : Run σ Unit} (leads : ∀ control, op.Leads control control)
    (stays : Stays Machine.control action) : Moves op action := by
  intro machine
  refine meets_weaken (stays machine.control machine rfl) (fun _ after stayed => ?_)
    fun _ after stayed => ⟨_, _, stayed⟩
  rw [stayed.1]
  exact leads machine.control

theorem moves_then {op : Op} {first : Run σ α} {next : α → Run σ β} (stays : Stays Machine.control first)
    (moves : ∀ value, Moves op (next value)) : Moves op (first >>= next) := by
  intro machine
  refine meets_seq (meets_weaken (stays machine.control machine rfl) (fun value after stayed => ?_)
    fun _ after stayed => ⟨_, _, stayed⟩)
  have moved := moves value after
  rw [stayed.1] at moved
  exact moved

theorem moves_jump {op : Op} {target : Target} (leads : ∀ control place, target = .resolved place →
    op.Leads control { control with next := place }) : Moves op (jump target : Run σ Unit) := by
  intro machine
  cases target with
  | label id => exact ⟨_, _, rfl⟩
  | resolved place => exact leads machine.control place rfl

theorem moves_jump_if {op : Op} {target : Target} {condition : Prop} [Decidable condition]
    (leads : ∀ control after,
      (after = control ∨ ∃ place, target = .resolved place ∧ after = { control with next := place }) →
        op.Leads control after) : Moves op (if condition then jump target else pure () : Run σ Unit) := by
  split
  · exact moves_jump fun control place isTarget => leads control _ (.inr ⟨place, isTarget, rfl⟩)
  · exact moves_stays (fun control => leads control control (.inl rfl)) (stays_value ())

theorem moves_enter {op : Op} {kind : FrameKind} {scope : Nat} {target : Target} {between : Run σ Unit}
    (stays : Stays Machine.control between) (leads : ∀ control place, target = .resolved place →
      op.Leads control { control with next := place, frames := ⟨kind, control.next, scope⟩ :: control.frames }) :
    Moves op (do enter setup kind scope; between; jump target : Run σ Unit) := by
  intro machine
  rw [Meets, on_bind, enter, on_seq (on_get machine)]
  by_cases full : setup.maxDepth ≤ machine.frames.length
  · rw [if_pos full]
    exact ⟨_, _, rfl⟩
  · rw [if_neg full, on_modify]
    have entered := stays _ { machine with frames := ⟨kind, machine.next, scope⟩ :: machine.frames } rfl
    refine meets_seq (meets_weaken entered (fun _ after same => ?_) fun _ _ same => ⟨_, _, same⟩)
    cases target with
    | label id => exact ⟨_, _, same.1⟩
    | resolved place =>
      have moved : op.Leads machine.control { after.control with next := place } := by
        rw [same.1]
        exact leads machine.control place rfl
      exact moved

theorem moves_return : Moves .ret (ret : Run σ Unit) := by
  intro machine
  rw [Meets, ret, on_seq (on_get machine)]
  cases frames : machine.frames with
  | nil => exact ⟨_, _, rfl⟩
  | cons frame others =>
    cases others with
    | nil => exact ⟨_, _, rfl⟩
    | cons outer rest => exact ⟨frame, outer, rest, frames, rfl⟩

theorem moves_stop (setup : Setup σ) : Moves .stop (stop setup : Run σ Unit) := by
  intro machine
  rw [Meets, stop, on_seq (on_get machine), on_seq (on_modify _ _)]
  refine meets_weaken (ends_write_back (awaited_control _) _ trivial _ rfl) (fun _ _ waits => waits) fun _ after same => ?_
  exact ⟨_, _, same⟩

theorem moves_awaits {op : Op} {action : Run σ Unit}
    (leads : ∀ control after, Control.Awaits control after → op.Leads control after)
    (ends : ∀ control, Ends (fun machine => machine.control = control)
      (fun machine => control.Awaits machine.control) action) : Moves op action := by
  intro machine
  exact meets_weaken (ends machine.control machine rfl) (fun _ after waits => leads _ _ waits)
    fun _ after same => ⟨_, _, same⟩

theorem execute_moves (setup : Setup σ) (op : Op) : Moves op (execute setup op) := by
  have value : Stays Machine.control (popValue : Run σ Value) := stays_pop_value aside_control
  have number : Stays Machine.control (popNumber : Run σ Float) := stays_pop_number aside_control
  cases op with
  | jump target => exact moves_jump fun _ place isTarget => ⟨place, isTarget, rfl⟩
  | jumpIfZero target => exact moves_then value fun _ => moves_jump_if fun _ _ => id
  | jumpIfNonzero target => exact moves_then value fun _ => moves_jump_if fun _ _ => id
  | call target =>
    exact moves_then stays_get fun machine => moves_enter (stays_modify fun _ => rfl)
      fun _ place isTarget => ⟨place, _, isTarget, rfl⟩
  | gosub target =>
    exact moves_then stays_get fun machine => moves_enter (stays_value ())
      fun _ place isTarget => ⟨place, _, isTarget, rfl⟩
  | ret => exact moves_return
  | forLoop target =>
    exact moves_then number fun _ => moves_then number fun _ => moves_then number fun _ => moves_jump_if fun _ _ => id
  | stop => exact moves_stop setup
  | syscall name =>
    exact moves_awaits (fun _ _ => id) fun control =>
      ends_syscall (preserved_control _) (awaited_control _) setup setup.devices.within_any name (fun _ _ _ held => held)
        (fun _ _ _ _ held => held) fun _ _ => trivial
  | onEvent target =>
    refine moves_then (stays_pop_text aside_control) fun key => fun machine => ?_
    cases target with
    | label id => exact ⟨_, _, rfl⟩
    | resolved place => exact ⟨key, place, rfl, rfl⟩
  | _ => exact moves_stays (fun _ => .inl rfl) (computing_stays aside_control setup rfl (fun _ _ _ => rfl) fun _ _ _ => rfl)

def ready (setup : Setup σ) (machine : Machine σ) : Machine σ :=
  deliverEvent (pollEvents setup.devices (machine.setPhase .running))

theorem on_step_still {machine : Machine σ} (rests : ¬(machine.phase = .idle ∨ machine.phase = .running)) :
    (step setup).on machine = (.ok false, machine) := by
  obtain ⟨notIdle, notRunning⟩ := not_or.mp rests
  rw [step, on_seq (on_modify _ _), if_neg notIdle, on_seq (on_get _), if_pos notRunning]
  rfl

theorem start_running {machine : Machine σ} (goes : machine.phase = .idle ∨ machine.phase = .running) :
    (if machine.phase = .idle then machine.setPhase .running else machine) = machine.setPhase .running := by
  split
  · rfl
  · next notIdle =>
    obtain idle | running := goes
    · exact absurd idle notIdle
    · rw [Machine.setPhase, if_pos running]

theorem set_phase_phase (machine : Machine σ) (phase : Phase) : (machine.setPhase phase).phase = phase := by
  obtain ⟨notices, same⟩ := machine.set_phase_only phase
  rw [same]

theorem on_step_ready {machine : Machine σ} (goes : machine.phase = .idle ∨ machine.phase = .running) :
    (step setup).on machine =
      match (ready setup machine).image.instructions[(ready setup machine).next]? with
      | none => (.ok false, (ready setup machine).setPhase .finished)
      | some instruction =>
        match (execute setup instruction.op).on { ready setup machine with next := (ready setup machine).next + 1 } with
        | (.ok _, after) => (.ok true,
            if after.image.instructions.size ≤ after.next ∧ after.phase = .running then after.setPhase .finished
            else after)
        | (.error error, after) => (.error (error.atLocus instruction.locus), after.fail (error.atLocus instruction.locus)) := by
  rw [step, on_seq (on_modify _ _), start_running goes, on_seq (on_get _),
    if_neg (not_not_intro (set_phase_phase machine .running)), on_seq (on_modify _ _),
    on_seq (on_get _)]
  change (match (ready setup machine).image.instructions[(ready setup machine).next]? with
    | none => _
    | some instruction => _ : Run σ Bool).on (ready setup machine) = _
  cases (ready setup machine).image.instructions[(ready setup machine).next]? with
  | none => rfl
  | some instruction =>
    dsimp only
    rw [on_seq (on_modify _ _), on_bind, on_failing]
    cases (execute setup instruction.op).on { ready setup machine with next := (ready setup machine).next + 1 } with
    | mk result after =>
      cases result with
      | error error => rfl
      | ok _ => rfl

theorem deliver_cases (machine : Machine σ) :
    (deliverEvent machine = machine ∧ (machine.events = [] ∨ ∃ frame ∈ machine.frames, frame.kind = .event)) ∨
      ∃ key data rest, machine.events = (key, data) :: rest ∧ (∀ frame ∈ machine.frames, frame.kind ≠ .event) ∧
        ((machine.handlers.get? key = none ∧ deliverEvent machine = { machine with events := rest }) ∨
          ∃ handler, machine.handlers.get? key = some handler ∧
            deliverEvent machine =
              { machine with
                events := rest, eventData := data, next := handler
                frames := ⟨.event, machine.next, 0⟩ :: machine.frames }) := by
  unfold deliverEvent
  cases waiting : machine.events with
  | nil => exact .inl ⟨rfl, .inl rfl⟩
  | cons event rest =>
    obtain ⟨key, data⟩ := event
    dsimp only
    by_cases handles : (machine.frames.any fun frame => frame.kind == .event) = true
    · rw [if_pos handles]
      exact .inl ⟨rfl, .inr (by simpa using handles)⟩
    · rw [if_neg handles]
      refine .inr ⟨key, data, rest, rfl, by simpa using handles, ?_⟩
      cases machine.handlers.get? key with
      | none => exact .inl ⟨rfl, rfl⟩
      | some handler => exact .inr ⟨handler, rfl, rfl⟩

theorem poll_control (setup : Setup σ) (machine : Machine σ) :
    (pollEvents setup.devices (machine.setPhase .running)).control = { machine.control with phase := .running } := by
  obtain ⟨notices, started⟩ := machine.set_phase_only .running
  rw [started, pollEvents]
  cases setup.devices.bus <;> rfl

theorem ready_control (setup : Setup σ) (machine : Machine σ) :
    (ready setup machine).control = { machine.control with phase := .running } ∨
      ∃ key handler, machine.handlers.get? key = some handler ∧
        (ready setup machine).control =
          { machine.control with
            phase := .running, next := handler, frames := ⟨.event, machine.next, 0⟩ :: machine.frames } := by
  have polled := poll_control setup machine
  have handlers : (pollEvents setup.devices (machine.setPhase .running)).handlers = machine.handlers :=
    congrArg Control.handlers polled
  rw [ready]
  obtain ⟨still, -⟩ | ⟨key, data, rest, -, -, ⟨-, dropped⟩ | ⟨handler, found, entered⟩⟩ :=
    deliver_cases (pollEvents setup.devices (machine.setPhase .running))
  · exact .inl ((congrArg Machine.control still).trans polled)
  · exact .inl ((congrArg Machine.control dropped).trans polled)
  · refine .inr ⟨key, handler, handlers ▸ found, ?_⟩
    rw [entered]
    exact congrArg (fun control : Control =>
      { control with next := handler, frames := ⟨.event, control.next, 0⟩ :: control.frames }) polled

theorem ready_waits (setup : Setup σ) (machine : Machine σ) :
    (ready setup machine).phase = .running ∧ (ready setup machine).pending = machine.pending ∧
      (ready setup machine).image = machine.image := by
  obtain same | ⟨_, _, -, same⟩ := ready_control setup machine <;>
    exact ⟨congrArg Control.phase same, congrArg Control.pending same, congrArg Control.image same⟩

theorem step_control {machine after : Machine σ} (goes : machine.phase = .idle ∨ machine.phase = .running)
    (stepped : ((step setup).on machine).2 = after) :
    (machine.image.instructions[(ready setup machine).next]? = none ∧
        after.control = { (ready setup machine).control with phase := .finished }) ∨
      ∃ instruction, machine.image.instructions[(ready setup machine).next]? = some instruction ∧
        ((∃ next frames, after.control = { (ready setup machine).control with next, frames, phase := .failed }) ∨
          ∃ control phase,
            instruction.op.Leads { (ready setup machine).control with next := (ready setup machine).next + 1 } control ∧
              after.control = { control with phase }) := by
  rw [on_step_ready goes, (ready_waits setup machine).2.2] at stepped
  have phased (machine : Machine σ) (phase : Phase) :
      (machine.setPhase phase).control = { machine.control with phase } := by
    obtain ⟨notices, same⟩ := machine.set_phase_only phase
    rw [same]
    rfl
  cases found : machine.image.instructions[(ready setup machine).next]? with
  | none =>
    rw [found] at stepped
    exact .inl ⟨rfl, stepped ▸ phased _ _⟩
  | some instruction =>
    rw [found] at stepped
    dsimp only at stepped
    refine .inr ⟨instruction, rfl, ?_⟩
    have moved := execute_moves setup instruction.op { ready setup machine with next := (ready setup machine).next + 1 }
    rw [Meets] at moved
    cases ran : (execute setup instruction.op).on { ready setup machine with next := (ready setup machine).next + 1 } with
    | mk result last =>
      rw [ran] at moved stepped
      cases result with
      | error error =>
        obtain ⟨next, frames, same⟩ := moved
        refine .inl ⟨next, frames, stepped ▸ ?_⟩
        exact congrArg (fun control : Control => { control with phase := .failed }) same
      | ok _ =>
        dsimp only at stepped
        by_cases isOver : last.image.instructions.size ≤ last.next ∧ last.phase = .running
        · rw [if_pos isOver] at stepped
          exact .inr ⟨last.control, .finished, moved, stepped ▸ phased _ _⟩
        · rw [if_neg isOver] at stepped
          exact .inr ⟨last.control, last.phase, moved, stepped ▸ rfl⟩

end Leading

section Seeing

variable {γ : Type} {view : Machine σ → γ} {setup : Setup σ} {machine : Machine σ}

theorem set_phase_seen (apart : Apart view) (machine : Machine σ) (phase : Phase) :
    view (machine.setPhase phase) = view machine := by
  obtain ⟨notices, same⟩ := machine.set_phase_only phase
  rw [same]
  exact apart.control machine _ _ _ _ _ _

theorem ready_seen (apart : Apart view) (arrives : ∀ machine events eventData,
    view { machine with events, eventData } = view machine) (setup : Setup σ) (machine : Machine σ) :
    view (ready setup machine) = view machine := by
  have polled (started : Machine σ) : view (pollEvents setup.devices started) = view started := by
    unfold pollEvents
    cases setup.devices.bus with
    | none => rfl
    | some bus =>
      exact (arrives { started with world := (bus.arrivals started.world).2 } _ started.eventData).trans
        (apart.around started _ _ _ _ (.single trivial))
  rw [ready, ← (polled _).trans (set_phase_seen apart machine .running)]
  generalize pollEvents setup.devices (machine.setPhase .running) = arrived
  obtain ⟨still, -⟩ | ⟨key, data, rest, -, -, ⟨-, dropped⟩ | ⟨handler, -, entered⟩⟩ := deliver_cases arrived
  · rw [still]
  · rw [dropped]
    exact arrives arrived rest arrived.eventData
  · rw [entered]
    exact (apart.control { arrived with events := rest, eventData := data } _ _ _ _ _ _).trans (arrives arrived rest data)

theorem step_seen (apart : Apart view) (goes : machine.phase = .idle ∨ machine.phase = .running)
    (stays : ∀ instruction, machine.image.instructions[(ready setup machine).next]? = some instruction →
      Stays view (execute setup instruction.op)) :
    view ((step setup).on machine).2 = view (ready setup machine) := by
  have behind : view { ready setup machine with next := (ready setup machine).next + 1 } = view (ready setup machine) :=
    apart.control (ready setup machine) _ _ _ _ _ _
  rw [on_step_ready goes, (ready_waits setup machine).2.2]
  cases found : machine.image.instructions[(ready setup machine).next]? with
  | none => exact set_phase_seen apart _ _
  | some instruction =>
    have stayed := stays instruction found _ _ behind
    rw [Meets] at stayed
    dsimp only
    cases ran : (execute setup instruction.op).on { ready setup machine with next := (ready setup machine).next + 1 } with
    | mk result after =>
      rw [ran] at stayed
      cases result with
      | error error => exact (apart.control after _ _ _ _ _ _).trans stayed
      | ok _ =>
        dsimp only
        split
        · exact (set_phase_seen apart after .finished).trans stayed.1
        · exact stayed.1

theorem resume_seen (apart : Apart view) (refiled : ∀ machine files, view { machine with files } = view machine)
    (reply : Except DeviceError Reply) (machine : Machine σ) :
    view ((resume reply).on machine).2 = view machine := by
  cases waits : machine.pending with
  | none => rw [on_resume_nothing waits]
  | some pending =>
    have held : view { machine with pending := none } = view machine := apart.control machine _ _ _ _ _ _
    have resumed := meets_resumed (apart.preserved (view machine)) reply waits held (fun _ _ => trivial)
      fun _ machine files _ held => (refiled machine files).trans held
    rw [Meets] at resumed
    cases ran : (resume reply).on machine with
    | mk result after =>
      rw [ran] at resumed
      cases result with
      | ok _ =>
        obtain ⟨last, same, rfl⟩ := resumed
        exact (set_phase_seen apart last .running).trans same
      | error error =>
        obtain ⟨last, same, rfl⟩ := resumed
        exact (apart.control last _ _ _ _ _ _).trans same

end Seeing

end Run

end BasicLang
