import BasicLang.Proofs.Machine.Activations

set_option autoImplicit false

namespace BasicLang

/-- What goes on is at allowed places, now, in handlers and after every return. The frame of the main routine is not
left. -/
structure Control.Within (allowed : Nat → Prop) (control : Control) : Prop where
  next : allowed control.next
  returns : ∀ frame ∈ control.frames.dropLast, allowed frame.returnTo
  handlers : ∀ key place, control.handlers.get? key = some place → allowed place

section Leading

variable {allowed : Nat → Prop} {here after : Control} {op : Op}

theorem Op.Leads.place (leads : op.Leads here after) :
    (after.frames = here.frames ∧ (after.next = here.next ∨ op.address? = some (.resolved after.next) ∨
        op = .stop ∧ after.next = here.image.instructions.size)) ∨
      (∃ frame, after.frames = frame :: here.frames ∧ frame.returnTo = here.next ∧
        op.address? = some (.resolved after.next)) ∨
      ∃ frame outer rest, here.frames = frame :: outer :: rest ∧ after.frames = outer :: rest ∧
        after.next = frame.returnTo := by
  have waits {control : Control} (awaits : control.Awaits after) :
      after.frames = control.frames ∧ after.next = control.next := by
    obtain rfl | ⟨_, rfl⟩ := awaits <;> exact ⟨rfl, rfl⟩
  cases op with
  | jump target =>
    obtain ⟨_, rfl, rfl⟩ := leads
    exact .inl ⟨rfl, .inr (.inl rfl)⟩
  | jumpIfZero target | jumpIfNonzero target | forLoop target =>
    obtain rfl | ⟨_, rfl, rfl⟩ := leads
    · exact .inl ⟨rfl, .inl rfl⟩
    · exact .inl ⟨rfl, .inr (.inl rfl)⟩
  | call target | gosub target =>
    obtain ⟨_, _, rfl, rfl⟩ := leads
    exact .inr (.inl ⟨_, rfl, rfl, rfl⟩)
  | ret =>
    obtain ⟨frame, outer, rest, frames, rfl⟩ := leads
    exact .inr (.inr ⟨frame, outer, rest, frames, rfl, rfl⟩)
  | stop =>
    obtain ⟨frames, next⟩ := waits leads
    exact .inl ⟨frames, .inr (.inr ⟨rfl, next⟩)⟩
  | onEvent target =>
    obtain ⟨_, _, -, rfl⟩ := leads
    exact .inl ⟨rfl, .inl rfl⟩
  | _ =>
    obtain ⟨frames, next⟩ := waits leads
    exact .inl ⟨frames, .inl next⟩

theorem mem_entered {frame other : Frame} {frames : List Frame} (inside : other ∈ (frame :: frames).dropLast) :
    other = frame ∨ other ∈ frames.dropLast := by
  cases frames with
  | nil => cases inside
  | cons outer rest => exact List.mem_cons.mp inside

theorem Control.Within.enter (within : here.Within allowed) (frame : Frame) (returns : allowed frame.returnTo)
    {next : Nat} (goes : allowed next) : { here with next, frames := frame :: here.frames : Control }.Within allowed := by
  refine ⟨goes, fun other inside => ?_, within.handlers⟩
  obtain rfl | isOld := mem_entered inside
  · exact returns
  · exact within.returns other isOld

theorem Control.Within.lead (within : here.Within allowed) (ends : op = .stop → allowed here.image.instructions.size)
    (aims : ∀ place, op.address? = some (.resolved place) → allowed place) (leads : op.Leads here after) :
    after.Within allowed := by
  have handlers : ∀ key place, after.handlers.get? key = some place → allowed place :=
    leads.handlers_hold within.handlers fun place isDeclaration => aims place (isDeclaration ▸ rfl)
  obtain ⟨frames, next⟩ | ⟨frame, frames, back, next⟩ | ⟨frame, outer, rest, old, frames, next⟩ := leads.place
  · refine ⟨?_, frames ▸ within.returns, handlers⟩
    obtain next | next | ⟨isEnd, next⟩ := next
    · exact next ▸ within.next
    · exact aims _ next
    · exact next ▸ ends isEnd
  · have entered := within.enter frame (back ▸ within.next) (aims _ next)
    exact ⟨entered.next, frames ▸ entered.returns, handlers⟩
  · have returns := within.returns
    rw [old] at returns
    obtain ⟨isAllowed, others⟩ := List.forall_mem_cons.mp returns
    exact ⟨next ▸ isAllowed, frames ▸ others, handlers⟩

end Leading

theorem Control.Within.start {allowed : Nat → Prop} {control : Control} (next : allowed control.next)
    (frames : control.frames = [Machine.mainFrame]) (handlers : control.handlers = []) : control.Within allowed := by
  refine ⟨next, fun frame inside => ?_, fun key place found => ?_⟩
  · rw [frames] at inside
    cases inside
  · rw [handlers] at found
    cases found

namespace Run

variable {σ : Type} {allowed : Nat → Prop} {machine : Machine σ}

theorem ready_within (setup : Setup σ) (within : machine.control.Within allowed) :
    (ready setup machine).control.Within allowed := by
  obtain same | ⟨key, handler, found, same⟩ := ready_control setup machine
  · rw [same]
    exact ⟨within.next, within.returns, within.handlers⟩
  · have entered := within.enter ⟨.event, machine.next, 0⟩ within.next (within.handlers key handler found)
    rw [same]
    exact ⟨entered.next, entered.returns, entered.handlers⟩

end Run

end BasicLang
