import BasicLang.Proofs.Machine.Slices
import BasicLang.Proofs.Machine.Suspension

set_option autoImplicit false

namespace BasicLang

variable {σ : Type}

def HostCall.deeds (setup : Setup σ) (machine : Machine σ) : HostCall → List (Run.Deed σ)
  | .step => (Run.toldStep setup machine).1
  | .tick => (Run.toldSlice setup setup.budget machine).1
  | .slice count => (Run.toldSlice setup count machine).1
  | .service => (Run.toldService setup machine).1
  | .load _ | .reset | .resume _ | .dispatch _ _ => []

def Machine.deeds (setup : Setup σ) (machine : Machine σ) : List HostCall → List (Run.Deed σ)
  | [] => []
  | call :: calls => call.deeds setup machine ++ (call.after setup machine).deeds setup calls

def HostCall.answers (machine : Machine σ) : HostCall → List Request
  | .resume _ | .service => (machine.pending.map Pending.request).toList
  | _ => []

def Machine.answered (setup : Setup σ) (machine : Machine σ) : List HostCall → List Request
  | [] => []
  | call :: calls => call.answers machine ++ (call.after setup machine).answered setup calls

def HostCall.isTurn : HostCall → Bool
  | .step | .resume _ | .service | .dispatch _ _ => true
  | .load _ | .reset | .tick | .slice _ => false

def HostCall.turns (setup : Setup σ) : HostCall → List HostCall
  | .tick => List.replicate setup.budget .step
  | .slice count => List.replicate count .step
  | call => [call]

namespace Machine

variable (setup : Setup σ) (machine : Machine σ)

theorem after_all_append (calls more : List HostCall) :
    machine.afterAll setup (calls ++ more) = (machine.afterAll setup calls).afterAll setup more :=
  List.foldl_append ..

theorem deeds_append (calls more : List HostCall) :
    machine.deeds setup (calls ++ more) =
      machine.deeds setup calls ++ (machine.afterAll setup calls).deeds setup more := by
  induction calls generalizing machine with
  | nil => rfl
  | cons call calls ih =>
    calc
      _ = call.deeds setup machine ++ (call.after setup machine).deeds setup (calls ++ more) := rfl
      _ = call.deeds setup machine ++ ((call.after setup machine).deeds setup calls ++
            ((call.after setup machine).afterAll setup calls).deeds setup more) := by rw [ih]
      _ = _ := (List.append_assoc ..).symm

theorem answered_append (calls more : List HostCall) :
    machine.answered setup (calls ++ more) =
      machine.answered setup calls ++ (machine.afterAll setup calls).answered setup more := by
  induction calls generalizing machine with
  | nil => rfl
  | cons call calls ih =>
    calc
      _ = call.answers machine ++ (call.after setup machine).answered setup (calls ++ more) := rfl
      _ = call.answers machine ++ ((call.after setup machine).answered setup calls ++
            ((call.after setup machine).afterAll setup calls).answered setup more) := by rw [ih]
      _ = _ := (List.append_assoc ..).symm

end Machine

namespace Run

variable {setup : Setup σ} {machine : Machine σ}

section Steps

theorem told_step_still (rests : ¬(machine.phase = .idle ∨ machine.phase = .running)) : (toldStep setup machine).1 = [] := by
  rw [told_step_silent setup rests]
  rfl

def news (setup : Setup σ) (machine : Machine σ) : List (Deed σ) :=
  (toldDelivery (pollEvents setup.devices (machine.setPhase .running))).1

theorem told_step_ready (goes : machine.phase = .idle ∨ machine.phase = .running) :
    (toldStep setup machine).1 = news setup machine ++
      match machine.image.instructions[(ready setup machine).next]? with
      | none => []
      | some instruction => [.executes instruction (ready setup machine)] := by
  have delivered : (toldDelivery (pollEvents setup.devices (machine.setPhase .running))).2 = ready setup machine :=
    told_delivery _
  rw [toldStep, start_running goes, if_neg (not_not_intro (set_phase_phase machine .running)), news,
    ← (ready_waits setup machine).2.2, ← delivered]
  generalize toldDelivery (pollEvents setup.devices (machine.setPhase .running)) = told
  obtain ⟨news, ready⟩ := told
  dsimp only
  cases ready.image.instructions[ready.next]? with
  | none => exact (List.append_nil news).symm
  | some instruction =>
    dsimp only
    cases (failing (some instruction.locus) (execute setup instruction.op)).on { ready with next := ready.next + 1 } with
    | mk result after =>
      cases result with
      | error error => rfl
      | ok _ => exact List.append_nil _

theorem news_cases (setup : Setup σ) (machine : Machine σ) :
    (news setup machine = [] ∧ (ready setup machine).control = { machine.control with phase := .running }) ∨
      ∃ key data polled handler, news setup machine = [.delivers key data polled] ∧
        polled.control = { machine.control with phase := .running } ∧
        (∀ frame ∈ machine.frames, frame.kind ≠ .event) ∧ machine.handlers.get? key = some handler ∧
        (ready setup machine).control =
          { machine.control with
            phase := .running, next := handler, frames := ⟨.event, machine.next, 0⟩ :: machine.frames } := by
  have polled := poll_control setup machine
  have frames : (pollEvents setup.devices (machine.setPhase .running)).frames = machine.frames :=
    congrArg Control.frames polled
  have handlers : (pollEvents setup.devices (machine.setPhase .running)).handlers = machine.handlers :=
    congrArg Control.handlers polled
  rw [news, ready]
  generalize pollEvents setup.devices (machine.setPhase .running) = arrived at polled frames handlers
  have quiet (same : (deliverEvent arrived).frames = arrived.frames) : (toldDelivery arrived).1 = [] := by
    unfold toldDelivery
    split
    · rfl
    · dsimp only
      rw [same, if_neg (Nat.lt_irrefl _)]
  obtain ⟨still, -⟩ | ⟨key, data, rest, waiting, calm, ⟨-, dropped⟩ | ⟨handler, found, entered⟩⟩ := deliver_cases arrived
  · exact .inl ⟨quiet (by rw [still]), (congrArg Machine.control still).trans polled⟩
  · exact .inl ⟨quiet (by rw [dropped]), (congrArg Machine.control dropped).trans polled⟩
  · refine .inr ⟨key, data, arrived, handler, ?_, polled, frames ▸ calm, handlers ▸ found, ?_⟩
    · simp only [toldDelivery, waiting, entered, List.length_cons, Nat.lt_succ_self, if_true]
    · rw [entered]
      exact congrArg (fun control : Control =>
        { control with next := handler, frames := ⟨.event, control.next, 0⟩ :: control.frames }) polled

theorem step_stops {result : Except RuntimeError Bool} {after : Machine σ}
    (stepped : (step setup).on machine = (result, after)) (stops : result ≠ .ok true) :
    ¬(after.phase = .idle ∨ after.phase = .running) := by
  by_cases goes : machine.phase = .idle ∨ machine.phase = .running
  · rw [on_step_ready goes] at stepped
    cases found : (ready setup machine).image.instructions[(ready setup machine).next]? with
    | none =>
      rw [found] at stepped
      cases stepped
      simp [set_phase_phase]
    | some instruction =>
      rw [found] at stepped
      dsimp only at stepped
      cases ran : (execute setup instruction.op).on { ready setup machine with next := (ready setup machine).next + 1 } with
      | mk executed last =>
        rw [ran] at stepped
        cases executed with
        | error error =>
          cases stepped
          simp [Machine.fail]
        | ok _ =>
          cases stepped
          exact absurd rfl stops
  · rw [on_step_still goes] at stepped
    cases stepped
    exact goes

end Steps

section Replies

theorem service_asks (setup : Setup σ) {pending : Pending} (waits : machine.pending = some pending) :
    HostCall.service.deeds setup machine = [.asks pending.request machine] ∧
      HostCall.service.after setup machine =
        ((resume (setup.devices.perform pending.request machine.world).1).on
          { machine with world := (setup.devices.perform pending.request machine.world).2 }).2 := by
  have asks : toldService setup machine = ([.asks pending.request machine],
      (resume (setup.devices.perform pending.request machine.world).1).on
        { machine with world := (setup.devices.perform pending.request machine.world).2 }) := by
    rw [toldService, waits]
  refine ⟨congrArg Prod.fst asks, ?_⟩
  rw [HostCall.after, HostCall.run, ← told_service, asks]

theorem reply_to_nothing (setup : Setup σ) (waitsNot : machine.pending = none) :
    HostCall.service.deeds setup machine = [] ∧ HostCall.service.after setup machine = machine ∧
      ∀ reply, (HostCall.resume reply).after setup machine = machine := by
  have silent : toldService setup machine = .silent () machine := by rw [toldService, waitsNot]
  refine ⟨congrArg Prod.fst silent, ?_, fun reply => ?_⟩
  · rw [HostCall.after, HostCall.run, ← told_service, silent]
    rfl
  · rw [HostCall.after, HostCall.run, on_resume_nothing waitsNot]

end Replies

section Turns

theorem steps_still (setup : Setup σ) (count : Nat) (rests : ¬(machine.phase = .idle ∨ machine.phase = .running)) :
    machine.deeds setup (List.replicate count .step) = [] ∧
      machine.afterAll setup (List.replicate count .step) = machine := by
  have still : HostCall.step.after setup machine = machine := by
    rw [HostCall.after_step, on_step_still rests]
  induction count with
  | zero => exact ⟨rfl, rfl⟩
  | succ count ih =>
    rw [List.replicate_succ, Machine.deeds, Machine.afterAll, List.foldl_cons, still, ih.1]
    exact ⟨(List.append_nil _).trans (told_step_still rests), ih.2⟩

theorem slice_steps (setup : Setup σ) (count : Nat) (machine : Machine σ) :
    machine.deeds setup (List.replicate count .step) = (toldSlice setup count machine).1 ∧
      machine.afterAll setup (List.replicate count .step) = ((slice setup count).on machine).2 := by
  -- Where the slice ends early the machine no longer runs, and the instructions that are left do nothing.
  induction count generalizing machine with
  | zero => exact ⟨rfl, rfl⟩
  | succ count ih =>
    have told : (toldStep setup machine).2 = (step setup).on machine := told_step machine
    rw [List.replicate_succ, Machine.deeds, Machine.afterAll, List.foldl_cons, HostCall.after_step, toldSlice, slice,
      on_bind, HostCall.deeds, ← told]
    generalize same : toldStep setup machine = tale at told ⊢
    obtain ⟨deeds, result, after⟩ := tale
    have early (stops : result ≠ .ok true) :
        deeds ++ after.deeds setup (List.replicate count .step) = deeds ∧
          after.afterAll setup (List.replicate count .step) = after := by
      obtain ⟨nothing, still⟩ := steps_still setup count (step_stops told.symm stops)
      exact ⟨by rw [nothing, List.append_nil], still⟩
    cases result with
    | error error => exact early (by simp)
    | ok goesOn =>
      cases goesOn with
      | false => exact ⟨(early (by simp)).1.trans (List.append_nil deeds).symm, (early (by simp)).2⟩
      | true => exact ⟨congrArg (deeds ++ ·) (ih after).1, (ih after).2⟩

theorem steps_answer_nothing (setup : Setup σ) (machine : Machine σ) (count : Nat) :
    machine.answered setup (List.replicate count .step) = [] := by
  induction count generalizing machine with
  | zero => rfl
  | succ count ih => exact ih (HostCall.step.after setup machine)

theorem call_turns (setup : Setup σ) (machine : Machine σ) (call : HostCall) :
    machine.deeds setup (call.turns setup) = call.deeds setup machine ∧
      machine.answered setup (call.turns setup) = call.answers machine ∧
      machine.afterAll setup (call.turns setup) = call.after setup machine := by
  have many (count : Nat) (deeds : call.deeds setup machine = (toldSlice setup count machine).1)
      (answers : call.answers machine = []) (after : call.after setup machine = ((slice setup count).on machine).2) :
      machine.deeds setup (List.replicate count .step) = call.deeds setup machine ∧
        machine.answered setup (List.replicate count .step) = call.answers machine ∧
        machine.afterAll setup (List.replicate count .step) = call.after setup machine := by
    obtain ⟨stepDeeds, stepAfter⟩ := slice_steps setup count machine
    exact ⟨stepDeeds.trans deeds.symm, (steps_answer_nothing setup machine count).trans answers.symm,
      stepAfter.trans after.symm⟩
  cases call with
  | tick => exact many setup.budget rfl rfl (HostCall.after_tick setup machine)
  | slice count => exact many count rfl rfl rfl
  | _ => exact ⟨List.append_nil _, List.append_nil _, rfl⟩

theorem calls_turns (setup : Setup σ) (machine : Machine σ) (calls : List HostCall) :
    machine.deeds setup (calls.flatMap (HostCall.turns setup)) = machine.deeds setup calls ∧
      machine.answered setup (calls.flatMap (HostCall.turns setup)) = machine.answered setup calls ∧
      machine.afterAll setup (calls.flatMap (HostCall.turns setup)) = machine.afterAll setup calls := by
  induction calls generalizing machine with
  | nil => exact ⟨rfl, rfl, rfl⟩
  | cons call calls ih =>
    obtain ⟨sameDeeds, sameAnswers, sameAfter⟩ := call_turns setup machine call
    obtain ⟨laterDeeds, laterAnswers, last⟩ := ih (call.after setup machine)
    rw [List.flatMap_cons, Machine.deeds_append, Machine.answered_append, Machine.after_all_append, sameDeeds,
      sameAnswers, sameAfter, laterDeeds, laterAnswers, last]
    exact ⟨rfl, rfl, rfl⟩

theorem turns_are_turns (setup : Setup σ) {calls : List HostCall} (goOn : ∀ call ∈ calls, call.restarts = false) :
    ∀ turn ∈ calls.flatMap (HostCall.turns setup), turn.isTurn = true ∧ (turn = .step ∨ turn ∈ calls) := by
  intro turn inside
  obtain ⟨call, isCall, isPart⟩ := List.mem_flatMap.mp inside
  have isStep (count : Nat) (isPart : turn ∈ List.replicate count .step) :
      turn.isTurn = true ∧ (turn = .step ∨ turn ∈ calls) := by
    rw [List.eq_of_mem_replicate isPart]
    exact ⟨rfl, .inl rfl⟩
  cases call with
  | load image | reset => cases goOn _ isCall
  | tick => exact isStep setup.budget isPart
  | slice count => exact isStep count isPart
  | _ =>
    obtain rfl := List.mem_singleton.mp isPart
    exact ⟨rfl, .inr isCall⟩

theorem exists_turns (setup : Setup σ) (machine : Machine σ) {calls : List HostCall}
    (goOn : ∀ call ∈ calls, call.restarts = false) :
    ∃ turns : List HostCall, (∀ turn ∈ turns, turn.isTurn = true) ∧
      machine.deeds setup turns = machine.deeds setup calls ∧
      machine.afterAll setup turns = machine.afterAll setup calls := by
  obtain ⟨sameDeeds, -, sameAfter⟩ := calls_turns setup machine calls
  exact ⟨_, fun turn inside => (turns_are_turns setup goOn turn inside).1, sameDeeds, sameAfter⟩

theorem split_around {α : Type} {first second before after : List α} {entry : α}
    (same : first ++ second = before ++ entry :: after) :
    (∃ rest, before = first ++ rest ∧ second = rest ++ entry :: after) ∨
      ∃ rest, first = before ++ entry :: rest ∧ after = rest ++ second := by
  obtain ⟨rest, isBefore, isSecond⟩ | ⟨rest, isFirst, isAfter⟩ := List.append_eq_append_iff.mp same
  · exact .inl ⟨rest, isBefore, isSecond⟩
  · cases rest with
    | nil => exact .inl ⟨[], by simpa using isFirst.symm, isAfter.symm⟩
    | cons other rest =>
      obtain ⟨rfl, isRest⟩ := List.cons.inj isAfter
      exact .inr ⟨rest, isFirst, isRest⟩

theorem turn_executes (setup : Setup σ) (machine : Machine σ) {turn : HostCall} (isTurn : turn.isTurn = true)
    {before after : List (Deed σ)} {instruction : Instruction} {here : Machine σ}
    (done : turn.deeds setup machine = before ++ .executes instruction here :: after) :
    turn = .step ∧ (machine.phase = .idle ∨ machine.phase = .running) ∧ here = ready setup machine ∧
      machine.image.instructions[here.next]? = some instruction ∧ before = news setup machine ∧ after = [] := by
  have isDone : Deed.executes instruction here ∈ turn.deeds setup machine := done ▸ List.mem_append_cons_self
  cases turn with
  | load image | reset | tick | slice count => cases isTurn
  | resume reply | dispatch key data => cases isDone
  | service =>
    have executesNot : Deed.executes instruction here ∉ (toldService setup machine).1 := by
      unfold toldService
      cases machine.pending <;> simp [Tale.silent]
    exact absurd isDone executesNot
  | step =>
    have told : (toldStep setup machine).1 = before ++ .executes instruction here :: after := done
    by_cases goes : machine.phase = .idle ∨ machine.phase = .running
    · have executesNot : Deed.executes instruction here ∉ news setup machine := by
        obtain ⟨isNews, -⟩ | ⟨key, data, polled, handler, isNews, -⟩ := news_cases setup machine <;> simp [isNews]
      rw [told_step_ready goes] at told
      cases found : machine.image.instructions[(ready setup machine).next]? with
      | none =>
        rw [found, List.append_nil] at told
        exact absurd (told ▸ List.mem_append_cons_self) executesNot
      | some executed =>
        rw [found] at told
        obtain ⟨rest, isBefore, isRest⟩ | ⟨rest, isNews, -⟩ := split_around told
        · cases rest with
          | nil =>
            cases isRest
            exact ⟨rfl, goes, rfl, found, isBefore.trans (List.append_nil _), rfl⟩
          | cons deed rest =>
            have shorter := (List.cons.inj isRest).2
            cases List.append_ne_nil_of_right_ne_nil rest (List.cons_ne_nil _ _) shorter.symm
        · exact absurd (isNews ▸ List.mem_append_cons_self) executesNot
    · rw [told_step_still goes] at told
      cases List.append_ne_nil_of_right_ne_nil before (List.cons_ne_nil _ _) told.symm

theorem executes_splits (setup : Setup σ) (machine : Machine σ) {turns : List HostCall}
    (areTurns : ∀ turn ∈ turns, turn.isTurn = true) {before after : List (Deed σ)} {instruction : Instruction}
    {here : Machine σ} (done : machine.deeds setup turns = before ++ .executes instruction here :: after) :
    ∃ early late, turns = early ++ .step :: late ∧
      let reached := machine.afterAll setup early
      (reached.phase = .idle ∨ reached.phase = .running) ∧ here = ready setup reached ∧
        reached.image.instructions[here.next]? = some instruction ∧
        before = machine.deeds setup early ++ news setup reached ∧
        after = (HostCall.step.after setup reached).deeds setup late := by
  induction turns generalizing machine before with
  | nil => cases List.append_ne_nil_of_right_ne_nil before (List.cons_ne_nil _ _) done.symm
  | cons turn turns ih =>
    obtain ⟨isTurn, others⟩ := List.forall_mem_cons.mp areTurns
    obtain ⟨rest, isBefore, further⟩ | ⟨rest, isDone, isAfter⟩ := split_around done
    · obtain ⟨early, late, isTurns, goes, isHere, found, isRest, isAfter⟩ := ih (turn.after setup machine) others further
      refine ⟨turn :: early, late, congrArg (turn :: ·) isTurns, goes, isHere, found, ?_, isAfter⟩
      rw [isBefore, isRest, Machine.deeds, List.append_assoc]
      rfl
    · obtain ⟨rfl, goes, isHere, found, isNews, rfl⟩ := turn_executes setup machine isTurn isDone
      exact ⟨[], turns, rfl, goes, isHere, found, isNews, isAfter⟩

end Turns

end Run

end BasicLang
