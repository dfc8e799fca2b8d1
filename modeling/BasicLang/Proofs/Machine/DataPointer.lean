import BasicLang.Proofs.Machine.Constancy
import BasicLang.Proofs.Machine.Deeds

set_option autoImplicit false

namespace BasicLang

namespace Op

def isRead : Op → Bool
  | .read => true
  | _ => false

def isRestore : Op → Bool
  | .restore _ => true
  | _ => false

def nextDatum (op : Op) (next : Nat) : Nat :=
  match op with
  | .read => next + 1
  | .restore (.resolved place) => place
  | _ => next

theorem next_datum_stays {op : Op} (stays : op.movesData = false) (next : Nat) : op.nextDatum next = next := by
  cases op with
  | read | restore target => cases stays
  | _ => rfl

end Op

namespace Run

variable {σ : Type} {setup : Setup σ} {machine : Machine σ} {before after : List (Deed σ)}

namespace Deed

def isRead : Deed σ → Bool
  | .executes instruction _ => instruction.op.isRead
  | _ => false

def isRestore : Deed σ → Bool
  | .executes instruction _ => instruction.op.isRestore
  | _ => false

def nextDatum (next : Nat) : Deed σ → Nat
  | .executes instruction _ => instruction.op.nextDatum next
  | _ => next

end Deed

def nextAfter (next : Nat) (deeds : List (Deed σ)) : Nat := deeds.foldl Deed.nextDatum next

theorem next_after_append (next : Nat) (early late : List (Deed σ)) :
    nextAfter next (early ++ late) = nextAfter (nextAfter next early) late := List.foldl_append

theorem next_after_reads (next : Nat) {deeds : List (Deed σ)} (forward : ∀ deed ∈ deeds, deed.isRestore = false) :
    nextAfter next deeds = next + deeds.countP Deed.isRead := by
  induction deeds generalizing next with
  | nil => rfl
  | cons deed deeds ih =>
    obtain ⟨stays, others⟩ := List.forall_mem_cons.mp forward
    have one : deed.nextDatum next = next + if deed.isRead then 1 else 0 := by
      cases deed with
      | executes instruction here =>
        obtain ⟨op, locus⟩ := instruction
        cases op with
        | restore target => cases stays
        | _ => rfl
      | delivers key data here => rfl
      | asks request here => rfl
    rw [nextAfter, List.foldl_cons, one, ← nextAfter, ih _ others, List.countP_cons]
    omega

def deliver (datum : Option Value) : Run σ Unit := do
  let target ← popReference
  match datum with
  | none => fail .outOfData
  | some value =>
    modify fun machine => { machine with nextData := machine.nextData + 1 }
    assign target (datumFor ((← get).store.ty target) value)

theorem apart_data : Apart fun machine : Machine σ => (machine.image, machine.nextData) where
  computing := fun _ _ _ _ => rfl
  around := fun _ _ _ _ _ _ => rfl
  control := fun _ _ _ _ _ _ _ => rfl

theorem apart_next_data : Apart (Machine.nextData : Machine σ → Nat) where
  computing := fun _ _ _ _ => rfl
  around := fun _ _ _ _ _ _ => rfl
  control := fun _ _ _ _ _ _ _ => rfl

theorem execute_read (setup : Setup σ) (machine : Machine σ) :
    (execute setup .read).on machine = (deliver machine.image.data[machine.nextData]?).on machine := by
  have popped := stays_pop_reference apart_data.toAside _ machine rfl
  rw [execute, readDatum, deliver, on_bind, on_bind]
  rw [Meets] at popped
  cases ran : (popReference : Run σ Cell).on machine with
  | mk result last =>
    rw [ran] at popped
    cases result with
    | error error => rfl
    | ok target =>
      obtain ⟨kept, -⟩ := popped
      obtain ⟨image, next⟩ := Prod.mk.inj kept
      rw [← image, ← next]
      dsimp only
      rw [nextDatum, on_bind, on_seq (on_get last)]
      cases last.image.data[last.nextData]? with
      | none => rfl
      | some value => rfl

theorem execute_next (setup : Setup σ) {op : Op} {machine last : Machine σ}
    (ran : (execute setup op).on machine = (.ok (), last)) : last.nextData = op.nextDatum machine.nextData := by
  -- Only `READ` and `RESTORE` name the data pointer. All other instructions leave it aside.
  cases moves : op.movesData with
  | false =>
    have stays := execute_stays apart_next_data setup op (fun _ _ _ => rfl) (fun _ _ _ => rfl) (fun _ _ _ => rfl)
      (fun moved => absurd (moves.symm.trans moved) (by decide)) _ machine rfl
    rw [Meets, ran] at stays
    rw [Op.next_datum_stays moves]
    exact stays.1
  | true =>
    cases op with
    | read =>
      rw [execute_read, deliver, on_bind] at ran
      have popped := stays_pop_reference apart_next_data.toAside _ machine rfl
      rw [Meets] at popped
      cases target : (popReference : Run σ Cell).on machine with
      | mk result taken =>
        rw [target] at ran popped
        cases result with
        | error error => cases ran
        | ok cell =>
          dsimp only at ran popped
          cases datum : machine.image.data[machine.nextData]? with
          | none =>
            rw [datum] at ran
            cases ran
          | some value =>
            rw [datum] at ran
            dsimp only at ran
            rw [on_seq (on_modify _ _), on_seq (on_get _)] at ran
            have stored := stays_assign apart_next_data.toAside cell
              (datumFor ({ taken with nextData := taken.nextData + 1 }.store.ty cell) value) _
              { taken with nextData := taken.nextData + 1 } rfl
            rw [Meets, ran] at stored
            exact stored.1.trans (congrArg (· + 1) popped.1)
    | restore target =>
      cases target with
      | resolved place =>
        cases ran
        rfl
      | label id => cases ran
    | _ => cases moves

structure Follows (deeds : List (Deed σ)) (machine : Machine σ) : Prop where
  orderly : machine.Orderly
  next : machine.phase ≠ .failed → machine.nextData = nextAfter 0 deeds

theorem ready_next (setup : Setup σ) (machine : Machine σ) : (ready setup machine).nextData = machine.nextData :=
  ready_seen apart_next_data (fun _ _ _ => rfl) setup machine

theorem news_next (setup : Setup σ) (machine : Machine σ) (next : Nat) : nextAfter next (news setup machine) = next := by
  obtain ⟨isNews, -⟩ | ⟨key, data, polled, handler, isNews, -⟩ := news_cases setup machine
  · rw [isNews]
    rfl
  · rw [isNews]
    rfl

theorem step_follows (follows : Follows before machine) (goes : machine.phase = .idle ∨ machine.phase = .running)
    (alive : (HostCall.step.after setup machine).phase ≠ .failed) :
    (HostCall.step.after setup machine).nextData = nextAfter 0 (before ++ (toldStep setup machine).1) := by
  have going : machine.phase ≠ .failed := by
    rintro failed
    simp [failed] at goes
  have started := (ready_next setup machine).trans (follows.next going)
  rw [told_step_ready goes, next_after_append, next_after_append, news_next, ← started, ← (ready_waits setup machine).2.2]
  rw [HostCall.after_step, on_step_ready goes] at alive ⊢
  cases found : (ready setup machine).image.instructions[(ready setup machine).next]? with
  | none => exact set_phase_seen apart_next_data _ _
  | some instruction =>
    rw [found] at alive
    dsimp only at alive ⊢
    cases ran : (execute setup instruction.op).on { ready setup machine with next := (ready setup machine).next + 1 } with
    | mk result last =>
      rw [ran] at alive
      cases result with
      | error error => exact absurd rfl alive
      | ok _ =>
        have executed := execute_next setup ran
        dsimp only
        split
        · exact (set_phase_seen apart_next_data last .finished).trans executed
        · exact executed

theorem resume_follows (reply : Except DeviceError Reply) : Upholds (Follows before) (resume reply : Run σ Unit) := by
  intro machine follows
  refine ⟨resume_orders reply machine follows.orderly, fun alive => ?_⟩
  cases waits : machine.pending with
  | none =>
    rw [on_resume_nothing waits] at alive ⊢
    exact follows.next alive
  | some pending =>
    have suspended := follows.orderly.mp (by rw [waits]; rfl)
    exact (resume_seen apart_next_data (fun _ _ => rfl) reply machine).trans (follows.next (by simp [suspended]))

theorem turn_follows (follows : Follows before machine) {turn : HostCall} (isTurn : turn.isTurn = true) :
    Follows (before ++ turn.deeds setup machine) (turn.after setup machine) := by
  refine ⟨call_orders turn machine follows.orderly, fun alive => ?_⟩
  cases turn with
  | load image | reset | tick | slice count => cases isTurn
  | dispatch key data =>
    rw [HostCall.deeds, List.append_nil]
    exact follows.next alive
  | step =>
    by_cases goes : machine.phase = .idle ∨ machine.phase = .running
    · exact step_follows follows goes alive
    · rw [HostCall.after_step, on_step_still goes] at alive ⊢
      rw [HostCall.deeds, told_step_still goes, List.append_nil]
      exact follows.next alive
  | resume reply =>
    rw [HostCall.deeds, List.append_nil]
    exact (resume_follows reply machine follows).next alive
  | service =>
    have asks : nextAfter (nextAfter 0 before) (toldService setup machine).1 = nextAfter 0 before := by
      unfold toldService
      cases machine.pending <;> rfl
    have serves : Upholds (Follows before) (service setup) :=
      upholds_service (fun _ _ held => ⟨held.orderly, held.next⟩) resume_follows
    rw [HostCall.deeds, next_after_append, asks]
    exact (serves machine follows).next alive

theorem turns_follow (follows : Follows before machine) {turns : List HostCall}
    (areTurns : ∀ turn ∈ turns, turn.isTurn = true) :
    Follows (before ++ machine.deeds setup turns) (machine.afterAll setup turns) := by
  induction turns generalizing machine before with
  | nil =>
    rw [Machine.deeds, List.append_nil]
    exact follows
  | cons turn turns ih =>
    obtain ⟨isTurn, others⟩ := List.forall_mem_cons.mp areTurns
    rw [Machine.deeds, ← List.append_assoc]
    exact ih (turn_follows follows isTurn) others

theorem turns_image {image : Image} (loaded : machine.image = image) {turns : List HostCall}
    (areTurns : ∀ turn ∈ turns, turn.isTurn = true) : (machine.afterAll setup turns).image = image := by
  have each : ∀ turn ∈ turns, Upholds (fun machine : Machine σ => machine.image = image) (turn.run setup) := by
    intro turn inside
    refine upholds_call step_image resume_image (fun _ _ _ kept => kept) ?_
    have isTurn := areTurns turn inside
    cases turn <;> first | rfl | cases isTurn
  exact Machine.after_all_holds setup each loaded

theorem executes_next {image : Image} (loaded : machine.image = image) {calls : List HostCall}
    (goOn : ∀ call ∈ calls, call.restarts = false) {instruction : Instruction} {here : Machine σ}
    (done : machine.reset.deeds setup calls = before ++ .executes instruction here :: after) :
    image.instructions[here.next]? = some instruction ∧ here.image = image ∧ here.nextData = nextAfter 0 before := by
  obtain ⟨turns, areTurns, sameDeeds, -⟩ := exists_turns setup machine.reset goOn
  rw [← sameDeeds] at done
  obtain ⟨early, late, rfl, goes, rfl, found, rfl, -⟩ := executes_splits setup machine.reset areTurns done
  have earlyTurns : ∀ turn ∈ early, turn.isTurn = true := fun turn isEarly => areTurns turn (List.mem_append_left _ isEarly)
  have start : Follows [] machine.reset := ⟨machine.reset_orderly, fun _ => rfl⟩
  have follows : Follows (machine.reset.deeds setup early) (machine.reset.afterAll setup early) :=
    turns_follow start earlyTurns
  have going : (machine.reset.afterAll setup early).phase ≠ .failed := by
    rintro failed
    simp [failed] at goes
  have kept : (machine.reset.afterAll setup early).image = image := by
    have reset : machine.reset.image = image := loaded
    exact turns_image reset earlyTurns
  refine ⟨kept ▸ found, (ready_waits setup _).2.2.trans kept, ?_⟩
  rw [ready_next, follows.next going, next_after_append, news_next]

end Run

end BasicLang
