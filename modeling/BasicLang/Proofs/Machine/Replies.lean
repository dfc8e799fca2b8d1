import BasicLang.Device.Bench
import BasicLang.Proofs.Code.Generation
import BasicLang.Proofs.Machine.Suspension

set_option autoImplicit false

namespace BasicLang

def Completion.Yields (completion : Completion) (before after : List StackItem) : Prop :=
  match completion with
  | .pushString => ∃ text, after = .value (.string text) :: before
  | .pushLong => ∃ number, after = .value (.long number) :: before
  | _ => after = before

def Completion.Mismatches (completion : Completion) (reply : Except DeviceError Reply) : Prop :=
  completion = .pushString ∧ ∃ handle, reply = .ok (.handle handle)

theorem Completion.mismatch_yields_not {completion : Completion} {reply : Except DeviceError Reply}
    (mismatches : completion.Mismatches reply) (stack : List StackItem) : ¬completion.Yields stack stack := by
  obtain ⟨rfl, -⟩ := mismatches
  rintro ⟨text, same⟩
  exact List.cons_ne_self _ _ same.symm

namespace Run

variable {σ : Type} {machine after : Machine σ} {pending : Pending}

section Answering

theorem assign_keeps_stack (cell : Cell) (value : Value) : Stays Machine.stack (assign cell value : Run σ Unit) := by
  have writes (value : Value) : Stays Machine.stack (modify fun machine : Machine σ =>
      { machine with store := machine.store.write cell value } : Run σ Unit) := stays_modify fun _ => rfl
  refine stays_seq stays_get fun machine => ?_
  dsimp only
  split
  · exact writes value
  · cases (machine.store.ty cell).convert value with
    | ok converted => exact writes converted
    | error fault =>
      exact stays_seq (stays_fail _ : Stays Machine.stack (fail _ : Run σ Value)) fun value => writes value

theorem assign_fields_keeps_stack (targets : List Cell) (fields : List String) :
    Stays Machine.stack (assignFields targets fields : Run σ Unit) := by
  induction targets generalizing fields with
  | nil => exact stays_value ()
  | cons target rest ih =>
    exact stays_seq stays_get fun _ => stays_seq (assign_keeps_stack target _) fun _ => ih fields.tail

def answer (completion : Completion) (reply : Except DeviceError Reply) : Run σ Unit :=
  match reply with
  | .ok reply => do
    setStatus 0
    complete completion reply
  | .error error => do
    setStatus error.code
    completeFailed completion

def Leaves (yields : List StackItem → List StackItem → Prop) (action : Run σ Unit) : Prop :=
  ∀ machine, Meets action machine (fun _ after => yields machine.stack after.stack) fun _ _ => True

theorem leaves_stays {action : Run σ Unit} (stays : Stays Machine.stack action) :
    Leaves (fun before after => after = before) action :=
  fun machine => meets_weaken (stays machine.stack machine rfl) (fun _ _ kept => kept.1) fun _ _ _ => trivial

theorem leaves_status {yields : List StackItem → List StackItem → Prop} {action : Run σ Unit} (code : Nat)
    (leaves : Leaves yields action) : Leaves yields (do setStatus code; action : Run σ Unit) :=
  fun machine => leaves { machine with status := code }

theorem text_yields (text : String) (completion : Completion) :
    Leaves completion.Yields (completeText text completion : Run σ Unit) := by
  cases completion with
  | ignore => exact leaves_stays (stays_value ())
  | input targets => exact leaves_stays (assign_fields_keeps_stack targets _)
  | lineInput target => exact leaves_stays (assign_keeps_stack target _)
  | openInput number path => exact leaves_stays (stays_modify fun _ => rfl)
  | pushString => exact fun _ => ⟨text, rfl⟩
  | pushLong => exact fun _ => ⟨_, rfl⟩

theorem failure_yields (completion : Completion) :
    Leaves completion.Yields (completeFailed completion : Run σ Unit) := by
  cases completion with
  | pushString => exact fun _ => ⟨"", rfl⟩
  | pushLong => exact fun _ => ⟨_, rfl⟩
  | _ => exact leaves_stays (stays_value ())

theorem handle_yields (handle : Int) {completion : Completion} (isOther : completion ≠ .pushString) :
    Leaves completion.Yields (complete completion (.handle handle) : Run σ Unit) := by
  cases completion with
  | pushString => exact absurd rfl isOther
  | pushLong => exact fun _ => ⟨_, rfl⟩
  | _ => exact leaves_stays (stays_value ())

theorem answer_yields {completion : Completion} {reply : Except DeviceError Reply}
    (matched : ¬completion.Mismatches reply) : Leaves completion.Yields (answer completion reply : Run σ Unit) := by
  cases reply with
  | error error => exact leaves_status _ (failure_yields completion)
  | ok reply =>
    cases reply with
    | done => exact leaves_status _ (text_yields "" completion)
    | text text => exact leaves_status _ (text_yields text completion)
    | handle handle => exact leaves_status _ (handle_yields handle fun isText => matched ⟨isText, handle, rfl⟩)

theorem mismatch_leaves_nothing {completion : Completion} {reply : Except DeviceError Reply}
    (mismatches : completion.Mismatches reply) :
    Leaves (fun before after => after = before) (answer completion reply : Run σ Unit) := by
  obtain ⟨rfl, handle, rfl⟩ := mismatches
  exact leaves_status _ (leaves_stays (stays_value ()))

theorem answer_succeeds {completion : Completion} (noTargets : completion.targets = [])
    (reply : Except DeviceError Reply) (machine : Machine σ) :
    ∃ after, (answer completion reply).on machine = (.ok (), after) := by
  cases completion with
  | lineInput target => cases noTargets
  | input targets =>
    obtain rfl : targets = [] := noTargets
    rcases reply with _ | _ | _ | _ <;> exact ⟨_, rfl⟩
  | _ => rcases reply with _ | _ | _ | _ <;> exact ⟨_, rfl⟩

theorem on_resume_waiting (waits : machine.pending = some pending) (reply : Except DeviceError Reply) :
    (resume reply).on machine =
      match (answer pending.completion reply).on { machine with pending := none } with
      | (.ok _, last) => (.ok (), last.setPhase .running)
      | (.error error, last) => (.error error, last.fail error) := by
  have asked : (resume reply).on machine = (do
      modify fun machine => { machine with pending := none }
      failing none (answer pending.completion reply)
      modify fun machine => machine.setPhase .running : Run σ Unit).on machine := by
    rw [resume, on_seq (on_get machine), waits]
    rfl
  rw [asked, on_seq (on_modify _ _), on_bind, failing, on_catch]
  cases (answer pending.completion reply).on { machine with pending := none } with
  | mk result last =>
    cases result with
    | ok _ => rfl
    | error error => rfl

end Answering

theorem resume_succeeds (waits : machine.pending = some pending) (noTargets : pending.completion.targets = [])
    (reply : Except DeviceError Reply) : ∃ after, (resume reply).on machine = (.ok (), after) := by
  obtain ⟨last, answered⟩ := answer_succeeds noTargets reply { machine with pending := none }
  rw [on_resume_waiting waits, answered]
  exact ⟨_, rfl⟩

theorem resume_leaves (yields : List StackItem → List StackItem → Prop) {reply : Except DeviceError Reply}
    (waits : machine.pending = some pending) (resumed : (resume reply).on machine = (.ok (), after))
    (leaves : Leaves yields (answer pending.completion reply : Run σ Unit)) : yields machine.stack after.stack := by
  have left := leaves { machine with pending := none }
  rw [on_resume_waiting waits] at resumed
  rw [Meets] at left
  cases answered : (answer pending.completion reply).on { machine with pending := none } with
  | mk result last =>
    rw [answered] at resumed left
    cases result with
    | error error => cases resumed
    | ok _ =>
      cases resumed
      obtain ⟨notices, same⟩ := last.set_phase_only .running
      rw [same]
      exact left

end Run

/-- A reply that succeeds leaves what was promised, one value more or a stack as it was, unless it is a handle and a
text was promised. Then it leaves nothing. Where the reply goes into no variable it always succeeds. -/
theorem reply_leaves_what_was_promised {σ : Type} (machine : Machine σ) (pending : Pending)
    (waits : machine.pending = some pending) (reply : Except DeviceError Reply) :
    (∀ after, (Run.resume reply).on machine = (.ok (), after) →
      (pending.completion.Yields machine.stack after.stack ↔ ¬pending.completion.Mismatches reply) ∧
        (pending.completion.Mismatches reply → after.stack = machine.stack)) ∧
      (pending.completion.targets = [] → ∃ after, (Run.resume reply).on machine = (.ok (), after)) := by
  constructor
  · intro after resumed
    have nothing (mismatches : pending.completion.Mismatches reply) : after.stack = machine.stack :=
      Run.resume_leaves (fun before after => after = before) waits resumed (Run.mismatch_leaves_nothing mismatches)
    refine ⟨⟨fun yields mismatches => ?_, fun matched => ?_⟩, nothing⟩
    · rw [nothing mismatches] at yields
      exact Completion.mismatch_yields_not mismatches _ yields
    · exact Run.resume_leaves _ waits resumed (Run.answer_yields matched)
  · exact fun noTargets => Run.resume_succeeds waits noTargets reply

def fetching (image : Image) : Machine Bench :=
  (Machine.create Bench.empty).afterAll (.ofDevices Bench.bare .standard) [.load image, .slice 3]

theorem fetching_waits : ∃ image, compile "A$ = FETCH$(\"u\")\n" .standard = .ok image ∧
    (fetching image).phase = .suspended ∧ (fetching image).pending = some ⟨.fetch "u", .pushString⟩ :=
  exists_compiled _ _ (by decide +kernel)

theorem fetched_nothing_leaves_text : ∃ image after, compile "A$ = FETCH$(\"u\")\n" .standard = .ok image ∧
    (fetching image).pending = some ⟨.fetch "u", .pushString⟩ ∧
      (Run.resume (.ok .done)).on (fetching image) = (.ok (), after) ∧
      ∃ text, after.stack = .value (.string text) :: (fetching image).stack := by
  obtain ⟨image, compiled, -, waits⟩ := fetching_waits
  obtain ⟨leaves, succeeds⟩ := reply_leaves_what_was_promised (fetching image) _ waits (.ok .done)
  obtain ⟨after, resumed⟩ := succeeds rfl
  refine ⟨image, after, compiled, waits, resumed, (leaves after resumed).1.mpr ?_⟩
  rintro ⟨-, handle, isHandle⟩
  cases isHandle

/-- The reply succeeds, and the assignment that follows lacks its value. -/
theorem fetched_handle_leaves_no_text : ∃ image after, compile "A$ = FETCH$(\"u\")\n" .standard = .ok image ∧
    (fetching image).phase = .suspended ∧ (fetching image).pending = some ⟨.fetch "u", .pushString⟩ ∧
      (Run.resume (.ok (.handle 5))).on (fetching image) = (.ok (), after) ∧
      ¬∃ text, after.stack = .value (.string text) :: (fetching image).stack := by
  obtain ⟨image, compiled, suspended, waits⟩ := fetching_waits
  obtain ⟨after, resumed⟩ := Run.resume_succeeds waits rfl (.ok (.handle 5))
  refine ⟨image, after, compiled, suspended, waits, resumed, ?_⟩
  have mismatches : Completion.pushString.Mismatches (.ok (.handle 5)) := ⟨rfl, 5, rfl⟩
  have nothing := Run.resume_leaves (fun before after => after = before) waits resumed
    (Run.mismatch_leaves_nothing mismatches)
  rw [nothing]
  exact Completion.mismatch_yields_not mismatches _

end BasicLang
