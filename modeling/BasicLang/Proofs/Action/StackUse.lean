import BasicLang.Machine.Schedule
import BasicLang.Proofs.Machine.Running

set_option autoImplicit false

namespace BasicLang

namespace Machine

variable {σ : Type}

def valueOf (machine : Machine σ) : StackItem → Value
  | .value value => value
  | .reference cell => machine.store.read cell

def wholeOf? (machine : Machine σ) (item : StackItem) : Option Int :=
  (machine.valueOf item).toInt?

structure Steady (machine after : Machine σ) : Prop where
  store : after.store = machine.store
  scopes : after.scopes = machine.scopes
  frames : after.frames = machine.frames
  next : after.next = machine.next

theorem Steady.refl (machine : Machine σ) : machine.Steady machine := ⟨rfl, rfl, rfl, rfl⟩

theorem Steady.trans {machine between after : Machine σ} (early : machine.Steady between)
    (late : between.Steady after) : machine.Steady after :=
  ⟨late.store.trans early.store, late.scopes.trans early.scopes, late.frames.trans early.frames,
    late.next.trans early.next⟩

theorem set_phase_only (machine : Machine σ) (phase : Phase) :
    ∃ notices, machine.setPhase phase = { machine with phase, notices } := by
  by_cases same : machine.phase = phase
  · unfold setPhase
    rw [if_pos same, ← same]
    exact ⟨machine.notices, rfl⟩
  · unfold setPhase
    rw [if_neg same]
    cases phase <;> exact ⟨_, rfl⟩

end Machine

namespace Pending

def results (pending : Pending) : Nat :=
  match pending.completion with
  | .pushString => 1
  | .pushLong => 1
  | _ => 0

def Answerable (pending : Pending) : Prop :=
  pending.completion = .pushString → ∀ url, pending.request ≠ .openSocket url

end Pending

def Machine.Settled {σ : Type} (results : Nat) (rest : List StackItem) (machine : Machine σ) : Prop :=
  match machine.pending with
  | none => ∃ given, machine.stack = given ++ rest ∧ given.length = results
  | some pending => machine.stack = rest ∧ pending.results = results ∧ pending.Answerable

theorem Machine.settled_done {σ : Type} {results : Nat} {rest : List StackItem} {machine : Machine σ}
    (given : List StackItem) (isNone : machine.pending = none) (stack : machine.stack = given ++ rest)
    (length : given.length = results) : machine.Settled results rest := by
  rw [Settled, isNone]
  exact ⟨given, stack, length⟩

namespace Run

variable {σ α β : Type}

def Meets (action : Run σ α) (machine : Machine σ) (good : α → Machine σ → Prop)
    (bad : RuntimeError → Machine σ → Prop) : Prop :=
  match action.on machine with
  | (.ok result, after) => good result after
  | (.error error, after) => bad error after

theorem meets_seq {first : Run σ α} {next : α → Run σ β} {machine : Machine σ} {good : β → Machine σ → Prop}
    {bad : RuntimeError → Machine σ → Prop}
    (meets : Meets first machine (fun result after => Meets (next result) after good bad) bad) :
    Meets (first >>= next) machine good bad := by
  unfold Meets at meets ⊢
  rw [on_bind]
  generalize first.on machine = outcome at meets
  obtain ⟨result, after⟩ := outcome
  cases result with
  | error error => exact meets
  | ok result => exact meets

theorem meets_weaken {action : Run σ α} {machine : Machine σ} {good better : α → Machine σ → Prop}
    {bad worse : RuntimeError → Machine σ → Prop} (meets : Meets action machine good bad)
    (view : ∀ result after, good result after → better result after)
    (viewBad : ∀ error after, bad error after → worse error after) : Meets action machine better worse := by
  unfold Meets at meets ⊢
  generalize action.on machine = outcome at meets
  obtain ⟨result, after⟩ := outcome
  cases result with
  | error error => exact viewBad error after meets
  | ok result => exact view result after meets

def Takes (count : Nat) (action : Run σ α) : Prop :=
  ∀ machine items rest, machine.stack = items ++ rest → items.length = count →
    Meets action machine (fun _ after => after = { machine with stack := rest })
      fun error _ => error.isRecoverable = false

def Spares (action : Run σ α) : Prop :=
  ∀ machine, machine.pending = none →
    Meets action machine
      (fun _ after => after.stack = machine.stack ∧ after.pending = none ∧ machine.Steady after)
      fun error after => error.isRecoverable = true →
        after.stack = machine.stack ∧ after.pending = none ∧ machine.Steady after

/-- An action at a stack, of which it leaves `rest` below its results. Where it fails recoverably, it leaves
`rest` alone. -/
def Settles (results : Nat) (rest : List StackItem) (action : Run σ Unit) (machine : Machine σ) : Prop :=
  Meets action machine (fun _ after => after.Settled results rest)
    fun error after => error.isRecoverable = true →
      after.stack = rest ∧ after.pending = none ∧ machine.Steady after

def Honours (count results : Nat) (action : Run σ Unit) : Prop :=
  ∀ machine items rest, machine.pending = none → machine.stack = items ++ rest → items.length = count →
    Settles results rest action machine

/-- Changes variables, but neither the stack nor what is waited for. It has no recoverable error. -/
def Commits (action : Run σ α) : Prop :=
  ∀ machine, Meets action machine
    (fun _ after => after.stack = machine.stack ∧ after.pending = machine.pending)
    fun error _ => error.isRecoverable = false

theorem on_suspend {machine : Machine σ} (waitsNot : machine.pending = none) (request : Request) (completion : Completion) :
    ∃ notices, (suspend request completion : Run σ Unit).on machine =
      (.ok (), { machine with pending := some ⟨request, completion⟩, phase := .suspended, notices }) := by
  obtain ⟨notices, same⟩ := Machine.set_phase_only { machine with pending := some ⟨request, completion⟩ } .suspended
  rw [suspend, on_seq (on_get machine), if_neg (by simp [waitsNot]), on_modify, same]
  exact ⟨notices, rfl⟩

section Takes

variable {count more : Nat}

theorem takes_nothing (result : α) : Takes 0 (pure result : Run σ α) := by
  intro machine items rest stack length
  cases List.length_eq_zero_iff.mp length
  have same : machine.stack = rest := stack
  show machine = { machine with stack := rest }
  rw [← same]

theorem takes_fail {fault : Fault} (fatal : fault.isRecoverable = false) :
    Takes count (fail fault : Run σ α) :=
  fun _ _ _ _ _ => fatal

theorem takes_seq {first : Run σ α} {next : α → Run σ β} (takes : Takes count first)
    (rest : ∀ result, Takes more (next result)) : Takes (count + more) (first >>= next) := by
  intro machine items below stack length
  have split : machine.stack = items.take count ++ (items.drop count ++ below) := by
    rw [← List.append_assoc, List.take_append_drop, stack]
  refine meets_seq (meets_weaken (takes machine _ _ split (by simp [length])) ?_ fun _ _ fatal => fatal)
  rintro result _ rfl
  exact rest result _ (items.drop count) below rfl (by simp [length])

theorem takes_map {action : Run σ α} (takes : Takes count action) (change : α → β) :
    Takes count (do return change (← action)) :=
  (takes_seq takes fun _ => takes_nothing _ : Takes (count + 0) _)

theorem takes_item : Takes 1 (pop : Run σ StackItem) := by
  intro machine items rest stack length
  obtain ⟨item, rfl⟩ := List.length_eq_one_iff.mp length
  rw [Meets, on_pop stack]
  rfl

theorem takes_cell_value (cell : Cell) : Takes 0 (readCell cell : Run σ Value) := by
  intro machine items rest stack length
  exact takes_nothing (machine.store.read cell) machine items rest stack length

theorem takes_get : Takes 0 (get : Run σ (Machine σ)) :=
  fun machine => takes_nothing machine machine

theorem takes_value : Takes 1 (popValue : Run σ Value) := by
  refine (takes_seq takes_item fun item => ?_ : Takes (1 + 0) _)
  cases item with
  | value value => exact takes_nothing value
  | reference cell => exact takes_cell_value cell

theorem takes_reference : Takes 1 (popReference : Run σ Cell) := by
  refine (takes_seq takes_item fun item => ?_ : Takes (1 + 0) _)
  cases item with
  | value value => exact takes_fail rfl
  | reference cell => exact takes_nothing cell

theorem takes_text : Takes 1 (popText : Run σ String) := by
  refine (takes_seq takes_value fun value => ?_ : Takes (1 + 0) _)
  cases value with
  | string text => exact takes_nothing text
  | null => exact takes_nothing ""
  | _ => exact takes_fail rfl

theorem takes_number : Takes 1 (popNumber : Run σ Float) := by
  refine (takes_seq takes_value fun value => ?_ : Takes (1 + 0) _)
  cases value.toDouble? with
  | some number => exact takes_nothing number
  | none => exact takes_fail rfl

theorem takes_int : Takes 1 (popInt : Run σ Int) := takes_map takes_number _

theorem takes_many {popOne : Run σ α} (takes : Takes 1 popOne) (count : Nat) (items : List α) :
    Takes count (popMany popOne count items) := by
  induction count generalizing items with
  | zero => exact takes_nothing items
  | succ count ih =>
    have both : Takes (1 + count) (popMany popOne (count + 1) items) :=
      takes_seq takes fun item => ih (item :: items)
    rwa [Nat.add_comm 1 count] at both

theorem on_pop_item {machine : Machine σ} {item : StackItem} {items : List StackItem}
    (stack : machine.stack = item :: items) :
    (popValue : Run σ Value).on machine = (.ok (machine.valueOf item), { machine with stack := items }) := by
  rw [popValue, on_seq (on_pop stack)]
  cases item <;> rfl

theorem on_pop_whole {machine : Machine σ} {item : StackItem} {items : List StackItem}
    (stack : machine.stack = item :: items) :
    (popInt : Run σ Int).on machine =
      match machine.wholeOf? item with
      | some number => (.ok number, { machine with stack := items })
      | none => (.error (.ofFault (.expectedNumber (machine.valueOf item).typeName)),
          { machine with stack := items }) := by
  rw [popInt, popNumber, on_bind, on_seq (on_pop_item stack), Machine.wholeOf?, Value.toInt?]
  cases (machine.valueOf item).toDouble? with
  | none => rfl
  | some number => rfl

end Takes

section Spares

theorem spares_nothing (result : α) : Spares (pure result : Run σ α) :=
  fun machine isNone => ⟨rfl, isNone, .refl machine⟩

theorem spares_fail (fault : Fault) : Spares (fail fault : Run σ α) :=
  fun machine isNone _ => ⟨rfl, isNone, .refl machine⟩

theorem spares_seq {first : Run σ α} {next : α → Run σ β} (spares : Spares first)
    (rest : ∀ result, Spares (next result)) : Spares (first >>= next) := by
  intro machine isNone
  refine meets_seq (meets_weaken (spares machine isNone) ?_ fun _ _ stays => stays)
  rintro result between ⟨stack, stillNone, steady⟩
  refine meets_weaken (rest result between stillNone) ?_ ?_
  · rintro _ after ⟨same, none, still⟩
    exact ⟨same.trans stack, none, steady.trans still⟩
  · intro error after stays recoverable
    obtain ⟨same, none, still⟩ := stays recoverable
    exact ⟨same.trans stack, none, steady.trans still⟩

theorem spares_get : Spares (get : Run σ (Machine σ)) :=
  fun machine isNone => ⟨rfl, isNone, .refl machine⟩

theorem spares_modify {change : Machine σ → Machine σ}
    (spares : ∀ machine, (change machine).stack = machine.stack ∧ (change machine).pending = machine.pending ∧
      machine.Steady (change machine)) : Spares (modify change : Run σ Unit) := by
  intro machine isNone
  obtain ⟨stack, pending, steady⟩ := spares machine
  exact ⟨stack, pending.trans isNone, steady⟩

theorem spares_modify_get {change : Machine σ → α × Machine σ}
    (spares : ∀ machine, (change machine).2.stack = machine.stack ∧ (change machine).2.pending = machine.pending ∧
      machine.Steady (change machine).2) : Spares (modifyGet change : Run σ α) := by
  intro machine isNone
  obtain ⟨stack, pending, steady⟩ := spares machine
  exact ⟨stack, pending.trans isNone, steady⟩

theorem on_device (action : DeviceAction σ α) (machine : Machine σ) :
    (device action).on machine =
      (match (action machine.world).1 with
        | .ok value => pure value
        | .error error => fail (.device error) : Run σ α).on
          { machine with world := (action machine.world).2 } := by
  rw [device, on_seq (on_get machine)]
  rfl

theorem spares_device (action : DeviceAction σ α) : Spares (device action : Run σ α) := by
  intro machine isNone
  rw [Meets, on_device]
  cases (action machine.world).1 with
  | ok value => exact ⟨rfl, isNone, ⟨rfl, rfl, rfl, rfl⟩⟩
  | error error => exact fun _ => ⟨rfl, isNone, ⟨rfl, rfl, rfl, rfl⟩⟩

theorem spares_installed (name : String) (device? : Option α) : Spares (installed name device? : Run σ α) := by
  cases device? with
  | none => exact spares_fail _
  | some device => exact spares_nothing device

theorem spares_status (code : Nat) : Spares (setStatus code : Run σ Unit) :=
  spares_modify fun _ => ⟨rfl, rfl, rfl, rfl, rfl, rfl⟩

theorem spares_print (devices : Devices σ) (text : String) : Spares (print devices text) := by
  refine spares_seq spares_get fun machine => ?_
  cases machine.output with
  | none => exact spares_modify fun _ => ⟨rfl, rfl, rfl, rfl, rfl, rfl⟩
  | some number =>
    refine spares_seq spares_get fun machine => ?_
    cases machine.files.get? number with
    | none => exact spares_fail _
    | some file =>
      dsimp only
      split
      · exact spares_fail _
      · exact spares_modify fun _ => ⟨rfl, rfl, rfl, rfl, rfl, rfl⟩

theorem spares_select (number : Option Int) : Spares (selectOutput number : Run σ Unit) := by
  refine spares_seq (spares_modify fun _ => ⟨rfl, rfl, rfl, rfl, rfl, rfl⟩) fun _ => ?_
  cases number with
  | none => exact spares_nothing ()
  | some number =>
    refine spares_seq spares_get fun machine => ?_
    cases machine.files.get? number with
    | none => exact spares_fail _
    | some file =>
      dsimp only
      split
      · exact spares_fail _
      · exact spares_nothing ()

end Spares

section Commits

theorem commits_nothing (result : α) : Commits (pure result : Run σ α) := fun _ => ⟨rfl, rfl⟩

theorem commits_seq {first : Run σ α} {next : α → Run σ β} (commits : Commits first)
    (rest : ∀ result, Commits (next result)) : Commits (first >>= next) := by
  intro machine
  refine meets_seq (meets_weaken (commits machine) ?_ fun _ _ fatal => fatal)
  rintro result between ⟨stack, pending⟩
  refine meets_weaken (rest result between) ?_ fun _ _ fatal => fatal
  rintro _ after ⟨sameStack, samePending⟩
  exact ⟨sameStack.trans stack, samePending.trans pending⟩

theorem commits_read (cell : Cell) : Commits (readCell cell : Run σ Value) := fun _ => ⟨rfl, rfl⟩

theorem commits_assign (cell : Cell) (value : Value) : Commits (assign cell value : Run σ Unit) := by
  refine commits_seq (fun _ => ⟨rfl, rfl⟩ : Commits (get : Run σ (Machine σ))) fun held => ?_
  dsimp only
  split
  · exact fun _ => ⟨rfl, rfl⟩
  · cases (held.store.ty cell).convert value with
    | ok converted => exact fun _ => ⟨rfl, rfl⟩
    | error fault => exact fun _ => rfl

end Commits

section Honours

variable {count results : Nat}

theorem honours_takes {more : Nat} {first : Run σ α} {next : α → Run σ Unit} (takes : Takes more first)
    (rest : ∀ result, Honours count results (next result)) : Honours (count + more) results (first >>= next) := by
  intro machine items below isNone stack length
  have split : machine.stack = items.take more ++ (items.drop more ++ below) := by
    rw [← List.append_assoc, List.take_append_drop, stack]
  refine meets_seq (meets_weaken (takes machine _ _ split (by simp [length])) ?_ ?_)
  · rintro result _ rfl
    refine meets_weaken (rest result _ (items.drop more) below isNone rfl (by simp [length]))
      (fun _ _ settled => settled) ?_
    intro error after stays recoverable
    obtain ⟨same, none, steady⟩ := stays recoverable
    exact ⟨same, none, steady.store, steady.scopes, steady.frames, steady.next⟩
  · intro error after fatal recoverable
    rw [fatal] at recoverable
    cases recoverable

theorem honours_take {first : Run σ α} {next : α → Run σ Unit} (takes : Takes 1 first)
    (rest : ∀ result, Honours count results (next result)) : Honours (count + 1) results (first >>= next) :=
  honours_takes takes rest

theorem honours_skip {next : α → Run σ Unit} {value : α} (honours : Honours count results (next value)) :
    Honours count results (pure value >>= next) := by
  rwa [pure_bind]

theorem honours_spare {first : Run σ α} {next : α → Run σ Unit} (spares : Spares first)
    (rest : ∀ result, Honours 0 results (next result)) : Honours 0 results (first >>= next) := by
  intro machine items below isNone stack length
  cases List.length_eq_zero_iff.mp length
  refine meets_seq (meets_weaken (spares machine isNone) ?_ ?_)
  · rintro result between ⟨same, stillNone, steady⟩
    refine meets_weaken (rest result between [] below stillNone (same.trans stack) rfl)
      (fun _ _ settled => settled) ?_
    intro error after stays recoverable
    obtain ⟨last, none, still⟩ := stays recoverable
    exact ⟨last, none, steady.trans still⟩
  · intro error after stays recoverable
    obtain ⟨last, none, still⟩ := stays recoverable
    exact ⟨last.trans stack, none, still⟩

theorem honours_fail (fault : Fault) : Honours 0 results (fail fault : Run σ Unit) := by
  intro machine items below isNone stack length _
  cases List.length_eq_zero_iff.mp length
  exact ⟨stack, isNone, .refl machine⟩

theorem honours_push (value : Value) : Honours 0 1 (push value : Run σ Unit) := by
  intro machine items below isNone stack length
  cases List.length_eq_zero_iff.mp length
  exact Machine.settled_done [.value value] isNone (congrArg _ stack) rfl

theorem honours_end {action : Run σ Unit} (spares : Spares action) : Honours 0 0 action := by
  intro machine items below isNone stack length
  cases List.length_eq_zero_iff.mp length
  refine meets_weaken (spares machine isNone) ?_ ?_
  · rintro _ after ⟨same, none, -⟩
    exact Machine.settled_done [] none (same.trans stack) rfl
  · intro error after stays recoverable
    obtain ⟨same, none, steady⟩ := stays recoverable
    exact ⟨same.trans stack, none, steady⟩

theorem honours_commit {action : Run σ Unit} (commits : Commits action) : Honours 0 0 action := by
  intro machine items below isNone stack length
  cases List.length_eq_zero_iff.mp length
  refine meets_weaken (commits machine) ?_ ?_
  · rintro _ after ⟨same, pending⟩
    exact Machine.settled_done [] (pending.trans isNone) (same.trans stack) rfl
  · intro error after fatal recoverable
    rw [fatal] at recoverable
    cases recoverable

theorem honours_suspend (request : Request) (completion : Completion)
    (answerable : Pending.Answerable ⟨request, completion⟩) :
    Honours 0 (Pending.results ⟨request, completion⟩) (suspend request completion : Run σ Unit) := by
  intro machine items below isNone stack length
  cases List.length_eq_zero_iff.mp length
  obtain ⟨notices, suspended⟩ := on_suspend isNone request completion
  rw [Settles, Meets, suspended]
  exact ⟨stack, rfl, answerable⟩

end Honours

end Run

end BasicLang
