import BasicLang.Code.Program
import BasicLang.Device.Bench
import BasicLang.Machine.Schedule
import BasicLang.Proofs.Machine.Running
import Mathlib.Data.List.Forall2
import Mathlib.Data.List.Permutation

set_option autoImplicit false

namespace BasicLang

namespace Run

inductive Deed (σ : Type) where
  | delivers (key data : String) (machine : Machine σ)
  | executes (instruction : Instruction) (machine : Machine σ)
  | asks (request : Request) (machine : Machine σ)

abbrev Tale (σ α : Type) := List (Deed σ) × Except RuntimeError α × Machine σ

variable {σ α β γ : Type}

namespace Tale

def silent (result : α) (machine : Machine σ) : Tale σ α := ([], .ok result, machine)

def andThen (first : Tale σ α) (next : α → Machine σ → Tale σ β) : Tale σ β :=
  match first with
  | (deeds, .ok result, machine) => (deeds ++ (next result machine).1, (next result machine).2)
  | (deeds, .error error, machine) => (deeds, .error error, machine)

theorem silent_then (result : α) (machine : Machine σ) (next : α → Machine σ → Tale σ β) :
    (silent result machine).andThen next = next result machine := rfl

theorem then_assoc (first : Tale σ α) (second : α → Machine σ → Tale σ β) (third : β → Machine σ → Tale σ γ) :
    (first.andThen second).andThen third =
      first.andThen fun result machine => (second result machine).andThen third := by
  obtain ⟨deeds, result, machine⟩ := first
  cases result with
  | error error => rfl
  | ok result =>
    simp only [andThen]
    generalize second result machine = told
    obtain ⟨more, found, last⟩ := told
    cases found with
    | error error => rfl
    | ok found => simp only [List.append_assoc]

theorem then_more {first : Tale σ α} {next longer : α → Machine σ → Tale σ β} {deeds : List (Deed σ)}
    {outcome : Except RuntimeError β × Machine σ} (ended : first.andThen next = (deeds, outcome))
    (same : ∀ result machine more, next result machine = (more, outcome) → longer result machine = (more, outcome)) :
    first.andThen longer = (deeds, outcome) := by
  obtain ⟨before, result, machine⟩ := first
  cases result with
  | error error => exact ended
  | ok result =>
    obtain ⟨isDeeds, isOutcome⟩ := Prod.mk.inj ended
    have further := same result machine (next result machine).1 (Prod.ext rfl isOutcome)
    rw [andThen, further, ← isDeeds]

theorem then_outcome {first : Tale σ α} {next : α → Machine σ → Tale σ β} {action : Run σ α}
    {further : α → Run σ β} {machine : Machine σ} (same : first.2 = action.on machine)
    (sameNext : ∀ result after, (next result after).2 = (further result).on after) :
    (first.andThen next).2 = (action >>= further).on machine := by
  obtain ⟨deeds, result, after⟩ := first
  rw [on_bind, ← same]
  cases result with
  | error error => rfl
  | ok result => exact sameNext result after

end Tale

section Told

variable (setup : Setup σ)

def toldDelivery (machine : Machine σ) : List (Deed σ) × Machine σ :=
  match machine.events with
  | [] => ([], machine)
  | (key, data) :: _ =>
    let entered := deliverEvent machine
    (if machine.frames.length < entered.frames.length then [.delivers key data machine] else [], entered)

def toldStep (machine : Machine σ) : Tale σ Bool :=
  let machine := if machine.phase = .idle then machine.setPhase .running else machine
  if machine.phase ≠ .running then .silent false machine
  else
    let (news, machine) := toldDelivery (pollEvents setup.devices machine)
    match machine.image.instructions[machine.next]? with
    | none => (news, .ok false, machine.setPhase .finished)
    | some instruction =>
      let executed := (failing (some instruction.locus) (execute setup instruction.op)).on
        { machine with next := machine.next + 1 }
      Tale.andThen (news ++ [.executes instruction machine], executed) fun _ after =>
        .silent true
          (if after.image.instructions.size ≤ after.next ∧ after.phase = .running then after.setPhase .finished
          else after)

def toldService (machine : Machine σ) : Tale σ Unit :=
  match machine.pending with
  | none => .silent () machine
  | some pending =>
    let (reply, world) := setup.devices.perform pending.request machine.world
    ([.asks pending.request machine], (resume reply).on { machine with world })

def toldSlice : Nat → Machine σ → Tale σ Unit
  | 0, machine => .silent () machine
  | count + 1, machine => (toldStep setup machine).andThen fun goesOn after =>
      if goesOn then toldSlice count after else .silent () after

def toldToEnd : Nat → Machine σ → Tale σ Bool
  | 0, machine => .silent false machine
  | fuel + 1, machine =>
    match machine.phase with
    | .idle | .running => (toldStep setup machine).andThen fun _ after => toldToEnd fuel after
    | .suspended => (toldService setup machine).andThen fun _ after => toldToEnd fuel after
    | .finished | .failed => .silent true machine

def toldProgram (image : Image) (fuel : Nat) (machine : Machine σ) : Tale σ Bool :=
  toldToEnd setup fuel ((machine.load setup.devices image).setPhase .running)

def slicesWith (budgets : Nat → Nat) : Nat → Run σ Bool
  | 0 => return false
  | rounds + 1 => do
    match (← get).phase with
    | .idle | .running =>
      let _ ← tick { setup with budget := budgets 0 }
      slicesWith (fun index => budgets (index + 1)) rounds
    | .suspended =>
      service setup
      slicesWith budgets rounds
    | .finished | .failed => return true

def toldSlices (budgets : Nat → Nat) : Nat → Machine σ → Tale σ Bool
  | 0, machine => .silent false machine
  | rounds + 1, machine =>
    match machine.phase with
    | .idle | .running => (toldSlice setup (budgets 0) machine).andThen fun _ after =>
        toldSlices (fun index => budgets (index + 1)) rounds after
    | .suspended => (toldService setup machine).andThen fun _ after => toldSlices budgets rounds after
    | .finished | .failed => .silent true machine

def programInSlicesWith (budgets : Nat → Nat) (image : Image) (rounds : Nat) : Run σ Bool := do
  loadImage setup image
  slicesWith setup budgets rounds

def toldProgramInSlices (budgets : Nat → Nat) (image : Image) (rounds : Nat) (machine : Machine σ) :
    Tale σ Bool :=
  toldSlices setup budgets rounds (machine.load setup.devices image)

end Told

section Outcome

variable {setup : Setup σ} {machine : Machine σ}

theorem told_delivery (machine : Machine σ) : (toldDelivery machine).2 = deliverEvent machine := by
  unfold toldDelivery
  cases noEvents : machine.events with
  | nil => simp only [deliverEvent, noEvents]
  | cons event rest => rfl

theorem told_step (machine : Machine σ) : (toldStep setup machine).2 = (step setup).on machine := by
  unfold toldStep
  rw [step, on_seq (on_modify _ _), on_seq (on_get _)]
  generalize (if machine.phase = .idle then machine.setPhase .running else machine) = machine
  by_cases isRunning : machine.phase = .running
  · simp only [if_neg (not_not_intro isRunning)]
    rw [on_seq (on_modify _ _), on_seq (on_get _), ← told_delivery]
    generalize toldDelivery (pollEvents setup.devices machine) = told
    obtain ⟨news, machine⟩ := told
    dsimp only
    cases machine.image.instructions[machine.next]? with
    | none => rfl
    | some instruction =>
      dsimp only
      rw [on_seq (on_modify _ _)]
      exact Tale.then_outcome rfl fun _ _ => rfl
  · simp only [if_pos isRunning]
    rfl

theorem told_service (machine : Machine σ) : (toldService setup machine).2 = (service setup).on machine := by
  unfold toldService
  split
  · next nothing =>
    rw [service, on_seq (on_get machine), nothing]
    rfl
  · next pending waits =>
    have asked : (service setup).on machine =
        (do
          let reply ← modifyGet fun machine =>
            let (reply, world) := setup.devices.perform pending.request machine.world
            (reply, { machine with world })
          resume reply : Run σ Unit).on machine := by
      rw [service, on_seq (on_get machine), waits]
    exact asked.symm

theorem told_to_end (fuel : Nat) (machine : Machine σ) :
    (toldToEnd setup fuel machine).2 = (toEnd setup fuel).on machine := by
  induction fuel generalizing machine with
  | zero => rfl
  | succ fuel ih =>
    rw [toldToEnd, toEnd, on_seq (on_get machine)]
    cases machine.phase with
    | idle | running => exact Tale.then_outcome (told_step machine) fun _ => ih
    | suspended => exact Tale.then_outcome (told_service machine) fun _ => ih
    | finished | failed => rfl

theorem told_program (image : Image) (fuel : Nat) (machine : Machine σ) :
    (toldProgram setup image fuel machine).2 = (program setup image fuel).on machine :=
  told_to_end fuel _

theorem told_slice (count : Nat) (machine : Machine σ) :
    (toldSlice setup count machine).2 = (slice setup count).on machine := by
  induction count generalizing machine with
  | zero => rfl
  | succ count ih =>
    rw [toldSlice, slice]
    refine Tale.then_outcome (told_step machine) fun goesOn after => ?_
    cases goesOn with
    | true => exact ih after
    | false => rfl

theorem slice_budget (budget count : Nat) : slice { setup with budget } count = slice setup count := by
  have executes (op : Op) : execute { setup with budget } op = execute setup op := by cases op <;> rfl
  have steps : step { setup with budget } = step setup := by simp only [step, executes]
  induction count with
  | zero => rfl
  | succ count ih => rw [slice, slice, steps, ih]

theorem on_tick (budget : Nat) (further : Run σ β) (machine : Machine σ) :
    (tick { setup with budget } >>= fun _ => further).on machine =
      (slice setup budget >>= fun _ => further).on machine := by
  rw [tick, slice_budget, bind_assoc, on_bind, on_bind]
  obtain ⟨result, after⟩ := (slice setup budget).on machine
  cases result <;> rfl

theorem told_slices (budgets : Nat → Nat) (rounds : Nat) (machine : Machine σ) :
    (toldSlices setup budgets rounds machine).2 = (slicesWith setup budgets rounds).on machine := by
  induction rounds generalizing budgets machine with
  | zero => rfl
  | succ rounds ih =>
    rw [toldSlices, slicesWith, on_seq (on_get machine)]
    cases machine.phase with
    | idle | running =>
      dsimp only
      rw [on_tick]
      exact Tale.then_outcome (told_slice _ machine) fun _ => ih _
    | suspended => exact Tale.then_outcome (told_service machine) fun _ => ih budgets
    | finished | failed => rfl

theorem told_program_in_slices (budgets : Nat → Nat) (image : Image) (rounds : Nat) (machine : Machine σ) :
    (toldProgramInSlices setup budgets image rounds machine).2 =
      (programInSlicesWith setup budgets image rounds).on machine :=
  told_slices budgets rounds _

theorem slices_with_budget (rounds : Nat) :
    slicesWith setup (fun _ => setup.budget) rounds = slicesToEnd setup rounds := by
  induction rounds with
  | zero => rfl
  | succ rounds ih =>
    rewrite [slicesWith, slicesToEnd, ih]
    rfl

end Outcome

section Cut

variable (setup : Setup σ) {machine : Machine σ}

theorem told_step_silent (rests : ¬(machine.phase = .idle ∨ machine.phase = .running)) :
    toldStep setup machine = .silent false machine := by
  obtain ⟨notIdle, notRunning⟩ := not_or.mp rests
  rw [toldStep, if_neg notIdle, if_pos notRunning]

theorem told_slice_still (count : Nat) (rests : ¬(machine.phase = .idle ∨ machine.phase = .running)) :
    toldSlice setup count machine = .silent () machine := by
  cases count with
  | zero => rfl
  | succ count =>
    rw [toldSlice, told_step_silent setup rests, Tale.silent_then]
    rfl

theorem told_to_end_step (fuel : Nat) (active : machine.phase = .idle ∨ machine.phase = .running) :
    toldToEnd setup (fuel + 1) machine = (toldStep setup machine).andThen fun _ => toldToEnd setup fuel := by
  rcases active with isIdle | isRunning
  · rw [toldToEnd, isIdle]
  · rw [toldToEnd, isRunning]

theorem slice_of_whole (count : Nat) (machine : Machine σ) :
    ∃ acts, (0 < count → machine.phase = .idle ∨ machine.phase = .running → 0 < acts) ∧
      ∀ fuel, toldToEnd setup (acts + fuel) machine =
        (toldSlice setup count machine).andThen fun _ => toldToEnd setup fuel := by
  -- The slice is cut where the machine stops or waits, so that it may have fewer steps than its count. A
  -- machine that cannot step makes an empty slice.
  induction count generalizing machine with
  | zero => exact ⟨0, (absurd · (Nat.lt_irrefl 0)), fun fuel => by rw [Nat.zero_add]; rfl⟩
  | succ count ih =>
    by_cases active : machine.phase = .idle ∨ machine.phase = .running
    · rw [toldSlice]
      generalize told : toldStep setup machine = first
      obtain ⟨deeds, result, after⟩ := first
      cases result with
      | error error =>
        refine ⟨1, fun _ _ => Nat.one_pos, fun fuel => ?_⟩
        rw [Nat.add_comm, told_to_end_step setup fuel active, told]
        rfl
      | ok goesOn =>
        cases goesOn with
        | false =>
          refine ⟨1, fun _ _ => Nat.one_pos, fun fuel => ?_⟩
          rw [Nat.add_comm, told_to_end_step setup fuel active, told, Tale.then_assoc]
          rfl
        | true =>
          obtain ⟨acts, -, further⟩ := ih after
          refine ⟨acts + 1, fun _ _ => Nat.succ_pos acts, fun fuel => ?_⟩
          rw [Nat.add_right_comm, told_to_end_step setup _ active, told, Tale.then_assoc]
          exact congrArg (fun (more : Tale σ Bool) => (deeds ++ more.1, more.2)) (further fuel)
    · have still := told_slice_still setup (count + 1) active
      refine ⟨0, fun _ isActive => absurd isActive active, fun fuel => ?_⟩
      rw [still, Nat.zero_add, Tale.silent_then]

theorem whole_then {rounds acts : Nat} {first : Tale σ Unit} {next : Unit → Machine σ → Tale σ Bool}
    (some_ : 0 < acts)
    (begins : ∀ fuel, toldToEnd setup (acts + fuel) machine = first.andThen fun _ => toldToEnd setup fuel)
    (goesOn : ∀ after, ∃ further, rounds ≤ further ∧ next () after = toldToEnd setup further after) :
    ∃ total, rounds + 1 ≤ total ∧ first.andThen next = toldToEnd setup total machine := by
  obtain ⟨deeds, result, after⟩ := first
  cases result with
  | error error => exact ⟨acts + rounds, by omega, (begins rounds).symm⟩
  | ok _ =>
    obtain ⟨further, enough, same⟩ := goesOn after
    refine ⟨acts + further, by omega, ?_⟩
    rw [begins]
    exact congrArg (fun (more : Tale σ Bool) => (deeds ++ more.1, more.2)) same

theorem slices_of_whole (budgets : Nat → Nat) (positive : ∀ index, 0 < budgets index) (rounds : Nat)
    (machine : Machine σ) :
    ∃ acts, rounds ≤ acts ∧ toldSlices setup budgets rounds machine = toldToEnd setup acts machine := by
  -- Every round is at least one step or one reply. This is where a budget of zero would go wrong: its
  -- rounds would never come to the end of a run.
  induction rounds generalizing budgets machine with
  | zero => exact ⟨0, Nat.le_refl 0, rfl⟩
  | succ rounds ih =>
    have slices (active : machine.phase = .idle ∨ machine.phase = .running) :
        ∃ acts, rounds + 1 ≤ acts ∧ (toldSlice setup (budgets 0) machine).andThen
          (fun _ => toldSlices setup (fun index => budgets (index + 1)) rounds) =
            toldToEnd setup acts machine := by
      obtain ⟨acts, anyActs, begins⟩ := slice_of_whole setup (budgets 0) machine
      exact whole_then setup (anyActs (positive 0) active) begins
        (ih _ fun index => positive (index + 1))
    cases isPhase : machine.phase with
    | idle =>
      rw [toldSlices, isPhase]
      exact slices (.inl isPhase)
    | running =>
      rw [toldSlices, isPhase]
      exact slices (.inr isPhase)
    | suspended =>
      rw [toldSlices, isPhase]
      refine whole_then setup Nat.one_pos (fun fuel => ?_) (ih budgets positive)
      rw [Nat.add_comm, toldToEnd, isPhase]
    | finished | failed =>
      refine ⟨rounds + 1, Nat.le_refl _, ?_⟩
      rw [toldSlices, toldToEnd, isPhase]

theorem started_running (isIdle : machine.phase = .idle) : (machine.setPhase .running).phase = .running := by
  rw [Machine.setPhase, if_neg (by rw [isIdle]; decide)]

theorem told_step_started (isIdle : machine.phase = .idle) :
    toldStep setup machine = toldStep setup (machine.setPhase .running) := by
  have isRunning := started_running isIdle
  have started : (if machine.phase = .idle then machine.setPhase .running else machine) =
      machine.setPhase .running := if_pos isIdle
  have still : (if (machine.setPhase .running).phase = .idle then (machine.setPhase .running).setPhase .running
      else machine.setPhase .running) = machine.setPhase .running := if_neg (by rw [isRunning]; decide)
  simp only [toldStep, started, still]

theorem told_slices_started (budgets : Nat → Nat) (positive : 0 < budgets 0) (rounds : Nat)
    (isIdle : machine.phase = .idle) :
    toldSlices setup budgets (rounds + 1) machine =
      toldSlices setup budgets (rounds + 1) (machine.setPhase .running) := by
  have isRunning := started_running isIdle
  obtain ⟨more, budget⟩ := Nat.exists_eq_add_of_lt positive
  rw [toldSlices, toldSlices, isIdle, isRunning]
  simp only [budget, toldSlice, told_step_started setup isIdle]

theorem told_to_end_more {fuel : Nat} {deeds : List (Deed σ)} {result : Except RuntimeError Bool}
    {after : Machine σ} (ended : toldToEnd setup fuel machine = (deeds, result, after))
    (hasEnded : result ≠ .ok false) (more : Nat) :
    toldToEnd setup (fuel + more) machine = (deeds, result, after) := by
  induction fuel generalizing machine deeds with
  | zero =>
    cases ended
    exact absurd rfl hasEnded
  | succ fuel ih =>
    rw [Nat.add_right_comm]
    cases isPhase : machine.phase with
    | idle | running | suspended =>
      rw [toldToEnd, isPhase] at ended ⊢
      exact Tale.then_more ended fun _ _ _ => ih
    | finished | failed =>
      rw [toldToEnd, isPhase] at ended ⊢
      exact ended

variable (image : Image) (machine)

theorem slices_begin_whole (budgets : Nat → Nat) (positive : ∀ index, 0 < budgets index) (rounds : Nat) :
    ∃ acts, rounds ≤ acts ∧
      toldProgramInSlices setup budgets image (rounds + 1) machine = toldProgram setup image acts machine := by
  -- A loaded machine is idle for the first slice, but already running for a whole run.
  rw [toldProgramInSlices, told_slices_started setup budgets (positive 0) rounds rfl]
  obtain ⟨acts, enough, same⟩ := slices_of_whole setup budgets positive (rounds + 1)
    ((machine.load setup.devices image).setPhase .running)
  exact ⟨acts, Nat.le_of_succ_le enough, same⟩

theorem slices_end_alike (budgets : Nat → Nat) (positive : ∀ index, 0 < budgets index)
    (deeds : List (Deed σ)) (result : Except RuntimeError Bool) (after : Machine σ)
    (hasEnded : result ≠ .ok false) :
    (∃ fuel, toldProgram setup image fuel machine = (deeds, result, after)) ↔
      ∃ rounds, toldProgramInSlices setup budgets image rounds machine = (deeds, result, after) := by
  constructor
  -- As many rounds as the whole run has steps are enough, since no round is empty.
  · rintro ⟨fuel, ended⟩
    obtain ⟨acts, enough, same⟩ := slices_begin_whole setup machine image budgets positive fuel
    obtain ⟨more, rfl⟩ := Nat.exists_eq_add_of_le enough
    exact ⟨fuel + 1, same.trans (told_to_end_more setup ended hasEnded more)⟩
  · rintro ⟨rounds, ended⟩
    cases rounds with
    | zero =>
      cases ended
      exact absurd rfl hasEnded
    | succ rounds =>
      obtain ⟨acts, -, same⟩ := slices_begin_whole setup machine image budgets positive rounds
      exact ⟨acts, same.symm.trans ended⟩

theorem slices_outcome_alike (budgets : Nat → Nat) (positive : ∀ index, 0 < budgets index)
    (result : Except RuntimeError Bool) (after : Machine σ) (hasEnded : result ≠ .ok false) :
    (∃ fuel, (program setup image fuel).on machine = (result, after)) ↔
      ∃ rounds, (programInSlicesWith setup budgets image rounds).on machine = (result, after) := by
  have alike (deeds : List (Deed σ)) :=
    slices_end_alike setup machine image budgets positive deeds result after hasEnded
  constructor
  · rintro ⟨fuel, ended⟩
    rw [← told_program] at ended
    obtain ⟨rounds, same⟩ := (alike _).mp ⟨fuel, Prod.ext rfl ended⟩
    exact ⟨rounds, by rw [← told_program_in_slices, same]⟩
  · rintro ⟨rounds, ended⟩
    rw [← told_program_in_slices] at ended
    obtain ⟨fuel, same⟩ := (alike _).mpr ⟨rounds, Prod.ext rfl ended⟩
    exact ⟨fuel, by rw [← told_program, same]⟩

theorem program_in_slices_ends_alike (positive : 0 < setup.budget) (result : Except RuntimeError Bool)
    (after : Machine σ) (hasEnded : result ≠ .ok false) :
    (∃ fuel, (program setup image fuel).on machine = (result, after)) ↔
      ∃ rounds, (programInSlices setup image rounds).on machine = (result, after) := by
  rw [slices_outcome_alike setup machine image (fun _ => setup.budget) (fun _ => positive) result after hasEnded]
  simp only [programInSlicesWith, slices_with_budget, programInSlices]

end Cut

section Orders

def saving (machine : Machine σ) (flushes : List Flush) : Machine σ :=
  { machine with pending := some ⟨.saveFiles flushes, .ignore⟩ }

inductive AlikeMachines : Machine σ → Machine σ → Prop where
  | same (machine : Machine σ) : AlikeMachines machine machine
  | saves {flushes others : List Flush} (perm : others.Perm flushes) {machine : Machine σ}
      (suspended : machine.phase = .suspended) : AlikeMachines (saving machine flushes) (saving machine others)

inductive AlikeDeeds : Deed σ → Deed σ → Prop where
  | same (deed : Deed σ) : AlikeDeeds deed deed
  | saves {flushes others : List Flush} (perm : others.Perm flushes) (machine : Machine σ) :
      AlikeDeeds (.asks (.saveFiles flushes) (saving machine flushes)) (.asks (.saveFiles others) (saving machine others))

inductive AlikeEnds : Except RuntimeError α × Machine σ → Except RuntimeError α × Machine σ → Prop where
  | goesOn (result : α) {machine other : Machine σ} (alike : AlikeMachines machine other) :
      AlikeEnds (.ok result, machine) (.ok result, other)
  | stops (error : RuntimeError) (machine : Machine σ) : AlikeEnds (.error error, machine) (.error error, machine)

def AlikeTales (first second : Tale σ α) : Prop := List.Forall₂ AlikeDeeds first.1 second.1 ∧ AlikeEnds first.2 second.2

theorem AlikeEnds.refl (ended : Except RuntimeError α × Machine σ) : AlikeEnds ended ended := by
  obtain ⟨result, machine⟩ := ended
  cases result with
  | error error => exact .stops error machine
  | ok result => exact .goesOn result (.same machine)

theorem AlikeTales.refl (tale : Tale σ α) : AlikeTales tale tale :=
  ⟨List.forall₂_same.mpr fun deed _ => .same deed, .refl tale.2⟩

variable {setup : Setup σ} {drain : DrainOrder}

end Orders

def sampleFiles : Table String := [("a", "1\n"), ("b", "2\n")]

end Run

end BasicLang
