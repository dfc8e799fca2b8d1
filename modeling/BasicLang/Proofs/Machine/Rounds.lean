import BasicLang.Proofs.Machine.Iteration

set_option autoImplicit false

namespace BasicLang

namespace Loop

variable {σ : Type} {setup : Setup σ} {image : Image} {symbols : SymbolTable} {spans : List Span} {base : List Frame}
  {machine after : Machine σ} {loop : Loop} {count : Count} {ran rounds : Nat}

section Stages

variable (loop : Loop) (count : Count) (base : List Frame)

/-- Where a loop stands when so many of its own instructions have run, so often into the body. -/
inductive Stage (machine : Machine σ) : Nat → Nat → Prop where
  | refers (place : machine.next = loop.start) (frames : machine.frames = base)
      (stands : Stands loop count base none .free .free machine) : Stage machine 0 0
  | first (cell : Cell) (rest : List StackItem) (place : machine.next = loop.start + 1) (frames : machine.frames = base)
      (stands : Stands loop count base none .free .free machine) (stack : machine.stack = .reference cell :: rest)
      (target : machine.lookup? loop.counter = some cell) : Stage machine 1 0
  | assigns (cell : Cell) (rest : List StackItem) (found : Value) (place : machine.next = loop.assigned)
      (frames : machine.frames = base) (stands : Stands loop count base none .free .free machine)
      (stack : machine.stack = .value found :: .reference cell :: rest) (target : machine.lookup? loop.counter = some cell)
      (number : found.toDouble? = some (Double.ofInt count.first)) : Stage machine 1 0
  | declaresLast (place : machine.next = loop.assigned + 1) (frames : machine.frames = base)
      (stands : Stands loop count base (some count.first) .free .free machine) : Stage machine 2 0
  | refersLast (number : Float) (place : machine.next = loop.assigned + 2) (frames : machine.frames = base)
      (stands : Stands loop count base (some count.first) (.hidden number) .free machine) : Stage machine 3 0
  | last (cell : Cell) (rest : List StackItem) (place : machine.next = loop.assigned + 3) (frames : machine.frames = base)
      (stands : Stands loop count base (some count.first) (.lent cell rest) .free machine)
      (stack : machine.stack = .reference cell :: rest) : Stage machine 4 0
  | ends (cell : Cell) (rest : List StackItem) (found : Value) (place : machine.next = loop.ended)
      (frames : machine.frames = base)
      (stands : Stands loop count base (some count.first) (.lent cell rest) .free machine)
      (stack : machine.stack = .value found :: .reference cell :: rest)
      (number : Ty.double.convert found = .ok (.double (Double.ofInt count.last))) : Stage machine 4 0
  | declaresStep (place : machine.next = loop.ended + 1) (frames : machine.frames = base)
      (stands : Stands loop count base (some count.first) (.hidden (Double.ofInt count.last)) .free machine) : Stage machine 5 0
  | refersStep (number : Float) (place : machine.next = loop.ended + 2) (frames : machine.frames = base)
      (stands : Stands loop count base (some count.first) (.hidden (Double.ofInt count.last)) (.hidden number) machine) :
      Stage machine 6 0
  | step (cell : Cell) (rest : List StackItem) (place : machine.next = loop.ended + 3) (frames : machine.frames = base)
      (stands : Stands loop count base (some count.first) (.hidden (Double.ofInt count.last)) (.lent cell rest) machine)
      (stack : machine.stack = .reference cell :: rest) : Stage machine 7 0
  | steps (cell : Cell) (rest : List StackItem) (found : Value) (place : machine.next = loop.stepped)
      (frames : machine.frames = base)
      (stands : Stands loop count base (some count.first) (.hidden (Double.ofInt count.last)) (.lent cell rest) machine)
      (stack : machine.stack = .value found :: .reference cell :: rest)
      (number : Ty.double.convert found = .ok (.double (Double.ofInt count.step))) : Stage machine 7 0
  -- Values for the test are pushed.
  | tests (rounds : Nat) (place : machine.next = loop.top) (settled : Settled loop count base rounds machine)
      (most : rounds ≤ count.rounds) : Stage machine (8 + 8 * rounds) rounds
  | counter (rounds : Nat) (rest : List StackItem) (place : machine.next = loop.top + 1)
      (settled : Settled loop count base rounds machine) (most : rounds ≤ count.rounds)
      (stack : machine.stack = .value (count.ty.whole (count.value rounds)) :: rest) : Stage machine (9 + 8 * rounds) rounds
  | limit (rounds : Nat) (rest : List StackItem) (place : machine.next = loop.top + 2)
      (settled : Settled loop count base rounds machine) (most : rounds ≤ count.rounds)
      (stack : machine.stack = .value (.double (Double.ofInt count.last)) ::
        .value (count.ty.whole (count.value rounds)) :: rest) : Stage machine (10 + 8 * rounds) rounds
  | stride (rounds : Nat) (rest : List StackItem) (place : machine.next = loop.top + 3)
      (settled : Settled loop count base rounds machine) (most : rounds ≤ count.rounds)
      (stack : machine.stack = .value (.double (Double.ofInt count.step)) :: .value (.double (Double.ofInt count.last)) ::
        .value (count.ty.whole (count.value rounds)) :: rest) : Stage machine (11 + 8 * rounds) rounds
  | body (rounds : Nat) (place : machine.next = loop.body) (settled : Settled loop count base rounds machine)
      (fewer : rounds < count.rounds) : Stage machine (12 + 8 * rounds) (rounds + 1)
  | tail (rounds : Nat) (place : machine.next = loop.tail) (settled : Settled loop count base rounds machine)
      (fewer : rounds < count.rounds) : Stage machine (12 + 8 * rounds) (rounds + 1)
  | target (rounds : Nat) (cell : Cell) (rest : List StackItem) (place : machine.next = loop.tail + 1)
      (settled : Settled loop count base rounds machine) (fewer : rounds < count.rounds)
      (stack : machine.stack = .reference cell :: rest) (isCounter : machine.lookup? loop.counter = some cell) :
      Stage machine (13 + 8 * rounds) (rounds + 1)
  | advances (rounds : Nat) (cell : Cell) (rest : List StackItem) (place : machine.next = loop.tail + 2)
      (settled : Settled loop count base rounds machine) (fewer : rounds < count.rounds)
      (stack : machine.stack = .value (.double (Double.ofInt count.step)) :: .reference cell :: rest)
      (isCounter : machine.lookup? loop.counter = some cell) : Stage machine (14 + 8 * rounds) (rounds + 1)
  | again (rounds : Nat) (place : machine.next = loop.tail + 3) (settled : Settled loop count base (rounds + 1) machine)
      (fewer : rounds < count.rounds) : Stage machine (15 + 8 * rounds) (rounds + 1)
  | exit (place : machine.next = loop.exit) (settled : Settled loop count base count.rounds machine) :
      Stage machine (12 + 8 * count.rounds) count.rounds

end Stages

theorem counter_apart (loops : image.Loops loop) : loop.counter ≠ loop.lastName ∧ loop.counter ≠ loop.stepName := by
  have assigned := loops.assigned
  have ended := loops.ended
  refine ⟨fun same => ?_, fun same => ?_⟩
  · have := loops.lastOwn.2 _ _ loops.refers (by simp [Op.changes, same])
    omega
  · have := loops.stepOwn.2 _ _ loops.refers (by simp [Op.changes, same])
    omega

theorem in_order (loops : image.Loops loop) : loop.start + 1 < loop.assigned ∧ loop.assigned + 3 < loop.ended ∧
    loop.ended + 3 < loop.stepped ∧ loop.top = loop.stepped + 1 ∧ loop.body = loop.stepped + 5 ∧ loop.body ≤ loop.tail ∧
    loop.exit = loop.tail + 4 :=
  ⟨loops.assigned, loops.ended, loops.stepped, rfl, rfl, loops.tail, rfl⟩

section Advancing

variable {lastTie stepTie : Tie} {counted number : Option Int} {op : Op}

theorem Stands.advance (receives : image.Receives symbols spans) (loops : image.Loops loop)
    (above : machine.Above setup.maxDepth image spans base) (stands : Stands loop count base counted lastTie stepTie machine)
    (advances : machine.Advances setup after) (frames : after.frames = machine.frames)
    (fetches : image.Fetches machine.next op)
    (unchanged : op.changes loop.lastName = false ∧ op.changes loop.stepName = false)
    (notLent : ∀ cell rest, lastTie ≠ .lent cell rest ∧ stepTie ≠ .lent cell rest) (counts : loop.Counts count after number) :
    Stands loop count base number lastTie stepTie after where
  scope := by
    rw [Machine.scope, frames]
    exact stands.scope
  counts := counts
  last := stands.last.advance receives above loops.lastOwn.1 (fun cell rest => (notLent cell rest).1) advances frames fetches
    unchanged.1
  step := stands.step.advance receives above loops.stepOwn.1 (fun cell rest => (notLent cell rest).2) advances frames fetches
    unchanged.2

theorem Stands.of_last (stands : Stands loop count base counted lastTie .free machine) (frames : after.frames = machine.frames)
    (counts : loop.Counts count after number) {tie : Tie} (last : Tied base loop.lastName after tie) :
    Stands loop count base number tie .free after :=
  ⟨by rw [Machine.scope, frames]; exact stands.scope, counts, last, trivial⟩

theorem Stands.of_step (receives : image.Receives symbols spans) (loops : image.Loops loop)
    (above : machine.Above setup.maxDepth image spans base) {limit : Float}
    (stands : Stands loop count base counted (.hidden limit) stepTie machine) (advances : machine.Advances setup after)
    (frames : after.frames = machine.frames) (fetches : image.Fetches machine.next op)
    (unchanged : op.changes loop.lastName = false) (counts : loop.Counts count after number) {tie : Tie}
    (step : Tied base loop.stepName after tie) : Stands loop count base number (.hidden limit) tie after :=
  ⟨by rw [Machine.scope, frames]; exact stands.scope, counts,
    stands.last.advance receives above loops.lastOwn.1 (by simp) advances frames fetches unchanged, step⟩

theorem Counts.same (counts : loop.Counts count machine counted)
    (same : after.variableValue loop.counter = machine.variableValue loop.counter) : loop.Counts count after counted := by
  cases counted with
  | none =>
    rw [Counts, same]
    exact counts
  | some number => exact ⟨counts.1, same.trans counts.2⟩

end Advancing

def entered (loop : Loop) (after : Machine σ) : List Value :=
  if after.next = loop.body then [after.variableValue loop.counter] else []

def Furthers (setup : Setup σ) (loop : Loop) (count : Count) (base : List Frame) (machine : Machine σ) (ran rounds : Nat) :
    Prop :=
  ∃ after more, machine.Advances setup after ∧ after.frames = machine.frames ∧ Stage loop count base after (ran + 1) more ∧
    count.values more = count.values rounds ++ loop.entered after

theorem Furthers.within (advances : machine.Advances setup after) (frames : after.frames = machine.frames)
    (stage : Stage loop count base after (ran + 1) rounds) (elsewhere : after.next ≠ loop.body) :
    Furthers setup loop count base machine ran rounds := by
  refine ⟨after, rounds, advances, frames, stage, ?_⟩
  rw [entered, if_neg elsewhere, List.append_nil]

structure Overflows (setup : Setup σ) (loop : Loop) (count : Count) (machine : Machine σ) (rounds : Nat) : Prop where
  place : machine.next = loop.tail + 2
  counts : 0 < rounds ∧ machine.variableValue loop.counter = count.ty.whole (count.value (rounds - 1))
  beyond : rounds ≤ count.rounds ∧ ¬count.ty.InRange (count.value rounds)
  stops : ∃ error failed, (Run.step setup).on machine = (.error error, failed) ∧ error.code = 6 ∧ failed.phase = .failed ∧
    failed.variableValue loop.counter = machine.variableValue loop.counter

section Own

variable (receives : image.Receives symbols spans) (loops : image.Loops loop) (proper : count.Proper)
  (above : machine.Above setup.maxDepth image spans base) (goes : machine.phase = .idle ∨ machine.phase = .running)
  (calm : (Run.ready setup machine).frames = machine.frames)
include receives loops above goes calm

theorem furthers_start (place : machine.next = loop.start) (frames : machine.frames = base)
    (stands : Stands loop count base none .free .free machine) : Furthers setup loop count base machine 0 0 := by
  have fetches := place ▸ loops.refers
  obtain ⟨after, cell, advances, reads, stack, target⟩ := reads_reference above goes calm fetches
  have later := stands.advance receives loops above advances reads.frames fetches
    (by simp [Op.changes, counter_apart loops]) (by simp) (stands.counts.same (reads.values _))
  have next : after.next = loop.start + 1 := reads.next.trans (place ▸ rfl)
  refine .within advances reads.frames (.first cell _ next (reads.frames.trans frames) later stack target) ?_
  have := in_order loops
  omega

theorem furthers_assign (proper : count.Proper) {cell : Cell} {rest : List StackItem} {found : Value}
    (place : machine.next = loop.assigned) (frames : machine.frames = base)
    (stands : Stands loop count base none .free .free machine)
    (stack : machine.stack = .value found :: .reference cell :: rest) (target : machine.lookup? loop.counter = some cell)
    (number : found.toDouble? = some (Double.ofInt count.first)) : Furthers setup loop count base machine 1 0 := by
  have fetches := place ▸ loops.assigns
  have isWhole : (machine.variableValue loop.counter).ty = count.ty := stands.counts
  have present : (machine.variableValue loop.counter).ty ≠ .null := by
    rw [isWhole]
    rcases proper.is_whole with same | same <;> simp [same]
  have converted : (machine.variableValue loop.counter).ty.convert found = .ok (count.ty.whole count.first) := by
    rw [isWhole]
    exact Ty.convert_whole proper.first number
  obtain ⟨after, advances, sameFrames, next, value⟩ :=
    assigns_variable above goes calm (count.ty.whole_scalar _) stack target present converted fetches
  have counts : loop.Counts count after (some count.first) := ⟨proper.first, value⟩
  have later := stands.advance receives loops above advances sameFrames fetches ⟨rfl, rfl⟩ (by simp) counts
  refine .within advances sameFrames (.declaresLast (next.trans (place ▸ rfl)) (sameFrames.trans frames) later) ?_
  have := in_order loops
  omega

omit receives in
theorem furthers_declare_last (place : machine.next = loop.assigned + 1) (frames : machine.frames = base)
    (stands : Stands loop count base (some count.first) .free .free machine) : Furthers setup loop count base machine 2 0 := by
  obtain ⟨after, advances, sameFrames, next, values, hidden⟩ :=
    declares_hidden above goes calm stands.scope loops.lastOwn.1 (place ▸ loops.declaresLast)
  have later := stands.of_last sameFrames (stands.counts.same (values _ (counter_apart loops).1)) hidden
  refine .within advances sameFrames (.refersLast 0 (next.trans (place ▸ rfl)) (sameFrames.trans frames) later) ?_
  have := in_order loops
  omega

omit receives in
theorem furthers_refer_last {number : Float} (place : machine.next = loop.assigned + 2) (frames : machine.frames = base)
    (stands : Stands loop count base (some count.first) (.hidden number) .free machine) :
    Furthers setup loop count base machine 3 0 := by
  obtain ⟨cell, keeps⟩ := stands.last
  obtain ⟨after, advances, sameFrames, next, stack, values, lent⟩ :=
    lends_reference above goes calm stands.scope loops.lastOwn.1 keeps (place ▸ loops.refersLast)
  have later := stands.of_last sameFrames (stands.counts.same (values _)) lent
  refine .within advances sameFrames (.last cell _ (next.trans (place ▸ rfl)) (sameFrames.trans frames) later stack) ?_
  have := in_order loops
  omega

omit receives in
theorem furthers_assign_last {cell : Cell} {rest : List StackItem} {found : Value} (place : machine.next = loop.ended)
    (frames : machine.frames = base) (stands : Stands loop count base (some count.first) (.lent cell rest) .free machine)
    (stack : machine.stack = .value found :: .reference cell :: rest)
    (number : Ty.double.convert found = .ok (.double (Double.ofInt count.last))) :
    Furthers setup loop count base machine 4 0 := by
  obtain ⟨after, advances, sameFrames, next, values, hidden⟩ :=
    fills_hidden above goes calm stands.scope loops.lastOwn.1 frames stands.last stack number (place ▸ loops.ends)
  have simple : (machine.variableValue loop.counter).isScalar = true := by
    rw [stands.counts.2]
    exact count.ty.whole_scalar _
  have later := stands.of_last sameFrames (stands.counts.same (values _ (counter_apart loops).1 simple)) hidden
  refine .within advances sameFrames (.declaresStep (next.trans (place ▸ rfl)) (sameFrames.trans frames) later) ?_
  have := in_order loops
  omega

theorem furthers_declare_step (place : machine.next = loop.ended + 1) (frames : machine.frames = base)
    (stands : Stands loop count base (some count.first) (.hidden (Double.ofInt count.last)) .free machine) :
    Furthers setup loop count base machine 5 0 := by
  have fetches := place ▸ loops.declaresStep
  obtain ⟨after, advances, sameFrames, next, values, hidden⟩ :=
    declares_hidden above goes calm stands.scope loops.stepOwn.1 fetches
  have later := stands.of_step receives loops above advances sameFrames fetches (by simp [Op.changes, loops.apart.symm])
    (stands.counts.same (values _ (counter_apart loops).2)) hidden
  refine .within advances sameFrames (.refersStep 0 (next.trans (place ▸ rfl)) (sameFrames.trans frames) later) ?_
  have := in_order loops
  omega

theorem furthers_refer_step {number : Float} (place : machine.next = loop.ended + 2) (frames : machine.frames = base)
    (stands : Stands loop count base (some count.first) (.hidden (Double.ofInt count.last)) (.hidden number) machine) :
    Furthers setup loop count base machine 6 0 := by
  have fetches := place ▸ loops.refersStep
  obtain ⟨cell, keeps⟩ := stands.step
  obtain ⟨after, advances, sameFrames, next, stack, values, lent⟩ :=
    lends_reference above goes calm stands.scope loops.stepOwn.1 keeps fetches
  have later := stands.of_step receives loops above advances sameFrames fetches (by simp [Op.changes, loops.apart.symm])
    (stands.counts.same (values _)) lent
  refine .within advances sameFrames (.step cell _ (next.trans (place ▸ rfl)) (sameFrames.trans frames) later stack) ?_
  have := in_order loops
  omega

theorem furthers_assign_step {cell : Cell} {rest : List StackItem} {found : Value} (place : machine.next = loop.stepped)
    (frames : machine.frames = base)
    (stands : Stands loop count base (some count.first) (.hidden (Double.ofInt count.last)) (.lent cell rest) machine)
    (stack : machine.stack = .value found :: .reference cell :: rest)
    (number : Ty.double.convert found = .ok (.double (Double.ofInt count.step))) :
    Furthers setup loop count base machine 7 0 := by
  have fetches := place ▸ loops.steps
  obtain ⟨after, advances, sameFrames, next, values, hidden⟩ :=
    fills_hidden above goes calm stands.scope loops.stepOwn.1 frames stands.step stack number fetches
  have simple : (machine.variableValue loop.counter).isScalar = true := by
    rw [stands.counts.2]
    exact count.ty.whole_scalar _
  have later := stands.of_step receives loops above advances sameFrames fetches rfl
    (stands.counts.same (values _ (counter_apart loops).2 simple)) hidden
  rw [← count.value_zero] at later
  refine .within advances sameFrames (.tests 0 (next.trans (place ▸ rfl)) later (Nat.zero_le _)) ?_
  have := in_order loops
  omega

omit goes calm in
-- Between the rounds an instruction that reads a variable leaves everything as it is.
theorem Settled.reads {op : Op} {round : Nat} (settled : Settled loop count base round machine)
    (advances : machine.Advances setup after) (reads : Reads machine after) (fetches : image.Fetches machine.next op)
    (unchanged : op.changes loop.lastName = false ∧ op.changes loop.stepName = false) : Settled loop count base round after :=
  Stands.advance receives loops above settled advances reads.frames fetches unchanged (by simp)
    (settled.counts.same (reads.values _))

theorem furthers_counter {rounds : Nat} (place : machine.next = loop.top)
    (settled : Settled loop count base rounds machine) (most : rounds ≤ count.rounds) :
    Furthers setup loop count base machine (8 + 8 * rounds) rounds := by
  have fetches : image.Fetches machine.next (.pushValue loop.counter) := place ▸ loops.tests.head
  obtain ⟨after, advances, reads, stack⟩ := reads_value above goes calm fetches
  rw [settled.counts.2] at stack
  have later := settled.reads receives loops above advances reads fetches ⟨rfl, rfl⟩
  refine .within advances reads.frames ?_ ?_
  · rw [Nat.add_right_comm]
    exact .counter rounds _ (reads.next.trans (place ▸ rfl)) later most stack
  · have := in_order loops
    have := reads.next
    omega

theorem furthers_limit {rounds : Nat} {rest : List StackItem} (place : machine.next = loop.top + 1)
    (settled : Settled loop count base rounds machine) (most : rounds ≤ count.rounds)
    (stack : machine.stack = .value (count.ty.whole (count.value rounds)) :: rest) :
    Furthers setup loop count base machine (9 + 8 * rounds) rounds := by
  have fetches : image.Fetches machine.next (.pushValue loop.lastName) := place ▸ loops.tests.tail.head
  obtain ⟨after, advances, reads, pushed⟩ := reads_value above goes calm fetches
  obtain ⟨cell, keeps⟩ := settled.last
  rw [(hidden_value keeps settled.scope (above.loaded ▸ loops.lastOwn.1)).2, stack] at pushed
  have later := settled.reads receives loops above advances reads fetches ⟨rfl, rfl⟩
  refine .within advances reads.frames ?_ ?_
  · rw [Nat.add_right_comm]
    exact .limit rounds rest (reads.next.trans (place ▸ rfl)) later most pushed
  · have := in_order loops
    have := reads.next
    omega

theorem furthers_stride {rounds : Nat} {rest : List StackItem} (place : machine.next = loop.top + 2)
    (settled : Settled loop count base rounds machine) (most : rounds ≤ count.rounds)
    (stack : machine.stack = .value (.double (Double.ofInt count.last)) ::
      .value (count.ty.whole (count.value rounds)) :: rest) :
        Furthers setup loop count base machine (10 + 8 * rounds) rounds := by
  have fetches : image.Fetches machine.next (.pushValue loop.stepName) := place ▸ loops.tests.tail.tail.head
  obtain ⟨after, advances, reads, pushed⟩ := reads_value above goes calm fetches
  obtain ⟨cell, keeps⟩ := settled.step
  rw [(hidden_value keeps settled.scope (above.loaded ▸ loops.stepOwn.1)).2, stack] at pushed
  have later := settled.reads receives loops above advances reads fetches ⟨rfl, rfl⟩
  refine .within advances reads.frames ?_ ?_
  · rw [Nat.add_right_comm]
    exact .stride rounds rest (reads.next.trans (place ▸ rfl)) later most pushed
  · have := in_order loops
    have := reads.next
    omega

theorem furthers_test (proper : count.Proper) {rounds : Nat} {rest : List StackItem} (place : machine.next = loop.top + 3)
    (settled : Settled loop count base rounds machine) (most : rounds ≤ count.rounds)
    (stack : machine.stack = .value (.double (Double.ofInt count.step)) :: .value (.double (Double.ofInt count.last)) ::
      .value (count.ty.whole (count.value rounds)) :: rest) :
        Furthers setup loop count base machine (11 + 8 * rounds) rounds := by
  have fetches : image.Fetches machine.next (.forLoop (.resolved loop.exit)) := place ▸ loops.tests.tail.tail.tail.head
  have inRange := settled.counts.1
  have isCounter : (count.ty.whole (count.value rounds)).toDouble? = some (Double.ofInt (count.value rounds)) :=
    Ty.whole_number inRange
  obtain ⟨after, advances, frames, next, values⟩ := tests_number above goes calm stack isCounter fetches
  have later : Settled loop count base rounds after :=
    Stands.advance receives loops above settled advances frames fetches ⟨rfl, rfl⟩ (by simp) (settled.counts.same (values _))
  have order := in_order loops
  by_cases fewer : rounds < count.rounds
  · rw [if_neg (mt (proper.past inRange).mp (not_not_intro (proper.lt_rounds.mp fewer)))] at next
    have atBody : after.next = loop.body := by omega
    refine ⟨after, rounds + 1, advances, frames, ?_, ?_⟩
    · rw [Nat.add_right_comm]
      exact .body rounds atBody later fewer
    · rw [Count.values_succ, entered, if_pos atBody, later.counts.2]
  · rw [if_pos ((proper.past inRange).mpr (mt proper.lt_rounds.mpr fewer))] at next
    obtain rfl : rounds = count.rounds := Nat.le_antisymm most (Nat.not_lt.mp fewer)
    refine .within advances frames ?_ ?_
    · rw [Nat.add_right_comm]
      exact .exit next later
    · omega

theorem furthers_tail {rounds : Nat} (place : machine.next = loop.tail) (settled : Settled loop count base rounds machine)
    (fewer : rounds < count.rounds) : Furthers setup loop count base machine (12 + 8 * rounds) (rounds + 1) := by
  have fetches : image.Fetches machine.next (.pushRef loop.counter) := place ▸ loops.advances.head
  obtain ⟨after, cell, advances, reads, stack, target⟩ := reads_reference above goes calm fetches
  have later := settled.reads receives loops above advances reads fetches (by simp [Op.changes, counter_apart loops])
  refine .within advances reads.frames ?_ ?_
  · rw [Nat.add_right_comm]
    exact .target rounds cell _ (reads.next.trans (place ▸ rfl)) later fewer stack target
  · have := in_order loops
    have := reads.next
    omega

theorem furthers_target {rounds : Nat} {cell : Cell} {rest : List StackItem} (place : machine.next = loop.tail + 1)
    (settled : Settled loop count base rounds machine) (fewer : rounds < count.rounds)
    (stack : machine.stack = .reference cell :: rest) (isCounter : machine.lookup? loop.counter = some cell) :
    Furthers setup loop count base machine (13 + 8 * rounds) (rounds + 1) := by
  have fetches : image.Fetches machine.next (.pushValue loop.stepName) := place ▸ loops.advances.tail.head
  obtain ⟨after, advances, reads, pushed⟩ := reads_value above goes calm fetches
  obtain ⟨step, keeps⟩ := settled.step
  rw [(hidden_value keeps settled.scope (above.loaded ▸ loops.stepOwn.1)).2, stack] at pushed
  have later := settled.reads receives loops above advances reads fetches ⟨rfl, rfl⟩
  refine .within advances reads.frames ?_ ?_
  · rw [Nat.add_right_comm]
    exact .advances rounds cell rest (reads.next.trans (place ▸ rfl)) later fewer pushed (reads.bound _ _ isCounter)
  · have := in_order loops
    have := reads.next
    omega

theorem furthers_step (proper : count.Proper) {rounds : Nat} {cell : Cell} {rest : List StackItem}
    (place : machine.next = loop.tail + 2) (settled : Settled loop count base rounds machine) (fewer : rounds < count.rounds)
    (stack : machine.stack = .value (.double (Double.ofInt count.step)) :: .reference cell :: rest)
    (isCounter : machine.lookup? loop.counter = some cell) :
    Furthers setup loop count base machine (14 + 8 * rounds) (rounds + 1) ∨
      Overflows setup loop count machine (rounds + 1) := by
  have fetches : image.Fetches machine.next .forStep := place ▸ loops.advances.tail.tail.head
  obtain ⟨inRange, value⟩ := settled.counts
  have number : (machine.variableValue loop.counter).toDouble? = some (Double.ofInt (count.value rounds)) :=
    value ▸ Ty.whole_number inRange
  have isWhole : (machine.variableValue loop.counter).ty = count.ty := value ▸ Ty.whole_ty inRange
  have fits := Run.fits_whole proper.is_whole (proper.next_exact inRange)
  by_cases later : count.ty.InRange (count.value (rounds + 1))
  · left
    have present : (machine.variableValue loop.counter).ty ≠ .null := by
      rw [isWhole]
      rcases proper.is_whole with same | same <;> simp [same]
    obtain ⟨after, advances, frames, next, counted⟩ := steps_variable above goes calm stack isCounter number fetches
      (by rw [isWhole, proper.next inRange]; exact fits.mpr later) present (count.ty.whole_scalar _)
      (by rw [isWhole, proper.next inRange]; exact Ty.convert_whole later rfl)
    have again : Settled loop count base (rounds + 1) after :=
      Stands.advance receives loops above settled advances frames fetches ⟨rfl, rfl⟩ (by simp) ⟨later, counted⟩
    refine .within advances frames ?_ ?_
    · rw [Nat.add_right_comm]
      exact .again rounds (next.trans (place ▸ rfl)) again fewer
    · have := in_order loops
      omega
  · right
    refine ⟨place, ⟨Nat.succ_pos _, value⟩, ⟨fewer, later⟩, ?_⟩
    refine stops_variable above goes calm stack isCounter number fetches ?_
    rw [isWhole, proper.next inRange]
    exact mt fits.mp later

theorem furthers_again {rounds : Nat} (place : machine.next = loop.tail + 3)
    (settled : Settled loop count base (rounds + 1) machine) (fewer : rounds < count.rounds) :
    Furthers setup loop count base machine (15 + 8 * rounds) (rounds + 1) := by
  have fetches : image.Fetches machine.next (.jump (.resolved loop.top)) := place ▸ loops.advances.tail.tail.tail.head
  obtain ⟨after, advances, frames, next, values⟩ := moves above goes calm machine.stack fetches fun _ _ _ => rfl
  have later : Settled loop count base (rounds + 1) after :=
    Stands.advance receives loops above settled advances frames fetches ⟨rfl, rfl⟩ (by simp) (settled.counts.same (values _))
  have isNext : 15 + 8 * rounds + 1 = 8 + 8 * (rounds + 1) := by omega
  refine .within advances frames ?_ ?_
  · rw [isNext]
    exact .tests (rounds + 1) next later fewer
  · have := in_order loops
    omega

theorem Stage.own (proper : count.Proper) (stage : Stage loop count base machine ran rounds) (isOwn : loop.Own machine.next) :
    Furthers setup loop count base machine ran rounds ∨ Overflows setup loop count machine rounds := by
  have order := in_order loops
  have elsewhere (place : Nat) (atPlace : machine.next = place) (isOther : ¬loop.Own place) :
      Furthers setup loop count base machine ran rounds ∨ Overflows setup loop count machine rounds :=
    absurd (atPlace ▸ isOwn) isOther
  cases stage with
  | refers place frames stands => exact .inl (furthers_start receives loops above goes calm place frames stands)
  | first _ _ place => exact elsewhere _ place (by simp only [Own]; omega)
  | assigns cell rest found place frames stands stack target number =>
    exact .inl (furthers_assign receives loops above goes calm proper place frames stands stack target number)
  | declaresLast place frames stands => exact .inl (furthers_declare_last loops above goes calm place frames stands)
  | refersLast number place frames stands => exact .inl (furthers_refer_last loops above goes calm place frames stands)
  | last _ _ place => exact elsewhere _ place (by simp only [Own]; omega)
  | ends cell rest found place frames stands stack number =>
    exact .inl (furthers_assign_last loops above goes calm place frames stands stack number)
  | declaresStep place frames stands =>
    exact .inl (furthers_declare_step receives loops above goes calm place frames stands)
  | refersStep number place frames stands =>
    exact .inl (furthers_refer_step receives loops above goes calm place frames stands)
  | step _ _ place => exact elsewhere _ place (by simp only [Own]; omega)
  | steps cell rest found place frames stands stack number =>
    exact .inl (furthers_assign_step receives loops above goes calm place frames stands stack number)
  | tests rounds place settled most => exact .inl (furthers_counter receives loops above goes calm place settled most)
  | counter rounds rest place settled most stack =>
    exact .inl (furthers_limit receives loops above goes calm place settled most stack)
  | limit rounds rest place settled most stack =>
    exact .inl (furthers_stride receives loops above goes calm place settled most stack)
  | stride rounds rest place settled most stack =>
    exact .inl (furthers_test receives loops above goes calm proper place settled most stack)
  | body rounds place settled fewer =>
    -- Only the first instruction behind a body that is empty.
    have atTail : machine.next = loop.tail := by
      simp only [Own] at isOwn
      omega
    exact .inl (furthers_tail receives loops above goes calm atTail settled fewer)
  | tail rounds place settled fewer => exact .inl (furthers_tail receives loops above goes calm place settled fewer)
  | target rounds cell rest place settled fewer stack isCounter =>
    exact .inl (furthers_target receives loops above goes calm place settled fewer stack isCounter)
  | advances rounds cell rest place settled fewer stack isCounter =>
    exact furthers_step receives loops above goes calm proper place settled fewer stack isCounter
  | again rounds place settled fewer => exact .inl (furthers_again receives loops above goes calm place settled fewer)
  | exit place => exact elsewhere _ place (by simp only [Own]; omega)

end Own

end Loop

namespace Loop

variable {σ : Type} {setup : Setup σ} {image : Image} {symbols : SymbolTable} {spans : List Span} {base : List Frame}
  {start last machine after : Machine σ} {loop : Loop} {count : Count} {ran rounds : Nat} {values : List Value}

inductive Finds (loop : Loop) (count : Count) (last after : Machine σ) : Prop where
  | first (found : Value) (starts : last.next = loop.start + 1) (ends : after.next = loop.assigned)
      (left : after.stack = .value found :: last.stack) (number : found.toDouble? = some (Double.ofInt count.first))
  | last (found : Value) (starts : last.next = loop.assigned + 3) (ends : after.next = loop.ended)
      (left : after.stack = .value found :: last.stack)
      (number : Ty.double.convert found = .ok (.double (Double.ofInt count.last)))
      (same : after.variableValue loop.counter = last.variableValue loop.counter)
  | step (found : Value) (starts : last.next = loop.ended + 3) (ends : after.next = loop.stepped)
      (left : after.stack = .value found :: last.stack)
      (number : Ty.double.convert found = .ok (.double (Double.ofInt count.step)))
      (same : after.variableValue loop.counter = last.variableValue loop.counter)

/-- How a loop goes on, the number of its own instructions that it has executed, and what the counter was each time the
body was entered. -/
inductive Course (setup : Setup σ) (loop : Loop) (count : Count) (start : Machine σ) : Nat → List Value → Machine σ → Prop where
  | start : Course setup loop count start 0 [] start
  -- An instruction of the loop.
  | own {ran : Nat} {values : List Value} {last after : Machine σ} (course : Course setup loop count start ran values last)
      (isOwn : loop.Own last.next) (advances : last.Advances setup after) :
      Course setup loop count start (ran + 1) (values ++ loop.entered after) after
  | expression {ran : Nat} {values : List Value} {last after : Machine σ}
      (course : Course setup loop count start ran values last)
      (onward : Machine.Onward setup (loop.Aside setup start.frames) last after) (returns : loop.Returns last after)
      (finds : loop.Finds count last after) : Course setup loop count start ran values after
  -- The body leaves the value of the counter as it is.
  | body {ran : Nat} {values : List Value} {last after : Machine σ} (course : Course setup loop count start ran values last)
      (atBody : last.next = loop.body) (onward : Machine.Onward setup (loop.Aside setup start.frames) last after)
      (atTail : after.next = loop.tail) (scope : after.scope = scopeIn start.frames)
      (same : after.variableValue loop.counter = last.variableValue loop.counter) :
      Course setup loop count start ran values after
  -- What happens between two instructions, such as a handler of an event.
  | aside {ran : Nat} {values : List Value} {last after : Machine σ} (course : Course setup loop count start ran values last)
      (onward : Machine.Onward setup (loop.Aside setup start.frames) last after) (returns : loop.Returns last after)
      (stays : after.next = last.next) (left : after.stack = last.stack)
      (same : after.variableValue loop.counter = last.variableValue loop.counter) :
      Course setup loop count start ran values after

section Passing

variable (contained : image.Contained spans) (receives : image.Receives symbols spans) (loops : image.Loops loop)
  (above : last.Above setup.maxDepth image spans base) (onward : Machine.Onward setup (loop.Aside setup base) last after)
include contained receives loops above onward

theorem Stage.aside (returns : loop.Returns last after) (stays : after.next = last.next) (left : after.stack = last.stack)
    (same : after.variableValue loop.counter = last.variableValue loop.counter)
    (stage : Stage loop count base last ran rounds) : Stage loop count base after ran rounds := by
  have later {number : Option Int} {lastTie stepTie : Tie} (stands : Stands loop count base number lastTie stepTie last) :
      Stands loop count base number lastTie stepTie after :=
    stands.later contained receives loops above onward returns fun _ => same
  cases stage with
  | refers place frames stands => exact .refers (stays.trans place) (returns.frames.trans frames) (later stands)
  | first cell rest place frames stands stack target =>
    exact .first cell rest (stays.trans place) (returns.frames.trans frames) (later stands) (left.trans stack)
      (returns.counter.trans target)
  | assigns cell rest found place frames stands stack target number =>
    exact .assigns cell rest found (stays.trans place) (returns.frames.trans frames) (later stands) (left.trans stack)
      (returns.counter.trans target) number
  | declaresLast place frames stands =>
    exact .declaresLast (stays.trans place) (returns.frames.trans frames) (later stands)
  | refersLast number place frames stands =>
    exact .refersLast number (stays.trans place) (returns.frames.trans frames) (later stands)
  | last cell rest place frames stands stack =>
    exact .last cell rest (stays.trans place) (returns.frames.trans frames) (later stands) (left.trans stack)
  | ends cell rest found place frames stands stack number =>
    exact .ends cell rest found (stays.trans place) (returns.frames.trans frames) (later stands) (left.trans stack) number
  | declaresStep place frames stands =>
    exact .declaresStep (stays.trans place) (returns.frames.trans frames) (later stands)
  | refersStep number place frames stands =>
    exact .refersStep number (stays.trans place) (returns.frames.trans frames) (later stands)
  | step cell rest place frames stands stack =>
    exact .step cell rest (stays.trans place) (returns.frames.trans frames) (later stands) (left.trans stack)
  | steps cell rest found place frames stands stack number =>
    exact .steps cell rest found (stays.trans place) (returns.frames.trans frames) (later stands) (left.trans stack) number
  | tests rounds place settled most => exact .tests rounds (stays.trans place) (later settled) most
  | counter rounds rest place settled most stack =>
    exact .counter rounds rest (stays.trans place) (later settled) most (left.trans stack)
  | limit rounds rest place settled most stack =>
    exact .limit rounds rest (stays.trans place) (later settled) most (left.trans stack)
  | stride rounds rest place settled most stack =>
    exact .stride rounds rest (stays.trans place) (later settled) most (left.trans stack)
  | body rounds place settled fewer => exact .body rounds (stays.trans place) (later settled) fewer
  | tail rounds place settled fewer => exact .tail rounds (stays.trans place) (later settled) fewer
  | target rounds cell rest place settled fewer stack isCounter =>
    exact .target rounds cell rest (stays.trans place) (later settled) fewer (left.trans stack)
      (returns.counter.trans isCounter)
  | advances rounds cell rest place settled fewer stack isCounter =>
    exact .advances rounds cell rest (stays.trans place) (later settled) fewer (left.trans stack)
      (returns.counter.trans isCounter)
  | again rounds place settled fewer => exact .again rounds (stays.trans place) (later settled) fewer
  | exit place settled => exact .exit (stays.trans place) (later settled)

theorem Stage.expression (returns : loop.Returns last after) (finds : loop.Finds count last after)
    (stage : Stage loop count base last ran rounds) : Stage loop count base after ran rounds := by
  have order := in_order loops
  have later {number : Option Int} {lastTie stepTie : Tie} (stands : Stands loop count base number lastTie stepTie last)
      (same : number.isSome = true → after.variableValue loop.counter = last.variableValue loop.counter) :
      Stands loop count base number lastTie stepTie after :=
    stands.later contained receives loops above onward returns same
  cases finds with
  | first found starts ends left number =>
    cases stage with
    | first cell rest place frames stands stack target =>
      exact .assigns cell rest found ends (returns.frames.trans frames) (later stands nofun) (stack ▸ left)
        (returns.counter.trans target) number
    | _ => omega
  | last found starts ends left number same =>
    cases stage with
    | last cell rest place frames stands stack =>
      exact .ends cell rest found ends (returns.frames.trans frames) (later stands fun _ => same) (stack ▸ left) number
    | _ => omega
  | step found starts ends left number same =>
    cases stage with
    | step cell rest place frames stands stack =>
      exact .steps cell rest found ends (returns.frames.trans frames) (later stands fun _ => same) (stack ▸ left) number
    | _ => omega

theorem Stage.through_body (atBody : last.next = loop.body) (atTail : after.next = loop.tail)
    (scope : after.scope = scopeIn base) (same : after.variableValue loop.counter = last.variableValue loop.counter)
    (stage : Stage loop count base last ran rounds) : Stage loop count base after ran rounds := by
  have order := in_order loops
  cases stage with
  | body rounds place settled fewer =>
    exact .tail rounds atTail (settled.later contained receives loops above onward scope same) fewer
  | tail rounds place settled fewer =>
    exact .tail rounds atTail (settled.later contained receives loops above onward scope same) fewer
  | _ => omega

end Passing

/-- On its course a loop is in the stage that the number of its instructions says, and has entered its body with the first
values of the counter. -/
theorem Course.stage (contained : image.Contained spans) (receives : image.Receives symbols spans) (loops : image.Loops loop)
    (proper : count.Proper) (above : start.Above setup.maxDepth image spans start.frames)
    (atStart : start.next = loop.start) (isCounter : (start.variableValue loop.counter).ty = count.ty)
    (course : Course setup loop count start ran values machine) :
    machine.Above setup.maxDepth image spans start.frames ∧
      ∃ rounds, values = count.values rounds ∧ Stage loop count start.frames machine ran rounds := by
  -- The stage of the loop tells what is on the stack and which instruction is next, in every round of the loop.
  induction course with
  | start => exact ⟨above, 0, rfl, .refers atStart rfl ⟨rfl, isCounter, trivial, trivial⟩⟩
  | @own ran values last after course isOwn advances ih =>
    obtain ⟨above, rounds, rfl, stage⟩ := ih
    obtain ⟨next, more, also, frames, further, same⟩ | overflows :=
      stage.own receives loops above advances.going advances.1 proper isOwn
    · obtain rfl := advances.same also
      obtain rfl : ((Run.step setup).on last).2 = after := congrArg Prod.snd advances.2
      exact ⟨above.step contained receives (frames ▸ above.suffix), more, same.symm, further⟩
    · obtain ⟨error, failed, stops, -⟩ := overflows.stops
      rw [advances.2] at stops
      cases stops
  | expression course onward returns finds ih =>
    obtain ⟨above, rounds, rfl, stage⟩ := ih
    exact ⟨above.onward contained receives (fun _ aside => aside.1) onward, rounds, rfl,
      stage.expression contained receives loops above onward returns finds⟩
  | body course atBody onward atTail scope same ih =>
    obtain ⟨above, rounds, rfl, stage⟩ := ih
    exact ⟨above.onward contained receives (fun _ aside => aside.1) onward, rounds, rfl,
      stage.through_body contained receives loops above onward atBody atTail scope same⟩
  | aside course onward returns stays left same ih =>
    obtain ⟨above, rounds, rfl, stage⟩ := ih
    exact ⟨above.onward contained receives (fun _ aside => aside.1) onward, rounds, rfl,
      stage.aside contained receives loops above onward returns stays left same⟩

end Loop

end BasicLang
