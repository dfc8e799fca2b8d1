import BasicLang.Proofs.Code.Loops
import BasicLang.Proofs.Machine.Counting
import BasicLang.Proofs.Machine.Temporaries

set_option autoImplicit false

namespace BasicLang

namespace Run

variable {σ : Type} {setup : Setup σ} {machine : Machine σ} {rest : List StackItem} {name : String} {cell : Cell}
  {item value : Value} {number : Float}

theorem on_number (top : machine.stack = .value value :: rest) (isNumber : value.toDouble? = some number) :
    (popNumber : Run σ Float).on machine = (.ok number, { machine with stack := rest }) := by
  rw [popNumber, on_seq (on_pop_value top), isNumber]
  rfl

theorem ensure_bound (bound : machine.lookup? name = some cell) : machine.ensureVariable name = (cell, machine) := by
  rw [Machine.ensureVariable, bound]

theorem on_push_variable (name : String) (machine : Machine σ) : (execute setup (.pushValue name)).on machine =
    (.ok (), { (machine.ensureVariable name).2 with
      stack := .value (machine.variableValue name) :: (machine.ensureVariable name).2.stack }) := by
  rw [execute, on_seq (on_variable name machine), on_seq (on_read _ _), on_push]
  rfl

theorem on_refer (name : String) (machine : Machine σ) : (execute setup (.pushRef name)).on machine =
    (.ok (), { (machine.ensureVariable name).2 with
      stack := .reference (machine.ensureVariable name).1 :: (machine.ensureVariable name).2.stack }) := by
  rw [execute, on_seq (on_variable name machine), on_push_reference]

theorem on_refer_bound (bound : machine.lookup? name = some cell) : (execute setup (.pushRef name)).on machine =
    (.ok (), { machine with stack := .reference cell :: machine.stack }) := by
  rw [on_refer, ensure_bound bound]

theorem on_store (some : machine.store.ty cell ≠ .null) (converted : (machine.store.ty cell).convert value = .ok item) :
    (assign cell value : Run σ Unit).on machine = (.ok (), { machine with store := machine.store.write cell item }) := by
  rw [assign, on_seq (on_get machine)]
  dsimp only
  rw [if_neg some, converted]
  rfl

theorem on_assign_top (top : machine.stack = .value value :: .reference cell :: rest) (some : machine.store.ty cell ≠ .null)
    (converted : (machine.store.ty cell).convert value = .ok item) : (execute setup .assign).on machine =
      (.ok (), { machine with stack := rest, store := machine.store.write cell item }) := by
  rw [execute, on_seq (on_pop_value top), on_seq (on_pop_reference rfl)]
  exact on_store some converted

theorem on_test {step last counter : Float} {stepValue lastValue counterValue : Value} {exit : Nat}
    (top : machine.stack = .value stepValue :: .value lastValue :: .value counterValue :: rest)
    (isStep : stepValue.toDouble? = some step) (isLast : lastValue.toDouble? = some last)
    (isCounter : counterValue.toDouble? = some counter) : (execute setup (.forLoop (.resolved exit))).on machine =
      (.ok (), { machine with
        stack := rest
        next := if (if 0 ≤ step then last < counter else counter < last) then exit else machine.next }) := by
  rw [execute, forLoop, on_seq (on_number top isStep), on_seq (on_number rfl isLast),
    on_seq (on_number rfl isCounter)]
  by_cases past : if 0 ≤ step then last < counter else counter < last
  · rw [if_pos past, if_pos past]
    rfl
  · rw [if_neg past, if_neg past]
    rfl

section Advancing

variable {step counter : Float} {stepValue : Value} {ty : Ty}
  (top : machine.stack = .value stepValue :: .reference cell :: rest)
  (isStep : stepValue.toDouble? = some step) (isCounter : (machine.store.read cell).toDouble? = some counter)
include top isStep isCounter

theorem on_advance (inRange : fits (machine.store.ty cell) (Double.roundToEven (counter + step)) = true)
    (some : machine.store.ty cell ≠ .null)
    (converted : (machine.store.ty cell).convert (.double (counter + step)) = .ok item) :
    (execute setup .forStep).on machine =
      (.ok (), { machine with stack := rest, store := machine.store.write cell item }) := by
  rw [execute, forStep, on_seq (on_number top isStep), on_seq (on_pop_reference rfl), on_seq (on_read _ _)]
  dsimp only
  rw [isCounter]
  dsimp only
  rw [Store.read_ty, if_pos inRange]
  exact on_store some converted

theorem on_overflow (outOfRange : ¬fits (machine.store.ty cell) (Double.roundToEven (counter + step)) = true) :
    (execute setup .forStep).on machine = (.error (.ofFault .counterOverflow), { machine with stack := rest }) := by
  rw [execute, forStep, on_seq (on_number top isStep), on_seq (on_pop_reference rfl), on_seq (on_read _ _)]
  dsimp only
  rw [isCounter]
  dsimp only
  rw [Store.read_ty, if_neg outOfRange]
  rfl

end Advancing

end Run

namespace Store

variable {store : Store} {cell other : Cell} {value : Value}

theorem read_plain (content : store.content cell = .plain value) : store.read cell = value := by
  rw [read_eq, content]
  rfl

theorem content_written (below : cell < store.size) (scalar : value.isScalar = true) (other : Cell) :
    (store.write cell value).content other = if other = cell then .plain value else store.content other := by
  rw [write_scalar scalar, content_put _ _ _ _ below]

end Store

namespace Machine

variable {σ : Type} {setup : Setup σ} {machine after other : Machine σ} {op : Op} {name : String} {cell : Cell} {value : Value}

theorem steps_to (last : σ → List (String × String) → List Notice → Machine σ)
    (goes : machine.phase = .idle ∨ machine.phase = .running)
    (calm : (Run.ready setup machine).frames = machine.frames) (fetches : machine.image.Fetches machine.next op)
    (executes : ∀ world events notices, (Run.execute setup op).on
      { machine with world, events, notices, phase := .running, next := machine.next + 1 } =
        (.ok (), last world events notices)) :
    ∃ world events notices phase said,
      machine.Advances setup { last world events notices with phase, notices := said } := by
  obtain ⟨world, events, notices, advances⟩ := advances_by last goes calm fetches executes
  split at advances
  · obtain ⟨said, finished⟩ := (last world events notices).set_phase_only .finished
    rw [finished] at advances
    exact ⟨world, events, notices, .finished, said, advances⟩
  · exact ⟨world, events, notices, _, _, advances⟩

theorem value_bound (bound : machine.lookup? name = some cell) : machine.variableValue name = machine.store.read cell := by
  rw [variableValue, Run.ensure_bound bound]

theorem value_same (looked : other.lookup? name = machine.lookup? name) (store : other.store = machine.store)
    (types : other.implicitType name = machine.implicitType name) :
    other.variableValue name = machine.variableValue name := by
  rw [variableValue, variableValue, ensureVariable, ensureVariable, looked]
  cases machine.lookup? name with
  | some cell => exact congrArg (Store.read · cell) store
  | none => simp only [allocate, bind, bindIn, store, types]

theorem ensured_lookup (sound : machine.Sound) (name : String) :
    (machine.ensureVariable name).2.lookup? name = some (machine.ensureVariable name).1 := by
  unfold ensureVariable
  cases bound : machine.lookup? name with
  | some cell => exact bound
  | none => exact (bind_lookup sound _ _ _ _).trans (if_pos rfl)

theorem ensured_value (sound : machine.Sound) (name : String) :
    (machine.ensureVariable name).2.variableValue name = machine.variableValue name :=
  value_bound (ensured_lookup sound name)

theorem value_unbound (closed : machine.store.Closed) (absent : machine.lookup? name = none) :
    machine.variableValue name = (machine.implicitType name).default := by
  rw [variableValue, ensureVariable, absent]
  exact (Store.allocate_spec closed _).read

theorem declared_value (sound : machine.Sound) (item : Value) {declared : String} (different : name ≠ declared) :
    ((machine.allocate item).2.bind declared (machine.allocate item).1).variableValue name = machine.variableValue name := by
  have allocates := Store.allocate_spec sound.closed item
  have looked : ((machine.allocate item).2.bind declared (machine.allocate item).1).lookup? name = machine.lookup? name :=
    (bind_lookup sound _ _ _ _).trans (if_neg different)
  cases bound : machine.lookup? name with
  | some cell =>
    rw [value_bound (looked.trans bound), value_bound bound]
    exact allocates.extends_.read sound.closed (sound.cells _ _ _ bound)
  | none =>
    rw [value_unbound allocates.closed (looked.trans bound), value_unbound sound.closed bound]
    rfl

theorem ensured_same (sound : machine.Sound) (name other : String) :
    (machine.ensureVariable name).2.variableValue other = machine.variableValue other := by
  by_cases same : other = name
  · rw [same]
    exact ensured_value sound name
  · unfold ensureVariable
    cases machine.lookup? name with
    | some cell => rfl
    | none => exact declared_value sound _ same

theorem ensured_stays (sound : machine.Sound) (name : String) {other : String} (bound : machine.lookup? other = some cell) :
    (machine.ensureVariable name).2.lookup? other = some cell := by
  unfold ensureVariable
  cases absent : machine.lookup? name with
  | some found => exact bound
  | none =>
    refine (bind_lookup sound _ _ _ _).trans ((if_neg ?_).trans bound)
    rintro rfl
    rw [absent] at bound
    cases bound

theorem ensured_frames (machine : Machine σ) (name : String) : (machine.ensureVariable name).2.frames = machine.frames := by
  unfold ensureVariable
  cases machine.lookup? name <;> rfl

theorem ensured_next (machine : Machine σ) (name : String) : (machine.ensureVariable name).2.next = machine.next := by
  unfold ensureVariable
  cases machine.lookup? name <;> rfl

theorem ensured_stack (machine : Machine σ) (name : String) : (machine.ensureVariable name).2.stack = machine.stack := by
  unfold ensureVariable
  cases machine.lookup? name <;> rfl

theorem value_written (sound : machine.Sound) {item : Value} (scalar : item.isScalar = true)
    (bound : machine.lookup? name = some cell) :
    variableValue { machine with store := machine.store.write cell item } name = item := by
  have looked : lookup? { machine with store := machine.store.write cell item } name = some cell := bound
  rw [value_bound looked, Store.write_scalar scalar]
  exact Store.read_put_same (sound.cells _ _ _ bound)

theorem written_value (sound : machine.Sound) {cell : Cell} {item : Value} (below : cell < machine.store.size)
    (scalar : item.isScalar = true) (apart : machine.lookup? name ≠ some cell)
    (simple : (machine.variableValue name).isScalar = true) :
    variableValue { machine with store := machine.store.write cell item } name = machine.variableValue name := by
  cases bound : machine.lookup? name with
  | some other =>
    rw [value_bound bound] at simple ⊢
    have different : other ≠ cell := fun same => apart (same ▸ bound)
    have looked : lookup? { machine with store := machine.store.write cell item } name = some other := bound
    rw [value_bound looked, Store.write_scalar scalar]
    exact Store.read_put_other below different simple
  | none =>
    have closed := (Store.write_evolves sound.closed cell item).closed
    rw [value_unbound sound.closed bound]
    exact value_unbound closed bound

theorem Above.sound {most : Nat} {image : Image} {spans : List Span} {base : List Frame}
    (above : machine.Above most image spans base) : machine.Sound where
  closed := above.framed.rooted.keeps.closed
  cells := fun scope name cell found => (above.framed.rooted.keeps.scopes scope name cell found).1
  scope := by
    have stacked := above.framed.stacked
    rw [scope]
    cases frames : machine.frames with
    | nil => exact stacked.has_scopes
    | cons frame rest => exact stacked.scope_below frame (by simp [frames])

end Machine

namespace Loop

variable {σ : Type} {setup : Setup σ} {image : Image} {symbols : SymbolTable} {spans : List Span} {base : List Frame}
  {machine after : Machine σ} {name : String} {cell : Cell} {number : Float}

inductive Tie where
  | free
  -- Only its name comes to it, and it holds the number.
  | hidden (number : Float)
  -- The one reference to it waits on the stack, above these items.
  | lent (cell : Cell) (rest : List StackItem)

def Tied (base : List Frame) (name : String) (machine : Machine σ) : Tie → Prop
  | .free => True
  | .hidden number => ∃ cell, machine.Keeps ⟨scopeIn base, name, .hidden (.double number)⟩ (some cell)
  | .lent cell rest => machine.Keeps ⟨scopeIn base, name, .lent (scopesIn base)⟩ (some cell) ∧ .reference cell ∉ rest ∧
      (machine.variableValue name).ty = .double

section Standing

variable (loop : Loop) (count : Count) (base : List Frame)

def Counts (machine : Machine σ) : Option Int → Prop
  | none => (machine.variableValue loop.counter).ty = count.ty
  | some number => count.ty.InRange number ∧ machine.variableValue loop.counter = count.ty.whole number

structure Stands (number : Option Int) (last step : Tie) (machine : Machine σ) : Prop where
  scope : machine.scope = scopeIn base
  counts : loop.Counts count machine number
  last : Tied base loop.lastName machine last
  step : Tied base loop.stepName machine step

def Settled (rounds : Nat) (machine : Machine σ) : Prop :=
  Stands loop count base (some (count.value rounds)) (.hidden (Double.ofInt count.last)) (.hidden (Double.ofInt count.step))
    machine

end Standing

section Ties

variable {tie : Tie} {most : Nat}

theorem keeps_lookup {ward : Ward} (keeps : machine.Keeps ward (some cell)) (scope : machine.scope = ward.home)
    (unshared : ward.name ∉ machine.image.shared) : machine.lookup? ward.name = some cell := by
  rw [Machine.lookup?, Machine.scopeOf, if_neg (by simpa using unshared), scope]
  exact (keeps.holds cell rfl).2.2

theorem hidden_value (keeps : machine.Keeps ⟨scopeIn base, name, .hidden (.double number)⟩ (some cell))
    (scope : machine.scope = scopeIn base) (unshared : name ∉ machine.image.shared) :
    machine.lookup? name = some cell ∧ machine.variableValue name = .double number := by
  have bound := keeps_lookup keeps scope unshared
  exact ⟨bound, (Machine.value_bound bound).trans (Store.read_plain (keeps.holds cell rfl).2.1)⟩

theorem hidden_local (base : List Frame) (name : String) (value : Value) : Ward.Local base ⟨scopeIn base, name, .hidden value⟩ :=
  ⟨rfl, nofun⟩

theorem lent_local (base : List Frame) (name : String) : Ward.Local base ⟨scopeIn base, name, .lent (scopesIn base)⟩ :=
  ⟨rfl, fun _ same => Nat.le_of_eq (Hold.lent.inj same).symm⟩

theorem Tied.advance {op : Op} (receives : image.Receives symbols spans)
    (above : machine.Above setup.maxDepth image spans base) (unshared : name ∉ image.shared)
    (notLent : ∀ cell rest, tie ≠ .lent cell rest) (advances : machine.Advances setup after)
    (frames : after.frames = machine.frames) (fetches : image.Fetches machine.next op) (unchanged : op.changes name = false)
    (tied : Tied base name machine tie) : Tied base name after tie := by
  cases tie with
  | free => trivial
  | lent cell rest => exact absurd rfl (notLent cell rest)
  | hidden number =>
    obtain ⟨cell, keeps⟩ := tied
    exact ⟨cell, above.keeps_advance receives (hidden_local base name _) unshared advances (frames ▸ above.suffix) fetches
      unchanged keeps⟩

end Ties

section Advancing

variable (above : machine.Above setup.maxDepth image spans base) (goes : machine.phase = .idle ∨ machine.phase = .running)
  (calm : (Run.ready setup machine).frames = machine.frames)
include above goes calm

structure Reads (machine after : Machine σ) : Prop where
  frames : after.frames = machine.frames
  next : after.next = machine.next + 1
  values : ∀ other, after.variableValue other = machine.variableValue other
  bound : ∀ other cell, machine.lookup? other = some cell → after.lookup? other = some cell

omit goes calm in
theorem reads_ensured (name : String) (world : σ) (events : List (String × String)) (notices said : List Notice)
    (phase : Phase) (stack : List StackItem) :
    Reads machine
      { (Machine.ensureVariable
            { machine with world, events, notices, phase := .running, next := machine.next + 1 } name).2 with
        stack, phase, notices := said } := by
  have sound := above.sound
  have started : Machine.Sound
      { machine with world, events, notices, phase := .running, next := machine.next + 1 } := { sound with }
  refine ⟨Machine.ensured_frames _ name, Machine.ensured_next _ name, fun other => ?_, fun other cell bound => ?_⟩
  · refine Eq.trans ?_ ((Machine.ensured_same started name other).trans ?_)
    · exact Machine.value_same rfl rfl rfl
    · exact Machine.value_same rfl rfl rfl
  · exact Machine.ensured_stays started name bound

theorem reads_value (fetches : image.Fetches machine.next (.pushValue name)) :
    ∃ after, machine.Advances setup after ∧ Reads machine after ∧
      after.stack = .value (machine.variableValue name) :: machine.stack := by
  obtain ⟨world, events, notices, phase, said, advances⟩ := Machine.steps_to _ goes calm (above.loaded ▸ fetches)
    fun world events notices => Run.on_push_variable name _
  refine ⟨_, advances, reads_ensured above name world events notices said phase _, ?_⟩
  rw [Machine.ensured_stack]
  exact congrArg (fun value => StackItem.value value :: machine.stack) (Machine.value_same rfl rfl rfl)

theorem reads_reference (fetches : image.Fetches machine.next (.pushRef name)) :
    ∃ after cell, machine.Advances setup after ∧ Reads machine after ∧
      after.stack = .reference cell :: machine.stack ∧ after.lookup? name = some cell := by
  obtain ⟨world, events, notices, phase, said, advances⟩ := Machine.steps_to _ goes calm (above.loaded ▸ fetches)
    fun world events notices => Run.on_refer name _
  have started : Machine.Sound
      { machine with world, events, notices, phase := .running, next := machine.next + 1 } := { above.sound with }
  have found := Machine.ensured_lookup started name
  refine ⟨_, _, advances, reads_ensured above name world events notices said phase _, ?_, found⟩
  rw [Machine.ensured_stack]

theorem moves {op : Op} {place : Nat} (stack : List StackItem) (fetches : image.Fetches machine.next op)
    (executes : ∀ world events notices, (Run.execute setup op).on
      { machine with world, events, notices, phase := .running, next := machine.next + 1 } =
        (.ok (), { machine with world, events, notices, phase := .running, next := place, stack })) :
    ∃ after, machine.Advances setup after ∧ after.frames = machine.frames ∧ after.next = place ∧
      ∀ other, after.variableValue other = machine.variableValue other := by
  obtain ⟨world, events, notices, phase, said, advances⟩ := Machine.steps_to _ goes calm (above.loaded ▸ fetches) executes
  exact ⟨_, advances, rfl, rfl, fun other => Machine.value_same rfl rfl rfl⟩

theorem tests_number {step last : Float} {counter : Value} {rest : List StackItem} {exit : Nat}
    (stack : machine.stack = .value (.double step) :: .value (.double last) :: .value counter :: rest)
    (isCounter : counter.toDouble? = some number) (fetches : image.Fetches machine.next (.forLoop (.resolved exit))) :
    ∃ after, machine.Advances setup after ∧ after.frames = machine.frames ∧
      after.next = (if if 0 ≤ step then last < number else number < last then exit else machine.next + 1) ∧
      ∀ other, after.variableValue other = machine.variableValue other := by
  refine moves above goes calm rest fetches fun world events notices => ?_
  have started : Machine.stack { machine with world, events, notices, phase := .running, next := machine.next + 1 } =
      .value (.double step) :: .value (.double last) :: .value counter :: rest := stack
  exact Run.on_test started rfl rfl isCounter

theorem assigns_variable {found item : Value} {rest : List StackItem} (scalar : item.isScalar = true)
    (stack : machine.stack = .value found :: .reference cell :: rest) (target : machine.lookup? name = some cell)
    (present : (machine.variableValue name).ty ≠ .null) (converted : (machine.variableValue name).ty.convert found = .ok item)
    (fetches : image.Fetches machine.next .assign) :
    ∃ after, machine.Advances setup after ∧ after.frames = machine.frames ∧ after.next = machine.next + 1 ∧
      after.variableValue name = item := by
  rw [Machine.value_bound target, Store.read_ty] at present converted
  obtain ⟨world, events, notices, phase, said, advances⟩ := Machine.steps_to _ goes calm (above.loaded ▸ fetches)
    fun world events notices => Run.on_assign_top stack present converted
  refine ⟨_, advances, rfl, rfl, Eq.trans ?_ (Machine.value_written above.sound scalar target)⟩
  exact Machine.value_same rfl rfl rfl

section Stepping

variable {step : Float} {item : Value} {rest : List StackItem}
  (stack : machine.stack = .value (.double step) :: .reference cell :: rest) (target : machine.lookup? name = some cell)
  (isCounter : (machine.variableValue name).toDouble? = some number) (fetches : image.Fetches machine.next .forStep)
include stack target isCounter fetches

theorem steps_variable (inRange : Run.fits (machine.variableValue name).ty (Double.roundToEven (number + step)) = true)
    (present : (machine.variableValue name).ty ≠ .null) (scalar : item.isScalar = true)
    (converted : (machine.variableValue name).ty.convert (.double (number + step)) = .ok item) :
    ∃ after, machine.Advances setup after ∧ after.frames = machine.frames ∧ after.next = machine.next + 1 ∧
      after.variableValue name = item := by
  rw [Machine.value_bound target] at isCounter inRange present converted
  rw [Store.read_ty] at inRange present converted
  obtain ⟨world, events, notices, phase, said, advances⟩ := Machine.steps_to _ goes calm (above.loaded ▸ fetches)
    fun world events notices => Run.on_advance stack rfl isCounter inRange present converted
  refine ⟨_, advances, rfl, rfl, Eq.trans ?_ (Machine.value_written above.sound scalar target)⟩
  exact Machine.value_same rfl rfl rfl

theorem stops_variable (outOfRange : ¬Run.fits (machine.variableValue name).ty (Double.roundToEven (number + step)) = true) :
    ∃ error failed, (Run.step setup).on machine = (.error error, failed) ∧ error.code = 6 ∧ failed.phase = .failed ∧
      failed.variableValue name = machine.variableValue name := by
  rw [Machine.value_bound target] at isCounter outOfRange
  rw [Store.read_ty] at outOfRange
  obtain ⟨world, events, notices, ready⟩ := Machine.ready_calm calm
  obtain ⟨locus, found⟩ := above.loaded ▸ fetches
  have started : Machine.stack { machine with world, events, notices, phase := .running, next := machine.next + 1 } =
      .value (.double step) :: .reference cell :: rest := stack
  rw [Run.on_step_ready goes, ready, found]
  dsimp only
  rw [Run.on_overflow started rfl isCounter outOfRange]
  exact ⟨_, _, rfl, rfl, rfl, Machine.value_same rfl rfl rfl⟩

end Stepping

variable (scope : machine.scope = scopeIn base) (unshared : name ∉ image.shared)
include scope unshared

theorem declares_hidden (fetches : image.Fetches machine.next (.dim name .double)) :
    ∃ after, machine.Advances setup after ∧ after.frames = machine.frames ∧ after.next = machine.next + 1 ∧
      (∀ other ≠ name, after.variableValue other = machine.variableValue other) ∧ Tied base name after (.hidden 0) := by
  have sound := above.sound
  have home : machine.scopeOf name = scopeIn base := by
    rw [Machine.scopeOf, above.loaded, if_neg (by simpa using unshared), scope]
  obtain ⟨world, events, notices, phase, said, advances⟩ := Machine.steps_to
    (fun world events notices =>
      let started : Machine σ := { machine with world, events, notices, phase := .running, next := machine.next + 1 }
      (started.allocate (.double 0)).2.bind name (started.allocate (.double 0)).1)
    goes calm (above.loaded ▸ fetches) fun _ _ _ => rfl
  refine ⟨_, advances, rfl, rfl, fun other different => ?_, ?_⟩
  · refine Eq.trans ?_ (Machine.declared_value sound (.double 0) different)
    exact Machine.value_same rfl rfl rfl
  · have waitsNot : machine.pending = none := by
      refine above.orderly.waits_not fun suspended => ?_
      rw [suspended] at goes
      simp at goes
    have there : machine.scopeOf name < machine.scopes.size := home ▸ scope ▸ sound.scope
    have declared := above.framed.rooted.keeps.declared there waitsNot (rfl : (Value.double 0).isScalar = true)
    rw [home] at declared
    exact ⟨_, { declared with }⟩

theorem lends_reference (keeps : machine.Keeps ⟨scopeIn base, name, .hidden (.double number)⟩ (some cell))
    (fetches : image.Fetches machine.next (.pushRef name)) :
    ∃ after, machine.Advances setup after ∧ after.frames = machine.frames ∧ after.next = machine.next + 1 ∧
      after.stack = .reference cell :: machine.stack ∧
      (∀ other, after.variableValue other = machine.variableValue other) ∧
      Tied base name after (.lent cell machine.stack) := by
  obtain ⟨bound, value⟩ := hidden_value keeps scope (above.loaded ▸ unshared)
  obtain ⟨world, events, notices, phase, said, advances⟩ := Machine.steps_to
    (fun world events notices =>
      { machine with
        world, events, notices, phase := .running, next := machine.next + 1, stack := .reference cell :: machine.stack })
    goes calm (above.loaded ▸ fetches) fun world events notices => Run.on_refer_bound bound
  have alone : .reference cell ∉ machine.stack := fun inside => by
    obtain ⟨limit, isLent⟩ := (keeps.stack cell inside).2 rfl
    cases isLent
  have same : Machine.variableValue
      { machine with
        world, events, phase, notices := said, next := machine.next + 1, stack := .reference cell :: machine.stack } name =
        machine.variableValue name := Machine.value_same rfl rfl rfl
  refine ⟨_, advances, rfl, rfl, rfl, fun other => Machine.value_same rfl rfl rfl, ?_, alone, ?_⟩
  · exact { keeps.lend (scopesIn base) with }
  · rw [same, value]
    rfl

omit goes calm unshared in
theorem lent_apart (keeps : machine.Keeps ⟨scopeIn base, name, .lent (scopesIn base)⟩ (some cell)) {other : String}
    (different : other ≠ name) : machine.lookup? other ≠ some cell := by
  intro bound
  have below := above.framed.stacked.scope_in above.suffix
  obtain ⟨-, same⟩ | ⟨limit, isLent, newer⟩ := (keeps.scopes _ other cell bound).2 rfl
  · exact different same
  · cases isLent
    rw [Machine.scopeOf] at newer
    split at newer <;> omega

theorem fills_hidden {found : Value} {rest : List StackItem} (inner : machine.frames = base)
    (tied : Tied base name machine (.lent cell rest)) (stack : machine.stack = .value found :: .reference cell :: rest)
    (converted : Ty.double.convert found = .ok (.double number)) (fetches : image.Fetches machine.next .assign) :
    ∃ after, machine.Advances setup after ∧ after.frames = machine.frames ∧ after.next = machine.next + 1 ∧
      (∀ other ≠ name, (machine.variableValue other).isScalar = true →
        after.variableValue other = machine.variableValue other) ∧ Tied base name after (.hidden number) := by
  obtain ⟨keeps, alone, isDouble⟩ := tied
  have target := keeps_lookup keeps scope (above.loaded ▸ unshared)
  have sound := above.sound
  rw [Machine.value_bound target, Store.read_ty] at isDouble
  obtain ⟨world, events, notices, phase, said, advances⟩ := Machine.steps_to _ goes calm (above.loaded ▸ fetches)
    fun world events notices => Run.on_assign_top stack (isDouble ▸ nofun) (isDouble ▸ converted)
  have below : cell < machine.store.size := sound.cells _ _ _ target
  refine ⟨_, advances, rfl, rfl, fun other different simple => ?_, cell, ?_⟩
  · refine Eq.trans ?_ (Machine.written_value sound below (rfl : (Value.double number).isScalar = true)
      (lent_apart above scope keeps different) simple)
    exact Machine.value_same rfl rfl rfl
  · have waitsNot : machine.pending = none := by
      refine above.orderly.waits_not fun suspended => ?_
      rw [suspended] at goes
      simp at goes
    have noNewer : machine.scopes.size ≤ scopesIn base := by
      rw [keeps.depth, inner]
      exact Nat.le_refl _
    have fewer : rest ⊆ machine.stack := by
      rw [stack]
      exact fun item inside => List.mem_cons_of_mem _ (List.mem_cons_of_mem _ inside)
    exact { keeps.settle fewer alone noNewer waitsNot (rfl : (Value.double number).isScalar = true) with }

end Advancing

section Passing

def Aside (setup : Setup σ) (loop : Loop) (base : List Frame) (machine : Machine σ) : Prop :=
  base <:+ ((Run.step setup).on machine).2.frames ∧
    ((Run.ready setup machine).scope = scopeIn base → ¬loop.Own (Run.ready setup machine).next)

/-- What ran in between has come back. The counter and the variables of the loop have their types. -/
structure Returns (loop : Loop) (last after : Machine σ) : Prop where
  frames : after.frames = last.frames
  counter : after.lookup? loop.counter = last.lookup? loop.counter
  types : ∀ name ∈ [loop.counter, loop.lastName, loop.stepName],
    (after.variableValue name).ty = (last.variableValue name).ty

variable {loop : Loop} {count : Count} {tie lastTie stepTie : Tie} {last : Machine σ} {place : Nat} {counted : Option Int}

theorem Tied.later (contained : image.Contained spans) (receives : image.Receives symbols spans)
    (above : last.Above setup.maxDepth image spans base) (own : image.Confines name place)
    (isOwn : loop.Own place ∧ loop.Own (place + 1)) (onward : Machine.Onward setup (loop.Aside setup base) last after)
    (ty : (∀ number, tie ≠ .hidden number) → (after.variableValue name).ty = (last.variableValue name).ty)
    (tied : Tied base name last tie) : Tied base name after tie := by
  have keeps {hold : Hold} {cell : Cell} (isLocal : Ward.Local base ⟨scopeIn base, name, hold⟩)
      (keeps : last.Keeps ⟨scopeIn base, name, hold⟩ (some cell)) : after.Keeps ⟨scopeIn base, name, hold⟩ (some cell) := by
    refine above.keeps_onward contained receives isLocal own.1 (fun _ aside => aside.1) ?_ keeps onward
    intro machine aside instruction found changes here
    rcases own.2 _ _ ⟨instruction.locus, found⟩ changes with same | same
    · exact aside.2 here (same ▸ isOwn.1)
    · exact aside.2 here (same ▸ isOwn.2)
  cases tie with
  | free => trivial
  | hidden number =>
    obtain ⟨cell, hidden⟩ := tied
    exact ⟨cell, keeps (hidden_local base name _) hidden⟩
  | lent cell rest =>
    obtain ⟨lent, alone, isDouble⟩ := tied
    exact ⟨keeps (lent_local base name) lent, alone, (ty nofun).trans isDouble⟩

theorem own_last : loop.Own (loop.assigned + 1) ∧ loop.Own (loop.assigned + 2) := by
  simp only [Own]
  omega

theorem own_step : loop.Own (loop.ended + 1) ∧ loop.Own (loop.ended + 2) := by
  simp only [Own]
  omega

theorem Stands.later (contained : image.Contained spans) (receives : image.Receives symbols spans) (loops : image.Loops loop)
    (above : last.Above setup.maxDepth image spans base) (onward : Machine.Onward setup (loop.Aside setup base) last after)
    (returns : loop.Returns last after)
    (same : counted.isSome = true → after.variableValue loop.counter = last.variableValue loop.counter)
    (stands : Stands loop count base counted lastTie stepTie last) : Stands loop count base counted lastTie stepTie after where
  scope := by
    rw [Machine.scope, returns.frames]
    exact stands.scope
  counts := by
    cases counted with
    | none => exact (returns.types _ List.mem_cons_self).trans stands.counts
    | some number => exact ⟨stands.counts.1, (same rfl).trans stands.counts.2⟩
  last := stands.last.later contained receives above loops.lastOwn own_last onward fun _ => returns.types _ (by simp)
  step := stands.step.later contained receives above loops.stepOwn own_step onward fun _ => returns.types _ (by simp)

theorem Settled.later (contained : image.Contained spans) (receives : image.Receives symbols spans) (loops : image.Loops loop)
    (above : last.Above setup.maxDepth image spans base) (onward : Machine.Onward setup (loop.Aside setup base) last after)
    (scope : after.scope = scopeIn base) (same : after.variableValue loop.counter = last.variableValue loop.counter)
    {rounds : Nat} (settled : Settled loop count base rounds last) : Settled loop count base rounds after where
  scope := scope
  counts := ⟨settled.counts.1, same.trans settled.counts.2⟩
  last := settled.last.later contained receives above loops.lastOwn own_last onward fun notHidden => absurd rfl (notHidden _)
  step := settled.step.later contained receives above loops.stepOwn own_step onward fun notHidden => absurd rfl (notHidden _)

end Passing

end Loop

end BasicLang
