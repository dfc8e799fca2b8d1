import BasicLang.Machine.Schedule
import BasicLang.Proofs.Machine.Points

set_option autoImplicit false

namespace BasicLang

theorem Ty.convert_scalar {ty : Ty} {value result : Value} (scalar : value.isScalar = true)
    (converted : ty.convert value = .ok result) : result.isScalar = true := by
  cases ty <;> cases value <;> first
    | (cases scalar; done)
    | (cases converted; done)
    | (cases converted; rfl)

theorem Arithmetic.convert_scalar {ty : Ty} {number : Float} {result : Value}
    (converted : Arithmetic.convert ty number = .ok result) : result.isScalar = true := by
  unfold Arithmetic.convert at converted
  split at converted
  · next value found =>
    rw [← Except.ok.inj converted]
    exact Ty.convert_scalar rfl found
  · cases converted

theorem BinaryOperator.apply_scalar {operator : BinaryOperator} {left right result : Value}
    (applied : operator.apply left right = .ok result) : result.isScalar = true := by
  unfold BinaryOperator.apply at applied
  dsimp only at applied
  split at applied
  · cases applied
  · split at applied
    · split at applied <;> rw [← Except.ok.inj applied] <;> rfl
    · split at applied
      · split at applied
        · rw [← Except.ok.inj applied]
          rfl
        · split at applied
          · exact Arithmetic.convert_scalar applied
          · cases applied
      · cases applied

theorem UnaryOperator.apply_scalar {operator : UnaryOperator} {value result : Value}
    (applied : operator.apply value = .ok result) : result.isScalar = true := by
  cases operator with
  | negate =>
    rw [UnaryOperator.apply, Value.negate] at applied
    split at applied
    · exact Arithmetic.convert_scalar applied
    · cases applied
  | not =>
    rw [UnaryOperator.apply, Value.complement] at applied
    split at applied
    · exact Arithmetic.convert_scalar applied
    · cases applied

namespace Environment

variable {environment : Environment}

structure Scalar (environment : Environment) : Prop where
  values : ∀ name value, environment.value? name = some value → value.isScalar = true
  fresh : ∀ name, (environment.implicitType name).default.isScalar = true

theorem Scalar.set (scalar : environment.Scalar) (name : String) {value : Value}
    (isScalar : value.isScalar = true) : (environment.set name value).Scalar := by
  refine ⟨fun other found isThere => ?_, scalar.fresh⟩
  by_cases same : other = name
  · have stored : some value = some found := by simpa [Environment.set, same] using isThere
    rw [← Option.some.inj stored]
    exact isScalar
  · exact scalar.values other found (by simpa [Environment.set, same] using isThere)

theorem Scalar.find (scalar : environment.Scalar) (name : String) :
    (environment.find name).1.isScalar = true := by
  unfold Environment.find fetch
  split
  · next value found => exact scalar.values name value found
  · exact scalar.fresh name

theorem find_known {name : String} {value : Value} (known : environment.value? name = some value) :
    environment.find name = (value, environment) := by
  rw [find, fetch, known]

end Environment

namespace Store

variable {store : Store} {cell other : Cell}

theorem plain_of_scalar (scalar : (store.read cell).isScalar = true) :
    store.content cell = .plain (store.read cell) := by
  rw [read_eq] at scalar ⊢
  cases content : store.content cell with
  | plain value => rfl
  | array element grid =>
    rw [content] at scalar
    cases scalar
  | record name members fields =>
    rw [content] at scalar
    cases scalar

theorem write_scalar {value : Value} (scalar : value.isScalar = true) :
    store.write cell value = store.put cell (.plain value) := by
  cases value <;> first | rfl | cases scalar

theorem read_put_same {value : Value} (below : cell < store.size) :
    (store.put cell (.plain value)).read cell = value := by
  rw [read_eq, content_put _ _ _ _ below, if_pos rfl, valueOf]

theorem read_put_other {content : Content} (below : cell < store.size) (different : other ≠ cell)
    (scalar : (store.read other).isScalar = true) :
    (store.put cell content).read other = store.read other := by
  rw [read_eq, content_put _ _ _ _ below, if_neg different, plain_of_scalar scalar, valueOf]

end Store

namespace Machine

variable {σ : Type} {machine : Machine σ} {environment : Environment}

structure Stores (machine : Machine σ) (environment : Environment) : Prop where
  sound : machine.Sound
  apart : ∀ first second cell, machine.lookup? first = some cell → machine.lookup? second = some cell →
    first = second
  scalar : environment.Scalar
  same : machine.environment = environment

theorem Stores.value_of (stores : machine.Stores environment) {name : String} {cell : Cell}
    (found : machine.lookup? name = some cell) :
    environment.value? name = some (machine.store.read cell) := by
  rw [← stores.same]
  simp [Machine.environment, found]

theorem Stores.below (stores : machine.Stores environment) {name : String} {cell : Cell}
    (found : machine.lookup? name = some cell) : cell < machine.store.size :=
  stores.sound.cells _ name cell found

theorem Stores.bind {name : String} {value : Value} {cell : Cell} {store : Store}
    (stores : machine.Stores environment) (scalar : value.isScalar = true)
    (allocates : Store.Allocates machine.store [value] [cell] store) :
    ({ machine with store }.bind name cell).Stores (environment.set name value) := by
  have lookups := bind_lookup stores.sound store name cell
  have fresh : machine.store.size ≤ cell := (allocates.fresh cell List.mem_cons_self).1
  refine ⟨bind_sound stores.sound allocates, fun first second found left right => ?_,
    stores.scalar.set name scalar, (bind_environment stores.sound allocates).trans (by rw [stores.same])⟩
  rw [lookups] at left right
  split at left <;> split at right
  · next here there => exact here.trans there.symm
  · rw [← Option.some.inj left] at right
    exact absurd (stores.below right) (Nat.not_lt.mpr fresh)
  · rw [← Option.some.inj right] at left
    exact absurd (stores.below left) (Nat.not_lt.mpr fresh)
  · exact stores.apart first second found left right

theorem Stores.find (stores : machine.Stores environment) (name : String) :
    (machine.ensureVariable name).2.Stores (environment.find name).2 ∧
      (machine.ensureVariable name).2.lookup? name = some (machine.ensureVariable name).1 ∧
      (machine.ensureVariable name).2.store.read (machine.ensureVariable name).1 =
        (environment.find name).1 ∧
      ∀ other cell, machine.lookup? other = some cell →
        (machine.ensureVariable name).2.lookup? other = some cell := by
  unfold ensureVariable
  cases found : machine.lookup? name with
  | some cell =>
    rw [Environment.find_known (stores.value_of found)]
    exact ⟨stores, found, rfl, fun _ _ isThere => isThere⟩
  | none =>
    have allocates := Store.allocate_spec stores.sound.closed (machine.implicitType name).default
    have lookups := bind_lookup stores.sound (machine.store.allocate (machine.implicitType name).default).2
      name (machine.store.allocate (machine.implicitType name).default).1
    have absent : environment.value? name = none := by
      rw [← stores.same]
      simp [Machine.environment, found]
    have types : environment.implicitType = machine.implicitType := by
      rw [← stores.same]
      rfl
    have fresh := stores.scalar.fresh name
    rw [types] at fresh
    rw [Environment.find, Environment.fetch, absent, types]
    refine ⟨stores.bind fresh allocates, (lookups name).trans (if_pos rfl), allocates.read,
      fun other cell isThere => (lookups other).trans ?_⟩
    rw [if_neg]
    · exact isThere
    · rintro rfl
      rw [found] at isThere
      cases isThere

theorem Stores.write {name : String} {cell : Cell} {value : Value} (stores : machine.Stores environment)
    (found : machine.lookup? name = some cell) (scalar : value.isScalar = true) :
    Stores { machine with store := machine.store.write cell value } (environment.set name value) := by
  have below := stores.below found
  rw [Store.write_scalar scalar]
  refine ⟨⟨stores.sound.closed.put below (fun _ inside => nomatch inside) ?_, ?_, stores.sound.scope⟩,
    stores.apart, stores.scalar.set name scalar, ?_⟩
  · cases value <;> first | rfl | cases scalar
  · intro scope other held isThere
    show held < (machine.store.put cell _).size
    rw [Store.size_put]
    exact stores.sound.cells scope other held isThere
  · rw [← stores.same]
    unfold Machine.environment Environment.set
    congr 1
    funext other
    show (machine.lookup? other).map (machine.store.put cell (.plain value)).read = _
    by_cases same : other = name
    · rw [if_pos same, same, found]
      exact congrArg some (Store.read_put_same below)
    · rw [if_neg same]
      dsimp only
      cases isThere : machine.lookup? other with
      | none => rfl
      | some held =>
        have different : held ≠ cell := by
          rintro rfl
          exact same (stores.apart other name held isThere found)
        exact congrArg some (Store.read_put_other below different
          (stores.scalar.values other _ (stores.value_of isThere)))

theorem Stores.elsewhere (stores : machine.Stores environment) (next : Nat) (stack : List StackItem) :
    Stores { machine with next, stack } environment :=
  ⟨⟨stores.sound.closed, stores.sound.cells, stores.sound.scope⟩, stores.apart, stores.scalar, stores.same⟩

def Represents (machine : Machine σ) : Slot → StackItem → Prop
  | .value value, .value item => item = value ∧ value.isScalar = true
  | .storage name, .reference cell => machine.lookup? name = some cell
  | _, _ => False

def RepresentsAll (machine : Machine σ) : List Slot → List StackItem → Prop
  | [], [] => True
  | slot :: slots, item :: items => machine.Represents slot item ∧ machine.RepresentsAll slots items
  | _, _ => False

theorem RepresentsAll.kept {after : Machine σ} {slots : List Slot} {items : List StackItem}
    (represents : machine.RepresentsAll slots items)
    (kept : ∀ name cell, machine.lookup? name = some cell → after.lookup? name = some cell) :
    after.RepresentsAll slots items := by
  induction slots generalizing items with
  | nil => cases items <;> exact represents
  | cons slot slots ih =>
    cases items with
    | nil => exact represents
    | cons item items =>
      refine ⟨?_, ih represents.2⟩
      cases slot <;> cases item <;> first
        | exact represents.1
        | exact kept _ _ represents.1

theorem represents_value {value : Value} {slots : List Slot} {items : List StackItem}
    (represents : machine.RepresentsAll (.value value :: slots) items) :
    ∃ rest, items = .value value :: rest ∧ value.isScalar = true ∧ machine.RepresentsAll slots rest := by
  cases items with
  | nil => exact represents.elim
  | cons item rest =>
    cases item with
    | value found => exact ⟨rest, by rw [represents.1.1], represents.1.2, represents.2⟩
    | reference cell => exact represents.1.elim

theorem represents_storage {name : String} {slots : List Slot} {items : List StackItem}
    (represents : machine.RepresentsAll (.storage name :: slots) items) :
    ∃ cell rest, items = .reference cell :: rest ∧ machine.lookup? name = some cell ∧
      machine.RepresentsAll slots rest := by
  cases items with
  | nil => exact represents.elim
  | cons item rest =>
    cases item with
    | value found => exact represents.1.elim
    | reference cell => exact ⟨cell, rest, rfl, represents.1, represents.2⟩

structure Calm (image : Image) (machine : Machine σ) : Prop where
  image : machine.image = image
  phase : machine.phase = .running
  frames : machine.frames = [mainFrame]
  handlers : machine.handlers = []
  files : machine.files = []

structure Matches (image : Image) (point : Point) (machine : Machine σ) : Prop where
  calm : machine.Calm image
  next : machine.next = point.next
  stores : machine.Stores point.environment
  stack : machine.RepresentsAll point.stack machine.stack

section Matches

variable {image : Image} {next : Nat} {stack slots : List Slot} {items : List StackItem}

theorem Matches.restack (here : machine.Matches image ⟨next, stack, environment⟩)
    (represents : machine.RepresentsAll slots items) :
    Matches image ⟨next, slots, environment⟩ { machine with stack := items } :=
  ⟨{ here.calm with }, here.next, here.stores.elsewhere machine.next items,
    represents.kept fun _ _ found => found⟩

theorem Matches.go (here : machine.Matches image ⟨next, stack, environment⟩) (place : Nat) :
    Matches image ⟨place, stack, environment⟩ { machine with next := place } :=
  ⟨{ here.calm with }, rfl, here.stores.elsewhere place machine.stack,
    here.stack.kept fun _ _ found => found⟩

end Matches

end Machine

namespace Run

variable {σ : Type} {setup : Setup σ} {machine : Machine σ} {image : Image}

theorem deliver_calm (calm : machine.Calm image) :
    ∃ world events, deliverEvent (pollEvents setup.devices machine) = { machine with world, events } := by
  have polled : ∃ world events, pollEvents setup.devices machine = { machine with world, events } := by
    unfold pollEvents
    split
    · exact ⟨machine.world, machine.events, rfl⟩
    · exact ⟨_, _, rfl⟩
  obtain ⟨world, events, arrived⟩ := polled
  rw [arrived]
  unfold deliverEvent
  -- Without a handler the first event is dropped, and nothing else changes.
  cases events with
  | nil => exact ⟨world, [], rfl⟩
  | cons event rest =>
    refine ⟨world, rest, ?_⟩
    simp only [calm.frames, calm.handlers]
    rfl

theorem on_failing {α : Type} (locus : Locus) (action : Run σ α) (machine : Machine σ) :
    (failing (some locus) action).on machine =
      match action.on machine with
      | (.ok result, after) => (.ok result, after)
      | (.error error, after) => (.error (error.atLocus locus), after.fail (error.atLocus locus)) := by
  rw [failing, on_catch]
  rfl

theorem on_step (calm : machine.Calm image) {op : Op} {locus : Locus}
    (fetched : image.instructions[machine.next]? = some ⟨op, locus⟩) :
    ∃ world events,
      match (execute setup op).on { machine with world, events, next := machine.next + 1 } with
      | (.ok _, after) => (step setup).on machine = (.ok true,
          if after.image.instructions.size ≤ after.next ∧ after.phase = .running then
            after.setPhase .finished
          else after)
      | (.error error, after) =>
          (step setup).on machine = (.error (error.atLocus locus), after.fail (error.atLocus locus)) := by
  obtain ⟨world, events, delivered⟩ : ∃ world events,
    deliverEvent (pollEvents setup.devices machine) = { machine with world, events } := deliver_calm calm
  refine ⟨world, events, ?_⟩
  have started : (if machine.phase = .idle then machine.setPhase .running else machine) = machine :=
    if_neg (by rw [calm.phase]; decide)
  have here : ({ machine with world, events } : Machine σ).image.instructions[machine.next]? =
      some ⟨op, locus⟩ := by
    rw [← calm.image] at fetched
    exact fetched
  have unfolded : (step setup).on machine =
      (do
        modify fun machine => { machine with next := machine.next + 1 }
        failing (some locus) (execute setup op)
        modify fun machine =>
          if machine.image.instructions.size ≤ machine.next ∧ machine.phase = .running then
            machine.setPhase .finished
          else machine
        return true : Run σ Bool).on { machine with world, events } := by
    rw [step, on_seq (on_modify _ _), started, on_seq (on_get _), if_neg (by rw [calm.phase]; decide),
      on_seq (on_modify _ _), delivered, on_seq (on_get _)]
    simp only [here]
  rw [unfolded, on_seq (on_modify _ _), on_bind, on_failing]
  cases (execute setup op).on { machine with world, events, next := machine.next + 1 } with
  | mk result after =>
    cases result with
    | error error => rfl
    | ok _ => rfl

def Executes (setup : Setup σ) (image : Image) (op : Op) (machine : Machine σ) (outcome : Except Fault Point) :
    Prop :=
  match outcome with
  | .error fault => ∃ after, (execute setup op).on machine = (.error (.ofFault fault), after)
  | .ok point => ∃ after, (execute setup op).on machine = (.ok (), after) ∧ after.Matches image point

section Execute

variable {next place : Nat} {stack : List Slot} {environment : Environment} {name : String}
  {value left right : Value}

theorem executes_constant (here : machine.Matches image ⟨next, stack, environment⟩)
    (scalar : value.isScalar = true) :
    Executes setup image (.pushConst value) machine (.ok ⟨next, .value value :: stack, environment⟩) :=
  ⟨_, on_push value machine, here.restack ⟨⟨rfl, scalar⟩, here.stack⟩⟩

theorem find_matches (here : machine.Matches image ⟨next, stack, environment⟩) (name : String) :
    (machine.ensureVariable name).2.Matches image ⟨next, stack, (environment.find name).2⟩ := by
  obtain ⟨stores, -, -, kept⟩ := here.stores.find name
  have rest : (machine.ensureVariable name).2 = { machine with
      scopes := (machine.ensureVariable name).2.scopes, store := (machine.ensureVariable name).2.store } := by
    unfold Machine.ensureVariable
    split <;> rfl
  have calm : (machine.ensureVariable name).2.Calm image := by
    rw [rest]
    exact { here.calm with }
  refine ⟨calm, ?_, stores, ?_⟩
  · rw [rest]
    exact here.next
  · have sameStack : (machine.ensureVariable name).2.stack = machine.stack := by rw [rest]
    rw [sameStack]
    exact here.stack.kept kept

theorem executes_variable (here : machine.Matches image ⟨next, stack, environment⟩) (name : String) :
    Executes setup image (.pushValue name) machine
      (.ok ⟨next, .value (environment.find name).1 :: stack, (environment.find name).2⟩) := by
  have found := find_matches here name
  obtain ⟨-, -, read, -⟩ := here.stores.find name
  have ran : (execute setup (.pushValue name)).on machine = (.ok (), { (machine.ensureVariable name).2 with
      stack := .value (environment.find name).1 :: (machine.ensureVariable name).2.stack }) := by
    rw [execute, on_seq (on_variable name machine), on_seq (on_read _ _), on_push, read]
  exact ⟨_, ran, found.restack ⟨⟨rfl, here.stores.scalar.find name⟩, found.stack⟩⟩

theorem executes_storage (here : machine.Matches image ⟨next, stack, environment⟩) (name : String) :
    Executes setup image (.pushRef name) machine
      (.ok ⟨next, .storage name :: stack, (environment.find name).2⟩) := by
  have found := find_matches here name
  obtain ⟨-, isThere, -, -⟩ := here.stores.find name
  have ran : (execute setup (.pushRef name)).on machine = (.ok (), { (machine.ensureVariable name).2 with
      stack := .reference (machine.ensureVariable name).1 :: (machine.ensureVariable name).2.stack }) := by
    rw [execute, on_seq (on_variable name machine), on_push_reference]
  exact ⟨_, ran, found.restack ⟨isThere, found.stack⟩⟩

theorem executes_binary (here : machine.Matches image ⟨next, .value right :: .value left :: stack, environment⟩)
    (operator : BinaryOperator) :
    Executes setup image (.binary operator) machine do
      return ⟨next, .value (← Fault.ofArithmetic (operator.apply left right)) :: stack, environment⟩ := by
  obtain ⟨items, top, -, below⟩ := Machine.represents_value here.stack
  obtain ⟨rest, topBelow, -, represents⟩ := Machine.represents_value below
  have ran : (execute setup (.binary operator)).on machine =
      (do push (← ofArithmetic (operator.apply left right)) : Run σ Unit).on { machine with stack := rest } := by
    rw [execute, on_seq (on_pop_value top), on_seq (on_pop_value topBelow)]
  unfold Executes
  rw [ran]
  cases applied : operator.apply left right with
  | error fault => exact ⟨_, rfl⟩
  | ok result =>
    exact ⟨_, rfl, here.restack ⟨⟨rfl, BinaryOperator.apply_scalar applied⟩, represents⟩⟩

theorem executes_unary (here : machine.Matches image ⟨next, .value value :: stack, environment⟩)
    (operator : UnaryOperator) :
    Executes setup image operator.op machine do
      return ⟨next, .value (← Fault.ofArithmetic (operator.apply value)) :: stack, environment⟩ := by
  obtain ⟨rest, top, -, represents⟩ := Machine.represents_value here.stack
  have ran : (execute setup operator.op).on machine =
      (do push (← ofArithmetic (operator.apply value)) : Run σ Unit).on { machine with stack := rest } := by
    cases operator <;> rw [UnaryOperator.op, execute, on_seq (on_pop_value top), UnaryOperator.apply]
  unfold Executes
  rw [ran]
  cases applied : operator.apply value with
  | error fault => exact ⟨_, rfl⟩
  | ok result =>
    exact ⟨_, rfl, here.restack ⟨⟨rfl, UnaryOperator.apply_scalar applied⟩, represents⟩⟩

theorem on_assign (stores : machine.Stores environment) {cell : Cell}
    (found : machine.lookup? name = some cell) (scalar : value.isScalar = true) :
    match environment.assign name value with
    | .error fault => (assign cell value).on machine = (.error (.ofFault fault), machine)
    | .ok changed => ∃ store, (assign cell value).on machine = (.ok (), { machine with store }) ∧
        Machine.Stores { machine with store } changed := by
  have known := Environment.find_known (stores.value_of found)
  rw [assign, on_seq (on_get machine), Environment.assign, known]
  simp only [Store.read_ty]
  by_cases absent : machine.store.ty cell = .null
  · rw [if_pos absent, if_pos absent]
    exact ⟨_, rfl, stores.write found scalar⟩
  · rw [if_neg absent, if_neg absent]
    cases converted : (machine.store.ty cell).convert value with
    | error fault => rfl
    | ok result => exact ⟨_, rfl, stores.write found (Ty.convert_scalar scalar converted)⟩

theorem matches_changed {store : Store} {changed : Environment}
    (here : machine.Matches image ⟨next, stack, environment⟩)
    (stores : Machine.Stores { machine with store } changed) :
    Machine.Matches image ⟨next, stack, changed⟩ { machine with store } :=
  ⟨{ here.calm with }, here.next, stores, here.stack.kept fun _ _ found => found⟩

theorem executes_assign
    (here : machine.Matches image ⟨next, .value value :: .storage name :: stack, environment⟩) :
    Executes setup image .assign machine do return ⟨next, stack, ← environment.assign name value⟩ := by
  obtain ⟨items, top, scalar, below⟩ := Machine.represents_value here.stack
  obtain ⟨cell, rest, topBelow, found, represents⟩ := Machine.represents_storage below
  have popped := here.restack represents
  have ran : (execute setup .assign).on machine = (assign cell value).on { machine with stack := rest } := by
    rw [execute, on_seq (on_pop_value top), on_seq (on_pop_reference topBelow)]
  have assigned := on_assign popped.stores found scalar
  unfold Executes
  rw [ran]
  cases changes : environment.assign name value with
  | error fault =>
    rw [changes] at assigned
    exact ⟨_, assigned⟩
  | ok changed =>
    rw [changes] at assigned
    obtain ⟨store, done, stores⟩ := assigned
    exact ⟨_, done, matches_changed popped stores⟩

theorem executes_dim (here : machine.Matches image ⟨next, [], environment⟩) (name : String) {ty : Ty}
    (scalar : ty.default.isScalar = true) :
    Executes setup image (.dim name ty) machine (.ok ⟨next, [], environment.set name ty.default⟩) := by
  have allocates := Store.allocate_spec here.stores.sound.closed ty.default
  refine ⟨_, rfl, { here.calm with }, here.next, here.stores.bind scalar allocates, ?_⟩
  cases items : machine.stack with
  | nil =>
    show Machine.RepresentsAll _ [] machine.stack
    rw [items]
    trivial
  | cons item rest =>
    have nothing := here.stack
    rw [items] at nothing
    exact nothing.elim

theorem executes_jump (here : machine.Matches image ⟨next, stack, environment⟩) (place : Nat) :
    Executes setup image (.jump (.resolved place)) machine (.ok ⟨place, stack, environment⟩) :=
  ⟨_, rfl, here.go place⟩

theorem executes_jump_if_zero (here : machine.Matches image ⟨next, .value value :: stack, environment⟩)
    (place : Nat) :
    Executes setup image (.jumpIfZero (.resolved place)) machine
      (.ok ⟨if value.isTrue then next else place, stack, environment⟩) := by
  obtain ⟨rest, top, -, represents⟩ := Machine.represents_value here.stack
  have popped := here.restack represents
  unfold Executes
  rw [execute, on_seq (on_pop_value top)]
  cases value.isTrue with
  | true => exact ⟨_, rfl, popped⟩
  | false => exact ⟨_, rfl, popped.go place⟩

theorem executes_jump_if_nonzero (here : machine.Matches image ⟨next, .value value :: stack, environment⟩)
    (place : Nat) :
    Executes setup image (.jumpIfNonzero (.resolved place)) machine
      (.ok ⟨if value.isTrue then place else next, stack, environment⟩) := by
  obtain ⟨rest, top, -, represents⟩ := Machine.represents_value here.stack
  have popped := here.restack represents
  unfold Executes
  rw [execute, on_seq (on_pop_value top)]
  cases value.isTrue with
  | true => exact ⟨_, rfl, popped.go place⟩
  | false => exact ⟨_, rfl, popped⟩

theorem on_pop_number {items : List StackItem} (top : machine.stack = .value value :: items) :
    (popNumber : Run σ Float).on machine =
      match value.number with
      | .ok number => (.ok number, { machine with stack := items })
      | .error fault => (.error (.ofFault fault), { machine with stack := items }) := by
  rw [popNumber, on_seq (on_pop_value top), Value.number]
  cases value.toDouble? <;> rfl

theorem executes_for_loop {counter last step : Value}
    (here : machine.Matches image ⟨next, .value step :: .value last :: .value counter :: stack, environment⟩)
    (place : Nat) :
    Executes setup image (.forLoop (.resolved place)) machine do
      let step ← step.number
      let last ← last.number
      let number ← counter.number
      return ⟨if if 0 ≤ step then last < number else number < last then place else next, stack,
        environment⟩ := by
  obtain ⟨items, top, -, below⟩ := Machine.represents_value here.stack
  obtain ⟨more, topLast, -, belowLast⟩ := Machine.represents_value below
  obtain ⟨rest, topCounter, -, represents⟩ := Machine.represents_value belowLast
  have popped := here.restack represents
  unfold Executes
  rw [execute, forLoop]
  cases stepNumber : step.number with
  | error fault => exact ⟨_, on_stop (by rw [on_pop_number top, stepNumber])⟩
  | ok stepFound =>
    rw [on_seq (by rw [on_pop_number top, stepNumber])]
    cases lastNumber : last.number with
    | error fault => exact ⟨_, on_stop (by rw [on_pop_number topLast, lastNumber])⟩
    | ok lastFound =>
      rw [on_seq (by rw [on_pop_number topLast, lastNumber])]
      cases number : counter.number with
      | error fault => exact ⟨_, on_stop (by rw [on_pop_number topCounter, number])⟩
      | ok found =>
        rw [on_seq (by rw [on_pop_number topCounter, number])]
        by_cases passed : if 0 ≤ stepFound then lastFound < found else found < lastFound
        · refine ⟨{ machine with stack := rest, next := place }, ?_, ?_⟩
          · rw [if_pos passed]
            rfl
          · show Machine.Matches image ⟨if _ then _ else _, _, _⟩ _
            rw [if_pos passed]
            exact popped.go place
        · refine ⟨{ machine with stack := rest }, ?_, ?_⟩
          · rw [if_neg passed]
            rfl
          · show Machine.Matches image ⟨if _ then _ else _, _, _⟩ _
            rw [if_neg passed]
            exact popped

theorem advance_known {environment : Environment} {counter : String} {held step : Value} {size : Float}
    (known : environment.find counter = (held, environment)) (isSize : step.number = .ok size) :
    environment.advance counter step =
      match held.toDouble? with
      | none => .error (.counterType held.typeName)
      | some number =>
        if fits held.ty (Double.roundToEven (number + size)) then
          environment.assign counter (.double (number + size))
        else .error .counterOverflow := by
  rw [Environment.advance, known, isSize]
  rfl

theorem on_for_step {step : Value} {size : Float} {cell : Cell} {items rest : List StackItem}
    (top : machine.stack = .value step :: items) (isSize : step.number = .ok size)
    (topBelow : items = .reference cell :: rest) :
    (execute setup .forStep).on machine =
      (match (machine.store.read cell).toDouble? with
        | none => fail (.counterType (machine.store.read cell).typeName)
        | some number =>
          if fits (machine.store.read cell).ty (Double.roundToEven (number + size)) then
            assign cell (.double (number + size))
          else fail .counterOverflow : Run σ Unit).on { machine with stack := rest } := by
  rewrite [execute, forStep, on_seq (by rw [on_pop_number top, isSize]), on_seq (on_pop_reference topBelow),
    on_seq (on_read _ _)]
  rfl

theorem executes_for_step {counter : String} {step : Value}
    (here : machine.Matches image ⟨next, .value step :: .storage counter :: stack, environment⟩) :
    Executes setup image .forStep machine do return ⟨next, stack, ← environment.advance counter step⟩ := by
  obtain ⟨items, top, -, below⟩ := Machine.represents_value here.stack
  obtain ⟨cell, rest, topBelow, found, represents⟩ := Machine.represents_storage below
  have popped := here.restack represents
  have known : environment.find counter = (machine.store.read cell, environment) :=
    Environment.find_known (here.stores.value_of found)
  unfold Executes
  cases stepNumber : step.number with
  | error fault =>
    have advanced : environment.advance counter step = .error fault := by
      rw [Environment.advance, known, stepNumber]
      rfl
    rw [advanced, execute, forStep]
    exact ⟨_, on_stop (by rw [on_pop_number top, stepNumber])⟩
  | ok stepFound =>
    rw [on_for_step top stepNumber topBelow, advance_known known stepNumber]
    cases (machine.store.read cell).toDouble? with
    | none => exact ⟨_, rfl⟩
    | some number =>
      by_cases suits : fits (machine.store.read cell).ty (Double.roundToEven (number + stepFound)) = true
      · have assigned := on_assign popped.stores found (rfl : (Value.double (number + stepFound)).isScalar = true)
        simp only [if_pos suits]
        cases changes : environment.assign counter (.double (number + stepFound)) with
        | error fault =>
          rw [changes] at assigned
          exact ⟨_, assigned⟩
        | ok changed =>
          rw [changes] at assigned
          obtain ⟨store, done, stores⟩ := assigned
          exact ⟨_, done, matches_changed popped stores⟩
      · simp only [if_neg suits]
        exact ⟨_, rfl⟩

theorem executes_moves {point : Point} {outcome : Except Fault Point} (moves : point.Moves image outcome) :
    ∃ op locus, image.instructions[point.next]? = some ⟨op, locus⟩ ∧ ∀ machine : Machine σ,
      machine.Matches image { point with next := point.next + 1 } →
        Executes setup image op machine outcome := by
  cases moves with
  | constant fetches scalar =>
    exact ⟨_, fetches.choose, fetches.choose_spec, fun _ here => executes_constant here scalar⟩
  | «variable» fetches =>
    exact ⟨_, fetches.choose, fetches.choose_spec, fun _ here => executes_variable here _⟩
  | storage fetches => exact ⟨_, fetches.choose, fetches.choose_spec, fun _ here => executes_storage here _⟩
  | binary fetches => exact ⟨_, fetches.choose, fetches.choose_spec, fun _ here => executes_binary here _⟩
  | unary fetches => exact ⟨_, fetches.choose, fetches.choose_spec, fun _ here => executes_unary here _⟩
  | assign fetches => exact ⟨_, fetches.choose, fetches.choose_spec, fun _ here => executes_assign here⟩
  | dim fetches scalar =>
    exact ⟨_, fetches.choose, fetches.choose_spec, fun _ here => executes_dim here _ scalar⟩
  | jump fetches => exact ⟨_, fetches.choose, fetches.choose_spec, fun _ here => executes_jump here _⟩
  | jumpIfZero fetches =>
    exact ⟨_, fetches.choose, fetches.choose_spec, fun _ here => executes_jump_if_zero here _⟩
  | jumpIfNonzero fetches =>
    exact ⟨_, fetches.choose, fetches.choose_spec, fun _ here => executes_jump_if_nonzero here _⟩
  | forLoop fetches => exact ⟨_, fetches.choose, fetches.choose_spec, fun _ here => executes_for_loop here _⟩
  | forStep fetches => exact ⟨_, fetches.choose, fetches.choose_spec, fun _ here => executes_for_step here⟩

end Execute

theorem matches_advanced {point : Point} (here : machine.Matches image point) (world : σ)
    (events : List (String × String)) :
    Machine.Matches image { point with next := point.next + 1 }
      { machine with world, events, next := machine.next + 1 } where
  calm := { here.calm with }
  next := congrArg (· + 1) here.next
  stores := ⟨⟨here.stores.sound.closed, here.stores.sound.cells, here.stores.sound.scope⟩, here.stores.apart,
    here.stores.scalar, here.stores.same⟩
  stack := here.stack.kept fun _ _ found => found

theorem step_moves {point reached : Point} (here : machine.Matches image point)
    (moves : point.Moves image (.ok reached)) (inside : reached.next < image.instructions.size) :
    ∃ after, (step setup).on machine = (.ok true, after) ∧ after.Matches image reached := by
  obtain ⟨op, locus, fetched, executes⟩ := executes_moves moves
  rw [← here.next] at fetched
  obtain ⟨world, events, stepped⟩ := on_step here.calm fetched
  obtain ⟨after, ran, there⟩ := executes _ (matches_advanced here world events)
  rw [ran] at stepped
  refine ⟨after, stepped.trans ?_, there⟩
  -- A step behind the last instruction would finish the program instead.
  rw [if_neg fun isLast => ?_]
  rw [there.calm.image, there.next] at isLast
  exact absurd inside (Nat.not_lt.mpr isLast.1)

theorem step_fails {point : Point} {fault : Fault} (here : machine.Matches image point)
    (moves : point.Moves image (.error fault)) :
    ∃ error after, (step setup).on machine = (.error error, after) ∧ error.fault = fault ∧
      after.phase = .failed := by
  obtain ⟨op, locus, fetched, executes⟩ := executes_moves moves
  rw [← here.next] at fetched
  obtain ⟨world, events, stepped⟩ := on_step here.calm fetched
  obtain ⟨after, ran⟩ := executes _ (matches_advanced here world events)
  rw [ran] at stepped
  exact ⟨_, _, stepped, rfl, rfl⟩

theorem on_to_end_step {after : Machine σ} (calm : machine.Calm image) (fuel : Nat) {goesOn : Bool}
    (stepped : (step setup).on machine = (.ok goesOn, after)) :
    (toEnd setup (fuel + 1)).on machine = (toEnd setup fuel).on after := by
  rw [toEnd, on_seq (on_get machine), calm.phase, on_seq stepped]

theorem to_end_steps {count : Nat} {first last : Point} (steps : first.Steps image count last)
    (inside : last.next < image.instructions.size) (here : machine.Matches image first) :
    ∃ after, after.Matches image last ∧
      ∀ fuel, (toEnd setup (count + fuel)).on machine = (toEnd setup fuel).on after := by
  -- Each move costs one unit of fuel, and all points on the way are inside the code as the last one is.
  induction steps generalizing machine with
  | refl point => exact ⟨machine, here, fun fuel => by rw [Nat.zero_add]⟩
  | head moves rest ih =>
    obtain ⟨between, stepped, there⟩ := step_moves here moves (rest.inside inside)
    obtain ⟨after, finally_, ran⟩ := ih inside there
    refine ⟨after, finally_, fun fuel => ?_⟩
    rw [Nat.add_right_comm, on_to_end_step here.calm _ stepped, ran]

theorem to_end_unfinished {count fuel : Nat} {first last : Point} (steps : first.Steps image count last)
    (enough : fuel + 1 ≤ count) (here : machine.Matches image first) :
    ∃ after, (toEnd setup fuel).on machine = (.ok false, after) := by
  obtain ⟨more, rfl⟩ := Nat.exists_eq_add_of_le enough
  rw [Nat.add_assoc] at steps
  obtain ⟨middle, before, behind⟩ := steps.split
  rw [Nat.add_comm] at behind
  cases behind with
  | head moves rest =>
    obtain ⟨after, -, ran⟩ := to_end_steps before moves.inside here
    exact ⟨after, ran 0⟩

theorem to_end_fails {count : Nat} {first last : Point} {fault : Fault}
    (steps : first.Steps image count last) (fails : last.Moves image (.error fault))
    (here : machine.Matches image first) :
    ∃ fuel error after, (toEnd setup fuel).on machine = (.error error, after) ∧ error.fault = fault ∧
      after.phase = .failed := by
  obtain ⟨between, there, ran⟩ := to_end_steps steps fails.inside here
  obtain ⟨error, after, stopped, isFault, failed⟩ := step_fails there fails
  refine ⟨count + 1, error, after, ?_, isFault, failed⟩
  rw [ran, toEnd, on_seq (on_get between), there.calm.phase, on_stop stopped]

theorem finished_same (machine : Machine σ) :
    (machine.setPhase .finished).phase = .finished ∧
      (machine.setPhase .finished).environment = machine.environment := by
  unfold Machine.setPhase
  split
  · next isFinished => exact ⟨isFinished, rfl⟩
  · exact ⟨rfl, rfl⟩

theorem to_end_finishes {count : Nat} {first last : Point} (steps : first.Steps image count last)
    (stops : image.Fetches last.next .stop) (here : machine.Matches image first) :
    ∃ fuel after, (toEnd setup fuel).on machine = (.ok true, after) ∧ after.phase = .finished ∧
      after.environment = last.environment := by
  obtain ⟨locus, fetched⟩ := stops
  obtain ⟨between, there, ran⟩ := to_end_steps steps (Array.getElem?_eq_some_iff.mp fetched).1 here
  rw [← there.next] at fetched
  obtain ⟨world, events, stepped⟩ := on_step there.calm fetched
  have stopped : (execute setup .stop).on { between with world, events, next := between.next + 1 } =
      (.ok (), { between with
        world, events, next := between.image.instructions.size, files := [], output := none }) := by
    have nothing : { between with world, events, next := between.next + 1 }.flushes setup.devices = [] := by
      rw [Machine.flushes_eq_nil_iff, there.calm.files]
      rfl
    rw [execute, stop, on_seq (on_get _), on_seq (on_modify _ _), nothing]
    rfl
  rw [stopped] at stepped
  dsimp only at stepped
  rw [if_pos ⟨Nat.le_refl _, there.calm.phase⟩] at stepped
  obtain ⟨finished, same⟩ := finished_same { between with
    world, events, next := between.image.instructions.size, files := [], output := none }
  refine ⟨count + 2, _, ?_, finished, same.trans there.stores.same⟩
  rw [ran, on_to_end_step there.calm 1 stepped, toEnd, on_seq (on_get _), finished]
  rfl

theorem to_end_more {fuel : Nat} {result : Except RuntimeError Bool} {after : Machine σ}
    (ended : (toEnd setup fuel).on machine = (result, after)) (hasEnded : result ≠ .ok false) (more : Nat) :
    (toEnd setup (fuel + more)).on machine = (result, after) := by
  -- Both runs take the same steps until the shorter one has ended; without fuel it has not.
  induction fuel generalizing machine with
  | zero =>
    cases ended
    exact absurd rfl hasEnded
  | succ fuel ih =>
    rw [Nat.add_right_comm]
    rw [toEnd, on_seq (on_get machine)] at ended ⊢
    split at ended
    all_goals first
      | exact ended
      | rw [on_bind] at ended ⊢
        split at ended
        · exact ih ended
        · exact ended

end Run

end BasicLang
