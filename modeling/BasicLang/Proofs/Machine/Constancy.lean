import BasicLang.Proofs.Machine.Activations
import BasicLang.Proofs.Machine.Ownership
import BasicLang.Proofs.Machine.Stepping

set_option autoImplicit false

namespace BasicLang

def Ward.shared (name : String) (value : Value) : Ward := ⟨0, name, .hidden value⟩

theorem Ward.Spares.of_unchanged {σ : Type} {machine : Machine σ} {op : Op} {name : String} {value : Value}
    (unchanged : op.changes name = false) : (Ward.shared name value).Spares machine op where
  name := fun changes => by simp [shared, unchanged] at changes
  parameters := fun _ _ _ _ isLent => nomatch isLent
  home := fun _ _ _ _ _ => Nat.zero_le _

def Expr.calculation : Expr → List Op
  | .literal constant _ => [.pushConst constant.value]
  | .variable name _ => [.pushValue name]
  | .binary operator left right _ => left.calculation ++ (right.calculation ++ [.binary operator])
  | .unary operator operand _ => operand.calculation ++ [operator.op]
  | .grouped inner _ => inner.calculation
  | _ => []

def constantCode (name : String) (value : Expr) : List Op :=
  .dim name (constantType name value) :: .pushRef name :: (value.calculation ++ [.assign])

def Image.Embeds (image : Image) (place : Nat) (ops : List Op) : Prop :=
  ∀ offset op, ops[offset]? = some op → image.Fetches (place + offset) op

namespace Image.Embeds

variable {image : Image} {place : Nat} {op : Op} {ops rest : List Op}

theorem head (embeds : image.Embeds place (op :: ops)) : image.Fetches place op := embeds 0 op rfl

theorem tail (embeds : image.Embeds place (op :: ops)) : image.Embeds (place + 1) ops := by
  intro offset other found
  rw [Nat.add_assoc, Nat.add_comm 1]
  exact embeds (offset + 1) other found

theorem left (embeds : image.Embeds place (ops ++ rest)) : image.Embeds place ops := by
  intro offset other found
  refine embeds offset other ?_
  rw [List.getElem?_append_left (List.getElem?_eq_some_iff.mp found).1]
  exact found

theorem right (embeds : image.Embeds place (ops ++ rest)) : image.Embeds (place + ops.length) rest := by
  intro offset other found
  rw [Nat.add_assoc]
  refine embeds (ops.length + offset) other ?_
  rw [List.getElem?_append_right (Nat.le_add_right _ _), Nat.add_sub_cancel_left]
  exact found

end Image.Embeds

theorem Ty.convert_without_parts {ty : Ty} (scalar : ty.IsScalar) {value result : Value}
    (converted : ty.convert value = .ok result) : result.isScalar = true := by
  rcases scalar with numeric | rfl
  · rcases Ty.numeric_cases numeric with rfl | rfl | rfl | rfl <;> simp only [Ty.convert] at converted
    all_goals
      repeat' split at converted
      all_goals first | cases converted; rfl | cases converted
  · cases value <;> cases converted
    rfl

namespace Store

variable {store : Store} {value : Value}

theorem allocate_scalar (scalar : value.isScalar = true) :
    store.allocate value = (store.size, store.push (.plain value)) := by
  have installed (store : Store) : store.install value = (.plain value, store) := by
    cases value <;> first | rfl | cases scalar
  simp only [allocate, installed, push, put, size]
  refine congrArg (Prod.mk _) (congrArg Store.mk ?_)
  refine Array.ext (by simp) fun place below _ => ?_
  simp only [Array.getElem_push]
  grind

end Store

namespace Machine

variable {σ : Type} {setup : Setup σ} {machine after : Machine σ} {ward : Ward} {name : String} {cell : Cell} {value : Value}

section Changing

theorem Keeps.declared (keeps : machine.Keeps ward none) (there : machine.scopeOf name < machine.scopes.size)
    (waitsNot : machine.pending = none) {item : Value} (scalar : item.isScalar = true) :
    ((machine.allocate item).2.bind name (machine.allocate item).1).Keeps ⟨machine.scopeOf name, name, .hidden item⟩
      (some machine.store.size) := by
  have made : (machine.allocate item).2.bind name (machine.allocate item).1 =
      { machine with
        store := machine.store.push (.plain item)
        scopes := machine.scopes.modify (machine.scopeOf name) fun table => table.set name machine.store.size } := by
    simp only [allocate, Store.allocate_scalar scalar, bind, bindIn]
    rfl
  rw [made]
  have size : (machine.store.push (.plain item)).size = machine.store.size + 1 := Store.size_push _ _
  -- The new cell is bound under the declared name and no other, and every other binding is to an older cell.
  have bound (scope : Nat) (other : String) (found : Cell)
      (isBound : ((machine.scopes.modify (machine.scopeOf name) fun table =>
        table.set name machine.store.size).getD scope []).get? other = some found) :
      found = machine.store.size ∧ scope = machine.scopeOf name ∧ other = name ∨ found < machine.store.size := by
    rw [scopes_modify _ _ _ _ there] at isBound
    by_cases isHome : scope = machine.scopeOf name
    · rw [if_pos isHome, Table.get_set] at isBound
      by_cases isName : other = name
      · rw [if_pos isName] at isBound
        exact .inl ⟨(Option.some.inj isBound).symm, isHome, isName⟩
      · rw [if_neg isName] at isBound
        exact .inr (keeps.scopes _ other found isBound).1
    · rw [if_neg isHome] at isBound
      exact .inr (keeps.scopes scope other found isBound).1
  refine ⟨?_, ?_, ?_, ?_, ?_, ?_, ?_⟩
  · have closed := (Store.allocate_evolves keeps.closed item).closed
    rw [Store.allocate_scalar scalar] at closed
    exact closed
  · intro owner part isPart isKept
    rw [Store.content_push] at isPart
    split at isPart
    · cases isPart
    · obtain rfl := Option.some.inj isKept
      exact Nat.lt_irrefl _ (keeps.closed.parts owner _ isPart)
  · intro other inside
    have old := (keeps.stack other inside).1
    refine ⟨size ▸ Nat.lt_succ_of_lt old, fun isKept => ?_⟩
    obtain rfl := Option.some.inj isKept
    exact absurd old (Nat.lt_irrefl _)
  · intro scope other found isBound
    obtain ⟨rfl, isHome, isName⟩ | old := bound scope other found isBound
    · exact ⟨size ▸ Nat.lt_succ_self _, fun _ => .inl ⟨isHome, isName⟩⟩
    · refine ⟨size ▸ Nat.lt_succ_of_lt old, fun isKept => ?_⟩
      obtain rfl := Option.some.inj isKept
      exact absurd old (Nat.lt_irrefl _)
  · intro pending isPending
    rw [waitsNot] at isPending
    cases isPending
  · simpa using keeps.depth
  · intro found isKept
    obtain rfl := Option.some.inj isKept
    refine ⟨size ▸ Nat.lt_succ_self _, by rw [Store.content_push, if_pos rfl]; rfl, ?_⟩
    rw [scopes_modify _ _ _ _ there, if_pos rfl, Table.get_set_self]

theorem Keeps.assigned {home : Nat} (keeps : machine.Keeps ⟨home, name, .hidden value⟩ (some cell)) {item : Value}
    (scalar : item.isScalar = true) :
    Keeps ⟨home, name, .hidden item⟩ (some cell) { machine with store := machine.store.write cell item } := by
  obtain ⟨below, content, bound⟩ := keeps.holds cell rfl
  have evolves := Store.write_evolves keeps.closed cell item
  have size : (machine.store.write cell item).size = machine.store.size := by
    rw [Store.write_scalar scalar, Store.size_put]
  have contents (other : Cell) : (machine.store.write cell item).content other =
      if other = cell then .plain item else machine.store.content other := by
    rw [Store.write_scalar scalar, Store.content_put _ _ _ _ below]
  have hidden {limit : Nat} {held : Value} : Hold.hidden held ≠ .lent limit := nofun
  refine ⟨evolves.closed, ?_, fun other inside => ?_, fun scope other found isBound => ?_,
    fun pending isPending other isTarget => ?_,
    keeps.depth, fun found isKept => ?_⟩
  · intro owner part isPart
    rw [contents] at isPart
    split at isPart
    · cases isPart
    · exact keeps.parts owner part isPart
  · refine ⟨size.symm ▸ (keeps.stack other inside).1, fun isKept => ?_⟩
    obtain ⟨limit, isLent⟩ := (keeps.stack other inside).2 isKept
    exact absurd isLent hidden
  · refine ⟨size.symm ▸ (keeps.scopes scope other found isBound).1, fun isKept => ?_⟩
    obtain same | ⟨limit, isLent, -⟩ := (keeps.scopes scope other found isBound).2 isKept
    · exact .inl same
    · exact absurd isLent hidden
  · intro isKept
    obtain ⟨limit, isLent⟩ := keeps.waits pending isPending other isTarget isKept
    exact absurd isLent hidden
  · obtain rfl := Option.some.inj isKept
    exact ⟨size.symm ▸ below, by rw [contents, if_pos rfl]; rfl, bound⟩

end Changing

section Advancing

def Advances (setup : Setup σ) (machine after : Machine σ) : Prop :=
  (Run.ready setup machine).frames = machine.frames ∧ (Run.step setup).on machine = (.ok true, after)

inductive Goes (setup : Setup σ) : Nat → Machine σ → Machine σ → Prop where
  | refl (machine : Machine σ) : Goes setup 0 machine machine
  | head {count : Nat} {first second last : Machine σ} (advances : first.Advances setup second)
      (goes : Goes setup count second last) : Goes setup (count + 1) first last

theorem Goes.split {early late : Nat} (goes : Goes setup (early + late) machine after) :
    ∃ between, Goes setup early machine between ∧ Goes setup late between after := by
  induction early generalizing machine with
  | zero => exact ⟨machine, .refl machine, Nat.zero_add late ▸ goes⟩
  | succ early ih =>
    rw [Nat.succ_add] at goes
    cases goes with
    | head advances goes =>
      obtain ⟨between, first, second⟩ := ih goes
      exact ⟨between, .head advances first, second⟩

theorem Goes.one (goes : Goes setup 1 machine after) : machine.Advances setup after := by
  cases goes with
  | head advances goes =>
    cases goes
    exact advances

theorem deliver_without_frame (calm : (Run.deliverEvent machine).frames = machine.frames) :
    ∃ events, Run.deliverEvent machine = { machine with events } := by
  unfold Run.deliverEvent at calm ⊢
  cases waiting : machine.events with
  | nil => exact ⟨machine.events, rfl⟩
  | cons event rest =>
    rw [waiting] at calm
    dsimp only at calm ⊢
    by_cases handles : (machine.frames.any fun frame => frame.kind == .event) = true
    · rw [if_pos handles]
      exact ⟨machine.events, rfl⟩
    · rw [if_neg handles] at calm ⊢
      cases found : machine.handlers.get? event.1 with
      | none => exact ⟨rest, rfl⟩
      | some handler =>
        rw [found] at calm
        exact absurd calm (List.cons_ne_self _ _)

theorem ready_calm (calm : (Run.ready setup machine).frames = machine.frames) :
    ∃ world events notices,
      Run.ready setup machine = { machine with world, events, notices, phase := .running } := by
  obtain ⟨notices, started⟩ := machine.set_phase_only .running
  have polled : ∃ world events, Run.pollEvents setup.devices (machine.setPhase .running) =
      { machine with world, events, notices, phase := .running } := by
    rw [started]
    unfold Run.pollEvents
    split
    · exact ⟨_, _, rfl⟩
    · exact ⟨_, _, rfl⟩
  obtain ⟨world, arrived, polled⟩ := polled
  unfold Run.ready at calm ⊢
  rw [polled] at calm ⊢
  obtain ⟨events, delivered⟩ := deliver_without_frame calm
  exact ⟨world, events, notices, delivered⟩

theorem Advances.going (advances : machine.Advances setup after) : machine.phase = .idle ∨ machine.phase = .running := by
  refine Classical.byContradiction fun still => ?_
  have stepped := advances.2
  rw [Run.on_step_still still] at stepped
  cases stepped

theorem Advances.waits_not (advances : machine.Advances setup after) (orderly : machine.Orderly) :
    machine.pending = none := by
  have goes := advances.going
  have notSuspended : machine.phase ≠ .suspended := by
    rintro suspended
    rw [suspended] at goes
    simp at goes
  simpa using mt orderly.mp notSuspended

theorem Advances.leads {op : Op} (holds : Machine σ → Prop) (advances : machine.Advances setup after)
    (fetches : machine.image.Fetches machine.next op)
    (executes : ∀ world events notices last,
      (Run.execute setup op).on
        { machine with world, events, notices, phase := .running, next := machine.next + 1 } = (.ok (), last) →
        holds last)
    (phased : ∀ (last : Machine σ) phase notices, holds last → holds { last with phase, notices }) : holds after := by
  have goes := advances.going
  obtain ⟨calm, stepped⟩ := advances
  obtain ⟨world, events, notices, ready⟩ := ready_calm calm
  obtain ⟨locus, found⟩ := fetches
  rw [Run.on_step_ready goes, ready, found] at stepped
  dsimp only at stepped
  cases ran : (Run.execute setup op).on
      { machine with world, events, notices, phase := .running, next := machine.next + 1 } with
  | mk result last =>
    rw [ran] at stepped
    cases result with
    | error error => cases stepped
    | ok _ =>
      have held := executes world events notices last ran
      obtain rfl := congrArg Prod.snd stepped
      dsimp only
      split
      · obtain ⟨notices, finished⟩ := last.set_phase_only .finished
        rw [finished]
        exact phased last _ notices held
      · exact held

end Advancing

section Declaring

variable {image : Image} {items : List Value} {base : List StackItem} {place : Nat}

structure Lends (image : Image) (name : String) (cell : Cell) (value : Value) (base : List StackItem) (place : Nat)
    (items : List Value) (machine : Machine σ) : Prop where
  loaded : machine.image = image
  next : machine.next = place
  stack : machine.stack = items.map .value ++ .reference cell :: base
  keeps : Keeps (.shared name value) (some cell) { machine with stack := base }

-- Every operation of a calculation leaves one value more than the values that it leaves alone.
theorem Lends.advance {rest : List Value} {op : Op} (lends : machine.Lends image name cell value base place items)
    (fetches : image.Fetches place op) (advances : machine.Advances setup after)
    (executes : ∀ started last : Machine σ, started.Lends image name cell value base (place + 1) items →
      (Run.execute setup op).on started = (.ok (), last) →
      ∃ item, last.Lends image name cell value base (place + 1) (item :: rest)) :
    ∃ item, after.Lends image name cell value base (place + 1) (item :: rest) := by
  obtain ⟨rfl, rfl, stack, keeps⟩ := lends
  refine advances.leads (fun last => ∃ item, last.Lends _ name cell value base _ (item :: rest)) fetches ?_ ?_
  · intro world events notices last ran
    refine executes _ last ?_ ran
    exact ⟨rfl, rfl, stack, { keeps with }⟩
  · rintro last phase notices ⟨item, led⟩
    exact ⟨item, led.loaded, led.next, led.stack, { led.keeps with }⟩

theorem Lends.restack (lends : machine.Lends image name cell value base place items) (later : List Value) :
    Lends image name cell value base place later
      { machine with stack := later.map .value ++ .reference cell :: base } :=
  ⟨lends.loaded, lends.next, rfl, { lends.keeps with }⟩

theorem Lends.constant {item : Value} (lends : machine.Lends image name cell value base place items)
    (fetches : image.Fetches place (.pushConst item)) (advances : machine.Advances setup after) :
    ∃ item, after.Lends image name cell value base (place + 1) (item :: items) := by
  refine lends.advance fetches advances fun started last lends ran => ⟨item, ?_⟩
  rw [Run.execute, Run.on_push, lends.stack] at ran
  cases ran
  exact lends.restack (item :: items)

theorem Lends.variable {other : String} (lends : machine.Lends image name cell value base place items)
    (fetches : image.Fetches place (.pushValue other)) (advances : machine.Advances setup after) :
    ∃ item, after.Lends image name cell value base (place + 1) (item :: items) := by
  refine lends.advance fetches advances fun started last lends ran => ?_
  have kept := (lends.keeps.ensure other).1
  have same : ∃ scopes store,
      (started.ensureVariable other).2 = { started with scopes, store } ∧
        (ensureVariable { started with stack := base } other).2 = { started with stack := base, scopes, store } := by
    unfold ensureVariable
    have looked : lookup? { started with stack := base } other = started.lookup? other := rfl
    rw [looked]
    cases started.lookup? other with
    | some found => exact ⟨_, _, rfl, rfl⟩
    | none => exact ⟨_, _, rfl, rfl⟩
  obtain ⟨scopes, store, grown, alone⟩ := same
  rw [alone] at kept
  rw [Run.execute, Run.on_seq (Run.on_variable other started), Run.on_seq (Run.on_read _ _), Run.on_push, grown] at ran
  cases ran
  exact ⟨_, lends.loaded, lends.next, congrArg (List.cons _) lends.stack, { kept with }⟩

theorem Lends.binary {operator : BinaryOperator} {left right : Value}
    (lends : machine.Lends image name cell value base place (right :: left :: items))
    (fetches : image.Fetches place (.binary operator)) (advances : machine.Advances setup after) :
    ∃ item, after.Lends image name cell value base (place + 1) (item :: items) := by
  refine lends.advance fetches advances fun started last lends ran => ?_
  rw [Run.execute, Run.on_seq (Run.on_pop_value lends.stack), Run.on_seq (Run.on_pop_value rfl)] at ran
  cases applied : operator.apply left right with
  | error fault =>
    rw [applied] at ran
    cases ran
  | ok item =>
    rw [applied] at ran
    cases ran
    exact ⟨item, lends.restack (item :: items)⟩

theorem Lends.unary {operator : UnaryOperator} {operand : Value}
    (lends : machine.Lends image name cell value base place (operand :: items))
    (fetches : image.Fetches place operator.op) (advances : machine.Advances setup after) :
    ∃ item, after.Lends image name cell value base (place + 1) (item :: items) := by
  refine lends.advance fetches advances fun started last lends ran => ?_
  have pushed (found : Except ArithmeticFault Value)
      (ran : (do Run.push (← Run.ofArithmetic found) : Run σ Unit).on
        { started with stack := items.map .value ++ .reference cell :: base } = (.ok (), last)) :
      ∃ item, last.Lends image name cell value base (place + 1) (item :: items) := by
    cases found with
    | error fault => cases ran
    | ok item =>
      cases ran
      exact ⟨item, lends.restack (item :: items)⟩
  cases operator with
  | negate =>
    rw [UnaryOperator.op, Run.execute, Run.on_seq (Run.on_pop_value lends.stack)] at ran
    exact pushed _ ran
  | not =>
    rw [UnaryOperator.op, Run.execute, Run.on_seq (Run.on_pop_value lends.stack)] at ran
    exact pushed _ ran

theorem Lends.calculates (expr : Expr) (scalar : expr.isScalar = true) {items : List Value} {place : Nat}
    {machine after : Machine σ} (lends : machine.Lends image name cell value base place items)
    (embeds : image.Embeds place expr.calculation) (goes : Goes setup expr.calculation.length machine after) :
    ∃ item, after.Lends image name cell value base (place + expr.calculation.length) (item :: items) := by
  cases expr with
  | literal constant info => exact lends.constant embeds.head goes.one
  | «variable» other info => exact lends.variable embeds.head goes.one
  | binary operator left right info =>
    rw [Expr.isScalar, Bool.and_eq_true] at scalar
    rw [Expr.calculation, List.length_append] at goes
    obtain ⟨between, first, goes⟩ := goes.split
    rw [List.length_append] at goes
    obtain ⟨second, next, last⟩ := goes.split
    obtain ⟨leftItem, lends⟩ := Lends.calculates left scalar.1 lends embeds.left first
    obtain ⟨rightItem, lends⟩ := Lends.calculates right scalar.2 lends embeds.right.left next
    obtain ⟨item, lends⟩ := lends.binary embeds.right.right.head last.one
    refine ⟨item, ?_⟩
    simpa [Expr.calculation, Nat.add_assoc] using lends
  | unary operator operand info =>
    rw [Expr.calculation, List.length_append] at goes
    obtain ⟨between, first, last⟩ := goes.split
    obtain ⟨held, lends⟩ := Lends.calculates operand scalar lends embeds.left first
    obtain ⟨item, lends⟩ := lends.unary embeds.right.head last.one
    refine ⟨item, ?_⟩
    simpa [Expr.calculation, Nat.add_assoc] using lends
  | grouped inner info => exact Lends.calculates inner scalar lends embeds goes
  | apply name arguments callee info => cases scalar
  | member object name info => cases scalar

structure Settles (image : Image) (name : String) (cell : Cell) (value : Value) (place : Nat) (machine : Machine σ) :
    Prop where
  loaded : machine.image = image
  next : machine.next = place
  keeps : machine.Keeps (.shared name value) (some cell)

theorem Settles.phased {machine : Machine σ} (settles : machine.Settles image name cell value place) (phase : Phase)
    (notices : List Notice) : Settles image name cell value place { machine with phase, notices } :=
  ⟨settles.loaded, settles.next, { settles.keeps with }⟩

theorem Keeps.declares {ty : Ty} (keeps : machine.Keeps ward none) (orderly : machine.Orderly)
    (isShared : name ∈ machine.image.shared) (scalar : ty.IsScalar)
    (fetches : machine.image.Fetches machine.next (.dim name ty)) (advances : machine.Advances setup after) :
    ∃ cell, after.Settles machine.image name cell ty.default (machine.next + 1) := by
  have waitsNot := advances.waits_not orderly
  have simple : ty.default.isScalar = true := by
    rcases scalar with numeric | rfl
    · rcases Ty.numeric_cases numeric with rfl | rfl | rfl | rfl <;> rfl
    · rfl
  refine ⟨machine.store.size, advances.leads _ fetches (fun world events notices last ran => ?_)
    fun last phase notices settles => settles.phased phase notices⟩
  rw [Run.execute, Run.declare, Run.on_modify] at ran
  cases ran
  have started : Keeps ward none
      { machine with world, events, notices, phase := .running, next := machine.next + 1 } := { keeps with }
  have inMain : machine.scopeOf name = 0 := by simp [scopeOf, isShared]
  have there : machine.scopeOf name < machine.scopes.size := by
    rw [inMain, keeps.depth]
    exact Nat.succ_pos _
  have declared := started.declared there waitsNot simple
  refine ⟨rfl, rfl, ?_⟩
  rw [Ward.shared, ← inMain]
  exact declared

theorem Settles.lends (settles : machine.Settles image name cell value place) (isShared : name ∈ image.shared)
    (fetches : image.Fetches place (.pushRef name)) (advances : machine.Advances setup after) :
    ∃ base, after.Lends image name cell value base (place + 1) [] := by
  obtain ⟨rfl, rfl, keeps⟩ := settles
  refine ⟨machine.stack, advances.leads _ fetches (fun world events notices last ran => ?_) fun last phase notices led => ?_⟩
  · obtain ⟨-, -, bound⟩ := keeps.holds cell rfl
    have found : lookup? { machine with world, events, notices, phase := .running, next := machine.next + 1 } name =
        some cell := by
      rw [lookup?, scopeOf, if_pos (by simpa using isShared)]
      exact bound
    rw [Run.execute, Run.on_seq (Run.on_variable name _), Run.on_push_reference, ensureVariable, found] at ran
    cases ran
    exact ⟨rfl, rfl, rfl, { keeps with }⟩
  · exact ⟨led.loaded, led.next, led.stack, { led.keeps with }⟩

theorem Lends.settles {item : Value} (lends : machine.Lends image name cell value base place [item])
    (scalar : value.ty.IsScalar) (fetches : image.Fetches place .assign) (advances : machine.Advances setup after) :
    ∃ held, after.Settles image name cell held (place + 1) := by
  obtain ⟨rfl, rfl, stack, keeps⟩ := lends
  refine advances.leads (fun last => ∃ held, last.Settles machine.image name cell held (machine.next + 1)) fetches
    (fun world events notices last ran => ?_) ?_
  · have typed : machine.store.ty cell = value.ty := by
      have content : machine.store.content cell = .plain value := (keeps.holds cell rfl).2.1
      rw [Store.ty, content]
      rfl
    have present : value.ty ≠ .null := by
      intro isNull
      rw [isNull] at scalar
      simp [Ty.IsScalar, Ty.isNumeric, Ty.numericRank?] at scalar
    have top : Machine.stack { machine with world, events, notices, phase := .running, next := machine.next + 1 } =
        .value item :: .reference cell :: base := stack
    rw [Run.execute, Run.on_seq (Run.on_pop_value top), Run.on_seq (Run.on_pop_reference rfl), Run.assign,
      Run.on_seq (Run.on_get _)] at ran
    dsimp only at ran
    rw [typed, if_neg present] at ran
    cases converted : value.ty.convert item with
    | error fault =>
      rw [converted] at ran
      cases ran
    | ok held =>
      rw [converted] at ran
      cases ran
      have assigned := keeps.assigned (Ty.convert_without_parts scalar converted)
      exact ⟨held, rfl, rfl, { assigned with }⟩
  · rintro last phase notices ⟨held, settles⟩
    exact ⟨held, settles.phased phase notices⟩

theorem Keeps.constant {expr : Expr} (keeps : machine.Keeps ward none) (orderly : machine.Orderly)
    (isShared : name ∈ machine.image.shared) (calculates : expr.isScalar = true)
    (scalar : (constantType name expr).IsScalar)
    (embeds : machine.image.Embeds machine.next (constantCode name expr))
    (goes : Goes setup (constantCode name expr).length machine after) :
    ∃ cell held, after.Settles machine.image name cell held (machine.next + (constantCode name expr).length) := by
  have length : (constantCode name expr).length = 1 + (1 + (expr.calculation.length + 1)) := by
    simp only [constantCode, List.length_cons, List.length_append, List.length_nil]
    omega
  rw [length] at goes
  obtain ⟨declared, first, goes⟩ := goes.split
  obtain ⟨lent, second, goes⟩ := goes.split
  obtain ⟨calculated, calculation, last⟩ := goes.split
  obtain ⟨cell, settles⟩ := keeps.declares orderly isShared scalar embeds.head first.one
  obtain ⟨base, lends⟩ := settles.lends isShared embeds.tail.head second.one
  obtain ⟨item, lends⟩ := Lends.calculates expr calculates lends embeds.tail.tail.left calculation
  obtain ⟨held, settles⟩ := lends.settles (scalar.default_ty.symm ▸ scalar) embeds.tail.tail.right.head last.one
  refine ⟨cell, held, ?_⟩
  rw [length]
  simpa only [Nat.add_assoc] using settles

end Declaring

end Machine

namespace Run

variable {σ : Type} {setup : Setup σ} {image : Image}

theorem step_image : Upholds (fun machine => machine.image = image) (step setup) := by
  intro machine loaded
  by_cases goes : machine.phase = .idle ∨ machine.phase = .running
  · have started : (ready setup machine).image = image := (ready_waits setup machine).2.2.trans loaded
    generalize stepped : ((step setup).on machine).2 = after
    obtain ⟨-, same⟩ | ⟨instruction, -, ⟨_, _, same⟩ | ⟨control, phase, leads, same⟩⟩ := step_control goes stepped
    · exact (congrArg Control.image same).trans started
    · exact (congrArg Control.image same).trans started
    · exact (congrArg Control.image same).trans (leads.handlers.1.trans started)
  · rw [on_step_still goes]
    exact loaded

theorem resume_image (reply : Except DeviceError Reply) :
    Upholds (fun machine => machine.image = image) (resume reply : Run σ Unit) := by
  intro machine loaded
  cases waits : machine.pending with
  | none =>
    rw [on_resume_nothing waits]
    exact loaded
  | some pending =>
    have resumed := meets_resumed (preserved_control { machine.control with pending := none }) reply waits rfl
      (fun _ _ => trivial) fun _ _ _ _ held => held
    rw [Meets] at resumed
    cases ran : (resume reply).on machine with
    | mk result after =>
      rw [ran] at resumed
      cases result with
      | ok _ =>
        obtain ⟨last, same, rfl⟩ := resumed
        obtain ⟨notices, started⟩ := last.set_phase_only .running
        rw [started]
        exact (congrArg Control.image same).trans loaded
      | error error =>
        obtain ⟨last, same, rfl⟩ := resumed
        exact (congrArg Control.image same).trans loaded

end Run

namespace Machine

variable {σ : Type} {setup : Setup σ} {spared : Machine σ → Prop} {first last : Machine σ}

inductive Onward (setup : Setup σ) (spared : Machine σ → Prop) (first : Machine σ) : Machine σ → Prop where
  | refl : Onward setup spared first first
  | step {last : Machine σ} (onward : Onward setup spared first last) (isSpared : spared last) :
      Onward setup spared first ((Run.step setup).on last).2
  | resume {last : Machine σ} (onward : Onward setup spared first last) (reply : Except DeviceError Reply) :
      Onward setup spared first ((Run.resume reply).on last).2
  | service {last : Machine σ} (onward : Onward setup spared first last) :
      Onward setup spared first ((Run.service setup).on last).2
  | dispatch {last : Machine σ} (onward : Onward setup spared first last) (key data : String) :
      Onward setup spared first ((Run.dispatch key data).on last).2

theorem Onward.holds (onward : Onward setup spared first last) (holds : Machine σ → Prop) (held : holds first)
    (steps : ∀ machine, holds machine → spared machine → holds ((Run.step setup).on machine).2)
    (replies : ∀ reply, Run.Upholds holds (Run.resume reply))
    (outside : ∀ machine world events, holds machine → holds { machine with world, events }) : holds last := by
  induction onward with
  | refl => exact held
  | step _ isSpared ih => exact steps _ ih isSpared
  | resume _ reply ih => exact replies reply _ ih
  | service _ ih => exact Run.upholds_service (fun machine world => outside machine world machine.events) replies _ ih
  | dispatch _ key data ih => exact outside _ _ _ ih

theorem Keeps.onward {name : String} {kept : Option Cell} {value : Value} (keeps : first.Keeps (.shared name value) kept)
    (spares : ∀ machine : Machine σ, spared machine → ∀ instruction,
      first.image.instructions[(Run.ready setup machine).next]? = some instruction → instruction.op.changes name = false)
    (onward : Onward setup spared first last) : last.Keeps (.shared name value) kept ∧ last.image = first.image := by
  refine onward.holds (fun machine => machine.Keeps (.shared name value) kept ∧ machine.image = first.image)
    ⟨keeps, rfl⟩ ?_ ?_ ?_
  · rintro machine ⟨keeps, loaded⟩ isSpared
    refine ⟨Run.step_keeps keeps fun instruction found _ => ?_, Run.step_image _ loaded⟩
    exact .of_unchanged (spares machine isSpared instruction (loaded ▸ found))
  · exact fun reply machine both => ⟨Run.resume_keeps reply _ both.1, Run.resume_image reply _ both.2⟩
  · exact fun machine world events both => ⟨{ both.1 with }, both.2⟩

end Machine

end BasicLang
