import BasicLang.Machine.Execute
import BasicLang.Proofs.Evaluation
import BasicLang.Proofs.Machine.Storage

set_option autoImplicit false

namespace BasicLang

theorem Machine.flushes_perm {σ : Type} (machine : Machine σ) (devices : Devices σ) :
    (machine.flushes devices).Perm machine.files.flushes := devices.drain.perm _ _

theorem Machine.flushes_eq_nil_iff {σ : Type} (machine : Machine σ) (devices : Devices σ) :
    machine.flushes devices = [] ↔ machine.files.flushes = [] := by
  rw [← List.length_eq_zero_iff, (machine.flushes_perm devices).length_eq, List.length_eq_zero_iff]

namespace Run

variable {σ α β : Type}

/-- The result of an action on a machine, and the machine afterwards. -/
def on (action : Run σ α) (machine : Machine σ) : Except RuntimeError α × Machine σ := action.run machine

theorem on_bind (first : Run σ α) (next : α → Run σ β) (machine : Machine σ) :
    (first >>= next).on machine =
      match first.on machine with
      | (.ok result, after) => (next result).on after
      | (.error error, after) => (.error error, after) := by
  have unfolded : (first >>= next).on machine =
      (ExceptT.bindCont next (first.on machine).1).run (first.on machine).2 := rfl
  rw [unfolded]
  obtain ⟨result | result, after⟩ := first.on machine <;> rfl

theorem on_seq {first : Run σ α} {next : α → Run σ β} {machine after : Machine σ} {result : α}
    (ran : first.on machine = (.ok result, after)) :
    (first >>= next).on machine = (next result).on after := by
  rw [on_bind, ran]

theorem on_stop {first : Run σ α} {next : α → Run σ β} {machine after : Machine σ} {error : RuntimeError}
    (failed : first.on machine = (.error error, after)) :
    (first >>= next).on machine = (.error error, after) := by
  rw [on_bind, failed]

theorem on_catch (action : Run σ α) (handle : RuntimeError → Run σ α) (machine : Machine σ) :
    Run.on (tryCatch action handle) machine =
      match action.on machine with
      | (.ok result, after) => (.ok result, after)
      | (.error error, after) => (handle error).on after := by
  simp only [on, ExceptT.run, tryCatch, tryCatchThe, MonadExceptOf.tryCatch, ExceptT.tryCatch, ExceptT.mk,
    bind, StateT.bind]
  obtain ⟨result | result, after⟩ := action machine <;> rfl

theorem on_get (machine : Machine σ) : (get : Run σ (Machine σ)).on machine = (.ok machine, machine) := rfl

theorem on_modify (change : Machine σ → Machine σ) (machine : Machine σ) :
    (modify change : Run σ Unit).on machine = (.ok (), change machine) := rfl

theorem on_push (value : Value) (machine : Machine σ) :
    (push value : Run σ Unit).on machine =
      (.ok (), { machine with stack := .value value :: machine.stack }) := rfl

theorem on_push_reference (cell : Cell) (machine : Machine σ) :
    (pushReference cell : Run σ Unit).on machine =
      (.ok (), { machine with stack := .reference cell :: machine.stack }) := rfl

theorem on_read (cell : Cell) (machine : Machine σ) :
    (readCell cell : Run σ Value).on machine = (.ok (machine.store.read cell), machine) := rfl

theorem on_variable (name : String) (machine : Machine σ) :
    (variableCell name : Run σ Cell).on machine =
      (.ok (machine.ensureVariable name).1, (machine.ensureVariable name).2) := rfl

variable {machine : Machine σ} {stack : List StackItem}

theorem on_pop {item : StackItem} (top : machine.stack = item :: stack) :
    (pop : Run σ StackItem).on machine = (.ok item, { machine with stack }) := by
  rw [pop, on_seq (on_get machine), top]
  rfl

theorem on_pop_value {value : Value} (top : machine.stack = .value value :: stack) :
    (popValue : Run σ Value).on machine = (.ok value, { machine with stack }) := by
  rw [popValue, on_seq (on_pop top)]
  rfl

theorem on_pop_reference {cell : Cell} (top : machine.stack = .reference cell :: stack) :
    (popReference : Run σ Cell).on machine = (.ok cell, { machine with stack }) := by
  rw [popReference, on_seq (on_pop top)]
  rfl

def straight (setup : Setup σ) (ops : List Op) : Run σ Unit := ops.forM (execute setup)

theorem straight_append (setup : Setup σ) (first second : List Op) :
    straight setup (first ++ second) = straight setup first >>= fun _ => straight setup second :=
  List.forM_append

theorem straight_one (setup : Setup σ) (op : Op) : straight setup [op] = execute setup op := by
  simp [straight]

end Run

namespace Machine

variable {σ : Type} {machine after : Machine σ}

def environment (machine : Machine σ) : Environment where
  value? := fun name => (machine.lookup? name).map machine.store.read
  implicitType := machine.implicitType

/-- The cells of all variables are there, and the routine has variables of its own. -/
structure Sound (machine : Machine σ) : Prop where
  closed : machine.store.Closed
  cells : ∀ scope name cell, (machine.scopes.getD scope []).get? name = some cell → cell < machine.store.size
  scope : machine.scope < machine.scopes.size

theorem create_sound (world : σ) : (create world).Sound := by
  have nothing (cell : Cell) : (create world).store.content cell = .plain .null :=
    Store.content_of_ge (Nat.zero_le cell)
  refine ⟨⟨fun cell part found => ?_, fun cell => ?_⟩, fun scope name cell found => ?_, Nat.zero_lt_one⟩
  · rw [nothing] at found
    cases found
  · rw [nothing]
    rfl
  · cases scope <;> cases found

structure Extends (machine after : Machine σ) : Prop where
  rest : after = { machine with stack := after.stack, scopes := after.scopes, store := after.store }
  store : machine.store.Extends after.store
  kept : ∀ scope name cell, (machine.scopes.getD scope []).get? name = some cell →
    (after.scopes.getD scope []).get? name = some cell

theorem Extends.refl (machine : Machine σ) : machine.Extends machine :=
  ⟨rfl, .refl _, fun _ _ _ found => found⟩

theorem Extends.trans {last : Machine σ} (early : machine.Extends after) (late : after.Extends last) :
    machine.Extends last := by
  refine ⟨?_, early.store.trans late.store, fun scope name cell found =>
    late.kept scope name cell (early.kept scope name cell found)⟩
  rw [late.rest, early.rest]

theorem Extends.stack (extends_ : machine.Extends after) (stack : List StackItem) :
    machine.Extends { after with stack } :=
  ⟨by rw [extends_.rest], extends_.store, extends_.kept⟩

theorem Sound.stack (sound : machine.Sound) (stack : List StackItem) : Sound { machine with stack } :=
  ⟨sound.closed, sound.cells, sound.scope⟩

structure Reaches (machine : Machine σ) (cell : Cell) (value : Value) (environment : Environment)
    (after : Machine σ) : Prop where
  extends_ : machine.Extends after
  sound : after.Sound
  same : after.environment = environment
  stack : after.stack = machine.stack
  below : cell < after.store.size
  read : after.store.read cell = value

theorem Sound.scope_of (sound : machine.Sound) (name : String) :
    machine.scopeOf name < machine.scopes.size := by
  unfold scopeOf
  split
  · exact Nat.lt_of_le_of_lt (Nat.zero_le _) sound.scope
  · exact sound.scope

theorem scopes_modify (scopes : Array (Table Cell)) (scope other : Nat) (change : Table Cell → Table Cell)
    (below : scope < scopes.size) :
    (scopes.modify scope change).getD other [] =
      if other = scope then change (scopes.getD scope []) else scopes.getD other [] := by
  rw [Array.getD_eq_getD_getElem?, Array.getD_eq_getD_getElem?, Array.getD_eq_getD_getElem?,
    Array.getElem?_modify]
  by_cases same : scope = other
  · subst same
    simp [below]
  · rw [if_neg same, if_neg (Ne.symm same)]

section Bind

variable {name : String} {value : Value} {cell : Cell} {store : Store}

theorem bind_scopes (sound : machine.Sound) (store : Store) (name : String) (cell : Cell) (scope : Nat) :
    (({ machine with store }.bind name cell).scopes.getD scope []) =
      if scope = machine.scopeOf name then (machine.scopes.getD (machine.scopeOf name) []).set name cell
      else machine.scopes.getD scope [] :=
  scopes_modify _ _ _ _ (sound.scope_of name)

theorem bind_lookup (sound : machine.Sound) (store : Store) (name : String) (cell : Cell) (other : String) :
    ({ machine with store }.bind name cell).lookup? other =
      if other = name then some cell else machine.lookup? other := by
  show (({ machine with store }.bind name cell).scopes.getD (machine.scopeOf other) []).get? other = _
  rw [bind_scopes sound]
  by_cases same : machine.scopeOf other = machine.scopeOf name
  · rw [if_pos same, Table.get_set, lookup?, same]
  · rw [if_neg same, if_neg fun isName => same (by rw [isName])]
    rfl

theorem bind_sound (sound : machine.Sound)
    (allocates : Store.Allocates machine.store [value] [cell] store) :
    ({ machine with store }.bind name cell).Sound := by
  refine ⟨allocates.closed, ?_, ?_⟩
  · intro scope other found isThere
    rw [bind_scopes sound] at isThere
    by_cases here : scope = machine.scopeOf name ∧ other = name
    · rw [if_pos here.1, Table.get_set, if_pos here.2] at isThere
      rw [← Option.some.inj isThere]
      exact (allocates.fresh cell List.mem_cons_self).2
    · have old : (machine.scopes.getD scope []).get? other = some found := by
        by_cases same : scope = machine.scopeOf name
        · rw [if_pos same, Table.get_set, if_neg fun isName => here ⟨same, isName⟩, ← same] at isThere
          exact isThere
        · rw [if_neg same] at isThere
          exact isThere
      exact Nat.lt_of_lt_of_le (sound.cells scope other found old) allocates.extends_.size
  · show machine.scope < (machine.scopes.modify _ _).size
    rw [Array.size_modify]
    exact sound.scope

theorem bind_environment (sound : machine.Sound)
    (allocates : Store.Allocates machine.store [value] [cell] store) :
    ({ machine with store }.bind name cell).environment = machine.environment.set name value := by
  unfold environment Environment.set
  congr 1
  funext other
  rw [bind_lookup sound]
  by_cases same : other = name
  · rw [if_pos same, if_pos same]
    exact congrArg some allocates.read
  · rw [if_neg same, if_neg same]
    dsimp only
    cases found : machine.lookup? other with
    | none => rfl
    | some old =>
      exact congrArg some (allocates.extends_.read sound.closed (sound.cells _ other old found))

theorem bind_fresh (sound : machine.Sound) (absent : machine.lookup? name = none)
    (allocates : Store.Allocates machine.store [value] [cell] store) :
    machine.Reaches cell value (machine.environment.set name value)
      ({ machine with store }.bind name cell) := by
  have kept (scope : Nat) (other : String) (found : Cell)
      (isThere : (machine.scopes.getD scope []).get? other = some found) :
      (({ machine with store }.bind name cell).scopes.getD scope []).get? other = some found := by
    rw [bind_scopes sound]
    by_cases same : scope = machine.scopeOf name
    · rw [if_pos same, Table.get_set, if_neg, ← same]
      · exact isThere
      · rintro rfl
        rw [same] at isThere
        exact absurd (absent.symm.trans isThere) (fun impossible => nomatch impossible)
    · rw [if_neg same]
      exact isThere
  exact
    { extends_ := ⟨rfl, allocates.extends_, kept⟩
      sound := bind_sound sound allocates
      same := bind_environment sound allocates
      stack := rfl
      below := (allocates.fresh cell List.mem_cons_self).2
      read := allocates.read }

end Bind

theorem lookup_reaches {name : String} {cell : Cell} (sound : machine.Sound)
    (found : machine.lookup? name = some cell) :
    machine.Reaches cell (machine.store.read cell) machine.environment machine :=
  ⟨.refl _, sound, rfl, rfl, sound.cells _ name cell found, rfl⟩

theorem ensure_variable_reaches (sound : machine.Sound) (name : String) :
    machine.Reaches (machine.ensureVariable name).1
      (machine.environment.fetch name (machine.implicitType name).default).1
      (machine.environment.fetch name (machine.implicitType name).default).2
      (machine.ensureVariable name).2 := by
  unfold ensureVariable Environment.fetch
  cases found : machine.lookup? name with
  | some cell =>
    have recalled : machine.environment.value? name = some (machine.store.read cell) := by
      simp [environment, found]
    rw [recalled]
    exact lookup_reaches sound found
  | none =>
    have recalled : machine.environment.value? name = none := by simp [environment, found]
    rw [recalled]
    exact bind_fresh sound found (Store.allocate_spec sound.closed _)

theorem array_cell_reaches (sound : machine.Sound) (name : String) (element : Ty) (rank : Nat) :
    match (machine.environment.fetch name (Ty.array element rank).default).1.expectArray name with
    | .error fault => (Run.arrayCell name element rank).on machine = (.error (.ofFault fault), machine)
    | .ok () => ∃ cell after, (Run.arrayCell name element rank).on machine = (.ok cell, after) ∧
        machine.Reaches cell (machine.environment.fetch name (Ty.array element rank).default).1
          (machine.environment.fetch name (Ty.array element rank).default).2 after := by
  unfold Run.arrayCell Environment.fetch
  rw [Run.on_seq (Run.on_get machine)]
  cases found : machine.lookup? name with
  | none =>
    have recalled : machine.environment.value? name = none := by simp [environment, found]
    rw [recalled]
    exact ⟨_, _, rfl, bind_fresh sound found (Store.allocate_array_spec sound.closed _ _ _)⟩
  | some cell =>
    have recalled : machine.environment.value? name = some (machine.store.read cell) := by
      simp [environment, found]
    rw [recalled]
    dsimp only
    rw [Run.on_seq (Run.on_get machine), Value.expectArray, Value.typeName, Store.read_ty, Store.ty]
    cases content : machine.store.content cell with
    | array held grid => exact ⟨cell, machine, rfl, lookup_reaches sound found⟩
    | plain value =>
      have simple := sound.closed.plain cell
      rw [content] at simple
      cases value <;> first | rfl | cases simple
    | record title members fields => exact rfl

end Machine

end BasicLang
