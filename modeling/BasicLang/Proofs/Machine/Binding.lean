import BasicLang.Proofs.Machine.Leaving
import BasicLang.Proofs.Machine.Storage

set_option autoImplicit false

namespace BasicLang

def Ty.taken (ty : Ty) (value : Value) : Except ValueFault Value := if ty = .any then .ok value else ty.convert value

structure Parcel where
  name : String
  ty : Ty
  item : StackItem

namespace Parcel

def op (parcel : Parcel) : Op := .popParam parcel.name parcel.ty

def Fits (parcel : Parcel) : Prop := ∀ value, parcel.item = .value value → ∃ held, parcel.ty.taken value = .ok held

/-- The cell of a parameter: the one that it shares, or a new one that holds the value as one of its type. -/
def Held (parcel : Parcel) (before later : Store) (cell : Cell) : Prop :=
  match parcel.item with
  | .reference own => cell = own
  | .value value => before.size ≤ cell ∧ ∃ held, parcel.ty.taken value = .ok held ∧ later.read cell = held

theorem Held.later {before store later : Store} {cell : Cell} {parcel : Parcel} (held : parcel.Held before store cell)
    (more : store.Extends later) (closed : store.Closed) (below : cell < store.size) : parcel.Held before later cell := by
  unfold Held at held ⊢
  split
  · next passed =>
    rw [passed] at held
    exact held
  · next passed =>
    rw [passed] at held
    obtain ⟨new, value, taken, read⟩ := held
    exact ⟨new, value, taken, (more.read closed below).trans read⟩

end Parcel

namespace Run

variable {σ : Type} {setup : Setup σ} {machine : Machine σ} {rest : List StackItem} {name : String} {ty : Ty} {cell : Cell}
  {value held : Value} {fault : ValueFault} {place : Nat}

theorem on_bind_shared (top : machine.stack = .reference cell :: rest) : (execute setup (.popParam name ty)).on machine =
    (.ok (), { machine with stack := rest }.bindIn machine.scope name cell) := by
  rw [execute, bindParameter, on_seq (on_pop top)]
  rfl

theorem on_bind_value (top : machine.stack = .value value :: rest) (taken : ty.taken value = .ok held) :
    (execute setup (.popParam name ty)).on machine =
      (.ok (), { machine with stack := rest, store := (machine.store.allocate held).2 }.bindIn machine.scope name
        (machine.store.allocate held).1) := by
  rw [execute, bindParameter, on_seq (on_pop top)]
  unfold Ty.taken at taken
  dsimp only
  split at taken
  · next isAny =>
    cases taken
    rw [if_pos isAny]
    rfl
  · next typed =>
    rw [if_neg typed, taken]
    rfl

theorem on_bind_refused (top : machine.stack = .value value :: rest) (refused : ty.taken value = .error fault) :
    ∃ error after, (execute setup (.popParam name ty)).on machine = (.error error, after) := by
  rw [execute, bindParameter, on_seq (on_pop top)]
  unfold Ty.taken at refused
  dsimp only
  split at refused
  · cases refused
  · next typed =>
    rw [if_neg typed, refused]
    exact ⟨_, _, rfl⟩

theorem on_call (room : machine.frames.length < setup.maxDepth) :
    (execute setup (.call (.resolved place))).on machine =
      (.ok (), { machine with
        next := place
        frames := ⟨.call, machine.next, machine.scopes.size⟩ :: machine.frames
        scopes := machine.scopes.push [] }) := by
  have entered : (enter setup .call machine.scopes.size : Run σ Unit).on machine =
      (.ok (), { machine with frames := ⟨.call, machine.next, machine.scopes.size⟩ :: machine.frames }) := by
    rw [enter, on_seq (on_get machine), if_neg (Nat.not_le_of_lt room)]
    rfl
  rw [execute, call, on_seq (on_get machine), on_seq entered]
  rfl

theorem on_call_full (full : setup.maxDepth ≤ machine.frames.length) :
    ∃ error after, (execute setup (.call (.resolved place))).on machine = (.error error, after) := by
  rw [execute, call, on_seq (on_get machine), enter, bind_assoc, on_seq (on_get machine), if_pos full]
  exact ⟨_, _, rfl⟩

end Run

theorem modified_last {α : Type} (items : Array α) (last : α) (change : α → α) :
    (items.push last).modify items.size change = items.push (change last) := by
  apply Array.ext_getElem?
  intro index
  rw [Array.getElem?_modify, Array.getElem?_push, Array.getElem?_push]
  by_cases isLast : index = items.size
  · simp [isLast]
  · simp [isLast, Ne.symm isLast]

namespace Machine

variable {σ : Type} {setup : Setup σ} {origin machine after : Machine σ} {first : Nat} {rest : List StackItem}
  {done left : List Parcel} {parcel : Parcel} {table : Table Cell} {cell : Cell}

/-- A call binds its parameters. Those that are done have their cells, and nothing else is in the scope. -/
structure Binding (origin : Machine σ) (first : Nat) (rest : List StackItem) (done left : List Parcel) (table : Table Cell)
    (machine : Machine σ) : Prop where
  image : machine.image = origin.image
  running : machine.phase = .running
  next : machine.next = first + done.length
  frames : machine.frames = ⟨.call, origin.next + 1, origin.scopes.size⟩ :: origin.frames
  scopes : machine.scopes = origin.scopes.push table
  stack : machine.stack = left.map Parcel.item ++ rest
  store : origin.store.Extends machine.store
  closed : machine.store.Closed
  cells : ∀ name cell, table.get? name = some cell → cell < machine.store.size
  -- The new cells have one name each.
  alone : ∀ name other cell, origin.store.size ≤ cell → table.get? name = some cell → table.get? other = some cell →
    name = other
  names : ∀ name, (∃ cell, table.get? name = some cell) ↔ name ∈ done.map Parcel.name
  held : ∀ parcel ∈ done, ∃ cell, table.get? parcel.name = some cell ∧ parcel.Held origin.store machine.store cell
  -- What is to come.
  code : origin.image.Embeds machine.next (left.map Parcel.op)
  inside : machine.next + left.length < origin.image.instructions.size
  distinct : ((done ++ left).map Parcel.name).Nodup
  shared : ∀ parcel ∈ left, ∀ cell, parcel.item = .reference cell → cell < origin.store.size

theorem Binding.bind {later : Store} (binding : Binding origin first rest done (parcel :: left) table machine)
    (more : machine.store.Extends later) (closed : later.Closed) (below : cell < later.size)
    (isNew : origin.store.size ≤ cell → machine.store.size ≤ cell) (held : parcel.Held origin.store later cell)
    (world : σ) (events : List (String × String)) (notices : List Notice) :
    Binding origin first rest (done ++ [parcel]) left (table.set parcel.name cell)
      { machine with
        world, events, notices, phase := .running, store := later, stack := left.map Parcel.item ++ rest
        next := machine.next + 1
        scopes := machine.scopes.modify machine.scope fun table => table.set parcel.name cell } where
  image := binding.image
  running := rfl
  next := by simp [binding.next, Nat.add_assoc]
  frames := binding.frames
  scopes := by
    have scope : machine.scope = origin.scopes.size := by rw [scope, binding.frames]; rfl
    dsimp only
    rw [scope, binding.scopes, modified_last]
  stack := rfl
  store := binding.store.trans more
  closed := closed
  cells := fun name other found => by
    rw [Table.get_set] at found
    split at found
    · exact Option.some.inj found ▸ below
    · exact Nat.lt_of_lt_of_le (binding.cells name other found) more.size
  alone := fun name other found new isName isOther => by
    rw [Table.get_set] at isName isOther
    split at isName <;> split at isOther
    · next same alike => rw [same, alike]
    · -- No older cell is the new one.
      obtain rfl := Option.some.inj isName
      exact absurd (binding.cells other _ isOther) (Nat.not_lt.mpr (isNew new))
    · obtain rfl := Option.some.inj isOther
      exact absurd (binding.cells name _ isName) (Nat.not_lt.mpr (isNew new))
    · exact binding.alone name other found new isName isOther
  names := fun name => by
    rw [Table.get_set, List.map_append, List.mem_append, ← binding.names]
    split
    · next same => simp [same]
    · next different => simp [different]
  held := by
    have apart : ∀ older ∈ done, older.name ≠ parcel.name := fun older inside same => by
      have distinct := binding.distinct
      rw [List.map_append, List.nodup_append] at distinct
      exact distinct.2.2 _ (List.mem_map_of_mem inside) _ List.mem_cons_self same
    refine List.forall_mem_append.mpr
      ⟨fun older inside => ?_, List.forall_mem_singleton.mpr ⟨cell, Table.get_set_self _ _ _, held⟩⟩
    obtain ⟨own, isOwn, held⟩ := binding.held older inside
    exact ⟨own, (Table.get_set_other _ _ _ _ (apart older inside)).trans isOwn,
      held.later more binding.closed (binding.cells _ _ isOwn)⟩
  code := binding.code.tail
  inside := by
    have inside := binding.inside
    simp only [List.length_cons] at inside ⊢
    omega
  distinct := by
    rw [List.append_assoc]
    exact binding.distinct
  shared := fun other inside => binding.shared other (List.mem_cons_of_mem _ inside)

theorem Binding.fetches (binding : Binding origin first rest done (parcel :: left) table machine) :
    machine.image.Fetches machine.next (.popParam parcel.name parcel.ty) := binding.image ▸ binding.code.head

theorem Binding.executed (binding : Binding origin first rest done (parcel :: left) table machine) (cell : Cell) (later : Store)
    (bound : ∀ world events notices, Binding origin first rest (done ++ [parcel]) left (table.set parcel.name cell)
      { machine with
        world, events, notices, phase := .running, store := later, stack := left.map Parcel.item ++ rest
        next := machine.next + 1
        scopes := machine.scopes.modify machine.scope fun table => table.set parcel.name cell })
    (calm : (Run.ready setup machine).frames = machine.frames)
    (executes : ∀ world events notices, (Run.execute setup (.popParam parcel.name parcel.ty)).on
      { machine with world, events, notices, phase := .running, next := machine.next + 1 } = (.ok (),
        { machine with
          world, events, notices, phase := .running, store := later, stack := left.map Parcel.item ++ rest
          next := machine.next + 1
          scopes := machine.scopes.modify machine.scope fun table => table.set parcel.name cell })) :
    ∃ after table, machine.Advances setup after ∧ Binding origin first rest (done ++ [parcel]) left table after := by
  have inside := binding.inside
  rw [List.length_cons, ← binding.image] at inside
  obtain ⟨world, events, notices, advances⟩ := advances_by _ (.inr binding.running) calm binding.fetches executes
  rw [if_neg fun past => absurd past.1 (by dsimp only; omega)] at advances
  exact ⟨_, _, advances, bound world events notices⟩

theorem Binding.advance (binding : Binding origin first rest done (parcel :: left) table machine) (fits : parcel.Fits)
    (calm : (Run.ready setup machine).frames = machine.frames) :
    ∃ after table, machine.Advances setup after ∧ Binding origin first rest (done ++ [parcel]) left table after := by
  have stack := binding.stack
  rw [List.map_cons, List.cons_append] at stack
  cases passed : parcel.item with
  | reference own =>
    rw [passed] at stack
    have below := binding.shared parcel List.mem_cons_self own passed
    refine binding.executed own machine.store (fun world events notices => ?_) calm fun _ _ _ => Run.on_bind_shared stack
    refine binding.bind (.refl _) binding.closed (Nat.lt_of_lt_of_le below binding.store.size)
      (fun new => absurd below (Nat.not_lt.mpr new)) ?_ world events notices
    rw [Parcel.Held, passed]
  | value value =>
    rw [passed] at stack
    obtain ⟨held, taken⟩ := fits value passed
    have allocates := Store.allocate_spec binding.closed held
    obtain ⟨new, below⟩ := allocates.fresh _ List.mem_cons_self
    refine binding.executed (machine.store.allocate held).1 (machine.store.allocate held).2
      (fun world events notices => ?_) calm fun _ _ _ => Run.on_bind_value stack taken
    refine binding.bind allocates.extends_ allocates.closed below (fun _ => new) ?_ world events notices
    rw [Parcel.Held, passed]
    exact ⟨Nat.le_trans binding.store.size new, held, taken, allocates.read⟩

theorem Binding.fits (binding : Binding origin first rest done (parcel :: left) table machine)
    (advances : machine.Advances setup after) : parcel.Fits := by
  have stack := binding.stack
  rw [List.map_cons, List.cons_append] at stack
  intro value passed
  rw [passed] at stack
  refine advances.leads (fun _ => ∃ held, parcel.ty.taken value = .ok held) binding.fetches
    (fun world events notices last ran => ?_) fun _ _ _ held => held
  cases taken : parcel.ty.taken value with
  | ok held => exact ⟨held, rfl⟩
  | error fault =>
    have refused : ∃ error after, (Run.execute setup (.popParam parcel.name parcel.ty)).on
        { machine with world, events, notices, phase := .running, next := machine.next + 1 } = (.error error, after) :=
      Run.on_bind_refused stack taken
    obtain ⟨error, failed, refused⟩ := refused
    rw [refused] at ran
    cases ran

theorem Binding.goes (binding : Binding origin first rest done left table machine) (fits : ∀ parcel ∈ left, parcel.Fits) :
    machine.GoesTo setup left.length fun after => ∃ table, Binding origin first rest (done ++ left) [] table after := by
  induction left generalizing done table machine with
  | nil => exact goes_nowhere ⟨table, (List.append_nil done).symm ▸ binding⟩
  | cons parcel left ih =>
    obtain ⟨isFit, others⟩ := List.forall_mem_cons.mp fits
    refine goes_further fun calm => ?_
    obtain ⟨after, later, advances, further⟩ := binding.advance isFit calm
    refine ⟨after, advances, ?_⟩
    rw [List.append_cons]
    exact ih further others

theorem Binding.all_fit (binding : Binding origin first rest done left table machine)
    (goes : Goes setup left.length machine after) : ∀ parcel ∈ left, parcel.Fits := by
  induction left generalizing done table machine with
  | nil => exact fun _ inside => absurd inside List.not_mem_nil
  | cons parcel left ih =>
    cases goes with
    | head advances goes =>
      have isFit := binding.fits advances
      obtain ⟨next, later, also, further⟩ := binding.advance isFit advances.1
      obtain rfl := advances.same also
      exact List.forall_mem_cons.mpr ⟨isFit, ih further goes⟩

theorem Binding.of_call (image : Image) {parcels : List Parcel} (loaded : machine.image = image)
    (goes : machine.phase = .idle ∨ machine.phase = .running) (fetches : image.Fetches machine.next (.call (.resolved first)))
    (stack : machine.stack = parcels.map Parcel.item ++ rest) (closed : machine.store.Closed)
    (code : image.Embeds first (parcels.map Parcel.op)) (inside : first + parcels.length < image.instructions.size)
    (distinct : (parcels.map Parcel.name).Nodup)
    (shared : ∀ parcel ∈ parcels, ∀ cell, parcel.item = .reference cell → cell < machine.store.size)
    (calm : (Run.ready setup machine).frames = machine.frames) (room : machine.frames.length < setup.maxDepth) :
    ∃ after, machine.Advances setup after ∧ Binding machine first rest [] parcels [] after := by
  subst loaded
  obtain ⟨world, events, notices, advances⟩ := advances_by _ goes calm fetches fun _ _ _ => Run.on_call room
  rw [if_neg fun past => absurd past.1 (by dsimp only; omega)] at advances
  refine ⟨_, advances, rfl, rfl, rfl, rfl, rfl, stack, .refl _, closed, ?_, ?_, ?_, ?_, code, inside, distinct, shared⟩
  · intro name cell found
    cases found
  · intro name other cell _ found
    cases found
  · intro name
    simp [Table.get?]
  · exact fun _ none => absurd none List.not_mem_nil

end Machine

end BasicLang
