import BasicLang.Proofs.Machine.Suspension

set_option autoImplicit false

namespace BasicLang

def Op.changes (name : String) : Op → Bool
  | .pushRef other => other == name
  | .popParam other _ => other == name
  | .dim other _ => other == name
  | .dimArray other _ _ => other == name
  | .redim other _ _ _ => other == name
  | _ => false

inductive Hold where
  -- Only its name, and the cell holds this value.
  | hidden (value : Value)
  -- Also who has a reference to it, and the names of the scopes that are newer than the limit.
  | lent (limit : Nat)

structure Ward where
  home : Nat
  name : String
  hold : Hold

namespace Ward

variable {σ : Type} {ward : Ward}

def Fits (ward : Ward) (content : Content) : Prop :=
  match ward.hold with
  | .hidden value => content = .plain value
  | .lent _ => content.ty = .double ∨ content.ty.isArray = true

def Lent (ward : Ward) : Prop := ∃ limit, ward.hold = .lent limit

def Free (ward : Ward) (kept : Option Cell) (cell : Cell) : Prop := kept = some cell → ward.Lent

def Knows (ward : Ward) (scope : Nat) (other : String) : Prop :=
  (scope = ward.home ∧ other = ward.name) ∨ ∃ limit, ward.hold = .lent limit ∧ limit ≤ scope

def vacant : Ward := ⟨0, "", .hidden .null⟩

theorem Knows.lent {scope : Nat} {other : String} (knows : ward.Knows scope other)
    (different : ¬(scope = ward.home ∧ other = ward.name)) : ward.Lent := by
  obtain same | ⟨limit, isLent, -⟩ := knows
  · exact absurd same different
  · exact ⟨limit, isLent⟩

structure Spares (ward : Ward) (machine : Machine σ) (op : Op) : Prop where
  name : op.changes ward.name = true → machine.scopeOf ward.name ≠ ward.home ∧ machine.scope ≠ ward.home
  parameters : ∀ other ty limit, op = .popParam other ty → ward.hold = .lent limit → limit ≤ machine.scope
  home : ∀ frame rest, op = .ret → machine.frames = frame :: rest → frame.kind = .call →
    ward.home ≤ rest.countP fun frame => frame.kind == .call

end Ward

theorem Ward.fits_written {ward : Ward} {store : Store} {cell : Cell} {value : Value} (lent : ward.Lent)
    (closed : store.Closed) (below : cell < store.size) (fits : ward.Fits (store.content cell))
    (admits : store.Admits cell value) : ward.Fits ((store.write cell value).content cell) := by
  obtain ⟨limit, isLent⟩ := lent
  have inside := Nat.lt_of_lt_of_le below (Store.install_spec store closed value).extends_.size
  rw [Fits, isLent] at fits ⊢
  rw [Store.write, Store.content_put _ _ _ _ inside, if_pos rfl]
  change store.ty cell = .double ∨ (store.ty cell).isArray = true at fits
  dsimp only
  obtain isNull | ⟨source, converted⟩ := admits
  · simp [isNull, Ty.isArray] at fits
  obtain isDouble | isArray := fits
  · -- A number has become a `DOUBLE`.
    rw [isDouble] at converted
    cases source <;> cases converted <;> exact .inl rfl
  · cases typed : store.ty cell with
    | array element rank =>
      rw [typed] at converted
      cases source with
      | array => cases converted; exact .inr rfl
      | _ => cases converted
    | _ => simp [typed, Ty.isArray] at isArray

namespace Machine

variable {σ : Type}

/-- The machine comes to the kept cell, if there is one, as its ward says. -/
structure Keeps (ward : Ward) (kept : Option Cell) (machine : Machine σ) : Prop where
  closed : machine.store.Closed
  parts : ∀ owner, ∀ part ∈ (machine.store.content owner).parts, kept ≠ some part
  stack : ∀ cell, .reference cell ∈ machine.stack → cell < machine.store.size ∧ ward.Free kept cell
  scopes : ∀ scope other cell, (machine.scopes.getD scope []).get? other = some cell →
    cell < machine.store.size ∧ (kept = some cell → ward.Knows scope other)
  waits : ∀ pending, machine.pending = some pending → ∀ cell ∈ pending.completion.targets, ward.Free kept cell
  -- The scope of the main routine is never left.
  depth : machine.scopes.size = machine.frames.countP (fun frame => frame.kind == .call) + 1
  holds : ∀ cell, kept = some cell → cell < machine.store.size ∧ ward.Fits (machine.store.content cell) ∧
    (machine.scopes.getD ward.home []).get? ward.name = some cell

section Changing

variable {machine : Machine σ} {ward : Ward} {kept : Option Cell}

theorem Keeps.evolve {changed : Cell → Prop} {later : Store} (keeps : machine.Keeps ward kept)
    (evolves : machine.store.Evolves changed later)
    (fits : ∀ cell, kept = some cell → changed cell → ward.Fits (later.content cell)) :
    Keeps ward kept { machine with store := later } where
  closed := evolves.closed
  parts := fun owner part isPart isKept => by
    obtain ⟨other, isOld⟩ | new := evolves.parts owner part isPart
    · exact keeps.parts other part isOld isKept
    · exact absurd (keeps.holds part isKept).1 (Nat.not_lt.mpr new)
  stack := fun cell inside =>
    ⟨Nat.lt_of_lt_of_le (keeps.stack cell inside).1 evolves.size, (keeps.stack cell inside).2⟩
  scopes := fun scope other cell found =>
    ⟨Nat.lt_of_lt_of_le (keeps.scopes scope other cell found).1 evolves.size, (keeps.scopes scope other cell found).2⟩
  waits := keeps.waits
  depth := keeps.depth
  holds := fun cell isKept => by
    obtain ⟨below, content, bound⟩ := keeps.holds cell isKept
    refine ⟨Nat.lt_of_lt_of_le below evolves.size, ?_, bound⟩
    by_cases isChanged : changed cell
    · exact fits cell isKept isChanged
    · rw [evolves.same cell below isChanged]
      exact content

theorem modified_scope (scopes : Array (Table Cell)) (scope other : Nat) (change : Table Cell → Table Cell) :
    (scopes.modify scope change).getD other [] =
      if other = scope ∧ scope < scopes.size then change (scopes.getD scope []) else scopes.getD other [] := by
  by_cases below : scope < scopes.size
  · rw [scopes_modify scopes scope other change below]
    simp [below]
  · rw [if_neg fun both => below both.2, Array.getD_eq_getD_getElem?, Array.getD_eq_getD_getElem?,
      Array.getElem?_modify]
    by_cases same : scope = other
    · subst same
      simp [Nat.not_lt.mp below]
    · rw [if_neg same]

theorem Keeps.bind_in {scope : Nat} {other : String} {cell : Cell} (keeps : machine.Keeps ward kept)
    (below : cell < machine.store.size) (knows : kept = some cell → ward.Knows scope other)
    (spares : kept.isSome = true → ¬(scope = ward.home ∧ other = ward.name)) :
    (machine.bindIn scope other cell).Keeps ward kept where
  closed := keeps.closed
  parts := keeps.parts
  stack := keeps.stack
  scopes := fun place key found isBound => by
    rw [bindIn, modified_scope] at isBound
    split at isBound
    · next here =>
      rw [Table.get_set] at isBound
      split at isBound
      · obtain rfl := Option.some.inj isBound
        next isKey => exact ⟨below, here.1 ▸ isKey ▸ knows⟩
      · exact keeps.scopes place key found (here.1 ▸ isBound)
    · exact keeps.scopes place key found isBound
  waits := keeps.waits
  depth := by simpa [bindIn] using keeps.depth
  holds := fun found isKept => by
    obtain ⟨there, content, bound⟩ := keeps.holds found isKept
    refine ⟨there, content, ?_⟩
    rw [bindIn, modified_scope]
    split
    · next here =>
      rw [Table.get_set, if_neg fun isName => spares (by simp [isKept]) ⟨here.1.symm, isName.symm⟩, ← here.1]
      exact bound
    · exact bound

theorem Keeps.push {cell : Cell} (keeps : machine.Keeps ward kept) (below : cell < machine.store.size)
    (isFree : ward.Free kept cell) : Keeps ward kept { machine with stack := .reference cell :: machine.stack } :=
  { keeps with
    stack := fun other inside => by
      rcases List.mem_cons.mp inside with same | inside
      · cases same
        exact ⟨below, isFree⟩
      · exact keeps.stack other inside }

theorem Keeps.pops {items : List StackItem} (keeps : machine.Keeps ward kept) (fewer : items ⊆ machine.stack) :
    Keeps ward kept { machine with stack := items } :=
  { keeps with stack := fun other inside => keeps.stack other (fewer inside) }

theorem Keeps.lookup {other : String} {cell : Cell} (keeps : machine.Keeps ward kept)
    (found : machine.lookup? other = some cell) : cell < machine.store.size ∧
      (¬(machine.scopeOf other = ward.home ∧ other = ward.name) → ward.Free kept cell) := by
  obtain ⟨below, knows⟩ := keeps.scopes _ other cell found
  exact ⟨below, fun different isKept => (knows isKept).lent different⟩

theorem Keeps.unknown {other : String} (keeps : machine.Keeps ward kept) (absent : machine.lookup? other = none)
    (isKept : kept.isSome = true) : ¬(machine.scopeOf other = ward.home ∧ other = ward.name) := by
  rintro ⟨isHome, rfl⟩
  obtain ⟨cell, isCell⟩ := Option.isSome_iff_exists.mp isKept
  obtain ⟨-, -, bound⟩ := keeps.holds cell isCell
  rw [lookup?, isHome, bound] at absent
  cases absent

theorem Keeps.new_free {cell : Cell} (keeps : machine.Keeps ward kept) (new : machine.store.size ≤ cell) :
    kept ≠ some cell :=
  fun isKept => absurd (keeps.holds cell isKept).1 (Nat.not_lt.mpr new)

theorem Keeps.create {other : String} {scope : Nat} {cell : Cell} {later : Store}
    (keeps : machine.Keeps ward kept) (evolves : machine.store.Evolves (fun _ => False) later)
    (new : machine.store.size ≤ cell ∧ cell < later.size)
    (spares : kept.isSome = true → ¬(scope = ward.home ∧ other = ward.name)) :
    ({ machine with store := later }.bindIn scope other cell).Keeps ward kept :=
  (keeps.evolve evolves fun _ _ => False.elim).bind_in new.2 (fun isKept => absurd isKept (keeps.new_free new.1)) spares

theorem new_cell (store : Store) (closed : store.Closed) (value : Value) :
    store.size ≤ (store.allocate value).1 ∧ (store.allocate value).1 < (store.allocate value).2.size :=
  (Store.allocate_spec closed value).fresh _ List.mem_cons_self

theorem Keeps.ensure (keeps : machine.Keeps ward kept) (other : String) :
    (machine.ensureVariable other).2.Keeps ward kept ∧
      (machine.ensureVariable other).1 < (machine.ensureVariable other).2.store.size ∧
      (¬(machine.scopeOf other = ward.home ∧ other = ward.name) → ward.Free kept (machine.ensureVariable other).1) := by
  unfold ensureVariable
  cases found : machine.lookup? other with
  | some cell => exact ⟨keeps, keeps.lookup found⟩
  | none =>
    have new := new_cell machine.store keeps.closed (machine.implicitType other).default
    refine ⟨keeps.create (Store.allocate_evolves keeps.closed _) new (keeps.unknown found), new.2, fun _ isKept => ?_⟩
    exact absurd isKept (keeps.new_free new.1)

theorem Keeps.resize {cell : Cell} (keeps : machine.Keeps ward kept) (isFree : ward.Free kept cell)
    (element : Ty) (bounds : List Bounds) (count : Nat) (old : Array Cell)
    (isOld : ∀ part ∈ old.toList, ∃ owner, part ∈ (machine.store.content owner).parts) :
    let made := machine.store.allocateMany element.default count old
    Keeps ward kept { machine with store := made.2.put cell (.array element ⟨bounds, made.1⟩) } := by
  intro made
  obtain ⟨cells, found, allocates⟩ := Store.allocate_many_spec keeps.closed element.default count old
  have evolves := Store.allocate_many_evolves keeps.closed element.default count old
  have below (isKept : kept = some cell) : cell < made.2.size :=
    Nat.lt_of_lt_of_le (keeps.holds cell isKept).1 evolves.size
  refine keeps.evolve (evolves.put cell (fun part isPart => ?_) rfl) fun other isKept changed => ?_
  · rw [Content.parts, found, List.mem_append] at isPart
    obtain isPart | isPart := isPart
    · obtain ⟨owner, isPart⟩ := isOld part isPart
      exact ⟨Nat.lt_of_lt_of_le (keeps.closed.parts owner part isPart) evolves.size, .inl ⟨owner, isPart⟩⟩
    · obtain ⟨new, below⟩ := allocates.fresh part isPart
      exact ⟨below, .inr new⟩
  · obtain rfl := changed.resolve_left id
    obtain ⟨limit, isLent⟩ := isFree isKept
    rw [Store.content_put _ _ _ _ (below isKept), if_pos rfl, Ward.Fits, isLent]
    exact .inr rfl

theorem Keeps.call (keeps : machine.Keeps ward kept) (returnTo scope : Nat) :
    Keeps ward kept { machine with
      frames := ⟨.call, returnTo, scope⟩ :: machine.frames, scopes := machine.scopes.push [] } := by
  have same (place : Nat) : (machine.scopes.push []).getD place [] = machine.scopes.getD place [] := by
    rw [Array.getD_eq_getD_getElem?, Array.getD_eq_getD_getElem?, Array.getElem?_push]
    split
    · next isNew => simp [isNew]
    · rfl
  refine { keeps with scopes := ?_, depth := ?_, holds := ?_ }
  · simpa only [same] using keeps.scopes
  · simpa using keeps.depth
  · simpa only [same] using keeps.holds

theorem Keeps.leave {frame : Frame} {rest : List Frame} (keeps : machine.Keeps ward kept)
    (frames : machine.frames = frame :: rest)
    (spares : kept.isSome = true → frame.kind = .call → ward.home ≤ rest.countP fun frame => frame.kind == .call) :
    Keeps ward kept { machine with
      frames := rest, scopes := if frame.kind = .call then machine.scopes.pop else machine.scopes } := by
  have depth := keeps.depth
  rw [frames, List.countP_cons] at depth
  split
  · next isCall =>
    rw [if_pos (by simp [isCall])] at depth
    have popped (place : Nat) (below : place < machine.scopes.size - 1) :
        machine.scopes.pop.getD place [] = machine.scopes.getD place [] := by
      rw [Array.getD_eq_getD_getElem?, Array.getD_eq_getD_getElem?, Array.getElem?_pop, if_pos below]
    refine { keeps with scopes := fun scope other cell found => ?_, depth := ?_, holds := fun cell isKept => ?_ }
    · by_cases below : scope < machine.scopes.size - 1
      · exact keeps.scopes scope other cell (popped scope below ▸ found)
      · rw [Array.getD_eq_getD_getElem?, Array.getElem?_pop, if_neg below] at found
        cases found
    · simp [depth]
    · obtain ⟨there, content, bound⟩ := keeps.holds cell isKept
      have inside := spares (by simp [isKept]) isCall
      exact ⟨there, content, (popped ward.home (by omega)).symm ▸ bound⟩
  · next notCall =>
    rw [if_neg (by simp [notCall])] at depth
    exact { keeps with depth := depth }

theorem Keeps.phased (keeps : machine.Keeps ward kept) (phase : Phase) :
    (machine.setPhase phase).Keeps ward kept := by
  obtain ⟨notices, same⟩ := machine.set_phase_only phase
  rw [same]
  exact { keeps with }

end Changing

end Machine

theorem Grid.kept_slots {α : Type} {grid : Grid α} {count : Nat} {preserve : Bool} {slot : α}
    (inside : slot ∈ (grid.kept count preserve).toList) : slot ∈ grid.slots.toList := by
  cases preserve with
  | false => cases inside
  | true =>
    rw [kept, if_pos rfl, Array.toList_extract] at inside
    exact List.mem_of_mem_drop (List.mem_of_mem_take inside)

theorem Grid.get_slots {α : Type} {grid : Grid α} {indices : List Int} {slot : α} (found : grid.get indices = .ok slot) :
    slot ∈ grid.slots.toList := by
  rw [Grid.get_eq] at found
  split at found
  · cases found
  · next place _ =>
    cases isSlot : grid.slots[place]? with
    | none =>
      rw [isSlot] at found
      cases found
    | some other =>
      rw [isSlot] at found
      cases found
      exact Array.mem_toList_iff.mpr (Array.mem_of_getElem? isSlot)

namespace Run

variable {σ α β : Type} {ward : Ward} {kept : Option Cell} {here machine : Machine σ}

section Rules

structure Guards (ward : Ward) (kept : Option Cell) (here machine : Machine σ) : Prop extends machine.Keeps ward kept where
  frames : machine.frames = here.frames
  image : machine.image = here.image

theorem Guards.refl (keeps : machine.Keeps ward kept) : Guards ward kept machine machine :=
  { keeps with frames := rfl, image := rfl }

theorem Guards.scope_of (guards : Guards ward kept here machine) (name : String) :
    machine.scopeOf name = here.scopeOf name := by
  rw [Machine.scopeOf, Machine.scopeOf, guards.image, Machine.scope, guards.frames]
  rfl

abbrev Clear (ward : Ward) (kept : Option Cell) (here : Machine σ) (op : Op) : Prop :=
  kept.isSome = true → ward.Spares here op

def Secures (ward : Ward) (kept : Option Cell) (here : Machine σ) (action : Run σ α) (result : α → Machine σ → Prop) :
    Prop :=
  ∀ machine, Guards ward kept here machine →
    Meets action machine (fun found after => Guards ward kept here after ∧ result found after)
      fun _ after => Guards ward kept here after

def Open (ward : Ward) (kept : Option Cell) (cell : Cell) (machine : Machine σ) : Prop :=
  cell < machine.store.size ∧ ward.Free kept cell

theorem preserved_keeps :
    Preserved (Guards ward kept here) (ward.Free kept) where
  pop := fun machine item rest guards stack => { guards with toKeeps := guards.pops (by simp [stack]) }
  reference := fun machine cell rest guards stack => (guards.stack cell (by simp [stack])).2
  push := fun machine value guards =>
    { guards with stack := fun cell inside => guards.stack cell (by simpa using inside) }
  write := fun machine cell value guards isFree admits => by
    refine { guards with toKeeps := guards.evolve (Store.write_evolves guards.closed cell value) ?_ }
    rintro other isKept rfl
    obtain ⟨below, fits, -⟩ := guards.holds other isKept
    exact Ward.fits_written (isFree isKept) guards.closed below fits admits
  around := fun _ _ _ _ _ _ guards => { guards with }

theorem awaited_keeps : Awaited (Guards ward kept here) (Machine.Keeps ward kept) (ward.Free kept) fun _ => True where
  at_once := fun _ guards => guards.toKeeps
  waits := fun machine request completion notices guards _ isFree _ => by
    refine { guards with waits := fun pending isPending => ?_ }
    cases isPending
    exact isFree

theorem secures_seq {first : Run σ α} {next : α → Run σ β} {found : α → Machine σ → Prop} {result : β → Machine σ → Prop}
    (secures : Secures ward kept here first found)
    (rest : ∀ item machine, Guards ward kept here machine → found item machine →
      Meets (next item) machine (fun last after => Guards ward kept here after ∧ result last after)
        fun _ after => Guards ward kept here after) : Secures ward kept here (first >>= next) result := by
  intro machine keeps
  refine meets_seq (meets_weaken (secures machine keeps) (fun item after both => ?_) fun _ _ stays => stays)
  exact rest item after both.1 both.2

theorem secures_then {first : Run σ α} {next : α → Run σ β} {found : α → Machine σ → Prop} {result : β → Machine σ → Prop}
    (secures : Secures ward kept here first found) (rest : ∀ item, Secures ward kept here (next item) result) :
    Secures ward kept here (first >>= next) result :=
  secures_seq secures fun item machine keeps _ => rest item machine keeps

theorem secures_weaken {action : Run σ α} {found result : α → Machine σ → Prop}
    (secures : Secures ward kept here action found) (view : ∀ item machine, found item machine → result item machine) :
    Secures ward kept here action result :=
  fun machine keeps => meets_weaken (secures machine keeps) (fun item after both => ⟨both.1, view item after both.2⟩)
    fun _ _ stays => stays

theorem secures_fail (fault : Fault) {result : α → Machine σ → Prop} : Secures ward kept here (fail fault) result :=
  fun _ keeps => keeps

theorem secures_modify {change : Machine σ → Machine σ}
    (keeps : ∀ machine : Machine σ, Guards ward kept here machine → Guards ward kept here (change machine)) :
    Secures ward kept here (modify change : Run σ Unit) fun _ _ => True := maintains_modify keeps

theorem secures_grid (found : Except GridFault α) : Secures ward kept here (ofGrid found : Run σ α) fun item _ =>
    found = .ok item := by
  cases found with
  | ok item => exact fun _ keeps => ⟨keeps, rfl⟩
  | error fault => exact secures_fail _

end Rules

section Cells

variable {other : String}

theorem secures_pop : Secures ward kept here (pop : Run σ StackItem) fun item after =>
    ∀ cell, item = .reference cell → Open ward kept cell after := by
  intro machine keeps
  cases stack : machine.stack with
  | nil =>
    rw [Meets, pop, on_seq (on_get machine), stack]
    exact keeps
  | cons item rest =>
    rw [Meets, on_pop stack]
    refine ⟨{ keeps with toKeeps := keeps.pops (by simp [stack]) }, ?_⟩
    rintro cell rfl
    exact keeps.stack cell (by simp [stack])

theorem secures_pop_reference : Secures ward kept here (popReference : Run σ Cell) (Open ward kept) := by
  refine secures_seq secures_pop fun item machine keeps isOpen => ?_
  cases item with
  | value value => exact secures_fail _ machine keeps
  | reference cell => exact ⟨keeps, isOpen cell rfl⟩

theorem secures_pop_ints (count : Nat) : Secures ward kept here (popInts count : Run σ (List Int)) fun _ _ => True :=
  maintains_weaken (maintains_pop_many (maintains_pop_int preserved_keeps) count [] (by simp)) fun _ _ => trivial

theorem ensured_guards (guards : Guards ward kept here machine) (other : String) :
    Guards ward kept here (machine.ensureVariable other).2 := by
  refine { (guards.toKeeps.ensure other).1 with frames := ?_, image := ?_ }
  · rw [← guards.frames]
    unfold Machine.ensureVariable
    cases machine.lookup? other <;> rfl
  · rw [← guards.image]
    unfold Machine.ensureVariable
    cases machine.lookup? other <;> rfl

theorem secures_variable (other : String) : Secures ward kept here (variableCell other : Run σ Cell) fun cell after =>
    cell < after.store.size ∧ (¬(here.scopeOf other = ward.home ∧ other = ward.name) → ward.Free kept cell) := by
  intro machine guards
  rw [Meets, on_variable]
  exact ⟨ensured_guards guards other, guards.scope_of other ▸ (guards.toKeeps.ensure other).2⟩

theorem secures_own_variable (spares : kept.isSome = true → ¬(here.scopeOf other = ward.home ∧ other = ward.name)) :
    Secures ward kept here (variableCell other : Run σ Cell) (Open ward kept) := by
  refine secures_weaken (secures_variable other) fun cell machine found => ⟨found.1, fun isKept => ?_⟩
  exact found.2 (spares (by simp [isKept])) isKept

theorem allocated_array (machine : Machine σ) (guards : Guards ward kept here machine) {scope : Nat}
    (spares : kept.isSome = true → ¬(scope = ward.home ∧ other = ward.name)) (element : Ty) (bounds : List Bounds)
    (count : Nat) :
    let made := machine.store.allocateArray element bounds count
    Guards ward kept here ({ machine with store := made.2 }.bindIn scope other made.1) ∧
      Open ward kept made.1 ({ machine with store := made.2 }.bindIn scope other made.1) := by
  have new := (Store.allocate_array_spec guards.closed element bounds count).fresh _ List.mem_cons_self
  have created := guards.create (Store.allocate_array_evolves guards.closed element bounds count) new spares
  exact ⟨{ created with frames := guards.frames, image := guards.image }, new.2,
    fun isKept => absurd isKept (guards.new_free new.1)⟩

theorem secures_array_cell (other : String) (element : Ty) (rank : Nat) :
    Secures ward kept here (arrayCell other element rank : Run σ Cell) (Open ward kept) := by
  intro machine keeps
  rw [Meets, arrayCell, on_seq (on_get machine)]
  cases found : machine.lookup? other with
  | none => exact allocated_array machine keeps (keeps.unknown found) element _ _
  | some cell =>
    dsimp only
    rw [on_seq (on_get machine)]
    cases content : machine.store.content cell with
    | array held grid =>
      refine ⟨keeps, (keeps.lookup found).1, fun isKept => ?_⟩
      obtain ⟨-, fits, -⟩ := keeps.holds cell isKept
      cases held : ward.hold with
      | hidden value =>
        rw [Ward.Fits, held, content] at fits
        cases fits
      | lent limit => exact ⟨limit, held⟩
    | _ => exact keeps

theorem secures_read (cell : Cell) : Secures ward kept here (readCell cell : Run σ Value) fun _ _ => True :=
  fun _ keeps => ⟨keeps, trivial⟩

theorem secures_push (item : Value) : Secures ward kept here (push item : Run σ Unit) fun _ _ => True :=
  maintains_push preserved_keeps item

theorem pushed_guards {cell : Cell} (guards : Guards ward kept here machine) (isOpen : Open ward kept cell machine) :
    Guards ward kept here { machine with stack := .reference cell :: machine.stack } :=
  { guards with toKeeps := guards.push isOpen.1 isOpen.2 }

theorem meets_push_cell {cell : Cell} (keeps : Guards ward kept here machine) (isOpen : Open ward kept cell machine)
    (byRef : Bool) :
    Meets (pushCell cell byRef : Run σ Unit) machine (fun _ after => Guards ward kept here after ∧ True)
      fun _ after => Guards ward kept here after := by
  cases byRef with
  | true => exact ⟨pushed_guards keeps isOpen, trivial⟩
  | false => exact secures_push _ machine keeps

end Cells

section Executing

variable {other : String}

theorem secures_parameter (ty : Ty) (clear : Clear ward kept here (.popParam other ty)) :
    Secures ward kept here (bindParameter other ty : Run σ Unit) fun _ _ => True := by
  have spares (isKept : kept.isSome = true) : ¬(here.scope = ward.home ∧ other = ward.name) :=
    fun both => ((clear isKept).name (by simp [Op.changes, both.2])).2 both.1
  have same {machine : Machine σ} (guards : Guards ward kept here machine) : machine.scope = here.scope := by
    rw [Machine.scope, guards.frames]
    rfl
  have creates (item : Value) : Secures ward kept here (do
      let cell ← modifyGet fun machine : Machine σ => machine.allocate item
      modify fun machine => machine.bindIn machine.scope other cell : Run σ Unit) fun _ _ => True := by
    intro machine keeps
    have new := Machine.new_cell machine.store keeps.closed item
    have created := keeps.create (Store.allocate_evolves keeps.closed item) new (same keeps ▸ spares)
    exact ⟨{ created with frames := keeps.frames, image := keeps.image }, trivial⟩
  refine secures_seq secures_pop fun item machine keeps isOpen => ?_
  cases item with
  | reference cell =>
    obtain ⟨below, isFree⟩ := isOpen cell rfl
    have knows (isKept : kept = some cell) : ward.Knows machine.scope other := by
      obtain ⟨limit, isLent⟩ := isFree isKept
      exact .inr ⟨limit, isLent, same keeps ▸ (clear (by simp [isKept])).parameters other ty limit rfl isLent⟩
    have bound := keeps.bind_in below knows (same keeps ▸ spares)
    exact ⟨{ bound with frames := keeps.frames, image := keeps.image }, trivial⟩
  | value item =>
    dsimp only
    split
    · exact creates item machine keeps
    · cases ty.convert item with
      | ok converted => exact creates converted machine keeps
      | error fault => exact keeps

section Declaring

variable (spares : kept.isSome = true → ¬(here.scopeOf other = ward.home ∧ other = ward.name))

include spares

theorem secures_declare (item : Value) :
    Secures ward kept here (declare other item : Run σ Unit) fun _ _ => True :=
  secures_modify fun machine keeps => by
    have new := Machine.new_cell machine.store keeps.closed item
    have created := keeps.create (Store.allocate_evolves keeps.closed item) new (keeps.scope_of other ▸ spares)
    exact { created with frames := keeps.frames, image := keeps.image }

theorem secures_declare_array (element : Ty) (bounds : List Bounds) :
    Secures ward kept here (declareArray other element bounds : Run σ Unit) fun _ _ => True :=
  secures_then (secures_grid _) fun count =>
    secures_modify fun machine keeps =>
      (allocated_array machine keeps (keeps.scope_of other ▸ spares) element bounds count).1

theorem secures_resize (element : Ty) (bounds : List Bounds) (preserve : Bool) :
    Secures ward kept here (resizeArray other element bounds preserve : Run σ Unit) fun _ _ => True := by
  refine secures_seq (secures_own_variable spares) fun cell machine keeps isOpen => ?_
  rw [Meets, on_seq (on_get machine)]
  have counted {change : Nat → Machine σ → Machine σ} (keepsAll : ∀ count, Guards ward kept here (change count machine)) :
      Meets (do let count ← ofGrid (Grid.slotCount bounds); modify (change count) : Run σ Unit) machine
        (fun _ after => Guards ward kept here after ∧ True) fun _ after => Guards ward kept here after := by
    cases Grid.slotCount bounds with
    | error fault => exact keeps
    | ok count => exact ⟨keepsAll count, trivial⟩
  cases content : machine.store.content cell with
  | array held grid =>
    have isOld (count : Nat) : ∀ part ∈ (grid.kept count preserve).toList,
        ∃ owner, part ∈ (machine.store.content owner).parts := fun part inside => ⟨cell, by
      rw [content]
      exact Grid.kept_slots inside⟩
    exact counted fun count => { keeps with toKeeps := keeps.resize isOpen.2 held bounds _ _ (isOld _) }
  | _ => exact counted fun count => { keeps with toKeeps := keeps.resize isOpen.2 element bounds count #[] (by simp) }

end Declaring

theorem secures_jump (target : Target) : Secures ward kept here (jump target : Run σ Unit) fun _ _ => True := by
  cases target with
  | label id => exact secures_fail _
  | resolved place => exact secures_modify fun _ keeps => { keeps with }

theorem secures_jump_if {condition : Prop} [Decidable condition] (target : Target) :
    Secures ward kept here (if condition then jump target else pure () : Run σ Unit) fun _ _ => True := by
  split
  · exact secures_jump target
  · exact fun _ keeps => ⟨keeps, trivial⟩

def Retains (ward : Ward) (kept : Option Cell) (here : Machine σ) (action : Run σ Unit) : Prop :=
  ∀ machine, Guards ward kept here machine →
    Meets action machine (fun _ after => after.Keeps ward kept) fun _ after => after.Keeps ward kept

theorem retains_secured {action : Run σ Unit} (secures : Secures ward kept here action fun _ _ => True) :
    Retains ward kept here action :=
  fun machine guards => meets_weaken (secures machine guards) (fun _ _ both => both.1.toKeeps) fun _ _ stays => stays.toKeeps

theorem retains_ended {action : Run σ Unit} (ends : Ends (Guards ward kept here) (Machine.Keeps ward kept) action) :
    Retains ward kept here action :=
  fun machine guards => meets_weaken (ends machine guards) (fun _ _ stays => stays) fun _ _ stays => stays.toKeeps

theorem retains_jump (target : Target) (keeps : machine.Keeps ward kept) :
    Meets (jump target : Run σ Unit) machine (fun _ after => after.Keeps ward kept) fun _ after => after.Keeps ward kept :=
  retains_secured (secures_jump target) machine (.refl keeps)

theorem retains_gosub (setup : Setup σ) (target : Target) : Retains ward kept here (gosub setup target) := by
  intro machine guards
  rw [Meets, gosub, on_seq (on_get machine), on_bind, enter, on_seq (on_get machine)]
  by_cases full : setup.maxDepth ≤ machine.frames.length
  · rw [if_pos full]
    exact guards.toKeeps
  · rw [if_neg full, on_modify]
    refine retains_jump target { guards with depth := ?_ }
    simpa using guards.depth

theorem retains_call (setup : Setup σ) (target : Target) : Retains ward kept here (call setup target) := by
  intro machine guards
  rw [Meets, call, on_seq (on_get machine), on_bind, enter, on_seq (on_get machine)]
  by_cases full : setup.maxDepth ≤ machine.frames.length
  · rw [if_pos full]
    exact guards.toKeeps
  · rw [if_neg full, on_modify]
    dsimp only
    rw [on_seq (on_modify _ _)]
    exact retains_jump target (guards.call _ _)

theorem retains_return (clear : Clear ward kept here .ret) : Retains ward kept here (ret : Run σ Unit) := by
  intro machine guards
  rw [Meets, ret, on_seq (on_get machine)]
  cases frames : machine.frames with
  | nil => exact guards.toKeeps
  | cons frame others =>
    cases others with
    | nil => exact guards.toKeeps
    | cons outer rest =>
      have left := guards.leave frames fun isKept => (clear isKept).home frame _ rfl (guards.frames ▸ frames)
      exact { left with }

theorem secures_for_step : Secures ward kept here (forStep : Run σ Unit) fun _ _ => True := by
  refine secures_then (maintains_pop_number preserved_keeps) fun step =>
    maintains_seq (maintains_pop_reference preserved_keeps) fun cell isFree => ?_
  refine maintains_seq (secures_read cell) fun counter _ => ?_
  cases counter.toDouble? with
  | none => exact maintains_fail _
  | some number =>
    dsimp only
    split
    · exact maintains_assign preserved_keeps isFree _
    · exact maintains_fail _

theorem open_part (keeps : machine.Keeps ward kept) {owner part : Cell}
    (isPart : part ∈ (machine.store.content owner).parts) : Open ward kept part machine :=
  ⟨keeps.closed.parts owner part isPart, fun isKept => absurd isKept (keeps.parts owner part isPart)⟩

theorem secures_array_deref (rank : Nat) (byRef : Bool) :
    Secures ward kept here (arrayDeref rank byRef : Run σ Unit) fun _ _ => True := by
  refine secures_then (secures_pop_ints rank) fun indices => ?_
  refine secures_seq secures_pop_reference fun cell machine keeps _ => ?_
  rw [Meets, on_seq (on_get machine)]
  cases content : machine.store.content cell with
  | array element grid =>
    dsimp only
    cases found : grid.get indices with
    | error fault => exact keeps
    | ok slot =>
      have isPart : slot ∈ (machine.store.content cell).parts := by
        rw [content]
        exact Grid.get_slots found
      exact meets_push_cell keeps (open_part keeps.toKeeps isPart) byRef
  | _ => exact keeps

theorem secures_member_deref (member : String) (byRef : Bool) :
    Secures ward kept here (memberDeref member byRef : Run σ Unit) fun _ _ => True := by
  refine secures_seq secures_pop fun item machine keeps _ => ?_
  cases item with
  | reference cell =>
    dsimp only
    rw [Meets, on_seq (on_get machine)]
    cases content : machine.store.content cell with
    | record title members fields =>
      dsimp only
      cases found : (members.index? member).bind (fields[·]?) with
      | none => exact keeps
      | some field =>
        obtain ⟨place, -, isField⟩ := Option.bind_eq_some_iff.mp found
        have isPart : field ∈ (machine.store.content cell).parts := by
          rw [content]
          exact Array.mem_toList_iff.mpr (Array.mem_of_getElem? isField)
        exact meets_push_cell keeps (open_part keeps.toKeeps isPart) byRef
    | _ => exact keeps
  | value item =>
    cases item with
    | record title members fields =>
      dsimp only
      cases (members.index? member).bind (fields[·]?) with
      | none => exact keeps
      | some item =>
        cases byRef with
        | false => exact secures_push item machine keeps
        | true =>
          -- The member gets a cell of its own, which is new.
          have new := Machine.new_cell machine.store keeps.closed item
          have allocated := keeps.evolve (Store.allocate_evolves keeps.closed item) fun _ _ => False.elim
          have pushed := allocated.push new.2 fun isKept => absurd isKept (keeps.new_free new.1)
          exact ⟨{ pushed with frames := keeps.frames, image := keeps.image }, trivial⟩
    | _ => exact keeps

theorem secures_read_datum : Secures ward kept here (readDatum : Run σ Unit) fun _ _ => True := by
  have next : Maintains (Guards ward kept here) (nextDatum : Run σ Value) fun _ => True := by
    intro machine keeps
    rw [Meets, nextDatum, on_seq (on_get machine)]
    cases machine.image.data[machine.nextData]? with
    | none => exact keeps
    | some item => exact ⟨{ keeps with }, trivial⟩
  exact maintains_seq (maintains_pop_reference preserved_keeps) fun target isFree =>
    maintains_seq next fun _ _ => maintains_seq maintains_get fun _ _ => maintains_assign preserved_keeps isFree _

theorem secures_arithmetic (found : Except ArithmeticFault Value) :
    Secures ward kept here (do push (← ofArithmetic found) : Run σ Unit) fun _ _ => True := by
  cases found with
  | ok item => exact secures_push item
  | error fault => exact secures_fail _

theorem execute_keeps (setup : Setup σ) (op : Op) (clear : Clear ward kept here op) :
    Retains ward kept here (execute setup op) := by
  have spares {other : String} (changes : op.changes other = true) (isKept : kept.isSome = true) :
      ¬(here.scopeOf other = ward.home ∧ other = ward.name) := by
    rintro ⟨isHome, rfl⟩
    exact ((clear isKept).name changes).1 isHome
  have popped : Maintains (Guards ward kept here) (popValue : Run σ Value) fun _ => True :=
    maintains_pop_value preserved_keeps
  -- One case for each instruction; those that work on values alone share the lemma on what is popped and pushed.
  cases op with
  | pushConst item => exact retains_secured (secures_push item)
  | pushValue other =>
    exact retains_secured (secures_then (secures_variable other) fun cell => secures_then (secures_read cell) fun _ =>
      secures_push _)
  | pushRef other =>
    refine retains_secured (secures_seq (secures_own_variable (spares (by simp [Op.changes])))
      fun cell machine keeps isOpen => ?_)
    exact ⟨pushed_guards keeps isOpen, trivial⟩
  | pushArray other element rank =>
    refine retains_secured (secures_seq (secures_array_cell other element rank) fun cell machine keeps isOpen => ?_)
    exact ⟨pushed_guards keeps isOpen, trivial⟩
  | pop => exact retains_secured (secures_then secures_pop fun _ => maintains_value ())
  | assign =>
    exact retains_secured (maintains_seq popped fun item _ =>
      maintains_seq (maintains_pop_reference preserved_keeps) fun cell isFree => maintains_assign preserved_keeps isFree item)
  | popParam other ty =>
    exact retains_secured (secures_parameter ty clear)
  | dim other ty => exact retains_secured (secures_declare (spares (by simp [Op.changes])) _)
  | dimArray other element rank =>
    refine retains_secured (secures_then (secures_then (secures_pop_ints _) fun _ => maintains_value _) fun bounds => ?_)
    exact secures_declare_array (spares (by simp [Op.changes])) element bounds
  | redim other element rank preserve =>
    refine retains_secured (secures_then (secures_then (secures_pop_ints _) fun _ => maintains_value _) fun bounds => ?_)
    exact secures_resize (spares (by simp [Op.changes])) element bounds preserve
  | setDefaultType first last ty => exact retains_secured (secures_modify fun _ keeps => { keeps with })
  | binary operator =>
    exact retains_secured (secures_then popped fun right => secures_then popped fun left => secures_arithmetic _)
  | negate => exact retains_secured (secures_then popped fun item => secures_arithmetic _)
  | complement => exact retains_secured (secures_then popped fun item => secures_arithmetic _)
  | jump target => exact retains_secured (secures_jump target)
  | jumpIfZero target => exact retains_secured (secures_then popped fun _ => secures_jump_if target)
  | jumpIfNonzero target => exact retains_secured (secures_then popped fun _ => secures_jump_if target)
  | call target => exact retains_call setup target
  | gosub target => exact retains_gosub setup target
  | ret => exact retains_return clear
  | forLoop target =>
    have number : Maintains (Guards ward kept here) (popNumber : Run σ Float) fun _ => True :=
      maintains_pop_number preserved_keeps
    exact retains_secured (secures_then number fun _ => secures_then number fun _ => secures_then number fun _ =>
      secures_jump_if target)
  | forStep => exact retains_secured secures_for_step
  | stop =>
    refine retains_ended (ends_seq maintains_get fun _ _ => ends_seq (maintains_modify fun _ keeps => ?_) fun _ _ => ?_)
    · exact { keeps with }
    · exact ends_write_back awaited_keeps _ trivial
  | arrayDeref rank byRef => exact retains_secured (secures_array_deref rank byRef)
  | memberDeref member byRef => exact retains_secured (secures_member_deref member byRef)
  | read => exact retains_secured secures_read_datum
  | restore target =>
    cases target with
    | label id => exact retains_secured (secures_fail _)
    | resolved place => exact retains_secured (secures_modify fun _ keeps => { keeps with })
  | syscall builtin =>
    exact retains_ended (ends_syscall preserved_keeps awaited_keeps setup setup.devices.within_any builtin
      (fun _ _ _ keeps => { keeps with }) (fun _ _ _ _ keeps => { keeps with }) fun _ _ => trivial)
  | onEvent target =>
    refine retains_secured (secures_then (maintains_pop_text preserved_keeps) fun key => ?_)
    cases target with
    | label id => exact secures_fail _
    | resolved place => exact secures_modify fun _ keeps => { keeps with }

end Executing

section Running

variable {setup : Setup σ}

theorem ready_keeps (setup : Setup σ) (keeps : machine.Keeps ward kept) : (ready setup machine).Keeps ward kept := by
  have delivered (polled : Machine σ) (keeps : polled.Keeps ward kept) : (deliverEvent polled).Keeps ward kept := by
    unfold deliverEvent
    split
    · exact keeps
    · split
      · exact keeps
      · split
        · exact { keeps with }
        · exact { keeps with depth := by simpa using keeps.depth }
  have started := keeps.phased .running
  apply delivered
  unfold pollEvents
  split
  · exact started
  · exact { started with }

theorem step_keeps (keeps : machine.Keeps ward kept)
    (clear : ∀ instruction, machine.image.instructions[(ready setup machine).next]? = some instruction →
      Clear ward kept (ready setup machine) instruction.op) : ((step setup).on machine).2.Keeps ward kept := by
  by_cases goes : machine.phase = .idle ∨ machine.phase = .running
  · have started := ready_keeps setup keeps
    rw [on_step_ready goes, (ready_waits setup machine).2.2]
    cases found : machine.image.instructions[(ready setup machine).next]? with
    | none => exact started.phased .finished
    | some instruction =>
      dsimp only
      have moved : Machine.Keeps ward kept { ready setup machine with next := (ready setup machine).next + 1 } :=
        { started with }
      have executed := execute_keeps setup instruction.op (clear instruction found) _
        { moved with frames := rfl, image := rfl }
      rw [Meets] at executed
      cases ran : (execute setup instruction.op).on
          { ready setup machine with next := (ready setup machine).next + 1 } with
      | mk result after =>
        rw [ran] at executed
        cases result with
        | error error => exact { executed with }
        | ok _ =>
          dsimp only
          split
          · exact executed.phased .finished
          · exact executed
  · rw [on_step_still goes]
    exact keeps

theorem resume_keeps (reply : Except DeviceError Reply) :
    Upholds (Machine.Keeps ward kept) (resume reply : Run σ Unit) := by
  intro machine keeps
  cases waits : machine.pending with
  | none =>
    rw [on_resume_nothing waits]
    exact keeps
  | some pending =>
    have answered : Machine.Keeps ward kept { machine with pending := none } :=
      { keeps with waits := fun _ isPending => nomatch isPending }
    have resumed := meets_resumed preserved_keeps reply waits (Guards.refl answered) (keeps.waits pending waits)
      fun _ _ _ _ keeps => { keeps with }
    rw [Meets] at resumed
    cases ran : (resume reply).on machine with
    | mk result after =>
      rw [ran] at resumed
      cases result with
      | ok _ =>
        obtain ⟨last, stays, rfl⟩ := resumed
        exact stays.toKeeps.phased .running
      | error error =>
        obtain ⟨last, stays, rfl⟩ := resumed
        exact { stays with }

theorem reset_keeps (machine : Machine σ) : machine.reset.Keeps ward none where
  closed := (Machine.create_sound machine.world).closed
  parts := fun _ _ _ isKept => nomatch isKept
  stack := fun _ inside => nomatch inside
  scopes := fun scope other cell found => by
    cases scope <;> simp [Machine.reset, Table.get_nil] at found
  waits := fun _ isPending => nomatch isPending
  depth := by simp [Machine.reset, Machine.mainFrame]
  holds := fun _ isKept => nomatch isKept

end Running

end Run

end BasicLang
