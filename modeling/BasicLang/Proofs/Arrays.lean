import Mathlib.Algebra.BigOperators.Group.List.Basic
import Mathlib.Algebra.Order.Ring.Int
import Mathlib.Data.List.Forall2
import Mathlib.Data.List.Lex
import BasicLang.Proofs.Machine.Running

set_option autoImplicit false

namespace BasicLang

namespace Grid

variable {α β : Type} {bounds : List Bounds} {indices : List Int}

def volume (bounds : List Bounds) : Nat := (bounds.map Bounds.extent).prod

def Inside (bounds : List Bounds) (indices : List Int) : Prop :=
  List.Forall₂ (fun bounds index => bounds.lower ≤ index ∧ index ≤ bounds.upper) bounds indices

def place : List Bounds → List Int → Nat
  | bounds :: rest, index :: indices => (index - bounds.lower).toNat * volume rest + place rest indices
  | _, _ => 0

def signed? (number : Int) : Option Int := if -2 ^ 63 ≤ number ∧ number < 2 ^ 63 then some number else none

def unsigned? (number : Nat) : Option Nat := if number < 2 ^ 64 then some number else none

def checkedOffsetFrom (slot : Nat) : List Bounds → List Int → Option (Except GridFault Nat)
  | [], [] => some (.ok slot)
  | bounds :: rest, index :: indices =>
    if index < bounds.lower ∨ bounds.upper < index then some (.error .subscript)
    else do
      let span ← signed? (bounds.upper - bounds.lower)
      let extent ← signed? (span + 1)
      let scaled ← unsigned? (slot * extent.toNat)
      let distance ← signed? (index - bounds.lower)
      let sum ← unsigned? (scaled + distance.toNat)
      checkedOffsetFrom sum rest indices
  | _, _ => some (.error .subscript)

def checkedOffset (bounds : List Bounds) (indices : List Int) : Option (Except GridFault Nat) :=
  checkedOffsetFrom 0 bounds indices

inductive Built : {α : Type} → Grid α → Prop
  | make {α : Type} {bounds : List Bounds} {value : α} {grid : Grid α} (made : make bounds value = .ok grid) : Built grid
  | implicit {α : Type} (rank : Nat) (value : α) (representable : implicitCount rank < 2 ^ 64) :
      Built (implicit rank value)
  | resize {α : Type} {grid after : Grid α} {bounds : List Bounds} {preserve : Bool} {value : α} (built : Built grid)
      (resized : grid.resize bounds preserve value = .ok after) : Built after
  -- A copy has the same bounds and a slot of its own for every slot.
  | copy {α β : Type} {grid : Grid α} (built : Built grid) (slots : Array β) (sameSize : slots.size = grid.slots.size) :
      Built ⟨grid.bounds, slots⟩

structure Proper (bounds : List Bounds) (count : Nat) : Prop where
  ordered : ∀ dimension ∈ bounds, dimension.lower ≤ dimension.upper ∧ dimension.extent < 2 ^ 63
  filled : count = volume bounds
  addressed : count < 2 ^ 64

theorem volume_cons (first : Bounds) (rest : List Bounds) : volume (first :: rest) = first.extent * volume rest := by
  rw [volume, volume, List.map_cons, List.prod_cons]

theorem extent_pos {dimension : Bounds} (ordered : dimension.lower ≤ dimension.upper) : 0 < dimension.extent := by
  unfold Bounds.extent
  omega

theorem volume_pos (ordered : ∀ dimension ∈ bounds, dimension.lower ≤ dimension.upper) : 0 < volume bounds := by
  induction bounds with
  | nil => exact Nat.one_pos
  | cons first rest ih =>
    rw [volume_cons]
    exact Nat.mul_pos (extent_pos (ordered first List.mem_cons_self))
      (ih fun dimension among => ordered dimension (List.mem_cons_of_mem _ among))

theorem extent_le_volume (ordered : ∀ dimension ∈ bounds, dimension.lower ≤ dimension.upper) :
    ∀ dimension ∈ bounds, dimension.extent ≤ volume bounds := by
  induction bounds with
  | nil => exact fun _ among => nomatch among
  | cons first rest ih =>
    have others := fun dimension among => ordered dimension (List.mem_cons_of_mem first among)
    intro dimension among
    rw [volume_cons]
    rcases List.mem_cons.mp among with rfl | among
    · exact Nat.le_mul_of_pos_right _ (volume_pos others)
    · exact Nat.le_trans (ih others dimension among)
        (Nat.le_mul_of_pos_left _ (extent_pos (ordered first List.mem_cons_self)))

section Creating

theorem slot_count_from_ok {count total : Nat} (counted : slotCountFrom count bounds = .ok total)
    (small : count ≤ maxSlots) :
    total = count * volume bounds ∧ total ≤ maxSlots ∧ ∀ dimension ∈ bounds, dimension.lower ≤ dimension.upper := by
  induction bounds generalizing count with
  | nil =>
    obtain rfl : count = total := Except.ok.inj counted
    exact ⟨(Nat.mul_one count).symm, small, fun _ among => nomatch among⟩
  | cons first rest ih =>
    rw [slotCountFrom] at counted
    split at counted
    · cases counted
    next ordered =>
      split at counted
      · cases counted
      next fits =>
        obtain ⟨rfl, bounded, others⟩ := ih counted (Nat.not_lt.mp fits)
        refine ⟨?_, bounded, List.forall_mem_cons.mpr ⟨Int.not_lt.mp ordered, others⟩⟩
        rw [volume_cons, Nat.mul_assoc]

theorem slot_count_proper {count : Nat} (counted : slotCount bounds = .ok count) : Proper bounds count := by
  obtain ⟨filled, bounded, ordered⟩ := slot_count_from_ok counted (by decide)
  rw [Nat.one_mul] at filled
  have limited : maxSlots < 2 ^ 63 := by decide
  refine ⟨fun dimension among => ⟨ordered dimension among, ?_⟩, filled, by omega⟩
  have := extent_le_volume ordered dimension among
  omega

theorem implicit_proper (rank : Nat) (representable : implicitCount rank < 2 ^ 64) :
    Proper (implicitBounds rank) (implicitCount rank) := by
  refine ⟨fun dimension among => ?_, ?_, representable⟩
  · rw [List.eq_of_mem_replicate among]
    decide
  · rw [volume, implicitBounds, List.map_replicate, List.prod_replicate]
    rfl

theorem make_ok {value : α} {grid : Grid α} (made : make bounds value = .ok grid) :
    ∃ count, slotCount bounds = .ok count ∧ grid = ⟨bounds, Array.replicate count value⟩ := by
  unfold make at made
  cases counted : slotCount bounds with
  | error fault =>
    rw [counted] at made
    cases made
  | ok count =>
    rw [counted] at made
    exact ⟨count, rfl, (Except.ok.inj made).symm⟩

theorem resize_ok {grid after : Grid α} {preserve : Bool} {value : α}
    (resized : grid.resize bounds preserve value = .ok after) :
    ∃ count, slotCount bounds = .ok count ∧
      after = grid.rebound bounds preserve count fun missing => Array.replicate missing value := by
  unfold resize at resized
  cases counted : slotCount bounds with
  | error fault =>
    rw [counted] at resized
    cases resized
  | ok count =>
    rw [counted] at resized
    exact ⟨count, rfl, (Except.ok.inj resized).symm⟩

theorem kept_size (grid : Grid α) (count : Nat) (preserve : Bool) : (grid.kept count preserve).size ≤ count := by
  cases preserve with
  | false => exact Nat.zero_le count
  | true =>
    rw [kept, if_pos rfl, Array.size_extract]
    omega

theorem rebound_size (grid : Grid α) (preserve : Bool) (count : Nat) {fresh : Nat → Array α}
    (enough : ∀ missing, (fresh missing).size = missing) :
    (grid.rebound bounds preserve count fresh).slots.size = count := by
  have fewer := grid.kept_size count preserve
  rw [rebound, Array.size_append, enough]
  omega

theorem Built.proper {grid : Grid α} (built : Built grid) : Proper grid.bounds grid.slots.size := by
  induction built with
  | make made =>
    obtain ⟨count, counted, rfl⟩ := make_ok made
    rw [Array.size_replicate]
    exact slot_count_proper counted
  | implicit rank value representable =>
    rw [Grid.implicit, Array.size_replicate]
    exact implicit_proper rank representable
  | resize _ resized _ =>
    obtain ⟨count, counted, rfl⟩ := resize_ok resized
    rw [rebound_size _ _ _ fun missing => Array.size_replicate]
    exact slot_count_proper counted
  | copy _ slots sameSize ih =>
    rw [sameSize]
    exact ih

end Creating

section Placing

variable {first : Bounds} {rest : List Bounds}

theorem digits_lt_iff {high other low less base : Nat} (lowFits : low < base) (lessFits : less < base) :
    high * base + low < other * base + less ↔ high < other ∨ high = other ∧ low < less := by
  rcases Nat.lt_trichotomy high other with below | rfl | above
  · have := Nat.mul_le_mul_right base (Nat.succ_le_of_lt below)
    rw [Nat.succ_mul] at this
    omega
  · omega
  · have := Nat.mul_le_mul_right base (Nat.succ_le_of_lt above)
    rw [Nat.succ_mul] at this
    omega

theorem place_lt (inside : Inside bounds indices) : place bounds indices < volume bounds := by
  induction inside with
  | nil => exact Nat.one_pos
  | @cons first index rest indices within _ ih =>
    have digit : (index - first.lower).toNat + 1 ≤ first.extent := by
      unfold Bounds.extent
      omega
    have room := Nat.mul_le_mul_right (volume rest) digit
    rw [Nat.succ_mul] at room
    rw [place, volume_cons]
    omega

theorem place_lt_iff {left right : List Int} (inLeft : Inside bounds left) (inRight : Inside bounds right) :
    place bounds left < place bounds right ↔ left < right := by
  induction inLeft generalizing right with
  | nil =>
    cases inRight
    exact ⟨fun less => absurd less (Nat.lt_irrefl _), fun less => absurd less (List.not_lt_nil _)⟩
  | @cons first index rest indices within others ih =>
    obtain ⟨other, more, atOther, inMore, rfl⟩ := List.forall₂_cons_left_iff.mp inRight
    rw [place, place, digits_lt_iff (place_lt others) (place_lt inMore), ih inMore, List.cons_lt_cons_iff]
    have less : (index - first.lower).toNat < (other - first.lower).toNat ↔ index < other := by omega
    have same : (index - first.lower).toNat = (other - first.lower).toNat ↔ index = other := by omega
    rw [less, same]

theorem place_injective {left right : List Int} (inLeft : Inside bounds left) (inRight : Inside bounds right)
    (same : place bounds left = place bounds right) : left = right := by
  rcases lt_trichotomy left right with less | equal | greater
  · exact absurd same (Nat.ne_of_lt ((place_lt_iff inLeft inRight).mpr less))
  · exact equal
  · exact absurd same.symm (Nat.ne_of_lt ((place_lt_iff inRight inLeft).mpr greater))

theorem exists_place {slot : Nat} (below : slot < volume bounds) :
    ∃ indices, Inside bounds indices ∧ place bounds indices = slot := by
  induction bounds generalizing slot with
  | nil => exact ⟨[], .nil, (Nat.lt_one_iff.mp below).symm⟩
  | cons first rest ih =>
    rw [volume_cons] at below
    have positive : 0 < volume rest := Nat.pos_of_mul_pos_left (Nat.zero_lt_of_lt below)
    obtain ⟨indices, inside, atRemainder⟩ := ih (Nat.mod_lt slot positive)
    have digit : slot / volume rest < first.extent := Nat.div_lt_of_lt_mul (Nat.mul_comm _ _ ▸ below)
    refine ⟨(first.lower + (slot / volume rest : Nat)) :: indices, .cons ?_ inside, ?_⟩
    · unfold Bounds.extent at digit
      have : (0 : Int) ≤ (slot / volume rest : Nat) := Int.natCast_nonneg _
      omega
    · rw [place, atRemainder, add_sub_cancel_left, Int.toNat_natCast]
      exact Nat.div_add_mod' slot (volume rest)

theorem offset_from_inside (inside : Inside bounds indices) (slot : Nat) :
    offsetFrom slot bounds indices = .ok (slot * volume bounds + place bounds indices) := by
  induction inside generalizing slot with
  | nil => exact congrArg Except.ok (Nat.mul_one slot).symm
  | @cons first index rest indices within _ ih =>
    rw [offsetFrom, if_neg (by omega), ih, volume_cons, place, Nat.add_mul, Nat.mul_assoc, Nat.add_assoc]

theorem offset_from_outside (outside : ¬Inside bounds indices) (slot : Nat) :
    offsetFrom slot bounds indices = .error .subscript := by
  induction bounds generalizing slot indices with
  | nil =>
    cases indices with
    | nil => exact absurd .nil outside
    | cons index indices => rfl
  | cons first rest ih =>
    cases indices with
    | nil => rfl
    | cons index indices =>
      rw [offsetFrom]
      split
      · rfl
      next within => exact ih (fun inside => outside (.cons (by omega) inside)) _

theorem offset_inside (inside : Inside bounds indices) : offset bounds indices = .ok (place bounds indices) := by
  rw [offset, offset_from_inside inside, Nat.zero_mul, Nat.zero_add]

theorem offset_outside (outside : ¬Inside bounds indices) : offset bounds indices = .error .subscript :=
  offset_from_outside outside 0

theorem offset_ok_iff {slot : Nat} : offset bounds indices = .ok slot ↔ Inside bounds indices ∧ place bounds indices = slot := by
  by_cases inside : Inside bounds indices
  · rw [offset_inside inside, Except.ok.injEq]
    exact (and_iff_right inside).symm
  · rw [offset_outside inside]
    exact iff_of_false nofun fun found => inside found.1

theorem signed_fits {number : Int} (low : 0 ≤ number) (high : number < 2 ^ 63) : signed? number = some number :=
  if_pos ⟨by omega, high⟩

theorem unsigned_fits {number : Nat} (below : number < 2 ^ 64) : unsigned? number = some number := if_pos below

theorem checked_offset_from {slot count : Nat}
    (ordered : ∀ dimension ∈ bounds, dimension.lower ≤ dimension.upper ∧ dimension.extent < 2 ^ 63)
    (below : slot < count) (addressed : count * volume bounds < 2 ^ 64) :
    checkedOffsetFrom slot bounds indices = some (offsetFrom slot bounds indices) := by
  induction bounds generalizing slot count indices with
  | nil => cases indices <;> rfl
  | cons first rest ih =>
    cases indices with
    | nil => rfl
    | cons index indices =>
      rw [checkedOffsetFrom, offsetFrom]
      by_cases outside : index < first.lower ∨ first.upper < index
      · rw [if_pos outside, if_pos outside]
      · obtain ⟨⟨upward, small⟩, others⟩ := List.forall_mem_cons.mp ordered
        have extent : first.upper - first.lower + 1 = (first.extent : Int) := by
          unfold Bounds.extent
          omega
        rw [volume_cons, ← Nat.mul_assoc] at addressed
        have next : slot * first.extent + (index - first.lower).toNat < count * first.extent := by
          have room := Nat.mul_le_mul_right first.extent (Nat.succ_le_of_lt below)
          rw [Nat.succ_mul] at room
          omega
        have total : count * first.extent ≤ count * first.extent * volume rest :=
          Nat.le_mul_of_pos_right _ (volume_pos fun dimension among => (others dimension among).1)
        have span : signed? (first.upper - first.lower) = _ := signed_fits (by omega) (by omega)
        have whole : signed? (first.extent : Int) = _ := signed_fits (by omega) (by omega)
        have scaled : unsigned? (slot * first.extent) = _ := unsigned_fits (by omega)
        have distance : signed? (index - first.lower) = _ := signed_fits (by omega) (by omega)
        have sum : unsigned? (slot * first.extent + (index - first.lower).toNat) = _ := unsigned_fits (by omega)
        simp only [if_neg outside, span, extent, whole, scaled, distance, sum, Option.bind_eq_bind, Option.bind_some,
          Int.toNat_natCast]
        exact ih others next addressed

theorem Proper.checked_offset {count : Nat} (proper : Proper bounds count) :
    checkedOffset bounds indices = some (offset bounds indices) := by
  apply checked_offset_from proper.ordered Nat.one_pos
  rw [Nat.one_mul, ← proper.filled]
  exact proper.addressed

theorem Proper.unique_place {count slot : Nat} (proper : Proper bounds count) (below : slot < count) :
    ∃! indices, offset bounds indices = .ok slot := by
  rw [proper.filled] at below
  obtain ⟨indices, inside, here⟩ := exists_place below
  refine ⟨indices, offset_ok_iff.mpr ⟨inside, here⟩, fun other located => ?_⟩
  obtain ⟨also, there⟩ := offset_ok_iff.mp located
  exact place_injective also inside (there.trans here.symm)

theorem get_at {grid : Grid α} {slot : Nat} (located : offset grid.bounds indices = .ok slot)
    (below : slot < grid.slots.size) : grid.get indices = .ok grid.slots[slot] := by
  rw [get_eq, located]
  simp only [Array.getElem?_eq_getElem below]

theorem set_at {grid : Grid Value} {slot : Nat} (located : offset grid.bounds indices = .ok slot)
    (below : slot < grid.slots.size) {element : Ty} {value stored : Value} (taken : element.convert value = .ok stored) :
    grid.set element indices value = .ok { grid with slots := grid.slots.set slot stored } := by
  have same : grid.slots.setIfInBounds slot stored = grid.slots.set slot stored := dif_pos below
  rw [set, taken, located, ← same]
  rfl

theorem get_outside {grid : Grid α} (outside : ¬Inside grid.bounds indices) : grid.get indices = .error .subscript := by
  rw [get_eq, offset_outside outside]

theorem set_outside {grid : Grid Value} (outside : ¬Inside grid.bounds indices) {element : Ty} {value stored : Value}
    (taken : element.convert value = .ok stored) : grid.set element indices value = .error .subscript := by
  rw [set, taken, offset_outside outside]
  rfl

theorem set_mismatched (grid : Grid Value) (indices : List Int) {element : Ty} {value : Value} {fault : ValueFault}
    (refused : element.convert value = .error fault) : grid.set element indices value = .error fault := by
  rw [set, refused]
  rfl

end Placing

end Grid

section Storage

variable {store : Store} {bounds : List Bounds}

def Store.LaysOut (store : Store) (cell : Cell) (bounds : List Bounds) : Prop :=
  ∃ element grid, store.content cell = .array element grid ∧ grid.bounds = bounds ∧ grid.Built

theorem Grid.counted_built {α : Type} {slots : Array α} (counted : slotCount bounds = .ok slots.size) :
    Grid.Built ⟨bounds, slots⟩ := by
  have made : Grid.make bounds () = .ok ⟨bounds, Array.replicate slots.size ()⟩ := by
    rw [Grid.make, counted]
    rfl
  exact (Grid.Built.make made).copy slots Array.size_replicate.symm

theorem Store.many_size (closed : store.Closed) (value : Value) (count : Nat) (before : Array Cell) :
    (store.allocateMany value count before).1.size = before.size + count := by
  obtain ⟨cells, found, allocates⟩ := allocate_many_spec closed value count before
  have length := congrArg List.length found
  have each := congrArg List.length allocates.reads
  rw [List.length_append] at length
  rw [List.length_map, List.length_replicate] at each
  simpa [each] using length

theorem Store.array_content (closed : store.Closed) (element : Ty) (bounds : List Bounds) (count : Nat) :
    ∃ slots, (store.allocateArray element bounds count).2.content (store.allocateArray element bounds count).1 =
      .array element ⟨bounds, slots⟩ ∧ slots.size = count := by
  obtain ⟨_, -, allocates⟩ := allocate_many_spec closed.push_null element.default count #[]
  have pushed : store.size < (store.push (.plain .null)).size := by simp [size_push]
  refine ⟨_, (content_put _ _ _ _ (Nat.lt_of_lt_of_le pushed allocates.extends_.size)).trans (if_pos rfl), ?_⟩
  rw [many_size closed.push_null, Array.size_empty, Nat.zero_add]

theorem Store.allocated_array_built (closed : store.Closed) (element : Ty) {count : Nat}
    (counted : Grid.slotCount bounds = .ok count) :
    (store.allocateArray element bounds count).2.LaysOut (store.allocateArray element bounds count).1 bounds := by
  obtain ⟨slots, holds, rfl⟩ := array_content closed element bounds count
  exact ⟨element, _, holds, rfl, Grid.counted_built counted⟩

theorem Store.implicit_array_built (closed : store.Closed) (element : Ty) {rank : Nat}
    (representable : Grid.implicitCount rank < 2 ^ 64) :
    (store.allocateArray element (Grid.implicitBounds rank) (Grid.implicitCount rank)).2.LaysOut
      (store.allocateArray element (Grid.implicitBounds rank) (Grid.implicitCount rank)).1 (Grid.implicitBounds rank) := by
  obtain ⟨slots, holds, filled⟩ := array_content closed element (Grid.implicitBounds rank) (Grid.implicitCount rank)
  refine ⟨element, _, holds, rfl, (Grid.Built.implicit rank () representable).copy slots ?_⟩
  rw [filled, Grid.implicit, Array.size_replicate]

theorem Store.install_array (closed : store.Closed) (element : Ty) (bounds : List Bounds) (values : List Value) :
    ∃ slots, (store.install (.array element bounds values)).1 = .array element ⟨bounds, slots⟩ ∧
      slots.size = values.length := by
  obtain ⟨cells, found, allocates⟩ := allocate_all_spec store closed values #[]
  refine ⟨_, by rw [install], ?_⟩
  rw [← Array.length_toList, found, List.toList_toArray, List.nil_append, ← allocates.reads, List.length_map]

theorem Store.content_allocate (closed : store.Closed) (value : Value) :
    (store.allocate value).2.content (store.allocate value).1 = ((store.push (.plain .null)).install value).1 := by
  have installs := install_spec (store.push (.plain .null)) closed.push_null value
  have pushed : store.size < (store.push (.plain .null)).size := by simp [size_push]
  exact (content_put _ _ _ _ (Nat.lt_of_lt_of_le pushed installs.extends_.size)).trans (if_pos rfl)

theorem Store.copied_array_built (closed : store.Closed) {cell : Cell} (laidOut : store.LaysOut cell bounds) :
    (store.allocate (store.read cell)).2.LaysOut (store.allocate (store.read cell)).1 bounds := by
  obtain ⟨element, grid, holds, rfl, built⟩ := laidOut
  have value : store.read cell = .array element grid.bounds (grid.slots.toList.map (store.readPart cell)) := by
    rw [read_eq, holds, valueOf]
  obtain ⟨slots, installed, filled⟩ := install_array closed.push_null element grid.bounds
    (grid.slots.toList.map (store.readPart cell))
  refine ⟨element, ⟨grid.bounds, slots⟩, ?_, rfl, built.copy slots ?_⟩
  · rw [content_allocate closed, value, installed]
  · rw [filled, List.length_map, Array.length_toList]

variable {σ : Type} {machine : Machine σ}

theorem Run.on_grid_error {α : Type} (fault : GridFault) :
    (ofGrid (.error fault) : Run σ α).on machine = (.error (.ofFault (.value (.ofGrid fault))), machine) := rfl

theorem Run.on_declare_refused (name : String) (element : Ty) {fault : GridFault}
    (refused : Grid.slotCount bounds = .error fault) :
    (declareArray name element bounds : Run σ Unit).on machine =
      (.error (.ofFault (.value (.ofGrid fault))), machine) := by
  rw [declareArray, refused, on_stop (on_grid_error fault)]

theorem Run.on_resize_refused {name : String} {cell : Cell} (found : machine.lookup? name = some cell) (element : Ty)
    (preserve : Bool) {fault : GridFault} (refused : Grid.slotCount bounds = .error fault) :
    (resizeArray name element bounds preserve : Run σ Unit).on machine =
      (.error (.ofFault (.value (.ofGrid fault))), machine) := by
  have there : machine.ensureVariable name = (cell, machine) := by rw [Machine.ensureVariable, found]
  rw [resizeArray, on_seq (on_variable name machine), there, on_seq (on_get machine), refused]
  cases machine.store.content cell <;> exact on_stop (on_grid_error fault)

theorem Run.on_resize {name : String} {cell : Cell} (closed : machine.store.Closed)
    (found : machine.lookup? name = some cell) (below : cell < machine.store.size) (element : Ty) (preserve : Bool)
    {count : Nat} (counted : Grid.slotCount bounds = .ok count) :
    ∃ store, (resizeArray name element bounds preserve : Run σ Unit).on machine = (.ok (), { machine with store }) ∧
      store.LaysOut cell bounds := by
  have there : machine.ensureVariable name = (cell, machine) := by rw [Machine.ensureVariable, found]
  have laid (held : Ty) (kept : Array Cell) (missing : Nat) (filled : kept.size + missing = count) :
      ((machine.store.allocateMany held.default missing kept).2.put cell
        (.array held ⟨bounds, (machine.store.allocateMany held.default missing kept).1⟩)).LaysOut cell bounds := by
    obtain ⟨_, -, allocates⟩ := Store.allocate_many_spec closed held.default missing kept
    have size := Store.many_size closed held.default missing kept
    refine ⟨held, ⟨bounds, (machine.store.allocateMany held.default missing kept).1⟩, ?_, rfl, Grid.counted_built ?_⟩
    · exact (Store.content_put _ _ _ _ (Nat.lt_of_lt_of_le below allocates.extends_.size)).trans (if_pos rfl)
    · rw [size, filled, counted]
  rw [resizeArray, on_seq (on_variable name machine), there, on_seq (on_get machine), counted]
  cases machine.store.content cell with
  | array held grid =>
    refine ⟨_, rfl, laid held (grid.kept count preserve) _ ?_⟩
    have := grid.kept_size count preserve
    omega
  | _ => exact ⟨_, rfl, laid element #[] count (Nat.zero_add count)⟩

end Storage

namespace Grid

theorem arrays_are_row_major {σ α : Type} {grid : Grid α} (built : grid.Built) :
    grid.slots.size = volume grid.bounds ∧
    (∀ indices, (∃ slot, offset grid.bounds indices = .ok slot) ↔ Inside grid.bounds indices) ∧
    (∀ indices, checkedOffset grid.bounds indices = some (offset grid.bounds indices)) ∧
    (∀ indices slot, offset grid.bounds indices = .ok slot → slot < grid.slots.size) ∧
    (∀ slot < grid.slots.size, ∃! indices, offset grid.bounds indices = .ok slot) ∧
    (∀ left right slot later, offset grid.bounds left = .ok slot → offset grid.bounds right = .ok later →
      (slot < later ↔ left < right)) ∧
    (∀ indices, Inside grid.bounds indices → ∃ slot : Fin grid.slots.size,
      offset grid.bounds indices = .ok slot ∧ grid.get indices = .ok grid.slots[slot]) ∧
    (∀ indices, ¬Inside grid.bounds indices → offset grid.bounds indices = .error .subscript ∧
      grid.get indices = .error .subscript) ∧
    (∀ (values : Array Value) (element : Ty) indices value, values.size = grid.slots.size →
      (∀ fault, element.convert value = .error fault →
        Grid.set ⟨grid.bounds, values⟩ element indices value = .error fault) ∧
      (∀ stored, element.convert value = .ok stored →
        (Inside grid.bounds indices → ∃ slot : Fin values.size, offset grid.bounds indices = .ok slot ∧
          Grid.set ⟨grid.bounds, values⟩ element indices value = .ok ⟨grid.bounds, values.set slot stored⟩) ∧
        (¬Inside grid.bounds indices →
          Grid.set ⟨grid.bounds, values⟩ element indices value = .error .subscript))) ∧
    (∀ (machine : Machine σ) name element bounds fault, slotCount bounds = .error fault →
      (Run.declareArray name element bounds).on machine = (.error (.ofFault (.value (.ofGrid fault))), machine) ∧
      ∀ cell preserve, machine.lookup? name = some cell →
        (Run.resizeArray name element bounds preserve).on machine =
          (.error (.ofFault (.value (.ofGrid fault))), machine)) := by
  have proper := built.proper
  refine ⟨proper.filled, fun indices => ?_, fun indices => proper.checked_offset, fun indices slot located => ?_,
    fun slot below => proper.unique_place below, fun left right slot later atLeft atRight => ?_,
    fun indices inside => ?_, fun indices outside => ?_, fun values element indices value sameSize => ?_,
    fun machine name element bounds fault refused => ?_⟩
  · simp only [offset_ok_iff, exists_and_left, exists_eq', and_true]
  · obtain ⟨inside, rfl⟩ := offset_ok_iff.mp located
    exact proper.filled ▸ place_lt inside
  · obtain ⟨inLeft, rfl⟩ := offset_ok_iff.mp atLeft
    obtain ⟨inRight, rfl⟩ := offset_ok_iff.mp atRight
    exact place_lt_iff inLeft inRight
  · have below : place grid.bounds indices < grid.slots.size := proper.filled ▸ place_lt inside
    have located := offset_inside inside
    exact ⟨⟨_, below⟩, located, get_at located below⟩
  · exact ⟨offset_outside outside, get_outside outside⟩
  · refine ⟨fun fault refused => set_mismatched _ _ refused, fun stored taken =>
      ⟨fun inside => ?_, fun outside => set_outside outside taken⟩⟩
    have below : place grid.bounds indices < values.size := sameSize ▸ proper.filled ▸ place_lt inside
    have located := offset_inside inside
    exact ⟨⟨_, below⟩, located, set_at located below taken⟩
  · exact ⟨Run.on_declare_refused name element refused,
      fun cell preserve found => Run.on_resize_refused found element preserve refused⟩

theorem sample_array_is_row_major : ∃ first grid : Grid Nat, make [⟨1, 3⟩, ⟨1, 2⟩] 0 = .ok first ∧
    first.resize [⟨-1, 1⟩, ⟨0, 3⟩] true 7 = .ok grid ∧ grid.slots.size = 12 ∧ offset grid.bounds [0, 1] = .ok 5 ∧
    (∀ slot < 12, ∃! indices, offset grid.bounds indices = .ok slot) ∧ grid.get [2, 0] = .error .subscript := by
  refine ⟨_, _, rfl, rfl, rfl, rfl, ?_, rfl⟩
  let first : Grid Nat := ⟨[⟨1, 3⟩, ⟨1, 2⟩], Array.replicate 6 0⟩
  have made : make [⟨1, 3⟩, ⟨1, 2⟩] 0 = .ok first := rfl
  have resized : first.resize [⟨-1, 1⟩, ⟨0, 3⟩] true 7 = .ok _ := rfl
  exact (arrays_are_row_major (σ := Unit) ((Built.make made).resize resized)).2.2.2.2.1

theorem mismatch_before_subscript : ∃ grid, make [⟨1, 3⟩] (Ty.default .integer) = .ok grid ∧
    ¬Inside grid.bounds [99] ∧
    grid.set .integer [99] (.string "x") = .error (.typeMismatch "INTEGER" "STRING") := by
  refine ⟨_, rfl, fun inside => ?_, rfl⟩
  cases inside with
  | cons within rest => exact absurd within.2 (by decide)

end Grid

end BasicLang
