import BasicLang.Proofs.Arrays
import BasicLang.Proofs.Machine.Effects

set_option autoImplicit false

namespace BasicLang

namespace Grid

variable {α : Type} {bounds others : List Bounds} {indices : List Int}

structure Stretches (bounds others : List Bounds) : Prop where
  start : bounds.head?.map Bounds.lower = others.head?.map Bounds.lower
  rest : bounds.tail = others.tail

theorem Stretches.trans {more : List Bounds} (early : Stretches bounds others) (late : Stretches others more) :
    Stretches bounds more :=
  ⟨early.start.trans late.start, early.rest.trans late.rest⟩

theorem Stretches.symm (stretches : Stretches bounds others) : Stretches others bounds :=
  ⟨stretches.start.symm, stretches.rest.symm⟩

theorem Stretches.cases (stretches : Stretches bounds others) :
    (bounds = [] ∧ others = []) ∨
      ∃ first other rest, first.lower = other.lower ∧ bounds = first :: rest ∧ others = other :: rest := by
  obtain ⟨start, rest⟩ := stretches
  cases bounds with
  | nil =>
    cases others with
    | nil => exact .inl ⟨rfl, rfl⟩
    | cons other more => cases start
  | cons first more =>
    cases others with
    | nil => cases start
    | cons other others =>
      obtain rfl : more = others := rest
      exact .inr ⟨first, other, more, Option.some.inj start, rfl, rfl⟩

theorem Stretches.place_eq (stretches : Stretches bounds others) : place others indices = place bounds indices := by
  rcases stretches.cases with ⟨rfl, rfl⟩ | ⟨first, other, rest, start, rfl, rfl⟩
  · rfl
  · cases indices with
    | nil => rfl
    | cons index indices => rw [place, place, start]

-- A tuple within the new bounds is within the old ones when the old slots reach as far as its slot.
theorem Stretches.place_lt_iff (stretches : Stretches bounds others) (inside : Inside others indices) :
    place others indices < volume bounds ↔ Inside bounds indices := by
  refine ⟨fun below => ?_, fun before => stretches.place_eq ▸ place_lt before⟩
  rcases stretches.cases with ⟨rfl, rfl⟩ | ⟨first, other, rest, start, rfl, rfl⟩
  · exact inside
  · obtain ⟨index, more, within, inRest, rfl⟩ := List.forall₂_cons_left_iff.mp inside
    refine .cons ⟨start ▸ within.1, ?_⟩ inRest
    rw [place, volume_cons] at below
    have digit : (index - other.lower).toNat < first.extent :=
      Nat.lt_of_mul_lt_mul_right (Nat.lt_of_le_of_lt (Nat.le_add_right _ _) below)
    unfold Bounds.extent at digit
    omega

theorem inside_volume {grid : Grid α} (built : grid.Built) (stretches : Stretches grid.bounds bounds)
    (inside : Inside bounds indices) : place bounds indices < grid.slots.size ↔ Inside grid.bounds indices := by
  rw [built.proper.filled]
  exact stretches.place_lt_iff inside

theorem get_slot {grid : Grid α} {value : α} (inside : Inside grid.bounds indices)
    (there : grid.slots[place grid.bounds indices]? = some value) : grid.get indices = .ok value := by
  rw [get_eq, offset_inside inside]
  simp only [there]

end Grid

section Storage

variable {store later : Store} {cell : Cell} {held : Ty} {grid after : Grid Cell} {bounds : List Bounds}
  {indices : List Int}

def Grid.SameElement (store : Store) (grid : Grid Cell) (later : Store) (after : Grid Cell) (indices : List Int) : Prop :=
  ∃ part, grid.get indices = .ok part ∧ after.get indices = .ok part ∧ later.read part = store.read part

def Grid.NewElement (store later : Store) (after : Grid Cell) (value : Value) (indices : List Int) : Prop :=
  ∃ part, after.get indices = .ok part ∧ store.size ≤ part ∧ later.read part = value

theorem Grid.SameElement.trans {last : Store} {final : Grid Cell} (early : grid.SameElement store later after indices)
    (late : after.SameElement later last final indices) : grid.SameElement store last final indices := by
  obtain ⟨part, wasHere, isHere, reads⟩ := early
  obtain ⟨other, isHere', stays, readsLast⟩ := late
  obtain rfl : part = other := Except.ok.inj (isHere.symm.trans isHere')
  exact ⟨part, wasHere, stays, readsLast.trans reads⟩

theorem Grid.NewElement.stays {last : Store} {final : Grid Cell} {value : Value}
    (early : after.NewElement store later value indices) (late : after.SameElement later last final indices) :
    final.NewElement store last value indices := by
  obtain ⟨part, isHere, new, reads⟩ := early
  obtain ⟨other, isHere', stays, readsLast⟩ := late
  obtain rfl : part = other := Except.ok.inj (isHere.symm.trans isHere')
  exact ⟨part, stays, new, readsLast.trans reads⟩

theorem Grid.NewElement.earlier {last : Store} {value : Value} (grows : store.size ≤ later.size)
    (late : after.NewElement later last value indices) : after.NewElement store last value indices := by
  obtain ⟨part, isHere, new, reads⟩ := late
  exact ⟨part, isHere, Nat.le_trans grows new, reads⟩

structure Store.Refits (store : Store) (cell : Cell) (held : Ty) (grid : Grid Cell) (stay : Nat) (later : Store)
    (after : Grid Cell) : Prop where
  develops : Store.Develops (some cell = some ·) store later
  holds : later.content cell = .array held after
  built : after.Built
  stays : ∀ indices, Grid.Inside after.bounds indices → Grid.place after.bounds indices < stay →
    ∃ part, grid.slots[Grid.place after.bounds indices]? = some part ∧ after.get indices = .ok part ∧
      later.read part = store.read part
  fresh : ∀ indices, Grid.Inside after.bounds indices → stay ≤ Grid.place after.bounds indices →
    after.NewElement store later held.default indices

theorem Store.many_slots (closed : store.Closed) (value : Value) (count : Nat) (before : Array Cell) :
    (∀ slot < before.size, (store.allocateMany value count before).1[slot]? = before[slot]?) ∧
    ∀ slot < (store.allocateMany value count before).1.size, before.size ≤ slot →
      ∃ part, (store.allocateMany value count before).1[slot]? = some part ∧ store.size ≤ part ∧
        (store.allocateMany value count before).2.read part = value := by
  obtain ⟨cells, listed, allocates⟩ := allocate_many_spec closed value count before
  have slots (slot : Nat) : (store.allocateMany value count before).1[slot]? = (before.toList ++ cells)[slot]? := by
    rw [← listed, Array.getElem?_toList]
  refine ⟨fun slot stays => ?_, fun slot reached added => ?_⟩
  · rw [slots, List.getElem?_append_left (by rwa [Array.length_toList]), Array.getElem?_toList]
  · have there := Array.getElem?_eq_getElem reached
    have new : (store.allocateMany value count before).1[slot] ∈ cells := by
      rw [slots, List.getElem?_append_right (by rwa [Array.length_toList])] at there
      exact List.mem_of_getElem? there
    exact ⟨_, there, (allocates.fresh _ new).1,
      List.eq_of_mem_replicate (allocates.reads ▸ List.mem_map_of_mem new)⟩

theorem Grid.kept_slot {α : Type} {grid : Grid α} {count slot : Nat} {preserve : Bool}
    (stays : slot < (grid.kept count preserve).size) :
    ∃ part, (grid.kept count preserve)[slot]? = some part ∧ grid.slots[slot]? = some part := by
  refine ⟨_, Array.getElem?_eq_getElem stays, ?_⟩
  rw [← Array.getElem?_toList]
  exact List.prefix_iff_getElem?.mp (grid.kept_prefix count preserve) slot stays

theorem Store.refits (forest : store.Forest) (holds : store.content cell = .array held grid) (preserve : Bool)
    {count : Nat} (counted : Grid.slotCount bounds = .ok count) :
    let kept := grid.kept count preserve
    let added := store.allocateMany held.default (count - kept.size) kept
    store.Refits cell held grid kept.size (added.2.put cell (.array held ⟨bounds, added.1⟩)) ⟨bounds, added.1⟩ := by
  intro kept added
  have parts : (store.content cell).parts = grid.slots.toList := congrArg Content.parts holds
  have below : cell < store.size := by
    by_contra above
    rw [content_of_ge (Nat.not_lt.mp above)] at holds
    cases holds
  have edit : store.Edit (some cell) (added.2.put cell (.array held ⟨bounds, added.1⟩)) :=
    .resize cell held bounds _ kept (parts ▸ grid.kept_prefix count preserve) below
  have develops := edit.develops forest
  have extends_ := (allocate_many_evolves forest.toClosed held.default (count - kept.size) kept).size
  have there : cell < added.2.size := Nat.lt_of_lt_of_le below extends_
  have size : added.1.size = count := by
    have fewer : kept.size ≤ count := grid.kept_size count preserve
    rw [many_size forest.toClosed]
    omega
  obtain ⟨old, new⟩ := many_slots forest.toClosed held.default (count - kept.size) kept
  refine ⟨develops, (content_put _ _ _ _ there).trans (if_pos rfl), Grid.counted_built (size ▸ counted), ?_, ?_⟩
  · intro indices inside stays
    obtain ⟨part, isKept, was⟩ := Grid.kept_slot stays
    have isPart : part ∈ (store.content cell).parts := by
      rw [parts]
      exact Array.mem_toList_iff.mpr (Array.mem_of_getElem? was)
    refine ⟨part, was, Grid.get_slot inside ((old _ stays).trans isKept), ?_⟩
    apply develops.read forest (forest.parts _ _ isPart)
    rintro other isHeld same
    obtain rfl : cell = other := Option.some.inj same
    exact forest.no_return isPart isHeld
  · intro indices inside above
    have reached : Grid.place bounds indices < added.1.size := by
      rw [size, (Grid.slot_count_proper counted).filled]
      exact Grid.place_lt inside
    obtain ⟨part, slot, fresh, reads⟩ := new _ reached above
    refine ⟨part, Grid.get_slot inside slot, fresh, ?_⟩
    rw [read_put_after _ there (Nat.lt_of_lt_of_le below fresh)]
    exact reads

theorem Store.Refits.preserved {count : Nat} (refits : store.Refits cell held grid (grid.kept count true).size later after)
    (sized : after.slots.size = count) (built : grid.Built) (stretches : Grid.Stretches grid.bounds after.bounds)
    (inside : Grid.Inside after.bounds indices) :
    (Grid.Inside grid.bounds indices → grid.SameElement store later after indices) ∧
    (¬Grid.Inside grid.bounds indices → after.NewElement store later held.default indices) := by
  have reached : Grid.place after.bounds indices < count := by
    rw [← sized, refits.built.proper.filled]
    exact Grid.place_lt inside
  have stay : (grid.kept count true).size = min count grid.slots.size := by
    rw [Grid.kept, if_pos rfl, Array.size_extract, Nat.sub_zero]
  have within := Grid.inside_volume built stretches inside
  refine ⟨fun before => ?_, fun before => refits.fresh indices inside ?_⟩
  · obtain ⟨part, was, isHere, reads⟩ := refits.stays indices inside (by have := within.mpr before; omega)
    rw [stretches.place_eq] at was
    exact ⟨part, Grid.get_slot before was, isHere, reads⟩
  · have := mt within.mp before
    omega

variable {σ : Type} {machine final : Machine σ} {name : String} {element : Ty} {preserve : Bool}

theorem Run.on_resize_array (found : machine.lookup? name = some cell) (holds : machine.store.content cell = .array held grid)
    (resized : (resizeArray name element bounds preserve : Run σ Unit).on machine = (.ok (), final)) :
    ∃ count, Grid.slotCount bounds = .ok count ∧
      let kept := grid.kept count preserve
      let added := machine.store.allocateMany held.default (count - kept.size) kept
      final = { machine with store := added.2.put cell (.array held ⟨bounds, added.1⟩) } := by
  cases counted : Grid.slotCount bounds with
  | error fault =>
    rw [on_resize_refused found element preserve counted] at resized
    cases resized
  | ok count =>
    have there : machine.ensureVariable name = (cell, machine) := by rw [Machine.ensureVariable, found]
    rw [resizeArray, on_seq (on_variable name machine), there, on_seq (on_get machine), holds, counted] at resized
    exact ⟨count, rfl, (congrArg Prod.snd resized).symm⟩

theorem Run.resize_elements (forest : machine.store.Forest) (found : machine.lookup? name = some cell)
    (holds : machine.store.content cell = .array held grid) (built : grid.Built)
    (resized : (resizeArray name element bounds preserve : Run σ Unit).on machine = (.ok (), final)) :
    final.store.Forest ∧ final = { machine with store := final.store } ∧ machine.store.size ≤ final.store.size ∧
    ∃ after : Grid Cell, final.store.content cell = .array held after ∧ after.bounds = bounds ∧ after.Built ∧
      (preserve = false → ∀ indices, Grid.Inside bounds indices →
        after.NewElement machine.store final.store held.default indices) ∧
      (preserve = true → Grid.Stretches grid.bounds bounds → ∀ indices, Grid.Inside bounds indices →
        (Grid.Inside grid.bounds indices → grid.SameElement machine.store final.store after indices) ∧
        (¬Grid.Inside grid.bounds indices → after.NewElement machine.store final.store held.default indices)) := by
  obtain ⟨count, counted, rfl⟩ := on_resize_array found holds resized
  have refits := Store.refits forest holds preserve counted
  refine ⟨refits.develops.forest, rfl, refits.develops.size, _, refits.holds, rfl, refits.built, ?_, ?_⟩
  · rintro rfl indices inside
    exact refits.fresh indices inside (Nat.zero_le _)
  · rintro rfl stretches indices inside
    refine refits.preserved ?_ built stretches inside
    rw [refits.built.proper.filled, (Grid.slot_count_proper counted).filled]

def Run.resizeInTurn (name : String) (element : Ty) : List (List Bounds) → Run σ Unit
  | [] => pure ()
  | bounds :: rest => do
    resizeArray name element bounds true
    resizeInTurn name element rest

theorem Run.resize_in_turn_elements (forest : machine.store.Forest) (found : machine.lookup? name = some cell)
    (holds : machine.store.content cell = .array held grid) (built : grid.Built) (steps : List (List Bounds))
    (stretches : ∀ bounds ∈ steps, Grid.Stretches grid.bounds bounds)
    (resized : (resizeInTurn name element steps : Run σ Unit).on machine = (.ok (), final)) :
    ∃ after : Grid Cell, final.store.content cell = .array held after ∧
      after.bounds = steps.getLast?.getD grid.bounds ∧ machine.store.size ≤ final.store.size ∧
      ∀ indices, Grid.Inside after.bounds indices →
        ((∀ bounds ∈ grid.bounds :: steps, Grid.Inside bounds indices) →
          grid.SameElement machine.store final.store after indices) ∧
        ((∃ bounds ∈ grid.bounds :: steps, ¬Grid.Inside bounds indices) →
          after.NewElement machine.store final.store held.default indices) := by
  induction steps generalizing machine grid with
  | nil =>
    obtain rfl : machine = final := congrArg Prod.snd resized
    refine ⟨grid, holds, rfl, Nat.le_refl _, fun indices inside => ⟨fun _ => ?_, fun outside => ?_⟩⟩
    · have below : Grid.place grid.bounds indices < grid.slots.size := (Grid.inside_volume built ⟨rfl, rfl⟩ inside).mpr inside
      have slot := Grid.get_slot inside (Array.getElem?_eq_getElem below)
      exact ⟨_, slot, slot, rfl⟩
    · obtain ⟨bounds, among, outside⟩ := outside
      rw [List.mem_singleton.mp among] at outside
      exact absurd inside outside
  | cons bounds rest ih =>
    obtain ⟨stretchesFirst, stretchesRest⟩ := List.forall_mem_cons.mp stretches
    cases first : (resizeArray name element bounds true : Run σ Unit).on machine with
    | mk result middle =>
    cases result with
    | error error =>
      rw [resizeInTurn, on_stop first] at resized
      cases resized
    | ok =>
      rw [resizeInTurn, on_seq first] at resized
      obtain ⟨forestMiddle, framed, grew, between, holdsMiddle, rfl, builtMiddle, -, elements⟩ :=
        resize_elements forest found holds built first
      have foundMiddle : middle.lookup? name = some cell := by
        rw [framed]
        exact found
      obtain ⟨after, holdsAfter, last, grows, others⟩ := ih forestMiddle foundMiddle holdsMiddle builtMiddle
        (fun bounds among => stretchesFirst.symm.trans (stretchesRest bounds among)) resized
      refine ⟨after, holdsAfter, ?_, Nat.le_trans grew grows, fun indices inside => ⟨fun within => ?_, fun outside => ?_⟩⟩
      · rw [last, List.getLast?_cons, Option.getD_some]
      · obtain ⟨before, later⟩ := List.forall_mem_cons.mp within
        have now := later between.bounds List.mem_cons_self
        exact ((elements rfl stretchesFirst indices now).1 before).trans ((others indices inside).1 later)
      · by_cases later : ∀ bounds ∈ between.bounds :: rest, Grid.Inside bounds indices
        · -- Only the first bounds leave the subscripts out.
          obtain ⟨bounds, among, outside⟩ := outside
          obtain rfl : bounds = grid.bounds :=
            (List.mem_cons.mp among).resolve_right fun isLater => outside (later bounds isLater)
          have now := later between.bounds List.mem_cons_self
          exact ((elements rfl stretchesFirst indices now).2 outside).stays ((others indices inside).1 later)
        · push Not at later
          exact ((others indices inside).2 later).earlier grew

end Storage

namespace Grid

-- Containers are trees in every machine that a host reaches, by `Machine.after_all_rooted`.
theorem resizing_keeps_elements {σ : Type} {machine : Machine σ} {name : String} {cell : Cell} {element held : Ty}
    {grid : Grid Cell} (forest : machine.store.Forest) (found : machine.lookup? name = some cell)
    (holds : machine.store.content cell = .array held grid) (built : grid.Built) :
    (∀ bounds preserve final, (Run.resizeArray name element bounds preserve).on machine = (.ok (), final) →
      ∃ after : Grid Cell, final.store.content cell = .array held after ∧ after.bounds = bounds ∧ after.Built ∧
        (preserve = false → ∀ indices, Inside bounds indices →
          after.NewElement machine.store final.store held.default indices) ∧
        (preserve = true → Stretches grid.bounds bounds → ∀ indices, Inside bounds indices →
          (Inside grid.bounds indices → grid.SameElement machine.store final.store after indices) ∧
          (¬Inside grid.bounds indices → after.NewElement machine.store final.store held.default indices))) ∧
    (∀ steps final, (∀ bounds ∈ steps, Stretches grid.bounds bounds) →
      (Run.resizeInTurn name element steps).on machine = (.ok (), final) →
      ∃ after : Grid Cell, final.store.content cell = .array held after ∧
        after.bounds = steps.getLast?.getD grid.bounds ∧ ∀ indices, Inside after.bounds indices →
          ((∀ bounds ∈ grid.bounds :: steps, Inside bounds indices) →
            grid.SameElement machine.store final.store after indices) ∧
          ((∃ bounds ∈ grid.bounds :: steps, ¬Inside bounds indices) →
            after.NewElement machine.store final.store held.default indices)) := by
  refine ⟨fun bounds preserve final resized => ?_, fun steps final stretches resized => ?_⟩
  · obtain ⟨-, -, -, after, elements⟩ := Run.resize_elements forest found holds built resized
    exact ⟨after, elements⟩
  · obtain ⟨after, holdsAfter, last, -, elements⟩ :=
      Run.resize_in_turn_elements forest found holds built steps stretches resized
    exact ⟨after, holdsAfter, last, elements⟩

theorem grown_table_keeps_elements :
    let table : Grid Cell := ⟨[⟨1, 2⟩, ⟨0, 1⟩], #[1, 2, 3, 4]⟩
    let store : Store := ⟨#[.array .integer table, .plain (.integer 0), .plain (.integer 0), .plain (.integer 0),
      .plain (.integer 7)]⟩
    let machine : Machine Unit := { Machine.create () with store, scopes := #[[("T", 0)]] }
    ∃ final after, (Run.resizeArray "T" .integer [⟨1, 3⟩, ⟨0, 1⟩] true).on machine = (.ok (), final) ∧
      final.store.content 0 = .array .integer after ∧
      (after.get [2, 1] = .ok 4 ∧ final.store.read 4 = .integer 7) ∧
      ∃ part, after.get [3, 0] = .ok part ∧ 5 ≤ part ∧ final.store.read part = .integer 0 := by
  intro table store machine
  have content (owner : Cell) : (store.content owner).isSimple = true ∧
      (store.content owner).parts = if owner = 0 then [1, 2, 3, 4] else [] := by
    match owner with
    | 0 | 1 | 2 | 3 | 4 => exact ⟨rfl, rfl⟩
    | more + 5 => exact ⟨rfl, rfl⟩
  have owned {owner part : Cell} (isPart : part ∈ (store.content owner).parts) : owner = 0 ∧ part ∈ [1, 2, 3, 4] := by
    rw [(content owner).2] at isPart
    split at isPart
    · next first => exact ⟨first, isPart⟩
    · cases isPart
  have forest : machine.store.Forest :=
    { parts := fun owner part isPart => (by decide : ∀ part ∈ [1, 2, 3, 4], part < 5) part (owned isPart).2
      plain := fun owner => (content owner).1
      ordered := fun owner part isPart => by
        rw [(owned isPart).1]
        exact (by decide : ∀ part ∈ [1, 2, 3, 4], 0 < part) part (owned isPart).2
      distinct := fun owner => by
        rw [(content owner).2]
        split <;> decide
      single := fun owner other part isPart isOther => (owned isPart).1.trans (owned isOther).1.symm }
  have found : machine.lookup? "T" = some 0 := rfl
  have holds : machine.store.content 0 = .array .integer table := rfl
  have counted : slotCount [⟨1, 3⟩, ⟨0, 1⟩] = .ok 6 := rfl
  obtain ⟨later, ran, -⟩ := Run.on_resize forest.toClosed found (by decide) .integer true counted
  obtain ⟨after, isHeld, bounds, -, -, elements⟩ :=
    (resizing_keeps_elements forest found holds (counted_built rfl)).1 _ true _ ran
  have within : Inside [⟨1, 3⟩, ⟨0, 1⟩] [2, 1] ∧ Inside [⟨1, 2⟩, ⟨0, 1⟩] [2, 1] := by simp [Inside]
  have beyond : Inside [⟨1, 3⟩, ⟨0, 1⟩] [3, 0] ∧ ¬Inside [⟨1, 2⟩, ⟨0, 1⟩] [3, 0] := by simp [Inside]
  obtain ⟨part, was, stays, reads⟩ := (elements rfl ⟨rfl, rfl⟩ [2, 1] within.1).1 within.2
  obtain rfl : 4 = part := Except.ok.inj was
  refine ⟨_, after, ran, isHeld, ⟨stays, reads.trans ?_⟩, (elements rfl ⟨rfl, rfl⟩ [3, 0] beyond.1).2 beyond.2⟩
  exact Store.read_eq _ 4

end Grid

end BasicLang
