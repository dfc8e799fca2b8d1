import BasicLang.Machine.Store

set_option autoImplicit false

namespace BasicLang

def Content.parts : Content → List Cell
  | .plain _ => []
  | .array _ grid => grid.slots.toList
  | .record _ _ fields => fields.toList

def Content.isSimple : Content → Bool
  | .plain (.array _ _ _) => false
  | .plain (.record _ _ _) => false
  | _ => true

namespace Store

variable {store later : Store}

def readPart (store : Store) (cell part : Cell) : Value := if cell < part then store.read part else .null

def valueOf (store : Store) (cell : Cell) : Content → Value
  | .plain value => value
  | .array element grid => .array element grid.bounds (grid.slots.toList.map (store.readPart cell))
  | .record name members fields => .record name members (fields.toList.map (store.readPart cell))

theorem content_eq (store : Store) (cell : Cell) :
    store.content cell = store.cells[cell]?.getD (.plain .null) := Array.getD_eq_getD_getElem?

theorem content_of_ge {cell : Cell} (above : store.size ≤ cell) : store.content cell = .plain .null := by
  rw [content_eq, Array.getElem?_eq_none above]
  rfl

theorem read_eq (store : Store) (cell : Cell) : store.read cell = store.valueOf cell (store.content cell) := by
  rw [read, content_eq]
  split
  · next below =>
    rw [Array.getElem?_eq_getElem below, Option.getD_some]
    split <;> simp_all only [valueOf, Array.toList_map] <;> rfl
  · next above =>
    rw [Array.getElem?_eq_none (Nat.le_of_not_lt above)]
    rfl

theorem read_ty (store : Store) (cell : Cell) : (store.read cell).ty = store.ty cell := by
  rw [read_eq, ty]
  cases store.content cell <;> rfl

theorem value_of_same {cell : Cell} {content : Content}
    (same : ∀ part ∈ content.parts, cell < part → later.read part = store.read part) :
    later.valueOf cell content = store.valueOf cell content := by
  have each (parts : List Cell) (inside : ∀ part ∈ parts, part ∈ content.parts) :
      parts.map (later.readPart cell) = parts.map (store.readPart cell) := by
    refine List.map_congr_left fun part found => ?_
    unfold readPart
    split
    · next after => exact same part (inside part found) after
    · rfl
  cases content with
  | plain value => rfl
  | array element grid => exact congrArg (Value.array _ _) (each _ fun _ found => found)
  | record name members fields => exact congrArg (Value.record _ _) (each _ fun _ found => found)

theorem read_same (reached : Cell → Prop)
    (parts : ∀ cell, reached cell → ∀ part ∈ (store.content cell).parts, cell < part → reached part)
    (same : ∀ cell, reached cell → later.content cell = store.content cell) {cell : Cell}
    (start : reached cell) : later.read cell = store.read cell := by
  rw [read_eq, read_eq, same cell start]
  by_cases below : cell < store.size
  · refine value_of_same fun part found after => ?_
    have smaller : store.size - part < store.size - cell := Nat.sub_lt_sub_left below after
    exact read_same reached parts same (parts cell start part found after)
  · rw [content_of_ge (Nat.le_of_not_lt below)]
    rfl
termination_by store.size - cell

structure Closed (store : Store) : Prop where
  parts : ∀ cell, ∀ part ∈ (store.content cell).parts, part < store.size
  plain : ∀ cell, (store.content cell).isSimple = true

structure Extends (store later : Store) : Prop where
  size : store.size ≤ later.size
  same : ∀ cell < store.size, later.content cell = store.content cell

theorem Extends.refl (store : Store) : Extends store store := ⟨Nat.le_refl _, fun _ _ => rfl⟩

theorem Extends.trans {last : Store} (early : Extends store later) (late : Extends later last) :
    Extends store last :=
  ⟨Nat.le_trans early.size late.size, fun cell below =>
    (late.same cell (Nat.lt_of_lt_of_le below early.size)).trans (early.same cell below)⟩

theorem Extends.read (extends_ : Extends store later) (closed : store.Closed) {cell : Cell}
    (below : cell < store.size) : later.read cell = store.read cell :=
  read_same (· < store.size) (fun cell _ part found _ => closed.parts cell part found) extends_.same below

theorem size_push (store : Store) (content : Content) : (store.push content).size = store.size + 1 := by
  simp [size, push]

theorem size_put (store : Store) (cell : Cell) (content : Content) :
    (store.put cell content).size = store.size := by
  simp [size, put]

theorem content_put (store : Store) (cell other : Cell) (content : Content) (below : cell < store.size) :
    (store.put cell content).content other = if other = cell then content else store.content other := by
  rw [content_eq, content_eq, put, Array.getElem?_setIfInBounds]
  by_cases same : cell = other
  · rw [if_pos same, if_pos same.symm, if_pos (same ▸ below)]
    rfl
  · rw [if_neg same, if_neg (Ne.symm same)]

theorem content_push (store : Store) (content : Content) (cell : Cell) :
    (store.push content).content cell = if cell = store.size then content else store.content cell := by
  rw [content_eq, content_eq, push, Array.getElem?_push, size]
  split
  · rfl
  · rfl

theorem Closed.push_null (closed : store.Closed) : (store.push (.plain .null)).Closed := by
  refine ⟨fun cell part found => ?_, fun cell => ?_⟩
  · rw [content_push] at found
    rw [size_push]
    split at found
    · cases found
    · exact Nat.lt_succ_of_lt (closed.parts cell part found)
  · rw [content_push]
    split
    · rfl
    · exact closed.plain cell

theorem Closed.put {cell : Cell} {content : Content} (closed : store.Closed) (below : cell < store.size)
    (inside : ∀ part ∈ content.parts, part < store.size) (simple : content.isSimple = true) :
    (store.put cell content).Closed := by
  refine ⟨fun other part found => ?_, fun other => ?_⟩
  · rw [content_put _ _ _ _ below] at found
    rw [size_put]
    split at found
    · exact inside part found
    · exact closed.parts other part found
  · rw [content_put _ _ _ _ below]
    split
    · exact simple
    · exact closed.plain other

theorem extends_push (store : Store) (content : Content) : Extends store (store.push content) := by
  refine ⟨?_, fun cell below => ?_⟩
  · rw [size_push]
    exact Nat.le_succ _
  · rw [content_push, if_neg (Nat.ne_of_lt below)]

theorem Extends.put {cell : Cell} (extends_ : Extends store later) (content : Content)
    (fresh : store.size ≤ cell) (below : cell < later.size) : Extends store (later.put cell content) := by
  refine ⟨?_, fun other old => ?_⟩
  · rw [size_put]
    exact extends_.size
  · rw [content_put _ _ _ _ below, if_neg (Nat.ne_of_lt (Nat.lt_of_lt_of_le old fresh))]
    exact extends_.same other old

theorem read_put_after {cell other : Cell} (content : Content) (below : cell < store.size)
    (after : cell < other) : (store.put cell content).read other = store.read other := by
  refine read_same (cell < ·) (fun _ above part _ later => Nat.lt_trans above later) ?_ after
  intro found above
  rw [content_put _ _ _ _ below, if_neg (Nat.ne_of_gt above)]

structure Installs (store : Store) (value : Value) (content : Content) (later : Store) : Prop where
  extends_ : Extends store later
  closed : later.Closed
  parts : ∀ part ∈ content.parts, store.size ≤ part ∧ part < later.size
  simple : content.isSimple = true
  stands : ∀ cell < store.size, later.valueOf cell content = value

structure Allocates (store : Store) (values : List Value) (cells : List Cell) (later : Store) : Prop where
  extends_ : Extends store later
  closed : later.Closed
  fresh : ∀ cell ∈ cells, store.size ≤ cell ∧ cell < later.size
  reads : cells.map later.read = values

theorem Allocates.read_parts {values : List Value} {cells : List Cell}
    (allocates : Allocates store values cells later) {cell : Cell} (below : cell < store.size) :
    cells.map (later.readPart cell) = values := by
  rw [← allocates.reads]
  refine List.map_congr_left fun part found => ?_
  rw [readPart, if_pos (Nat.lt_of_lt_of_le below (allocates.fresh part found).1)]

theorem Allocates.read {value : Value} {cell : Cell} (allocates : Allocates store [value] [cell] later) :
    later.read cell = value := by
  simpa using allocates.reads

theorem Installs.put {value : Value} {content : Content}
    (installs : Installs (store.push (.plain .null)) value content later) :
    Allocates store [value] [store.size] (later.put store.size content) := by
  have below : store.size < (store.push (.plain .null)).size := by simp [size_push]
  have inside : store.size < later.size := Nat.lt_of_lt_of_le below installs.extends_.size
  refine
    { extends_ := ((extends_push store _).trans installs.extends_).put content (Nat.le_refl _) inside
      closed := installs.closed.put inside (fun part found => (installs.parts part found).2) installs.simple
      fresh := ?_
      reads := ?_ }
  · rintro cell found
    rw [List.mem_singleton.mp found, size_put]
    exact ⟨Nat.le_refl _, inside⟩
  · have stands := installs.stands store.size below
    rw [List.map_singleton, read_eq, content_put _ _ _ _ inside, if_pos rfl, ← stands]
    congr 1
    exact value_of_same fun part found after => read_put_after content inside after

theorem Allocates.append {values laterValues : List Value} {cells laterCells : List Cell} {last : Store}
    (first : Allocates store values cells later)
    (rest : Allocates later laterValues laterCells last) :
    Allocates store (values ++ laterValues) (cells ++ laterCells) last where
  extends_ := first.extends_.trans rest.extends_
  closed := rest.closed
  fresh := List.forall_mem_append.mpr
    ⟨fun cell found => ⟨(first.fresh cell found).1,
        Nat.lt_of_lt_of_le (first.fresh cell found).2 rest.extends_.size⟩,
      fun cell found => ⟨Nat.le_trans first.extends_.size (rest.fresh cell found).1,
        (rest.fresh cell found).2⟩⟩
  reads := by
    rw [List.map_append, rest.reads, ← first.reads]
    congr 1
    exact List.map_congr_left fun cell found => rest.extends_.read first.closed (first.fresh cell found).2

theorem Allocates.none (closed : store.Closed) : Allocates store [] [] store where
  extends_ := .refl store
  closed := closed
  fresh := fun _ found => nomatch found
  reads := rfl

mutual

theorem install_spec (store : Store) (closed : store.Closed) (value : Value) :
    Installs store value (store.install value).1 (store.install value).2 := by
  cases value with
  | array element bounds slots =>
    obtain ⟨cells, found, allocates⟩ := allocate_all_spec store closed slots #[]
    rw [List.nil_append] at found
    rw [install]
    refine ⟨allocates.extends_, allocates.closed, fun part inside => ?_, rfl, fun cell below => ?_⟩
    · exact allocates.fresh part (found ▸ inside)
    · rw [valueOf, found, allocates.read_parts below]
  | record name members fields =>
    obtain ⟨cells, found, allocates⟩ := allocate_all_spec store closed fields #[]
    rw [List.nil_append] at found
    rw [install]
    refine ⟨allocates.extends_, allocates.closed, fun part inside => ?_, rfl, fun cell below => ?_⟩
    · exact allocates.fresh part (found ▸ inside)
    · rw [valueOf, found, allocates.read_parts below]
  | _ => exact ⟨.refl store, closed, fun _ found => (nomatch found), rfl, fun _ _ => rfl⟩

theorem allocate_all_spec (store : Store) (closed : store.Closed) (values : List Value)
    (before : Array Cell) :
    ∃ cells, (store.allocateAll values before).1.toList = before.toList ++ cells ∧
      Allocates store values cells (store.allocateAll values before).2 := by
  cases values with
  | nil => exact ⟨[], by simp [allocateAll], .none closed⟩
  | cons value rest =>
    have first := (install_spec _ closed.push_null value).put
    obtain ⟨cells, found, others⟩ := allocate_all_spec _ first.closed rest (before.push store.size)
    refine ⟨store.size :: cells, ?_, ?_⟩
    · rw [allocateAll, found]
      simp
    · rw [allocateAll]
      exact first.append others

end

theorem allocate_spec (closed : store.Closed) (value : Value) :
    Allocates store [value] [(store.allocate value).1] (store.allocate value).2 :=
  (install_spec _ closed.push_null value).put

theorem allocate_many_spec (closed : store.Closed) (value : Value) (count : Nat) (before : Array Cell) :
    ∃ cells, (store.allocateMany value count before).1.toList = before.toList ++ cells ∧
      Allocates store (List.replicate count value) cells (store.allocateMany value count before).2 := by
  induction count generalizing store before with
  | zero => exact ⟨[], by simp [allocateMany], .none closed⟩
  | succ count ih =>
    have first := allocate_spec closed value
    obtain ⟨cells, found, others⟩ := ih first.closed (before.push (store.allocate value).1)
    refine ⟨(store.allocate value).1 :: cells, ?_, ?_⟩
    · rw [allocateMany, found]
      simp
    · rw [allocateMany]
      exact first.append others

theorem allocate_array_spec (closed : store.Closed) (element : Ty) (bounds : List Bounds) (count : Nat) :
    Allocates store [.array element bounds (List.replicate count element.default)]
      [(store.allocateArray element bounds count).1] (store.allocateArray element bounds count).2 := by
  obtain ⟨cells, found, allocates⟩ :=
    allocate_many_spec closed.push_null element.default count #[]
  rw [List.nil_append] at found
  refine Installs.put
    ⟨allocates.extends_, allocates.closed, fun part inside => ?_, rfl, fun cell below => ?_⟩
  · exact allocates.fresh part (found ▸ inside)
  · rw [valueOf, found, allocates.read_parts below]

mutual

theorem install_parts_new (store : Store) (closed : store.Closed) (value : Value) {owner part : Cell}
    (new : store.size ≤ owner) (isPart : part ∈ ((store.install value).2.content owner).parts) : store.size ≤ part := by
  cases value with
  | array element bounds slots =>
    rw [install] at isPart
    exact allocate_all_parts_new store closed slots #[] new isPart
  | record name members fields =>
    rw [install] at isPart
    exact allocate_all_parts_new store closed fields #[] new isPart
  | _ =>
    rw [install, content_of_ge new] at isPart
    · cases isPart
    all_goals simp

theorem allocate_all_parts_new (store : Store) (closed : store.Closed) (values : List Value) (before : Array Cell)
    {owner part : Cell} (new : store.size ≤ owner)
    (isPart : part ∈ ((store.allocateAll values before).2.content owner).parts) : store.size ≤ part := by
  cases values with
  | nil =>
    rw [allocateAll, content_of_ge new] at isPart
    cases isPart
  | cons value rest =>
    rw [allocateAll] at isPart
    have installs := install_spec _ closed.push_null value
    have first := installs.put
    obtain ⟨cells, -, others⟩ := allocate_all_spec _ first.closed rest (before.push store.size)
    by_cases later : (((store.push (.plain .null)).install value).2.put store.size
        ((store.push (.plain .null)).install value).1).size ≤ owner
    · have newer := allocate_all_parts_new _ first.closed rest (before.push store.size) later isPart
      exact Nat.le_trans first.extends_.size newer
    · rw [others.extends_.same owner (Nat.not_le.mp later)] at isPart
      have inside : store.size < ((store.push (.plain .null)).install value).2.size :=
        Nat.lt_of_lt_of_le (by simp [size_push]) installs.extends_.size
      rw [content_put _ _ _ _ inside] at isPart
      have pushed : (store.push (.plain .null)).size = store.size + 1 := size_push store _
      split at isPart
      · have := (installs.parts part isPart).1
        omega
      · next different =>
        have above : (store.push (.plain .null)).size ≤ owner :=
          pushed ▸ Nat.lt_of_le_of_ne new (Ne.symm different)
        have := install_parts_new _ closed.push_null value above isPart
        omega

end

structure Evolves (changed : Cell → Prop) (store later : Store) : Prop where
  size : store.size ≤ later.size
  closed : later.Closed
  same : ∀ cell < store.size, ¬changed cell → later.content cell = store.content cell
  parts : ∀ owner, ∀ part ∈ (later.content owner).parts,
    (∃ other, part ∈ (store.content other).parts) ∨ store.size ≤ part

section Evolves

variable {changed : Cell → Prop}

theorem Extends.evolves (extends_ : Extends store later) (closed : later.Closed)
    (parts : ∀ owner, store.size ≤ owner → ∀ part ∈ (later.content owner).parts, store.size ≤ part) :
    Evolves (fun _ => False) store later where
  size := extends_.size
  closed := closed
  same := fun cell below _ => extends_.same cell below
  parts := fun owner part isPart => by
    by_cases below : owner < store.size
    · rw [extends_.same owner below] at isPart
      exact .inl ⟨owner, isPart⟩
    · exact .inr (parts owner (Nat.not_lt.mp below) part isPart)

theorem Evolves.weaken {more : Cell → Prop} (evolves : Evolves changed store later)
    (covers : ∀ cell < store.size, changed cell → more cell) : Evolves more store later := by
  refine { evolves with same := fun cell below unchanged => evolves.same cell below fun isChanged => ?_ }
  exact unchanged (covers cell below isChanged)

theorem Evolves.put (evolves : Evolves changed store later) (cell : Cell) {content : Content}
    (inside : ∀ part ∈ content.parts, part < later.size ∧
      ((∃ other, part ∈ (store.content other).parts) ∨ store.size ≤ part)) (simple : content.isSimple = true) :
    Evolves (fun other => changed other ∨ other = cell) store (later.put cell content) := by
  by_cases below : cell < later.size
  · refine ⟨(size_put later cell content).symm ▸ evolves.size,
      evolves.closed.put below (fun part isPart => (inside part isPart).1) simple, fun other old unchanged => ?_,
      fun owner part isPart => ?_⟩
    · rw [content_put _ _ _ _ below, if_neg fun same => unchanged (.inr same)]
      exact evolves.same other old fun isChanged => unchanged (.inl isChanged)
    · rw [content_put _ _ _ _ below] at isPart
      split at isPart
      · exact (inside part isPart).2
      · exact evolves.parts owner part isPart
  · -- Nothing happens to a cell that is not there.
    have same : later.put cell content = later := by
      rw [Store.put, Array.setIfInBounds_eq_of_size_le (Nat.not_lt.mp below)]
    rw [same]
    exact evolves.weaken fun other _ isChanged => .inl isChanged

theorem install_evolves (closed : store.Closed) (value : Value) :
    Evolves (fun _ => False) store (store.install value).2 :=
  (install_spec store closed value).extends_.evolves (install_spec store closed value).closed
    fun _ new _ isPart => install_parts_new store closed value new isPart

theorem write_evolves (closed : store.Closed) (cell : Cell) (value : Value) :
    Evolves (· = cell) store (store.write cell value) := by
  have installs := install_spec store closed value
  refine ((install_evolves closed value).put cell (fun part isPart => ?_) installs.simple).weaken fun _ _ => ?_
  · exact ⟨(installs.parts part isPart).2, .inr (installs.parts part isPart).1⟩
  · exact fun either => either.resolve_left id

theorem Evolves.trans {more : Cell → Prop} {last : Store} (early : Evolves changed store later)
    (late : Evolves more later last) (covers : ∀ cell < store.size, more cell → changed cell) :
    Evolves changed store last where
  size := Nat.le_trans early.size late.size
  closed := late.closed
  same := fun cell below unchanged =>
    (late.same cell (Nat.lt_of_lt_of_le below early.size) fun isChanged =>
      unchanged (covers cell below isChanged)).trans (early.same cell below unchanged)
  parts := fun owner part isPart => by
    obtain ⟨other, isOld⟩ | new := late.parts owner part isPart
    · exact early.parts other part isOld
    · exact .inr (Nat.le_trans early.size new)

theorem push_evolves (closed : store.Closed) : Evolves (fun _ => False) store (store.push (.plain .null)) := by
  refine (extends_push store _).evolves closed.push_null fun owner new part isPart => ?_
  rw [content_push] at isPart
  split at isPart
  · cases isPart
  · rw [content_of_ge new] at isPart
    cases isPart

theorem Evolves.fill (evolves : Evolves (fun _ => False) (store.push (.plain .null)) later) (closed : store.Closed)
    {content : Content} (inside : ∀ part ∈ content.parts, store.size ≤ part ∧ part < later.size)
    (simple : content.isSimple = true) : Evolves (fun _ => False) store (later.put store.size content) := by
  have both := (push_evolves closed).trans evolves fun _ _ => False.elim
  refine (both.put store.size (fun part isPart => ?_) simple).weaken fun cell below either => ?_
  · exact ⟨(inside part isPart).2, .inr (inside part isPart).1⟩
  · exact absurd (either.resolve_left id) (Nat.ne_of_lt below)

theorem allocate_evolves (closed : store.Closed) (value : Value) :
    Evolves (fun _ => False) store (store.allocate value).2 := by
  have installs := install_spec _ closed.push_null value
  refine (install_evolves closed.push_null value).fill closed (fun part isPart => ?_) installs.simple
  have := (installs.parts part isPart).1
  rw [size_push] at this
  exact ⟨Nat.le_of_succ_le this, (installs.parts part isPart).2⟩

theorem allocate_many_evolves (closed : store.Closed) (value : Value) (count : Nat) (before : Array Cell) :
    Evolves (fun _ => False) store (store.allocateMany value count before).2 := by
  induction count generalizing store before with
  | zero =>
    refine (Extends.refl store).evolves closed fun owner new part isPart => ?_
    rw [content_of_ge new] at isPart
    cases isPart
  | succ count ih =>
    have first := allocate_evolves closed value
    rw [allocateMany]
    exact first.trans (ih first.closed _) fun _ _ => False.elim

theorem allocate_array_evolves (closed : store.Closed) (element : Ty) (bounds : List Bounds) (count : Nat) :
    Evolves (fun _ => False) store (store.allocateArray element bounds count).2 := by
  obtain ⟨cells, found, allocates⟩ := allocate_many_spec closed.push_null element.default count #[]
  rw [List.nil_append] at found
  refine (allocate_many_evolves closed.push_null element.default count #[]).fill closed (fun part isPart => ?_) rfl
  have fresh := allocates.fresh part (found ▸ isPart)
  rw [size_push] at fresh
  exact ⟨Nat.le_of_succ_le fresh.1, fresh.2⟩

end Evolves

end Store

end BasicLang
