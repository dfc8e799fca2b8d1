import BasicLang.Proofs.Machine.Storage

set_option autoImplicit false

namespace BasicLang

namespace Store

variable {store later : Store} {owner part cell root left right : Cell} {content : Content} {target : Option Cell}
  {changed : Cell → Prop}

inductive Holds (store : Store) (root : Cell) : Cell → Prop where
  | self : Holds store root root
  | part {owner part : Cell} (held : Holds store root owner) (isPart : part ∈ (store.content owner).parts) :
      Holds store root part

/-- Every part is a part of one cell, at one place, and stands behind it. -/
structure Forest (store : Store) : Prop extends Closed store where
  ordered : ∀ owner, ∀ part ∈ (store.content owner).parts, owner < part
  distinct : ∀ owner, (store.content owner).parts.Nodup
  single : ∀ owner other part, part ∈ (store.content owner).parts → part ∈ (store.content other).parts → owner = other

section Holding

theorem Forest.held_after (forest : store.Forest) (held : store.Holds root cell) : root ≤ cell := by
  induction held with
  | self => exact Nat.le_refl _
  | part _ isPart ih => exact Nat.le_trans ih (Nat.le_of_lt (forest.ordered _ _ isPart))

theorem Forest.held_there (forest : store.Forest) (held : store.Holds root cell) (there : root < store.size) :
    cell < store.size := by
  cases held with
  | self => exact there
  | part _ isPart => exact forest.parts _ _ isPart

theorem Forest.no_return (forest : store.Forest) (isPart : part ∈ (store.content owner).parts) :
    ¬store.Holds part owner := by
  intro held
  exact Nat.not_le_of_gt (forest.ordered owner part isPart) (forest.held_after held)

theorem Forest.comparable (forest : store.Forest) (inLeft : store.Holds left cell) (inRight : store.Holds right cell) :
    store.Holds left right ∨ store.Holds right left := by
  induction inLeft with
  | self => exact .inr inRight
  | @part owner part held isPart ih =>
    cases inRight with
    | self => exact .inl (held.part isPart)
    | part inner isOther =>
      rw [← forest.single owner _ part isPart isOther] at inner
      exact ih inner

theorem read_held (same : ∀ cell, store.Holds root cell → later.content cell = store.content cell) :
    later.read root = store.read root :=
  read_same (store.Holds root) (fun _ held _ isPart _ => held.part isPart) same .self

end Holding

section Filling

def Fresh (store later : Store) : Prop :=
  Extends store later ∧ ∀ owner, store.size ≤ owner → ∀ part ∈ (later.content owner).parts, store.size ≤ part

theorem Fresh.trans {last : Store} (early : store.Fresh later) (late : later.Fresh last) : store.Fresh last := by
  refine ⟨early.1.trans late.1, fun owner new part isPart => ?_⟩
  by_cases below : owner < later.size
  · rw [late.1.same owner below] at isPart
    exact early.2 owner new part isPart
  · exact Nat.le_trans early.1.size (late.2 owner (Nat.not_lt.mp below) part isPart)

theorem Fresh.parts (fresh : store.Fresh later) (isPart : part ∈ (later.content owner).parts) :
    part ∈ (store.content owner).parts ∨ store.size ≤ part := by
  by_cases below : owner < store.size
  · rw [fresh.1.same owner below] at isPart
    exact .inl isPart
  · exact .inr (fresh.2 owner (Nat.not_lt.mp below) part isPart)

def Free (store : Store) (cell : Cell) : Prop := ∀ owner, cell ∉ (store.content owner).parts

theorem Free.kept (free : store.Free cell) (below : cell < store.size) (fresh : store.Fresh later) :
    later.Free cell := by
  intro owner isPart
  rcases fresh.parts isPart with isOld | isNew
  · exact free owner isOld
  · exact Nat.not_lt.mpr isNew below

theorem pushed_parts (isPart : part ∈ ((store.push (.plain .null)).content owner).parts) :
    part ∈ (store.content owner).parts := by
  rw [content_push] at isPart
  by_cases isNew : owner = store.size
  · simp [isNew, Content.parts] at isPart
  · simpa [isNew] using isPart

theorem Forest.free_pushed (forest : store.Forest) : (store.push (.plain .null)).Free store.size :=
  fun owner isPart => Nat.lt_irrefl _ (forest.parts owner _ (pushed_parts isPart))

theorem Forest.push_null (forest : store.Forest) : (store.push (.plain .null)).Forest := by
  refine { forest.toClosed.push_null with ordered := ?_, distinct := ?_, single := ?_ }
  · exact fun owner part isPart => forest.ordered owner part (pushed_parts isPart)
  · intro owner
    rw [content_push]
    by_cases isNew : owner = store.size
    · simp [isNew, Content.parts]
    · simpa [isNew] using forest.distinct owner
  · exact fun owner other part isPart isOther =>
      forest.single owner other part (pushed_parts isPart) (pushed_parts isOther)

theorem push_fresh (store : Store) : store.Fresh (store.push (.plain .null)) := by
  refine ⟨extends_push store _, fun owner new part isPart => ?_⟩
  have wasPart := pushed_parts isPart
  rw [content_of_ge new] at wasPart
  cases wasPart

theorem Forest.put (forest : store.Forest) (below : cell < store.size) (simple : content.isSimple = true)
    (inside : ∀ part ∈ content.parts, cell < part ∧ part < store.size) (distinct : content.parts.Nodup)
    (alone : ∀ part ∈ content.parts, ∀ owner, part ∈ (store.content owner).parts → owner = cell) :
    (store.put cell content).Forest := by
  refine { forest.toClosed.put below (fun part isPart => (inside part isPart).2) simple with
    ordered := ?_, distinct := ?_, single := ?_ }
  · intro owner part isPart
    rw [content_put _ _ _ _ below] at isPart
    -- Only the owner that is written anew can have changed its parts.
    by_cases same : owner = cell
    · rw [if_pos same] at isPart
      exact same ▸ (inside part isPart).1
    · rw [if_neg same] at isPart
      exact forest.ordered owner part isPart
  · intro owner
    rw [content_put _ _ _ _ below]
    by_cases same : owner = cell
    · simpa [same] using distinct
    · simpa [same] using forest.distinct owner
  · intro owner other part isPart isOther
    rw [content_put _ _ _ _ below] at isPart isOther
    by_cases same : owner = cell
    · rw [if_pos same] at isPart
      by_cases alike : other = cell
      · exact same.trans alike.symm
      · rw [if_neg alike] at isOther
        exact absurd (alone part isPart other isOther) alike
    · rw [if_neg same] at isPart
      by_cases alike : other = cell
      · rw [if_pos alike] at isOther
        exact absurd (alone part isOther owner isPart) same
      · rw [if_neg alike] at isOther
        exact forest.single owner other part isPart isOther

theorem Fresh.put (fresh : store.Fresh later) (new : store.size ≤ cell) (below : cell < later.size)
    (inside : ∀ part ∈ content.parts, store.size ≤ part) : store.Fresh (later.put cell content) := by
  refine ⟨fresh.1.put content new below, fun owner isNew part isPart => ?_⟩
  rw [content_put _ _ _ _ below] at isPart
  by_cases same : owner = cell
  · rw [if_pos same] at isPart
    exact inside part isPart
  · rw [if_neg same] at isPart
    exact fresh.2 owner isNew part isPart

end Filling

section Installing

structure Grows (store : Store) (cells : List Cell) (later : Store) : Prop where
  forest : later.Forest
  fresh : store.Fresh later
  distinct : cells.Nodup
  inside : ∀ cell ∈ cells, store.size ≤ cell ∧ cell < later.size
  free : ∀ cell ∈ cells, later.Free cell

theorem Grows.nothing (forest : store.Forest) : store.Grows [] store := by
  refine ⟨forest, ⟨.refl store, fun owner new part isPart => ?_⟩, by simp, by simp, by simp⟩
  rw [content_of_ge new] at isPart
  cases isPart

theorem Grows.append {cells more : List Cell} {last : Store} (first : store.Grows cells later)
    (rest : later.Grows more last) : store.Grows (cells ++ more) last where
  forest := rest.forest
  fresh := first.fresh.trans rest.fresh
  distinct := by
    refine List.nodup_append.mpr ⟨first.distinct, rest.distinct, ?_⟩
    rintro cell early _ late rfl
    exact Nat.not_lt.mpr (rest.inside cell late).1 (first.inside cell early).2
  inside := by
    intro cell either
    rcases List.mem_append.mp either with early | late
    · exact ⟨(first.inside cell early).1, Nat.lt_of_lt_of_le (first.inside cell early).2 rest.fresh.1.size⟩
    · exact ⟨Nat.le_trans first.fresh.1.size (rest.inside cell late).1, (rest.inside cell late).2⟩
  free := by
    intro cell either
    rcases List.mem_append.mp either with early | late
    · exact (first.free cell early).kept (first.inside cell early).2 rest.fresh
    · exact rest.free cell late

theorem Grows.forest_put (grows : store.Grows content.parts later) (below : cell < store.size)
    (simple : content.isSimple = true) : (later.put cell content).Forest := by
  refine grows.forest.put (Nat.lt_of_lt_of_le below grows.fresh.1.size) simple (fun part isPart => ?_) grows.distinct ?_
  · obtain ⟨new, inside⟩ := grows.inside part isPart
    exact ⟨Nat.lt_of_lt_of_le below new, inside⟩
  · exact fun part isPart owner isOwned => absurd isOwned (grows.free part isPart owner)

theorem Grows.put (forest : store.Forest) (grows : (store.push (.plain .null)).Grows content.parts later)
    (simple : content.isSimple = true) : store.Grows [store.size] (later.put store.size content) := by
  have pushed : store.size < (store.push (.plain .null)).size := by simp [size_push]
  have below : store.size < later.size := Nat.lt_of_lt_of_le pushed grows.fresh.1.size
  have behind (part : Cell) (isPart : part ∈ content.parts) : store.size < part :=
    Nat.lt_of_lt_of_le pushed (grows.inside part isPart).1
  refine ⟨grows.forest_put pushed simple, ?_, by simp, ?_, ?_⟩
  · exact ((push_fresh store).trans grows.fresh).put (Nat.le_refl _) below
      fun part isPart => Nat.le_of_lt (behind part isPart)
  · intro cell isCell
    rw [List.mem_singleton.mp isCell, size_put]
    exact ⟨Nat.le_refl _, below⟩
  · intro cell isCell owner isPart
    obtain rfl := List.mem_singleton.mp isCell
    rw [content_put _ _ _ _ below] at isPart
    by_cases same : owner = store.size
    · rw [if_pos same] at isPart
      exact Nat.lt_irrefl _ (behind _ isPart)
    · rw [if_neg same] at isPart
      exact forest.free_pushed.kept pushed grows.fresh owner isPart

mutual

theorem install_grows (store : Store) (forest : store.Forest) (value : Value) :
    store.Grows (store.install value).1.parts (store.install value).2 ∧ (store.install value).1.isSimple = true := by
  cases value with
  | array element bounds slots =>
    obtain ⟨cells, found, grows⟩ := allocate_all_grows store forest slots #[]
    obtain rfl : _ = cells := found
    exact ⟨grows, rfl⟩
  | record name members fields =>
    obtain ⟨cells, found, grows⟩ := allocate_all_grows store forest fields #[]
    obtain rfl : _ = cells := found
    exact ⟨grows, rfl⟩
  | _ => exact ⟨.nothing forest, rfl⟩

theorem allocate_all_grows (store : Store) (forest : store.Forest) (values : List Value) (before : Array Cell) :
    ∃ cells, (store.allocateAll values before).1.toList = before.toList ++ cells ∧
      store.Grows cells (store.allocateAll values before).2 := by
  cases values with
  | nil => exact ⟨[], by simp [allocateAll], .nothing forest⟩
  | cons value rest =>
    obtain ⟨installed, simple⟩ := install_grows _ forest.push_null value
    have first := installed.put forest simple
    obtain ⟨cells, found, others⟩ := allocate_all_grows _ first.forest rest (before.push store.size)
    refine ⟨store.size :: cells, ?_, ?_⟩
    · rw [allocateAll, found]
      simp
    · rw [allocateAll]
      exact first.append others

end

theorem allocate_grows (forest : store.Forest) (value : Value) :
    store.Grows [(store.allocate value).1] (store.allocate value).2 := by
  obtain ⟨installed, simple⟩ := install_grows _ forest.push_null value
  exact installed.put forest simple

theorem allocate_many_grows (forest : store.Forest) (value : Value) (count : Nat) (before : Array Cell) :
    ∃ cells, (store.allocateMany value count before).1.toList = before.toList ++ cells ∧
      store.Grows cells (store.allocateMany value count before).2 := by
  induction count generalizing store before with
  | zero => exact ⟨[], by simp [allocateMany], .nothing forest⟩
  | succ count ih =>
    have first := allocate_grows forest value
    obtain ⟨cells, found, others⟩ := ih first.forest (before.push (store.allocate value).1)
    refine ⟨(store.allocate value).1 :: cells, ?_, ?_⟩
    · rw [allocateMany, found]
      simp
    · rw [allocateMany]
      exact first.append others

theorem allocate_array_grows (forest : store.Forest) (element : Ty) (bounds : List Bounds) (count : Nat) :
    store.Grows [(store.allocateArray element bounds count).1] (store.allocateArray element bounds count).2 := by
  obtain ⟨cells, found, grows⟩ := allocate_many_grows forest.push_null element.default count #[]
  rw [List.nil_append] at found
  refine Grows.put forest ?_ rfl
  rw [← found] at grows
  exact grows

end Installing

section Editing

/-- One change to the cells of a machine, and the cell that is stored to, if it is an old one. -/
inductive Edit (store : Store) : Option Cell → Store → Prop where
  | allocate (value : Value) : Edit store none (store.allocate value).2
  | allocateArray (element : Ty) (bounds : List Bounds) (count : Nat) :
      Edit store none (store.allocateArray element bounds count).2
  | write (cell : Cell) (value : Value) (below : cell < store.size) : Edit store (some cell) (store.write cell value)
  -- The first slots may stay.
  | resize (cell : Cell) (element : Ty) (bounds : List Bounds) (count : Nat) (kept : Array Cell)
      (isKept : kept.toList <+: (store.content cell).parts) (below : cell < store.size) :
      Edit store (some cell) ((store.allocateMany element.default count kept).2.put cell
        (.array element ⟨bounds, (store.allocateMany element.default count kept).1⟩))

/-- What edits leave: all other cells are as they were, and no part has moved to another cell. -/
structure Develops (changed : Cell → Prop) (store later : Store) : Prop where
  forest : later.Forest
  size : store.size ≤ later.size
  same : ∀ cell < store.size, ¬changed cell → later.content cell = store.content cell
  parts : ∀ owner, ∀ part ∈ (later.content owner).parts, part ∈ (store.content owner).parts ∨ store.size ≤ part

theorem Develops.refl (forest : store.Forest) : Develops changed store store :=
  ⟨forest, Nat.le_refl _, fun _ _ _ => rfl, fun _ _ isPart => .inl isPart⟩

theorem Develops.trans {more : Cell → Prop} {last : Store} (early : Develops changed store later)
    (late : Develops more later last) (covers : ∀ cell < store.size, more cell → changed cell) :
    Develops changed store last where
  forest := late.forest
  size := Nat.le_trans early.size late.size
  same := by
    intro cell below unchanged
    rw [late.same cell (Nat.lt_of_lt_of_le below early.size) fun isChanged => unchanged (covers cell below isChanged)]
    exact early.same cell below unchanged
  parts := by
    intro owner part isPart
    rcases late.parts owner part isPart with wasPart | new
    · exact early.parts owner part wasPart
    · exact .inr (Nat.le_trans early.size new)

theorem Grows.develops {cells : List Cell} (grows : store.Grows cells later) : Develops changed store later where
  forest := grows.forest
  size := grows.fresh.1.size
  same := fun cell below _ => grows.fresh.1.same cell below
  parts := fun _ _ isPart => grows.fresh.parts isPart

theorem Grows.replace {cells : List Cell} (forest : store.Forest) (grows : store.Grows cells later) {kept : List Cell}
    (below : cell < store.size) (isKept : kept <+: (store.content cell).parts) (parts : content.parts = kept ++ cells)
    (simple : content.isSimple = true) : Develops (cell = ·) store (later.put cell content) := by
  have wasPart (part : Cell) (inside : part ∈ kept) : part ∈ (store.content cell).parts := isKept.subset inside
  have there : cell < later.size := Nat.lt_of_lt_of_le below grows.fresh.1.size
  refine ⟨grows.forest.put there simple ?_ ?_ ?_, ?_, ?_, ?_⟩
  · intro part isPart
    rw [parts] at isPart
    -- A part of the new content was a part before or is one of the cells that were grown for it.
    rcases List.mem_append.mp isPart with isOld | isNew
    · exact ⟨forest.ordered cell part (wasPart part isOld),
        Nat.lt_of_lt_of_le (forest.parts cell part (wasPart part isOld)) grows.fresh.1.size⟩
    · obtain ⟨new, inside⟩ := grows.inside part isNew
      exact ⟨Nat.lt_of_lt_of_le below new, inside⟩
  · rw [parts]
    apply List.nodup_append.mpr ⟨(forest.distinct cell).sublist isKept.sublist, grows.distinct, ?_⟩
    rintro part isOld _ isNew rfl
    exact Nat.not_lt.mpr (grows.inside part isNew).1 (forest.parts cell part (wasPart part isOld))
  · intro part isPart owner isOwned
    rw [parts] at isPart
    rcases List.mem_append.mp isPart with isOld | isNew
    · rcases grows.fresh.parts isOwned with wasOwned | new
      · exact forest.single owner cell part wasOwned (wasPart part isOld)
      · exact absurd (forest.parts cell part (wasPart part isOld)) (Nat.not_lt.mpr new)
    · exact absurd isOwned (grows.free part isNew owner)
  · rw [size_put]
    exact grows.fresh.1.size
  · intro other old different
    rw [content_put _ _ _ _ there, if_neg (Ne.symm different)]
    exact grows.fresh.1.same other old
  · intro owner part isPart
    rw [content_put _ _ _ _ there] at isPart
    by_cases same : owner = cell
    · rw [if_pos same, parts] at isPart
      rcases List.mem_append.mp isPart with isOld | isNew
      · exact .inl (same ▸ wasPart part isOld)
      · exact .inr (grows.inside part isNew).1
    · rw [if_neg same] at isPart
      exact grows.fresh.parts isPart

theorem Edit.develops (forest : store.Forest) (edit : store.Edit target later) :
    Develops (target = some ·) store later := by
  cases edit with
  | allocate value => exact (allocate_grows forest value).develops
  | allocateArray element bounds count => exact (allocate_array_grows forest element bounds count).develops
  | write cell value below =>
    obtain ⟨grows, simple⟩ := install_grows store forest value
    simp only [Option.some.injEq]
    exact grows.replace forest below List.nil_prefix rfl simple
  | resize cell element bounds count kept isKept below =>
    obtain ⟨cells, found, grows⟩ := allocate_many_grows forest element.default count kept
    simp only [Option.some.injEq]
    exact grows.replace forest below isKept found rfl

theorem Develops.held (develops : Develops changed store later) (held : later.Holds root cell) (below : cell < store.size) :
    store.Holds root cell := by
  induction held with
  | self => exact .self
  | @part owner part _ isPart ih =>
    rcases develops.parts owner part isPart with wasPart | new
    · exact .part (ih (Nat.lt_trans (develops.forest.ordered owner part isPart) below)) wasPart
    · exact absurd below (Nat.not_lt.mpr new)

theorem Develops.read (develops : Develops changed store later) (forest : store.Forest) (below : root < store.size)
    (apart : ∀ cell, store.Holds root cell → ¬changed cell) : later.read root = store.read root := by
  apply read_held
  intro cell held
  exact develops.same cell (forest.held_there held below) (apart cell held)

end Editing

end Store

end BasicLang
