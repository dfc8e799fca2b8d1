import BasicLang.Proofs.Code.Labels

set_option autoImplicit false

namespace BasicLang

def Target.labels : Target → List Nat
  | .label id => [id]
  | .resolved _ => []

def Op.labels : Op → List Nat
  | .jump target => target.labels
  | .jumpIfZero target => target.labels
  | .jumpIfNonzero target => target.labels
  | .call target => target.labels
  | .gosub target => target.labels
  | .forLoop target => target.labels
  | .onEvent target => target.labels
  | .restore target => target.labels
  | _ => []

structure Progress where
  bound : Nat
  pending : Nat → Prop
  names : List String
  entries : List String
  calls : String → Prop

structure Effect where
  names : List String
  entries : List String
  places : List Nat
  calls : List String
  can : Prop

namespace Effect

def nothing : Effect := { names := [], entries := [], places := [], calls := [], can := True }

def seq (early late : Effect) : Effect where
  names := early.names ++ late.names
  entries := early.entries ++ late.entries
  places := early.places ++ late.places
  calls := early.calls ++ late.calls
  can := early.can ∧ late.can

structure Same (left right : Effect) : Prop where
  names : left.names = right.names
  entries : left.entries = right.entries
  places : left.places.Perm right.places
  calls : ∀ name, name ∈ left.calls ↔ name ∈ right.calls
  can : left.can ↔ right.can

theorem Same.symm {left right : Effect} (same : left.Same right) : right.Same left :=
  ⟨same.names.symm, same.entries.symm, same.places.symm, fun name => (same.calls name).symm, same.can.symm⟩

end Effect

namespace Progress

def after (progress : Progress) (effect : Effect) : Progress where
  bound := progress.bound
  pending := fun id => progress.pending id ∧ id ∉ effect.places
  names := progress.names ++ effect.names
  entries := progress.entries ++ effect.entries
  calls := fun name => progress.calls name ∨ name ∈ effect.calls

structure Allows (known : List String) (progress : Progress) (effect : Effect) : Prop where
  distinct : effect.names.Nodup
  fresh : ∀ name ∈ effect.names, name ∈ known ∧ name ∉ progress.names
  distinctEntries : effect.entries.Nodup
  freshEntries : ∀ name ∈ effect.entries, name ∉ progress.entries
  distinctPlaces : effect.places.Nodup
  pending : ∀ id ∈ effect.places, progress.pending id

theorem after_seq (progress : Progress) (early late : Effect) :
    progress.after (early.seq late) = (progress.after early).after late := by
  simp [after, Effect.seq, List.append_assoc, and_assoc, or_assoc]

theorem after_same (progress : Progress) {left right : Effect} (same : left.Same right) :
    progress.after left = progress.after right := by
  simp [after, same.names, same.entries, same.places.mem_iff, same.calls]

theorem allows_same {known : List String} {progress : Progress} {left right : Effect}
    (same : left.Same right) (allows : progress.Allows known right) : progress.Allows known left := by
  obtain ⟨names, entries, places, -, -⟩ := same
  exact ⟨names ▸ allows.distinct, names ▸ allows.fresh, entries ▸ allows.distinctEntries,
    entries ▸ allows.freshEntries, places.nodup_iff.mpr allows.distinctPlaces,
    fun id inside => allows.pending id (places.mem_iff.mp inside)⟩

variable {known : List String} {progress : Progress} {early late : Effect}

theorem Allows.first (allows : progress.Allows known (early.seq late)) :
    progress.Allows known early where
  distinct := (List.nodup_append.mp allows.distinct).1
  fresh := fun name inside => allows.fresh name (List.mem_append_left _ inside)
  distinctEntries := (List.nodup_append.mp allows.distinctEntries).1
  freshEntries := fun name inside => allows.freshEntries name (List.mem_append_left _ inside)
  distinctPlaces := (List.nodup_append.mp allows.distinctPlaces).1
  pending := fun id inside => allows.pending id (List.mem_append_left _ inside)

theorem Allows.second (allows : progress.Allows known (early.seq late)) :
    (progress.after early).Allows known late := by
  obtain ⟨-, distinct, apart⟩ := List.nodup_append.mp allows.distinct
  obtain ⟨-, distinctEntries, apartEntries⟩ := List.nodup_append.mp allows.distinctEntries
  obtain ⟨-, distinctPlaces, apartPlaces⟩ := List.nodup_append.mp allows.distinctPlaces
  refine
    { distinct
      fresh := fun name inside => ?_
      distinctEntries
      freshEntries := fun name inside => ?_
      distinctPlaces
      pending := fun id inside => ?_ }
  · obtain ⟨isKnown, unplaced⟩ := allows.fresh name (List.mem_append_right _ inside)
    refine ⟨isKnown, fun placed => ?_⟩
    rcases List.mem_append.mp placed with old | new
    · exact unplaced old
    · exact apart name new name inside rfl
  · intro placed
    rcases List.mem_append.mp placed with old | new
    · exact allows.freshEntries name (List.mem_append_right _ inside) old
    · exact apartEntries name new name inside rfl
  · exact ⟨allows.pending id (List.mem_append_right _ inside), fun placed =>
      apartPlaces id placed id inside rfl⟩

end Progress

structure Assembly.At (known : List String) (progress : Progress) (assembly : Assembly) : Prop where
  sound : assembly.Sound
  bound : progress.bound ≤ assembly.labels.size
  unlinked : assembly.isLinked = false
  targets : ∀ instruction ∈ assembly.code, ∀ id ∈ instruction.op.labels, id < assembly.labels.size
  pending : ∀ id, progress.pending id → id < assembly.labels.size ∧ assembly.placeOf? id = none
  unnamed : ∀ id, progress.pending id → (∀ name, assembly.named.get? name ≠ some id) ∧
    ∀ name, assembly.entries.get? name ≠ some id
  accounted : ∀ id < assembly.labels.size, assembly.placeOf? id = none →
    progress.pending id ∨ (∃ name, assembly.named.get? name = some id) ∨
      ∃ name, assembly.entries.get? name = some id
  named : ∀ name id, assembly.named.get? name = some id →
    name ∈ known ∧ ((assembly.placeOf? id).isSome = true ↔ name ∈ progress.names)
  present : ∀ name ∈ progress.names, (assembly.named.get? name).isSome = true
  entries : ∀ name id, assembly.entries.get? name = some id →
    (progress.calls name ∨ name ∈ progress.entries) ∧
      ((assembly.placeOf? id).isSome = true ↔ name ∈ progress.entries)
  presentEntries : ∀ name ∈ progress.entries, (assembly.entries.get? name).isSome = true

def Assembly.Calls (progress : Progress) (assembly : Assembly) : Prop :=
  ∀ name, progress.calls name → ∃ id, assembly.entries.get? name = some id ∧
    ∃ instruction ∈ assembly.code, instruction.op = .call (.label id)

namespace Assembly

variable {known : List String} {progress : Progress} {assembly : Assembly}

theorem Calls.grows {later : Assembly} (calls : assembly.Calls progress)
    (grows : Grows assembly later) : later.Calls progress := by
  intro name called
  obtain ⟨id, found, instruction, inCode, isCall⟩ := calls name called
  have stays := grows.code.subset (Array.mem_toList_iff.mpr inCode)
  exact ⟨id, grows.entries name id found, instruction, Array.mem_toList_iff.mp stays, isCall⟩

theorem At.emit (here : assembly.At known progress) (op : Op)
    (inside : ∀ id ∈ op.labels, id < assembly.labels.size) :
    (assembly.emit op).At known progress :=
  { here with
    sound := (emit_step assembly op).2 here.sound
    targets := by
      intro instruction found id isTarget
      rcases Array.mem_push.mp found with old | rfl
      · exact here.targets instruction old id isTarget
      · exact inside id isTarget }

theorem place_of_push (labels : Array LabelPlace) (name : Option String) (id : Nat) :
    ((labels.push { name, code := none, data := none })[id]?.bind LabelPlace.code) =
      labels[id]?.bind LabelPlace.code := by
  rw [Array.getElem?_push]
  split
  · next last => simp [last]
  · rfl

theorem place_of_size (assembly : Assembly) : assembly.placeOf? assembly.labels.size = none := by
  simp [placeOf?]

theorem At.new_label (here : assembly.At known progress) (label : Option String) :
    (assembly.newLabel label).2.At known
      { progress with
        bound := assembly.labels.size + 1
        pending := fun id => progress.pending id ∨ id = assembly.labels.size } := by
  have size : (assembly.newLabel label).2.labels.size = assembly.labels.size + 1 := by simp [newLabel]
  have places (id : Nat) : (assembly.newLabel label).2.placeOf? id = assembly.placeOf? id :=
    place_of_push _ _ _
  refine
    { here with
      sound := (new_label_step assembly label).2 here.sound
      bound := Nat.le_of_eq size.symm
      targets := fun instruction found id isTarget => ?_
      pending := ?_
      unnamed := ?_
      accounted := fun id below unplaced => ?_
      named := fun name id found => by rw [places]; exact here.named name id found
      entries := fun name id found => by rw [places]; exact here.entries name id found }
  · rw [size]
    exact Nat.lt_succ_of_lt (here.targets instruction found id isTarget)
  · rintro id (old | rfl)
    · rw [size, places]
      exact ⟨Nat.lt_succ_of_lt (here.pending id old).1, (here.pending id old).2⟩
    · rw [size, places]
      exact ⟨Nat.lt_succ_self _, assembly.place_of_size⟩
  · rintro id (old | rfl)
    · exact here.unnamed id old
    · exact ⟨fun name found => absurd (here.sound.named name _ found) (Nat.lt_irrefl _),
        fun name found => absurd (here.sound.entries name _ found) (Nat.lt_irrefl _)⟩
  · rw [size] at below
    rw [places] at unplaced
    rcases Nat.lt_succ_iff_lt_or_eq.mp below with old | rfl
    · exact (here.accounted id old unplaced).imp_left .inl
    · exact .inl (.inr rfl)

theorem At.weaken {weaker : Progress} (here : assembly.At known progress)
    (bound : weaker.bound ≤ progress.bound) (pending : ∀ id, weaker.pending id ↔ progress.pending id)
    (names : weaker.names = progress.names) (entries : weaker.entries = progress.entries)
    (calls : weaker.calls = progress.calls) : assembly.At known weaker :=
  { here with
    bound := Nat.le_trans bound here.bound
    pending := fun id isPending => here.pending id ((pending id).mp isPending)
    unnamed := fun id isPending => here.unnamed id ((pending id).mp isPending)
    accounted := fun id below unplaced => by
      rw [pending]
      exact here.accounted id below unplaced
    named := names ▸ here.named
    present := names ▸ here.present
    entries := by
      rw [entries, calls]
      exact here.entries
    presentEntries := entries ▸ here.presentEntries }

theorem At.adopt_name (here : assembly.At known progress) {name : String} {id : Nat}
    (isPending : progress.pending id) (absent : assembly.named.get? name = none)
    (isKnown : name ∈ known)
    (sound : Sound { assembly with named := assembly.named.set name id }) :
    At known { progress with pending := fun other => progress.pending other ∧ other ≠ id }
      { assembly with named := assembly.named.set name id } := by
  have unplaced := (here.pending id isPending).2
  have notPlaced : name ∉ progress.names := fun placed => by
    have found := here.present name placed
    rw [absent] at found
    cases found
  refine
    { here with
      sound
      pending := fun other found => here.pending other found.1
      unnamed := fun other found => ⟨fun key same => ?_, (here.unnamed other found.1).2⟩
      accounted := fun other below free => ?_
      named := fun key other found => ?_
      present := fun key placed => ?_ }
  · rw [Table.get_set] at same
    split at same
    · exact found.2 (Option.some.inj same).symm
    · exact (here.unnamed other found.1).1 key same
  · by_cases same : other = id
    · exact .inr (.inl ⟨name, by rw [same]; exact Table.get_set_self _ _ _⟩)
    · rcases here.accounted other below free with old | ⟨key, found⟩ | entry
      · exact .inl ⟨old, same⟩
      · exact .inr (.inl ⟨key, fresh_kept absent key other found⟩)
      · exact .inr (.inr entry)
  · rw [Table.get_set] at found
    split at found
    · next same =>
      subst same
      rw [← Option.some.inj found]
      refine ⟨isKnown, ?_⟩
      show (assembly.placeOf? id).isSome = true ↔ _
      simp [unplaced, notPlaced]
    · exact here.named key other found
  · rw [Table.get_set]
    split
    · rfl
    · exact here.present key placed

theorem At.adopt_entry (here : assembly.At known progress) {name : String} {id : Nat}
    (isPending : progress.pending id) (absent : assembly.entries.get? name = none)
    (sound : Sound { assembly with entries := assembly.entries.set name id }) :
    At known
      { progress with
        pending := fun other => progress.pending other ∧ other ≠ id
        calls := fun key => progress.calls key ∨ key = name }
      { assembly with entries := assembly.entries.set name id } := by
  have unplaced := (here.pending id isPending).2
  have notPlaced : name ∉ progress.entries := fun placed => by
    have found := here.presentEntries name placed
    rw [absent] at found
    cases found
  refine
    { here with
      sound
      pending := fun other found => here.pending other found.1
      unnamed := fun other found => ⟨(here.unnamed other found.1).1, fun key same => ?_⟩
      accounted := fun other below free => ?_
      entries := fun key other found => ?_
      presentEntries := fun key placed => ?_ }
  · rw [Table.get_set] at same
    split at same
    · exact found.2 (Option.some.inj same).symm
    · exact (here.unnamed other found.1).2 key same
  · by_cases same : other = id
    · exact .inr (.inr ⟨name, by rw [same]; exact Table.get_set_self _ _ _⟩)
    · rcases here.accounted other below free with old | named | ⟨key, found⟩
      · exact .inl ⟨old, same⟩
      · exact .inr (.inl named)
      · exact .inr (.inr ⟨key, fresh_kept absent key other found⟩)
  · rw [Table.get_set] at found
    split at found
    · next same =>
      subst same
      rw [← Option.some.inj found]
      refine ⟨.inl (.inr rfl), ?_⟩
      show (assembly.placeOf? id).isSome = true ↔ _
      simp [unplaced, notPlaced]
    · exact (here.entries key other found).imp_left (·.imp_left .inl)
  · rw [Table.get_set]
    split
    · rfl
    · exact here.presentEntries key placed

theorem named_label_found (assembly : Assembly) (name : String) :
    (assembly.namedLabel name).2.named.get? name = some (assembly.namedLabel name).1 := by
  unfold namedLabel
  split
  · next found => exact found
  · exact Table.get_set_self _ _ _

theorem entry_label_found (assembly : Assembly) (name : String) :
    (assembly.entryLabel name).2.entries.get? name = some (assembly.entryLabel name).1 := by
  unfold entryLabel
  split
  · next found => exact found
  · exact Table.get_set_self _ _ _

theorem At.pending_without (here : assembly.At known progress) (id : Nat) :
    progress.pending id ↔
      (progress.pending id ∨ id = assembly.labels.size) ∧ id ≠ assembly.labels.size := by
  constructor
  · intro old
    exact ⟨.inl old, Nat.ne_of_lt (here.pending id old).1⟩
  · rintro ⟨old | new, different⟩
    · exact old
    · exact absurd new different

theorem At.named_label (here : assembly.At known progress) (name : String) (isKnown : name ∈ known) :
    (assembly.namedLabel name).2.At known progress := by
  have sound := (named_label_step assembly name).2 here.sound
  unfold namedLabel at sound ⊢
  split
  · exact here
  · next absent =>
    rw [absent] at sound
    have adopted := (here.new_label (some name)).adopt_name (.inr rfl) absent isKnown sound
    exact adopted.weaken (Nat.le_succ_of_le here.bound) here.pending_without rfl rfl rfl

theorem At.entry_label (here : assembly.At known progress) (name : String) :
    (assembly.entryLabel name).2.At known
      { progress with calls := fun key => progress.calls key ∨ key = name } := by
  have sound := (entry_label_step assembly name).2 here.sound
  unfold entryLabel at sound ⊢
  split
  · exact
      { here with
        entries := fun key id found => (here.entries key id found).imp_left (·.imp_left .inl) }
  · next absent =>
    rw [absent] at sound
    have adopted := (here.new_label (some name)).adopt_entry (.inr rfl) absent sound
    exact adopted.weaken (Nat.le_succ_of_le here.bound) here.pending_without rfl rfl rfl

theorem place_succeeds {id : Nat} (below : id < assembly.labels.size)
    (unplaced : assembly.placeOf? id = none) :
    ∃ labels, assembly.place id = .ok { assembly with labels } ∧
      labels.size = assembly.labels.size ∧
      ∀ other, Assembly.placeOf? { assembly with labels } other =
        if other = id then some assembly.code.size else assembly.placeOf? other := by
  have found : assembly.labels[id]? = some assembly.labels[id] := Array.getElem?_eq_getElem below
  have free : (assembly.labels[id]).code = none := by simpa [placeOf?, found] using unplaced
  refine ⟨assembly.labels.setIfInBounds id
    { assembly.labels[id] with code := some assembly.code.size, data := some assembly.data.size },
    ?_, by simp, fun other => ?_⟩
  · simp [place, found, free]
  · unfold placeOf?
    rw [Array.getElem?_setIfInBounds]
    by_cases same : other = id
    · simp [same, below]
    · simp [same, Ne.symm same]

section Place

variable {id : Nat} {labels : Array LabelPlace}
  (here : assembly.At known progress) (sound : Sound { assembly with labels })
  (size : labels.size = assembly.labels.size)
  (places : ∀ other, Assembly.placeOf? { assembly with labels } other =
    if other = id then some assembly.code.size else assembly.placeOf? other)

include here sound size places

theorem At.place_pending (isPending : progress.pending id) :
    At known { progress with pending := fun other => progress.pending other ∧ other ≠ id }
      { assembly with labels } := by
  obtain ⟨unnamed, noEntry⟩ := here.unnamed id isPending
  refine
    { here with
      sound
      bound := size ▸ here.bound
      targets := size ▸ here.targets
      pending := fun other found => ?_
      unnamed := fun other found => here.unnamed other found.1
      accounted := fun other below free => ?_
      named := fun name other found => ?_
      entries := fun name other found => ?_ }
  · rw [places, if_neg found.2]
    exact size ▸ here.pending other found.1
  · rw [places] at free
    split at free
    · cases free
    · next different =>
      rw [size] at below
      exact (here.accounted other below free).imp_left fun old => ⟨old, different⟩
  · have different : other ≠ id := fun same => unnamed name (same ▸ found)
    rw [places, if_neg different]
    exact here.named name other found
  · have different : other ≠ id := fun same => noEntry name (same ▸ found)
    rw [places, if_neg different]
    exact here.entries name other found

theorem At.place_name {name : String} (isLabel : assembly.named.get? name = some id) :
    At known { progress with names := progress.names ++ [name] } { assembly with labels } := by
  refine
    { here with
      sound
      bound := size ▸ here.bound
      targets := size ▸ here.targets
      pending := fun other found => ?_
      accounted := fun other below free => ?_
      named := fun key other found => ?_
      present := ?_
      entries := fun key other found => ?_ }
  · have different : other ≠ id := fun same => (here.unnamed other found).1 name (same ▸ isLabel)
    rw [places, if_neg different]
    exact size ▸ here.pending other found
  · rw [places] at free
    split at free
    · cases free
    · exact here.accounted other (size ▸ below) free
  · obtain ⟨isKnown, placed⟩ := here.named key other found
    refine ⟨isKnown, ?_⟩
    rw [places, List.mem_append, List.mem_singleton]
    by_cases same : other = id
    · have sameName : key = name := here.sound.oneName key name id (same ▸ found) isLabel
      simp [same, sameName]
    · have different : key ≠ name := by
        rintro rfl
        exact same (Option.some.inj (found.symm.trans isLabel))
      rw [if_neg same, placed]
      simp [different]
  · refine List.forall_mem_append.mpr ⟨here.present, fun key isName => ?_⟩
    rw [List.mem_singleton.mp isName, isLabel]
    rfl
  · have different : other ≠ id := fun same => here.sound.apart name key id isLabel (same ▸ found)
    rw [places, if_neg different]
    exact here.entries key other found

theorem At.place_entry {name : String} (isEntry : assembly.entries.get? name = some id) :
    At known { progress with entries := progress.entries ++ [name] } { assembly with labels } := by
  refine
    { here with
      sound
      bound := size ▸ here.bound
      targets := size ▸ here.targets
      pending := fun other found => ?_
      accounted := fun other below free => ?_
      named := fun key other found => ?_
      entries := fun key other found => ?_
      presentEntries := ?_ }
  · have different : other ≠ id := fun same => (here.unnamed other found).2 name (same ▸ isEntry)
    rw [places, if_neg different]
    exact size ▸ here.pending other found
  · rw [places] at free
    split at free
    · cases free
    · exact here.accounted other (size ▸ below) free
  · have different : other ≠ id := fun same => here.sound.apart key name id (same ▸ found) isEntry
    rw [places, if_neg different]
    exact here.named key other found
  · obtain ⟨called, placed⟩ := here.entries key other found
    rw [places, List.mem_append, List.mem_singleton]
    by_cases same : other = id
    · have sameName : key = name := here.sound.oneEntry key name id (same ▸ found) isEntry
      simp [same, sameName]
    · have different : key ≠ name := by
        rintro rfl
        exact same (Option.some.inj (found.symm.trans isEntry))
      rw [if_neg same, placed]
      simpa [different] using called
  · refine List.forall_mem_append.mpr ⟨here.presentEntries, fun key isName => ?_⟩
    rw [List.mem_singleton.mp isName, isEntry]
    rfl

end Place

end Assembly

end BasicLang
