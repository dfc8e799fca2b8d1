import BasicLang.Proofs.Code.Emission
import BasicLang.Proofs.Table

set_option autoImplicit false

namespace BasicLang

namespace Assembly

def placeOf? (assembly : Assembly) (id : Nat) : Option Nat :=
  assembly.labels[id]?.bind LabelPlace.code

structure Grows (before after : Assembly) : Prop where
  code : before.code.toList <+: after.code.toList
  size : before.labels.size ≤ after.labels.size
  placed : ∀ (id : Nat) (label : LabelPlace), before.labels[id]? = some label → label.code.isSome →
    after.labels[id]? = some label
  named : ∀ name id, before.named.get? name = some id → after.named.get? name = some id
  entries : ∀ name id, before.entries.get? name = some id → after.entries.get? name = some id
  newNamed : ∀ name id, after.named.get? name = some id →
    before.named.get? name = some id ∨ before.labels.size ≤ id
  newEntries : ∀ name id, after.entries.get? name = some id →
    before.entries.get? name = some id ∨ before.labels.size ≤ id
  linked : after.isLinked = before.isLinked

namespace Grows

theorem refl (assembly : Assembly) : Grows assembly assembly where
  code := List.prefix_refl _
  size := Nat.le_refl _
  placed := fun _ _ found _ => found
  named := fun _ _ found => found
  entries := fun _ _ found => found
  newNamed := fun _ _ found => .inl found
  newEntries := fun _ _ found => .inl found
  linked := rfl

theorem trans {first second third : Assembly} (early : Grows first second)
    (late : Grows second third) : Grows first third where
  code := early.code.trans late.code
  size := Nat.le_trans early.size late.size
  placed := fun id label found placed => late.placed id label (early.placed id label found placed) placed
  named := fun name id found => late.named name id (early.named name id found)
  entries := fun name id found => late.entries name id (early.entries name id found)
  newNamed := fun name id found =>
    (late.newNamed name id found).elim (early.newNamed name id) fun fresh =>
      .inr (Nat.le_trans early.size fresh)
  newEntries := fun name id found =>
    (late.newEntries name id found).elim (early.newEntries name id) fun fresh =>
      .inr (Nat.le_trans early.size fresh)
  linked := late.linked.trans early.linked

theorem place_kept {before after : Assembly} (grows : Grows before after) {id place : Nat}
    (placed : before.placeOf? id = some place) : after.placeOf? id = some place := by
  obtain ⟨label, found, isPlace⟩ := Option.bind_eq_some_iff.mp placed
  have stays := grows.placed id label found (by rw [isPlace]; rfl)
  rw [placeOf?, stays]
  exact isPlace

end Grows

/-- Names and entries of procedures have labels of their own, and a label is placed in the code
where it is placed in the data. -/
structure Sound (assembly : Assembly) : Prop where
  named : ∀ name id, assembly.named.get? name = some id → id < assembly.labels.size
  entries : ∀ name id, assembly.entries.get? name = some id → id < assembly.labels.size
  oneName : ∀ name other id, assembly.named.get? name = some id →
    assembly.named.get? other = some id → name = other
  oneEntry : ∀ name other id, assembly.entries.get? name = some id →
    assembly.entries.get? other = some id → name = other
  apart : ∀ name other id, assembly.named.get? name = some id →
    assembly.entries.get? other ≠ some id
  whole : ∀ (id : Nat) (label : LabelPlace), assembly.labels[id]? = some label →
    label.code.isSome = label.data.isSome

theorem empty_sound : Sound empty where
  named := fun _ _ found => nomatch found
  entries := fun _ _ found => nomatch found
  oneName := fun _ _ _ found => nomatch found
  oneEntry := fun _ _ _ found => nomatch found
  apart := fun _ _ _ found => nomatch found
  whole := fun _ _ found => by simp [empty] at found

def Step (before after : Assembly) : Prop := Grows before after ∧ (Sound before → Sound after)

theorem step_refl (assembly : Assembly) : Step assembly assembly := ⟨.refl assembly, id⟩

theorem step_trans {first second third : Assembly} (early : Step first second)
    (late : Step second third) : Step first third :=
  ⟨early.1.trans late.1, late.2 ∘ early.2⟩

theorem emit_step (assembly : Assembly) (op : Op) : Step assembly (assembly.emit op) := by
  refine ⟨?_, fun sound => { sound with }⟩
  exact { Grows.refl assembly with code := by simp [emit] }

theorem labels_push {labels : Array LabelPlace} {fresh label : LabelPlace} {id : Nat}
    (found : (labels.push fresh)[id]? = some label) :
    labels[id]? = some label ∨ (id = labels.size ∧ label = fresh) := by
  rw [Array.getElem?_push] at found
  split at found
  · next last => exact .inr ⟨last, (Option.some.inj found).symm⟩
  · exact .inl found

theorem new_label_step (assembly : Assembly) (name : Option String) :
    Step assembly (assembly.newLabel name).2 := by
  constructor
  · exact
      { Grows.refl assembly with
        size := by simp [newLabel]
        placed := fun id label found _ => by
          have inside := (Array.getElem?_eq_some_iff.mp found).1
          simpa [newLabel, Array.getElem?_push, Nat.ne_of_lt inside] using found }
  · intro sound
    exact
      { sound with
        named := fun name id found => by simpa [newLabel] using Nat.lt_succ_of_lt (sound.named name id found)
        entries := fun name id found => by
          simpa [newLabel] using Nat.lt_succ_of_lt (sound.entries name id found)
        whole := fun id label found => by
          rcases labels_push found with old | ⟨_, rfl⟩
          · exact sound.whole id label old
          · rfl }

section Fresh

variable {table : Table Nat} {bound : Nat} {name : String}

theorem fresh_below (below : ∀ other id, table.get? other = some id → id < bound) :
    ∀ other id, (table.set name bound).get? other = some id → id < bound + 1 := by
  intro other id found
  rw [Table.get_set] at found
  split at found
  · rw [← Option.some.inj found]
    exact Nat.lt_succ_self bound
  · exact Nat.lt_succ_of_lt (below other id found)

theorem fresh_one (below : ∀ other id, table.get? other = some id → id < bound)
    (one : ∀ first second id, table.get? first = some id → table.get? second = some id →
      first = second) :
    ∀ first second id, (table.set name bound).get? first = some id →
      (table.set name bound).get? second = some id → first = second := by
  intro first second id left right
  rw [Table.get_set] at left right
  split at left <;> split at right
  · next here there => exact here.trans there.symm
  · exact absurd (Option.some.inj left ▸ below second id right) (Nat.lt_irrefl _)
  · exact absurd (Option.some.inj right ▸ below first id left) (Nat.lt_irrefl _)
  · exact one first second id left right

theorem fresh_kept (absent : table.get? name = none) :
    ∀ other id, table.get? other = some id → (table.set name bound).get? other = some id := by
  intro other id found
  have different : other ≠ name := by
    rintro rfl
    rw [absent] at found
    cases found
  rw [Table.get_set_other _ _ _ _ different, found]

theorem fresh_new :
    ∀ other id, (table.set name bound).get? other = some id →
      table.get? other = some id ∨ bound ≤ id := by
  intro other id found
  rw [Table.get_set] at found
  split at found
  · exact .inr (Nat.le_of_eq (Option.some.inj found))
  · exact .inl found

end Fresh

theorem named_label_step (assembly : Assembly) (name : String) :
    Step assembly (assembly.namedLabel name).2 := by
  unfold namedLabel
  split
  · exact step_refl assembly
  · next absent =>
    have fresh := new_label_step assembly (some name)
    constructor
    · exact { fresh.1 with named := fresh_kept absent, newNamed := fresh_new }
    · intro sound
      exact
        { fresh.2 sound with
          named := fun other id found => by
            simpa [newLabel] using fresh_below sound.named other id found
          oneName := fresh_one sound.named sound.oneName
          apart := fun first second id left right => by
            rcases fresh_new first id left with old | late
            · exact sound.apart first second id old right
            · exact absurd (sound.entries second id right) (Nat.not_lt.mpr late) }

theorem entry_label_step (assembly : Assembly) (name : String) :
    Step assembly (assembly.entryLabel name).2 := by
  unfold entryLabel
  split
  · exact step_refl assembly
  · next absent =>
    have fresh := new_label_step assembly (some name)
    constructor
    · exact { fresh.1 with entries := fresh_kept absent, newEntries := fresh_new }
    · intro sound
      exact
        { fresh.2 sound with
          entries := fun other id found => by
            simpa [newLabel] using fresh_below sound.entries other id found
          oneEntry := fresh_one sound.entries sound.oneEntry
          apart := fun first second id left right => by
            rcases fresh_new second id right with old | late
            · exact sound.apart first second id left old
            · exact absurd (sound.named first id left) (Nat.not_lt.mpr late) }

theorem place_cases {before after : Assembly} {id : Nat} (placed : before.place id = .ok after) :
    ∃ label, before.labels[id]? = some label ∧ label.code = none ∧
      after = { before with
        labels := before.labels.setIfInBounds id
          { label with code := some before.code.size, data := some before.data.size } } := by
  unfold place at placed
  split at placed
  · cases placed
  · next label found =>
    split at placed
    · cases placed
    · next unplaced =>
      exact ⟨label, found, by simpa using unplaced, (Except.ok.inj placed).symm⟩

theorem place_step {before after : Assembly} {id : Nat} (placed : before.place id = .ok after) :
    Step before after := by
  obtain ⟨label, found, unplaced, rfl⟩ := place_cases placed
  constructor
  · exact
      { Grows.refl before with
        size := by simp
        placed := fun other kept here isPlaced => by
          have different : id ≠ other := by
            rintro rfl
            rw [found] at here
            rw [← Option.some.inj here, unplaced] at isPlaced
            cases isPlaced
          simpa [Array.getElem?_setIfInBounds, different] using here }
  · intro sound
    exact
      { sound with
        named := fun name other here => by simpa using sound.named name other here
        entries := fun name other here => by simpa using sound.entries name other here
        whole := fun other kept here => by
          rw [Array.getElem?_setIfInBounds] at here
          split at here
          · split at here
            · rw [← Option.some.inj here]
              rfl
            · cases here
          · exact sound.whole other kept here }

end Assembly

namespace Emit

/-- The assembly after an emission that succeeds is related to the one before. -/
def Keeps (relation : Assembly → Assembly → Prop) (α : Type) (emit : Emit α) : Prop :=
  ∀ before result after, emit.run before = .ok (result, after) → relation before after

theorem run_seq {α β : Type} {first : Emit α} {next : α → Emit β} {before after : Assembly}
    {result : β} (ran : (first >>= next).run before = .ok (result, after)) :
    ∃ middle between, first.run before = .ok (middle, between) ∧
      (next middle).run between = .ok (result, after) := by
  rw [StateT.run_bind] at ran
  cases ranFirst : first.run before with
  | error error => rw [ranFirst] at ran; cases ran
  | ok pair => rw [ranFirst] at ran; exact ⟨pair.1, pair.2, rfl, ran⟩

theorem run_place_eq (id : Nat) (before : Assembly) :
    (Emit.place id).run before =
      match before.place id with
      | .ok assembly => .ok ((), assembly)
      | .error error => .error error := by
  simp only [Emit.place, StateT.run_bind, StateT.run_get, pure_bind]
  cases before.place id <;> rfl

theorem run_place {id : Nat} {before after : Assembly} {result : Unit}
    (ran : (Emit.place id).run before = .ok (result, after)) : before.place id = .ok after := by
  rw [run_place_eq] at ran
  split at ran
  · next found => cases ran; exact found
  · cases ran

structure Growing (admits : Op → Bool) (relation : Assembly → Assembly → Prop) : Prop
    extends Closed admits (Keeps relation) where
  trans : ∀ first second third, relation first second → relation second third → relation first third

section Growing

variable {admits narrow : Op → Bool} {relation : Assembly → Assembly → Prop}

theorem Growing.restrict (growing : Growing admits relation) (view : ∀ op : Op, narrow op = true → admits op = true) :
    Growing narrow relation :=
  { growing with toClosed := growing.toClosed.restrict view }

theorem Growing.quiet (growing : Growing Op.isBody relation) : Growing Op.isPlain relation :=
  growing.restrict fun _ => Op.plain_body

theorem Growing.body (growing : Growing Op.isUnlinked relation) : Growing Op.isBody relation :=
  growing.restrict fun _ => Op.body_unlinked

theorem Growing.plain (growing : Growing Op.isUnlinked relation) : Growing Op.isPlain relation := growing.body.quiet

theorem Growing.parameter (growing : Growing Op.isUnlinked relation) (name : String) (ty : Ty) :
    Keeps relation Unit (op (.popParam name ty)) := growing.op _ rfl

theorem Growing.inner (growing : Growing Op.isPlain relation) :
    Straight (Op.heeds Op.isStraight fun _ => true) (Keeps relation) := growing.toStraight.any.quiet

end Growing

section Kept

variable {admits : Op → Bool} (relation : Assembly → Assembly → Prop)
  (refl : ∀ assembly, relation assembly assembly)
  (trans : ∀ first second third, relation first second → relation second third → relation first third)
  (op : ∀ assembly operation, admits operation = true → relation assembly (assembly.emit operation))
  (locus : ∀ assembly place, relation assembly { assembly with locus := place })
  (newLabel : ∀ assembly, relation assembly (assembly.newLabel none).2)
  (namedLabel : ∀ assembly name, relation assembly (assembly.namedLabel name).2)
  (entryLabel : ∀ assembly name, relation assembly (assembly.entryLabel name).2)
  (temporary : ∀ assembly, relation assembly { assembly with temporaries := assembly.temporaries + 1 })

include refl trans op locus newLabel namedLabel entryLabel temporary

theorem keeps_straight : Straight admits (Keeps relation) where
  unit result before _ after ran := by cases ran; exact refl before
  seq first next keepsFirst keepsNext before result after ran := by
    obtain ⟨middle, between, ranFirst, ranNext⟩ := run_seq ran
    exact trans _ _ _ (keepsFirst _ _ _ ranFirst) (keepsNext _ _ _ _ ranNext)
  error error before result after ran := by cases ran
  op operation admitted before result after ran := by cases ran; exact op _ _ admitted
  setLocus place before result after ran := by cases ran; exact locus _ _
  newLabel before result after ran := by cases ran; exact newLabel _
  namedLabel name before result after ran := by
    have found : before.namedLabel name = (result, after) := Except.ok.inj ran
    simpa only [found] using namedLabel before name
  entryLabel name before result after ran := by
    have found : before.entryLabel name = (result, after) := Except.ok.inj ran
    simpa only [found] using entryLabel before name
  temporary stem before result after ran := by cases ran; exact temporary _

theorem keeps_closed
    (data : ∀ assembly (values : List Value), relation assembly { assembly with data := assembly.data ++ values })
    (place : ∀ before id after, before.place id = .ok after → relation before after) :
    Growing admits relation where
  toStraight := keeps_straight relation refl trans op locus newLabel namedLabel entryLabel temporary
  trans := trans
  data items before result after ran := by cases ran; exact data _ _
  place id before _ after ran := place before id after (run_place ran)

end Kept

theorem keeps_step : Growing Op.isUnlinked Assembly.Step :=
  keeps_closed Assembly.Step Assembly.step_refl (fun _ _ _ => Assembly.step_trans)
    (fun assembly operation _ => Assembly.emit_step assembly operation)
    (fun assembly _ => ⟨{ Assembly.Grows.refl assembly with }, fun sound => { sound with }⟩)
    (fun assembly => Assembly.new_label_step assembly none)
    Assembly.named_label_step Assembly.entry_label_step
    (fun assembly => ⟨{ Assembly.Grows.refl assembly with }, fun sound => { sound with }⟩)
    (fun assembly _ => ⟨{ Assembly.Grows.refl assembly with }, fun sound => { sound with }⟩)
    fun _ _ _ => Assembly.place_step

end Emit

end BasicLang
