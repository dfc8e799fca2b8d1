import BasicLang.Device.Bench
import BasicLang.Proofs.Code.Generation
import BasicLang.Proofs.Machine.Effects

set_option autoImplicit false

namespace BasicLang

namespace Store

variable {store after : Store} {left right cell : Cell} {changed : Cell → Prop} {target : Option Cell}

structure Apart (store : Store) (left right : Cell) : Prop where
  first : ¬store.Holds left right
  second : ¬store.Holds right left

theorem Free.not_held {root : Cell} (free : store.Free cell) (different : root ≠ cell) : ¬store.Holds root cell := by
  intro held
  cases held with
  | self => exact different rfl
  | part _ isPart => exact free _ isPart

theorem free_within (free : ∀ owner < store.size, cell ∉ (store.content owner).parts) : store.Free cell := by
  intro owner isPart
  by_cases below : owner < store.size
  · exact free owner below isPart
  · rw [content_of_ge (Nat.not_lt.mp below)] at isPart
    cases isPart

theorem Apart.disjoint (apart : store.Apart left right) (forest : store.Forest) (held : store.Holds left cell) :
    ¬store.Holds right cell := by
  intro other
  rcases forest.comparable held other with inLeft | inRight
  · exact apart.first inLeft
  · exact apart.second inRight

theorem Apart.later (apart : store.Apart left right) (develops : Develops changed store after)
    (leftThere : left < store.size) (rightThere : right < store.size) : after.Apart left right :=
  ⟨fun held => apart.first (develops.held held rightThere), fun held => apart.second (develops.held held leftThere)⟩

theorem Apart.read (apart : store.Apart left right) (forest : store.Forest) (there : right < store.size)
    (held : store.Holds left cell) (edit : store.Edit (some cell) after) : after.read right = store.read right := by
  apply (edit.develops forest).read forest there
  rintro _ other ⟨⟩
  exact apart.disjoint forest held other

theorem Forest.one_place (forest : store.Forest) {owner other part place elsewhere : Nat}
    (isPart : (store.content owner).parts[place]? = some part)
    (isOther : (store.content other).parts[elsewhere]? = some part) : owner = other ∧ place = elsewhere := by
  obtain rfl := forest.single owner other part (List.mem_of_getElem? isPart) (List.mem_of_getElem? isOther)
  obtain ⟨below, -⟩ := List.getElem?_eq_some_iff.mp isPart
  refine ⟨rfl, (List.getElem?_inj below (forest.distinct owner)).mp ?_⟩
  rw [isPart, isOther]

end Store

namespace Run

variable {σ : Type} {setup : Setup σ} {start : Store} {machine : Machine σ}

theorem assigned_store (cell : Cell) (value : Value) (machine : Machine σ) :
    ((assign cell value).on machine).2.store = machine.store ∨
      ∃ stored, ((assign cell value).on machine).2.store = machine.store.write cell stored := by
  rw [assign, on_seq (on_get machine)]
  by_cases isNull : machine.store.ty cell = .null
  · rw [if_pos isNull]
    exact .inr ⟨value, rfl⟩
  · rw [if_neg isNull]
    cases (machine.store.ty cell).convert value with
    | error fault => exact .inl rfl
    | ok converted => exact .inr ⟨converted, rfl⟩

def Descends (start : Store) (machine : Machine σ) : Prop :=
  machine.Rooted ∧ Store.Develops (fun _ => True) start machine.store

theorem step_descends : Upholds (Descends start) (step setup) := by
  rintro machine ⟨rooted, develops⟩
  exact ⟨step_rooted machine rooted, develops.trans (step_develops setup rooted) fun _ _ _ => trivial⟩

theorem resume_descends (reply : Except DeviceError Reply) : Upholds (Descends start) (resume reply : Run σ Unit) := by
  rintro machine ⟨rooted, develops⟩
  cases waits : machine.pending with
  | none =>
    rw [on_resume_nothing waits]
    exact ⟨rooted, develops⟩
  | some pending =>
    have answered := (resume_answers rooted waits reply).develops
    exact ⟨resume_rooted reply machine rooted, develops.trans answered fun _ _ _ => trivial⟩

theorem after_all_descends {calls : List HostCall} (goesOn : ∀ call ∈ calls, call.restarts = false)
    (descends : Descends start machine) : Descends start (machine.afterAll setup calls) := by
  refine Machine.after_all_holds setup (fun call inside => ?_) descends
  refine upholds_call step_descends resume_descends ?_ (goesOn call inside)
  rintro machine world events ⟨rooted, develops⟩
  exact ⟨⟨{ rooted.keeps with }, rooted.forest, rooted.waits⟩, develops⟩

end Run

/-- Whatever a host has done, every slot and every field has one place in one container, and no cell is in itself. Two
containers of which none is in the other have no cell in common, however long the program runs on: storing to a cell of
one leaves the value of the other, and an instruction changes the value only if it comes to a cell of that container by a
name or a reference. -/
theorem containers_share_no_cells {σ : Type} (setup : Setup σ) (world : σ) (calls : List HostCall) :
    let machine := (Machine.create world).afterAll setup calls
    (∀ owner other, ∀ place elsewhere : Nat, ∀ part, (machine.store.content owner).parts[place]? = some part →
        (machine.store.content other).parts[elsewhere]? = some part → owner = other ∧ place = elsewhere) ∧
      (∀ owner, ∀ part ∈ (machine.store.content owner).parts, ¬machine.store.Holds part owner) ∧
      ∀ left < machine.store.size, ∀ right < machine.store.size,
        ¬machine.store.Holds left right → ¬machine.store.Holds right left →
        ∀ more : List HostCall, (∀ call ∈ more, call.restarts = false) →
          let later := machine.afterAll setup more
          (∀ cell, later.store.Holds left cell → ¬later.store.Holds right cell ∧
              ∀ value, ((Run.assign cell value).on later).2.store.read right = later.store.read right) ∧
            (((Run.step setup).on later).2.store.read right ≠ later.store.read right →
              ∃ cell, later.store.Holds right cell ∧ (Run.ready setup later).Opens cell) := by
  intro machine
  have rooted : machine.Rooted := Machine.after_all_rooted setup world calls
  refine ⟨fun _ _ _ _ _ isPart isOther => rooted.forest.one_place isPart isOther,
    fun _ _ isPart => rooted.forest.no_return isPart, ?_⟩
  intro left leftThere right rightThere first second more goesOn later
  obtain ⟨rootedLater, develops⟩ : Run.Descends machine.store later :=
    Run.after_all_descends goesOn ⟨rooted, .refl rooted.forest⟩
  have apart : later.store.Apart left right := Store.Apart.later ⟨first, second⟩ develops leftThere rightThere
  have forest := rootedLater.forest
  have leftStays : left < later.store.size := Nat.lt_of_lt_of_le leftThere develops.size
  have rightStays : right < later.store.size := Nat.lt_of_lt_of_le rightThere develops.size
  refine ⟨fun cell held => ⟨apart.disjoint forest held, fun value => ?_⟩, fun changed => ?_⟩
  · rcases Run.assigned_store cell value later with same | ⟨stored, same⟩
    · rw [same]
    · rw [same]
      exact apart.read forest rightStays held (.write cell stored (forest.held_there held leftStays))
  -- A step changes what a value holds through an open cell only, so a change shows that such a cell was among its parts.
  · apply Classical.byContradiction
    intro hidden
    apply changed
    apply (Run.step_develops setup rootedLater).read forest rightStays
    intro cell held isOpen
    exact hidden ⟨cell, held, isOpen⟩

def sampleCopy : String := "TYPE P\nX AS INTEGER\nEND TYPE\nDIM A AS P\nDIM B AS P\nA.X = 1\nB = A\nB.X = 2\n"

def declared (image : Image) : Machine Bench :=
  (Machine.create Bench.empty).afterAll (.ofDevices Bench.bare .standard) [.load image, .slice 2]

def copied (image : Image) : Machine Bench := (declared image).afterAll (.ofDevices Bench.bare .standard) [.slice 7]

theorem sample_containers_share_no_cells : ∃ image, compile sampleCopy .standard = .ok image ∧
    ((copied image).store.content 0).parts = [1] ∧ ((copied image).store.content 2).parts = [4] ∧
      ((copied image).store.read 1).text = "1" ∧ ((copied image).store.read 4).text = "1" ∧
      ∀ value, ((Run.assign 4 value).on (copied image)).2.store.read 0 = (copied image).store.read 0 := by
  obtain ⟨image, compiled, size, free, parts, others, text, same⟩ := exists_compiled sampleCopy
    (fun image => (declared image).store.size = 4 ∧
      (∀ owner : Nat, owner < 4 →
        0 ∉ ((declared image).store.content owner).parts ∧ 2 ∉ ((declared image).store.content owner).parts) ∧
      ((copied image).store.content 0).parts = [1] ∧ ((copied image).store.content 2).parts = [4] ∧
      ((copied image).store.read 1).text = "1" ∧ ((copied image).store.read 4).text = "1")
    (by decide +kernel)
  have inside (cell : Nat) (below : cell < 4) : cell < (declared image).store.size := by
    rw [size]
    exact below
  have first : (declared image).store.Free 0 := Store.free_within fun owner below => (free owner (size ▸ below)).1
  have second : (declared image).store.Free 2 := Store.free_within fun owner below => (free owner (size ▸ below)).2
  have held : (copied image).store.Holds 2 4 := .part .self (by rw [others]; exact List.mem_cons_self)
  refine ⟨image, compiled, parts, others, text, same, ?_⟩
  unfold copied declared at *
  have kept := containers_share_no_cells (.ofDevices Bench.bare .standard) Bench.empty [.load image, .slice 2]
  have apart := kept.2.2 2 (inside 2 (by decide)) 0 (inside 0 (by decide)) (first.not_held (by decide))
    (second.not_held (by decide)) [.slice 7] (by simp [HostCall.restarts])
  exact (apart.1 4 held).2

end BasicLang
