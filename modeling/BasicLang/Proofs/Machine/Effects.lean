import BasicLang.Proofs.Machine.Containers
import BasicLang.Proofs.Machine.Ownership

set_option autoImplicit false

namespace BasicLang

namespace Machine

variable {σ : Type} {here machine after : Machine σ} {scopes : Array (Table Cell)} {store later : Store} {cell : Cell}
  {name : String} {scope : Nat} {target : Option Cell}

def Opens (here : Machine σ) (cell : Cell) : Prop :=
  .reference cell ∈ here.stack ∨ ∃ name, here.lookup? name = some cell

def Grants (here : Machine σ) (store : Store) (cell : Cell) : Prop :=
  cell < store.size ∧ (cell < here.store.size → here.Opens cell)

structure Rooted (machine : Machine σ) : Prop where
  keeps : machine.Keeps .vacant none
  forest : machine.store.Forest
  waits : ∀ pending, machine.pending = some pending →
    ∀ cell ∈ pending.completion.targets, cell < machine.store.size

structure Affects (here : Machine σ) (scopes : Array (Table Cell)) (store : Store) : Prop where
  develops : Store.Develops here.Opens here.store store
  size : scopes.size = here.scopes.size
  tables : ∀ scope name, scope ≠ here.scope → (scope = 0 → name ∉ here.image.shared) →
    (scopes.getD scope []).get? name = (here.scopes.getD scope []).get? name
  named : ∀ scope name, ((here.scopes.getD scope []).get? name).isSome = true →
    ((scopes.getD scope []).get? name).isSome = true
  grants : ∀ name cell, (scopes.getD (here.scopeOf name) []).get? name = some cell → here.Grants store cell

section Affecting

theorem Rooted.opens (rooted : here.Rooted) (isOpen : here.Opens cell) : cell < here.store.size := by
  rcases isOpen with inside | ⟨name, found⟩
  · exact (rooted.keeps.stack cell inside).1
  · exact (rooted.keeps.lookup found).1

theorem Grants.grow (granted : here.Grants store cell) (size : store.size ≤ later.size) : here.Grants later cell :=
  ⟨Nat.lt_of_lt_of_le granted.1 size, granted.2⟩

theorem Affects.refl (rooted : here.Rooted) : here.Affects here.scopes here.store where
  develops := .refl rooted.forest
  size := rfl
  tables := fun _ _ _ _ => rfl
  named := fun _ _ isNamed => isNamed
  grants := fun name _ found => ⟨rooted.opens (.inr ⟨name, found⟩), fun _ => .inr ⟨name, found⟩⟩

theorem Affects.grants_open (affects : here.Affects scopes store) (rooted : here.Rooted) (isOpen : here.Opens cell) :
    here.Grants store cell :=
  ⟨Nat.lt_of_lt_of_le (rooted.opens isOpen) affects.develops.size, fun _ => isOpen⟩

theorem Affects.grants_new (affects : here.Affects scopes store)
    (new : store.size ≤ cell ∧ cell < later.size) : here.Grants later cell := by
  refine ⟨new.2, fun below => ?_⟩
  exact absurd below (Nat.not_lt.mpr (Nat.le_trans affects.develops.size new.1))

theorem Affects.edit (affects : here.Affects scopes store) (edit : store.Edit target later)
    (granted : ∀ cell, target = some cell → here.Grants store cell) : here.Affects scopes later := by
  have develops := edit.develops affects.develops.forest
  refine { affects with develops := affects.develops.trans develops ?_, grants := ?_ }
  · exact fun cell below isTarget => (granted cell isTarget).2 below
  · exact fun name cell found => (affects.grants name cell found).grow develops.size

theorem Affects.bind (affects : here.Affects scopes store) (granted : here.Grants store cell)
    (ours : scope = here.scope ∨ scope = 0 ∧ name ∈ here.image.shared) :
    here.Affects (scopes.modify scope fun table => table.set name cell) store where
  develops := affects.develops
  size := by simp [affects.size]
  tables := by
    intro other key notOurs notShared
    rw [← affects.tables other key notOurs notShared, modified_scope]
    by_cases same : other = scope ∧ scope < scopes.size
    · have different : key ≠ name := by
        rintro rfl
        rcases ours with isOurs | ⟨isMain, isShared⟩
        · exact notOurs (same.1.trans isOurs)
        · exact notShared (same.1.trans isMain) isShared
      rw [if_pos same, Table.get_set, if_neg different, same.1]
    · rw [if_neg same]
  named := by
    intro other key isNamed
    rw [modified_scope]
    have wasNamed := affects.named other key isNamed
    by_cases same : other = scope ∧ scope < scopes.size
    · rw [if_pos same, Table.get_set]
      by_cases alike : key = name
      · simp [alike]
      · rw [if_neg alike, ← same.1]
        exact wasNamed
    · rw [if_neg same]
      exact wasNamed
  grants := by
    intro key found isFound
    rw [modified_scope] at isFound
    by_cases same : here.scopeOf key = scope ∧ scope < scopes.size
    · rw [if_pos same, Table.get_set] at isFound
      by_cases alike : key = name
      · rw [if_pos alike] at isFound
        exact Option.some.inj isFound ▸ granted
      · rw [if_neg alike, ← same.1] at isFound
        exact affects.grants key found isFound
    · rw [if_neg same] at isFound
      exact affects.grants key found isFound

end Affecting

section Working

structure Works (here machine : Machine σ) : Prop where
  image : machine.image = here.image
  frames : machine.frames = here.frames
  pending : machine.pending = here.pending
  stack : ∀ cell, .reference cell ∈ machine.stack → here.Opens cell
  affects : here.Affects machine.scopes machine.store

structure Worked (here after : Machine σ) : Prop where
  frames : after.frames = here.frames
  waits : ∀ pending, after.pending = some pending → here.pending = some pending ∨
    ∀ cell ∈ pending.completion.targets, here.Opens cell
  affects : here.Affects after.scopes after.store

theorem Works.refl (rooted : here.Rooted) : here.Works here :=
  ⟨rfl, rfl, rfl, fun _ inside => .inl inside, .refl rooted⟩

theorem Works.worked (works : here.Works machine) : here.Worked machine :=
  ⟨works.frames, fun _ waits => .inl (works.pending ▸ waits), works.affects⟩

theorem Works.scope_of (works : here.Works machine) (name : String) : machine.scopeOf name = here.scopeOf name := by
  rw [scopeOf, scopeOf, scope, scope, works.image, works.frames]

theorem ours_scope_of (here : Machine σ) (name : String) :
    here.scopeOf name = here.scope ∨ here.scopeOf name = 0 ∧ name ∈ here.image.shared := by
  unfold scopeOf
  split
  · next isShared => exact .inr ⟨rfl, by simpa using isShared⟩
  · exact .inl rfl

theorem Works.lookup (works : here.Works machine) (found : machine.lookup? name = some cell) :
    here.Grants machine.store cell := by
  rw [lookup?, works.scope_of] at found
  exact works.affects.grants name cell found

theorem Works.edit (works : here.Works machine) (edit : machine.store.Edit target later)
    (granted : ∀ cell, target = some cell → here.Grants machine.store cell) :
    here.Works { machine with store := later } :=
  { works with affects := works.affects.edit edit granted }

theorem Works.bind (works : here.Works machine) (granted : here.Grants machine.store cell) (name : String) :
    here.Works (machine.bind name cell) :=
  { works with affects := works.affects.bind granted (works.scope_of name ▸ ours_scope_of here name) }

-- Parameters are bound in the scope of the routine, also those that are named like something shared.
theorem Works.bind_own (works : here.Works machine) (granted : here.Grants machine.store cell) (name : String) :
    here.Works (machine.bindIn machine.scope name cell) := by
  refine { works with affects := works.affects.bind granted (.inl ?_) }
  rw [scope, scope, works.frames]

theorem Works.create (works : here.Works machine) (edit : machine.store.Edit none later)
    (new : machine.store.size ≤ cell ∧ cell < later.size) :
    here.Works { machine with store := later } ∧ here.Grants later cell :=
  ⟨works.edit edit (by simp), works.affects.grants_new new⟩

theorem Works.allocate (works : here.Works machine) (value : Value) :
    here.Works (machine.allocate value).2 ∧ here.Grants (machine.allocate value).2.store (machine.allocate value).1 :=
  works.create (.allocate value) (new_cell machine.store works.affects.develops.forest.toClosed value)

theorem Works.allocate_array (works : here.Works machine) (element : Ty) (bounds : List Bounds) (count : Nat) :
    let made := machine.store.allocateArray element bounds count
    here.Works { machine with store := made.2 } ∧ here.Grants made.2 made.1 :=
  works.create (.allocateArray element bounds count)
    ((Store.allocate_array_spec works.affects.develops.forest.toClosed element bounds count).fresh _ List.mem_cons_self)

theorem Works.stores (works : here.Works machine) (granted : here.Grants machine.store cell)
    (edit : machine.store.Edit (some cell) later) : here.Works { machine with store := later } := by
  refine works.edit edit ?_
  rintro _ ⟨⟩
  exact granted

theorem Works.ensure (works : here.Works machine) (name : String) :
    here.Works (machine.ensureVariable name).2 ∧
      here.Grants (machine.ensureVariable name).2.store (machine.ensureVariable name).1 := by
  unfold ensureVariable
  cases found : machine.lookup? name with
  | some cell => exact ⟨works, works.lookup found⟩
  | none =>
    obtain ⟨allocated, granted⟩ := works.allocate (machine.implicitType name).default
    exact ⟨allocated.bind granted name, granted⟩

end Working

end Machine

theorem Grid.kept_prefix {α : Type} (grid : Grid α) (count : Nat) (preserve : Bool) :
    (grid.kept count preserve).toList <+: grid.slots.toList := by
  cases preserve with
  | false => exact List.nil_prefix
  | true =>
    rw [kept, if_pos rfl, Array.toList_extract]
    exact List.take_prefix _ _

namespace Run

variable {σ α β : Type} {setup : Setup σ} {here machine : Machine σ}

section Operations

theorem preserved_works (rooted : here.Rooted) : Preserved here.Works here.Opens where
  pop := fun _ _ _ works stack =>
    { works with stack := fun cell inside => works.stack cell (by simp [stack, inside]) }
  reference := fun _ cell _ works stack => works.stack cell (by simp [stack])
  push := fun _ _ works => { works with stack := fun cell inside => works.stack cell (by simpa using inside) }
  write := fun machine cell value works isOpen _ => by
    have granted := works.affects.grants_open rooted isOpen
    exact works.stores granted (.write cell value granted.1)
  around := fun _ _ _ _ _ _ works => { works with }

theorem awaited_works : Awaited here.Works here.Worked here.Opens fun _ => True where
  at_once := fun _ works => works.worked
  waits := fun _ _ _ _ works _ isOpen _ =>
    ⟨works.frames, fun _ waits => .inr (Option.some.inj waits ▸ isOpen), works.affects⟩

theorem meets_push_part {cell : Cell} (works : here.Works machine) (byRef : Bool) :
    Meets (pushCell cell byRef : Run σ Unit) machine (fun _ after => here.Worked after) fun _ after => here.Works after := by
  cases byRef with
  | true => exact { works.worked with }
  | false => exact { works.worked with }

theorem ends_reference {find : Run σ Cell} (finds : Maintains here.Works find fun _ => True) :
    Ends here.Works here.Worked (do pushReference (← find)) :=
  ends_seq finds fun _ _ _ works => { works.worked with }

theorem maintains_variable (name : String) : Maintains here.Works (variableCell name : Run σ Cell) fun _ => True :=
  fun _ works => ⟨(works.ensure name).1, trivial⟩

theorem maintains_array_cell (name : String) (element : Ty) (rank : Nat) :
    Maintains here.Works (arrayCell name element rank : Run σ Cell) fun _ => True := by
  intro machine works
  rw [Meets, arrayCell, on_seq (on_get machine)]
  cases machine.lookup? name with
  | none =>
    obtain ⟨allocated, granted⟩ := works.allocate_array element (Grid.implicitBounds rank) (Grid.implicitCount rank)
    exact ⟨allocated.bind granted name, trivial⟩
  | some cell =>
    dsimp only
    rw [on_seq (on_get machine)]
    cases machine.store.content cell with
    | array held grid => exact ⟨works, trivial⟩
    | _ => exact works

theorem maintains_parameter (rooted : here.Rooted) (name : String) (ty : Ty) :
    Maintains here.Works (bindParameter name ty : Run σ Unit) fun _ => True := by
  have creates (value : Value) : Maintains here.Works (do
      let cell ← modifyGet fun machine : Machine σ => machine.allocate value
      modify fun machine => machine.bindIn machine.scope name cell : Run σ Unit) fun _ => True := by
    intro machine works
    obtain ⟨allocated, granted⟩ := works.allocate value
    exact ⟨allocated.bind_own granted name, trivial⟩
  refine maintains_seq (maintains_pop (preserved_works rooted)) fun item isOpen => ?_
  cases item with
  | reference cell =>
    exact maintains_modify fun machine works =>
      works.bind_own (works.affects.grants_open rooted (isOpen cell rfl)) name
  | value value =>
    dsimp only
    split
    · exact creates value
    · cases ty.convert value with
      | ok converted => exact creates converted
      | error fault => exact fun _ works => works

theorem maintains_declare (name : String) (value : Value) :
    Maintains here.Works (declare name value : Run σ Unit) fun _ => True := by
  refine maintains_modify fun machine works => ?_
  obtain ⟨allocated, granted⟩ := works.allocate value
  exact allocated.bind granted name

theorem maintains_grid {found : Except GridFault α} : Maintains here.Works (ofGrid found : Run σ α) fun _ => True := by
  cases found with
  | ok value => exact maintains_value value
  | error fault => exact maintains_fail _

theorem maintains_declare_array (name : String) (element : Ty) (bounds : List Bounds) :
    Maintains here.Works (declareArray name element bounds : Run σ Unit) fun _ => True := by
  refine maintains_seq maintains_grid fun count _ => maintains_modify fun machine works => ?_
  obtain ⟨allocated, granted⟩ := works.allocate_array element bounds count
  exact allocated.bind granted name

theorem maintains_resize (name : String) (element : Ty) (bounds : List Bounds) (preserve : Bool) :
    Maintains here.Works (resizeArray name element bounds preserve : Run σ Unit) fun _ => True := by
  intro machine works
  obtain ⟨ensured, granted⟩ := works.ensure name
  rw [Meets, resizeArray, on_seq (on_variable name machine), on_seq (on_get _)]
  generalize (machine.ensureVariable name).1 = cell at granted
  generalize (machine.ensureVariable name).2 = machine at ensured granted
  have counted {change : Nat → Machine σ → Machine σ} (changes : ∀ count, here.Works (change count machine)) :
      Meets (do let count ← ofGrid (Grid.slotCount bounds); modify (change count) : Run σ Unit) machine
        (fun _ after => here.Works after ∧ True) fun _ after => here.Works after := by
    cases Grid.slotCount bounds with
    | error fault => exact ensured
    | ok count => exact ⟨changes count, trivial⟩
  cases content : machine.store.content cell with
  | array held grid =>
    -- The slots that stay are the first that the array has.
    refine counted fun count => ensured.stores granted (.resize cell held bounds _ _ ?_ granted.1)
    rw [content]
    exact grid.kept_prefix count preserve
  | _ => exact counted fun count => ensured.stores granted (.resize cell element bounds count #[] List.nil_prefix granted.1)

theorem maintains_jump (target : Target) : Maintains here.Works (jump target : Run σ Unit) fun _ => True := by
  cases target with
  | label id => exact maintains_fail _
  | resolved place => exact maintains_modify fun _ works => { works with }

theorem maintains_jump_if {condition : Prop} [Decidable condition] (target : Target) :
    Maintains here.Works (if condition then jump target else pure () : Run σ Unit) fun _ => True :=
  maintains_either (maintains_jump target) (maintains_value ())

theorem maintains_arithmetic (rooted : here.Rooted) (found : Except ArithmeticFault Value) :
    Maintains here.Works (do push (← ofArithmetic found) : Run σ Unit) fun _ => True := by
  cases found with
  | ok value => exact maintains_push (preserved_works rooted) value
  | error fault => exact maintains_fail _

theorem maintains_read (cell : Cell) : Maintains here.Works (readCell cell : Run σ Value) fun _ => True :=
  fun _ works => ⟨works, trivial⟩

theorem maintains_for_step (rooted : here.Rooted) : Maintains here.Works (forStep : Run σ Unit) fun _ => True := by
  have preserved := preserved_works rooted
  refine maintains_seq (maintains_pop_number preserved) fun step _ =>
    maintains_seq (maintains_pop_reference preserved) fun cell isOpen =>
      maintains_seq (maintains_read cell) fun counter _ => ?_
  cases counter.toDouble? with
  | none => exact maintains_fail _
  | some number => exact maintains_either (maintains_assign preserved isOpen _) (maintains_fail _)

theorem maintains_read_datum (rooted : here.Rooted) : Maintains here.Works (readDatum : Run σ Unit) fun _ => True := by
  have preserved := preserved_works rooted
  have next : Maintains here.Works (nextDatum : Run σ Value) fun _ => True := by
    intro machine works
    rw [Meets, nextDatum, on_seq (on_get machine)]
    cases machine.image.data[machine.nextData]? with
    | none => exact works
    | some item => exact ⟨{ works with }, trivial⟩
  exact maintains_seq (maintains_pop_reference preserved) fun target isOpen =>
    maintains_seq next fun _ _ => maintains_seq maintains_get fun _ _ => maintains_assign preserved isOpen _

theorem maintains_pop_ints (rooted : here.Rooted) (count : Nat) :
    Maintains here.Works (popInts count : Run σ (List Int)) fun _ => True :=
  maintains_weaken (maintains_pop_many (maintains_pop_int (preserved_works rooted)) count [] (by simp)) fun _ _ => trivial

theorem ends_array_deref (rooted : here.Rooted) (rank : Nat) (byRef : Bool) :
    Ends here.Works here.Worked (arrayDeref rank byRef : Run σ Unit) := by
  refine ends_seq (maintains_pop_ints rooted rank) fun indices _ =>
    ends_seq (maintains_pop_reference (preserved_works rooted)) fun cell _ => ends_seq maintains_get fun machine _ => ?_
  cases machine.store.content cell with
  | array element grid => exact ends_seq maintains_grid fun slot _ _ works => meets_push_part works byRef
  | _ => exact ends_fail _

theorem ends_member_deref (rooted : here.Rooted) (member : String) (byRef : Bool) :
    Ends here.Works here.Worked (memberDeref member byRef : Run σ Unit) := by
  refine ends_seq (maintains_pop (preserved_works rooted)) fun item _ => ?_
  cases item with
  | reference cell =>
    refine ends_seq maintains_get fun machine _ => ?_
    cases machine.store.content cell with
    | record title members fields =>
      dsimp only
      cases (members.index? member).bind (fields[·]?) with
      | none => exact ends_fail _
      | some field => exact fun _ works => meets_push_part works byRef
    | _ => exact ends_fail _
  | value item =>
    cases item with
    | record title members fields =>
      dsimp only
      cases (members.index? member).bind (fields[·]?) with
      | none => exact ends_fail _
      | some item =>
        cases byRef with
        | false => exact ends_at_once awaited_works (maintains_push (preserved_works rooted) item)
        | true => exact fun _ works => { (works.allocate item).1.worked with }
    | _ => exact ends_fail _

end Operations

section Executing

inductive Reshapes (setup : Setup σ) (here after : Machine σ) : Prop where
  | works (worked : here.Worked after)
  | calls (returnTo : Nat) (room : here.frames.length < setup.maxDepth)
      (frames : after.frames = ⟨.call, returnTo, here.scopes.size⟩ :: here.frames)
      (scopes : after.scopes = here.scopes.push []) (store : after.store = here.store)
      (pending : after.pending = here.pending)
  | gosubs (returnTo : Nat) (room : here.frames.length < setup.maxDepth)
      (frames : after.frames = ⟨.gosub, returnTo, here.scope⟩ :: here.frames)
      (scopes : after.scopes = here.scopes) (store : after.store = here.store) (pending : after.pending = here.pending)
  | returns (frame outer : Frame) (rest : List Frame) (entered : here.frames = frame :: outer :: rest)
      (frames : after.frames = outer :: rest)
      (scopes : after.scopes = if frame.kind = .call then here.scopes.pop else here.scopes)
      (store : after.store = here.store) (pending : after.pending = here.pending)

def Shapes (setup : Setup σ) (here : Machine σ) (action : Run σ Unit) : Prop :=
  Reshapes setup here (action.on here).2

theorem shapes_ends (rooted : here.Rooted) {action : Run σ Unit} (ends : Ends here.Works here.Worked action) :
    Shapes setup here action := by
  have ended := ends here (.refl rooted)
  rw [Meets] at ended
  rw [Shapes]
  cases ran : action.on here with
  | mk result after =>
    rw [ran] at ended
    cases result with
    | ok _ => exact .works ended
    | error error => exact .works ended.worked

theorem shapes_call (rooted : here.Rooted) (target : Target) : Shapes setup here (call setup target) := by
  rw [Shapes, call, on_seq (on_get here), on_bind, enter, on_seq (on_get here)]
  by_cases full : setup.maxDepth ≤ here.frames.length
  · rw [if_pos full]
    exact .works (Machine.Works.refl rooted).worked
  · rw [if_neg full, on_modify]
    cases target <;> exact .calls here.next (Nat.not_le.mp full) rfl rfl rfl rfl

theorem shapes_gosub (rooted : here.Rooted) (target : Target) : Shapes setup here (gosub setup target) := by
  rw [Shapes, gosub, on_seq (on_get here), on_bind, enter, on_seq (on_get here)]
  by_cases full : setup.maxDepth ≤ here.frames.length
  · rw [if_pos full]
    exact .works (Machine.Works.refl rooted).worked
  · rw [if_neg full, on_modify]
    cases target <;> exact .gosubs here.next (Nat.not_le.mp full) rfl rfl rfl rfl

theorem shapes_return (rooted : here.Rooted) : Shapes setup here ret := by
  have still : Reshapes setup here here := .works (Machine.Works.refl rooted).worked
  rw [Shapes, ret, on_seq (on_get here)]
  cases frames : here.frames with
  | nil => exact still
  | cons frame others =>
    cases others with
    | nil => exact still
    | cons outer rest => exact .returns frame outer rest frames rfl rfl rfl rfl

theorem execute_shapes (setup : Setup σ) (rooted : here.Rooted) (op : Op) : Shapes setup here (execute setup op) := by
  have preserved := preserved_works rooted
  have now {action : Run σ Unit} (maintains : Maintains here.Works action fun _ => True) : Shapes setup here action :=
    shapes_ends rooted (ends_at_once awaited_works maintains)
  have value := maintains_pop_value preserved
  have number := maintains_pop_number preserved
  cases op with
  | pushConst item => exact now (maintains_push preserved item)
  | pushValue name =>
    exact now (maintains_seq (maintains_variable name) fun cell _ => maintains_seq (maintains_read cell) fun _ _ =>
      maintains_push preserved _)
  | pushRef name => exact shapes_ends rooted (ends_reference (maintains_variable name))
  | pushArray name element rank => exact shapes_ends rooted (ends_reference (maintains_array_cell name element rank))
  | pop => exact now (maintains_seq (maintains_pop preserved) fun _ _ => maintains_value ())
  | assign =>
    exact now (maintains_seq value fun item _ => maintains_seq (maintains_pop_reference preserved) fun _ isOpen =>
      maintains_assign preserved isOpen item)
  | popParam name ty => exact now (maintains_parameter rooted name ty)
  | dim name ty => exact now (maintains_declare name _)
  | dimArray name element rank =>
    exact now (maintains_seq (maintains_seq (maintains_pop_ints rooted _) fun _ _ => maintains_value _) fun bounds _ =>
      maintains_declare_array name element bounds)
  | redim name element rank preserve =>
    exact now (maintains_seq (maintains_seq (maintains_pop_ints rooted _) fun _ _ => maintains_value _) fun bounds _ =>
      maintains_resize name element bounds preserve)
  | setDefaultType first last ty => exact now (maintains_modify fun _ works => { works with })
  | binary operator =>
    exact now (maintains_seq value fun _ _ => maintains_seq value fun _ _ => maintains_arithmetic rooted _)
  | negate => exact now (maintains_seq value fun _ _ => maintains_arithmetic rooted _)
  | complement => exact now (maintains_seq value fun _ _ => maintains_arithmetic rooted _)
  | jump target => exact now (maintains_jump target)
  | jumpIfZero target => exact now (maintains_seq value fun _ _ => maintains_jump_if target)
  | jumpIfNonzero target => exact now (maintains_seq value fun _ _ => maintains_jump_if target)
  | call target => exact shapes_call rooted target
  | gosub target => exact shapes_gosub rooted target
  | ret => exact shapes_return rooted
  | forLoop target =>
    exact now (maintains_seq number fun _ _ => maintains_seq number fun _ _ => maintains_seq number fun _ _ =>
      maintains_jump_if target)
  | forStep => exact now (maintains_for_step rooted)
  | stop =>
    refine shapes_ends rooted (ends_seq maintains_get fun _ _ => ends_seq (maintains_modify fun _ works => ?_) fun _ _ => ?_)
    · exact { works with }
    · exact ends_write_back awaited_works _ trivial
  | arrayDeref rank byRef => exact shapes_ends rooted (ends_array_deref rooted rank byRef)
  | memberDeref member byRef => exact shapes_ends rooted (ends_member_deref rooted member byRef)
  | read => exact now (maintains_read_datum rooted)
  | restore target =>
    cases target with
    | label id => exact now (maintains_fail _)
    | resolved place => exact now (maintains_modify fun _ works => { works with })
  | syscall name =>
    exact shapes_ends rooted (ends_syscall preserved awaited_works setup setup.devices.within_any name
      (fun _ _ _ works => { works with }) (fun _ _ _ _ works => { works with }) fun _ _ => trivial)
  | onEvent target =>
    refine now (maintains_seq (maintains_pop_text preserved) fun key _ => ?_)
    cases target with
    | label id => exact maintains_fail _
    | resolved place => exact maintains_modify fun _ works => { works with }

end Executing

section Running

variable {after : Machine σ}

theorem Reshapes.moved {next : Nat} (reshapes : Reshapes setup { here with next } after) : Reshapes setup here after := by
  cases reshapes with
  | works worked => exact .works ⟨worked.frames, worked.waits, { worked.affects with }⟩
  | calls returnTo room frames scopes store pending => exact .calls returnTo room frames scopes store pending
  | gosubs returnTo room frames scopes store pending => exact .gosubs returnTo room frames scopes store pending
  | returns frame outer rest entered frames scopes store pending =>
    exact .returns frame outer rest entered frames scopes store pending

theorem Reshapes.told (reshapes : Reshapes setup here after) (phase : Phase) (notices : List Notice) :
    Reshapes setup here { after with phase, notices } := by
  cases reshapes with
  | works worked => exact .works { worked with }
  | calls returnTo room frames scopes store pending => exact .calls returnTo room frames scopes store pending
  | gosubs returnTo room frames scopes store pending => exact .gosubs returnTo room frames scopes store pending
  | returns frame outer rest entered frames scopes store pending =>
    exact .returns frame outer rest entered frames scopes store pending

theorem Reshapes.phased (reshapes : Reshapes setup here after) (phase : Phase) :
    Reshapes setup here (after.setPhase phase) := by
  obtain ⟨notices, same⟩ := after.set_phase_only phase
  rw [same]
  exact reshapes.told phase notices

theorem Reshapes.develops (reshapes : Reshapes setup here after) (rooted : here.Rooted) :
    Store.Develops here.Opens here.store after.store := by
  have still : Store.Develops here.Opens here.store here.store := .refl rooted.forest
  cases reshapes with
  | works worked => exact worked.affects.develops
  | calls _ _ _ _ store _ => exact store ▸ still
  | gosubs _ _ _ _ store _ => exact store ▸ still
  | returns _ _ _ _ _ _ store _ => exact store ▸ still

theorem Reshapes.waits (reshapes : Reshapes setup here after) {pending : Pending} (waits : after.pending = some pending) :
    here.pending = some pending ∨ ∀ cell ∈ pending.completion.targets, here.Opens cell := by
  cases reshapes with
  | works worked => exact worked.waits pending waits
  | calls _ _ _ _ _ same => exact .inl (same ▸ waits)
  | gosubs _ _ _ _ _ same => exact .inl (same ▸ waits)
  | returns _ _ _ _ _ _ _ same => exact .inl (same ▸ waits)

theorem ready_cells (setup : Setup σ) (machine : Machine σ) :
    (ready setup machine).stack = machine.stack ∧ (ready setup machine).scopes = machine.scopes ∧
      (ready setup machine).store = machine.store := by
  have polled : (pollEvents setup.devices (machine.setPhase .running)).stack = machine.stack ∧
      (pollEvents setup.devices (machine.setPhase .running)).scopes = machine.scopes ∧
      (pollEvents setup.devices (machine.setPhase .running)).store = machine.store := by
    obtain ⟨notices, started⟩ := machine.set_phase_only .running
    rw [started, pollEvents]
    cases setup.devices.bus <;> exact ⟨rfl, rfl, rfl⟩
  rw [ready]
  obtain ⟨still, -⟩ | ⟨key, data, rest, -, -, ⟨-, dropped⟩ | ⟨handler, -, entered⟩⟩ :=
    deliver_cases (pollEvents setup.devices (machine.setPhase .running))
  · rw [still]
    exact polled
  · rw [dropped]
    exact polled
  · rw [entered]
    exact polled

theorem ready_rooted (setup : Setup σ) (rooted : machine.Rooted) : (ready setup machine).Rooted := by
  obtain ⟨-, -, store⟩ := ready_cells setup machine
  refine ⟨ready_keeps setup rooted.keeps, store ▸ rooted.forest, fun pending waits => ?_⟩
  rw [(ready_waits setup machine).2.1] at waits
  exact store ▸ rooted.waits pending waits

theorem step_shapes (rooted : machine.Rooted) (goes : machine.phase = .idle ∨ machine.phase = .running) :
    Reshapes setup (ready setup machine) ((step setup).on machine).2 := by
  have started := ready_rooted setup rooted
  rw [on_step_ready goes]
  cases (ready setup machine).image.instructions[(ready setup machine).next]? with
  | none =>
    have still : Reshapes setup (ready setup machine) (ready setup machine) := .works (Machine.Works.refl started).worked
    exact still.phased .finished
  | some instruction =>
    dsimp only
    have moved : Machine.Rooted { ready setup machine with next := (ready setup machine).next + 1 } :=
      ⟨{ started.keeps with }, started.forest, started.waits⟩
    have executed := (execute_shapes setup moved instruction.op).moved
    cases ran : (execute setup instruction.op).on
        { ready setup machine with next := (ready setup machine).next + 1 } with
    | mk result after =>
      rw [ran] at executed
      cases result with
      | error error => exact executed.told _ _
      | ok _ =>
        dsimp only
        split
        · exact executed.phased .finished
        · exact executed

theorem step_develops (setup : Setup σ) (rooted : machine.Rooted) :
    Store.Develops (ready setup machine).Opens machine.store ((step setup).on machine).2.store := by
  by_cases goes : machine.phase = .idle ∨ machine.phase = .running
  · rw [← (ready_cells setup machine).2.2]
    exact (step_shapes rooted goes).develops (ready_rooted setup rooted)
  · rw [on_step_still goes]
    exact .refl rooted.forest

theorem step_rooted : Upholds Machine.Rooted (step setup) := by
  intro machine rooted
  have develops := step_develops setup rooted
  have keeps : ((step setup).on machine).2.Keeps .vacant none :=
    step_keeps rooted.keeps fun _ _ isKept => by cases isKept
  refine ⟨keeps, develops.forest, fun pending waits cell isTarget => ?_⟩
  refine Nat.lt_of_lt_of_le ?_ develops.size
  by_cases goes : machine.phase = .idle ∨ machine.phase = .running
  · have started := ready_rooted setup rooted
    rw [← (ready_cells setup machine).2.2]
    rcases (step_shapes rooted goes).waits waits with waited | isOpen
    · exact started.waits pending waited cell isTarget
    · exact started.opens (isOpen cell isTarget)
  · rw [on_step_still goes] at waits
    exact rooted.waits pending waits cell isTarget

structure Answers (targets : List Cell) (here after : Machine σ) : Prop where
  frames : after.frames = here.frames
  scopes : after.scopes = here.scopes
  pending : after.pending = here.pending
  stack : ∀ cell, .reference cell ∈ after.stack → .reference cell ∈ here.stack
  develops : Store.Develops (fun cell => cell ∈ targets ∨ .reference cell ∈ here.stack) here.store after.store

theorem preserved_answers {targets : List Cell} (rooted : here.Rooted) (there : ∀ cell ∈ targets, cell < here.store.size) :
    Preserved (Answers targets here) fun cell => cell ∈ targets ∨ .reference cell ∈ here.stack where
  pop := fun _ _ _ answers stack =>
    { answers with stack := fun cell inside => answers.stack cell (by simp [stack, inside]) }
  reference := fun _ cell _ answers stack => .inr (answers.stack cell (by simp [stack]))
  push := fun _ _ answers => { answers with stack := fun cell inside => answers.stack cell (by simpa using inside) }
  write := fun machine cell value answers isFree _ => by
    have below : cell < here.store.size := by
      rcases isFree with isTarget | inside
      · exact there cell isTarget
      · exact rooted.opens (.inl inside)
    have edit : machine.store.Edit (some cell) (machine.store.write cell value) :=
      .write cell value (Nat.lt_of_lt_of_le below answers.develops.size)
    refine { answers with develops := answers.develops.trans (edit.develops answers.develops.forest) ?_ }
    rintro _ _ ⟨⟩
    exact isFree
  around := fun _ _ _ _ _ _ answers => { answers with }

theorem resume_answers (rooted : machine.Rooted) {pending : Pending} (waits : machine.pending = some pending)
    (reply : Except DeviceError Reply) :
    Answers pending.completion.targets { machine with pending := none } ((resume reply).on machine).2 := by
  have waitsNot : Machine.Rooted { machine with pending := none } :=
    ⟨{ rooted.keeps with waits := by simp }, rooted.forest, by simp⟩
  have started : Answers pending.completion.targets { machine with pending := none } { machine with pending := none } :=
    ⟨rfl, rfl, rfl, fun _ inside => inside, .refl rooted.forest⟩
  have resumed := meets_resumed (preserved_answers waitsNot (rooted.waits pending waits)) reply waits started
    (fun _ isTarget => .inl isTarget) fun _ _ _ _ answers => { answers with }
  rw [Meets] at resumed
  cases ran : (resume reply).on machine with
  | mk result after =>
    rw [ran] at resumed
    cases result with
    | ok _ =>
      obtain ⟨last, answers, rfl⟩ := resumed
      obtain ⟨notices, running⟩ := last.set_phase_only .running
      rw [running]
      exact { answers with }
    | error error =>
      obtain ⟨last, answers, rfl⟩ := resumed
      exact { answers with }

theorem resume_rooted (reply : Except DeviceError Reply) : Upholds Machine.Rooted (resume reply : Run σ Unit) := by
  intro machine rooted
  cases waits : machine.pending with
  | none =>
    rw [on_resume_nothing waits]
    exact rooted
  | some pending =>
    have answers := resume_answers rooted waits reply
    refine ⟨resume_keeps reply machine rooted.keeps, answers.develops.forest, ?_⟩
    simp [answers.pending]

theorem reset_rooted (machine : Machine σ) : machine.reset.Rooted where
  keeps := reset_keeps machine
  forest := by
    have nothing (cell : Cell) : (machine.reset.store.content cell).parts = [] := rfl
    have keeps : machine.reset.Keeps .vacant none := reset_keeps machine
    refine { keeps.closed with ordered := ?_, distinct := ?_, single := ?_ } <;> simp [nothing]
  waits := by simp [Machine.reset]

theorem call_rooted (call : HostCall) : Upholds Machine.Rooted (call.run setup) := by
  cases restarts : call.restarts with
  | false =>
    refine upholds_call step_rooted resume_rooted (fun machine world events rooted => ?_) restarts
    exact ⟨{ rooted.keeps with }, rooted.forest, rooted.waits⟩
  | true =>
    cases call with
    | load image => exact fun _ _ => reset_rooted _
    | reset => exact fun _ _ => reset_rooted _
    | _ => cases restarts

end Running

end Run

theorem Machine.after_all_rooted {σ : Type} (setup : Setup σ) (world : σ) (calls : List HostCall) :
    ((Machine.create world).afterAll setup calls).Rooted := by
  have created : (Machine.create world).Rooted := by
    have started := Run.reset_rooted (Machine.create world)
    exact ⟨{ started.keeps with }, started.forest, started.waits⟩
  exact Machine.after_all_holds setup (fun call _ => Run.call_rooted call) created

end BasicLang
