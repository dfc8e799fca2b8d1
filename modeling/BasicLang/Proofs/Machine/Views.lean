import BasicLang.Proofs.Action.Invariant

set_option autoImplicit false

namespace BasicLang

def Op.computes : Op → Bool
  | .jump _ | .jumpIfZero _ | .jumpIfNonzero _ | .forLoop _ => false
  | .call _ | .gosub _ | .ret | .stop | .syscall _ | .onEvent _ => false
  | _ => true

def Op.Files (registry : Registry) : Op → Prop
  | .stop => True
  | .syscall name => (registry.lookup? name).any Builtin.isFiling = true
  | _ => False

def Op.movesData : Op → Bool
  | .read | .restore _ => true
  | _ => false

def Op.Redirects (registry : Registry) : Op → Prop
  | .stop => True
  | .syscall name => registry.lookup? name = some .selectOutput
  | _ => False

namespace Run

variable {σ α β γ : Type} {view : Machine σ → γ} {setup : Setup σ} {moves : σ × Nat → σ × Nat → Prop}

/-- A view that shows nothing of what operations compute with, and of how the world and the column move. -/
structure AsideWithin (moves : σ × Nat → σ × Nat → Prop) (view : Machine σ → γ) : Prop where
  computing : ∀ machine stack scopes store, view { machine with stack, scopes, store } = view machine
  around : ∀ machine world column status generator,
    Relation.ReflGen moves (machine.world, machine.column) (world, column) →
      view { machine with world, column, status, generator } = view machine

structure ApartWithin (moves : σ × Nat → σ × Nat → Prop) (view : Machine σ → γ) : Prop
    extends toAside : AsideWithin moves view where
  control : ∀ machine next frames phase pending handlers notices,
    view { machine with next, frames, phase, pending, handlers, notices } = view machine

abbrev Aside (view : Machine σ → γ) : Prop := AsideWithin (fun _ _ => True) view

abbrev Apart (view : Machine σ → γ) : Prop := ApartWithin (fun _ _ => True) view

theorem AsideWithin.preserved (aside : AsideWithin moves view) (seen : γ) :
    PreservedWithin moves (fun machine => view machine = seen) fun _ => True where
  pop := fun machine _ rest held _ => (aside.computing machine rest _ _).trans held
  reference := fun _ _ _ _ _ => trivial
  push := fun machine _ held => (aside.computing machine _ _ _).trans held
  write := fun machine _ _ held _ _ => (aside.computing machine _ _ _).trans held
  around := fun machine _ _ _ _ moved held => (aside.around machine _ _ _ _ moved).trans held

theorem ApartWithin.awaited (apart : ApartWithin moves view) (seen : γ) :
    Awaited (fun machine => view machine = seen) (fun machine => view machine = seen) (fun _ => True) fun _ => True where
  at_once := fun _ held => held
  waits := fun machine _ _ _ held _ _ _ => (apart.control machine _ _ _ _ _ _).trans held

def Stays (view : Machine σ → γ) (action : Run σ α) : Prop :=
  ∀ seen, Maintains (fun machine => view machine = seen) action fun _ => True

section Parts

theorem stays_value (value : α) : Stays view (pure value : Run σ α) := fun _ => maintains_value value

theorem stays_seq {first : Run σ α} {next : α → Run σ β} (stays : Stays view first)
    (rest : ∀ value, Stays view (next value)) : Stays view (first >>= next) :=
  fun seen => maintains_seq (stays seen) fun value _ => rest value seen

theorem stays_fail (fault : Fault) : Stays view (fail fault : Run σ α) := fun _ => maintains_fail fault

theorem stays_get : Stays view (get : Run σ (Machine σ)) :=
  fun _ => maintains_weaken maintains_get fun _ _ => trivial

theorem stays_modify {change : Machine σ → Machine σ} (same : ∀ machine, view (change machine) = view machine) :
    Stays view (modify change : Run σ Unit) :=
  fun _ => maintains_modify fun machine held => (same machine).trans held

theorem stays_modify_get {change : Machine σ → α × Machine σ}
    (same : ∀ machine, view (change machine).2 = view machine) : Stays view (modifyGet change : Run σ α) :=
  fun _ => maintains_modify_get fun machine held => ⟨(same machine).trans held, trivial⟩

theorem stays_arithmetic (found : Except ArithmeticFault α) : Stays view (ofArithmetic found : Run σ α) := by
  cases found with
  | ok value => exact stays_value value
  | error fault => exact stays_fail _

theorem stays_grid (found : Except GridFault α) : Stays view (ofGrid found : Run σ α) := by
  cases found with
  | ok value => exact stays_value value
  | error fault => exact stays_fail _

theorem stays_read (cell : Cell) : Stays view (readCell cell : Run σ Value) :=
  stays_seq stays_get fun _ => stays_value _

theorem stays_address (target : Target) : Stays view (address target : Run σ Nat) := by
  cases target with
  | resolved place => exact stays_value place
  | label id => exact stays_fail _

end Parts

section Computing

variable (aside : AsideWithin moves view)

include aside

theorem stays_pop : Stays view (pop : Run σ StackItem) :=
  fun _ => maintains_weaken (maintains_pop (aside.preserved _)) fun _ _ => trivial

theorem stays_pop_value : Stays view (popValue : Run σ Value) := fun _ => maintains_pop_value (aside.preserved _)

theorem stays_pop_reference : Stays view (popReference : Run σ Cell) :=
  fun _ => maintains_pop_reference (aside.preserved _)

theorem stays_pop_text : Stays view (popText : Run σ String) := fun _ => maintains_pop_text (aside.preserved _)

theorem stays_pop_number : Stays view (popNumber : Run σ Float) := fun _ => maintains_pop_number (aside.preserved _)

theorem stays_pop_ints (count : Nat) : Stays view (popInts count : Run σ (List Int)) :=
  fun _ => maintains_weaken (maintains_pop_many (maintains_pop_int (aside.preserved _)) count [] (by simp))
    fun _ _ => trivial

theorem stays_push (value : Value) : Stays view (push value : Run σ Unit) :=
  fun _ => maintains_push (aside.preserved _) value

theorem stays_push_reference (cell : Cell) : Stays view (pushReference cell : Run σ Unit) :=
  stays_modify fun machine => aside.computing machine _ _ _

theorem stays_assign (cell : Cell) (value : Value) : Stays view (assign cell value : Run σ Unit) :=
  fun _ => maintains_assign (aside.preserved _) trivial value

theorem stays_push_cell (cell : Cell) (byRef : Bool) : Stays view (pushCell cell byRef : Run σ Unit) := by
  cases byRef with
  | true => exact stays_push_reference aside cell
  | false => exact stays_seq (stays_read cell) fun _ => stays_push aside _

theorem stays_variable (name : String) : Stays view (variableCell name : Run σ Cell) := by
  refine stays_modify_get fun machine => ?_
  unfold Machine.ensureVariable
  split
  · rfl
  · exact aside.computing machine _ _ _

theorem stays_array_cell (name : String) (element : Ty) (rank : Nat) :
    Stays view (arrayCell name element rank : Run σ Cell) := by
  refine stays_seq stays_get fun machine => ?_
  cases machine.lookup? name with
  | none => exact stays_modify_get fun machine => aside.computing machine _ _ _
  | some cell =>
    refine stays_seq stays_get fun machine => ?_
    cases machine.store.content cell with
    | array held grid => exact stays_value _
    | _ => exact stays_fail _

theorem stays_parameter (name : String) (ty : Ty) : Stays view (bindParameter name ty : Run σ Unit) := by
  have binds (cell : Cell) : Stays view (modify fun machine : Machine σ => machine.bindIn machine.scope name cell) :=
    stays_modify fun machine => aside.computing machine _ _ _
  have creates (value : Value) : Stays view (do
      let cell ← modifyGet fun machine : Machine σ => machine.allocate value
      modify fun machine => machine.bindIn machine.scope name cell : Run σ Unit) :=
    stays_seq (stays_modify_get fun machine => aside.computing machine _ _ _) fun cell => binds cell
  refine stays_seq (stays_pop aside) fun item => ?_
  cases item with
  | reference cell => exact binds cell
  | value value =>
    dsimp only
    split
    · exact creates value
    · cases ty.convert value with
      | ok converted => exact creates converted
      | error fault => exact stays_seq (stays_fail _ : Stays view (fail _ : Run σ Value)) fun value => creates value

theorem stays_declare_array (name : String) (element : Ty) (bounds : List Bounds) :
    Stays view (declareArray name element bounds : Run σ Unit) :=
  stays_seq (stays_grid _) fun _ => stays_modify fun machine => aside.computing machine _ _ _

theorem stays_resize (name : String) (element : Ty) (bounds : List Bounds) (preserve : Bool) :
    Stays view (resizeArray name element bounds preserve : Run σ Unit) := by
  refine stays_seq (stays_variable aside name) fun cell => stays_seq stays_get fun machine => ?_
  cases machine.store.content cell <;>
    exact stays_seq (stays_grid _) fun _ => stays_modify fun machine => aside.computing machine _ _ _

theorem stays_for_step : Stays view (forStep : Run σ Unit) := by
  refine stays_seq (stays_pop_number aside) fun step => stays_seq (stays_pop_reference aside) fun cell => ?_
  refine stays_seq (stays_read cell) fun counter => ?_
  cases counter.toDouble? with
  | none => exact stays_fail _
  | some number =>
    dsimp only
    split
    · exact stays_assign aside cell _
    · exact stays_fail _

theorem stays_array_deref (rank : Nat) (byRef : Bool) : Stays view (arrayDeref rank byRef : Run σ Unit) := by
  refine stays_seq (stays_pop_ints aside rank) fun indices => stays_seq (stays_pop_reference aside) fun cell => ?_
  refine stays_seq stays_get fun machine => ?_
  cases machine.store.content cell with
  | array element grid => exact stays_seq (stays_grid _) fun slot => stays_push_cell aside slot byRef
  | _ => exact stays_fail _

theorem stays_member_deref (member : String) (byRef : Bool) :
    Stays view (memberDeref member byRef : Run σ Unit) := by
  refine stays_seq (stays_pop aside) fun item => ?_
  cases item with
  | reference cell =>
    refine stays_seq stays_get fun machine => ?_
    cases machine.store.content cell with
    | record name members fields =>
      dsimp only
      cases (members.index? member).bind (fields[·]?) with
      | some field => exact stays_push_cell aside field byRef
      | none => exact stays_fail _
    | _ => exact stays_fail _
  | value value =>
    cases value with
    | record name members fields =>
      dsimp only
      cases (members.index? member).bind (fields[·]?) with
      | none => exact stays_fail _
      | some value =>
        cases byRef with
        | true =>
          exact stays_seq (stays_modify_get fun machine => aside.computing machine _ _ _) fun cell =>
            stays_push_reference aside cell
        | false => exact stays_push aside _
    | _ => exact stays_fail _

theorem stays_read_datum (moved : ∀ machine nextData, view { machine with nextData } = view machine) :
    Stays view (readDatum : Run σ Unit) := by
  have next : Stays view (nextDatum : Run σ Value) := by
    intro seen machine held
    rw [Meets, nextDatum, on_seq (on_get machine)]
    cases machine.image.data[machine.nextData]? with
    | none => exact held
    | some value => exact ⟨(moved machine _).trans held, trivial⟩
  exact stays_seq (stays_pop_reference aside) fun target => stays_seq next fun _ => stays_seq stays_get fun _ =>
    stays_assign aside target _

theorem computing_stays (setup : Setup σ) {op : Op} (computes : op.computes = true)
    (typing : op.setsLetters = true → ∀ machine letters, view { machine with letters } = view machine)
    (moved : op.movesData = true → ∀ machine nextData, view { machine with nextData } = view machine) :
    Stays view (execute setup op) := by
  have value : Stays view (popValue : Run σ Value) := stays_pop_value aside
  cases op with
  | pushConst item => exact stays_push aside item
  | pushValue name =>
    exact stays_seq (stays_variable aside name) fun cell => stays_seq (stays_read cell) fun _ => stays_push aside _
  | pushRef name => exact stays_seq (stays_variable aside name) fun cell => stays_push_reference aside cell
  | pushArray name element rank =>
    exact stays_seq (stays_array_cell aside name element rank) fun cell => stays_push_reference aside cell
  | pop => exact stays_seq (stays_pop aside) fun _ => stays_value ()
  | assign =>
    exact stays_seq value fun item => stays_seq (stays_pop_reference aside) fun cell => stays_assign aside cell item
  | popParam name ty => exact stays_parameter aside name ty
  | dim name ty => exact stays_modify fun machine => aside.computing machine _ _ _
  | dimArray name element rank =>
    exact stays_seq (stays_seq (stays_pop_ints aside _) fun _ => stays_value _) fun bounds =>
      stays_declare_array aside name element bounds
  | redim name element rank preserve =>
    exact stays_seq (stays_seq (stays_pop_ints aside _) fun _ => stays_value _) fun bounds =>
      stays_resize aside name element bounds preserve
  | setDefaultType first last ty => exact stays_modify fun machine => typing rfl machine _
  | binary operator =>
    exact stays_seq value fun _ => stays_seq value fun _ => stays_seq (stays_arithmetic _) fun _ => stays_push aside _
  | negate => exact stays_seq value fun _ => stays_seq (stays_arithmetic _) fun _ => stays_push aside _
  | complement => exact stays_seq value fun _ => stays_seq (stays_arithmetic _) fun _ => stays_push aside _
  | forStep => exact stays_for_step aside
  | arrayDeref rank byRef => exact stays_array_deref aside rank byRef
  | memberDeref member byRef => exact stays_member_deref aside member byRef
  | read => exact stays_read_datum aside (moved rfl)
  | restore target => exact stays_seq (stays_address target) fun _ => stays_modify fun machine => moved rfl machine _
  | _ => cases computes

end Computing

section Executing

variable (apart : ApartWithin moves view)

include apart

theorem stays_jump (target : Target) : Stays view (jump target : Run σ Unit) :=
  stays_seq (stays_address target) fun place => stays_modify fun machine => apart.control machine place _ _ _ _ _

theorem stays_jump_if {condition : Prop} [Decidable condition] (target : Target) :
    Stays view (if condition then jump target else pure () : Run σ Unit) := by
  split
  · exact stays_jump apart target
  · exact stays_value ()

theorem stays_enter (kind : FrameKind) (scope : Nat) : Stays view (enter setup kind scope) := by
  refine stays_seq stays_get fun machine => ?_
  split
  · exact stays_fail _
  · exact stays_modify fun machine => apart.control machine _ _ _ _ _ _

theorem stays_return : Stays view (ret : Run σ Unit) := by
  refine stays_seq stays_get fun machine => ?_
  split
  case _ frame outer rest _ =>
    refine stays_modify fun machine => ?_
    -- The scope is left in the machine that goes on behind the call.
    exact (apart.computing { machine with frames := outer :: rest, next := frame.returnTo } _ _ _).trans
      (apart.control machine _ _ _ _ _ _)
  case _ => exact stays_fail _

/-- Every operation but the call of a builtin leaves a view alone that shows only events and what the operation does not
change. -/
theorem plain_stays (setup : Setup σ) {op : Op} (noCall : ∀ name, op ≠ .syscall name)
    (refiled : op.Files setup.registry → ∀ machine files, view { machine with files } = view machine)
    (selects : op.Redirects setup.registry → ∀ machine output, view { machine with output } = view machine)
    (typing : op.setsLetters = true → ∀ machine letters, view { machine with letters } = view machine)
    (moved : op.movesData = true → ∀ machine nextData, view { machine with nextData } = view machine) :
    Stays view (execute setup op) := by
  have value : Stays view (popValue : Run σ Value) := stays_pop_value apart.toAside
  have number : Stays view (popNumber : Run σ Float) := stays_pop_number apart.toAside
  cases op with
  | jump target => exact stays_jump apart target
  | jumpIfZero target => exact stays_seq value fun _ => stays_jump_if apart target
  | jumpIfNonzero target => exact stays_seq value fun _ => stays_jump_if apart target
  | forLoop target =>
    exact stays_seq number fun _ => stays_seq number fun _ => stays_seq number fun _ => stays_jump_if apart target
  | call target =>
    refine stays_seq stays_get fun _ => stays_seq (stays_enter apart .call _) fun _ => stays_seq ?_ fun _ =>
      stays_jump apart target
    exact stays_modify fun machine => apart.computing machine _ _ _
  | gosub target =>
    exact stays_seq stays_get fun _ => stays_seq (stays_enter apart .gosub _) fun _ => stays_jump apart target
  | ret => exact stays_return apart
  | stop =>
    refine stays_seq stays_get fun _ => stays_seq (stays_modify fun machine => ?_) fun _ => ?_
    · calc
        view { machine with next := machine.image.instructions.size, files := [], output := none }
        _ = view { machine with files := [], output := none } :=
          apart.control { machine with files := [], output := none } _ _ _ _ _ _
        _ = view { machine with output := none } := refiled trivial { machine with output := none } []
        _ = view machine := selects trivial machine none
    · intro seen machine held
      exact meets_weaken (ends_write_back (apart.awaited seen) _ trivial machine held) (fun _ _ stays => ⟨stays, trivial⟩)
        fun _ _ stays => stays
  | syscall name => cases noCall name rfl
  | onEvent target =>
    refine stays_seq (stays_pop_text apart.toAside) fun key => stays_seq (stays_address target) fun place => ?_
    exact stays_modify fun machine => apart.control machine _ _ _ _ _ _
  | _ => exact computing_stays apart.toAside setup rfl typing moved

omit apart in
theorem execute_stays (apart : Apart view) (setup : Setup σ) (op : Op)
    (refiled : op.Files setup.registry → ∀ machine files, view { machine with files } = view machine)
    (selects : op.Redirects setup.registry → ∀ machine output, view { machine with output } = view machine)
    (typing : op.setsLetters = true → ∀ machine letters, view { machine with letters } = view machine)
    (moved : op.movesData = true → ∀ machine nextData, view { machine with nextData } = view machine) :
    Stays view (execute setup op) := by
  by_cases isCall : ∃ name, op = .syscall name
  · obtain ⟨name, rfl⟩ := isCall
    intro seen machine held
    have ended := ends_syscall (apart.preserved seen) (apart.awaited seen) setup setup.devices.within_any name
      (fun isSelection machine output held => (selects isSelection machine output).trans held)
      (fun isFiling machine files _ held => (refiled isFiling machine files).trans held) (fun _ _ => trivial) machine held
    exact meets_weaken ended (fun _ _ stays => ⟨stays, trivial⟩) fun _ _ stays => stays
  · exact plain_stays apart setup (fun name same => isCall ⟨name, same⟩) refiled selects typing moved

end Executing

end Run

end BasicLang
