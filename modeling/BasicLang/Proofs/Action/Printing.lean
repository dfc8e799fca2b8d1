import BasicLang.Proofs.Action.Invariant
import BasicLang.Proofs.Code.Emission

set_option autoImplicit false

namespace BasicLang

section Names

variable {registry : Registry} {name : String} {builtin : Builtin}

theorem Registry.lookup_named (found : registry.lookup? name = some builtin) : builtin.name = Text.upperAscii name := by
  rw [Registry.lookup?] at found
  cases isFunction : registry.function? name with
  | some other =>
    rw [isFunction] at found
    obtain rfl := Option.some.inj found
    have both := List.find?_some isFunction
    exact eq_of_beq (Bool.and_eq_true_iff.mp both).2
  | none =>
    rw [isFunction] at found
    have both := List.find?_some (found : registry.sub? name = some builtin)
    exact eq_of_beq (Bool.and_eq_true_iff.mp both).2

theorem Builtin.text_named : ∀ text ∈ Builtin.texts, text.name = builtin.name → builtin ∈ Builtin.texts := by
  cases builtin <;> decide +kernel

theorem Builtin.selection_named : Builtin.selectOutput.name = builtin.name → builtin = .selectOutput := by
  cases builtin <;> decide +kernel

theorem Registry.lookup_text (isText : (Op.syscall name).isText = true) (found : registry.lookup? name = some builtin) :
    builtin ∈ Builtin.texts := by
  obtain ⟨text, inside, isName⟩ := List.any_eq_true.mp isText
  exact Builtin.text_named text inside ((eq_of_beq isName).trans (Registry.lookup_named found).symm)

theorem Registry.lookup_selection (isSelection : (Op.syscall name).isSelection = true)
    (found : registry.lookup? name = some builtin) : builtin = .selectOutput := by
  obtain ⟨selection, inside, isName⟩ := List.any_eq_true.mp isSelection
  obtain rfl := List.mem_singleton.mp inside
  exact Builtin.selection_named ((eq_of_beq isName).trans (Registry.lookup_named found).symm)

theorem Op.runs_syscall (op : Op) {builtins : List Builtin} (runs : op.runsAny builtins = true) :
    ∃ name, op = .syscall name := by
  cases op with
  | syscall name => exact ⟨name, rfl⟩
  | _ => cases runs

end Names

namespace Run

variable {σ α β : Type} {machine : Machine σ}

section Items

def Pops (action : Run σ α) : Prop :=
  ∀ machine, Meets action machine (fun _ after => ∃ stack, after = { machine with stack })
    fun error after => error.isRecoverable = false ∧ ∃ stack, after = { machine with stack }

theorem pops_value (value : α) : Pops (pure value : Run σ α) := fun machine => ⟨machine.stack, rfl⟩

theorem pops_fail {fault : Fault} (fatal : fault.isRecoverable = false) : Pops (fail fault : Run σ α) :=
  fun machine => ⟨fatal, machine.stack, rfl⟩

theorem pops_seq {first : Run σ α} {next : α → Run σ β} (pops : Pops first) (rest : ∀ value, Pops (next value)) :
    Pops (first >>= next) := by
  intro machine
  refine meets_seq (meets_weaken (pops machine) ?_ fun _ _ failed => failed)
  rintro value _ ⟨stack, rfl⟩
  exact rest value _

theorem pops_get : Pops (get : Run σ (Machine σ)) := fun machine => ⟨machine.stack, rfl⟩

theorem pops_item : Pops (pop : Run σ StackItem) := by
  intro machine
  cases stack : machine.stack with
  | nil =>
    rw [Meets, pop, on_seq (on_get machine), stack]
    exact ⟨rfl, machine.stack, rfl⟩
  | cons item rest =>
    rw [Meets, on_pop stack]
    exact ⟨rest, rfl⟩

theorem pops_pop_value : Pops (popValue : Run σ Value) := by
  refine pops_seq pops_item fun item => ?_
  cases item with
  | value value => exact pops_value value
  | reference cell => exact pops_seq pops_get fun _ => pops_value _

theorem pops_text : Pops (popText : Run σ String) := by
  refine pops_seq pops_pop_value fun value => ?_
  cases value with
  | string text => exact pops_value text
  | null => exact pops_value ""
  | _ => exact pops_fail rfl

theorem pops_reference : Pops (popReference : Run σ Cell) := by
  refine pops_seq pops_item fun item => ?_
  cases item with
  | reference cell => exact pops_value cell
  | value value => exact pops_fail rfl

theorem pops_int : Pops (popInt : Run σ Int) := by
  refine pops_seq (pops_seq pops_pop_value fun value => ?_) fun _ => pops_value _
  cases value.toDouble? with
  | some number => exact pops_value number
  | none => exact pops_fail rfl

theorem pops_many {popOne : Run σ α} (pops : Pops popOne) (count : Nat) (items : List α) :
    Pops (popMany popOne count items) := by
  induction count generalizing items with
  | zero => exact pops_value items
  | succ count ih => exact pops_seq pops fun item => ih (item :: items)

theorem pops_values : Pops (popValues : Run σ (List Value)) := by
  refine pops_seq pops_int fun count => ?_
  split
  · exact pops_fail rfl
  · exact pops_many pops_pop_value _ _

def itemText : Builtin → Run σ String
  | .print => do return (← popValue).text
  | .printZone => do return Text.spaces (zoneWidth - (← get).currentColumn % zoneWidth : Nat)
  | .printNewline => return "\n"
  | .printUsing => do
    let values ← popValues
    let template ← popText
    match formatUsing template (values.map templateArgument) with
    | .ok text => return text
    | .error .unsuited => fail (.badFormat template)
    | .error .tooWide => fail .panic
  | .write => do return ",".intercalate ((← popValues).map writtenText) ++ "\n"
  | _ => return ""

theorem pops_item_text (builtin : Builtin) : Pops (itemText builtin : Run σ String) := by
  cases builtin with
  | print => exact pops_seq pops_pop_value fun _ => pops_value _
  | printZone => exact pops_seq pops_get fun _ => pops_value _
  | printUsing =>
    refine pops_seq pops_values fun values => pops_seq pops_text fun template => ?_
    cases formatUsing template (values.map templateArgument) with
    | ok text => exact pops_value text
    | error fault => cases fault <;> exact pops_fail rfl
  | write => exact pops_seq pops_values fun _ => pops_value _
  | _ => exact pops_value _

theorem text_builtin (devices : Devices σ) {builtin : Builtin} (isText : builtin ∈ Builtin.texts) :
    Run.builtin devices builtin = itemText builtin >>= print devices := by
  simp only [Builtin.texts, List.mem_cons, List.not_mem_nil, or_false] at isText
  obtain rfl | rfl | rfl | rfl | rfl := isText
  · simp [Run.builtin, printValue, itemText]
  · simp [Run.builtin, printZone, itemText]
  · simp [Run.builtin, itemText]
  · simp only [Run.builtin, printUsing, itemText, bind_assoc]
    congr 1
    funext values
    congr 1
    funext template
    cases formatUsing template (values.map templateArgument) with
    | ok text => simp
    | error fault => cases fault <;> rfl
  · simp [Run.builtin, writeValues, itemText]

end Items

end Run

/-- A text is printed to the console or to a file that is open for output, or it is refused. Nothing else changes. -/
def Machine.Prints {σ : Type} (devices : Devices σ) (destination : Option Int) (machine after : Machine σ)
    (text : String) : Prop :=
  match destination with
  | none =>
    after = { machine with
      world := devices.console.print text machine.world, column := columnAfter machine.column text }
  | some number =>
    (∃ file, machine.files.get? number = some file ∧ file.isInput = false ∧
        after = { machine with files := machine.files.set number (file.write text) }) ∨
      ((∀ file, machine.files.get? number = some file → file.isInput = true) ∧ after = { machine with status := 52 })

/-- Executing an operation prints one text to the destination, and nothing elsewhere, or fails and prints nothing. -/
def Machine.PrintsItem {σ : Type} (setup : Setup σ) (op : Op) (destination : Option Int) (machine : Machine σ) : Prop :=
  Run.Meets (Run.execute setup op) machine
    (fun _ after => ∃ builtin ∈ Builtin.texts, ∃ text stack,
      (Run.itemText builtin).on machine = (.ok text, { machine with stack }) ∧
        { machine with stack }.Prints setup.devices destination after text)
    fun _ after => ∃ stack, after = { machine with stack }

def Machine.chosen? {σ : Type} (machine : Machine σ) : Option (Option Int) :=
  (machine.stack.head?.bind machine.wholeOf?).map fun number => if number = 0 then none else some number

namespace Run

variable {σ : Type} (setup : Setup σ) (machine : Machine σ)

theorem on_print (devices : Devices σ) (text : String) :
    Meets (print devices text) machine (fun _ after => machine.Prints devices machine.output after text) fun error after =>
      after = machine ∧ ∃ number, error = .ofFault (.badFileNumber number) ∧ machine.output = some number ∧
        ∀ file, machine.files.get? number = some file → file.isInput = true := by
  rw [Meets, print, on_seq (on_get machine)]
  cases selected : machine.output with
  | none =>
    exact rfl
  | some number =>
    dsimp only
    rw [on_seq (on_get machine)]
    cases isOpen : machine.files.get? number with
    | none => exact ⟨rfl, number, rfl, rfl, fun _ found => by cases isOpen.symm.trans found⟩
    | some file =>
      dsimp only
      cases isInput : file.isInput with
      | true =>
        refine ⟨rfl, number, rfl, rfl, fun other found => ?_⟩
        rw [← Option.some.inj (isOpen.symm.trans found), isInput]
      | false => exact .inl ⟨file, isOpen, isInput, rfl⟩

theorem item_printed {op : Op} (isText : op.isText = true) : machine.PrintsItem setup op machine.output := by
  obtain ⟨name, rfl⟩ := op.runs_syscall isText
  rw [Machine.PrintsItem, Meets, execute, syscall]
  cases found : setup.registry.lookup? name with
  | none => exact ⟨machine.stack, rfl⟩
  | some builtin =>
    have inside := Registry.lookup_text isText found
    have noResult : builtin.signature.returns = none := by
      revert inside
      cases builtin <;> decide
    have pops := pops_item_text builtin machine
    dsimp only
    rw [on_catch, text_builtin setup.devices inside, on_bind]
    rw [Meets] at pops
    cases computed : (itemText builtin).on machine with
    | mk result between =>
      rw [computed] at pops
      cases result with
      | error error =>
        obtain ⟨fatal, stack, rfl⟩ := pops
        dsimp only
        rw [fatal]
        exact ⟨stack, rfl⟩
      | ok text =>
        obtain ⟨stack, rfl⟩ := pops
        have printed := on_print { machine with stack } setup.devices text
        rw [Meets] at printed
        dsimp only at printed ⊢
        cases ran : (print setup.devices text).on { machine with stack } with
        | mk result after =>
          rw [ran] at printed
          cases result with
          | ok _ => exact ⟨builtin, inside, text, stack, computed, printed⟩
          | error error =>
            -- A file that is not open for output is a recoverable error.
            obtain ⟨rfl, number, rfl, selected, refused⟩ := printed
            dsimp only
            rw [noResult]
            refine ⟨builtin, inside, text, stack, computed, ?_⟩
            rw [selected]
            exact .inr ⟨refused, rfl⟩

theorem on_select (number : Option Int) :
    Meets (selectOutput number) machine (fun _ after => after.output = number) fun error after =>
      after.output = number ∧ ∃ other, error = .ofFault (.badFileNumber other) := by
  rw [Meets]
  unfold selectOutput
  rw [on_seq (on_modify _ _)]
  cases number with
  | none => exact rfl
  | some number =>
    dsimp only
    rw [on_seq (on_get _)]
    dsimp only
    cases machine.files.get? number with
    | none => exact ⟨rfl, number, rfl⟩
    | some file =>
      dsimp only
      cases file.isInput with
      | true => exact ⟨rfl, number, rfl⟩
      | false => exact rfl

theorem selection_stays {op : Op} (isSelection : op.isSelection = true) :
    Meets (execute setup op) machine (fun _ after => machine.chosen? = some after.output) fun _ _ => True := by
  obtain ⟨name, rfl⟩ := op.runs_syscall isSelection
  rw [Meets, execute, syscall]
  cases found : setup.registry.lookup? name with
  | none => trivial
  | some builtin =>
    obtain rfl := Registry.lookup_selection isSelection found
    dsimp only
    rw [on_catch, builtin, selectFile, on_bind]
    cases stack : machine.stack with
    | nil =>
      have underflow : (popInt : Run σ Int).on machine = (.error (.ofFault .stackUnderflow), machine) := by
        rw [popInt, popNumber, popValue, pop, on_bind, on_bind, on_bind, on_seq (on_get machine), stack]
        rfl
      rw [underflow]
      trivial
    | cons item rest =>
      rw [on_pop_whole stack, Machine.chosen?, stack]
      cases whole : machine.wholeOf? item with
      | none => trivial
      | some number =>
        have isChosen : ((some item).bind machine.wholeOf?).map (fun number => if number = 0 then none else some number) =
            some (if number = 0 then none else some number) := by
          rw [Option.bind_some, whole, Option.map_some]
        rw [List.head?_cons, isChosen]
        dsimp only
        have selected := on_select { machine with stack := rest } (if number = 0 then none else some number)
        rw [Meets] at selected
        cases ran : (selectOutput (if number = 0 then none else some number)).on { machine with stack := rest } with
        | mk result after =>
          rw [ran] at selected
          cases result with
          | ok _ => exact congrArg some selected.symm
          | error error =>
            obtain ⟨isOutput, other, rfl⟩ := selected
            exact congrArg some isOutput.symm

end Run

end BasicLang
