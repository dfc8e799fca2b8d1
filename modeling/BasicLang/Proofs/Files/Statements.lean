import BasicLang.Proofs.Action.Convention
import BasicLang.Proofs.Files.Fields
import BasicLang.Proofs.Machine.Slices
import BasicLang.Proofs.Machine.Replies

set_option autoImplicit false

namespace BasicLang

namespace FileTable

theorem get_set (files : FileTable) (number : Int) (file : OpenFile) : (files.set number file).get? number = some file := by
  induction files with
  | nil => simp [set, get?]
  | cons entry rest ih =>
    rw [set]
    split
    · simp [get?, List.lookup]
    · split
      · next same => simp [get?, List.lookup, same]
      · next notBefore other =>
        have differs : (number == entry.1) = false := beq_false_of_ne other
        rw [get?, List.lookup_cons, differs]
        exact ih

theorem get_erase (files : FileTable) (number : Int) : (files.erase number).get? number = none := by
  induction files with
  | nil => rfl
  | cons entry rest ih =>
    obtain ⟨key, file⟩ := entry
    by_cases same : key = number
    · have dropped : erase ((key, file) :: rest) number = erase rest number :=
        List.filter_cons_of_neg (by simp [same])
      rw [dropped]
      exact ih
    · have kept : erase ((key, file) :: rest) number = (key, file) :: erase rest number :=
        List.filter_cons_of_pos (by simp [same])
      have differs : (number == key) = false := beq_false_of_ne (Ne.symm same)
      rw [kept, get?, List.lookup_cons, differs]
      exact ih

theorem get_set_other (files : FileTable) {number other : Int} (file : OpenFile) (different : other ≠ number) :
    (files.set number file).get? other = files.get? other := by
  have notFirst : (other == number) = false := beq_false_of_ne different
  induction files with
  | nil => rw [set, get?, List.lookup_cons, notFirst]; rfl
  | cons entry rest ih =>
    rw [set]
    split
    · rw [get?, List.lookup_cons, notFirst]
      rfl
    · split
      · next same =>
        rw [get?, get?, List.lookup_cons, List.lookup_cons, ← same, notFirst]
      · rw [get?, get?, List.lookup_cons, List.lookup_cons]
        split
        · rfl
        · exact ih

theorem get_erase_other (files : FileTable) {number other : Int} (different : other ≠ number) :
    (files.erase number).get? other = files.get? other := by
  induction files with
  | nil => rfl
  | cons entry rest ih =>
    obtain ⟨key, file⟩ := entry
    by_cases same : key = number
    · have dropped : erase ((key, file) :: rest) number = erase rest number :=
        List.filter_cons_of_neg (by simp [same])
      have notFirst : (other == key) = false := beq_false_of_ne (same ▸ different)
      rw [dropped, get?, get?, List.lookup_cons, notFirst]
      exact ih
    · have kept : erase ((key, file) :: rest) number = (key, file) :: erase rest number :=
        List.filter_cons_of_pos (by simp [same])
      rw [kept, get?, get?, List.lookup_cons, List.lookup_cons]
      split
      · rfl
      · exact ih

end FileTable

def Store.writeAll (store : Store) : List (Cell × Value) → Store
  | [] => store
  | (cell, value) :: rest => (store.write cell value).writeAll rest

theorem Value.scalar_of_writable {value : Value} (writable : value.isWritable = true) : value.isScalar = true := by
  cases value <;> first | rfl | cases writable

theorem Value.not_null_of_writable {value : Value} (writable : value.isWritable = true) : value.ty ≠ .null := by
  intro isNull
  cases value with
  | null => cases writable
  | _ => cases isNull

theorem Store.below_of_ty {store : Store} {cell : Cell} (present : store.ty cell ≠ .null) : cell < store.size := by
  by_contra above
  rw [Store.ty, content_of_ge (Nat.le_of_not_lt above)] at present
  exact present rfl

theorem Store.ty_write_scalar {store : Store} {cell : Cell} {value : Value} (scalar : value.isScalar = true)
    (typed : store.ty cell = value.ty) (other : Cell) : (store.write cell value).ty other = store.ty other := by
  rw [Store.write_scalar scalar]
  by_cases below : cell < store.size
  · rw [Store.ty, content_put _ _ _ _ below]
    split
    · next same => rw [same, typed]; rfl
    · rfl
  · have outside : store.put cell (.plain value) = store :=
      congrArg Store.mk (Array.setIfInBounds_eq_of_size_le (Nat.le_of_not_lt below))
    rw [outside]

theorem Store.ty_write {store : Store} {cell : Cell} {value : Value} (writable : value.isWritable = true)
    (typed : store.ty cell = value.ty) (other : Cell) : (store.write cell value).ty other = store.ty other :=
  Store.ty_write_scalar (Value.scalar_of_writable writable) typed other

theorem Store.write_all_append (store : Store) (early late : List (Cell × Value)) :
    store.writeAll (early ++ late) = (store.writeAll early).writeAll late := by
  induction early generalizing store with
  | nil => rfl
  | cons pair rest ih => exact ih _

theorem Store.ty_write_all {store : Store} {targets : List Cell} {values : List Value}
    (writable : ∀ value ∈ values, value.isWritable = true) (typed : targets.map store.ty = values.map Value.ty)
    (cell : Cell) : (store.writeAll (targets.zip values)).ty cell = store.ty cell := by
  induction targets generalizing store values with
  | nil => rfl
  | cons target targets ih =>
    obtain ⟨value, values, rfl, isValue, rest⟩ := List.map_eq_cons_iff.mp typed.symm
    obtain ⟨first, others⟩ := List.forall_mem_cons.mp writable
    have same := Store.ty_write first isValue.symm
    have stillTyped : targets.map (store.write target value).ty = values.map Value.ty :=
      (List.map_congr_left fun cell _ => same cell).trans rest.symm
    exact (ih others stillTyped).trans (same cell)

namespace Run

variable {σ : Type} (setup : Setup σ)

def pushCount (count : Nat) : Run σ Unit := pushInteger (min count 32767 : Nat)

def openStatement (path : String) (mode : FileMode) (number : Int) : Run σ Unit := do
  pushText path
  pushInteger mode.code
  pushInteger number
  syscall setup Builtin.openFile.name
  service setup

def closeStatement (number : Int) : Run σ Unit := do
  pushInteger number
  pushCount 1
  syscall setup Builtin.closeFile.name
  service setup

def writeStatement (number : Int) (values : List Value) : Run σ Unit := do
  pushInteger number
  syscall setup Builtin.selectOutput.name
  values.forM push
  pushCount values.length
  syscall setup Builtin.write.name
  pushInteger 0
  syscall setup Builtin.selectOutput.name

def inputStatement (number : Int) (targets : List Cell) : Run σ Unit := do
  pushInteger number
  targets.forM pushReference
  pushCount targets.length
  syscall setup Builtin.fileInput.name

variable {setup} {machine : Machine σ}

section Stack

variable {stack : List StackItem}

theorem int_of_short {number : Int} (least : -32768 ≤ number) (most : number ≤ 32767) :
    (Value.integer (Int16.ofInt number)).toInt? = some number := by
  have same : (Int16.ofInt number).toInt = number := Int16.toInt_ofInt_of_le (by simpa using least) (by simp; omega)
  have whole := whole_of_short (Int16.ofInt number)
  rw [same] at whole
  change some (Double.toInt (Double.roundToEven (Double.ofInt (Int16.ofInt number).toInt))) = _
  rw [same, whole]

theorem on_push_integer (number : Int) : (pushInteger number : Run σ Unit).on machine =
    (.ok (), { machine with stack := .value (.integer (Int16.ofInt number)) :: machine.stack }) := rfl

theorem on_push_all (values : List Value) : (values.forM push : Run σ Unit).on machine =
    (.ok (), { machine with stack := values.reverse.map .value ++ machine.stack }) := by
  induction values generalizing machine with
  | nil => rfl
  | cons value rest ih =>
    change (push value >>= fun _ => rest.forM push).on machine = _
    rw [on_seq (on_push value machine), ih, List.reverse_cons, List.map_append, List.append_assoc]
    rfl

theorem on_push_references (cells : List Cell) : (cells.forM pushReference : Run σ Unit).on machine =
    (.ok (), { machine with stack := cells.reverse.map .reference ++ machine.stack }) := by
  induction cells generalizing machine with
  | nil => rfl
  | cons cell rest ih =>
    change (pushReference cell >>= fun _ => rest.forM pushReference).on machine = _
    rw [on_seq (on_push_reference cell machine), ih, List.reverse_cons, List.map_append, List.append_assoc]
    rfl

theorem on_pop_many {α : Type} {popOne : Run σ α} {item : α → StackItem} (items behind : List α)
    (pops : ∀ (value : α) (rest : List StackItem) (machine : Machine σ), machine.stack = item value :: rest →
      popOne.on machine = (.ok value, { machine with stack := rest }))
    (top : machine.stack = items.map item ++ stack) :
    (popMany popOne items.length behind).on machine = (.ok (items.reverse ++ behind), { machine with stack }) := by
  induction items generalizing machine behind with
  | nil =>
    rw [List.map_nil, List.nil_append] at top
    subst top
    rfl
  | cons value rest ih =>
    rw [List.map_cons, List.cons_append] at top
    rw [List.length_cons, popMany, on_seq (pops value _ machine top), ih (value :: behind) rfl, List.reverse_cons,
      List.append_assoc]
    rfl

theorem int_of_count {count : Nat} (few : count ≤ 32767) :
    (Value.integer (Int16.ofInt (min count 32767 : Nat))).toInt? = some (count : Int) := by
  rw [min_eq_left few]
  exact int_of_short (by omega) (by omega)

theorem on_pop_pushed_values {lost kept : List Value} (counted : min (lost ++ kept).length 32767 = kept.length)
    (top : machine.stack = .value (.integer (Int16.ofInt (min (lost ++ kept).length 32767 : Nat))) ::
      ((lost ++ kept).reverse.map .value ++ stack)) :
    (popValues : Run σ (List Value)).on machine =
      (.ok kept, { machine with stack := lost.reverse.map .value ++ stack }) := by
  have few : kept.length ≤ 32767 := by omega
  have isCount := int_of_count few
  rw [min_eq_left few] at isCount
  rw [counted, List.reverse_append, List.map_append, List.append_assoc] at top
  have popped : (popMany popValue kept.reverse.length []).on
      { machine with stack := kept.reverse.map .value ++ (lost.reverse.map .value ++ stack) } =
      (.ok _, { machine with stack := lost.reverse.map .value ++ stack }) :=
    on_pop_many kept.reverse [] (fun _ _ _ => on_pop_value) rfl
  rw [List.length_reverse, List.reverse_reverse, List.append_nil] at popped
  rw [popValues, on_seq (on_pop_int isCount top), if_neg (by omega)]
  exact popped

theorem on_pop_pushed_targets {targets : List Cell} (few : targets.length ≤ 32767)
    (top : machine.stack =
      .value (.integer (Int16.ofInt (min targets.length 32767 : Nat))) :: (targets.reverse.map .reference ++ stack)) :
    (popTargets : Run σ (List Cell)).on machine = (.ok targets, { machine with stack }) := by
  have popped : (popMany popReference targets.reverse.length []).on
      { machine with stack := targets.reverse.map .reference ++ stack } = (.ok _, { machine with stack }) :=
    on_pop_many targets.reverse [] (fun _ _ _ => on_pop_reference) rfl
  rw [List.length_reverse, List.reverse_reverse, List.append_nil] at popped
  rw [popTargets, on_seq (on_pop_int (int_of_count few) top)]
  exact popped

theorem on_pop_file_number {number : Int} (least : 1 ≤ number) (most : number ≤ 255)
    (top : machine.stack = .value (.integer (Int16.ofInt number)) :: stack) :
    (popFileNumber : Run σ Int).on machine = (.ok number, { machine with stack }) := by
  rw [popFileNumber, on_seq (on_pop_int (int_of_short (by omega) (by omega)) top), if_neg (by omega)]
  rfl

end Stack

section Calls

variable {builtin : Builtin} {after : Machine σ}

theorem on_syscall (found : setup.registry.lookup? builtin.name = some builtin)
    (ran : (Run.builtin setup.devices builtin).on machine = (.ok (), after)) :
    (syscall setup builtin.name).on machine = (.ok (), after) := by
  rw [syscall, found]
  dsimp only
  rw [on_catch, ran]

theorem on_syscall_refused {error : RuntimeError} (found : setup.registry.lookup? builtin.name = some builtin)
    (noResult : builtin.signature.returns = none) (recoverable : error.isRecoverable = true)
    (ran : (Run.builtin setup.devices builtin).on machine = (.error error, after)) :
    (syscall setup builtin.name).on machine = (.ok (), { after with status := error.code }) := by
  rw [syscall, found]
  dsimp only
  rw [on_catch, ran]
  dsimp only
  rw [recoverable, noResult]
  rfl

theorem on_service_nothing (waitsNot : machine.pending = none) : (service setup).on machine = (.ok (), machine) := by
  rw [service, on_seq (on_get machine), waitsNot]
  rfl

end Calls

section Output

variable {path : String} {number : Int} {file : OpenFile}

theorem on_select_console (found : setup.registry.lookup? Builtin.selectOutput.name = some .selectOutput) :
    (do pushInteger 0; syscall setup Builtin.selectOutput.name : Run σ Unit).on machine =
      (.ok (), { machine with output := none }) := by
  rw [on_seq (on_push_integer 0)]
  refine on_syscall found ?_
  rw [Run.builtin, selectFile, on_seq (on_pop_int (int_of_short (by decide) (by decide)) rfl)]
  rfl

theorem on_select_file (found : setup.registry.lookup? Builtin.selectOutput.name = some .selectOutput)
    (least : 1 ≤ number) (most : number ≤ 255) (isOpen : machine.files.get? number = some file)
    (isOutput : file.isInput = false) :
    (do pushInteger number; syscall setup Builtin.selectOutput.name : Run σ Unit).on machine =
      (.ok (), { machine with output := some number }) := by
  rw [on_seq (on_push_integer number)]
  refine on_syscall found ?_
  rw [Run.builtin, selectFile, on_seq (on_pop_int (int_of_short (by omega) (by omega)) rfl), if_neg (by omega),
    selectOutput, on_seq (on_modify _ _)]
  dsimp only
  rw [on_seq (on_get _)]
  dsimp only
  rw [isOpen]
  dsimp only
  rw [isOutput]
  rfl

theorem on_print_to_file {text : String} (selected : machine.output = some number)
    (isOpen : machine.files.get? number = some file) (isOutput : file.isInput = false) :
    (print setup.devices text).on machine =
      (.ok (), { machine with files := machine.files.set number (file.write text) }) := by
  rw [print, on_seq (on_get machine)]
  conv_lhs => rw [selected]
  dsimp only
  rw [on_seq (on_get machine), isOpen]
  dsimp only
  rw [isOutput]
  rfl

theorem on_write_statement {lost kept : List Value} (standard : setup.registry = .standard) (least : 1 ≤ number)
    (most : number ≤ 255) (counted : min (lost ++ kept).length 32767 = kept.length)
    (isOpen : machine.files.get? number = some file) (isOutput : file.isInput = false) :
    (writeStatement setup number (lost ++ kept)).on machine =
      (.ok (), { machine with
        stack := lost.reverse.map .value ++ machine.stack
        files := machine.files.set number (file.write (",".intercalate (kept.map writtenText) ++ "\n"))
        output := none }) := by
  have selects := Setup.standard_lookup standard .selectOutput
  have writes := Setup.standard_lookup standard .write
  have assembled : (writeStatement setup number (lost ++ kept) : Run σ Unit) = (do
      (do pushInteger number; syscall setup Builtin.selectOutput.name)
      (lost ++ kept).forM push
      pushCount (lost ++ kept).length
      syscall setup Builtin.write.name
      (do pushInteger 0; syscall setup Builtin.selectOutput.name)) := by
    simp only [writeStatement, bind_assoc]
  rw [assembled, on_seq (on_select_file selects least most isOpen isOutput), on_seq (on_push_all (lost ++ kept)), pushCount,
    on_seq (on_push_integer _)]
  have written : (syscall setup Builtin.write.name).on { machine with
      output := some number
      stack := .value (.integer (Int16.ofInt (min (lost ++ kept).length 32767 : Nat))) ::
        ((lost ++ kept).reverse.map .value ++ machine.stack) } =
      (.ok (), { machine with
        stack := lost.reverse.map .value ++ machine.stack
        files := machine.files.set number (file.write (",".intercalate (kept.map writtenText) ++ "\n"))
        output := some number }) := by
    refine on_syscall writes ?_
    rw [Run.builtin, writeValues, on_seq (on_pop_pushed_values counted rfl)]
    exact on_print_to_file rfl isOpen isOutput
  rw [on_seq written]
  exact on_select_console selects

end Output

section Devices

variable {files : FileStore σ} {path : String} {number : Int} {file : OpenFile}

theorem on_open_file {mode : FileMode} (least : 1 ≤ number) (most : number ≤ 255)
    (closed : machine.files.get? number = none) :
    (openFile : Run σ Unit).on { machine with
      stack := .value (.integer (Int16.ofInt number)) :: .value (.integer (Int16.ofInt mode.code)) ::
        .value (.string path) :: machine.stack } =
      (match mode with
        | .input => suspend (.loadFile path) (.openInput number path)
        | _ => setFile number (.output path mode) : Run σ Unit).on machine := by
  have isCode : (Value.integer (Int16.ofInt mode.code)).toInt? = some (mode.code : Int) := by
    cases mode <;> exact int_of_short (by decide) (by decide)
  have text : (popText : Run σ String).on { machine with stack := .value (.string path) :: machine.stack } =
      (.ok path, machine) := rfl
  rw [openFile, on_seq (on_pop_file_number least most rfl), on_seq (on_pop_int isCode rfl), on_seq text]
  have isMode : FileMode.ofCode? (mode.code : Int) = some mode := by cases mode <;> rfl
  rw [isMode]
  dsimp only
  rw [on_seq (on_get machine), closed]
  rfl

theorem on_request {request : Request} {completion : Completion} {reply : Except DeviceError Reply} {world : σ}
    (last : Machine σ) (waitsNot : machine.pending = none)
    (performs : setup.devices.perform request machine.world = (reply, world))
    (answers : ∀ phase notices, (answer completion reply).on { machine with world, phase, notices, pending := none } =
      (.ok (), { last with phase, notices })) :
    ∃ waiting phase notices, (suspend request completion).on machine = (.ok (), waiting) ∧
      (service setup).on waiting = (.ok (), { last with phase, notices }) := by
  have suspended : (suspend request completion : Run σ Unit).on machine =
      (.ok (), { machine with pending := some { request, completion } }.setPhase .suspended) := by
    rw [suspend, on_seq (on_get machine), waitsNot]
    rfl
  obtain ⟨notices, waiting⟩ := { machine with pending := some { request, completion } }.set_phase_only .suspended
  have serviced : (service setup).on { machine with
      pending := some { request, completion }, phase := .suspended, notices } =
      (resume reply).on { machine with
        world, pending := some { request, completion }, phase := .suspended, notices } := by
    rw [← told_service, toldService]
    dsimp only
    rw [performs]
  obtain ⟨told, resumed⟩ := { last with phase := .suspended, notices }.set_phase_only .running
  refine ⟨_, .running, told, suspended, ?_⟩
  rw [waiting, serviced, on_resume_waiting rfl, answers]
  exact congrArg (Prod.mk _) resumed

theorem on_open_for_output (standard : setup.registry = .standard) (least : 1 ≤ number) (most : number ≤ 255)
    (closed : machine.files.get? number = none) (waitsNot : machine.pending = none) :
    (openStatement setup path .output number).on machine =
      (.ok (), { machine with files := machine.files.set number (.output path .output) }) := by
  have found := Setup.standard_lookup standard .openFile
  have opened : (builtin setup.devices .openFile).on { machine with
      stack := .value (.integer (Int16.ofInt number)) :: .value (.integer (Int16.ofInt FileMode.output.code)) ::
        .value (.string path) :: machine.stack } =
      (.ok (), { machine with files := machine.files.set number (.output path .output) }) :=
    on_open_file least most closed
  rw [openStatement, pushText, on_seq (on_push _ _), on_seq (on_push_integer _), on_seq (on_push_integer _)]
  refine (on_seq (on_syscall found opened)).trans ?_
  exact on_service_nothing waitsNot

theorem on_open_for_input {contents : String} {world : σ} (standard : setup.registry = .standard)
    (installed : setup.devices.files = some files) (least : 1 ≤ number) (most : number ≤ 255)
    (closed : machine.files.get? number = none) (waitsNot : machine.pending = none)
    (reads : files.read path machine.world = (.ok contents, world)) :
    ∃ phase notices, (openStatement setup path .input number).on machine = (.ok (), { machine with
      world, phase, notices, pending := none, status := 0
      files := machine.files.set number (.input path contents) }) := by
  have found := Setup.standard_lookup standard .openFile
  have performs : setup.devices.perform (.loadFile path) machine.world = (.ok (.text contents), world) := by
    rw [Devices.perform, installed, Devices.require, Devices.mapReply, reads]
    rfl
  have asked : ∃ waiting phase notices,
      (suspend (.loadFile path) (.openInput number path)).on machine = (.ok (), waiting) ∧
        (service setup).on waiting = (.ok (), { machine with
          world, phase, notices, pending := none, status := 0
          files := machine.files.set number (.input path contents) }) :=
    on_request { machine with
      world, pending := none, status := 0
      files := machine.files.set number (.input path contents) } waitsNot performs fun _ _ => rfl
  obtain ⟨waiting, phase, notices, suspended, serviced⟩ := asked
  have opened : (builtin setup.devices .openFile).on { machine with
      stack := .value (.integer (Int16.ofInt number)) :: .value (.integer (Int16.ofInt FileMode.input.code)) ::
        .value (.string path) :: machine.stack } = (.ok (), waiting) :=
    (on_open_file least most closed).trans suspended
  rw [openStatement, pushText, on_seq (on_push _ _), on_seq (on_push_integer _), on_seq (on_push_integer _)]
  exact ⟨phase, notices, (on_seq (on_syscall found opened)).trans serviced⟩

theorem on_close_statement {world : σ} (standard : setup.registry = .standard)
    (installed : setup.devices.files = some files) (least : 1 ≤ number) (most : number ≤ 255)
    (isOpen : machine.files.get? number = some file) (isOutput : file.mode = .output) (waitsNot : machine.pending = none)
    (writes : files.write file.path file.text false machine.world = (.ok (), world)) :
    ∃ phase notices, (closeStatement setup number).on machine = (.ok (), { machine with
      world, phase, notices, pending := none, status := 0, files := machine.files.erase number }) := by
  have found := Setup.standard_lookup standard .closeFile
  have flush : file.flush? = some ⟨file.path, file.text, false⟩ := by
    rw [OpenFile.flush?, OpenFile.isInput, isOutput]
    rfl
  have performs : setup.devices.perform (.saveFiles [⟨file.path, file.text, false⟩]) machine.world =
      (.ok .done, world) := by
    rw [Devices.perform, installed, Devices.require, Devices.mapReply, Devices.writeAll]
    dsimp only
    rw [writes]
    rfl
  have asked : ∃ waiting phase notices,
      (suspend (.saveFiles [⟨file.path, file.text, false⟩]) .ignore).on
          { machine with files := machine.files.erase number } = (.ok (), waiting) ∧
        (service setup).on waiting = (.ok (), { machine with
          world, phase, notices, pending := none, status := 0, files := machine.files.erase number }) :=
    on_request { machine with world, pending := none, status := 0, files := machine.files.erase number }
      waitsNot performs fun _ _ => rfl
  obtain ⟨waiting, phase, notices, suspended, serviced⟩ := asked
  have closes : (builtin setup.devices .closeFile).on { machine with
      stack := .value (.integer (Int16.ofInt (min 1 32767 : Nat))) :: .value (.integer (Int16.ofInt number)) ::
        machine.stack } = (.ok (), waiting) := by
    have counted : (popArgumentCount 1 : Run σ Nat).on { machine with
        stack := .value (.integer (Int16.ofInt (min 1 32767 : Nat))) :: .value (.integer (Int16.ofInt number)) ::
          machine.stack } = (.ok 1, { machine with stack := .value (.integer (Int16.ofInt number)) :: machine.stack }) := by
      rw [popArgumentCount, on_seq (on_pop_int (int_of_count (by decide)) rfl)]
      rfl
    rw [builtin, closeFile, on_seq counted, if_pos rfl, on_seq (on_pop_file_number least most rfl), on_seq (on_get _)]
    dsimp only
    rw [isOpen]
    dsimp only
    rw [on_seq (on_modify _ _), flush]
    exact suspended
  rw [closeStatement, pushCount, on_seq (on_push_integer _), on_seq (on_push_integer _)]
  exact ⟨phase, notices, (on_seq (on_syscall found closes)).trans serviced⟩

end Devices

section Input

variable {number : Int} {file : OpenFile}

theorem on_input_file (isOpen : machine.files.get? number = some file) (isInput : file.isInput = true) :
    (inputFile number).on machine = (.ok file, machine) := by
  rw [inputFile, on_seq (on_get machine), isOpen]
  dsimp only
  rw [if_pos isInput]
  rfl

theorem on_read_fields {targets : List Cell} {values more : List Value} (isOpen : machine.files.get? number = some file)
    (isInput : file.isInput = true) (written : Written (values ++ more) file.rest)
    (same : targets.length = values.length) :
    ∃ files last, (readFields number targets).on machine =
        (.ok (targets.zipWith (fun target value => fieldValue machine.store target (OpenFile.fieldText value)) values),
          { machine with files }) ∧
      FileTable.get? files number = some last ∧ last.isInput = true ∧ Written more last.rest := by
  induction targets generalizing values machine file with
  | nil =>
    obtain rfl := List.length_eq_zero_iff.mp same.symm
    exact ⟨machine.files, file, rfl, isOpen, isInput, written⟩
  | cons target targets ih =>
    cases values with
    | nil => cases same
    | cons value values =>
      have lengths : targets.length = values.length := Nat.succ.inj same
      rw [List.cons_append] at written
      generalize text : file.rest = chars at written
      cases written with
      | @value _ _ separator after writable separates rest =>
        have read := OpenFile.read_written writable separates text
        have behind : (file.advance after).rest = after :=
          OpenFile.rest_advance (text ▸ ⟨(writtenText value).toList ++ [separator], by simp⟩)
        have stillWritten : Written (values ++ more) (file.advance after).rest := by
          rw [behind]
          exact rest
        obtain ⟨files, last, others, found, lastInput, left⟩ :=
          @ih { machine with files := machine.files.set number (file.advance after) } (file.advance after) values
            (FileTable.get_set machine.files number (file.advance after)) isInput stillWritten lengths
        refine ⟨files, last, ?_, found, lastInput, left⟩
        rw [readFields, on_seq (on_input_file isOpen isInput), read]
        dsimp only
        rw [setFile, on_seq (on_modify _ _), on_seq (on_get _), on_seq others]
        rfl

theorem on_assign_all {store : Store} {targets : List Cell} {values : List Value}
    (writable : ∀ value ∈ values, value.isWritable = true)
    (typed : targets.map store.ty = values.map Value.ty) (same : ∀ cell, machine.store.ty cell = store.ty cell) :
    (assignAll (targets.zip
        (targets.zipWith (fun target value => fieldValue store target (OpenFile.fieldText value)) values))).on machine =
      (.ok (), { machine with store := machine.store.writeAll (targets.zip values) }) := by
  induction targets generalizing values machine with
  | nil =>
    obtain rfl := List.map_eq_nil_iff.mp typed.symm
    rfl
  | cons target targets ih =>
    obtain ⟨value, values, rfl, isValue, rest⟩ := List.map_eq_cons_iff.mp typed.symm
    have isType : store.ty target = value.ty := isValue.symm
    have first := writable value List.mem_cons_self
    have notNull := Value.not_null_of_writable first
    have assigned : (assign target (fieldValue store target (OpenFile.fieldText value))).on machine =
        (.ok (), { machine with store := machine.store.write target value }) := by
      rw [assign, on_seq (on_get machine), same, isType, if_neg notNull, convert_field first isType]
      rfl
    rw [List.zipWith_cons_cons, List.zip_cons_cons, assignAll, on_seq assigned]
    exact ih (fun other inside => writable other (List.mem_cons_of_mem _ inside)) rest.symm fun cell =>
      (Store.ty_write first ((same target).trans isType) cell).trans (same cell)

theorem on_read_past_end {target : Cell} {targets : List Cell} (isOpen : machine.files.get? number = some file)
    (isInput : file.isInput = true) (atEnd : file.rest = []) :
    ∃ files, (readFields number (target :: targets)).on machine =
      (.error (.ofFault (.device .endOfInput)), { machine with files }) := by
  have read : file.readField = (none, file.advance []) := by
    rw [OpenFile.read_field_eq, atEnd]
    rfl
  refine ⟨machine.files.set number (file.advance []), ?_⟩
  rw [readFields, on_seq (on_input_file isOpen isInput), read]
  rfl

theorem on_input_statement {targets : List Cell} {values more : List Value} (standard : setup.registry = .standard)
    (least : 1 ≤ number) (most : number ≤ 255) (few : targets.length ≤ 32767)
    (isOpen : machine.files.get? number = some file) (isInput : file.isInput = true)
    (written : Written (values ++ more) file.rest)
    (typed : targets.map machine.store.ty = values.map Value.ty) :
    ∃ files last, (inputStatement setup number targets).on machine =
        (.ok (), { machine with files, store := machine.store.writeAll (targets.zip values) }) ∧
      FileTable.get? files number = some last ∧ last.isInput = true ∧ Written more last.rest := by
  have found := Setup.standard_lookup standard .fileInput
  have writable : ∀ value ∈ values, value.isWritable = true :=
    fun value inside => written.writable value (List.mem_append_left _ inside)
  obtain ⟨files, last, read, stillOpen, lastInput, left⟩ := on_read_fields isOpen isInput written
    (by simpa using congrArg List.length typed)
  refine ⟨files, last, ?_, stillOpen, lastInput, left⟩
  have reads : (builtin setup.devices .fileInput).on { machine with
      stack := .value (.integer (Int16.ofInt (min targets.length 32767 : Nat))) ::
        (targets.reverse.map .reference ++ .value (.integer (Int16.ofInt number)) :: machine.stack) } =
      (.ok (), { machine with files, store := machine.store.writeAll (targets.zip values) }) := by
    rw [builtin, fileInput, on_seq (on_pop_pushed_targets few rfl), on_seq (on_pop_file_number least most rfl),
      on_seq (on_input_file isOpen isInput), on_seq read]
    exact on_assign_all writable typed fun _ => rfl
  rw [inputStatement, on_seq (on_push_integer _), on_seq (on_push_references _), pushCount, on_seq (on_push_integer _)]
  exact on_syscall found reads

theorem on_input_past_end {targets : List Cell} (standard : setup.registry = .standard) (least : 1 ≤ number)
    (most : number ≤ 255) (asks : targets ≠ []) (few : targets.length ≤ 32767)
    (isOpen : machine.files.get? number = some file) (isInput : file.isInput = true) (atEnd : file.rest = []) :
    ∃ files, (inputStatement setup number targets).on machine = (.ok (), { machine with files, status := 62 }) := by
  have found := Setup.standard_lookup standard .fileInput
  obtain ⟨files, read⟩ : ∃ files, (readFields number targets).on machine =
      (.error (.ofFault (.device .endOfInput)), { machine with files }) := by
    cases targets with
    | nil => exact absurd rfl asks
    | cons target targets => exact on_read_past_end isOpen isInput atEnd
  refine ⟨files, ?_⟩
  have refused : (builtin setup.devices .fileInput).on { machine with
      stack := .value (.integer (Int16.ofInt (min targets.length 32767 : Nat))) ::
        (targets.reverse.map .reference ++ .value (.integer (Int16.ofInt number)) :: machine.stack) } =
      (.error (.ofFault (.device .endOfInput)), { machine with files }) := by
    rw [builtin, fileInput, on_seq (on_pop_pushed_targets few rfl), on_seq (on_pop_file_number least most rfl),
      on_seq (on_input_file isOpen isInput), on_stop read]
  rw [inputStatement, on_seq (on_push_integer _), on_seq (on_push_references _), pushCount, on_seq (on_push_integer _)]
  exact on_syscall_refused found rfl rfl refused

end Input

end Run

end BasicLang
