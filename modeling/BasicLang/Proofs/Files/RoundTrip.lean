import BasicLang.Proofs.Files.Statements
import BasicLang.Proofs.Machine.Routing

set_option autoImplicit false

namespace BasicLang

def FileStore.Keeps {σ : Type} (files : FileStore σ) (path : String) : Prop :=
  ∀ contents world, ∃ between after,
    files.write path contents false world = (.ok (), between) ∧ files.read path between = (.ok contents, after)

theorem Bench.file_store_keeps {path : String} (noFault : Bench.fault? path = none) : Bench.fileStore.Keeps path := by
  intro contents bench
  have added : "" ++ contents = contents := String.empty_append
  refine ⟨{ bench with files := bench.files.set path contents }, { bench with files := bench.files.set path contents },
    ?_, ?_⟩
  · simp only [Bench.fileStore, Bench.guarded, noFault, if_neg Bool.false_ne_true, added]
  · simp only [Bench.fileStore, Bench.guarded, noFault, Table.get_set_self]

namespace Store

variable {store : Store} {targets : List Cell} {values : List Value}

theorem below_of_typed {cell : Cell} {value : Value} (writable : value.isWritable = true)
    (typed : store.ty cell = value.ty) : cell < store.size :=
  below_of_ty (typed ▸ Value.not_null_of_writable writable)

theorem content_write_all_other {cell : Cell} (writable : ∀ value ∈ values, value.isWritable = true)
    (typed : targets.map store.ty = values.map Value.ty) (other : cell ∉ targets) :
    (store.writeAll (targets.zip values)).content cell = store.content cell := by
  induction targets generalizing store values with
  | nil => rfl
  | cons target targets ih =>
    obtain ⟨value, values, rfl, isValue, rest⟩ := List.map_eq_cons_iff.mp typed.symm
    obtain ⟨first, others⟩ := List.forall_mem_cons.mp writable
    obtain ⟨different, further⟩ := not_or.mp fun inside => other (List.mem_cons.mpr inside)
    have stillTyped : targets.map (store.write target value).ty = values.map Value.ty :=
      (List.map_congr_left fun cell _ => ty_write first isValue.symm cell).trans rest.symm
    refine (ih others stillTyped further).trans ?_
    rw [write_scalar (Value.scalar_of_writable first), content_put _ _ _ _ (below_of_typed first isValue.symm),
      if_neg different]

theorem read_write_all (writable : ∀ value ∈ values, value.isWritable = true)
    (typed : targets.map store.ty = values.map Value.ty) (different : targets.Nodup) :
    targets.map (store.writeAll (targets.zip values)).read = values := by
  induction targets generalizing store values with
  | nil => exact (List.map_eq_nil_iff.mp typed.symm).symm
  | cons target targets ih =>
    obtain ⟨value, values, rfl, isValue, rest⟩ := List.map_eq_cons_iff.mp typed.symm
    obtain ⟨first, others⟩ := List.forall_mem_cons.mp writable
    obtain ⟨fresh, distinct⟩ := List.nodup_cons.mp different
    have stillTyped : targets.map (store.write target value).ty = values.map Value.ty :=
      (List.map_congr_left fun cell _ => ty_write first isValue.symm cell).trans rest.symm
    have put : (store.write target value).content target = .plain value := by
      rw [write_scalar (Value.scalar_of_writable first), content_put _ _ _ _ (below_of_typed first isValue.symm),
        if_pos rfl]
    have kept := (content_write_all_other others stillTyped fresh).trans put
    have held : (store.writeAll ((target :: targets).zip (value :: values))).read target = value := by
      rw [read_eq]
      exact congrArg (Store.valueOf _ target) kept
    rw [List.map_cons, held]
    exact congrArg (value :: ·) (ih others stillTyped distinct)

end Store

namespace Run

variable {σ : Type} {setup : Setup σ} {machine : Machine σ} {number : Int}

theorem on_write_statements {file : OpenFile} {values : List Value} {batches : List (List Value)}
    (standard : setup.registry = .standard) (least : 1 ≤ number) (most : number ≤ 255)
    (few : ∀ batch ∈ batches, batch ≠ [] ∧ batch.length ≤ 32767)
    (writable : ∀ batch ∈ batches, ∀ value ∈ batch, value.isWritable = true)
    (isOpen : machine.files.get? number = some file) (isOutput : file.mode = .output)
    (written : Written values file.text.toList) :
    ∃ files output last, (batches.forM (writeStatement setup number)).on machine =
        (.ok (), { machine with files, output }) ∧
      FileTable.get? files number = some last ∧ last.mode = .output ∧ last.path = file.path ∧
        Written (values ++ batches.flatten) last.text.toList ∧
        ∀ other, other ≠ number → FileTable.get? files other = machine.files.get? other := by
  induction batches generalizing machine file values with
  | nil => exact ⟨machine.files, machine.output, file, rfl, isOpen, isOutput, rfl, by simpa using written,
    fun _ _ => rfl⟩
  | cons batch batches ih =>
    have here := few batch List.mem_cons_self
    have counted : min ([] ++ batch).length 32767 = batch.length := min_eq_left here.2
    have wrote : (writeStatement setup number ([] ++ batch)).on machine = (.ok (), { machine with
        files := machine.files.set number (file.write (",".intercalate (batch.map writtenText) ++ "\n"))
        output := none }) :=
      on_write_statement standard least most counted isOpen (by rw [OpenFile.isInput, isOutput]; rfl)
    have line := written.append (written_line here.1 (writable batch List.mem_cons_self))
    rw [← String.toList_append] at line
    obtain ⟨files, output, last, others, found, lastOutput, lastPath, lastWritten, same⟩ :=
      @ih { machine with
        files := machine.files.set number (file.write (",".intercalate (batch.map writtenText) ++ "\n"))
        output := none } (file.write (",".intercalate (batch.map writtenText) ++ "\n")) (values ++ batch)
        (fun other inside => few other (List.mem_cons_of_mem _ inside))
        (fun other inside => writable other (List.mem_cons_of_mem _ inside))
        (FileTable.get_set _ _ _) isOutput line
    refine ⟨files, output, last, (on_seq wrote).trans others, found, lastOutput, lastPath, ?_, ?_⟩
    · rwa [List.append_assoc] at lastWritten
    · exact fun other different => (same other different).trans (FileTable.get_set_other _ _ different)

theorem on_input_statements {file : OpenFile} {values more : List Value} {groups : List (List Cell)}
    (standard : setup.registry = .standard) (least : 1 ≤ number) (most : number ≤ 255)
    (few : ∀ group ∈ groups, group.length ≤ 32767) (isOpen : machine.files.get? number = some file)
    (isInput : file.isInput = true) (written : Written (values ++ more) file.rest)
    (typed : groups.flatten.map machine.store.ty = values.map Value.ty) :
    ∃ files last, (groups.forM (inputStatement setup number)).on machine =
        (.ok (), { machine with files, store := machine.store.writeAll (groups.flatten.zip values) }) ∧
      FileTable.get? files number = some last ∧ last.isInput = true ∧ Written more last.rest := by
  induction groups generalizing machine file values with
  | nil =>
    obtain rfl := List.map_eq_nil_iff.mp typed.symm
    exact ⟨machine.files, file, rfl, isOpen, isInput, written⟩
  | cons group groups ih =>
    rw [List.flatten_cons, List.map_append] at typed
    obtain ⟨early, late, rfl, earlyTyped, lateTyped⟩ := List.map_eq_append_iff.mp typed.symm
    have writable : ∀ value ∈ early, value.isWritable = true :=
      fun value inside => written.writable value (List.mem_append_left _ (List.mem_append_left _ inside))
    rw [List.append_assoc] at written
    obtain ⟨files, between, read, stillOpen, stillInput, left⟩ :=
      on_input_statement standard least most (few group List.mem_cons_self) isOpen isInput written earlyTyped.symm
    have stillTyped : groups.flatten.map (machine.store.writeAll (group.zip early)).ty = late.map Value.ty :=
      (List.map_congr_left fun cell _ => Store.ty_write_all writable earlyTyped.symm cell).trans lateTyped.symm
    obtain ⟨lastFiles, last, others, found, lastInput, rest⟩ :=
      @ih { machine with files, store := machine.store.writeAll (group.zip early) } between late
        (fun other inside => few other (List.mem_cons_of_mem _ inside)) stillOpen stillInput left stillTyped
    refine ⟨lastFiles, last, ?_, found, lastInput, rest⟩
    have lengths : group.length = early.length := by simpa using congrArg List.length earlyTyped.symm
    rw [List.flatten_cons, List.zip_append lengths, Store.write_all_append]
    exact (on_seq read).trans others

variable {files : FileStore σ} {path : String} {reader : Int}

theorem on_read_back {file : OpenFile} {values more : List Value} {groups : List (List Cell)}
    (standard : setup.registry = .standard) (installed : setup.devices.files = some files) (keeps : files.Keeps path)
    (least : 1 ≤ number) (most : number ≤ 255) (readerLeast : 1 ≤ reader) (readerMost : reader ≤ 255)
    (free : reader ≠ number → machine.files.get? reader = none) (waitsNot : machine.pending = none)
    (few : ∀ group ∈ groups, group.length ≤ 32767) (isOpen : machine.files.get? number = some file)
    (isOutput : file.mode = .output) (isPath : file.path = path) (written : Written (values ++ more) file.text.toList)
    (typed : groups.flatten.map machine.store.ty = values.map Value.ty) :
    ∃ after last, (do
        closeStatement setup number
        openStatement setup path .input reader
        groups.forM (inputStatement setup reader) : Run σ Unit).on machine = (.ok (), after) ∧
      after.store = machine.store.writeAll (groups.flatten.zip values) ∧ after.stack = machine.stack ∧
        after.status = 0 ∧ after.files.get? reader = some last ∧ last.isInput = true ∧ Written more last.rest := by
  have stillFree : (machine.files.erase number).get? reader = none := by
    by_cases same : reader = number
    · rw [same, FileTable.get_erase]
    · rw [FileTable.get_erase_other _ same, free same]
  obtain ⟨between, world, writes, reads⟩ := keeps file.text machine.world
  rw [← isPath] at writes
  rw [← OpenFile.rest_input path file.text] at written
  obtain ⟨phase, notices, closed⟩ := on_close_statement standard installed least most isOpen isOutput waitsNot writes
  obtain ⟨phase, notices, opened⟩ := @on_open_for_input σ setup { machine with
    world := between, phase, notices, pending := none, status := 0, files := machine.files.erase number } files path
    reader file.text world standard installed readerLeast readerMost stillFree rfl reads
  obtain ⟨table, last, read, found, lastInput, left⟩ := @on_input_statements σ setup { machine with
    world, phase, notices, pending := none, status := 0
    files := (machine.files.erase number).set reader (.input path file.text) } reader (.input path file.text) values more
    groups standard readerLeast readerMost few (FileTable.get_set _ _ _) rfl written typed
  exact ⟨_, last, (on_seq closed).trans ((on_seq opened).trans read), rfl, rfl, rfl, found, lastInput, left⟩

def writeAndRead (setup : Setup σ) (path : String) (number reader : Int) (batches : List (List Value))
    (groups : List (List Cell)) : Run σ Unit := do
  openStatement setup path .output number
  batches.forM (writeStatement setup number)
  closeStatement setup number
  openStatement setup path .input reader
  groups.forM (inputStatement setup reader)

end Run

open Run in
/-- Whole numbers and texts without quotes that are written to a file come back from it, whichever statements write them
and whichever read them. Then there is nothing left to read. -/
theorem written_values_come_back {σ : Type} (setup : Setup σ) (files : FileStore σ) (path : String)
    (number reader : Int) (machine : Machine σ) (batches : List (List Value)) (groups : List (List Cell))
    (standard : setup.registry = .standard) (installed : setup.devices.files = some files) (keeps : files.Keeps path)
    (least : 1 ≤ number) (most : number ≤ 255) (readerLeast : 1 ≤ reader) (readerMost : reader ≤ 255)
    (closed : machine.files.get? number = none) (free : machine.files.get? reader = none)
    (waitsNot : machine.pending = none) (few : ∀ batch ∈ batches, batch ≠ [] ∧ batch.length ≤ 32767)
    (writable : ∀ batch ∈ batches, ∀ value ∈ batch, value.isWritable = true)
    (fewTargets : ∀ group ∈ groups, group.length ≤ 32767)
    (typed : groups.flatten.map machine.store.ty = batches.flatten.map Value.ty) :
    ∃ after, (writeAndRead setup path number reader batches groups).on machine = (.ok (), after) ∧
      after.store = machine.store.writeAll (groups.flatten.zip batches.flatten) ∧
      (groups.flatten.Nodup → groups.flatten.map after.store.read = batches.flatten) ∧
      after.stack = machine.stack ∧ after.status = 0 ∧
      ∀ targets, targets ≠ [] → targets.length ≤ 32767 → ∃ last,
        (inputStatement setup reader targets).on after = (.ok (), last) ∧ last.store = after.store ∧ last.status = 62 := by
  obtain ⟨table, output, file, wrote, isOpen, isOutput, isPath, written, same⟩ := @on_write_statements σ setup { machine with
    files := machine.files.set number (.output path .output) } number (.output path .output) [] batches standard least
    most few writable (FileTable.get_set _ _ _) rfl .nothing
  -- `OPEN` installs the empty output file from which the `WRITE #` statements start.
  have opened : (openStatement setup path .output number).on machine = (.ok (), { machine with
      files := machine.files.set number (.output path .output) }) :=
    on_open_for_output standard least most closed waitsNot
  rw [List.nil_append, ← List.append_nil batches.flatten] at written
  have stillFree (different : reader ≠ number) : FileTable.get? table reader = none :=
    ((same reader different).trans (FileTable.get_set_other _ _ different)).trans free
  obtain ⟨after, last, read, store, stack, status, found, lastInput, left⟩ := @on_read_back σ setup { machine with
    files := table, output } number files path reader file batches.flatten [] groups standard installed keeps least most
    readerLeast readerMost stillFree waitsNot fewTargets isOpen isOutput isPath written typed
  have atEnd : last.rest = [] := by
    generalize last.rest = rest at left
    cases left
    rfl
  have allWritable : ∀ value ∈ batches.flatten, value.isWritable = true := by
    intro value inside
    obtain ⟨batch, isBatch, within⟩ := List.mem_flatten.mp inside
    exact writable batch isBatch value within
  refine ⟨after, (on_seq opened).trans ((on_seq wrote).trans read), store, ?_, stack, status, ?_⟩
  · intro different
    rw [store]
    exact Store.read_write_all allWritable typed different
  · intro targets asks few
    obtain ⟨files, refused⟩ := on_input_past_end standard readerLeast readerMost asks few found lastInput atEnd
    exact ⟨_, refused, rfl, rfl⟩

def fourCells : Machine Bench :=
  { Machine.create Bench.empty with
    store := ⟨#[.plain (.integer 0), .plain (.integer 0), .plain (.long 0), .plain (.string "")]⟩ }

open Run in
theorem line_break_comes_back :
    let batches := [[Value.integer (-32768), .string "a, b\n"], [.long (-2147483648)]]
    ∃ after, (writeAndRead filesSetup "f" 1 2 batches [[0], [3, 2]]).on fourCells = (.ok (), after) ∧
      [0, 3, 2].map after.store.read = batches.flatten ∧
        ∃ last, (inputStatement filesSetup 2 [1]).on after = (.ok (), last) ∧ last.status = 62 := by
  obtain ⟨after, ran, -, values, -, -, further⟩ := written_values_come_back filesSetup Bench.fileStore "f" 1 2 fourCells
    [[.integer (-32768), .string "a, b\n"], [.long (-2147483648)]] [[0], [3, 2]] rfl rfl
    (Bench.file_store_keeps (by decide +kernel)) (by decide) (by decide) (by decide) (by decide) rfl rfl rfl (by decide)
    (by decide) (by decide) rfl
  obtain ⟨last, refused, -, status⟩ := further [1] (by decide) (by decide)
  exact ⟨after, ran, values (by decide), last, refused, status⟩

theorem Run.write_and_read_append {σ : Type} (setup : Setup σ) (path : String) (number reader : Int)
    (batches : List (List Value)) (groups : List (List Cell)) (group : List Cell) :
    writeAndRead setup path number reader batches (groups ++ [group]) = (do
      writeAndRead setup path number reader batches groups
      inputStatement setup reader group) := by
  simp [writeAndRead, List.forM_append]

def oddLine (count : Nat) : List Value := .integer 5 :: List.replicate count (.integer 1)

def oddTargets (count : Nat) : List (List Cell) := [0] :: List.replicate count [1]

theorem odd_targets_flatten (count : Nat) : (oddTargets count).flatten = 0 :: List.replicate count 1 := by
  rw [oddTargets, List.flatten_cons, List.flatten_replicate_singleton]
  rfl

theorem odd_targets_typed (count : Nat) :
    (oddTargets count).flatten.map fourCells.store.ty = (List.replicate (count + 1) (Value.integer 1)).map Value.ty := by
  rw [odd_targets_flatten, List.map_cons, List.map_replicate, List.map_replicate, List.replicate_succ]
  rfl

theorem odd_line_typed (count : Nat) :
    (oddTargets count).flatten.map fourCells.store.ty = [oddLine count].flatten.map Value.ty := by
  rw [odd_targets_typed, List.flatten_singleton, oddLine, List.replicate_succ]
  rfl

theorem odd_line_writable (count : Nat) : ∀ value ∈ oddLine count, value.isWritable = true := by
  intro value inside
  rcases List.mem_cons.mp inside with rfl | inside
  · rfl
  · rw [List.eq_of_mem_replicate inside]
    rfl

theorem read_first (first : Int16) (count : Nat) :
    ((fourCells.store.write 0 (.integer first)).writeAll
      ((List.replicate count 1).zip (List.replicate count (.integer 1)))).read 0 = .integer first := by
  have typed : (List.replicate count 1).map (fourCells.store.write 0 (.integer first)).ty =
      (List.replicate count (Value.integer 1)).map Value.ty := by
    rw [List.map_replicate, List.map_replicate]
    rfl
  have writable : ∀ value ∈ List.replicate count (Value.integer 1), value.isWritable = true := by
    intro value inside
    rw [List.eq_of_mem_replicate inside]
    rfl
  have apart : 0 ∉ List.replicate count 1 := fun inside => absurd (List.eq_of_mem_replicate inside) (by decide)
  rw [Store.read_eq]
  exact congrArg (Store.valueOf _ 0) (Store.content_write_all_other writable typed apart)

open Run in
theorem on_odd_line {rest : Nat} (most : rest + 1 = 32767) :
    ∃ after, (writeAndRead filesSetup "f" 1 1 [oddLine (rest + 1)] (oddTargets (rest + 1))).on fourCells =
        (.ok (), after) ∧
      after.store.read 0 = .integer 1 ∧ after.status = 62 := by
  have split : oddTargets (rest + 1) = oddTargets rest ++ [[1]] := by
    rw [oddTargets, List.replicate_succ']
    rfl
  have writable : ∀ value ∈ List.replicate (rest + 1) (Value.integer 1), value.isWritable = true :=
    (List.forall_mem_cons.mp (odd_line_writable (rest + 1))).2
  have counted : min ([Value.integer 5] ++ List.replicate (rest + 1) (Value.integer 1)).length 32767 =
      (List.replicate (rest + 1) (Value.integer 1)).length := by
    rw [List.length_append, List.length_replicate, List.length_singleton]
    omega
  have opened : (openStatement filesSetup "f" .output 1).on fourCells =
      (.ok (), { fourCells with files := FileTable.set fourCells.files 1 (.output "f" .output) }) :=
    on_open_for_output rfl (by decide) (by decide) rfl rfl
  have wrote := @on_write_statement Bench filesSetup
    { fourCells with files := FileTable.set fourCells.files 1 (.output "f" .output) } 1 (.output "f" .output)
    [.integer 5] (List.replicate (rest + 1) (.integer 1)) rfl (by decide) (by decide) counted
    (FileTable.get_set _ _ _) rfl
  have line : Written (List.replicate (rest + 1) (.integer 1) ++ []) ("" ++ (",".intercalate
      ((List.replicate (rest + 1) (Value.integer 1)).map writtenText) ++ "\n")).toList := by
    rw [List.append_nil, String.empty_append]
    exact written_line (by rw [List.replicate_succ]; exact List.cons_ne_nil _ _) writable
  have few : ∀ group ∈ oddTargets rest, group.length ≤ 32767 := by
    intro group inside
    rcases List.mem_cons.mp inside with rfl | inside
    · decide
    · rw [List.eq_of_mem_replicate inside]
      decide
  obtain ⟨between, last, read, store, -, -, found, lastInput, left⟩ := @on_read_back Bench filesSetup
    { fourCells with
      stack := [.value (.integer 5)], output := none
      files := FileTable.set (FileTable.set fourCells.files 1 (.output "f" .output)) 1
        ((OpenFile.output "f" .output).write
          (",".intercalate ((List.replicate (rest + 1) (Value.integer 1)).map writtenText) ++ "\n")) } 1 Bench.fileStore
    "f" 1 ((OpenFile.output "f" .output).write
      (",".intercalate ((List.replicate (rest + 1) (Value.integer 1)).map writtenText) ++ "\n"))
    (List.replicate (rest + 1) (.integer 1)) [] (oddTargets rest) rfl rfl (Bench.file_store_keeps (by decide +kernel))
    (by decide) (by decide) (by decide) (by decide) (fun different => absurd rfl different) rfl few
    (FileTable.get_set _ _ _) rfl rfl line (odd_targets_typed rest)
  have atEnd : last.rest = [] := by
    generalize last.rest = rest at left
    cases left
    rfl
  obtain ⟨files, refused⟩ := @on_input_past_end Bench filesSetup between 1 last [1] rfl (by decide) (by decide) (by decide)
    (by decide) found lastInput atEnd
  have first : between.store.read 0 = .integer 1 := by
    rw [store, odd_targets_flatten, List.replicate_succ]
    exact read_first 1 rest
  have ran : (writeAndRead filesSetup "f" 1 1 [oddLine (rest + 1)] (oddTargets rest)).on fourCells = (.ok (), between) := by
    rw [writeAndRead, on_seq opened]
    exact (on_seq ((on_seq wrote).trans rfl)).trans read
  refine ⟨{ between with files, status := 62 }, ?_, first, rfl⟩
  rw [split, write_and_read_append, on_seq ran]
  exact refused

theorem read_odd_line (count : Nat) :
    (fourCells.store.writeAll ((oddTargets count).flatten.zip [oddLine count].flatten)).read 0 = .integer 5 := by
  rw [odd_targets_flatten, List.flatten_singleton]
  exact read_first 5 count

/-- A statement with more values than it can count loses the first of them, and one value is missing when they are
read. -/
theorem long_line_loses_value :
    oddLine 32767 ≠ [] ∧ (∀ value ∈ oddLine 32767, value.isWritable = true) ∧
      (oddTargets 32767).flatten.map fourCells.store.ty = [oddLine 32767].flatten.map Value.ty ∧
      ∃ after, (Run.writeAndRead filesSetup "f" 1 1 [oddLine 32767] (oddTargets 32767)).on fourCells =
          (.ok (), after) ∧
        after.store ≠ fourCells.store.writeAll ((oddTargets 32767).flatten.zip [oddLine 32767].flatten) ∧
        after.status = 62 := by
  obtain ⟨after, ran, first, status⟩ := @on_odd_line 32766 rfl
  refine ⟨List.cons_ne_nil _ _, odd_line_writable 32767, odd_line_typed 32767, after, ran, fun same => ?_, status⟩
  have held := read_odd_line 32767
  rw [← same, first] at held
  cases held

end BasicLang
