import BasicLang.Device.Bench
import BasicLang.Proofs.Code.Generation
import BasicLang.Proofs.Files.Statements
import BasicLang.Proofs.Machine.Control
import BasicLang.Proofs.Machine.Deeds
import Mathlib.Data.List.DropRight

set_option autoImplicit false

namespace BasicLang

section Lines

def Text.lastLine (text : String) : List Char := text.toList.rtakeWhile (· != '\n')

theorem column_after_append (column : Nat) (text more : String) :
    columnAfter column (text ++ more) = columnAfter (columnAfter column text) more := by
  rw [columnAfter, String.toList_append, List.foldl_append, ← columnAfter, ← columnAfter]

theorem column_of_last_line (text : String) : columnAfter 0 text = (Text.lastLine text).length := by
  rw [columnAfter, Text.lastLine]
  induction text.toList using List.reverseRecOn with
  | nil => rfl
  | append_singleton chars char ih =>
    rw [List.foldl_append, List.foldl_cons, List.foldl_nil, List.rtakeWhile_concat]
    by_cases isBreak : char = '\n'
    · rw [if_pos isBreak, if_neg (by simp [isBreak])]
      rfl
    · rw [if_neg isBreak, if_pos (by simp [isBreak]), ih, List.length_append, List.length_singleton]

theorem column_after_break (column : Nat) (line : String) : columnAfter column (line ++ "\n") = 0 := by
  rw [column_after_append]
  rfl

theorem column_after_same {first second : Nat} (text : String) :
    columnAfter first text = columnAfter second text ↔ first = second ∨ '\n' ∈ text.toList := by
  rw [columnAfter, columnAfter]
  induction text.toList generalizing first second with
  | nil => simp
  | cons char chars ih =>
    rw [List.foldl_cons, List.foldl_cons, List.mem_cons]
    by_cases isBreak : char = '\n'
    · rw [if_pos isBreak, if_pos isBreak]
      simp [isBreak]
    · rw [if_neg isBreak, if_neg isBreak, ih, Nat.add_right_cancel_iff]
      simp [Ne.symm isBreak]

theorem column_after_blanks (column count : Nat) (few : count ≤ Text.maxLength) :
    columnAfter column (Text.spaces count) = column + count := by
  have blanks : (Text.spaces count).toList = List.replicate count ' ' := by
    rw [Text.spaces, Text.fill, String.toList_ofList, Int.toNat_natCast, Nat.min_eq_left few]
  rw [columnAfter, blanks]
  clear few blanks
  induction count generalizing column with
  | zero => rfl
  | succ count ih =>
    rw [List.replicate_succ, List.foldl_cons, if_neg (by decide), ih]
    omega

theorem blanks_fill_zone (column : Nat) :
    0 < zoneWidth - column % zoneWidth ∧
      zoneWidth ∣ columnAfter column (Text.spaces (zoneWidth - column % zoneWidth : Nat)) := by
  have below : column % zoneWidth < zoneWidth := Nat.mod_lt _ (by decide)
  have few : zoneWidth - column % zoneWidth ≤ Text.maxLength := (Nat.sub_le _ _).trans (by decide)
  refine ⟨Nat.sub_pos_of_lt below, column / zoneWidth + 1, ?_⟩
  rw [column_after_blanks column _ few, Nat.mul_succ]
  have split := Nat.div_add_mod column zoneWidth
  omega

end Lines

/-- The column of each file that is open for output is that of its text. -/
def FileTable.InStep (files : FileTable) : Prop :=
  ∀ number file, files.get? number = some file → file.isInput = false →
    file.column = (Text.lastLine file.text).length

theorem OpenFile.write_in_step {file : OpenFile} (inStep : file.column = (Text.lastLine file.text).length) (text : String) :
    (file.write text).column = (Text.lastLine (file.write text).text).length := by
  calc
    (file.write text).column
    _ = columnAfter (columnAfter 0 file.text) text := by rw [column_of_last_line, ← inStep]; rfl
    _ = (Text.lastLine (file.write text).text).length := by rw [← column_after_append, column_of_last_line]; rfl

namespace FileTable

variable {files after : FileTable} {number : Int} {file : OpenFile}

theorem InStep.set (inStep : files.InStep)
    (isNew : file.isInput = false → file.column = (Text.lastLine file.text).length) : (files.set number file).InStep := by
  intro other found isOther
  by_cases same : other = number
  · subst same
    rw [get_set] at isOther
    exact Option.some.inj isOther ▸ isNew
  · rw [get_set_other files file same] at isOther
    exact inStep other found isOther

theorem Changes.in_step (changes : files.Changes after) (inStep : files.InStep) : after.InStep := by
  cases changes with
  | loaded number path text => exact inStep.set fun isOutput => by cases isOutput
  | opened number path mode => exact inStep.set fun _ => rfl
  | read found isInput stays => exact inStep.set fun isOutput => by cases stays.symm.trans isOutput
  | written found isOutput text => exact inStep.set fun _ => OpenFile.write_in_step (inStep _ _ found isOutput) text
  | cleared => intro number file found; cases found
  | closed number =>
    intro other file isOther
    by_cases same : other = number
    · rw [same, get_erase] at isOther
      cases isOther
    · rw [get_erase_other files same] at isOther
      exact inStep other file isOther

end FileTable

variable {σ : Type}

/-- The world shows a text. What is printed is added to it, and a line that is read with a line break behind. Nothing
else changes it. -/
structure Devices.Shows (devices : Devices σ) (shown : σ → String) : Prop where
  prints : ∀ text world, shown (devices.console.print text world) = shown world ++ text
  echoes : ∀ {world after line}, devices.console.readLine world = (.ok line, after) →
    shown after = shown world ++ (line ++ "\n")
  refuses : ∀ {world after error}, devices.console.readLine world = (.error error, after) → shown after = shown world
  stirs : ∀ {world after}, devices.Stirs world after → shown after = shown world

def Continues (shown : σ → String) (before after : σ × Nat) : Prop :=
  ∃ text, shown after.1 = shown before.1 ++ text ∧ after.2 = columnAfter before.2 text

theorem Continues.refl (shown : σ → String) (place : σ × Nat) : Continues shown place place :=
  ⟨"", String.append_empty.symm, rfl⟩

theorem Continues.trans {shown : σ → String} {before between after : σ × Nat} (early : Continues shown before between)
    (late : Continues shown between after) : Continues shown before after := by
  obtain ⟨first, shownFirst, counted⟩ := early
  obtain ⟨second, shownSecond, countedOn⟩ := late
  refine ⟨first ++ second, ?_, ?_⟩
  · rw [shownSecond, shownFirst, String.append_assoc]
  · rw [countedOn, counted, column_after_append]

theorem Devices.Shows.within {devices : Devices σ} {shown : σ → String} (isShown : devices.Shows shown) :
    devices.Within (Continues shown) where
  prints text world column := ⟨text, isShown.prints text world, rfl⟩
  stirs _ _ _ stirs := ⟨"", by rw [isShown.stirs stirs, String.append_empty], rfl⟩

namespace Machine

/-- The column of the console is that of the text that is shown. -/
def InStep (shown : σ → String) (machine : Machine σ) : Prop :=
  machine.column = (Text.lastLine (shown machine.world)).length

theorem in_step_behind {shown : σ → String} {machine after : Machine σ} {text : String}
    (added : shown after.world = shown machine.world ++ text) (counted : after.column = columnAfter machine.column text) :
    after.InStep shown ↔ machine.InStep shown ∨ '\n' ∈ text.toList := by
  rw [InStep, InStep, added, counted, ← column_of_last_line, ← column_of_last_line, column_after_append]
  exact column_after_same text

def page? (shown : σ → String) (machine : Machine σ) : Option String :=
  match machine.output with
  | none => some (shown machine.world)
  | some number => ((machine.files.get? number).filter fun file => !file.isInput).map OpenFile.text

def TakesLine (setup : Setup σ) (machine : Machine σ) : Prop :=
  ∃ completion line after, machine.pending = some ⟨.readLine, completion⟩ ∧
    setup.devices.console.readLine machine.world = (.ok line, after)

end Machine

namespace Run

variable {setup : Setup σ} {machine : Machine σ} {moves : σ × Nat → σ × Nat → Prop}
  {holds : σ × Nat → FileTable → Prop}

/-- What is true of the world with the column of the console, and of the open files, and stays true as they change. -/
structure Lasting (moves : σ × Nat → σ × Nat → Prop) (holds : σ × Nat → FileTable → Prop) : Prop where
  moved : ∀ {before after files}, moves before after → holds before files → holds after files
  refiled : ∀ {place files after}, FileTable.Changes files after → holds place files → holds place after

def Has (holds : σ × Nat → FileTable → Prop) (machine : Machine σ) : Prop :=
  holds (machine.world, machine.column) machine.files

section Steps

theorem set_phase_has (held : Has holds machine) (phase : Phase) : Has holds (machine.setPhase phase) := by
  obtain ⟨notices, same⟩ := machine.set_phase_only phase
  rw [same]
  exact held

variable (lasting : Lasting moves holds)

include lasting

theorem preserved_lasting : PreservedWithin moves (Has holds) fun _ => True where
  pop := fun _ _ _ held _ => held
  reference := fun _ _ _ _ _ => trivial
  push := fun _ _ held => held
  write := fun _ _ _ held _ _ => held
  around := by
    intro machine world column status generator moved held
    obtain same | moved := (Relation.reflGen_iff _ _ _).mp moved
    · rw [Has] at held ⊢
      exact same ▸ held
    · exact lasting.moved moved held

omit lasting in
theorem awaited_lasting : Awaited (Has holds) (Has holds) (fun _ => True) fun _ => True where
  at_once := fun _ held => held
  waits := fun _ _ _ _ held _ _ _ => held

omit lasting in
-- Nothing of this is seen by operations that neither call a builtin nor end the program.
theorem apart_console_and_files :
    ApartWithin (fun _ _ => False) fun machine : Machine σ => ((machine.world, machine.column), machine.files) where
  computing := fun _ _ _ _ => rfl
  around := by
    intro machine world column status generator moved
    obtain same | never := (Relation.reflGen_iff _ _ _).mp moved
    · rw [same]
    · exact never.elim
  control := fun _ _ _ _ _ _ _ => rfl

theorem execute_lasts (within : setup.devices.Within moves) (op : Op) :
    Ends (Has holds) (Has holds) (execute setup op) := by
  have refiled : Refiled (Has holds) := fun _ _ changes held => lasting.refiled changes held
  by_cases isEnd : op = .stop
  · subst isEnd
    refine ends_seq maintains_get fun _ _ => ends_seq (maintains_modify fun machine held => ?_) fun _ _ =>
      ends_write_back awaited_lasting _ trivial
    exact refiled machine [] .cleared held
  · by_cases isCall : ∃ name, op = .syscall name
    · obtain ⟨name, rfl⟩ := isCall
      exact ends_syscall (preserved_lasting lasting) awaited_lasting setup within name (fun _ _ _ held => held)
        (fun _ => refiled) fun _ _ => trivial
    · intro machine held
      have filesNot (isFiling : op.Files setup.registry) : False := by
        cases op with
        | stop => exact isEnd rfl
        | syscall name => exact isCall ⟨name, rfl⟩
        | _ => exact isFiling
      have stays := plain_stays apart_console_and_files setup (fun name same => isCall ⟨name, same⟩)
        (fun isFiling => (filesNot isFiling).elim) (fun _ _ _ => rfl) (fun _ _ _ => rfl) (fun _ _ _ => rfl) _ machine rfl
      have same {after : Machine σ} (seen : ((after.world, after.column), after.files) =
          ((machine.world, machine.column), machine.files)) : Has holds after := by
        obtain ⟨place, files⟩ := Prod.mk.inj seen
        rw [Has, place, files]
        exact held
      exact meets_weaken stays (fun _ _ both => same both.1) fun _ _ seen => same seen

theorem ready_lasts (within : setup.devices.Within moves) (held : Has holds machine) : Has holds (ready setup machine) := by
  have polled : Has holds (pollEvents setup.devices (machine.setPhase .running)) := by
    have started := set_phase_has held .running
    rw [pollEvents]
    cases isBus : setup.devices.bus with
    | none => exact started
    | some bus => exact lasting.moved (within.stirs _ _ _ (.polled isBus _)) started
  rw [ready]
  generalize pollEvents setup.devices (machine.setPhase .running) = arrived at polled
  obtain ⟨still, -⟩ | ⟨key, data, rest, -, -, ⟨-, dropped⟩ | ⟨handler, -, entered⟩⟩ := deliver_cases arrived
  · rw [still]
    exact polled
  · rw [dropped]
    exact polled
  · rw [entered]
    exact polled

theorem step_lasts (within : setup.devices.Within moves) : Upholds (Has holds) (step setup) := by
  intro machine held
  by_cases goes : machine.phase = .idle ∨ machine.phase = .running
  · have prepared := ready_lasts lasting within held
    rw [on_step_ready goes]
    cases (ready setup machine).image.instructions[(ready setup machine).next]? with
    | none => exact set_phase_has prepared .finished
    | some instruction =>
      have executed := execute_lasts lasting within instruction.op
        { ready setup machine with next := (ready setup machine).next + 1 } prepared
      rw [Meets] at executed
      dsimp only
      cases ran : (execute setup instruction.op).on { ready setup machine with next := (ready setup machine).next + 1 } with
      | mk result after =>
        rw [ran] at executed
        cases result with
        | error error => exact executed
        | ok _ =>
          dsimp only
          split
          · exact set_phase_has executed .finished
          · exact executed
  · rw [on_step_still goes]
    exact held

theorem resume_lasts (reply : Except DeviceError Reply) : Upholds (Has holds) (resume reply : Run σ Unit) := by
  intro machine held
  cases waits : machine.pending with
  | none =>
    rw [on_resume_nothing waits]
    exact held
  | some pending =>
    have resumed := meets_resumed (preserved_lasting lasting) reply waits held (fun _ _ => trivial)
      fun _ _ _ changes held => lasting.refiled changes held
    rw [Meets] at resumed
    cases ran : (resume reply).on machine with
    | mk result after =>
      rw [ran] at resumed
      cases result with
      | ok _ =>
        obtain ⟨last, stays, rfl⟩ := resumed
        exact set_phase_has stays .running
      | error error =>
        obtain ⟨last, stays, rfl⟩ := resumed
        exact stays

theorem call_lasts (within : setup.devices.Within moves) {call : HostCall} (goesOn : call.restarts = false)
    (answered : call = .service → ∀ pending, machine.pending = some pending →
      holds ((setup.devices.perform pending.request machine.world).2, machine.column) machine.files)
    (held : Has holds machine) : Has holds (call.after setup machine) := by
  have steps : Upholds (Has holds) (step setup) := step_lasts lasting within
  cases call with
  | load image | reset => cases goesOn
  | step =>
    rw [HostCall.after_step]
    exact steps machine held
  | tick =>
    rw [HostCall.after_tick]
    exact upholds_slice steps _ machine held
  | slice count => exact upholds_slice steps count machine held
  | resume reply => exact resume_lasts lasting reply machine held
  | dispatch key data => exact held
  | service =>
    cases waits : machine.pending with
    | none =>
      rw [(reply_to_nothing setup waits).2.1]
      exact held
    | some pending =>
      rw [(service_asks setup waits).2]
      exact resume_lasts lasting _ _ (answered rfl pending waits)

end Steps

section Console

variable {shown : σ → String}

theorem files_lasting : Lasting (fun _ _ => True) fun (_ : σ × Nat) files => files.InStep :=
  ⟨fun _ inStep => inStep, fun changes inStep => changes.in_step inStep⟩

theorem call_keeps_files (setup : Setup σ) {call : HostCall} (goesOn : call.restarts = false)
    (inStep : machine.files.InStep) : (call.after setup machine).files.InStep :=
  call_lasts files_lasting setup.devices.within_any goesOn (fun _ _ _ => inStep) inStep

theorem calls_keep_files (setup : Setup σ) {calls : List HostCall} (goOn : ∀ call ∈ calls, call.restarts = false)
    (inStep : machine.files.InStep) : (machine.afterAll setup calls).files.InStep := by
  have each : ∀ call ∈ calls, Upholds (fun machine : Machine σ => machine.files.InStep) (call.run setup) :=
    fun call inside machine inStep => call_keeps_files setup (goOn call inside) inStep
  exact Machine.after_all_holds setup each inStep

theorem console_lasting (shown : σ → String) (before : σ × Nat) :
    Lasting (Continues shown) fun place (_ : FileTable) => Continues shown before place :=
  ⟨fun late early => early.trans late, fun _ continues => continues⟩

theorem answer_continues (isShown : setup.devices.Shows shown) {pending : Pending}
    (waits : machine.pending = some pending) (atStart : machine.TakesLine setup → machine.column = 0) :
    Continues shown (machine.world, machine.column)
      ((setup.devices.perform pending.request machine.world).2, machine.column) := by
  obtain ⟨request, completion⟩ := pending
  by_cases isLine : request = .readLine
  · subst isLine
    cases read : setup.devices.console.readLine machine.world with
    | mk result after =>
      have performed : (setup.devices.perform .readLine machine.world).2 = after := congrArg Prod.snd read
      rw [performed]
      cases result with
      | ok line =>
        have column : machine.column = 0 := atStart ⟨completion, line, after, waits, read⟩
        exact ⟨line ++ "\n", isShown.echoes read, by rw [column_after_break, column]⟩
      | error error => exact ⟨"", by rw [isShown.refuses read, String.append_empty], rfl⟩
  · exact ⟨"", by rw [isShown.stirs (.performed isLine machine.world), String.append_empty], rfl⟩

theorem call_continues (isShown : setup.devices.Shows shown) {call : HostCall} (goesOn : call.restarts = false)
    (atStart : call = .service → machine.TakesLine setup → machine.column = 0) :
    Continues shown (machine.world, machine.column)
      ((call.after setup machine).world, (call.after setup machine).column) :=
  call_lasts (console_lasting shown _) isShown.within goesOn
    (fun isService _ waits => answer_continues isShown waits (atStart isService)) (.refl shown _)

theorem calls_continue (isShown : setup.devices.Shows shown) {calls : List HostCall}
    (goOn : ∀ call ∈ calls, call.restarts = false)
    (atStart : ∀ early late, calls = early ++ .service :: late → (machine.afterAll setup early).TakesLine setup →
      (machine.afterAll setup early).column = 0) :
    Continues shown (machine.world, machine.column)
      ((machine.afterAll setup calls).world, (machine.afterAll setup calls).column) := by
  induction calls generalizing machine with
  | nil => exact .refl shown _
  | cons call calls ih =>
    obtain ⟨goesOn, others⟩ := List.forall_mem_cons.mp goOn
    have first := call_continues isShown goesOn fun isService => atStart [] calls (congrArg (· :: calls) isService)
    exact first.trans (ih others fun early late same => atStart (call :: early) late (congrArg (call :: ·) same))

theorem line_read (isShown : setup.devices.Shows shown) (takesLine : machine.TakesLine setup) :
    Text.lastLine (shown (HostCall.service.after setup machine).world) = [] ∧
      (HostCall.service.after setup machine).column = machine.column := by
  obtain ⟨completion, line, after, waits, read⟩ := takesLine
  have performed : (setup.devices.perform .readLine machine.world).2 = after := congrArg Prod.snd read
  have still : Lasting (fun _ _ => False) fun place (_ : FileTable) => place = (after, machine.column) :=
    ⟨fun never _ => never.elim, fun _ same => same⟩
  have same := resume_lasts still (setup.devices.perform .readLine machine.world).1 { machine with world := after } rfl
  rw [(service_asks setup waits).2, performed]
  obtain ⟨world, column⟩ := Prod.mk.inj same
  refine ⟨?_, column⟩
  rw [world, isShown.echoes read, ← List.length_eq_zero_iff, ← column_of_last_line, column_after_append, column_after_break]

end Console

section Zones

variable {shown : σ → String} {text : String}

theorem print_extends (isShown : setup.devices.Shows shown) (isPage : machine.page? shown = some text) (more : String) :
    ∃ after, (print setup.devices more).on machine = (.ok (), after) ∧ after.page? shown = some (text ++ more) := by
  rw [Machine.page?] at isPage
  rw [print, on_seq (on_get machine)]
  cases output : machine.output with
  | none =>
    rw [output] at isPage
    obtain rfl := Option.some.inj isPage
    refine ⟨_, on_modify _ _, ?_⟩
    rw [Machine.page?, ← isShown.prints]
    dsimp only
    rw [output]
  | some number =>
    rw [output] at isPage
    obtain ⟨file, isFile, rfl⟩ := Option.map_eq_some_iff.mp isPage
    obtain ⟨found, isOutput⟩ := Option.filter_eq_some_iff.mp isFile
    have writes : file.isInput = false := by simpa using isOutput
    have stillWrites : (file.write more).isInput = false := writes
    dsimp only
    rw [on_seq (on_get machine), found]
    dsimp only
    rw [writes]
    refine ⟨_, on_modify _ _, ?_⟩
    rw [Machine.page?]
    dsimp only
    rw [output]
    dsimp only
    rw [FileTable.get_set, Option.filter_some, stillWrites]
    rfl

theorem current_column (files : machine.files.InStep) (inStep : machine.output = none → machine.InStep shown)
    (isPage : machine.page? shown = some text) : machine.currentColumn = (Text.lastLine text).length := by
  rw [Machine.page?] at isPage
  rw [Machine.currentColumn]
  cases output : machine.output with
  | none =>
    rw [output] at isPage
    obtain rfl := Option.some.inj isPage
    exact inStep output
  | some number =>
    rw [output] at isPage
    obtain ⟨file, isFile, rfl⟩ := Option.map_eq_some_iff.mp isPage
    obtain ⟨found, isOutput⟩ := Option.filter_eq_some_iff.mp isFile
    dsimp only
    rw [found]
    exact files number file found (by simpa using isOutput)

theorem zone_filled (isShown : setup.devices.Shows shown) (isPage : machine.page? shown = some text)
    (counted : machine.currentColumn = (Text.lastLine text).length) :
    ∃ (count : Nat) (after : Machine σ), 0 < count ∧
      (Run.builtin setup.devices .printZone).on machine = (.ok (), after) ∧
        after.page? shown = some (text ++ Text.spaces count) ∧
          zoneWidth ∣ (Text.lastLine (text ++ Text.spaces count)).length := by
  obtain ⟨positive, full⟩ := blanks_fill_zone machine.currentColumn
  obtain ⟨after, printed, goesOn⟩ :=
    print_extends isShown isPage (Text.spaces (zoneWidth - machine.currentColumn % zoneWidth : Nat))
  refine ⟨zoneWidth - machine.currentColumn % zoneWidth, after, positive, ?_, goesOn, ?_⟩
  · rw [Run.builtin, printZone, on_seq (on_get machine)]
    exact printed
  · rwa [← column_of_last_line, column_after_append, column_of_last_line, ← counted]

end Zones

end Run

namespace Bench

/-- Devices of the bench, of which any but the console may be missing. -/
structure Equips (devices : Devices Bench) : Prop where
  console : devices.console = console
  audio : ∀ audio, devices.audio = some audio → audio = audioDevice
  network : ∀ network, devices.network = some network → network = networkDevice
  files : ∀ files, devices.files = some files → files = fileStore
  bus : ∀ bus, devices.bus = some bus → bus = busDevice
  crypto : ∀ crypto, devices.crypto = some crypto → crypto = Bench.crypto

section Printed

variable {α ι : Type} {devices : Devices Bench}

def Silent (action : DeviceAction Bench α) : Prop := ∀ bench, (action bench).2.printed = bench.printed

theorem silent_guarded (name : String) {action : DeviceAction Bench α} (silent : Silent action) :
    Silent (guarded name action) := by
  intro bench
  unfold guarded
  cases fault? name with
  | none => exact silent bench
  | some error => rfl

theorem silent_require (name : String) {device? : Option ι} {action : ι → DeviceAction Bench α}
    (silent : ∀ device, device? = some device → Silent (action device)) : Silent (Devices.require name device? action) := by
  cases device? with
  | none => exact fun _ => rfl
  | some device => exact silent device rfl

theorem silent_play (music : String) : Silent (audioDevice.play music) := silent_guarded _ fun _ => rfl

theorem silent_sample (name : String) : Silent (audioDevice.playLoaded name) := by
  refine silent_guarded _ fun bench => ?_
  split <;> rfl

theorem silent_fetch (url : String) : Silent (networkDevice.fetch url) := by
  refine silent_guarded _ fun bench => ?_
  split <;> rfl

theorem silent_send (handle : Int) (message : String) : Silent (networkDevice.send handle message) := by
  refine silent_guarded _ fun bench => ?_
  dsimp only
  split <;> rfl

theorem silent_receive (handle : Int) : Silent (networkDevice.receive handle) := by
  intro bench
  dsimp only [networkDevice]
  split <;> rfl

theorem silent_read (path : String) : Silent (fileStore.read path) := by
  refine silent_guarded _ fun bench => ?_
  split <;> rfl

theorem silent_write_all (flushes : List Flush) : Silent (Devices.writeAll fileStore flushes) := by
  induction flushes with
  | nil => exact fun _ => rfl
  | cons flush rest ih =>
    intro bench
    have first : Silent (fileStore.write flush.path flush.contents flush.append) := silent_guarded _ fun _ => rfl
    have written := first bench
    rw [Devices.writeAll]
    dsimp only
    cases wrote : fileStore.write flush.path flush.contents flush.append bench with
    | mk result after =>
      rw [wrote] at written
      cases result with
      | ok _ => exact (ih after).trans written
      | error error => exact written

theorem silent_digest (algorithm data : String) : Silent (Bench.crypto.digest algorithm data) := by
  refine silent_guarded _ fun bench => ?_
  split
  · rfl
  · split <;> rfl

theorem silent_perform (equips : Equips devices) {request : Request} (noLine : request ≠ .readLine) :
    Silent (devices.perform request) := by
  cases request with
  | readLine => exact absurd rfl noLine
  | loadFile path => exact silent_require _ fun files isFiles => equips.files files isFiles ▸ silent_read path
  | saveFiles flushes => exact silent_require _ fun files isFiles => equips.files files isFiles ▸ silent_write_all flushes
  | fetch url => exact silent_require _ fun network isNetwork => equips.network network isNetwork ▸ silent_fetch url
  | openSocket url =>
    refine silent_require _ fun network isNetwork => ?_
    rw [equips.network network isNetwork]
    exact silent_guarded url fun _ => rfl
  | digest algorithm data =>
    exact silent_require _ fun crypto isCrypto => equips.crypto crypto isCrypto ▸ silent_digest algorithm data
  | loadSound name url =>
    refine silent_require _ fun audio isAudio => ?_
    rw [equips.audio audio isAudio]
    exact silent_guarded url fun _ => rfl
  | sleep nanoseconds => exact fun _ => rfl

theorem stirs_print_nothing (equips : Equips devices) {world after : Bench} (stirs : devices.Stirs world after) :
    after.printed = world.printed := by
  have console := equips.console
  cases stirs with
  | keyed =>
    rw [console]
    dsimp only [Bench.console]
    split <;> rfl
  | cleared | located | colored | beeped => rw [console]; rfl
  | played isAudio music => exact equips.audio _ isAudio ▸ silent_play music world
  | sounded isAudio frequency duration => exact equips.audio _ isAudio ▸ rfl
  | sampled isAudio name => exact equips.audio _ isAudio ▸ silent_sample name world
  | sent isNetwork handle message => exact equips.network _ isNetwork ▸ silent_send handle message world
  | received isNetwork handle => exact equips.network _ isNetwork ▸ silent_receive handle world
  | signalled isBus key value =>
    have silent : Silent (busDevice.write key value) := silent_guarded _ fun _ => rfl
    exact equips.bus _ isBus ▸ silent world
  | sensed isBus key =>
    have silent : Silent (busDevice.read key) := silent_guarded _ fun _ => rfl
    exact equips.bus _ isBus ▸ silent world
  | polled isBus => exact equips.bus _ isBus ▸ rfl
  | performed noLine => exact silent_perform equips noLine world

theorem output_grows (bench : Bench) (text : String) (input : List String) :
    output { bench with printed := text :: bench.printed, input } = bench.output ++ text := by
  rw [output, output, List.reverse_cons, String.join_append, String.join_cons, String.join_nil, String.append_empty]

theorem output_shows (equips : Equips devices) : devices.Shows output where
  prints text world := by
    rw [equips.console]
    exact output_grows world text world.input
  echoes := by
    intro world after line read
    rw [equips.console, console] at read
    dsimp only at read
    cases waiting : world.input with
    | nil =>
      rw [waiting] at read
      cases read
    | cons next rest =>
      rw [waiting] at read
      obtain ⟨rfl, rfl⟩ : next = line ∧ _ = after := by simpa using read
      exact output_grows world _ rest
  refuses := by
    intro world after error read
    rw [equips.console, console] at read
    dsimp only at read
    cases waiting : world.input with
    | nil =>
      rw [waiting] at read
      cases read
      rfl
    | cons next rest =>
      rw [waiting] at read
      cases read
  stirs stirs := by rw [output, output, stirs_print_nothing equips stirs]

end Printed

theorem bare_equips : Equips bare where
  console := rfl
  audio := fun _ found => by cases found
  network := fun _ found => by cases found
  files := fun _ found => by cases found
  bus := fun _ found => by cases found
  crypto := fun _ found => by cases found

end Bench

/-- The column of a file that is open for output is always that of its text. As long as every line from the console is read
at column zero, the column of the console is that of what the bench shows if and only if it was before or a line break was
added. A line leaves it so if and only if it is read at column zero. Where it is so, a comma fills the last line up to the
end of a zone. -/
theorem columns_are_of_the_text (setup : Setup Bench) (equips : Bench.Equips setup.devices) (machine : Machine Bench)
    (files : machine.files.InStep) (calls : List HostCall) (goOn : ∀ call ∈ calls, call.restarts = false) :
    let after := machine.afterAll setup calls
    after.files.InStep ∧
      ((∀ early late, calls = early ++ .service :: late → (machine.afterAll setup early).TakesLine setup →
          (machine.afterAll setup early).column = 0) →
        ∃ text, after.world.output = machine.world.output ++ text ∧
          (after.InStep Bench.output ↔ machine.InStep Bench.output ∨ '\n' ∈ text.toList)) ∧
      (after.TakesLine setup → ((HostCall.service.after setup after).InStep Bench.output ↔ after.column = 0)) ∧
      ∀ text, after.page? Bench.output = some text → (after.output = none → after.InStep Bench.output) →
        after.currentColumn = (Text.lastLine text).length ∧
          ∃ (count : Nat) (next : Machine Bench), 0 < count ∧
            (Run.builtin setup.devices .printZone).on after = (.ok (), next) ∧
              next.page? Bench.output = some (text ++ Text.spaces count) ∧
                14 ∣ (Text.lastLine (text ++ Text.spaces count)).length := by
  intro after
  have isShown := Bench.output_shows equips
  have stillFiles : after.files.InStep := Run.calls_keep_files setup goOn files
  refine ⟨stillFiles, fun atStart => ?_, fun takesLine => ?_, fun text isPage inStep => ?_⟩
  · obtain ⟨text, added, counted⟩ := Run.calls_continue isShown goOn atStart
    exact ⟨text, added, Machine.in_step_behind added counted⟩
  · obtain ⟨atStart, column⟩ := Run.line_read isShown takesLine
    rw [Machine.InStep, atStart, column, List.length_nil]
  · have counted := Run.current_column stillFiles inStep isPage
    exact ⟨counted, Run.zone_filled isShown isPage counted⟩

def sampleTyping (image : Image) : Machine Bench :=
  (Machine.create { Bench.empty with input := ["x"] }).afterAll (.ofDevices Bench.bare .standard) [.load image]

def afterTyping (image : Image) (calls : List HostCall) : Machine Bench :=
  (sampleTyping image).afterAll (.ofDevices Bench.bare .standard) calls

theorem line_read_at_column_zero : ∃ image,
    compile "PRINT \"é\"\nLINE INPUT A$\nPRINT A$," .standard = .ok image ∧
      (sampleTyping image).files.InStep ∧ (sampleTyping image).InStep Bench.output ∧
      (∀ early late, [.slice 20, .service, .slice 4] = early ++ .service :: late →
        (afterTyping image early).TakesLine (.ofDevices Bench.bare .standard) → (afterTyping image early).column = 0) ∧
      (afterTyping image [.slice 20, .service, .slice 4]).InStep Bench.output ∧
      (afterTyping image [.slice 20, .service, .slice 4]).world.output = "é\nx\nx             " := by
  obtain ⟨image, compiled, noFiles, inStep, column, shown⟩ := exists_compiled
    "PRINT \"é\"\nLINE INPUT A$\nPRINT A$,"
    (fun image => (sampleTyping image).files.length = 0 ∧
      (sampleTyping image).column = (Text.lastLine (sampleTyping image).world.output).length ∧
      (afterTyping image [.slice 20]).column = 0 ∧
      (afterTyping image [.slice 20, .service, .slice 4]).world.output = "é\nx\nx             ")
    (by decide +kernel)
  have files : (sampleTyping image).files.InStep := by
    rw [List.length_eq_zero_iff.mp noFiles]
    intro number file found
    cases found
  have atStart : ∀ early late, [.slice 20, .service, .slice 4] = early ++ .service :: late →
      (afterTyping image early).TakesLine (.ofDevices Bench.bare .standard) → (afterTyping image early).column = 0 := by
    intro early late same _
    have isFirst : early = [.slice 20] := by
      rcases early with _ | ⟨first, _ | ⟨second, _ | ⟨third, others⟩⟩⟩ <;> simp_all
    exact isFirst ▸ column
  obtain ⟨-, continues, -⟩ := columns_are_of_the_text (.ofDevices Bench.bare .standard) Bench.bare_equips
    (sampleTyping image) files [.slice 20, .service, .slice 4] (by decide)
  obtain ⟨text, -, stays⟩ := continues atStart
  exact ⟨image, compiled, files, inStep, atStart, stays.mpr (.inl inStep), shown⟩

/-- A line that is read behind a prompt leaves the column behind, and a comma ends two columns before the zone does. -/
theorem prompt_leaves_column : ∃ image,
    compile "INPUT A$\nPRINT \"A\", \"B\"" .standard = .ok image ∧
      (afterTyping image [.slice 20, .service]).output = none ∧
      (afterTyping image [.slice 20, .service]).currentColumn = 2 ∧
      (Text.lastLine (afterTyping image [.slice 20, .service]).world.output).length = 0 ∧
      (afterTyping image [.slice 20, .service]).world.output = "? x\n" ∧
      (afterTyping image [.slice 20, .service, .slice 20]).world.output = "? x\nA           B\n" :=
  exists_compiled _ _ (by decide +kernel)

end BasicLang
