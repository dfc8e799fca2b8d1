import BasicLang.Proofs.Action.Printing
import BasicLang.Proofs.Files.Table
import BasicLang.Proofs.Machine.Control

set_option autoImplicit false

namespace BasicLang

def Op.builtin? (registry : Registry) : Op → Option Builtin
  | .syscall name => registry.lookup? name
  | _ => none

namespace Run

variable {σ : Type}

def printedText : Builtin → Run σ String
  | .input => do
    let _ ← popTargets
    popText
  | .lineInput => do
    let _ ← popReference
    popText
  | builtin => itemText builtin

def openArguments : Run σ (Int × FileMode × String) := do
  let number ← popFileNumber
  let code ← popInt
  let path ← popText
  match FileMode.ofCode? code with
  | some mode => return (number, mode, path)
  | none => fail (.badFileMode code)

end Run

def askedFlushes (pending : Option Pending) : List Flush := (pending.map fun pending => pending.request.flushes).getD []

def firstDue (number : Int) (mode : FileMode) (path : String) : Int × Flush := (number, ⟨path, "", mode == .append⟩)

namespace Machine

variable {σ : Type}

def textOf (machine : Machine σ) (builtin : Builtin) : String :=
  ((Run.printedText builtin).on machine).1.toOption.getD ""

def opensBy? (machine : Machine σ) : Builtin → Option (Int × FileMode × String)
  | .openFile => (Run.openArguments.on machine).1.toOption.filter fun opened =>
      opened.2.1 != .input && (machine.files.get? opened.1).isNone
  | _ => none

def said (setup : Setup σ) (machine : Machine σ) (op : Op) : String :=
  ((op.builtin? setup.registry).map machine.textOf).getD ""

def opens? (setup : Setup σ) (machine : Machine σ) (op : Op) : Option (Int × FileMode × String) :=
  (op.builtin? setup.registry).bind machine.opensBy?

/-- What is open for output afterwards, and what has been closed and is asked to be written, is what was open before with
the text behind it, and what has been opened. -/
structure Balances (here : Machine σ) (text : String) (opened : Option (Int × FileMode × String))
    (closed : List (Int × Flush)) (files : FileTable) (pending : Option Pending) : Prop where
  ordered : files.Ordered
  balance : (closed ++ files.dues).Perm
    ((opened.map fun (number, mode, path) => firstDue number mode path).toList ++
      here.files.dues.map (creditTo here.output text))
  asked : askedFlushes pending = closed.map Prod.snd
  shut : ∀ due ∈ closed, files.isWritable due.1 = false
  unused : ∀ request number path, pending = some ⟨request, .openInput number path⟩ → files.get? number = none

def Balanced (here : Machine σ) (text : String) (opened : Option (Int × FileMode × String)) (after : Machine σ) : Prop :=
  ∃ closed, here.Balances text opened closed after.files after.pending

section Balancing

variable {here after : Machine σ} {text : String} {opened : Option (Int × FileMode × String)}

theorem balanced_open (ordered : after.files.Ordered) (waitsNot : after.pending = none)
    (balance : after.files.dues.Perm ((opened.map fun (number, mode, path) => firstDue number mode path).toList ++
      here.files.dues.map (creditTo here.output text))) : here.Balanced text opened after :=
  ⟨[], ordered, balance, by rw [waitsNot]; rfl, by simp, fun _ _ _ waits => by cases waitsNot.symm.trans waits⟩

theorem balanced_still (ordered : here.files.Ordered) (same : after.files = here.files) (waitsNot : after.pending = none) :
    here.Balanced "" none after := by
  refine balanced_open (same ▸ ordered) waitsNot ?_
  rw [FileTable.credit_nothing, same]
  exact .refl _

theorem balanced_all (files : after.files = []) (asked : (askedFlushes after.pending).Perm here.files.flushes)
    (opensNot : ∀ pending, after.pending = some pending → pending.completion.opens = false) :
    here.Balanced "" none after := by
  obtain ⟨closed, isAsked, all⟩ := here.files.dues_of_flushes asked
  refine ⟨closed, files ▸ List.Pairwise.nil, ?_, isAsked.symm, ?_, ?_⟩
  · rw [FileTable.credit_nothing, files, FileTable.dues_nil, List.append_nil]
    exact all
  · intro due _
    rw [files]
    rfl
  · intro request number path waits
    cases opensNot _ waits

theorem balanced_one {number : Int} {file : OpenFile} (ordered : here.files.Ordered)
    (found : here.files.get? number = some file) (files : after.files = here.files.erase number)
    (asked : askedFlushes after.pending = file.flush?.toList)
    (opensNot : ∀ pending, after.pending = some pending → pending.completion.opens = false) :
    here.Balanced "" none after := by
  obtain ⟨balance, shut⟩ := ordered.dues_erase found
  refine ⟨file.flush?.toList.map (number, ·), files ▸ ordered.erase number, ?_, ?_, ?_, ?_⟩
  · rw [FileTable.credit_nothing, files]
    exact balance
  · rw [asked, List.map_map]
    exact (List.map_id' _).symm
  · intro due isDue
    obtain ⟨flush, -, rfl⟩ := List.mem_map.mp isDue
    rw [files]
    exact shut
  · intro request other path waits
    cases opensNot _ waits

theorem balanced_printed {machine : Machine σ} {devices : Devices σ} (ordered : here.files.Ordered)
    (files : machine.files = here.files) (waitsNot : machine.pending = none)
    (prints : machine.Prints devices here.output after text) :
    here.Balanced text none after ∧ after.pending = none := by
  cases output : here.output with
  | none =>
    rw [output] at prints
    obtain rfl := (prints : after = _)
    refine ⟨balanced_open (files.symm ▸ ordered) waitsNot ?_, waitsNot⟩
    rw [output, show FileTable.dues _ = here.files.dues from congrArg FileTable.dues files]
    exact .of_eq (FileTable.credit_console text here.files.dues).symm
  | some number =>
    rw [output, Prints, files] at prints
    obtain ⟨file, found, isOutput, rfl⟩ | ⟨refused, rfl⟩ := prints
    · refine ⟨balanced_open (ordered.set number _) waitsNot ?_, waitsNot⟩
      rw [output, ← ordered.dues_write found isOutput]
      exact .refl _
    · refine ⟨balanced_open ordered waitsNot ?_, waitsNot⟩
      rw [output, ordered.dues_refused (FileTable.refused_iff.mpr refused)]
      exact .refl _

end Balancing

end Machine

namespace Run

variable {σ α β : Type} {setup : Setup σ} {here machine : Machine σ} {text : String}
  {opened : Option (Int × FileMode × String)}

section Operations

theorem preserved_files (holds : FileTable → Option Pending → Prop) :
    Preserved (fun machine : Machine σ => holds machine.files machine.pending) fun _ => True where
  pop := fun _ _ _ held _ => held
  reference := fun _ _ _ _ _ => trivial
  push := fun _ _ held => held
  write := fun _ _ _ held _ _ => held
  around := fun _ _ _ _ _ _ held => held

theorem preserved_balanced : Preserved (here.Balanced text opened) fun _ => True :=
  preserved_files fun files pending => ∃ closed, here.Balances text opened closed files pending

theorem awaited_balanced : Awaited (fun after => here.Balanced text opened after ∧ after.pending = none)
    (here.Balanced text opened) (fun _ => True) Pending.Quiet where
  at_once := fun _ held => held.1
  waits := by
    rintro machine request completion notices ⟨⟨closed, balances⟩, waitsNot⟩ - - ⟨saves, opensNot⟩
    refine ⟨closed, balances.ordered, balances.balance, ?_, balances.shut, ?_⟩
    · rw [← balances.asked, waitsNot]
      exact saves
    · rintro _ number path ⟨⟩
      cases opensNot

theorem meets_syscall {holds : Machine σ → Prop} (preserved : Preserved holds fun _ => True) {name : String}
    {builtin : Builtin} (found : setup.registry.lookup? name = some builtin)
    (ran : Meets (Run.builtin setup.devices builtin) machine (fun _ after => holds after)
      fun error after => error.isRecoverable = true → holds after) :
    Meets (syscall setup name) machine (fun _ after => holds after) fun _ _ => True := by
  have awaited : Awaited holds holds (fun _ => True) fun _ => False :=
    ⟨fun _ held => held, fun _ _ _ _ _ _ _ never => never.elim⟩
  rw [Meets, syscall, found]
  dsimp only
  rw [on_catch]
  rw [Meets] at ran
  cases outcome : (Run.builtin setup.devices builtin).on machine with
  | mk result after =>
    rw [outcome] at ran
    cases result with
    | ok _ => exact ran
    | error error =>
      cases recoverable : error.isRecoverable with
      | true =>
        have recovered := ends_recover preserved awaited error builtin.signature.returns after (ran recoverable)
        exact meets_weaken recovered (fun _ _ held => held) fun _ _ _ => trivial
      | false =>
        dsimp only
        rw [recoverable]
        trivial

theorem meets_write_back (waitsNot : machine.pending = none) (flushes : List Flush) :
    Meets (writeBack flushes : Run σ Unit) machine (fun _ after => after.files = machine.files ∧
      askedFlushes after.pending = flushes ∧ ∀ pending, after.pending = some pending → pending.completion.opens = false)
      fun _ _ => False := by
  rw [Meets, writeBack]
  cases flushes with
  | nil => exact ⟨rfl, by rw [waitsNot]; rfl, fun _ waits => by cases waitsNot.symm.trans waits⟩
  | cons flush rest =>
    obtain ⟨notices, waits⟩ := on_suspend waitsNot (.saveFiles (flush :: rest)) .ignore
    rw [if_neg (by simp), waits]
    exact ⟨rfl, rfl, by rintro _ ⟨⟩; rfl⟩

end Operations

section Builtins

def Unmoved (here after : Machine σ) : Prop := after.files = here.files ∧ after.pending = none

theorem preserved_unmoved : Preserved (Unmoved here) fun _ => True :=
  preserved_files fun files pending => files = here.files ∧ pending = none

/-- What an action prints, opens and closes is accounted for, also where the program goes on after an error. -/
def Accounts (here : Machine σ) (text : String) (opened : Option (Int × FileMode × String)) (action : Run σ Unit)
    (machine : Machine σ) : Prop :=
  Meets action machine (fun _ after => here.Balanced text opened after)
    fun error after => error.isRecoverable = true → here.Balanced text opened after

variable (ordered : here.files.Ordered)

include ordered

theorem Unmoved.balanced (unmoved : Unmoved here machine) : here.Balanced "" none machine :=
  Machine.balanced_still ordered unmoved.1 unmoved.2

theorem accounts_fail (fault : Fault) (unmoved : Unmoved here machine) : Accounts here "" none (fail fault) machine :=
  fun _ => unmoved.balanced ordered

theorem accounts_after {first : Run σ α} {next : α → Run σ Unit} {result : α → Prop}
    (maintains : Maintains (Unmoved here) first result) (unmoved : Unmoved here machine)
    (rest : ∀ value after, Unmoved here after → Accounts here "" none (next value) after) :
    Accounts here "" none (first >>= next) machine :=
  meets_seq (meets_weaken (maintains machine unmoved) (fun value after kept => rest value after kept.1)
    fun _ _ kept _ => kept.balanced ordered)

omit ordered in
theorem accounts_write_all {flushes : List Flush} (all : flushes.Perm here.files.flushes) (files : machine.files = [])
    (waitsNot : machine.pending = none) : Accounts here "" none (writeBack flushes) machine :=
  meets_weaken (meets_write_back waitsNot _)
    (fun _ _ closed => Machine.balanced_all (closed.1.trans files) (closed.2.1 ▸ all) closed.2.2) fun _ _ => False.elim

theorem accounts_write_one {number : Int} {file : OpenFile} (found : here.files.get? number = some file)
    (files : machine.files = here.files.erase number) (waitsNot : machine.pending = none) :
    Accounts here "" none (writeBack file.flush?.toList) machine :=
  meets_weaken (meets_write_back waitsNot _)
    (fun _ _ closed => Machine.balanced_one ordered found (closed.1.trans files) closed.2.1 closed.2.2)
    fun _ _ => False.elim

theorem accounts_close (devices : Devices σ) (unmoved : Unmoved here machine) :
    Accounts here "" none (closeFile devices) machine := by
  refine accounts_after ordered (maintains_pop_count preserved_unmoved 1) unmoved fun count machine unmoved => ?_
  split
  · refine accounts_after ordered (maintains_file_number preserved_unmoved) unmoved fun number machine unmoved => ?_
    rw [Accounts, Meets, on_seq (on_get machine), unmoved.1]
    cases found : here.files.get? number with
    | none => exact accounts_fail ordered _ unmoved
    | some file =>
      dsimp only
      rw [on_seq (on_modify _ _)]
      exact accounts_write_one ordered found (congrArg (FileTable.erase · number) unmoved.1) unmoved.2
  · rw [Accounts, Meets, on_seq (on_get machine), on_seq (on_modify _ _)]
    exact accounts_write_all (unmoved.1 ▸ machine.flushes_perm devices) rfl unmoved.2

def openAs (number : Int) (mode : FileMode) (path : String) : Run σ Unit := do
  if ((← get).files.get? number).isSome then fail (.fileAlreadyOpen number)
  else
    match mode with
    | .input => suspend (.loadFile path) (.openInput number path)
    | _ => setFile number (.output path mode)

omit ordered in
theorem open_arguments :
    (openFile : Run σ Unit) = openArguments >>= fun (number, mode, path) => openAs number mode path := by
  simp only [openFile, openArguments, bind_assoc]
  congr 1
  funext number
  congr 1
  funext code
  congr 1
  funext path
  cases FileMode.ofCode? code <;> rfl

theorem accounts_open (waitsNot : here.pending = none) : Accounts here "" (here.opensBy? .openFile) openFile here := by
  have arguments : Maintains (Unmoved here) (openArguments : Run σ _) fun _ => True := by
    refine maintains_seq (maintains_file_number preserved_unmoved) fun number _ => ?_
    refine maintains_seq (maintains_pop_int preserved_unmoved) fun code _ => ?_
    refine maintains_seq (maintains_pop_text preserved_unmoved) fun path _ => ?_
    cases FileMode.ofCode? code with
    | some mode => exact maintains_value _
    | none => exact maintains_fail _
  have taken := arguments here ⟨rfl, waitsNot⟩
  rw [open_arguments, Accounts, Meets, on_bind, Machine.opensBy?]
  rw [Meets] at taken
  cases ran : openArguments.on here with
  | mk result after =>
    rw [ran] at taken
    cases result with
    | error error => exact fun _ => Unmoved.balanced ordered taken
    | ok opened =>
      obtain ⟨number, mode, path⟩ := opened
      obtain ⟨unmoved, -⟩ := taken
      dsimp only
      unfold openAs
      rw [on_seq (on_get after), unmoved.1]
      cases found : here.files.get? number with
      | some file =>
        have nothing : Option.filter (fun opened => opened.2.1 != .input && (here.files.get? opened.1).isNone)
            (some (number, mode, path)) = none := by simp [found]
        exact fun _ => nothing.symm ▸ unmoved.balanced ordered
      | none =>
        cases mode with
        | input =>
          obtain ⟨notices, waits⟩ := on_suspend unmoved.2 (.loadFile path) (.openInput number path)
          dsimp only [Option.isSome_none]
          rw [if_neg Bool.false_ne_true, waits]
          refine ⟨[], unmoved.1 ▸ ordered, ?_, rfl, by simp, ?_⟩
          · rw [FileTable.credit_nothing]
            exact .of_eq (congrArg FileTable.dues unmoved.1)
          · rintro _ _ _ ⟨⟩
            exact (congrArg (FileTable.get? · number) unmoved.1).trans found
        | output | append =>
          dsimp only [Option.isSome_none]
          rw [if_neg Bool.false_ne_true, setFile, on_modify, unmoved.1]
          refine Machine.balanced_open (ordered.set number _) unmoved.2 ?_
          rw [FileTable.credit_nothing, Except.toOption, Option.filter_some, found]
          exact ordered.dues_open path (by simp) found

theorem accounts_print (devices : Devices σ) (text : String) (unmoved : Unmoved here machine)
    (output : machine.output = here.output) : Meets (print devices text) machine
      (fun _ after => here.Balanced text none after ∧ after.pending = none)
      fun error after => error.isRecoverable = true → here.Balanced text none after := by
  refine meets_weaken (on_print machine devices text) (fun _ after prints => ?_) ?_
  · rw [output] at prints
    exact Machine.balanced_printed ordered unmoved.1 unmoved.2 prints
  · rintro error after ⟨same, number, -, selected, refused⟩ -
    have prints : machine.Prints devices (some number) { machine with status := 52 } text := .inr ⟨refused, rfl⟩
    rw [selected.symm.trans output] at prints
    exact same ▸ (Machine.balanced_printed ordered unmoved.1 unmoved.2 prints).1

theorem accounts_text (waitsNot : here.pending = none) (devices : Devices σ) {builtin : Builtin}
    (isText : builtin ∈ Builtin.texts) : Accounts here (here.textOf builtin) none (Run.builtin devices builtin) here := by
  have isItem : (printedText builtin : Run σ String) = itemText builtin := by
    revert isText
    cases builtin <;> first | exact fun _ => rfl | exact fun isText => absurd isText (by decide)
  have pops := pops_item_text builtin here
  rw [text_builtin devices isText, Accounts, Meets, on_bind, Machine.textOf, isItem]
  rw [Meets] at pops
  cases computed : (itemText builtin).on here with
  | mk result between =>
    rw [computed] at pops
    cases result with
    | error error =>
      obtain ⟨fatal, -⟩ := pops
      exact fun recoverable => by cases fatal.symm.trans recoverable
    | ok text =>
      obtain ⟨stack, rfl⟩ := pops
      have printed : Meets (print devices text) { here with stack } _ _ :=
        accounts_print ordered devices text ⟨rfl, waitsNot⟩ rfl
      exact meets_weaken printed (fun _ _ both => both.1) fun _ _ held => held

theorem accounts_prompt (waitsNot : here.pending = none) (devices : Devices σ) {popFirst : Run σ α} (pops : Pops popFirst)
    {wait : α → Completion} (opensNot : ∀ target, (wait target).opens = false) :
    Accounts here (((do let _ ← popFirst; popText : Run σ String).on here).1.toOption.getD "") none (do
      let target ← popFirst
      let prompt ← popText
      print devices prompt
      suspend .readLine (wait target)) here := by
  have first := pops here
  rw [Accounts, Meets, on_bind, on_bind]
  rw [Meets] at first
  cases ran : popFirst.on here with
  | mk result between =>
    rw [ran] at first
    cases result with
    | error error =>
      obtain ⟨fatal, -⟩ := first
      exact fun recoverable => by cases fatal.symm.trans recoverable
    | ok target =>
      obtain ⟨stack, rfl⟩ := first
      have second := pops_text { here with stack }
      dsimp only
      rw [on_bind]
      rw [Meets] at second
      cases found : (popText : Run σ String).on { here with stack } with
      | mk result between =>
        rw [found] at second
        cases result with
        | error error =>
          obtain ⟨fatal, -⟩ := second
          exact fun recoverable => by cases fatal.symm.trans recoverable
        | ok prompt =>
          obtain ⟨stack, rfl⟩ := second
          have printed : Meets (print devices prompt) { here with stack } _ _ :=
            accounts_print ordered devices prompt ⟨rfl, waitsNot⟩ rfl
          refine meets_seq (meets_weaken printed (fun _ after both => ?_) fun _ _ held => held)
          exact meets_weaken (ends_suspend awaited_balanced .readLine (wait target) (fun _ _ => trivial)
            ⟨rfl, opensNot target⟩ after both) (fun _ _ held => held) fun _ _ held _ => held.1

def Reads (here after : Machine σ) : Prop :=
  after.files.Ordered ∧ after.files.dues = here.files.dues ∧ after.pending = none

omit ordered in
theorem preserved_reads : Preserved (Reads here) fun _ => True :=
  preserved_files fun files pending => files.Ordered ∧ files.dues = here.files.dues ∧ pending = none

omit ordered in
theorem Reads.balanced (reads : Reads here machine) : here.Balanced "" none machine :=
  Machine.balanced_open reads.1 reads.2.2 (.of_eq (reads.2.1.trans (FileTable.credit_nothing _ _).symm))

omit ordered in
theorem reads_input_file {next : OpenFile → Run σ β} (number : Int)
    (rest : ∀ file machine, file.isInput = true →
      (∀ other, other.isInput = true → Reads here { machine with files := machine.files.set number other }) →
      Meets (next file) machine (fun _ after => Reads here after ∧ True) fun _ after => Reads here after) :
    Maintains (Reads here) (inputFile number >>= next) fun _ => True := by
  rintro machine ⟨isOrdered, same, waitsNot⟩
  rw [Meets, on_bind, inputFile, on_seq (on_get machine)]
  cases found : machine.files.get? number with
  | none => exact ⟨isOrdered, same, waitsNot⟩
  | some file =>
    cases isInput : file.isInput with
    | false =>
      dsimp only
      rw [isInput]
      exact ⟨isOrdered, same, waitsNot⟩
    | true =>
      dsimp only
      rw [isInput]
      have refused : machine.files.isWritable number = false :=
        FileTable.refused_iff.mpr fun other isOther => Option.some.inj (found.symm.trans isOther) ▸ isInput
      exact rest file machine isInput fun other isInput =>
        ⟨isOrdered.set number other, (isOrdered.dues_set_input isInput refused).trans same, waitsNot⟩

omit ordered in
theorem reads_fields (number : Int) (targets : List Cell) :
    Maintains (Reads here) (readFields number targets : Run σ (List Value)) fun _ => True := by
  induction targets with
  | nil => exact maintains_value _
  | cons target rest ih =>
    refine reads_input_file number fun file machine isInput moves => ?_
    have moved := moves file.readField.2 (file.read_field_keeps_input.trans isInput)
    generalize file.readField = field at moved
    refine meets_seq ?_
    cases field.1 with
    | none => exact moved
    | some text => exact maintains_seq maintains_get (fun _ _ => maintains_seq ih fun _ _ => maintains_value _) _ moved

omit ordered in
theorem reads_file_input : Maintains (Reads here) (fileInput : Run σ Unit) fun _ => True := by
  refine maintains_seq (maintains_pop_targets preserved_reads) fun targets _ => ?_
  refine maintains_seq (maintains_file_number preserved_reads) fun number _ => ?_
  refine maintains_seq (maintains_input_file number) fun _ _ => ?_
  refine maintains_seq (reads_fields number targets) fun values _ => ?_
  exact maintains_assign_all preserved_reads _ fun _ _ => trivial

omit ordered in
theorem reads_file_line : Maintains (Reads here) (fileLineInput : Run σ Unit) fun _ => True := by
  refine maintains_seq (maintains_pop_reference preserved_reads) fun target _ => ?_
  refine maintains_seq (maintains_file_number preserved_reads) fun number _ => ?_
  refine reads_input_file number fun file machine isInput moves => ?_
  have moved := moves file.readLine.2 (file.read_line_keeps_input.trans isInput)
  generalize file.readLine = line at moved
  refine meets_seq ?_
  cases line.1 with
  | some text => exact maintains_assign preserved_reads trivial _ _ moved
  | none => exact moved

theorem accounts_read (waitsNot : here.pending = none) {action : Run σ Unit}
    (reads : Maintains (Reads here) action fun _ => True) : Accounts here "" none action here :=
  meets_weaken (reads here ⟨ordered, rfl, waitsNot⟩) (fun _ _ held => held.1.balanced) fun _ _ held _ => held.balanced

theorem accounts_builtin (waitsNot : here.pending = none) (devices : Devices σ) {builtin : Builtin}
    (isFiling : builtin.isFiling = true) :
    Accounts here (here.textOf builtin) (here.opensBy? builtin) (Run.builtin devices builtin) here := by
  cases builtin with
  | input =>
    have pops : Pops (popTargets : Run σ _) := pops_seq pops_int fun _ => pops_many pops_reference _ _
    exact accounts_prompt ordered waitsNot devices pops fun _ => rfl
  | lineInput => exact accounts_prompt ordered waitsNot devices pops_reference fun _ => rfl
  | openFile => exact accounts_open ordered waitsNot
  | closeFile => exact accounts_close ordered devices ⟨rfl, waitsNot⟩
  | fileInput => exact accounts_read ordered waitsNot reads_file_input
  | fileLineInput => exact accounts_read ordered waitsNot reads_file_line
  | print | printZone | printNewline | printUsing | write => exact accounts_text ordered waitsNot devices (by decide)
  | _ => cases isFiling

end Builtins

section Instructions

theorem aside_pending : Aside (Machine.pending : Machine σ → Option Pending) where
  computing := fun _ _ _ _ => rfl
  around := fun _ _ _ _ _ _ => rfl

theorem apart_files : Apart (Machine.files : Machine σ → FileTable) where
  computing := fun _ _ _ _ => rfl
  around := fun _ _ _ _ _ _ => rfl
  control := fun _ _ _ _ _ _ _ => rfl

theorem quiet_text {builtin : Builtin} (isQuiet : builtin.isFiling = false) : here.textOf builtin = "" := by
  cases builtin <;> first | rfl | cases isQuiet

theorem quiet_opens {builtin : Builtin} (isQuiet : builtin.isFiling = false) : here.opensBy? builtin = none := by
  cases builtin <;> first | rfl | cases isQuiet

theorem syscall_balances (setup : Setup σ) (name : String) (ordered : here.files.Ordered) (waitsNot : here.pending = none) :
    Meets (execute setup (.syscall name)) here (fun _ after =>
      here.Balanced (here.said setup (.syscall name)) (here.opens? setup (.syscall name)) after) fun _ _ => True := by
  rw [Machine.said, Machine.opens?, Op.builtin?]
  cases found : setup.registry.lookup? name with
  | none =>
    rw [Meets, execute, syscall, found]
    trivial
  | some builtin =>
    dsimp only [Option.map_some, Option.getD_some, Option.bind_some]
    cases isFiling : builtin.isFiling with
    | true => exact meets_syscall preserved_balanced found (accounts_builtin ordered waitsNot setup.devices isFiling)
    | false =>
      rw [quiet_text isFiling, quiet_opens isFiling]
      have quiet : (setup.registry.lookup? name).any Builtin.isFiling = false := by rw [found]; exact isFiling
      have unmoved : here.Balanced "" none here ∧ here.pending = none :=
        ⟨Machine.balanced_still ordered rfl waitsNot, waitsNot⟩
      refine meets_weaken (ends_syscall (preserved_files fun files pending =>
        (∃ closed, here.Balances "" none closed files pending) ∧ pending = none) awaited_balanced setup
        setup.devices.within_any name (fun _ _ _ held => held) (fun isFiling => ?_)
        (fun _ isQuiet => isQuiet quiet) here unmoved) (fun _ _ held => held) fun _ _ _ => trivial
      cases quiet.symm.trans isFiling

-- An operation that neither calls a builtin nor ends the program waits for nothing.
theorem pending_stays (setup : Setup σ) {op : Op} (notEnd : op ≠ .stop) (noCall : ∀ name, op ≠ .syscall name) :
    Meets (execute setup op) here (fun _ after => after.pending = here.pending) fun _ _ => True := by
  have leads (same : ∀ control after : Control, op.Leads control after → after.pending = control.pending) :
      Meets (execute setup op) here (fun _ after => after.pending = here.pending) fun _ _ => True :=
    meets_weaken (execute_moves setup op here) (fun _ _ moved => same _ _ moved) fun _ _ _ => trivial
  cases op with
  | stop => cases notEnd rfl
  | syscall name => cases noCall name rfl
  | jump target => exact leads fun _ _ ⟨_, _, same⟩ => same ▸ rfl
  | jumpIfZero target | jumpIfNonzero target | forLoop target =>
    exact leads fun _ _ moved => by obtain same | ⟨_, _, same⟩ := moved <;> exact same ▸ rfl
  | call target | gosub target => exact leads fun _ _ ⟨_, _, _, same⟩ => same ▸ rfl
  | ret => exact leads fun _ _ ⟨_, _, _, _, same⟩ => same ▸ rfl
  | onEvent target => exact leads fun _ _ ⟨_, _, _, same⟩ => same ▸ rfl
  | _ =>
    exact meets_weaken (computing_stays aside_pending setup rfl (fun _ _ _ => rfl) (fun _ _ _ => rfl) here.pending here rfl)
      (fun _ _ kept => kept.1) fun _ _ _ => trivial

theorem execute_balances (setup : Setup σ) (op : Op) (ordered : here.files.Ordered) (waitsNot : here.pending = none) :
    Meets (execute setup op) here (fun _ after => here.Balanced (here.said setup op) (here.opens? setup op) after)
      fun _ _ => True := by
  by_cases isEnd : op = .stop
  · subst isEnd
    rw [Meets, execute, stop, on_seq (on_get here), on_seq (on_modify _ _)]
    exact meets_weaken (accounts_write_all (here.flushes_perm setup.devices) rfl waitsNot) (fun _ _ held => held)
      fun _ _ _ => trivial
  by_cases isCall : ∃ name, op = .syscall name
  · obtain ⟨name, rfl⟩ := isCall
    exact syscall_balances setup name ordered waitsNot
  · have calls (name : String) (same : op = .syscall name) : False := isCall ⟨name, same⟩
    have leaves : ¬op.Files setup.registry := by
      cases op <;> first | exact id | cases isEnd rfl | cases calls _ rfl
    have nothing : op.builtin? setup.registry = none := by
      cases op <;> first | rfl | cases calls _ rfl
    have pending : Meets (execute setup op) here (fun _ after => after.pending = here.pending) fun _ _ => True :=
      pending_stays setup isEnd calls
    have files := execute_stays apart_files setup op (fun changes => absurd changes leaves) (fun _ _ _ => rfl)
      (fun _ _ _ => rfl) (fun _ _ _ => rfl) here.files here rfl
    rw [Machine.said, Machine.opens?, nothing]
    rw [Meets] at pending files ⊢
    cases ran : (execute setup op).on here with
    | mk result after =>
      rw [ran] at pending files
      cases result with
      | error error => trivial
      | ok _ => exact Machine.balanced_still ordered files.1 (pending.trans waitsNot)

end Instructions

end Run

end BasicLang
