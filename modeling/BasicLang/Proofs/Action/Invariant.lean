import BasicLang.Machine.Schedule
import BasicLang.Proofs.Action.StackUse
import BasicLang.Proofs.Files.Cursor
import BasicLang.Proofs.Machine.Stepping
import Mathlib.Logic.Relation

set_option autoImplicit false

namespace BasicLang

def Completion.targets : Completion → List Cell
  | .input targets => targets
  | .lineInput target => [target]
  | _ => []

def Completion.opens : Completion → Bool
  | .openInput _ _ => true
  | _ => false

def Request.flushes : Request → List Flush
  | .saveFiles flushes => flushes
  | _ => []

def Pending.Quiet (pending : Pending) : Prop := pending.request.flushes = [] ∧ pending.completion.opens = false

def Builtin.isFiling : Builtin → Bool
  | .print | .printZone | .printNewline | .printUsing | .write | .input | .lineInput => true
  | .openFile | .closeFile | .fileInput | .fileLineInput => true
  | _ => false

/-- What an operation does to open files: one for input is opened or read on, one for output is opened or written, and one
or all are closed. -/
inductive FileTable.Changes (files : FileTable) : FileTable → Prop where
  | loaded (number : Int) (path text : String) : Changes files (files.set number (.input path text))
  | opened (number : Int) (path : String) (mode : FileMode) : Changes files (files.set number (.output path mode))
  | read {number : Int} {file after : OpenFile} (found : files.get? number = some file) (isInput : file.isInput = true)
      (stays : after.isInput = true) : Changes files (files.set number after)
  | written {number : Int} {file : OpenFile} (found : files.get? number = some file) (isOutput : file.isInput = false)
      (text : String) : Changes files (files.set number (file.write text))
  | closed (number : Int) : Changes files (files.erase number)
  | cleared : Changes files []

inductive Devices.Stirs {σ : Type} (devices : Devices σ) : σ → σ → Prop where
  | keyed (world : σ) : Stirs devices world (devices.console.key world).2
  | cleared (world : σ) : Stirs devices world (devices.console.clear world)
  | located (row column : Option Int) (world : σ) : Stirs devices world (devices.console.locate row column world)
  | colored (foreground background : Option Int) (world : σ) :
      Stirs devices world (devices.console.color foreground background world)
  | beeped (world : σ) : Stirs devices world (devices.console.beep world)
  | played {audio : Audio σ} (some : devices.audio = some audio) (music : String) (world : σ) :
      Stirs devices world (audio.play music world).2
  | sounded {audio : Audio σ} (some : devices.audio = some audio) (frequency duration : Float) (world : σ) :
      Stirs devices world (audio.sound frequency duration world).2
  | sampled {audio : Audio σ} (some : devices.audio = some audio) (name : String) (world : σ) :
      Stirs devices world (audio.playLoaded name world).2
  | sent {network : Network σ} (some : devices.network = some network) (handle : Int) (message : String) (world : σ) :
      Stirs devices world (network.send handle message world).2
  | received {network : Network σ} (some : devices.network = some network) (handle : Int) (world : σ) :
      Stirs devices world (network.receive handle world).2
  | signalled {bus : Bus σ} (some : devices.bus = some bus) (key value : String) (world : σ) :
      Stirs devices world (bus.write key value world).2
  | sensed {bus : Bus σ} (some : devices.bus = some bus) (key : String) (world : σ) :
      Stirs devices world (bus.read key world).2
  | polled {bus : Bus σ} (some : devices.bus = some bus) (world : σ) : Stirs devices world (bus.arrivals world).2
  | performed {request : Request} (noLine : request ≠ .readLine) (world : σ) :
      Stirs devices world (devices.perform request world).2

/-- What operations do to the world and to the column of the console at once. -/
structure Devices.Within {σ : Type} (devices : Devices σ) (moves : σ × Nat → σ × Nat → Prop) : Prop where
  prints : ∀ text world column, moves (world, column) (devices.console.print text world, columnAfter column text)
  stirs : ∀ world after column, devices.Stirs world after → moves (world, column) (after, column)

theorem Devices.within_any {σ : Type} (devices : Devices σ) : devices.Within fun _ _ => True :=
  ⟨fun _ _ _ => trivial, fun _ _ _ _ => trivial⟩

def Store.Admits (store : Store) (cell : Cell) (value : Value) : Prop :=
  store.ty cell = .null ∨ ∃ source, (store.ty cell).convert source = .ok value

namespace Run

variable {σ α β : Type} {holds last : Machine σ → Prop} {free : Cell → Prop} {asks : Pending → Prop}
  {moves : σ × Nat → σ × Nat → Prop}

def Maintains (holds : Machine σ → Prop) (action : Run σ α) (result : α → Prop) : Prop :=
  ∀ machine, holds machine →
    Meets action machine (fun found after => holds after ∧ result found) fun _ after => holds after

def Ends (holds last : Machine σ → Prop) (action : Run σ α) : Prop :=
  ∀ machine, holds machine → Meets action machine (fun _ after => last after) fun _ after => holds after

/-- What the operations that builtins are made of leave true, where only free cells are on the stack, and where the world
and the column of the console only move as the devices let them. -/
structure PreservedWithin (moves : σ × Nat → σ × Nat → Prop) (holds : Machine σ → Prop) (free : Cell → Prop) : Prop where
  pop : ∀ machine item rest, holds machine → machine.stack = item :: rest → holds { machine with stack := rest }
  reference : ∀ machine cell rest, holds machine → machine.stack = .reference cell :: rest → free cell
  push : ∀ machine value, holds machine → holds { machine with stack := .value value :: machine.stack }
  write : ∀ machine cell value, holds machine → free cell → machine.store.Admits cell value →
    holds { machine with store := machine.store.write cell value }
  around : ∀ machine world column status generator,
    Relation.ReflGen moves (machine.world, machine.column) (world, column) → holds machine →
      holds { machine with world, column, status, generator }

abbrev Preserved (holds : Machine σ → Prop) (free : Cell → Prop) : Prop := PreservedWithin (fun _ _ => True) holds free

def Refiled (holds : Machine σ → Prop) : Prop :=
  ∀ machine files, machine.files.Changes files → holds machine → holds { machine with files }

structure Awaited (holds last : Machine σ → Prop) (free : Cell → Prop) (asks : Pending → Prop) : Prop where
  at_once : ∀ machine, holds machine → last machine
  waits : ∀ machine request completion notices, holds machine → machine.pending = none →
    (∀ cell ∈ completion.targets, free cell) → asks ⟨request, completion⟩ →
    last { machine with pending := some ⟨request, completion⟩, phase := .suspended, notices }

section Rules

variable {result : α → Prop} {final : β → Prop}

theorem maintains_unit {value : α} (isResult : result value) : Maintains holds (pure value) result :=
  fun _ held => ⟨held, isResult⟩

theorem maintains_seq {first : Run σ α} {next : α → Run σ β} (maintains : Maintains holds first result)
    (rest : ∀ value, result value → Maintains holds (next value) final) :
    Maintains holds (first >>= next) final := by
  intro machine held
  refine meets_seq (meets_weaken (maintains machine held) ?_ fun _ _ stays => stays)
  rintro value after ⟨stays, isResult⟩
  exact rest value isResult after stays

theorem maintains_weaken {action : Run σ α} {other : α → Prop} (maintains : Maintains holds action result)
    (view : ∀ value, result value → other value) : Maintains holds action other :=
  fun machine held => meets_weaken (maintains machine held) (fun value _ both => ⟨both.1, view value both.2⟩)
    fun _ _ stays => stays

theorem maintains_fail (fault : Fault) : Maintains holds (fail fault) result := fun _ held => held

theorem maintains_get : Maintains holds (get : Run σ (Machine σ)) holds := fun _ held => ⟨held, held⟩

theorem maintains_modify {change : Machine σ → Machine σ} (keeps : ∀ machine, holds machine → holds (change machine)) :
    Maintains holds (modify change : Run σ Unit) fun _ => True :=
  fun machine held => ⟨keeps machine held, trivial⟩

theorem maintains_modify_get {change : Machine σ → α × Machine σ}
    (keeps : ∀ machine, holds machine → holds (change machine).2 ∧ result (change machine).1) :
    Maintains holds (modifyGet change : Run σ α) result :=
  fun machine held => keeps machine held

theorem maintains_unless {condition : Prop} [Decidable condition] (fault : Fault) {action : Run σ α}
    (maintains : Maintains holds action result) :
    Maintains holds (if condition then fail fault else action) result := by
  split
  · exact maintains_fail fault
  · exact maintains

theorem ends_seq {first : Run σ α} {next : α → Run σ β} (maintains : Maintains holds first result)
    (rest : ∀ value, result value → Ends holds last (next value)) : Ends holds last (first >>= next) := by
  intro machine held
  refine meets_seq (meets_weaken (maintains machine held) ?_ fun _ _ stays => stays)
  rintro value after ⟨stays, isResult⟩
  exact rest value isResult after stays

theorem ends_fail (fault : Fault) : Ends holds last (fail fault : Run σ α) := fun _ held => held

theorem ends_at_once (awaited : Awaited holds last free asks) {action : Run σ α}
    (maintains : Maintains holds action result) : Ends holds last action :=
  fun machine held => meets_weaken (maintains machine held) (fun _ after both => awaited.at_once after both.1)
    fun _ _ stays => stays

theorem ends_suspend (awaited : Awaited holds last free asks) (request : Request) (completion : Completion)
    (isFree : ∀ cell ∈ completion.targets, free cell) (asked : asks ⟨request, completion⟩) :
    Ends holds last (suspend request completion : Run σ Unit) := by
  intro machine held
  cases waits : machine.pending with
  | none =>
    obtain ⟨notices, suspended⟩ := on_suspend waits request completion
    rw [Meets, suspended]
    exact awaited.waits machine request completion notices held waits isFree asked
  | some pending =>
    rw [Meets, suspend, on_seq (on_get machine), waits]
    exact held

end Rules

section Operations

variable (preserved : PreservedWithin moves holds free)

include preserved

theorem maintains_pop :
    Maintains holds (pop : Run σ StackItem) fun item => ∀ cell, item = .reference cell → free cell := by
  intro machine held
  cases stack : machine.stack with
  | nil =>
    rw [Meets, pop, on_seq (on_get machine), stack]
    exact held
  | cons item rest =>
    rw [Meets, on_pop stack]
    refine ⟨preserved.pop machine item rest held stack, ?_⟩
    rintro cell rfl
    exact preserved.reference machine cell rest held stack

theorem maintains_pop_value : Maintains holds (popValue : Run σ Value) fun _ => True := by
  refine maintains_seq (maintains_pop preserved) fun item _ => ?_
  cases item with
  | value value => exact maintains_unit trivial
  | reference cell => exact maintains_seq maintains_get fun _ _ => maintains_unit trivial

theorem maintains_pop_reference : Maintains holds (popReference : Run σ Cell) free := by
  refine maintains_seq (maintains_pop preserved) fun item isFree => ?_
  cases item with
  | value value => exact maintains_fail _
  | reference cell => exact maintains_unit (isFree cell rfl)

theorem maintains_pop_text : Maintains holds (popText : Run σ String) fun _ => True := by
  refine maintains_seq (maintains_pop_value preserved) fun value _ => ?_
  cases value with
  | string text => exact maintains_unit trivial
  | null => exact maintains_unit trivial
  | _ => exact maintains_fail _

theorem maintains_pop_number : Maintains holds (popNumber : Run σ Float) fun _ => True := by
  refine maintains_seq (maintains_pop_value preserved) fun value _ => ?_
  cases value.toDouble? with
  | some number => exact maintains_unit trivial
  | none => exact maintains_fail _

theorem maintains_pop_int : Maintains holds (popInt : Run σ Int) fun _ => True :=
  maintains_seq (maintains_pop_number preserved) fun _ _ => maintains_unit trivial

theorem maintains_pop_int32 : Maintains holds (popInt32 : Run σ Int) fun _ => True :=
  maintains_seq (maintains_pop_int preserved) fun _ _ => maintains_unit trivial

theorem maintains_pop_count (most : Nat) : Maintains holds (popArgumentCount most : Run σ Nat) fun _ => True := by
  refine maintains_seq (maintains_pop_int preserved) fun count _ => ?_
  split
  · exact maintains_unit trivial
  · exact maintains_fail _

omit preserved in
theorem maintains_pop_many {popOne : Run σ α} {result : α → Prop} (maintains : Maintains holds popOne result)
    (count : Nat) (items : List α) (before : ∀ item ∈ items, result item) :
    Maintains holds (popMany popOne count items) fun found => ∀ item ∈ found, result item := by
  induction count generalizing items with
  | zero => exact maintains_unit before
  | succ count ih =>
    refine maintains_seq maintains fun item isResult => ih (item :: items) ?_
    exact List.forall_mem_cons.mpr ⟨isResult, before⟩

theorem maintains_pop_values : Maintains holds (popValues : Run σ (List Value)) fun _ => True := by
  refine maintains_seq (maintains_pop_int preserved) fun count _ => maintains_unless _ ?_
  exact maintains_weaken (maintains_pop_many (maintains_pop_value preserved) _ [] (by simp)) fun _ _ => trivial

theorem maintains_pop_targets :
    Maintains holds (popTargets : Run σ (List Cell)) fun targets => ∀ cell ∈ targets, free cell :=
  maintains_seq (maintains_pop_int preserved) fun _ _ =>
    maintains_pop_many (maintains_pop_reference preserved) _ [] (by simp)

theorem maintains_push (value : Value) : Maintains holds (push value : Run σ Unit) fun _ => True :=
  maintains_modify fun machine held => preserved.push machine value held

theorem maintains_around {change : Machine σ → Machine σ}
    (only : ∀ machine, ∃ world column status generator,
      Relation.ReflGen moves (machine.world, machine.column) (world, column) ∧
        change machine = { machine with world, column, status, generator }) :
    Maintains holds (modify change : Run σ Unit) fun _ => True := by
  refine maintains_modify fun machine held => ?_
  obtain ⟨world, column, status, generator, moved, same⟩ := only machine
  rw [same]
  exact preserved.around machine world column status generator moved held

theorem maintains_assign {cell : Cell} (isFree : free cell) (value : Value) :
    Maintains holds (assign cell value : Run σ Unit) fun _ => True := by
  intro machine held
  rw [Meets, assign, on_seq (on_get machine)]
  dsimp only
  by_cases absent : machine.store.ty cell = .null
  · rw [if_pos absent]
    exact ⟨preserved.write machine cell value held isFree (.inl absent), trivial⟩
  · rw [if_neg absent]
    cases made : (machine.store.ty cell).convert value with
    | error fault => exact held
    | ok converted => exact ⟨preserved.write machine cell converted held isFree (.inr ⟨value, made⟩), trivial⟩

theorem maintains_status (code : Nat) : Maintains holds (setStatus code : Run σ Unit) fun _ => True :=
  maintains_around preserved fun _ => ⟨_, _, code, _, .refl, rfl⟩

theorem maintains_on_world {change : σ → σ} (stirs : ∀ world column, moves (world, column) (change world, column)) :
    Maintains holds (onWorld change) fun _ => True :=
  maintains_around preserved fun machine => ⟨change machine.world, _, _, _, .single (stirs _ _), rfl⟩

omit preserved in
theorem maintains_set_file (refiled : Refiled holds) (number : Int) (file : OpenFile)
    (changes : ∀ files : FileTable, files.Changes (files.set number file)) :
    Maintains holds (setFile number file : Run σ Unit) fun _ => True :=
  maintains_modify fun machine held => refiled machine _ (changes machine.files) held

theorem maintains_device {action : DeviceAction σ α}
    (stirs : ∀ world column, moves (world, column) ((action world).2, column)) :
    Maintains holds (device action : Run σ α) fun _ => True := by
  intro machine held
  rw [Meets, on_device]
  have stays : holds { machine with world := (action machine.world).2 } :=
    preserved.around machine (action machine.world).2 _ _ _ (.single (stirs _ _)) held
  cases (action machine.world).1 with
  | ok value => exact ⟨stays, trivial⟩
  | error error => exact stays

omit preserved in
theorem maintains_installed (name : String) (device? : Option α) :
    Maintains holds (installed name device? : Run σ α) fun found => device? = some found := by
  cases device? with
  | none => exact maintains_fail _
  | some device => exact maintains_unit rfl

theorem maintains_print (refiled : Refiled holds) {devices : Devices σ} (within : devices.Within moves) (text : String) :
    Maintains holds (print devices text) fun _ => True := by
  intro machine held
  rw [Meets, print, on_seq (on_get machine)]
  cases machine.output with
  | none =>
    exact maintains_around preserved (fun machine => ⟨devices.console.print text machine.world,
      columnAfter machine.column text, _, _, .single (within.prints _ _ _), rfl⟩) machine held
  | some number =>
    dsimp only
    rw [on_seq (on_get machine)]
    cases found : machine.files.get? number with
    | none => exact held
    | some file =>
      cases isInput : file.isInput with
      | true =>
        dsimp only
        rw [isInput]
        exact held
      | false =>
        dsimp only
        rw [isInput]
        exact ⟨refiled machine _ (.written found isInput text) held, trivial⟩

omit preserved in
theorem maintains_select (selects : ∀ machine output, holds machine → holds { machine with output })
    (number : Option Int) : Maintains holds (selectOutput number : Run σ Unit) fun _ => True := by
  refine maintains_seq (maintains_modify fun machine held => selects machine number held) fun _ _ => ?_
  cases number with
  | none => exact maintains_unit trivial
  | some number =>
    refine maintains_seq maintains_get fun machine _ => ?_
    cases machine.files.get? number with
    | none => exact maintains_fail _
    | some file => exact maintains_unless _ (maintains_unit trivial)

end Operations

section Builtins

variable (preserved : PreservedWithin moves holds free)

theorem maintains_value (value : α) : Maintains holds (pure value : Run σ α) fun _ => True := maintains_unit trivial

theorem maintains_either {condition : Prop} [Decidable condition] {first second : Run σ α} {result : α → Prop}
    (maintains : Maintains holds first result) (other : Maintains holds second result) :
    Maintains holds (if condition then first else second) result := by
  split
  · exact maintains
  · exact other

theorem maintains_optional {condition : Prop} [Decidable condition] {popOne : Run σ α} {instead : α}
    {next : α → Run σ β} (maintains : Maintains holds popOne fun _ => True)
    (rest : ∀ value, Maintains holds (next value) fun _ => True) :
    Maintains holds (if condition then popOne >>= next else pure instead >>= next) fun _ => True :=
  maintains_either (maintains_seq maintains fun value _ => rest value)
    (maintains_seq (maintains_value instead) fun value _ => rest value)

include preserved

theorem maintains_abs : Maintains holds (abs : Run σ Unit) fun _ => True := by
  refine maintains_seq (maintains_pop_value preserved) fun value _ => ?_
  cases value with
  | integer number => exact maintains_unless _ (maintains_push preserved _)
  | long number => exact maintains_unless _ (maintains_push preserved _)
  | single number => exact maintains_push preserved _
  | _ =>
    dsimp only
    split
    · exact maintains_push preserved _
    · exact maintains_fail _

theorem maintains_draw : Maintains holds (draw : Run σ Float) fun _ => True :=
  maintains_modify_get fun machine held =>
    ⟨preserved.around machine _ _ _ machine.generator.next.2 .refl held, trivial⟩

theorem maintains_rnd : Maintains holds (rnd : Run σ Unit) fun _ => True := by
  have drawn : Maintains holds (draw >>= fun number => push (.single (Double.toSingle number)) : Run σ Unit)
      fun _ => True := maintains_seq (maintains_draw preserved) fun _ _ => maintains_push preserved _
  refine maintains_seq (maintains_pop_count preserved 1) fun count _ => maintains_either ?_ drawn
  exact maintains_seq (maintains_pop preserved) fun _ _ => drawn

theorem maintains_randomize (devices : Devices σ) : Maintains holds (randomize devices) fun _ => True := by
  have seeded (number : Float) : Maintains holds (seed number : Run σ Unit) fun _ => True :=
    maintains_around preserved fun machine => ⟨_, _, _, machine.generator.randomize number, .refl, rfl⟩
  refine maintains_seq (maintains_pop_count preserved 1) fun count _ => maintains_either ?_ ?_
  · exact maintains_seq (maintains_pop_number preserved) fun number _ => seeded number
  · refine maintains_seq maintains_get fun machine _ => ?_
    exact maintains_seq (maintains_value _) fun number _ => seeded number

theorem maintains_asc : Maintains holds (asc : Run σ Unit) fun _ => True := by
  refine maintains_seq (maintains_pop_text preserved) fun text _ => ?_
  cases Text.firstCode text with
  | some code => exact maintains_push preserved _
  | none => exact maintains_fail _

theorem maintains_chr : Maintains holds (chr : Run σ Unit) fun _ => True := by
  refine maintains_seq (maintains_pop_int preserved) fun code _ => ?_
  cases Text.ofCode code with
  | some text => exact maintains_push preserved _
  | none => exact maintains_fail _

theorem maintains_take_text (take : String → Int → String) :
    Maintains holds (takeText take : Run σ Unit) fun _ => True :=
  maintains_seq (maintains_pop_int preserved) fun _ _ => maintains_seq (maintains_pop_text preserved) fun _ _ =>
    maintains_unless _ (maintains_push preserved _)

theorem maintains_instr : Maintains holds (instr : Run σ Unit) fun _ => True :=
  maintains_seq (maintains_pop_count preserved 3) fun _ _ => maintains_seq (maintains_pop_text preserved) fun _ _ =>
    maintains_seq (maintains_pop_text preserved) fun _ _ => maintains_optional (maintains_pop_int preserved)
      fun _ => maintains_unless _ (maintains_push preserved _)

theorem maintains_mid : Maintains holds (mid : Run σ Unit) fun _ => True := by
  have rest (length : Option Int) : Maintains holds (do
      let start ← popInt
      let text ← popText
      if start < 1 || length.any (· < 0) then fail .badPosition
      else pushText (Text.mid text start length) : Run σ Unit) fun _ => True :=
    maintains_seq (maintains_pop_int preserved) fun _ _ => maintains_seq (maintains_pop_text preserved) fun _ _ =>
      maintains_unless _ (maintains_push preserved _)
  refine maintains_seq (maintains_pop_count preserved 3) fun count _ => maintains_either ?_ (rest none)
  exact maintains_seq (maintains_pop_int preserved) fun length _ => rest (some length)

theorem maintains_string : Maintains holds (string : Run σ Unit) fun _ => True := by
  refine maintains_seq (maintains_pop_value preserved) fun filler _ => ?_
  refine maintains_seq (maintains_pop_int preserved) fun count _ => ?_
  cases fillChar? filler with
  | some char => exact maintains_unless _ (maintains_push preserved _)
  | none => exact maintains_fail _

theorem maintains_pop_json : Maintains holds (popJson : Run σ Json) fun _ => True := by
  refine maintains_seq (maintains_pop_value preserved) fun value _ => ?_
  cases value with
  | json document => exact maintains_unit trivial
  | null => exact maintains_unit trivial
  | _ => exact maintains_fail _

theorem maintains_json_parse : Maintains holds (jsonParse : Run σ Unit) fun _ => True := by
  refine maintains_seq (maintains_pop_text preserved) fun text _ => ?_
  cases Json.parse? text with
  | some document => exact maintains_push preserved _
  | none => exact maintains_fail _

theorem maintains_json_get : Maintains holds (jsonGet : Run σ Unit) fun _ => True := by
  refine maintains_seq (maintains_pop_text preserved) fun path _ => ?_
  refine maintains_seq (maintains_pop_json preserved) fun document _ => ?_
  split <;> exact maintains_push preserved _

theorem maintains_inkey {devices : Devices σ} (within : devices.Within moves) :
    Maintains holds (inkey devices) fun _ => True := by
  have asked : Maintains holds (modifyGet fun machine : Machine σ =>
      ((devices.console.key machine.world).1, { machine with world := (devices.console.key machine.world).2 }) :
        Run σ (Option String)) fun _ => True :=
    maintains_modify_get fun machine held =>
      ⟨preserved.around machine _ _ _ _ (.single (within.stirs _ _ _ (.keyed _))) held, trivial⟩
  exact maintains_seq asked fun _ _ => maintains_push preserved _

theorem maintains_pop_pair : Maintains holds (popPair : Run σ (Option Int × Option Int)) fun _ => True := by
  have rest (count : Nat) (second : Option Int) : Maintains holds (do
      let first ← if 1 ≤ count then do pure (some (← popInt32)) else pure none
      return (first, second) : Run σ (Option Int × Option Int)) fun _ => True :=
    maintains_either (maintains_seq (maintains_pop_int32 preserved) fun _ _ => maintains_value _) (maintains_value _)
  refine maintains_seq (maintains_pop_count preserved 2) fun count _ => maintains_either ?_ (rest count none)
  exact maintains_seq (maintains_pop_int32 preserved) fun second _ => rest count (some second)

theorem maintains_on_device {ι : Type} (name : String) (device? : Option ι) (action : ι → DeviceAction σ Unit)
    (stirs : ∀ found, device? = some found → ∀ world column, moves (world, column) ((action found world).2, column)) :
    Maintains holds (do device (action (← installed name device?)); setStatus 0 : Run σ Unit) fun _ => True :=
  maintains_seq (maintains_installed name device?) fun found isFound =>
    maintains_seq (maintains_device preserved (stirs found isFound)) fun _ _ => maintains_status preserved 0

theorem maintains_device_text {ι : Type} (name : String) (device? : Option ι)
    (action : ι → DeviceAction σ (Option String))
    (stirs : ∀ found, device? = some found → ∀ world column, moves (world, column) ((action found world).2, column)) :
    Maintains holds (do
      let found ← device (action (← installed name device?))
      setStatus 0
      pushText (found.getD "") : Run σ Unit) fun _ => True :=
  maintains_seq (maintains_installed name device?) fun found isFound =>
    maintains_seq (maintains_device preserved (stirs found isFound)) fun _ _ =>
      maintains_seq (maintains_status preserved 0) fun _ _ => maintains_push preserved _

omit preserved in
theorem maintains_look {ι : Type} (name : String) (device? : Option ι) {next : ι → Machine σ → Run σ Unit}
    (rest : ∀ found machine, Maintains holds (next found machine) fun _ => True) :
    Maintains holds (do next (← installed name device?) (← get) : Run σ Unit) fun _ => True :=
  maintains_seq (maintains_installed name device?) fun found _ => maintains_seq maintains_get fun machine _ =>
    rest found machine

theorem maintains_file_number : Maintains holds (popFileNumber : Run σ Int) fun _ => True :=
  maintains_seq (maintains_pop_int preserved) fun _ _ => maintains_unless _ (maintains_value _)

omit preserved in
theorem maintains_input_file (number : Int) : Maintains holds (inputFile number : Run σ OpenFile) fun _ => True := by
  refine maintains_seq maintains_get fun machine _ => ?_
  cases machine.files.get? number with
  | none => exact maintains_fail _
  | some file => exact maintains_either (maintains_value _) (maintains_fail _)

omit preserved in
theorem maintains_from_input (refiled : Refiled holds) (number : Int) {next : OpenFile → Run σ α}
    (rest : ∀ file machine, file.isInput = true →
      (∀ after, after.isInput = true → holds { machine with files := machine.files.set number after }) →
      Meets (next file) machine (fun _ after => holds after ∧ True) fun _ after => holds after) :
    Maintains holds (inputFile number >>= next) fun _ => True := by
  intro machine held
  rw [Meets, on_bind, inputFile, on_seq (on_get machine)]
  cases found : machine.files.get? number with
  | none => exact held
  | some file =>
    cases isInput : file.isInput with
    | false =>
      dsimp only
      rw [isInput]
      exact held
    | true =>
      dsimp only
      rw [isInput]
      exact rest file machine isInput fun after stays => refiled machine _ (.read found isInput stays) held

omit preserved in
theorem maintains_read_fields (refiled : Refiled holds) (number : Int) (targets : List Cell) :
    Maintains holds (readFields number targets : Run σ (List Value)) fun _ => True := by
  induction targets with
  | nil => exact maintains_value _
  | cons target rest ih =>
    refine maintains_from_input refiled number fun file machine isInput moves => ?_
    have moved := moves file.readField.2 (file.read_field_keeps_input.trans isInput)
    generalize file.readField = field at moved
    refine meets_seq ?_
    cases field.1 with
    | none => exact moved
    | some text => exact maintains_seq maintains_get (fun _ _ => maintains_seq ih fun _ _ => maintains_value _) _ moved

theorem maintains_assign_all (pairs : List (Cell × Value)) (isFree : ∀ pair ∈ pairs, free pair.1) :
    Maintains holds (assignAll pairs : Run σ Unit) fun _ => True := by
  induction pairs with
  | nil => exact maintains_value _
  | cons pair rest ih =>
    obtain ⟨here, there⟩ := List.forall_mem_cons.mp isFree
    exact maintains_seq (maintains_assign preserved here pair.2) fun _ _ => ih there

theorem maintains_file_input (refiled : Refiled holds) : Maintains holds (fileInput : Run σ Unit) fun _ => True := by
  refine maintains_seq (maintains_pop_targets preserved) fun targets isFree => ?_
  refine maintains_seq (maintains_file_number preserved) fun number _ => ?_
  refine maintains_seq (maintains_input_file number) fun _ _ => ?_
  refine maintains_seq (maintains_read_fields refiled number targets) fun values _ => ?_
  exact maintains_assign_all preserved _ fun pair inside => isFree pair.1 (List.of_mem_zip inside).1

theorem maintains_file_line_input (refiled : Refiled holds) :
    Maintains holds (fileLineInput : Run σ Unit) fun _ => True := by
  refine maintains_seq (maintains_pop_reference preserved) fun target isFree => ?_
  refine maintains_seq (maintains_file_number preserved) fun number _ => ?_
  refine maintains_from_input refiled number fun file machine isInput moves => ?_
  have moved := moves file.readLine.2 (file.read_line_keeps_input.trans isInput)
  generalize file.readLine = line at moved
  refine meets_seq ?_
  cases line.1 with
  | some text => exact maintains_assign preserved isFree _ _ moved
  | none => exact moved

theorem maintains_swap : Maintains holds (swap : Run σ Unit) fun _ => True := by
  refine maintains_seq (maintains_pop_reference preserved) fun right rightFree => ?_
  refine maintains_seq (maintains_pop_reference preserved) fun left leftFree => maintains_either ?_ (maintains_value _)
  have reads (cell : Cell) : Maintains holds (readCell cell : Run σ Value) fun _ => True :=
    maintains_seq maintains_get fun _ _ => maintains_value _
  refine maintains_seq (reads left) fun _ _ => maintains_seq (reads right) fun _ _ => ?_
  exact maintains_seq (maintains_assign preserved leftFree _) fun _ _ => maintains_assign preserved rightFree _

theorem maintains_array_bounds : Maintains holds (popArrayBounds : Run σ (List Bounds)) fun _ => True := by
  refine maintains_seq (maintains_pop preserved) fun item _ => ?_
  cases item with
  | value value =>
    cases value with
    | array element bounds slots => exact maintains_value _
    | _ => exact maintains_fail _
  | reference cell =>
    refine maintains_seq maintains_get fun machine _ => ?_
    cases machine.store.content cell with
    | array element grid => exact maintains_value _
    | _ => exact maintains_fail _

theorem maintains_bound (view : Bounds → Int) : Maintains holds (bound view : Run σ Unit) fun _ => True := by
  refine maintains_seq (maintains_pop_count preserved 2) fun count _ => ?_
  refine maintains_optional (maintains_pop_int preserved) fun dimension => ?_
  refine maintains_seq (maintains_array_bounds preserved) fun bounds _ => maintains_either ?_ (maintains_fail _)
  cases bounds[dimension.toNat - 1]? with
  | some found => exact maintains_push preserved _
  | none => exact maintains_fail _

end Builtins

section Waiting

variable (preserved : PreservedWithin moves holds free) (awaited : Awaited holds last free asks)

include awaited in
theorem ends_write_back (flushes : List Flush) (asked : asks ⟨.saveFiles flushes, .ignore⟩) :
    Ends holds last (writeBack flushes : Run σ Unit) := by
  unfold writeBack
  split
  · exact ends_at_once awaited (maintains_value _)
  · exact ends_suspend awaited _ _ (by simp [Completion.targets]) asked

include preserved awaited

theorem ends_open_file (refiled : Refiled holds) (asked : ∀ pending, asks pending) :
    Ends holds last (openFile : Run σ Unit) := by
  refine ends_seq (maintains_file_number preserved) fun number _ => ?_
  refine ends_seq (maintains_pop_int preserved) fun code _ => ?_
  refine ends_seq (maintains_pop_text preserved) fun path _ => ?_
  cases FileMode.ofCode? code with
  | none => exact ends_fail _
  | some mode =>
    refine ends_seq maintains_get fun machine _ => ?_
    split
    · exact ends_fail _
    · cases mode with
      | input => exact ends_suspend awaited _ _ (by simp [Completion.targets]) (asked _)
      | _ => exact ends_at_once awaited (maintains_set_file refiled number _ fun _ => .opened number path _)

theorem ends_close_file (devices : Devices σ) (refiled : Refiled holds) (asked : ∀ pending, asks pending) :
    Ends holds last (closeFile devices : Run σ Unit) := by
  refine ends_seq (maintains_pop_count preserved 1) fun count _ => ?_
  split
  · refine ends_seq (maintains_file_number preserved) fun number _ => ?_
    refine ends_seq maintains_get fun machine _ => ?_
    cases machine.files.get? number with
    | none => exact ends_fail _
    | some file =>
      refine ends_seq (maintains_modify fun machine held => refiled machine _ (.closed number) held)
        fun _ _ => ?_
      exact ends_write_back awaited _ (asked _)
  · refine ends_seq maintains_get fun machine _ => ?_
    refine ends_seq (maintains_modify fun machine held => refiled machine _ .cleared held) fun _ _ => ?_
    exact ends_write_back awaited _ (asked _)

theorem ends_sleep (asked : ∀ nanoseconds, asks ⟨.sleep nanoseconds, .ignore⟩) : Ends holds last (sleep : Run σ Unit) := by
  have slept (seconds : Float) : Ends holds last (sleepFor seconds : Run σ Unit) := by
    unfold sleepFor
    split
    · split
      · exact ends_suspend awaited _ _ (by simp [Completion.targets]) (asked _)
      · exact ends_fail _
    · exact ends_at_once awaited (maintains_value _)
  refine ends_seq (maintains_pop_count preserved 1) fun count _ => ?_
  split
  · exact ends_seq (maintains_pop_number preserved) fun seconds _ => slept seconds
  · exact ends_seq (maintains_value (0 : Float)) fun seconds _ => slept seconds

theorem ends_input (refiled : Refiled holds) (asked : ∀ targets, asks ⟨.readLine, .input targets⟩)
    {devices : Devices σ} (within : devices.Within moves) : Ends holds last (input devices) := by
  refine ends_seq (maintains_pop_targets preserved) fun targets isFree => ?_
  refine ends_seq (maintains_pop_text preserved) fun prompt _ => ?_
  refine ends_seq (maintains_print preserved refiled within prompt) fun _ _ => ?_
  exact ends_suspend awaited _ _ isFree (asked _)

theorem ends_line_input (refiled : Refiled holds) (asked : ∀ target, asks ⟨.readLine, .lineInput target⟩)
    {devices : Devices σ} (within : devices.Within moves) : Ends holds last (lineInput devices) := by
  refine ends_seq (maintains_pop_reference preserved) fun target isFree => ?_
  refine ends_seq (maintains_pop_text preserved) fun prompt _ => ?_
  refine ends_seq (maintains_print preserved refiled within prompt) fun _ _ => ?_
  exact ends_suspend awaited _ _ (by simpa [Completion.targets] using isFree) (asked _)

theorem ends_ask {next : String → Request} {completion : Completion} (isFree : completion.targets = [])
    (asked : ∀ text, asks ⟨next text, completion⟩) :
    Ends holds last (do suspend (next (← popText)) completion : Run σ Unit) :=
  ends_seq (maintains_pop_text preserved) fun _ _ => ends_suspend awaited _ _ (by simp [isFree]) (asked _)

theorem ends_builtin {devices : Devices σ} (within : devices.Within moves) (builtin : Builtin)
    (selects : builtin = .selectOutput → ∀ machine output, holds machine → holds { machine with output })
    (refiled : builtin.isFiling = true → Refiled holds)
    (asked : ∀ pending : Pending, (builtin.isFiling = false → pending.Quiet) → asks pending) :
    Ends holds last (Run.builtin devices builtin) := by
  have now {action : Run σ Unit} (maintains : Maintains holds action fun _ => True) : Ends holds last action :=
    ends_at_once awaited maintains
  have number := maintains_pop_number preserved
  have text := maintains_pop_text preserved
  have whole := maintains_pop_int32 preserved
  have prints (isFiling : builtin.isFiling = true) (text : String) :
      Maintains holds (print devices text) fun _ => True := maintains_print preserved (refiled isFiling) within text
  have quiet {request : Request} {completion : Completion} (saves : request.flushes = [])
      (opens : completion.opens = false) : asks ⟨request, completion⟩ := asked _ fun _ => ⟨saves, opens⟩
  have stirs {world after : σ} (column : Nat) : devices.Stirs world after → moves (world, column) (after, column) :=
    within.stirs world after column
  have files (isFiling : builtin.isFiling = true) (pending : Pending) : asks pending :=
    asked pending fun isNot => by rw [isFiling] at isNot; cases isNot
  cases builtin with
  | print => exact now (maintains_seq (maintains_pop_value preserved) fun _ _ => prints rfl _)
  | printZone => exact now (maintains_seq maintains_get fun _ _ => prints rfl _)
  | printNewline => exact now (prints rfl _)
  | printUsing =>
    refine now (maintains_seq (maintains_pop_values preserved) fun values _ => maintains_seq text fun template _ => ?_)
    cases formatUsing template (values.map templateArgument) with
    | ok formatted => exact prints rfl _
    | error fault => cases fault <;> exact maintains_fail _
  | selectOutput => exact now (maintains_seq (maintains_pop_int preserved) fun _ _ => maintains_select (selects rfl) _)
  | write => exact now (maintains_seq (maintains_pop_values preserved) fun _ _ => prints rfl _)
  | input => exact ends_input preserved awaited (refiled rfl) (fun _ => quiet rfl rfl) within
  | lineInput => exact ends_line_input preserved awaited (refiled rfl) (fun _ => quiet rfl rfl) within
  | abs => exact now (maintains_abs preserved)
  | exp => exact now (maintains_seq number fun _ _ => maintains_unless _ (maintains_push preserved _))
  | log => exact now (maintains_seq number fun _ _ => maintains_unless _ (maintains_push preserved _))
  | sqr => exact now (maintains_seq number fun _ _ => maintains_unless _ (maintains_push preserved _))
  | cint => exact now (maintains_seq number fun _ _ => maintains_unless _ (maintains_push preserved _))
  | clng => exact now (maintains_seq number fun _ _ => maintains_unless _ (maintains_push preserved _))
  | rnd => exact now (maintains_rnd preserved)
  | timer => exact now (maintains_seq maintains_get fun _ _ => maintains_push preserved _)
  | asc => exact now (maintains_asc preserved)
  | chr => exact now (maintains_chr preserved)
  | hex => exact now (maintains_seq (maintains_pop_int preserved) fun _ _ => maintains_push preserved _)
  | oct => exact now (maintains_seq (maintains_pop_int preserved) fun _ _ => maintains_push preserved _)
  | instr => exact now (maintains_instr preserved)
  | lcase => exact now (maintains_seq text fun _ _ => maintains_push preserved _)
  | ucase => exact now (maintains_seq text fun _ _ => maintains_push preserved _)
  | ltrim => exact now (maintains_seq text fun _ _ => maintains_push preserved _)
  | rtrim => exact now (maintains_seq text fun _ _ => maintains_push preserved _)
  | left => exact now (maintains_take_text preserved _)
  | right => exact now (maintains_take_text preserved _)
  | mid => exact now (maintains_mid preserved)
  | len => exact now (maintains_seq (maintains_pop_value preserved) fun _ _ => maintains_push preserved _)
  | space =>
    exact now (maintains_seq (maintains_pop_int preserved) fun _ _ => maintains_unless _ (maintains_push preserved _))
  | str => exact now (maintains_seq (maintains_pop_value preserved) fun _ _ => maintains_push preserved _)
  | string => exact now (maintains_string preserved)
  | val => exact now (maintains_seq text fun _ _ => maintains_push preserved _)
  | inkey => exact now (maintains_inkey preserved within)
  | cls => exact now (maintains_on_world preserved fun _ _ => stirs _ (.cleared _))
  | beep => exact now (maintains_on_world preserved fun _ _ => stirs _ (.beeped _))
  | locate =>
    exact now (maintains_seq (maintains_pop_pair preserved) fun _ _ => maintains_on_world preserved
      fun _ _ => stirs _ (.located _ _ _))
  | color =>
    exact now (maintains_seq (maintains_pop_pair preserved) fun _ _ => maintains_on_world preserved
      fun _ _ => stirs _ (.colored _ _ _))
  | eof =>
    exact now (maintains_seq (maintains_file_number preserved) fun _ _ => maintains_seq (maintains_input_file _)
      fun _ _ => maintains_push preserved _)
  | openFile => exact ends_open_file preserved awaited (refiled rfl) (files rfl)
  | closeFile => exact ends_close_file preserved awaited devices (refiled rfl) (files rfl)
  | fileInput => exact now (maintains_file_input preserved (refiled rfl))
  | fileLineInput => exact now (maintains_file_line_input preserved (refiled rfl))
  | jsonParse => exact now (maintains_json_parse preserved)
  | jsonGet => exact now (maintains_json_get preserved)
  | jsonStr => exact now (maintains_seq (maintains_pop_json preserved) fun _ _ => maintains_push preserved _)
  | fetch => exact ends_ask preserved awaited rfl fun _ => quiet rfl rfl
  | wsOpen => exact ends_ask preserved awaited rfl fun _ => quiet rfl rfl
  | wsSend =>
    exact now (maintains_seq text fun _ _ => maintains_seq whole fun _ _ => maintains_on_device preserved _ _ _
      fun _ isFound _ _ => stirs _ (.sent isFound _ _ _))
  | wsRecv =>
    exact now (maintains_seq whole fun _ _ => maintains_device_text preserved _ _ _
      fun _ isFound _ _ => stirs _ (.received isFound _ _))
  | play =>
    exact now (maintains_seq text fun _ _ => maintains_on_device preserved _ _ _
      fun _ isFound _ _ => stirs _ (.played isFound _ _))
  | sound =>
    exact now (maintains_seq number fun _ _ => maintains_seq number fun _ _ => maintains_unless _
      (maintains_on_device preserved _ _ _ fun _ isFound _ _ => stirs _ (.sounded isFound _ _ _)))
  | loadSound => exact ends_seq text fun _ _ => ends_ask preserved awaited rfl fun _ => quiet rfl rfl
  | playSound =>
    exact now (maintains_seq text fun _ _ => maintains_on_device preserved _ _ _
      fun _ isFound _ _ => stirs _ (.sampled isFound _ _))
  | ioWrite =>
    exact now (maintains_seq text fun _ _ => maintains_seq text fun _ _ => maintains_on_device preserved _ _ _
      fun _ isFound _ _ => stirs _ (.signalled isFound _ _ _))
  | ioRead =>
    exact now (maintains_seq text fun _ _ => maintains_device_text preserved _ _ _
      fun _ isFound _ _ => stirs _ (.sensed isFound _ _))
  | eventData => exact now (maintains_seq maintains_get fun _ _ => maintains_push preserved _)
  | stick => exact now (maintains_seq whole fun _ _ => maintains_look _ _ fun _ _ => maintains_push preserved _)
  | strig => exact now (maintains_seq whole fun _ _ => maintains_look _ _ fun _ _ => maintains_push preserved _)
  | pointerX => exact now (maintains_look _ _ fun _ _ => maintains_push preserved _)
  | pointerY => exact now (maintains_look _ _ fun _ _ => maintains_push preserved _)
  | pointerDown => exact now (maintains_look _ _ fun _ _ => maintains_push preserved _)
  | sleep => exact ends_sleep preserved awaited fun _ => quiet rfl rfl
  | randomize => exact now (maintains_randomize preserved devices)
  | swap => exact now (maintains_swap preserved)
  | lbound => exact now (maintains_bound preserved _)
  | ubound => exact now (maintains_bound preserved _)
  | err => exact now (maintains_seq maintains_get fun _ _ => maintains_push preserved _)
  | hash => exact ends_seq text fun _ _ => ends_ask preserved awaited rfl fun _ => quiet rfl rfl
  | _ => exact now (maintains_seq number fun _ _ => maintains_push preserved _)

theorem ends_recover (error : RuntimeError) (returns : Option Ty) :
    Ends holds last (do
      if error.isRecoverable then
        setStatus error.code
        match returns with
        | some ty => if (← get).pending.isNone then push ty.default
        | none => return
      else throw error : Run σ Unit) := by
  split
  · have recovers : Maintains holds (do
        setStatus error.code
        match returns with
        | some ty => if (← get).pending.isNone then push ty.default
        | none => return : Run σ Unit) fun _ => True := by
      refine maintains_seq (maintains_status preserved _) fun _ _ => ?_
      cases returns with
      | none => exact maintains_value _
      | some ty =>
        exact maintains_seq maintains_get fun _ _ =>
          maintains_either (maintains_push preserved _) (maintains_value _)
    exact ends_at_once awaited recovers
  · exact fun _ held => held

theorem ends_syscall (setup : Setup σ) (within : setup.devices.Within moves) (name : String)
    (selects : setup.registry.lookup? name = some .selectOutput →
      ∀ machine output, holds machine → holds { machine with output })
    (refiled : (setup.registry.lookup? name).any Builtin.isFiling = true → Refiled holds)
    (asked : ∀ pending : Pending,
      ((setup.registry.lookup? name).any Builtin.isFiling = false → pending.Quiet) → asks pending) :
    Ends holds last (syscall setup name) := by
  intro machine held
  rw [Meets, syscall]
  cases isFound : setup.registry.lookup? name with
  | none => exact held
  | some found =>
    rw [isFound] at refiled asked
    have ended := ends_builtin preserved awaited within found (fun isSelection => selects (isSelection ▸ isFound))
      refiled asked machine held
    rw [Meets] at ended
    dsimp only
    rw [on_catch]
    cases ran : (builtin setup.devices found).on machine with
    | mk result after =>
      rw [ran] at ended
      cases result with
      | ok _ => exact ended
      | error error => exact ends_recover preserved awaited error found.signature.returns after ended

end Waiting

section Replies

variable (preserved : PreservedWithin moves holds free)

include preserved

theorem maintains_assign_fields (targets : List Cell) (fields : List String) (isFree : ∀ cell ∈ targets, free cell) :
    Maintains holds (assignFields targets fields : Run σ Unit) fun _ => True := by
  induction targets generalizing fields with
  | nil => exact maintains_value _
  | cons target rest ih =>
    obtain ⟨here, there⟩ := List.forall_mem_cons.mp isFree
    refine maintains_seq maintains_get fun _ _ => ?_
    exact maintains_seq (maintains_assign preserved here _) fun _ _ => ih fields.tail there

theorem maintains_complete_text (text : String) (completion : Completion)
    (isFree : ∀ cell ∈ completion.targets, free cell) (refiled : completion.opens = true → Refiled holds) :
    Maintains holds (completeText text completion : Run σ Unit) fun _ => True := by
  cases completion with
  | ignore => exact maintains_value _
  | input targets => exact maintains_assign_fields preserved targets _ isFree
  | lineInput target => exact maintains_assign preserved (isFree target (by simp [Completion.targets])) _
  | openInput number path => exact maintains_set_file (refiled rfl) number _ fun _ => .loaded number path text
  | pushString => exact maintains_push preserved _
  | pushLong => exact maintains_push preserved _

theorem maintains_answer (reply : Except DeviceError Reply) (completion : Completion)
    (isFree : ∀ cell ∈ completion.targets, free cell) (refiled : completion.opens = true → Refiled holds) :
    Maintains holds (match reply with
      | .ok reply => do
        setStatus 0
        complete completion reply
      | .error error => do
        setStatus error.code
        completeFailed completion : Run σ Unit) fun _ => True := by
  cases reply with
  | ok reply =>
    refine maintains_seq (maintains_status preserved 0) fun _ _ => ?_
    cases reply with
    | text text => exact maintains_complete_text preserved text completion isFree refiled
    | done => exact maintains_complete_text preserved "" completion isFree refiled
    | handle handle => cases completion <;> first | exact maintains_push preserved _ | exact maintains_value _
  | error error =>
    refine maintains_seq (maintains_status preserved _) fun _ _ => ?_
    cases completion <;> first | exact maintains_push preserved _ | exact maintains_value _

omit preserved in
theorem on_resume_nothing {machine : Machine σ} (waitsNot : machine.pending = none)
    (reply : Except DeviceError Reply) :
    (resume reply).on machine = (.error (.ofFault .nothingPending), machine) := by
  rw [resume, on_seq (on_get machine), waitsNot]
  rfl

theorem meets_resumed {machine : Machine σ} {pending : Pending} (reply : Except DeviceError Reply)
    (waits : machine.pending = some pending) (held : holds { machine with pending := none })
    (isFree : ∀ cell ∈ pending.completion.targets, free cell)
    (refiled : pending.completion.opens = true → Refiled holds) :
    Meets (resume reply) machine (fun _ after => ∃ last, holds last ∧ after = last.setPhase .running)
      fun error after => ∃ last, holds last ∧ after = last.fail error := by
  rw [Meets, resume, on_seq (on_get machine), waits]
  dsimp only
  rw [on_seq (on_modify _ _), on_bind, failing, on_catch]
  have answered := maintains_answer preserved reply pending.completion isFree refiled _ held
  rw [Meets] at answered
  generalize Run.on _ { machine with pending := none } = outcome at answered
  obtain ⟨result, after⟩ := outcome
  cases result with
  | ok _ => exact ⟨after, answered.1, rfl⟩
  | error error => exact ⟨after, answered, rfl⟩

end Replies

end Run

end BasicLang
