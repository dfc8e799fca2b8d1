import BasicLang.Builtin
import BasicLang.Code.Instruction
import BasicLang.Machine.Fault
import BasicLang.Machine.OpenFile
import BasicLang.Machine.Store
import BasicLang.Number.Random

set_option autoImplicit false

namespace BasicLang

inductive StackItem where
  | value (value : Value)
  | reference (cell : Cell)

inductive FrameKind where
  | main
  | call
  | gosub
  | event
deriving Repr, DecidableEq

structure Frame where
  kind : FrameKind
  returnTo : Nat
  scope : Nat
deriving Repr, DecidableEq

inductive Request where
  | readLine
  | loadFile (path : String)
  | saveFiles (flushes : List Flush)
  | fetch (url : String)
  | openSocket (url : String)
  | digest (algorithm data : String)
  | loadSound (name url : String)
  | sleep (nanoseconds : Nat)
deriving Repr, DecidableEq

inductive Reply where
  | done
  | text (text : String)
  | handle (handle : Int)
deriving Repr, DecidableEq

inductive Completion where
  | ignore
  | input (targets : List Cell)
  | lineInput (target : Cell)
  | openInput (number : Int) (path : String)
  | pushString
  | pushLong
deriving Repr, DecidableEq

def Completion.title : Completion → String
  | .ignore => "Ignore"
  | .input _ => "Input"
  | .lineInput _ => "LineInput"
  | .openInput _ _ => "OpenInput"
  | .pushString => "PushString"
  | .pushLong => "PushLong"

structure Pending where
  request : Request
  completion : Completion
deriving Repr, DecidableEq

inductive Phase where
  | idle
  | running
  | suspended
  | finished
  | failed
deriving Repr, DecidableEq

def Phase.title : Phase → String
  | .idle => "Idle"
  | .running => "Running"
  | .suspended => "Suspended"
  | .finished => "Finished"
  | .failed => "Error"

inductive Notice where
  | reset
  | running
  | suspended
  | finished
  | failed (error : RuntimeError)

abbrev FileTable := List (Int × OpenFile)

namespace FileTable

def get? (files : FileTable) (number : Int) : Option OpenFile := files.lookup number

def set (files : FileTable) (number : Int) (file : OpenFile) : FileTable :=
  match files with
  | [] => [(number, file)]
  | (key, old) :: rest =>
    if number < key then (number, file) :: (key, old) :: rest
    else if number = key then (key, file) :: rest
    else (key, old) :: FileTable.set rest number file

def erase (files : FileTable) (number : Int) : FileTable :=
  files.filter fun (key, _) => key != number

def flushes (files : FileTable) : List Flush := files.filterMap fun (_, file) => file.flush?

end FileTable

structure Setup (σ : Type) where
  devices : Devices σ
  registry : Registry
  budget : Nat
  maxDepth : Nat

namespace Setup

def defaultBudget : Nat := 2000

def defaultDepth : Nat := 10000

def ofDevices {σ : Type} (devices : Devices σ) (registry : Registry) : Setup σ :=
  { devices, registry, budget := defaultBudget, maxDepth := defaultDepth }

end Setup

structure Machine (σ : Type) where
  world : σ
  image : Image
  next : Nat
  stack : List StackItem
  frames : List Frame
  scopes : Array (Table Cell)
  store : Store
  phase : Phase
  pending : Option Pending
  status : Nat
  letters : LetterTypes
  nextData : Nat
  handlers : Table Nat
  events : List (String × String)
  eventData : String
  files : FileTable
  output : Option Int
  column : Nat
  generator : Generator
  notices : List Notice

namespace Machine

variable {σ : Type}

def mainFrame : Frame := { kind := .main, returnTo := 0, scope := 0 }

def create (world : σ) : Machine σ :=
  { world, image := .empty, next := 0, stack := [], frames := [mainFrame], scopes := #[[]]
    store := .empty, phase := .idle, pending := none, status := 0
    letters := .uniform Image.empty.defaultType, nextData := 0, handlers := [], events := []
    eventData := "", files := [], output := none, column := 0, generator := .initial
    notices := [] }

def reset (machine : Machine σ) : Machine σ :=
  { machine with
    next := 0, stack := [], frames := [mainFrame], scopes := #[[]], store := .empty
    phase := .idle, pending := none, status := 0
    letters := .uniform machine.image.defaultType, nextData := 0, handlers := [], events := []
    eventData := "", files := [], output := none, column := 0
    notices := .reset :: machine.notices }

def load (machine : Machine σ) (devices : Devices σ) (image : Image) : Machine σ :=
  { machine with image, world := devices.reset machine.world, generator := .initial }.reset

def setPhase (machine : Machine σ) (phase : Phase) : Machine σ :=
  if machine.phase = phase then machine
  else
    match phase with
    | .running => { machine with phase, notices := .running :: machine.notices }
    | .suspended => { machine with phase, notices := .suspended :: machine.notices }
    | .finished => { machine with phase, notices := .finished :: machine.notices }
    | .idle => { machine with phase }
    | .failed => { machine with phase }

def fail (machine : Machine σ) (error : RuntimeError) : Machine σ :=
  { machine with phase := .failed, notices := .failed error :: machine.notices }

def scope (machine : Machine σ) : Nat := (machine.frames.head?.map Frame.scope).getD 0

def scopeOf (machine : Machine σ) (name : String) : Nat :=
  if machine.image.shared.contains name then 0 else machine.scope

def lookup? (machine : Machine σ) (name : String) : Option Cell :=
  (machine.scopes.getD (machine.scopeOf name) []).get? name

def bindIn (machine : Machine σ) (scope : Nat) (name : String) (cell : Cell) : Machine σ :=
  { machine with scopes := machine.scopes.modify scope fun table => table.set name cell }

def bind (machine : Machine σ) (name : String) (cell : Cell) : Machine σ :=
  machine.bindIn (machine.scopeOf name) name cell

def implicitType (machine : Machine σ) (name : String) : Ty :=
  match Ty.ofSigil? name with
  | some ty => ty
  | none => (name.toList.head?.bind machine.letters.get?).getD machine.image.defaultType

def allocate (machine : Machine σ) (value : Value) : Cell × Machine σ :=
  let (cell, store) := machine.store.allocate value
  (cell, { machine with store })

def ensureVariable (machine : Machine σ) (name : String) : Cell × Machine σ :=
  match machine.lookup? name with
  | some cell => (cell, machine)
  | none =>
    let (cell, after) := machine.allocate (machine.implicitType name).default
    (cell, after.bind name cell)

def flushes (machine : Machine σ) (devices : Devices σ) : List Flush :=
  devices.drain.arrange machine.notices.length machine.files.flushes

def currentColumn (machine : Machine σ) : Nat :=
  match machine.output with
  | some number => ((machine.files.get? number).map OpenFile.column).getD 0
  | none => machine.column

end Machine

abbrev Run (σ α : Type) := ExceptT RuntimeError (StateM (Machine σ)) α

namespace Run

variable {σ α : Type}

def fail (fault : Fault) : Run σ α := throw (.ofFault fault)

def ofValue (result : Except ValueFault α) : Run σ α :=
  match result with
  | .ok value => pure value
  | .error fault => fail (.value fault)

def ofGrid (result : Except GridFault α) : Run σ α :=
  match result with
  | .ok value => pure value
  | .error fault => fail (.value (.ofGrid fault))

def ofArithmetic (result : Except ArithmeticFault α) : Run σ α :=
  match result with
  | .ok value => pure value
  | .error fault => fail (.arithmetic fault)

def push (value : Value) : Run σ Unit :=
  modify fun machine => { machine with stack := .value value :: machine.stack }

def pushText (text : String) : Run σ Unit := push (.string text)

def pushLong (number : Int) : Run σ Unit := push (.long (Int32.ofInt number))

def pushInteger (number : Int) : Run σ Unit := push (.integer (Int16.ofInt number))

def pushReference (cell : Cell) : Run σ Unit :=
  modify fun machine => { machine with stack := .reference cell :: machine.stack }

def pop : Run σ StackItem := do
  match (← get).stack with
  | [] => fail .stackUnderflow
  | item :: rest =>
    modify fun machine => { machine with stack := rest }
    return item

def readCell (cell : Cell) : Run σ Value := return (← get).store.read cell

def popValue : Run σ Value := do
  match ← pop with
  | .value value => return value
  | .reference cell => readCell cell

def popReference : Run σ Cell := do
  match ← pop with
  | .reference cell => return cell
  | .value value => fail (.expectedReference value.typeName)

def popText : Run σ String := do
  match ← popValue with
  | .string text => return text
  | .null => return ""
  | other => fail (.expectedString other.typeName)

def popNumber : Run σ Float := do
  let value ← popValue
  match value.toDouble? with
  | some number => return number
  | none => fail (.expectedNumber value.typeName)

def popInt : Run σ Int := return Double.toInt (Double.roundToEven (← popNumber))

def popArgumentCount (most : Nat) : Run σ Nat := do
  let count ← popInt
  if 0 ≤ count ∧ count ≤ most then return count.toNat else fail (.badArgumentCount count)

def popMany (popOne : Run σ α) : Nat → List α → Run σ (List α)
  | 0, items => return items
  | count + 1, items => do
    let item ← popOne
    popMany popOne count (item :: items)

def popInts (count : Nat) : Run σ (List Int) := popMany popInt count []

def pairBounds : List Int → List Bounds
  | lower :: upper :: rest => ⟨lower, upper⟩ :: pairBounds rest
  | _ => []

def popBounds (rank : Nat) : Run σ (List Bounds) := return pairBounds (← popInts (rank * 2))

def popValues : Run σ (List Value) := do
  let count ← popInt
  if count < 0 then fail (.badValueCount count) else popMany popValue count.toNat []

def popTargets : Run σ (List Cell) := do
  let count ← popInt
  popMany popReference count.toNat []

/-- Puts a value into a cell, as a value of the type of what it holds. The absent value takes
anything. -/
def assign (cell : Cell) (value : Value) : Run σ Unit := do
  let ty := (← get).store.ty cell
  let converted ← if ty = .null then pure value else ofValue (ty.convert value)
  modify fun machine => { machine with store := machine.store.write cell converted }

def variableCell (name : String) : Run σ Cell :=
  modifyGet fun machine => machine.ensureVariable name

def print (devices : Devices σ) (text : String) : Run σ Unit := do
  match (← get).output with
  | some number =>
    match (← get).files.get? number with
    | some file =>
      if file.isInput then fail (.badFileNumber number)
      else modify fun machine =>
        { machine with files := machine.files.set number (file.write text) }
    | none => fail (.badFileNumber number)
  | none =>
    modify fun machine =>
      { machine with
        world := devices.console.print text machine.world
        column := columnAfter machine.column text }

/-- Selects what is printed to. A file that cannot be printed to is selected too, so that what
follows is not printed elsewhere. -/
def selectOutput (number : Option Int) : Run σ Unit := do
  modify fun machine => { machine with output := number }
  match number with
  | some number =>
    match (← get).files.get? number with
    | some file => if file.isInput then fail (.badFileNumber number)
    | none => fail (.badFileNumber number)
  | none => return

def suspend (request : Request) (completion : Completion) : Run σ Unit := do
  if (← get).pending.isSome then fail .suspendedTwice
  else
    modify fun machine =>
      { machine with pending := some { request, completion } }.setPhase .suspended

def setStatus (code : Nat) : Run σ Unit := modify fun machine => { machine with status := code }

def device (action : DeviceAction σ α) : Run σ α := do
  let machine ← get
  let (result, world) := action machine.world
  set { machine with world }
  match result with
  | .ok value => return value
  | .error error => fail (.device error)

def installed (name : String) (device? : Option α) : Run σ α :=
  match device? with
  | some device => pure device
  | none => fail (.missingDevice name)

def nextDatum : Run σ Value := do
  let machine ← get
  match machine.image.data[machine.nextData]? with
  | some value =>
    set { machine with nextData := machine.nextData + 1 }
    return value
  | none => fail .outOfData

def fieldValue (store : Store) (target : Cell) (field : String) : Value :=
  match store.ty target with
  | .string => .string (Text.trim (· == '"') field)
  | _ => .double (numberPrefix field)

end Run

end BasicLang
