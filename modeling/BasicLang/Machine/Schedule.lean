import BasicLang.Machine.Execute

set_option autoImplicit false

namespace BasicLang

namespace Run

variable {σ : Type}

def failing {α : Type} (locus : Option Locus) (action : Run σ α) : Run σ α :=
  tryCatch action fun error => do
    let placed :=
      match locus with
      | some locus => error.atLocus locus
      | none => error
    modify fun machine => machine.fail placed
    throw placed

/-- An event enters its handler, unless another handler runs. One without a handler is dropped. -/
def deliverEvent (machine : Machine σ) : Machine σ :=
  match machine.events with
  | [] => machine
  | (key, data) :: rest =>
    if machine.frames.any fun frame => frame.kind == .event then machine
    else
      match machine.handlers.get? key with
      | none => { machine with events := rest }
      | some handler =>
        { machine with
          events := rest
          eventData := data
          frames := { kind := .event, returnTo := machine.next, scope := 0 } :: machine.frames
          next := handler }

def pollEvents (devices : Devices σ) (machine : Machine σ) : Machine σ :=
  match devices.bus with
  | none => machine
  | some bus =>
    let (arrived, world) := bus.arrivals machine.world
    { machine with world, events := machine.events ++ arrived }

def step (setup : Setup σ) : Run σ Bool := do
  modify fun machine => if machine.phase = .idle then machine.setPhase .running else machine
  if (← get).phase ≠ .running then return false
  else
    modify fun machine => deliverEvent (pollEvents setup.devices machine)
    let machine ← get
    match machine.image.instructions[machine.next]? with
    | none =>
      modify fun machine => machine.setPhase .finished
      return false
    | some instruction =>
      modify fun machine => { machine with next := machine.next + 1 }
      failing (some instruction.locus) (execute setup instruction.op)
      modify fun machine =>
        if machine.image.instructions.size ≤ machine.next ∧ machine.phase = .running then
          machine.setPhase .finished
        else machine
      return true

def lineFields (line : String) : List String :=
  (line.splitOn ",").map (Text.trim isBlank)

def assignFields : List Cell → List String → Run σ Unit
  | [], _ => return
  | target :: rest, fields => do
    assign target (fieldValue (← get).store target (fields.headD ""))
    assignFields rest fields.tail

def clampLong (number : Float) : Int := max (-2147483648) (min 2147483647 (Double.toInt number))

def completeText (text : String) : Completion → Run σ Unit
  | .ignore => return
  | .input targets => assignFields targets (lineFields text)
  | .lineInput target => assign target (.string text)
  | .openInput number path => setFile number (.input path text)
  | .pushString => pushText text
  | .pushLong => pushLong (clampLong (numberPrefix text))

def complete (completion : Completion) : Reply → Run σ Unit
  | .text text => completeText text completion
  | .done => completeText "" completion
  | .handle handle =>
    match completion with
    | .pushLong => pushLong handle
    | _ => return

def completeFailed : Completion → Run σ Unit
  | .pushString => pushText ""
  | .pushLong => pushLong 0
  | _ => return

def resume (reply : Except DeviceError Reply) : Run σ Unit := do
  match (← get).pending with
  | none => fail .nothingPending
  | some pending =>
    modify fun machine => { machine with pending := none }
    failing none do
      match reply with
      | .ok reply =>
        setStatus 0
        complete pending.completion reply
      | .error error =>
        setStatus error.code
        completeFailed pending.completion
    modify fun machine => machine.setPhase .running

end Run

namespace Devices

variable {σ : Type}

def require {α β : Type} (name : String) (device? : Option α) (action : α → DeviceAction σ β) :
    DeviceAction σ β :=
  match device? with
  | some device => action device
  | none => fun world => (.error (.unsupported name), world)

def mapReply {α : Type} (reply : α → Reply) (action : DeviceAction σ α) : DeviceAction σ Reply :=
  fun world =>
    let (result, world) := action world
    (result.map reply, world)

def writeAll (files : FileStore σ) : List Flush → DeviceAction σ Unit
  | [] => fun world => (.ok (), world)
  | flush :: rest => fun world =>
    match files.write flush.path flush.contents flush.append world with
    | (.ok (), world) => writeAll files rest world
    | (.error error, world) => (.error error, world)

def perform (devices : Devices σ) : Request → DeviceAction σ Reply
  | .readLine => mapReply .text devices.console.readLine
  | .loadFile path =>
    require "file system" devices.files fun files => mapReply .text (files.read path)
  | .saveFiles flushes =>
    require "file system" devices.files fun files =>
      mapReply (fun _ => .done) (writeAll files flushes)
  | .fetch url =>
    require "network" devices.network fun network => mapReply .text (network.fetch url)
  | .openSocket url =>
    require "network" devices.network fun network => mapReply .handle (network.openSocket url)
  | .digest algorithm data =>
    require "crypto" devices.crypto fun crypto => mapReply .text (crypto.digest algorithm data)
  | .loadSound name url =>
    require "audio" devices.audio fun audio => mapReply (fun _ => .done) (audio.load name url)
  | .sleep _ => fun world => (.ok .done, world)

end Devices

namespace Run

variable {σ : Type}

def service (setup : Setup σ) : Run σ Unit := do
  match (← get).pending with
  | none => return
  | some pending =>
    let reply ← modifyGet fun machine =>
      let (reply, world) := setup.devices.perform pending.request machine.world
      (reply, { machine with world })
    resume reply

def slice (setup : Setup σ) : Nat → Run σ Unit
  | 0 => return
  | count + 1 => do
    if ← step setup then slice setup count

def tick (setup : Setup σ) : Run σ Phase := do
  slice setup setup.budget
  return (← get).phase

def loadImage (setup : Setup σ) (image : Image) : Run σ Unit :=
  modify fun machine => machine.load setup.devices image

/-- Goes on until the program ends, for at most `fuel` instructions and replies. Says whether the
program has ended. -/
def toEnd (setup : Setup σ) : Nat → Run σ Bool
  | 0 => return false
  | fuel + 1 => do
    match (← get).phase with
    | .idle | .running =>
      let _ ← step setup
      toEnd setup fuel
    | .suspended =>
      service setup
      toEnd setup fuel
    | .finished | .failed => return true

def program (setup : Setup σ) (image : Image) (fuel : Nat) : Run σ Bool := do
  loadImage setup image
  modify fun machine => machine.setPhase .running
  toEnd setup fuel

def slicesToEnd (setup : Setup σ) : Nat → Run σ Bool
  | 0 => return false
  | fuel + 1 => do
    match (← get).phase with
    | .idle | .running =>
      let _ ← tick setup
      slicesToEnd setup fuel
    | .suspended =>
      service setup
      slicesToEnd setup fuel
    | .finished | .failed => return true

def programInSlices (setup : Setup σ) (image : Image) (fuel : Nat) : Run σ Bool := do
  loadImage setup image
  slicesToEnd setup fuel

def dispatch (key data : String) : Run σ Unit :=
  modify fun machine => { machine with events := machine.events ++ [(key, data)] }

end Run

end BasicLang
