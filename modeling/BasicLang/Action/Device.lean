import BasicLang.Action.Number
import BasicLang.Action.Console

set_option autoImplicit false

namespace BasicLang

namespace Run

variable {σ : Type} (devices : Devices σ)

def fetch : Run σ Unit := do
  let url ← popText
  suspend (.fetch url) .pushString

def wsOpen : Run σ Unit := do
  let url ← popText
  suspend (.openSocket url) .pushLong

def wsSend : Run σ Unit := do
  let message ← popText
  let handle ← popInt32
  let network ← installed "network" devices.network
  device (network.send handle message)
  setStatus 0

def wsRecv : Run σ Unit := do
  let handle ← popInt32
  let network ← installed "network" devices.network
  let message ← device (network.receive handle)
  setStatus 0
  pushText (message.getD "")

def play : Run σ Unit := do
  let music ← popText
  let audio ← installed "audio" devices.audio
  device (audio.play music)
  setStatus 0

def sound : Run σ Unit := do
  let duration ← popNumber
  let frequency ← popNumber
  if !(37 ≤ frequency && frequency ≤ 32767) || duration < 0 then
    fail (.badSound frequency duration)
  else
    let audio ← installed "audio" devices.audio
    device (audio.sound frequency duration)
    setStatus 0

def loadSound : Run σ Unit := do
  let url ← popText
  let name ← popText
  suspend (.loadSound name url) .ignore

def playSound : Run σ Unit := do
  let name ← popText
  let audio ← installed "audio" devices.audio
  device (audio.playLoaded name)
  setStatus 0

def ioWrite : Run σ Unit := do
  let value ← popText
  let key ← popText
  let bus ← installed "I/O bus" devices.bus
  device (bus.write key value)
  setStatus 0

def ioRead : Run σ Unit := do
  let key ← popText
  let bus ← installed "I/O bus" devices.bus
  let value ← device (bus.read key)
  setStatus 0
  pushText (value.getD "")

def eventData : Run σ Unit := do pushText (← get).eventData

def stick : Run σ Unit := do
  let axis ← popInt32
  let gamepad ← installed "gamepad" devices.gamepad
  pushInteger (gamepad.stick axis (← get).world)

def strig : Run σ Unit := do
  let button ← popInt32
  let gamepad ← installed "gamepad" devices.gamepad
  push (.ofBool (gamepad.trigger button (← get).world))

def pointerX : Run σ Unit := do
  let pointer ← installed "pointer" devices.pointer
  pushInteger (pointer.position (← get).world).1

def pointerY : Run σ Unit := do
  let pointer ← installed "pointer" devices.pointer
  pushInteger (pointer.position (← get).world).2

def pointerDown : Run σ Unit := do
  let pointer ← installed "pointer" devices.pointer
  push (.ofBool (pointer.isDown (← get).world))

-- A time has its seconds in 64 bits, and a machine that is to sleep for longer gives up.
def longestSleep : Nat := UInt64.size * 1000000000

def sleepFor (seconds : Float) : Run σ Unit :=
  if Double.isFinite seconds && 0 < seconds then
    if Double.toNanoseconds seconds < longestSleep then
      suspend (.sleep (Double.toNanoseconds seconds)) .ignore
    else fail .panic
  else return

def sleep : Run σ Unit := do
  let seconds ← if (← popArgumentCount 1) = 1 then popNumber else pure 0
  sleepFor seconds

def swap : Run σ Unit := do
  let right ← popReference
  let left ← popReference
  if left ≠ right then
    let leftValue ← readCell left
    let rightValue ← readCell right
    assign left rightValue
    assign right leftValue

def popArrayBounds : Run σ (List Bounds) := do
  match ← pop with
  | .value (.array _ bounds _) => return bounds
  | .value other => fail (.notAnArray other.typeName)
  | .reference cell =>
    match (← get).store.content cell with
    | .array _ grid => return grid.bounds
    | other => fail (.notAnArray other.ty.name)

def bound (view : Bounds → Int) : Run σ Unit := do
  let dimension ← if (← popArgumentCount 2) = 2 then popInt else pure 1
  let bounds ← popArrayBounds
  if 1 ≤ dimension then
    match bounds[dimension.toNat - 1]? with
    | some found => pushLong (view found)
    | none => fail (.noDimension dimension)
  else fail (.noDimension dimension)

def err : Run σ Unit := do pushInteger (← get).status

def hash : Run σ Unit := do
  let data ← popText
  let algorithm ← popText
  suspend (.digest algorithm data) .pushString

end Run

end BasicLang
