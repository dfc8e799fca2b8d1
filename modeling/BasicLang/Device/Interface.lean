import BasicLang.Machine.OpenFile

set_option autoImplicit false

namespace BasicLang

inductive DeviceError where
  | notFound (what : String)
  | failed (what : String)
  | unsupported (what : String)
  | closed (what : String)
  | endOfInput
deriving Repr, DecidableEq

namespace DeviceError

def message : DeviceError → String
  | .notFound what => "file not found: " ++ what
  | .failed what => "device I/O error: " ++ what
  | .unsupported what => what ++ " is not available on this host"
  | .closed what => "channel closed: " ++ what
  | .endOfInput => "input past end"

def code : DeviceError → Nat
  | .notFound _ => 53
  | .failed _ => 57
  | .unsupported _ => 73
  | .closed _ => 57
  | .endOfInput => 62

end DeviceError

abbrev DeviceAction (σ α : Type) := σ → Except DeviceError α × σ

structure Console (σ : Type) where
  print : String → σ → σ
  readLine : DeviceAction σ String
  key : σ → Option String × σ
  clear : σ → σ
  locate : Option Int → Option Int → σ → σ
  color : Option Int → Option Int → σ → σ
  beep : σ → σ
  reset : σ → σ

structure Audio (σ : Type) where
  play : String → DeviceAction σ Unit
  sound : Float → Float → DeviceAction σ Unit
  load : String → String → DeviceAction σ Unit
  playLoaded : String → DeviceAction σ Unit
  reset : σ → σ

structure Network (σ : Type) where
  fetch : String → DeviceAction σ String
  openSocket : String → DeviceAction σ Int
  send : Int → String → DeviceAction σ Unit
  receive : Int → DeviceAction σ (Option String)
  reset : σ → σ

structure FileStore (σ : Type) where
  read : String → DeviceAction σ String
  write : String → String → Bool → DeviceAction σ Unit
  reset : σ → σ

structure Bus (σ : Type) where
  write : String → String → DeviceAction σ Unit
  read : String → DeviceAction σ (Option String)
  arrivals : σ → List (String × String) × σ
  reset : σ → σ

structure Crypto (σ : Type) where
  digest : String → String → DeviceAction σ String

structure Gamepad (σ : Type) where
  stick : Int → σ → Int
  trigger : Int → σ → Bool

structure Pointer (σ : Type) where
  position : σ → Int × Int
  isDown : σ → Bool

/-- The order in which a table of open files hands over what has to be written. Nothing fixes it, and it may be another
one each time. -/
structure DrainOrder where
  arrange : Nat → List Flush → List Flush
  perm : ∀ time flushes, (arrange time flushes).Perm flushes

def DrainOrder.listed : DrainOrder where
  arrange _ flushes := flushes
  perm _ flushes := .refl flushes

structure Devices (σ : Type) where
  drain : DrainOrder
  console : Console σ
  clock : σ → Float
  audio : Option (Audio σ)
  network : Option (Network σ)
  files : Option (FileStore σ)
  bus : Option (Bus σ)
  crypto : Option (Crypto σ)
  gamepad : Option (Gamepad σ)
  pointer : Option (Pointer σ)

def Devices.reset {σ : Type} (devices : Devices σ) (world : σ) : σ :=
  let world := devices.console.reset world
  let world := (devices.audio.map (·.reset world)).getD world
  let world := (devices.network.map (·.reset world)).getD world
  let world := (devices.files.map (·.reset world)).getD world
  (devices.bus.map (·.reset world)).getD world

end BasicLang
