import BasicLang.Device.Interface
import BasicLang.Typing.Symbols

set_option autoImplicit false

namespace BasicLang

inductive Detail where
  | absent
  | text (text : String)
  | number (number : Int)
  | real (number : Float)

def Detail.ofOption : Option Int → Detail
  | some value => .number value
  | none => .absent

structure DeviceRecord where
  action : String
  details : List Detail

structure TimedEvent where
  due : Nat
  key : String
  data : String
deriving Repr, DecidableEq

structure Bench where
  printed : List String
  input : List String
  keys : List String
  beeps : Nat
  screen : List DeviceRecord
  files : Table String
  samples : List String
  audio : List DeviceRecord
  pages : Table String
  sockets : List (List String)
  network : List DeviceRecord
  registers : Table String
  events : List TimedEvent
  polls : Nat
  bus : List DeviceRecord
  sticks : List Int
  buttons : List Int
  pointer : Int × Int
  isPointerDown : Bool

namespace Bench

def empty : Bench :=
  { printed := [], input := [], keys := [], beeps := 0, screen := [], files := [], samples := []
    audio := [], pages := [], sockets := [], network := [], registers := [], events := []
    polls := 0, bus := [], sticks := [], buttons := [], pointer := (0, 0), isPointerDown := false }

def output (bench : Bench) : String := String.join bench.printed.reverse

def fault? (name : String) : Option DeviceError :=
  match name.toList with
  | '!' :: 'n' :: 'f' :: ':' :: rest => some (.notFound (String.ofList rest))
  | '!' :: 'i' :: 'o' :: ':' :: rest => some (.failed (String.ofList rest))
  | '!' :: 'u' :: 'n' :: ':' :: rest => some (.unsupported (String.ofList rest))
  | '!' :: 'c' :: 'l' :: ':' :: rest => some (.closed (String.ofList rest))
  | '!' :: 'e' :: 'o' :: 'f' :: ':' :: _ => some .endOfInput
  | _ => none

def guarded {α : Type} (name : String) (action : DeviceAction Bench α) : DeviceAction Bench α :=
  fun bench =>
    match fault? name with
    | some error => (.error error, bench)
    | none => action bench

def console : Console Bench where
  print text bench := { bench with printed := text :: bench.printed }
  readLine bench :=
    match bench.input with
    | [] => (.error .endOfInput, bench)
    | line :: rest =>
      (.ok line, { bench with printed := (line ++ "\n") :: bench.printed, input := rest })
  key bench :=
    match bench.keys with
    | [] => (none, bench)
    | key :: rest => (some key, { bench with keys := rest })
  clear bench := { bench with screen := ⟨"cls", []⟩ :: bench.screen }
  locate row column bench :=
    { bench with screen := ⟨"locate", [.ofOption row, .ofOption column]⟩ :: bench.screen }
  color foreground background bench :=
    { bench with
      screen := ⟨"color", [.ofOption foreground, .ofOption background]⟩ :: bench.screen }
  beep bench := { bench with beeps := bench.beeps + 1 }
  reset bench := { bench with screen := ⟨"reset", []⟩ :: bench.screen }

def audioDevice : Audio Bench where
  play music := guarded music fun bench =>
    (.ok (), { bench with audio := ⟨"play", [.text music]⟩ :: bench.audio })
  sound frequency duration bench :=
    (.ok (), { bench with audio := ⟨"sound", [.real frequency, .real duration]⟩ :: bench.audio })
  load name url := guarded url fun bench =>
    (.ok (), { bench with
      samples := name :: bench.samples
      audio := ⟨"load", [.text name, .text url]⟩ :: bench.audio })
  playLoaded name := guarded name fun bench =>
    if bench.samples.contains name then
      (.ok (), { bench with audio := ⟨"sample", [.text name]⟩ :: bench.audio })
    else (.error (.notFound name), bench)
  reset bench := { bench with samples := [], audio := ⟨"reset", []⟩ :: bench.audio }

def socket? (bench : Bench) (handle : Int) : Option (List String) :=
  if 0 < handle then bench.sockets[handle.toNat - 1]? else none

def setSocket (bench : Bench) (handle : Int) (queue : List String) : Bench :=
  { bench with sockets := bench.sockets.set (handle.toNat - 1) queue }

def networkDevice : Network Bench where
  fetch url := guarded url fun bench =>
    match bench.pages.get? url with
    | some page => (.ok page, bench)
    | none => (.error (.notFound url), bench)
  openSocket url := guarded url fun bench =>
    let handle := bench.sockets.length + 1
    (.ok handle, { bench with
      sockets := bench.sockets ++ [[]]
      network := ⟨"open", [.text url, .number handle]⟩ :: bench.network })
  send handle message := guarded message fun bench =>
    let recorded :=
      { bench with network := ⟨"send", [.number handle, .text message]⟩ :: bench.network }
    match recorded.socket? handle with
    | some queue => (.ok (), recorded.setSocket handle (queue ++ [message]))
    | none => (.error (.closed (toString handle)), recorded)
  receive handle bench :=
    match bench.socket? handle with
    | some (message :: rest) => (.ok (some message), bench.setSocket handle rest)
    | some [] => (.ok none, bench)
    | none => (.error (.closed (toString handle)), bench)
  reset bench := { bench with sockets := [], network := ⟨"reset", []⟩ :: bench.network }

def fileStore : FileStore Bench where
  read path := guarded path fun bench =>
    match bench.files.get? path with
    | some contents => (.ok contents, bench)
    | none => (.error (.notFound path), bench)
  write path contents append := guarded path fun bench =>
    let before := if append then (bench.files.get? path).getD "" else ""
    (.ok (), { bench with files := bench.files.set path (before ++ contents) })
  reset bench := bench

def busDevice : Bus Bench where
  write key value := guarded key fun bench =>
    (.ok (), { bench with
      registers := bench.registers.set key value
      bus := ⟨"write", [.text key, .text value]⟩ :: bench.bus })
  read key := guarded key fun bench => (.ok (bench.registers.get? key), bench)
  arrivals bench :=
    let (due, later) := bench.events.span fun event => decide (event.due ≤ bench.polls)
    (due.map fun event => (event.key, event.data),
      { bench with events := later, polls := bench.polls + 1 })
  reset bench := { bench with bus := ⟨"reset", []⟩ :: bench.bus }

def crypto : Crypto Bench where
  digest algorithm data := guarded algorithm fun bench =>
    if algorithm = "REV" then (.ok (String.ofList data.toList.reverse), bench)
    else if algorithm = "LEN" then (.ok (toString data.utf8ByteSize), bench)
    else (.error (.unsupported algorithm), bench)

def gamepad : Gamepad Bench where
  stick axis bench := if 0 ≤ axis then bench.sticks.getD axis.toNat 0 else 0
  trigger button bench := bench.buttons.contains button

def pointerDevice : Pointer Bench where
  position bench := bench.pointer
  isDown bench := bench.isPointerDown

def bare : Devices Bench :=
  { drain := .listed, console, clock := fun _ => 0, audio := none, network := none, files := none, bus := none
    crypto := none, gamepad := none, pointer := none }

end Bench

end BasicLang
