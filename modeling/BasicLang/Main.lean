import BasicLang.Command.Outcome
import Std.Time.DateTime.Timestamp

set_option autoImplicit false

namespace BasicLang

namespace Terminal

def reason : IO.Error → String
  | .noFileOrDirectory _ _ _ => PathError.notFound.message
  | .inappropriateType _ _ _ => PathError.isFolder.message
  | error => toString error

def failureOf : IO.Error → DeviceError
  | .noFileOrDirectory _ _ _ => .notFound PathError.notFound.message
  | error => .failed (reason error)

def attempt {α : Type} (action : IO α) : IO (Except DeviceError α) := do
  match ← action.toBaseIO with
  | .ok result => return .ok result
  | .error error => return .error (failureOf error)

def save (root : String) (flush : Flush) : IO Unit := do
  let mode := if flush.append then IO.FS.Mode.append else IO.FS.Mode.write
  IO.FS.withFile (joinPath root flush.path) mode fun handle => handle.putStr flush.contents

def typed : IO (Except DeviceError Reply) := do
  let line ← (← IO.getStdin).getLine
  if line.isEmpty then return .error .endOfInput
  else return .ok (.text (String.ofList (stripEnd line.toList)))

def serve (root : String) : Request → IO (Except DeviceError Reply)
  | .readLine => typed
  | .loadFile path => attempt do return .text (← IO.FS.readFile (joinPath root path))
  | .saveFiles flushes =>
    attempt do
      for flush in flushes do
        save root flush
      return .done
  | .sleep nanoseconds => do
    IO.sleep (nanoseconds / 1000000).toUInt32
    return .ok .done
  | .fetch _ => return .error (.unsupported "network")
  | .openSocket _ => return .error (.unsupported "network")
  | .digest _ _ => return .error (.unsupported "crypto")
  | .loadSound _ _ => return .error (.unsupported "audio")

def timeOfDay : IO Float := do
  let now ← Std.Time.Timestamp.now
  let milliseconds := now.toMillisecondsSinceUnixEpoch.val % 86400000
  return Float.ofInt milliseconds / 1000

def refresh (machine : Machine Terminal) : IO (Machine Terminal) := do
  let stdout ← IO.getStdout
  stdout.putStr machine.world.output
  stdout.flush
  let clock ← timeOfDay
  return { machine with world := { machine.world with printed := [], clock } }

end Terminal

namespace Options

partial def runMachine (options : Options) (machine : Machine Terminal) : IO UInt32 := do
  let (result, after) ←
    match machine.phase, machine.pending with
    | .suspended, some pending =>
      let reply ← Terminal.serve options.folder pending.request
      pure ((Run.resume reply).run machine)
    | .suspended, none => pure (.ok (), machine)
    | _, _ => pure ((Run.slice options.setup options.setup.budget).run machine)
  let shown ← Terminal.refresh after
  match result, shown.phase with
  | .error error, _ =>
    IO.eprint (options.failure error)
    return 2
  | .ok _, .finished => return 0
  | .ok _, .failed => return 0
  | .ok _, .running =>
    if options.sliced then IO.sleep (options.tickMs.getD 66).toUInt32
    options.runMachine shown
  | .ok _, _ => options.runMachine shown

def conclude (outcome : Outcome) : IO UInt32 := do
  IO.print outcome.stdout
  IO.eprint outcome.stderr
  return outcome.exit.toUInt32

def perform (options : Options) : IO UInt32 := do
  match ← (IO.FS.readFile options.file).toBaseIO with
  | .error error => conclude (options.unreadable (Terminal.reason error))
  | .ok source =>
    match options.plan source with
    | .finished outcome => conclude outcome
    | .run image =>
      IO.eprint (options.greeting source)
      let machine := Machine.create (Terminal.create ⟨[]⟩ options.folder "")
      options.runMachine (← Terminal.refresh (machine.load options.setup.devices image))

end Options

end BasicLang

def main (arguments : List String) : IO UInt32 :=
  match BasicLang.Options.parse? arguments with
  | some options => options.perform
  | none => BasicLang.Options.conclude BasicLang.Options.usage
