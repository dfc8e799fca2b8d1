import BasicLang.Code.Program
import BasicLang.Device.Terminal
import BasicLang.Machine.Schedule
import BasicLang.Number.Reading

set_option autoImplicit false

namespace BasicLang

structure Options where
  file : String
  tokens : Bool
  check : Bool
  disasm : Bool
  sliced : Bool
  trace : Bool
  verbose : Bool
  budget : Option Nat
  sliceMs : Option Nat
  tickMs : Option Nat
deriving Repr, DecidableEq

namespace Options

def initial : Options :=
  { file := "", tokens := false, check := false, disasm := false, sliced := false, trace := false
    verbose := false, budget := none, sliceMs := none, tickMs := none }

def switch? (options : Options) : String → Option Options
  | "--tokens" => if options.tokens then none else some { options with tokens := true }
  | "--check" => if options.check then none else some { options with check := true }
  | "--disasm" => if options.disasm then none else some { options with disasm := true }
  | "--async" => if options.sliced then none else some { options with sliced := true }
  | "--trace" => if options.trace then none else some { options with trace := true }
  | "--verbose" => if options.verbose then none else some { options with verbose := true }
  | "-v" => if options.verbose then none else some { options with verbose := true }
  | _ => none

def count? (text : String) : Option Nat :=
  let digits :=
    match text.toList with
    | '+' :: rest => rest
    | chars => chars
  if digits.isEmpty ∨ !digits.all Char.isDigit then none
  else if ofDigits 10 digits < 0x10000000000000000 then some (ofDigits 10 digits)
  else none

def setting? (options : Options) (name value : String) : Option Options := do
  let number ← count? value
  match name with
  | "--budget" =>
    if options.budget.isSome then none else some { options with budget := some number }
  | "--slice-ms" =>
    if options.sliceMs.isSome then none else some { options with sliceMs := some number }
  | "--tick-ms" =>
    if options.tickMs.isSome then none else some { options with tickMs := some number }
  | _ => none

def isSetting (name : String) : Bool := ["--budget", "--slice-ms", "--tick-ms"].contains name

def file? (options : Options) (name : String) : Option Options :=
  if options.file.isEmpty ∧ !name.isEmpty then some { options with file := name } else none

def parseFiles (options : Options) : List String → Option Options
  | [] => some options
  | name :: rest => do parseFiles (← options.file? name) rest

def parseFrom (options : Options) : List String → Option Options
  | [] => some options
  | [argument] =>
    if argument = "--" then some options
    else
      match argument.splitOn "=" with
      | [name, value] => options.setting? name value
      | _ =>
        if argument.startsWith "-" ∧ argument ≠ "-" then options.switch? argument
        else options.file? argument
  | argument :: value :: rest =>
    if argument = "--" then options.parseFiles (value :: rest)
    else if isSetting argument then do parseFrom (← options.setting? argument value) rest
    else if argument.startsWith "-" ∧ argument ≠ "-" then
      match argument.splitOn "=" with
      | [name, text] => do parseFrom (← options.setting? name text) (value :: rest)
      | _ => do parseFrom (← options.switch? argument) (value :: rest)
    else do parseFrom (← options.file? argument) (value :: rest)

def parse? (arguments : List String) : Option Options := do
  let options ← parseFrom initial arguments
  if options.file.isEmpty then none else some options

def folder (options : Options) : String :=
  String.ofList ((options.file.toList.reverse.dropWhile (· != '/')).drop 1).reverse

end Options

structure Outcome where
  exit : Nat
  stdout : String
  stderr : String
deriving Repr, DecidableEq

namespace Options

def unlines (lines : List String) : String := String.join (lines.map (· ++ "\n"))

def usage : Outcome :=
  { exit := 2, stdout := "", stderr := "Usage: qbvm [OPTIONS] <FILE>\n" }

def unreadable (options : Options) (reason : String) : Outcome :=
  { exit := 1, stdout := "",
    stderr := "Error reading '" ++ options.file ++ "': " ++ reason ++ "\n" }

def greeting (options : Options) (source : String) : String :=
  if options.verbose then
    unlines
      ["Compiling: " ++ options.file,
        "Source length: " ++ toString source.utf8ByteSize ++ " bytes"]
  else ""

def tokenLine (token : Token) : String :=
  Text.padLeft 4 (toString token.locus.line) ++ ":" ++ Text.padRight 4 (toString token.locus.column) ++ " " ++
    Text.padRight 20 token.kind.title ++ " " ++ Text.quoted token.text

def located (options : Options) (locus : Locus) (message : String) : String :=
  options.file ++ ":" ++ locus.text ++ ": " ++ message

def tokenTable (options : Options) (source : String) : Outcome :=
  let (tokens, errors) := tokenize source
  let shown := tokens.filter fun token => options.verbose || token.kind != .newline
  let head := ["Tokens for " ++ options.file ++ ":", String.ofList (List.replicate 60 '-')]
  { exit := 0
    stdout := unlines (head ++ shown.map tokenLine)
    stderr := options.greeting source ++
      unlines (errors.map fun error => options.located error.locus error.message) }

def errorLines (options : Options) : CompileError → List String
  | .lexing errors => errors.map fun error => options.located error.locus error.message
  | .parsing errors => errors.map fun error => options.located error.locus error.message
  | .checking errors => errors.map fun error => options.located error.locus error.message
  | .coding error => [options.file ++ ": " ++ error.message]

def rejected (options : Options) (source : String) (error : CompileError) : Outcome :=
  let count := if options.verbose then [toString error.count ++ " error(s)"] else []
  { exit := 1
    stdout := ""
    stderr := options.greeting source ++ unlines (options.errorLines error ++ count) }

inductive Plan where
  | finished (outcome : Outcome)
  | run (image : Image)

def plan (options : Options) (source : String) : Plan :=
  if options.tokens then .finished (options.tokenTable source)
  else
    match compile source .standard with
    | .error error => .finished (options.rejected source error)
    | .ok image =>
      let greeting := options.greeting source
      if options.check then .finished ⟨0, options.file ++ ": OK\n", greeting⟩
      else if options.disasm then .finished ⟨0, unlines image.listing, greeting⟩
      else .run image

def setup (options : Options) : Setup Terminal :=
  let usual := Setup.ofDevices Terminal.devices .standard
  { usual with budget := options.budget.getD usual.budget }

def failure (options : Options) (error : RuntimeError) : String :=
  options.file ++ ": runtime error: " ++ error.message ++ "\n"

def execute (options : Options) (image : Image) (terminal : Terminal) (fuel : Nat) :
    Outcome × Terminal :=
  let program :=
    if options.sliced then Run.programInSlices options.setup image fuel
    else Run.program options.setup image fuel
  let (result, machine) := program.run (Machine.create terminal)
  let stdout := machine.world.output
  match result with
  | .ok _ => (⟨0, stdout, ""⟩, machine.world)
  | .error error => (⟨2, stdout, options.failure error⟩, machine.world)

end Options

def command (arguments : List String) (directory : Directory) (input : String) (fuel : Nat) :
    Outcome × Directory :=
  match Options.parse? arguments with
  | none => (Options.usage, directory)
  | some options =>
    match directory.read options.file with
    | .error error => (options.unreadable error.message, directory)
    | .ok source =>
      match options.plan source with
      | .finished outcome => (outcome, directory)
      | .run image =>
        let (outcome, terminal) :=
          options.execute image (.create directory options.folder input) fuel
        ({ outcome with stderr := options.greeting source ++ outcome.stderr }, terminal.directory)

end BasicLang
