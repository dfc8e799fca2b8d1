import BasicLang.Machine.State
import BasicLang.Text.Template

set_option autoImplicit false

namespace BasicLang

def zoneWidth : Nat := 14

namespace Run

variable {σ : Type} (devices : Devices σ)

def printValue : Run σ Unit := do
  let value ← popValue
  print devices value.text

def printZone : Run σ Unit := do
  let column := (← get).currentColumn
  print devices (Text.spaces (zoneWidth - column % zoneWidth : Nat))

def templateArgument : Value → TemplateArgument
  | .string text => .text text
  | other => .number (other.toDouble?.getD 0)

def printUsing : Run σ Unit := do
  let values ← popValues
  let template ← popText
  match formatUsing template (values.map templateArgument) with
  | .ok text => print devices text
  | .error .unsuited => fail (.badFormat template)
  | .error .tooWide => fail .panic

def selectFile : Run σ Unit := do
  let number ← popInt
  selectOutput (if number = 0 then none else some number)

def writtenText : Value → String
  | .string text => "\"" ++ text ++ "\""
  | other => other.text

def writeValues : Run σ Unit := do
  let values ← popValues
  print devices (",".intercalate (values.map writtenText) ++ "\n")

def input : Run σ Unit := do
  let targets ← popTargets
  let prompt ← popText
  print devices prompt
  suspend .readLine (.input targets)

def lineInput : Run σ Unit := do
  let target ← popReference
  let prompt ← popText
  print devices prompt
  suspend .readLine (.lineInput target)

def inkey : Run σ Unit := do
  let key ← modifyGet fun machine =>
    let (key, world) := devices.console.key machine.world
    (key, { machine with world })
  pushText (key.getD "")

def onWorld (change : σ → σ) : Run σ Unit :=
  modify fun machine => { machine with world := change machine.world }

def popInt32 : Run σ Int := return (Int32.ofInt (← popInt)).toInt

def popPair : Run σ (Option Int × Option Int) := do
  let count ← popArgumentCount 2
  let second ← if count = 2 then do pure (some (← popInt32)) else pure none
  let first ← if 1 ≤ count then do pure (some (← popInt32)) else pure none
  return (first, second)

def locate : Run σ Unit := do
  let (row, column) ← popPair
  onWorld (devices.console.locate row column)

def color : Run σ Unit := do
  let (foreground, background) ← popPair
  onWorld (devices.console.color foreground background)

end Run

end BasicLang
