import BasicLang.Machine.State

set_option autoImplicit false

namespace BasicLang

namespace Run

variable {σ : Type}

def popFileNumber : Run σ Int := do
  let number ← popInt
  if number < 1 ∨ 255 < number then fail (.badFileNumber number) else return number

def inputFile (number : Int) : Run σ OpenFile := do
  match (← get).files.get? number with
  | some file => if file.isInput then return file else fail (.badFileNumber number)
  | none => fail (.badFileNumber number)

def setFile (number : Int) (file : OpenFile) : Run σ Unit :=
  modify fun machine => { machine with files := machine.files.set number file }

def openFile : Run σ Unit := do
  let number ← popFileNumber
  let code ← popInt
  let path ← popText
  match FileMode.ofCode? code with
  | none => fail (.badFileMode code)
  | some mode =>
    if ((← get).files.get? number).isSome then fail (.fileAlreadyOpen number)
    else
      match mode with
      | .input => suspend (.loadFile path) (.openInput number path)
      | _ => setFile number (.output path mode)

def writeBack (flushes : List Flush) : Run σ Unit :=
  if flushes.isEmpty then return else suspend (.saveFiles flushes) .ignore

def closeFile (devices : Devices σ) : Run σ Unit := do
  if (← popArgumentCount 1) = 1 then
    let number ← popFileNumber
    match (← get).files.get? number with
    | none => fail (.badFileNumber number)
    | some file =>
      modify fun machine => { machine with files := machine.files.erase number }
      writeBack file.flush?.toList
  else
    let flushes := (← get).flushes devices
    modify fun machine => { machine with files := [] }
    writeBack flushes

def readFields (number : Int) : List Cell → Run σ (List Value)
  | [] => return []
  | target :: rest => do
    let (field, file) := (← inputFile number).readField
    setFile number file
    match field with
    | none => fail (.device .endOfInput)
    | some text =>
      let value := fieldValue (← get).store target text
      return value :: (← readFields number rest)

def assignAll : List (Cell × Value) → Run σ Unit
  | [] => return
  | (target, value) :: rest => do
    assign target value
    assignAll rest

def fileInput : Run σ Unit := do
  let targets ← popTargets
  let number ← popFileNumber
  let _ ← inputFile number
  let values ← readFields number targets
  assignAll (targets.zip values)

def fileLineInput : Run σ Unit := do
  let target ← popReference
  let number ← popFileNumber
  let (line, file) := (← inputFile number).readLine
  setFile number file
  match line with
  | some text => assign target (.string text)
  | none => fail (.device .endOfInput)

def eof : Run σ Unit := do
  let file ← inputFile (← popFileNumber)
  push (.ofBool file.isAtEnd)

end Run

end BasicLang
