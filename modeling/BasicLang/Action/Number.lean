import BasicLang.Machine.State

set_option autoImplicit false

namespace BasicLang

def Double.toNanoseconds (seconds : Float) : Nat :=
  match Binary.ofDouble seconds with
  | .finite false significand (.ofNat power) => significand * Nat.pow 2 power * 1000000000
  | .finite false significand (.negSucc places) =>
    divideToEven (significand * 1000000000) (Nat.pow 2 (places + 1))
  | _ => 0

namespace Run

variable {σ : Type}

def double (function : Float → Float) : Run σ Unit := do
  push (.double (function (← popNumber)))

def abs : Run σ Unit := do
  match ← popValue with
  | .integer number =>
    if number.toInt = -32768 then fail (.overflow "ABS")
    else push (.integer (Int16.ofInt number.toInt.natAbs))
  | .long number =>
    if number.toInt = -2147483648 then fail (.overflow "ABS")
    else push (.long (Int32.ofInt number.toInt.natAbs))
  | .single number => push (.single number.abs)
  | other =>
    match other.toDouble? with
    | some number => push (.double number.abs)
    | none => fail (.noMagnitude other.typeName)

def exp : Run σ Unit := do
  let result := Float.exp (← popNumber)
  if result.isInf then fail (.overflow "EXP") else push (.double result)

def log : Run σ Unit := do
  let number ← popNumber
  if number ≤ 0 then fail (.logarithm number) else push (.double (Float.log number))

def sqr : Run σ Unit := do
  let number ← popNumber
  if number < 0 then fail (.squareRoot number) else push (.double (Float.sqrt number))

def sgn : Run σ Unit := do
  let number ← popNumber
  pushInteger (Double.sign number)

def cint : Run σ Unit := do
  let number := Double.roundToEven (← popNumber)
  if number < -32768 ∨ 32767 < number then fail (.overflow "CINT")
  else pushInteger (Double.toInt number)

def clng : Run σ Unit := do
  let number := Double.roundToEven (← popNumber)
  if number < -2147483648 ∨ 2147483647 < number then fail (.overflow "CLNG")
  else pushLong (Double.toInt number)

def csng : Run σ Unit := do
  let number ← popNumber
  push (.single (Double.toSingle number))

def draw : Run σ Float :=
  modifyGet fun machine =>
    let (number, generator) := machine.generator.next
    (number, { machine with generator })

def seed (number : Float) : Run σ Unit :=
  modify fun machine => { machine with generator := machine.generator.randomize number }

def rnd : Run σ Unit := do
  if (← popArgumentCount 1) = 1 then let _ ← pop
  let number ← draw
  push (.single (Double.toSingle number))

def timer (devices : Devices σ) : Run σ Unit := do
  let seconds := devices.clock (← get).world
  push (.single (Double.toSingle seconds))

def randomize (devices : Devices σ) : Run σ Unit := do
  let number ←
    if (← popArgumentCount 1) = 1 then popNumber else pure (devices.clock (← get).world)
  seed number

end Run

end BasicLang
