import BasicLang.Machine.State
import BasicLang.Text.Substring

set_option autoImplicit false

namespace BasicLang

mutual

def Value.storageLength : Value → Nat
  | .string text => text.length
  | .integer _ => 2
  | .long _ => 4
  | .single _ => 4
  | .double _ => 8
  | .record _ _ fields => Value.storageLengths fields
  | .json _ => 0
  | .null => 0
  | .array _ _ _ => 0

def Value.storageLengths : List Value → Nat
  | [] => 0
  | first :: rest => first.storageLength + Value.storageLengths rest

end

def index? (text : String) : Option Nat :=
  match text.toList with
  | '+' :: digits => ofDigits? 10 digits
  | digits => ofDigits? 10 digits

def Json.step? (document : Json) (segment : String) : Option Json :=
  match document with
  | .array items => (index? segment).bind items.get?
  | .object fields => fields.get? segment
  | _ => none

def Json.lookup? (document : Json) (path : String) : Option Json :=
  let segments := (path.splitOn ".").filter fun segment => !segment.isEmpty
  segments.foldlM Json.step? document

namespace Run

variable {σ : Type}

def mapText (function : String → String) : Run σ Unit := do
  pushText (function (← popText))

def takeText (take : String → Int → String) : Run σ Unit := do
  let count ← popInt
  let text ← popText
  if count < 0 then fail (.negativeLength count) else pushText (take text count)

def radix (base : Nat) : Run σ Unit := do
  let number ← popInt
  pushText (radixText base number)

def asc : Run σ Unit := do
  match Text.firstCode (← popText) with
  | some code => pushLong code
  | none => fail .codeOfEmpty

def chr : Run σ Unit := do
  let code ← popInt
  match Text.ofCode code with
  | some text => pushText text
  | none => fail (.badCode code)

def instr : Run σ Unit := do
  let count ← popArgumentCount 3
  let needle ← popText
  let haystack ← popText
  let start ← if count = 3 then popInt else pure 1
  if start < 1 then fail (.badStart start) else pushLong (Text.position start haystack needle)

def mid : Run σ Unit := do
  let count ← popArgumentCount 3
  let length ← if count = 3 then do pure (some (← popInt)) else pure none
  let start ← popInt
  let text ← popText
  if start < 1 || length.any (· < 0) then fail .badPosition
  else pushText (Text.mid text start length)

def len : Run σ Unit := do
  let value ← popValue
  pushLong value.storageLength

def space : Run σ Unit := do
  let count ← popInt
  if count < 0 ∨ Text.maxLength < count then fail (.badSpaces count)
  else pushText (Text.spaces count)

def str : Run σ Unit := do
  let value ← popValue
  pushText (signedText value.text)

def fillChar? : Value → Option Char
  | .string text => text.toList.head?
  | other => other.toInt?.bind fun code => (Text.ofCode code).bind fun text => text.toList.head?

def string : Run σ Unit := do
  let filler ← popValue
  let count ← popInt
  match fillChar? filler with
  | some char =>
    if count < 0 ∨ Text.maxLength < count then fail .badFill else pushText (Text.fill count char)
  | none => fail .badFill

def val : Run σ Unit := do
  let text ← popText
  push (.double (numberPrefix text))

def popJson : Run σ Json := do
  match ← popValue with
  | .json document => return document
  | .null => return .null
  | other => fail (.expectedJson other.typeName)

def jsonParse : Run σ Unit := do
  match Json.parse? (← popText) with
  | some document => push (.json document)
  | none => fail .badJson

def jsonGet : Run σ Unit := do
  let path ← popText
  let document ← popJson
  match document.lookup? path with
  | some (.text text) => pushText text
  | some other => pushText other.render
  | none => pushText ""

def jsonStr : Run σ Unit := do
  let document ← popJson
  pushText document.render

end Run

end BasicLang
