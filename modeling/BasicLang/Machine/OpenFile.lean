import BasicLang.Syntax.Stmt
import BasicLang.Text.Blank
import BasicLang.Text.Bytes

set_option autoImplicit false

namespace BasicLang

/-- The number of characters after the last line break, for text that follows `column` others. -/
def columnAfter (column : Nat) (text : String) : Nat :=
  text.toList.foldl (fun column char => if char = '\n' then 0 else column + 1) column

structure OpenFile where
  path : String
  mode : FileMode
  text : String
  position : Nat
  column : Nat

structure Flush where
  path : String
  contents : String
  append : Bool
deriving Repr, DecidableEq

namespace OpenFile

def input (path contents : String) : OpenFile :=
  { path, mode := .input, text := contents, position := 0, column := 0 }

def output (path : String) (mode : FileMode) : OpenFile :=
  { path, mode, text := "", position := 0, column := 0 }

def isInput (file : OpenFile) : Bool := file.mode == .input

def rest? (file : OpenFile) : Option (List Char) :=
  (Text.splitAt? file.text.toList file.position).map Prod.snd

def isAtEnd? (file : OpenFile) : Option Bool :=
  file.rest?.map fun rest => rest.all fun char => char == '\r' || char == '\n'

def write (file : OpenFile) (text : String) : OpenFile :=
  { file with text := file.text ++ text, column := columnAfter file.column text }

def dropLast (test : Char → Bool) (chars : List Char) : List Char :=
  (chars.reverse.dropWhile test).reverse

def lineAt? (chars : List Char) : Option (List Char × Nat) :=
  match Text.findByte? (· == '\n') chars with
  | some place => (Text.splitAt? chars place).map fun (line, _) => (line, place + 1)
  | none => some (chars, byteSize chars)

def readLine? (file : OpenFile) : Option (Option String × OpenFile) :=
  if file.text.utf8ByteSize ≤ file.position then some (none, file)
  else do
    let rest ← file.rest?
    let (line, length) ← lineAt? rest
    return (some (String.ofList (dropLast (· == '\r') line)), { file with position := file.position + length })

def isFieldBlank (char : Char) : Bool :=
  char == ' ' || char == '\t' || char == '\r' || char == '\n'

def isSeparator (char : Char) : Bool := char == ',' || char == '\n'

/-- The field at the start of text that does not start with a blank, and the number of its bytes. A field in quotes
may hold separators, and its closing quote may be missing. -/
def fieldAt? : List Char → Option (List Char × Nat)
  | '"' :: quoted =>
    let length := (Text.findByte? (· == '"') quoted).getD (byteSize quoted)
    (Text.splitAt? quoted length).map fun (content, _) => (content, 1 + min (length + 1) (byteSize quoted))
  | chars =>
    let length := (Text.findByte? isSeparator chars).getD (byteSize chars)
    (Text.splitAt? chars length).map fun (content, _) => (dropLast isBlank content, length)

def behindSeparator? (file : OpenFile) (place : Nat) : Option Nat :=
  (Text.splitAt? file.text.toList place).map fun (_, after) =>
    match Text.findByte? isSeparator after with
    | some more => place + more + 1
    | none => file.text.utf8ByteSize

def readField? (file : OpenFile) : Option (Option String × OpenFile) := do
  let rest ← file.rest?
  let trimmed := rest.dropWhile isFieldBlank
  if trimmed.isEmpty then some (none, { file with position := file.text.utf8ByteSize })
  else
    let start := file.position + (byteSize rest - byteSize trimmed)
    let (content, length) ← fieldAt? trimmed
    let position ← file.behindSeparator? (start + length)
    return (some (String.ofList content), { file with position })

def isAtEnd (file : OpenFile) : Bool := file.isAtEnd?.getD true

def readLine (file : OpenFile) : Option String × OpenFile := file.readLine?.getD (none, file)

def readField (file : OpenFile) : Option String × OpenFile :=
  file.readField?.getD (none, { file with position := file.text.utf8ByteSize })

def flush? (file : OpenFile) : Option Flush :=
  if file.isInput then none
  else some { path := file.path, contents := file.text, append := file.mode == .append }

end OpenFile

end BasicLang
