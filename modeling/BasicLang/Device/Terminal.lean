import BasicLang.Device.Interface

set_option autoImplicit false

namespace BasicLang

inductive PathError where
  | notFound
  | notFolder
  | isFolder
  | nameTooLong
deriving Repr, DecidableEq

def PathError.message : PathError → String
  | .notFound => "No such file or directory (os error 2)"
  | .notFolder => "Not a directory (os error 20)"
  | .isFolder => "Is a directory (os error 21)"
  | .nameTooLong => "File name too long (os error 36)"

structure Directory where
  files : List (List String × String)

namespace Directory

def get? (directory : Directory) (place : List String) : Option String :=
  directory.files.lookup place

def isFolder (directory : Directory) (place : List String) : Bool :=
  place.isEmpty || directory.files.any fun (file, _) =>
    place.isPrefixOf file && decide (place.length < file.length)

def set (directory : Directory) (place : List String) (text : String) : Directory :=
  if (directory.get? place).isSome then
    ⟨directory.files.map fun (file, old) => if file = place then (file, text) else (file, old)⟩
  else ⟨directory.files ++ [(place, text)]⟩

def longestName : Nat := 255

def follow (directory : Directory) (folder : List String) :
    List String → Except PathError (List String)
  | [] => .ok folder
  | name :: rest =>
    if name = "" ∨ name = "." then directory.follow folder rest
    else if name = ".." then directory.follow folder.dropLast rest
    else if longestName < name.utf8ByteSize then .error .nameTooLong
    else
      let place := folder ++ [name]
      if rest.isEmpty ∨ directory.isFolder place then directory.follow place rest
      else if (directory.get? place).isSome then .error .notFolder
      else .error .notFound

def locate (directory : Directory) (path : String) : Except PathError (List String) := do
  if path.isEmpty ∨ path.startsWith "/" then throw .notFound
  let place ← directory.follow [] (path.splitOn "/")
  if directory.isFolder place then throw .isFolder
  return place

def read (directory : Directory) (path : String) : Except PathError String := do
  match directory.get? (← directory.locate path) with
  | some text => return text
  | none => throw .notFound

def write (directory : Directory) (path contents : String) (append : Bool) :
    Except PathError Directory := do
  let place ← directory.locate path
  let before := if append then (directory.get? place).getD "" else ""
  return directory.set place (before ++ contents)

end Directory

structure Terminal where
  printed : List String
  input : List Char
  directory : Directory
  root : String
  clock : Float

namespace Terminal

def create (directory : Directory) (root input : String) : Terminal :=
  { printed := [], input := input.toList, directory, root, clock := 0 }

def print (terminal : Terminal) (text : String) : Terminal :=
  { terminal with printed := text :: terminal.printed }

def output (terminal : Terminal) : String := String.join terminal.printed.reverse

def control (terminal : Terminal) (sequence : String) : Terminal :=
  terminal.print ("\x1b[" ++ sequence)

def colorCode (color : Int) : Nat :=
  if 0 ≤ color then
    [30, 34, 32, 36, 31, 35, 33, 37, 90, 94, 92, 96, 91, 95, 93, 97].getD color.toNat 37
  else 37

def locate (row column : Option Int) (terminal : Terminal) : Terminal :=
  match row, column with
  | some row, some column => terminal.control (toString row ++ ";" ++ toString column ++ "H")
  | some row, none => terminal.control (toString row ++ "d")
  | none, some column => terminal.control (toString column ++ "G")
  | none, none => terminal

def color (foreground background : Option Int) (terminal : Terminal) : Terminal :=
  let front :=
    match foreground with
    | some color => terminal.control (toString (colorCode color) ++ "m")
    | none => terminal
  match background with
  | some color => front.control (toString (colorCode color + 10) ++ "m")
  | none => front

def stripEnd (line : List Char) : List Char :=
  match line.reverse with
  | '\n' :: '\r' :: rest => rest.reverse
  | '\n' :: rest => rest.reverse
  | _ => line

def readLine : DeviceAction Terminal String := fun terminal =>
  if terminal.input.isEmpty then (.error .endOfInput, terminal)
  else
    let line := terminal.input.takeWhile (· != '\n')
    (.ok (String.ofList (stripEnd (terminal.input.take (line.length + 1)))),
      { terminal with input := terminal.input.drop (line.length + 1) })

def console : Console Terminal where
  print text terminal := terminal.print text
  readLine := readLine
  key terminal := (none, terminal)
  clear terminal := terminal.control "2J\x1b[H"
  locate := locate
  color := color
  beep terminal := terminal.print "\x07"
  reset terminal := terminal.control "0m"

def pathFailure (error : PathError) : DeviceError :=
  match error with
  | .notFound => .notFound error.message
  | _ => .failed error.message

def joinPath (root path : String) : String :=
  if root.isEmpty ∨ path.startsWith "/" then path else root ++ "/" ++ path

def fileStore : FileStore Terminal where
  read path terminal :=
    match terminal.directory.read (joinPath terminal.root path) with
    | .ok text => (.ok text, terminal)
    | .error error => (.error (pathFailure error), terminal)
  write path contents append terminal :=
    match terminal.directory.write (joinPath terminal.root path) contents append with
    | .ok directory => (.ok (), { terminal with directory })
    | .error error => (.error (pathFailure error), terminal)
  reset terminal := terminal

def devices : Devices Terminal :=
  { drain := .listed, console, clock := Terminal.clock, audio := none, network := none, files := some fileStore
    bus := none, crypto := none, gamepad := none, pointer := none }

end Terminal

end BasicLang
