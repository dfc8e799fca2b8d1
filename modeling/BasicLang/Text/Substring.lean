import BasicLang.Text.Blank

set_option autoImplicit false

namespace BasicLang

namespace Text

def maxLength : Nat := 32767

def left (text : String) (count : Int) : String :=
  String.ofList (text.toList.take count.toNat)

def right (text : String) (count : Int) : String :=
  let chars := text.toList
  String.ofList (chars.drop (chars.length - count.toNat))

def mid (text : String) (start : Int) (length? : Option Int) : String :=
  if start < 1 then ""
  else
    let chars := text.toList.drop (start - 1).toNat
    match length? with
    | some count => String.ofList (chars.take count.toNat)
    | none => String.ofList chars

def occurrence? (needle : List Char) : List Char → Option Nat
  | [] => if needle.isEmpty then some 0 else none
  | char :: rest =>
    if needle.isPrefixOf (char :: rest) then some 0
    else (occurrence? needle rest).map (· + 1)

/-- The position of the first `needle` at or after `start`, or zero. A needle of no characters
is found at `start`, and in an empty text at its first position only. -/
def position (start : Int) (haystack needle : String) : Int :=
  let first := (max start 1).toNat
  let chars := haystack.toList
  if chars.length < first then
    if needle.isEmpty ∧ chars.isEmpty ∧ first = 1 then 1 else 0
  else
    match occurrence? needle.toList (chars.drop (first - 1)) with
    | some skipped => first + skipped
    | none => 0

def isSpace (char : Char) : Bool := char == ' '

def trimLeft (text : String) : String := trimStart isSpace text
def trimRight (text : String) : String := trimEnd isSpace text

def fill (count : Int) (char : Char) : String :=
  String.ofList (List.replicate (min count.toNat maxLength) char)

def spaces (count : Int) : String := fill count ' '

def ofCode (code : Int) : Option String :=
  if 0 ≤ code ∧ code ≤ 255 then some (Char.ofNat code.toNat).toString else none

def firstCode (text : String) : Option Nat := text.toList.head?.map Char.toNat

def measure? (count : Nat) : Option UInt16 := if count < UInt16.size then some (UInt16.ofNat count) else none

def padLeft (width : UInt16) (text : String) : String :=
  String.ofList (List.replicate (width.toNat - text.length) ' ') ++ text

def padRight (width : UInt16) (text : String) : String :=
  text ++ String.ofList (List.replicate (width.toNat - text.length) ' ')

end Text

end BasicLang
