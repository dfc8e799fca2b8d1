import BasicLang.Json
import BasicLang.Lexer
import BasicLang.Syntax.BlockGrammar
import BasicLang.Text.WordChar
import BasicLang.Typing.Program

set_option autoImplicit false

namespace BasicLang

namespace Text

def units16 : List Char → Nat
  | [] => 0
  | char :: rest => (if char.toNat < 0x10000 then 1 else 2) + units16 rest

def length16 (chars : List Char) : UInt32 := UInt32.ofNat (units16 chars)

def splitBytes (budget : Nat) : List Char → List Char × List Char
  | [] => ([], [])
  | char :: rest =>
    if char.utf8Size ≤ budget then
      let (before, after) := splitBytes (budget - char.utf8Size) rest
      (char :: before, after)
    else ([], char :: rest)

def dropReturn : List Char → List Char
  | '\r' :: rest => rest
  | chars => chars

/-- Lines without their ends, where the second argument is the current line read backwards. Nothing
follows the last line feed. -/
def linesFrom : List Char → List Char → List (List Char)
  | [], [] => []
  | [], line => [line.reverse]
  | char :: rest, line =>
    if char = '\n' then (dropReturn line).reverse :: linesFrom rest []
    else linesFrom rest (char :: line)

def lines (source : String) : List (List Char) := linesFrom source.toList []

end Text

structure Position where
  line : UInt32
  character : UInt32
deriving Repr, DecidableEq

structure Range where
  start : Position
  stop : Position
deriving Repr, DecidableEq

namespace Range

def isWordChar (char : Char) : Bool :=
  isAlphanumeric char || ['$', '%', '&', '!', '#', '_', '.'].contains char

def covered (chars : List Char) : List Char :=
  let word := chars.takeWhile isWordChar
  if word.isEmpty then chars.take 1 else word

/-- The word at a place in the lines of a source, or one character where there is none. The column
counts bytes; one inside a character means its start. -/
def ofLocus (lines : List (List Char)) (locus : Locus) : Range :=
  let line := UInt32.ofNat (locus.line - 1)
  match lines[locus.line - 1]? with
  | none => ⟨⟨line, 0⟩, ⟨line, 0⟩⟩
  | some chars =>
    let (before, rest) := Text.splitBytes (locus.column - 1) chars
    ⟨⟨line, Text.length16 before⟩, ⟨line, Text.length16 (before ++ covered rest)⟩⟩

end Range

structure Finding where
  range : Range
  message : String
deriving Repr, DecidableEq

namespace Finding

def make (lines : List (List Char)) (locus : Locus) (message : String) : Finding :=
  { range := .ofLocus lines locus, message }

/-- All errors of a document. The parser goes on after characters that no token starts with, but
types are checked only in what could be parsed. -/
def all (source : String) : List Finding :=
  let lines := Text.lines source
  let (tokens, lexErrors) := tokenize source
  let lexical := lexErrors.map fun error => make lines error.locus error.message
  match parse tokens with
  | .error errors => lexical ++ errors.map fun error => make lines error.locus error.message
  | .ok program =>
    lexical ++ (program.check .standard).diagnostics.map fun diagnostic =>
      make lines diagnostic.locus diagnostic.message

end Finding

def Position.json (position : Position) : Json :=
  .ofFields [("line", .integer position.line.toNat), ("character", .integer position.character.toNat)]

def Range.json (range : Range) : Json :=
  .ofFields [("start", range.start.json), ("end", range.stop.json)]

def Finding.json (finding : Finding) : Json :=
  .ofFields
    [("message", .text finding.message), ("range", finding.range.json), ("severity", .integer 1),
      ("source", .text "qbvm")]

end BasicLang
