import BasicLang.Number.Reading
import BasicLang.Number.Style
import BasicLang.Text.Quoted

set_option autoImplicit false

namespace BasicLang

-- Documents are read and written by a library that is not part of the program. What stands here follows the format;
-- no theorem rests on what it computes.

mutual

inductive Json where
  | null
  | boolean (value : Bool)
  | integer (value : Int)
  | real (value : Float)
  | text (value : String)
  | array (items : JsonItems)
  | object (fields : JsonFields)

inductive JsonItems where
  | nil
  | cons (head : Json) (tail : JsonItems)

inductive JsonFields where
  | nil
  | cons (key : String) (value : Json) (tail : JsonFields)

end

instance : Inhabited Json := ⟨.null⟩

def JsonItems.get? : JsonItems → Nat → Option Json
  | .nil, _ => none
  | .cons head _, 0 => some head
  | .cons _ tail, index + 1 => tail.get? index

def JsonItems.length : JsonItems → Nat
  | .nil => 0
  | .cons _ tail => tail.length + 1

namespace JsonFields

def get? (key : String) : JsonFields → Option Json
  | .nil => none
  | .cons name value tail => if name = key then some value else get? key tail

def insert (key : String) (value : Json) : JsonFields → JsonFields
  | .nil => .cons key value .nil
  | .cons name old tail =>
    if key = name then .cons name value tail
    else if key < name then .cons key value (.cons name old tail)
    else .cons name old (insert key value tail)

def length : JsonFields → Nat
  | .nil => 0
  | .cons _ _ tail => tail.length + 1

end JsonFields

def JsonItems.toList : JsonItems → List Json
  | .nil => []
  | .cons head tail => head :: tail.toList

def JsonItems.ofList : List Json → JsonItems
  | [] => .nil
  | head :: tail => .cons head (ofList tail)

namespace Json

def ofItems (items : List Json) : Json := .array (.ofList items)

def ofFields (fields : List (String × Json)) : Json :=
  .object (fields.foldl (fun made (key, value) => made.insert key value) .nil)

def field? (key : String) : Json → Option Json
  | .object fields => fields.get? key
  | _ => none

def items? : Json → Option (List Json)
  | .array items => some items.toList
  | _ => none

def text? : Json → Option String
  | .text value => some value
  | _ => none

def int? : Json → Option Int
  | .integer value => some value
  | _ => none

def escapeChar (char : Char) : String :=
  if char = '"' then "\\\""
  else if char = '\\' then "\\\\"
  else if char = '\n' then "\\n"
  else if char = '\r' then "\\r"
  else if char = '\t' then "\\t"
  else if char = '\x08' then "\\b"
  else if char = '\x0c' then "\\f"
  else if char.toNat < 32 then "\\u" ++ NumberStyle.padZeros 4 (Text.hexDigits char.toNat)
  else char.toString

def quoted (text : String) : String :=
  "\"" ++ String.join (text.toList.map escapeChar) ++ "\""

mutual

def render : Json → String
  | .null => "null"
  | .boolean value => if value then "true" else "false"
  | .integer value => toString value
  | .real value => NumberStyle.json.double value
  | .text value => quoted value
  | .array items => "[" ++ renderItems items ++ "]"
  | .object fields => "\x7b" ++ renderFields fields ++ "\x7d"

def renderItems : JsonItems → String
  | .nil => ""
  | .cons head .nil => render head
  | .cons head tail => render head ++ "," ++ renderItems tail

def renderFields : JsonFields → String
  | .nil => ""
  | .cons key value .nil => quoted key ++ ":" ++ render value
  | .cons key value tail => quoted key ++ ":" ++ render value ++ "," ++ renderFields tail

end

def depthLimit : Nat := 127

def skipBlanks (chars : List Char) : List Char :=
  chars.dropWhile fun char => char == ' ' || char == '\n' || char == '\t' || char == '\r'

/-- `significand * 10 ^ exponent` by one multiplication or division by a power of ten, or by
several divisions where the power is not a double. Nothing if it is too large. -/
def scale? (significand : Float) (exponent : Int) : Nat → Option Float
  | 0 => none
  | fuel + 1 =>
    let power := exponent.natAbs
    if power ≤ 308 then
      if 0 ≤ exponent then
        let product := significand * Float.ofScientific 1 false power
        if Double.isFinite product then some product else none
      else some (significand / Float.ofScientific 1 false power)
    else if significand == 0 then some significand
    else if 0 ≤ exponent then none
    else scale? (significand / Float.ofScientific 1 false 308) (exponent + 308) fuel

def takeDigits (significand count : Nat) : List Char → Nat × Nat × List Char
  | [] => (significand, count, [])
  | char :: rest =>
    match digitValue? 10 char with
    | some digit =>
      if significand * 10 + digit < 0x10000000000000000 then
        takeDigits (significand * 10 + digit) (count + 1) rest
      else (significand, count, char :: rest)
    | none => (significand, count, char :: rest)

def readExponent? (chars : List Char) : Option (Int × List Char) :=
  let (negative, digits) := NumberText.splitSign chars
  let run := digits.takeWhile NumberText.isDigit
  if run.isEmpty then none
  else
    let power : Int := ofDigits 10 run
    some (if negative then -power else power, digits.drop run.length)

def finishReal? (negative : Bool) (significand : Nat) (exponent : Int) (chars : List Char) :
    Option (Json × List Char) := do
  let (power, rest) ←
    match chars with
    | 'e' :: rest => readExponent? rest
    | 'E' :: rest => readExponent? rest
    | rest => some (0, rest)
  let magnitude ←
    if 0x80000000 ≤ power.natAbs then
      if significand ≠ 0 ∧ 0 < power then none else some 0
    else scale? (Float.ofNat significand) (exponent + power) (power.natAbs / 308 + chars.length + 2)
  return (.real (if negative then -magnitude else magnitude), rest)

def readNumber? (negative : Bool) (chars : List Char) : Option (Json × List Char) :=
  match chars with
  | [] => none
  | first :: afterFirst =>
    if !NumberText.isDigit first then none
    else if first = '0' ∧ (afterFirst.head?.any NumberText.isDigit) then none
    else
      let (significand, _, rest) := takeDigits 0 0 chars
      let dropped := (rest.takeWhile NumberText.isDigit).length
      match rest.drop dropped with
      | '.' :: fraction =>
        let (extended, places, afterPlaces) :=
          if dropped = 0 then takeDigits significand 0 fraction else (significand, 0, fraction)
        let unread := (afterPlaces.takeWhile NumberText.isDigit).length
        if places = 0 ∧ unread = 0 then none
        else finishReal? negative extended ((dropped : Int) - places) (afterPlaces.drop unread)
      | 'e' :: afterMark => finishReal? negative significand dropped ('e' :: afterMark)
      | 'E' :: afterMark => finishReal? negative significand dropped ('E' :: afterMark)
      | others =>
        if dropped ≠ 0 then finishReal? negative significand dropped others
        else if !negative then some (.integer significand, others)
        else if significand = 0 ∨ 0x8000000000000000 < significand then
          some (.real (-(Float.ofNat significand)), others)
        else some (.integer (-significand), others)

def readHex? : List Char → Option (Nat × List Char)
  | a :: b :: c :: d :: rest =>
    if [a, b, c, d].all (isDigitOf 16) then some (ofDigits 16 [a, b, c, d], rest) else none
  | _ => none

/-- The character of an escape, after its backslash. Characters beyond the basic plane are
written as two escapes. -/
def readEscape? : List Char → Option (Char × List Char)
  | '"' :: rest => some ('"', rest)
  | '\\' :: rest => some ('\\', rest)
  | '/' :: rest => some ('/', rest)
  | 'b' :: rest => some ('\x08', rest)
  | 'f' :: rest => some ('\x0c', rest)
  | 'n' :: rest => some ('\n', rest)
  | 'r' :: rest => some ('\r', rest)
  | 't' :: rest => some ('\t', rest)
  | 'u' :: rest => do
    let (unit, afterUnit) ← readHex? rest
    if 0xDC00 ≤ unit ∧ unit ≤ 0xDFFF then none
    else if 0xD800 ≤ unit ∧ unit ≤ 0xDBFF then
      match afterUnit with
      | '\\' :: 'u' :: afterMark =>
        let (low, afterLow) ← readHex? afterMark
        if 0xDC00 ≤ low ∧ low ≤ 0xDFFF then
          some (Char.ofNat (0x10000 + (unit - 0xD800) * 0x400 + (low - 0xDC00)), afterLow)
        else none
      | _ => none
    else some (Char.ofNat unit, afterUnit)
  | _ => none

def readText? : Nat → List Char → List Char → Option (String × List Char)
  | 0, _, _ => none
  | _ + 1, _, [] => none
  | fuel + 1, read, char :: rest =>
    if char = '"' then some (String.ofList read.reverse, rest)
    else if char = '\\' then do
      let (escaped, afterEscape) ← readEscape? rest
      readText? fuel (escaped :: read) afterEscape
    else if char.toNat < 32 then none
    else readText? fuel (char :: read) rest

mutual

def readValue? (depth : Nat) : Nat → List Char → Option (Json × List Char)
  | 0, _ => none
  | fuel + 1, chars =>
    match skipBlanks chars with
    | 'n' :: 'u' :: 'l' :: 'l' :: rest => some (.null, rest)
    | 't' :: 'r' :: 'u' :: 'e' :: rest => some (.boolean true, rest)
    | 'f' :: 'a' :: 'l' :: 's' :: 'e' :: rest => some (.boolean false, rest)
    | '"' :: rest =>
      (readText? (rest.length + 1) [] rest).map fun (read, more) => (.text read, more)
    | '-' :: rest => readNumber? true rest
    | '[' :: rest =>
      if depth = 0 then none
      else
        match skipBlanks rest with
        | ']' :: more => some (.array .nil, more)
        | more => (readItems? (depth - 1) fuel more).map fun (items, left) => (.array items, left)
    | '\x7b' :: rest =>
      if depth = 0 then none
      else
        match skipBlanks rest with
        | '\x7d' :: more => some (.object .nil, more)
        | more =>
          (readFields? (depth - 1) fuel .nil more).map fun (fields, left) => (.object fields, left)
    | rest => readNumber? false rest

def readItems? (depth : Nat) : Nat → List Char → Option (JsonItems × List Char)
  | 0, _ => none
  | fuel + 1, chars => do
    let (head, afterHead) ← readValue? depth fuel chars
    match skipBlanks afterHead with
    | ']' :: rest => some (.cons head .nil, rest)
    | ',' :: rest =>
      let (tail, left) ← readItems? depth fuel rest
      some (.cons head tail, left)
    | _ => none

def readFields? (depth : Nat) : Nat → JsonFields → List Char → Option (JsonFields × List Char)
  | 0, _, _ => none
  | fuel + 1, read, chars =>
    match skipBlanks chars with
    | '"' :: afterQuote => do
      let (key, afterKey) ← readText? (afterQuote.length + 1) [] afterQuote
      match skipBlanks afterKey with
      | ':' :: afterColon =>
        let (value, afterValue) ← readValue? depth fuel afterColon
        let fields := read.insert key value
        match skipBlanks afterValue with
        | '\x7d' :: rest => some (fields, rest)
        | ',' :: rest => readFields? depth fuel fields rest
        | _ => none
      | _ => none
    | _ => none

end

def parse? (text : String) : Option Json := do
  let (value, rest) ← readValue? depthLimit (2 * text.length + 2) text.toList
  if (skipBlanks rest).isEmpty then some value else none

end Json

end BasicLang
