import BasicLang.Number.Style
import BasicLang.Text.Substring

set_option autoImplicit false

namespace BasicLang

structure NumberField where
  before : Nat
  after : Option Nat
  commas : Bool
  leadingPlus : Bool
  trailingMinus : Bool
deriving Repr, DecidableEq

inductive TemplateField where
  | literal (text : String)
  | number (layout : NumberField)
  | firstChar
  | wholeText
  | fixedWidth (width : Nat)
deriving Repr, DecidableEq

inductive TemplateArgument where
  | number (value : Float)
  | text (value : String)

inductive TemplateFault where
  | unsuited
  | tooWide
deriving Repr, DecidableEq

namespace NumberField

def splitPlaces : Bool → List Char → List Char × List Char
  | _, '#' :: rest =>
    let (places, remaining) := splitPlaces true rest
    ('#' :: places, remaining)
  | true, ',' :: rest =>
    let (places, remaining) := splitPlaces true rest
    (',' :: places, remaining)
  | _, chars => ([], chars)

def ofChars (leadingPlus : Bool) (chars : List Char) : NumberField × List Char :=
  let (places, afterPlaces) := splitPlaces false chars
  let (after, afterPoint) :=
    match afterPlaces with
    | '.' :: rest => (some (rest.takeWhile (· == '#')).length, rest.dropWhile (· == '#'))
    | rest => (none, rest)
  let (trailingMinus, remaining) :=
    match afterPoint with
    | '-' :: rest => (true, rest)
    | rest => (false, rest)
  ({ before := places.length, after, commas := places.contains ',', leadingPlus, trailingMinus },
    remaining)

def startsAt : List Char → Bool
  | '#' :: _ => true
  | '.' :: '#' :: _ => true
  | '+' :: '#' :: _ => true
  | '+' :: '.' :: _ => true
  | _ => false

def groupThousands (digits : String) : String :=
  let count := digits.length
  String.ofList <| (digits.toList.zipIdx).flatMap fun (char, index) =>
    if 0 < index ∧ (count - index) % 3 = 0 then [',', char] else [char]

def splitMagnitude (places : UInt16) (value : Float) : String × String :=
  match Binary.ofDouble value with
  | .nan => ("NaN", "")
  | .infinite _ => ("inf", "")
  | .finite _ significand exponent =>
    let units := Decimal.fixed places significand exponent
    let digits := NumberStyle.padZeros (places.toNat + 1) (toString units)
    let whole := digits.length - places.toNat
    (String.ofList (digits.toList.take whole), String.ofList (digits.toList.drop whole))

def width (layout : NumberField) : Nat :=
  layout.before + (match layout.after with | some places => places + 1 | none => 0) +
    if layout.leadingPlus then 1 else 0

def places (layout : NumberField) : Nat := layout.after.getD 0

def signed (layout : NumberField) (places : UInt16) (value : Float) : String :=
  let negative := value < 0
  let (whole, fraction) := splitMagnitude places value
  let grouped := if layout.commas then groupThousands whole else whole
  let shown := if grouped = "0" ∧ layout.before ≤ 1 ∧ 0 < places then "" else grouped
  let text := if layout.after.isSome then shown ++ "." ++ fraction else shown
  let sign :=
    if layout.leadingPlus then (if negative then "-" else "+")
    else if negative ∧ !layout.trailingMinus then "-"
    else ""
  sign ++ text

def format? (layout : NumberField) (value : Float) : Option String := do
  let places ← Text.measure? layout.places
  let signed := layout.signed places value
  let fitted ←
    if signed.length < layout.width then (Text.measure? layout.width).map fun width => Text.padLeft width signed
    else if layout.width < signed.length then some ("%" ++ signed)
    else some signed
  return if layout.trailingMinus then fitted ++ (if value < 0 then "-" else " ") else fitted

end NumberField

namespace TemplateField

def isLiteral : TemplateField → Bool
  | .literal _ => true
  | _ => false

def flush (pending : List Char) (fields : List TemplateField) : List TemplateField :=
  if pending.isEmpty then fields else .literal (String.ofList pending.reverse) :: fields

def closingBackslash? (chars : List Char) : Option Nat :=
  let inner := chars.takeWhile (· == ' ')
  match chars.drop inner.length with
  | '\\' :: _ => some inner.length
  | _ => none

/-- The fields of a template, `pending` being the literal characters read last. An underscore
makes the next character a literal one. -/
def scan (pending : List Char) (chars : List Char) : Nat → List TemplateField
  | 0 => flush pending []
  | fuel + 1 =>
    match chars with
    | [] => flush pending []
    | '_' :: escaped :: rest => scan (escaped :: pending) rest fuel
    | ['_'] => flush pending []
    | '!' :: rest => flush pending (.firstChar :: scan [] rest fuel)
    | '&' :: rest => flush pending (.wholeText :: scan [] rest fuel)
    | '\\' :: rest =>
      match closingBackslash? rest with
      | some inner =>
        flush pending (.fixedWidth (inner + 2) :: scan [] (rest.drop (inner + 1)) fuel)
      | none => scan ('\\' :: pending) rest fuel
    | char :: rest =>
      if NumberField.startsAt chars then
        let (layout, remaining) :=
          NumberField.ofChars (char == '+') (if char = '+' then rest else chars)
        flush pending (.number layout :: scan [] remaining fuel)
      else scan (char :: pending) rest fuel

def ofTemplate (template : String) : List TemplateField :=
  scan [] template.toList template.length

def laidOut (text? : Option String) : Except TemplateFault String :=
  match text? with
  | some text => .ok text
  | none => .error .tooWide

def fill : TemplateField → TemplateArgument → Except TemplateFault String
  | .number layout, .number value => laidOut (layout.format? value)
  | .firstChar, .text value => .ok (Text.left value 1)
  | .wholeText, .text value => .ok value
  | .fixedWidth count, .text value =>
    laidOut ((Text.measure? count).map fun width => Text.padRight width (Text.left value count))
  | _, _ => .error .unsuited

/-- One pass over the fields: the text written, the arguments that remain, and whether the pass
stopped at a field without argument. -/
def pass : List TemplateField → List TemplateArgument →
    Except TemplateFault (String × List TemplateArgument × Bool)
  | [], arguments => .ok ("", arguments, false)
  | .literal text :: fields, arguments =>
    (pass fields arguments).map fun (written, remaining, stopped) =>
      (text ++ written, remaining, stopped)
  | _ :: _, [] => .ok ("", [], true)
  | field :: fields, argument :: arguments => do
    let filled ← field.fill argument
    let (written, remaining, stopped) ← pass fields arguments
    return (filled ++ written, remaining, stopped)

def passes (fields : List TemplateField) (arguments : List TemplateArgument) :
    Nat → Except TemplateFault String
  | 0 => .ok ""
  | fuel + 1 => do
    let (written, remaining, stopped) ← pass fields arguments
    if stopped || remaining.isEmpty then return written
    else return written ++ (← passes fields remaining fuel)

end TemplateField

def formatUsing (template : String) (arguments : List TemplateArgument) : Except TemplateFault String :=
  let fields := TemplateField.ofTemplate template
  if fields.all TemplateField.isLiteral then .error .unsuited
  else TemplateField.passes fields arguments (arguments.length + 1)

end BasicLang
