import BasicLang.Grid
import BasicLang.Json
import BasicLang.Operator

set_option autoImplicit false

namespace BasicLang

inductive Value where
  | integer (value : Int16)
  | long (value : Int32)
  | single (value : Float32)
  | double (value : Float)
  | string (value : String)
  | json (value : Json)
  | null
  | array (element : Ty) (bounds : List Bounds) (slots : List Value)
  | record (name : String) (members : Members) (fields : List Value)

instance : Inhabited Value := ⟨.null⟩

inductive ValueFault where
  | typeMismatch (expected found : String)
  | subscript
  | arrayTooLarge
deriving Repr, DecidableEq

def ValueFault.ofGrid : GridFault → ValueFault
  | .subscript => .subscript
  | .tooLarge => .arrayTooLarge

def ValueFault.message : ValueFault → String
  | .typeMismatch expected found => "type mismatch: expected " ++ expected ++ ", found " ++ found
  | .subscript => "subscript out of range"
  | .arrayTooLarge => "out of memory: array too large"

def ValueFault.code : ValueFault → Nat
  | .typeMismatch _ _ => 13
  | .subscript => 9
  | .arrayTooLarge => 7

namespace Value

def ofBool (truth : Bool) : Value := .integer (if truth then -1 else 0)

def ty : Value → Ty
  | .integer _ => .integer
  | .long _ => .long
  | .single _ => .single
  | .double _ => .double
  | .string _ => .string
  | .json _ => .json
  | .null => .null
  | .array element bounds _ => .array element bounds.length
  | .record name members _ => .record name members

def typeName (value : Value) : String := value.ty.name

def toDouble? : Value → Option Float
  | .integer value => some (Double.ofInt value.toInt)
  | .long value => some (Double.ofInt value.toInt)
  | .single value => some (Single.toDouble value)
  | .double value => some value
  | .null => some 0
  | _ => none

def toInt? (value : Value) : Option Int :=
  value.toDouble?.map fun number => Double.toInt (Double.roundToEven number)

def text? : Value → Option String
  | .string value => some value
  | _ => none

def isTrue (value : Value) : Bool :=
  match value.toDouble? with
  | some number => number != 0
  | none => false

def text : Value → String
  | .integer value => toString value.toInt
  | .long value => toString value.toInt
  | .single value => Single.text value
  | .double value => Double.text value
  | .string value => value
  | .json value => value.render
  | .null => ""
  | .array element _ _ => element.name ++ "()"
  | .record name _ _ => Text.upperAscii name

end Value

def Double.toInteger (number : Float) : Int16 :=
  Int16.ofInt (Double.toInt (Double.roundToEven number))

def Double.toLong (number : Float) : Int32 :=
  Int32.ofInt (Double.toInt (Double.roundToEven number))

mutual

def Ty.default : Ty → Value
  | .integer => .integer 0
  | .long => .long 0
  | .single => .single 0
  | .double => .double 0
  | .string => .string ""
  | .json => .json .null
  | .any => .null
  | .null => .null
  | .array element rank =>
    .array element (Grid.implicitBounds rank)
      (List.replicate (Grid.implicitCount rank) element.default)
  | .record name members => .record name members members.defaults

def Members.defaults : Members → List Value
  | .nil => []
  | .cons _ ty rest => ty.default :: rest.defaults

end

/-- The value as a value of the type. Whole numbers keep their low bits, a single widens by its
decimal digits, and everything else has to be of the type already. -/
def Ty.convert (ty : Ty) (value : Value) : Except ValueFault Value :=
  let mismatch := .error (.typeMismatch ty.name value.typeName)
  match ty with
  | .integer =>
    match value.toDouble? with
    | some number => .ok (.integer (Double.toInteger number))
    | none => mismatch
  | .long =>
    match value.toDouble? with
    | some number => .ok (.long (Double.toLong number))
    | none => mismatch
  | .single =>
    match value.toDouble? with
    | some number => .ok (.single (Double.toSingle number))
    | none => mismatch
  | .double =>
    match value with
    | .single number => .ok (.double (Single.toDoubleByDigits number))
    | _ =>
      match value.toDouble? with
      | some number => .ok (.double number)
      | none => mismatch
  | .string =>
    match value with
    | .string _ => .ok value
    | _ => mismatch
  | .json =>
    match value with
    | .json _ => .ok value
    | .null => .ok (.json .null)
    | _ => mismatch
  | .any => .ok value
  | .null => .ok .null
  | .array _ _ =>
    match value with
    | .array _ _ _ => .ok value
    | _ => mismatch
  | .record name _ =>
    match value with
    | .record other _ _ => if Text.sameName other name then .ok value else mismatch
    | _ => mismatch

def Grid.set (grid : Grid Value) (element : Ty) (indices : List Int) (value : Value) :
    Except ValueFault (Grid Value) := do
  let converted ← element.convert value
  let slot ← (Grid.offset grid.bounds indices).mapError .ofGrid
  return { grid with slots := grid.slots.setIfInBounds slot converted }

end BasicLang
