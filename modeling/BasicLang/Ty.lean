import BasicLang.Text.Case

set_option autoImplicit false

namespace BasicLang

mutual

inductive Ty where
  | integer
  | long
  | single
  | double
  | string
  | json
  | any
  | null
  | array (element : Ty) (rank : Nat)
  | record (name : String) (members : Members)
deriving Repr, DecidableEq

inductive Members where
  | nil
  | cons (name : String) (ty : Ty) (rest : Members)
deriving Repr, DecidableEq

end

instance : Inhabited Ty := ⟨.any⟩

namespace Members

def ofList : List (String × Ty) → Members
  | [] => .nil
  | (name, ty) :: rest => .cons name ty (ofList rest)

def toList : Members → List (String × Ty)
  | .nil => []
  | .cons name ty rest => (name, ty) :: rest.toList

def length : Members → Nat
  | .nil => 0
  | .cons _ _ rest => rest.length + 1

def index? (member : String) : Members → Option Nat
  | .nil => none
  | .cons name _ rest =>
    if Text.sameName name member then some 0 else (rest.index? member).map (· + 1)

def type? (member : String) : Members → Option Ty
  | .nil => none
  | .cons name ty rest => if Text.sameName name member then some ty else rest.type? member

end Members

namespace Ty

def name : Ty → String
  | .integer => "INTEGER"
  | .long => "LONG"
  | .single => "SINGLE"
  | .double => "DOUBLE"
  | .string => "STRING"
  | .json => "JSON"
  | .any => "ANY"
  | .null => "NULL"
  | .array element _ => element.name ++ "()"
  | .record name _ => Text.upperAscii name

def ofSigil? (name : String) : Option Ty :=
  match name.toList.getLast? with
  | some '%' => some .integer
  | some '&' => some .long
  | some '!' => some .single
  | some '#' => some .double
  | some '$' => some .string
  | _ => none

def numericRank? : Ty → Option Nat
  | .integer => some 0
  | .long => some 1
  | .single => some 2
  | .double => some 3
  | _ => none

def isNumeric (ty : Ty) : Bool := ty.numericRank?.isSome

def isArray : Ty → Bool
  | .array _ _ => true
  | _ => false

def isDynamic : Ty → Bool
  | .any => true
  | .null => true
  | _ => false

def isCompatible : Ty → Ty → Bool
  | .any, _ => true
  | _, .any => true
  | .array left _, .array right _ => left.isCompatible right
  | .array _ _, _ => false
  | _, .array _ _ => false
  | left, right => (left.isNumeric && right.isNumeric) || left.name == right.name

def wider (left right : Ty) : Ty :=
  match left.numericRank?, right.numericRank? with
  | some leftRank, some rightRank => if leftRank < rightRank then right else left
  | _, _ => left

def integral (ty : Ty) : Ty := if ty = .integer then .integer else .long

end Ty

end BasicLang
