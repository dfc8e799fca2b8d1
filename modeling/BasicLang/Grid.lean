
set_option autoImplicit false

namespace BasicLang

structure Bounds where
  lower : Int
  upper : Int
deriving Repr, DecidableEq

inductive GridFault where
  | subscript
  | tooLarge
deriving Repr, DecidableEq

namespace Bounds

def extent (bounds : Bounds) : Nat := (bounds.upper - bounds.lower + 1).toNat

def implicitUpper : Nat := 10

def implicit : Bounds := ⟨0, implicitUpper⟩

end Bounds

namespace Grid

def maxSlots : Nat := 0x400000

def slotCountFrom (count : Nat) : List Bounds → Except GridFault Nat
  | [] => .ok count
  | bounds :: rest =>
    if bounds.upper < bounds.lower then .error .subscript
    else if maxSlots < count * bounds.extent then .error .tooLarge
    else slotCountFrom (count * bounds.extent) rest

def slotCount (bounds : List Bounds) : Except GridFault Nat := slotCountFrom 1 bounds

def implicitBounds (rank : Nat) : List Bounds := List.replicate (max rank 1) .implicit

-- A number of 64 bits up to 18 subscripts. With more of them the product overflows, and `Grid.Built` leaves them out.
def implicitCount (rank : Nat) : Nat := Nat.pow (Bounds.implicitUpper + 1) (max rank 1)

def offsetFrom (slot : Nat) : List Bounds → List Int → Except GridFault Nat
  | [], [] => .ok slot
  | bounds :: rest, index :: indices =>
    if index < bounds.lower ∨ bounds.upper < index then .error .subscript
    else offsetFrom (slot * bounds.extent + (index - bounds.lower).toNat) rest indices
  | _, _ => .error .subscript

def offset (bounds : List Bounds) (indices : List Int) : Except GridFault Nat :=
  offsetFrom 0 bounds indices

end Grid

structure Grid (α : Type) where
  bounds : List Bounds
  slots : Array α

namespace Grid

variable {α : Type}

def make (bounds : List Bounds) (value : α) : Except GridFault (Grid α) := do
  let count ← slotCount bounds
  return ⟨bounds, Array.replicate count value⟩

def implicit (rank : Nat) (value : α) : Grid α :=
  ⟨implicitBounds rank, Array.replicate (implicitCount rank) value⟩

def get (grid : Grid α) (indices : List Int) : Except GridFault α := do
  let slot ← offset grid.bounds indices
  match grid.slots[slot]? with
  | some value => return value
  | none => throw .subscript

def kept (grid : Grid α) (count : Nat) (preserve : Bool) : Array α :=
  if preserve then grid.slots.extract 0 count else #[]

def rebound (grid : Grid α) (bounds : List Bounds) (preserve : Bool) (count : Nat)
    (fresh : Nat → Array α) : Grid α :=
  let kept := grid.kept count preserve
  ⟨bounds, kept ++ fresh (count - kept.size)⟩

def resize (grid : Grid α) (bounds : List Bounds) (preserve : Bool) (value : α) :
    Except GridFault (Grid α) := do
  let count ← slotCount bounds
  return grid.rebound bounds preserve count fun missing => Array.replicate missing value

def dimension? (grid : Grid α) (dimension : Nat) : Option Bounds :=
  match dimension with
  | 0 => none
  | index + 1 => grid.bounds[index]?

end Grid

end BasicLang
