import BasicLang.Value

set_option autoImplicit false

namespace BasicLang

abbrev Cell := Nat

inductive Content where
  | plain (value : Value)
  | array (element : Ty) (grid : Grid Cell)
  | record (name : String) (members : Members) (fields : Array Cell)

instance : Inhabited Content := ⟨.plain .null⟩

def Content.ty : Content → Ty
  | .plain value => value.ty
  | .array element grid => .array element grid.bounds.length
  | .record name members _ => .record name members

structure Store where
  cells : Array Content

namespace Store

def empty : Store := ⟨#[]⟩

def size (store : Store) : Nat := store.cells.size

def content (store : Store) (cell : Cell) : Content := store.cells.getD cell (.plain .null)

def ty (store : Store) (cell : Cell) : Ty := (store.content cell).ty

def read (store : Store) (cell : Cell) : Value :=
  if h : cell < store.cells.size then
    match store.cells[cell] with
    | .plain value => value
    | .array element grid =>
      .array element grid.bounds
        (grid.slots.map fun slot => if cell < slot then store.read slot else .null).toList
    | .record name members fields =>
      .record name members
        (fields.map fun slot => if cell < slot then store.read slot else .null).toList
  else .null
termination_by store.cells.size - cell
decreasing_by all_goals exact Nat.sub_lt_sub_left h ‹_›

def push (store : Store) (content : Content) : Store := ⟨store.cells.push content⟩

def put (store : Store) (cell : Cell) (content : Content) : Store :=
  ⟨store.cells.setIfInBounds cell content⟩

mutual

def install (store : Store) : Value → Content × Store
  | .array element bounds slots =>
    let (cells, store) := store.allocateAll slots #[]
    (.array element ⟨bounds, cells⟩, store)
  | .record name members fields =>
    let (cells, store) := store.allocateAll fields #[]
    (.record name members cells, store)
  | value => (.plain value, store)

def allocateAll (store : Store) (values : List Value) (cells : Array Cell) : Array Cell × Store :=
  match values with
  | [] => (cells, store)
  | value :: rest =>
    let cell := store.size
    let (content, after) := (store.push (.plain .null)).install value
    allocateAll (after.put cell content) rest (cells.push cell)

end

def allocate (store : Store) (value : Value) : Cell × Store :=
  let cell := store.size
  let (content, after) := (store.push (.plain .null)).install value
  (cell, after.put cell content)

def write (store : Store) (cell : Cell) (value : Value) : Store :=
  let (content, after) := store.install value
  after.put cell content

def allocateMany (store : Store) (value : Value) (count : Nat) (cells : Array Cell) :
    Array Cell × Store :=
  match count with
  | 0 => (cells, store)
  | count + 1 =>
    let (cell, after) := store.allocate value
    allocateMany after value count (cells.push cell)

def allocateArray (store : Store) (element : Ty) (bounds : List Bounds) (count : Nat) :
    Cell × Store :=
  let cell := store.size
  let (slots, after) := (store.push (.plain .null)).allocateMany element.default count #[]
  (cell, after.put cell (.array element ⟨bounds, slots⟩))

end Store

end BasicLang
