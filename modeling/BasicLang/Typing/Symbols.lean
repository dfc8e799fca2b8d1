import BasicLang.Syntax.Stmt

set_option autoImplicit false

namespace BasicLang

abbrev Table (α : Type) := List (String × α)

namespace Table

variable {α : Type}

def get? (table : Table α) (name : String) : Option α := table.lookup name

def set (table : Table α) (name : String) (value : α) : Table α :=
  match table with
  | [] => [(name, value)]
  | (key, old) :: rest =>
    if key = name then (key, value) :: rest else (key, old) :: Table.set rest name value

def update (table : Table α) (name : String) (change : α → α) : Table α :=
  table.map fun (key, value) => if key = name then (key, change value) else (key, value)

def names (table : Table α) : List String := table.map Prod.fst

end Table

abbrev LetterTypes := List Ty

namespace LetterTypes

def uniform (ty : Ty) : LetterTypes := List.replicate 26 ty

def index? (char : Char) : Option Nat :=
  let upper := char.toUpper
  if 'A' ≤ upper ∧ upper ≤ 'Z' then some (upper.toNat - 'A'.toNat) else none

def get? (types : LetterTypes) (char : Char) : Option Ty :=
  match index? char with
  | some index => types[index]?
  | none => none

def set (types : LetterTypes) (first last : Nat) (ty : Ty) : LetterTypes :=
  types.zipIdx.map fun (old, index) => if first ≤ index ∧ index ≤ last then ty else old

def setRange (types : LetterTypes) (first last : Char) (ty : Ty) : LetterTypes :=
  types.zipIdx.map fun (old, index) =>
    let letter := 'A'.toNat + index
    if first.toUpper.toNat ≤ letter ∧ letter ≤ last.toUpper.toNat then ty else old

end LetterTypes

inductive SymbolKind where
  | variable
  | implicit
  | constant
  | parameter
deriving Repr, DecidableEq

namespace SymbolKind

def all : List SymbolKind := [.variable, .implicit, .constant, .parameter]

def title : SymbolKind → String
  | .variable => "Variable"
  | .implicit => "Implicit"
  | .constant => "Constant"
  | .parameter => "Parameter"

end SymbolKind

structure SymbolEntry where
  name : String
  kind : SymbolKind
  ty : Ty
  locus : Locus
  constant : Option Float

def SymbolEntry.rank? (entry : SymbolEntry) : Option Nat :=
  match entry.ty with
  | .array _ rank => some rank
  | _ => none

structure ProcedureEntry where
  name : String
  kind : RoutineKind
  params : List (String × Ty)
  returns : Option Ty
  locus : Locus
  isDefined : Bool

structure LabelEntry where
  name : String
  locus : Locus
  routine : String

structure TypeEntry where
  name : String
  members : Members
  locus : Locus

structure SymbolTable where
  shared : Table SymbolEntry
  locals : List (Table SymbolEntry)
  procedures : Table ProcedureEntry
  types : Table TypeEntry
  labels : Table LabelEntry
  letters : LetterTypes

namespace SymbolTable

def empty : SymbolTable :=
  { shared := [], locals := [], procedures := [], types := [], labels := []
    letters := .uniform .single }

def enterScope (table : SymbolTable) : SymbolTable :=
  { table with locals := [] :: table.locals }

def exitScope (table : SymbolTable) : SymbolTable :=
  { table with locals := table.locals.drop 1 }

/-- Declares a name in the innermost scope, or for all routines. A name that is taken there stays
what it was. -/
def define (table : SymbolTable) (entry : SymbolEntry) (shared : Bool) :
    Except SymbolEntry SymbolTable :=
  let inShared : Except SymbolEntry SymbolTable :=
    match table.shared.get? entry.name with
    | some existing => .error existing
    | none => .ok { table with shared := table.shared.set entry.name entry }
  match table.locals with
  | scope :: outer =>
    if shared then inShared
    else
      match scope.get? entry.name with
      | some existing => .error existing
      | none => .ok { table with locals := scope.set entry.name entry :: outer }
  | [] => inShared

def lookup? (table : SymbolTable) (name : String) : Option SymbolEntry :=
  (table.locals.head?.bind (·.get? name)) <|> table.shared.get? name

def lookupShared? (table : SymbolTable) (name : String) : Option SymbolEntry :=
  table.shared.get? name

def retype (table : SymbolTable) (name : String) (ty : Ty) : SymbolTable :=
  let change (entry : SymbolEntry) : SymbolEntry := { entry with ty }
  match table.locals with
  | scope :: outer =>
    if (scope.get? name).isSome then { table with locals := scope.update name change :: outer }
    else { table with shared := table.shared.update name change }
  | [] => { table with shared := table.shared.update name change }

def defineProcedure (table : SymbolTable) (entry : ProcedureEntry) :
    Except ProcedureEntry SymbolTable :=
  match table.procedures.get? entry.name with
  | some existing => .error existing
  | none => .ok { table with procedures := table.procedures.set entry.name entry }

def procedure? (table : SymbolTable) (name : String) : Option ProcedureEntry :=
  table.procedures.get? name

def defineType (table : SymbolTable) (entry : TypeEntry) : Except TypeEntry SymbolTable :=
  match table.types.get? (Text.upperAscii entry.name) with
  | some existing => .error existing
  | none => .ok { table with types := table.types.set (Text.upperAscii entry.name) entry }

def type? (table : SymbolTable) (name : String) : Option TypeEntry :=
  table.types.get? (Text.upperAscii name)

def defineLabel (table : SymbolTable) (entry : LabelEntry) : Except LabelEntry SymbolTable :=
  match table.labels.get? entry.name with
  | some existing => .error existing
  | none => .ok { table with labels := table.labels.set entry.name entry }

def label? (table : SymbolTable) (name : String) : Option LabelEntry := table.labels.get? name

def letterType (table : SymbolTable) (name : String) : Ty :=
  (name.toList.head?.bind table.letters.get?).getD .single

def setLetterType (table : SymbolTable) (first last : Char) (ty : Ty) : SymbolTable :=
  let place (char : Char) : Nat := char.toUpper.toNat - 'A'.toNat
  { table with letters := table.letters.set (place first) (place last) ty }

def implicitType (table : SymbolTable) (name : String) : Ty :=
  (Ty.ofSigil? name).getD (table.letterType name)

def resolve? (table : SymbolTable) : TypeSpec → Option Ty
  | .integer => some .integer
  | .long => some .long
  | .single => some .single
  | .double => some .double
  | .string => some .string
  | .json => some .json
  | .any => some .any
  | .record name => (table.type? name).map fun entry => .record entry.name entry.members

end SymbolTable

end BasicLang
