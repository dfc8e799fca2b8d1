import BasicLang.Code.Instruction

set_option autoImplicit false

namespace BasicLang

inductive CodeFault where
  | unresolved (name : String)
  | unplaced (id : Nat)
  | alreadyLinked
  | noLabel (id : Nat)
  | placedTwice (id : Nat)
  | exitOutside (target : ExitTarget)
  | notStorage
deriving Repr, DecidableEq

structure CodeError where
  fault : CodeFault
  locus : Option Locus
  context : Option String
deriving Repr, DecidableEq

def CodeFault.title : CodeFault → String
  | .unresolved _ => "Unresolved"
  | .unplaced _ => "UnplacedLabel"
  | .alreadyLinked => "AlreadyLinked"
  | _ => "Internal"

def CodeFault.message : CodeFault → String
  | .unresolved name => "unresolved reference '" ++ name ++ "'"
  | .unplaced id => "label L" ++ toString id ++ " was never placed"
  | .alreadyLinked => "program is already linked"
  | .noLabel id => "internal error: no label L" ++ toString id
  | .placedTwice id => "internal error: label L" ++ toString id ++ " placed twice"
  | .exitOutside target => "internal error: EXIT " ++ target.title ++ " outside its block"
  | .notStorage => "internal error: assignment to a non-lvalue"

namespace CodeError

def ofFault (fault : CodeFault) : CodeError := { fault, locus := none, context := none }

def located (fault : CodeFault) (locus : Locus) : CodeError :=
  { fault, locus := some locus, context := none }

def message (error : CodeError) : String :=
  let context :=
    match error.context with
    | some text => " (" ++ text ++ ")"
    | none => ""
  let place :=
    match error.locus with
    | some locus => " at " ++ locus.text
    | none => ""
  "code generation error: " ++ error.fault.message ++ context ++ place

end CodeError

def Op.mapTargets (code data : Target → Except CodeError Target) : Op → Except CodeError Op
  | .jump target => return .jump (← code target)
  | .jumpIfZero target => return .jumpIfZero (← code target)
  | .jumpIfNonzero target => return .jumpIfNonzero (← code target)
  | .call target => return .call (← code target)
  | .gosub target => return .gosub (← code target)
  | .forLoop target => return .forLoop (← code target)
  | .onEvent target => return .onEvent (← code target)
  | .restore target => return .restore (← data target)
  | op => return op

structure LabelPlace where
  name : Option String
  code : Option Nat
  data : Option Nat
deriving Repr, DecidableEq

structure Assembly where
  code : Array Instruction
  data : Array Value
  labels : Array LabelPlace
  named : Table Nat
  entries : Table Nat
  temporaries : Nat
  locus : Locus
  isLinked : Bool

namespace Assembly

def empty : Assembly :=
  { code := #[], data := #[], labels := #[], named := [], entries := [], temporaries := 0
    locus := ⟨0, 0⟩, isLinked := false }

def emit (assembly : Assembly) (op : Op) : Assembly :=
  { assembly with code := assembly.code.push ⟨op, assembly.locus⟩ }

def newLabel (assembly : Assembly) (name : Option String) : Nat × Assembly :=
  (assembly.labels.size,
    { assembly with labels := assembly.labels.push { name, code := none, data := none } })

def namedLabel (assembly : Assembly) (name : String) : Nat × Assembly :=
  match assembly.named.get? name with
  | some id => (id, assembly)
  | none =>
    let (id, after) := assembly.newLabel (some name)
    (id, { after with named := after.named.set name id })

def entryLabel (assembly : Assembly) (name : String) : Nat × Assembly :=
  match assembly.entries.get? name with
  | some id => (id, assembly)
  | none =>
    let (id, after) := assembly.newLabel (some name)
    (id, { after with entries := after.entries.set name id })

def place (assembly : Assembly) (id : Nat) : Except CodeError Assembly :=
  match assembly.labels[id]? with
  | none => .error (.ofFault (.noLabel id))
  | some label =>
    if label.code.isSome then .error (.ofFault (.placedTwice id))
    else
      let placed :=
        { label with code := some assembly.code.size, data := some assembly.data.size }
      .ok { assembly with labels := assembly.labels.setIfInBounds id placed }

def resolve (assembly : Assembly) (view : LabelPlace → Option Nat) (locus : Locus) :
    Target → Except CodeError Target
  | .resolved place => .ok (.resolved place)
  | .label id =>
    match assembly.labels[id]?.bind view with
    | some place => .ok (.resolved place)
    | none =>
      .error { fault := .unplaced id, locus := some locus
               context := assembly.labels[id]?.bind LabelPlace.name }

def linkInstruction (assembly : Assembly) (instruction : Instruction) :
    Except CodeError Instruction := do
  let code := assembly.resolve LabelPlace.code instruction.locus
  let data := assembly.resolve LabelPlace.data instruction.locus
  return { instruction with op := ← instruction.op.mapTargets code data }

def link (assembly : Assembly) : Except CodeError Assembly :=
  if assembly.isLinked then .error (.ofFault .alreadyLinked)
  else
    match assembly.code.toList.mapM assembly.linkInstruction with
    | .ok code => .ok { assembly with code := code.toArray, isLinked := true }
    | .error error => .error error

end Assembly

end BasicLang
