import BasicLang.Action.Builtin

set_option autoImplicit false

namespace BasicLang

namespace Run

variable {σ : Type}

def address : Target → Run σ Nat
  | .resolved place => return place
  | .label id => fail (.unlinkedLabel id)

def jump (target : Target) : Run σ Unit := do
  let place ← address target
  modify fun machine => { machine with next := place }

def arrayCell (name : String) (element : Ty) (rank : Nat) : Run σ Cell := do
  match (← get).lookup? name with
  | some cell =>
    match (← get).store.content cell with
    | .array _ _ => return cell
    | other => fail (.notAnArrayVariable name other.ty.name)
  | none =>
    -- From 19 subscripts on the number of slots is beyond 64 bits. No machine has room for half as many.
    modifyGet fun machine =>
      let (cell, store) :=
        machine.store.allocateArray element (Grid.implicitBounds rank) (Grid.implicitCount rank)
      (cell, { machine with store }.bind name cell)

def pushCell (cell : Cell) (byRef : Bool) : Run σ Unit := do
  if byRef then pushReference cell else push (← readCell cell)

def bindParameter (name : String) (ty : Ty) : Run σ Unit := do
  let cell ←
    match ← pop with
    | .reference cell => pure cell
    | .value value => do
      let converted ← if ty = .any then pure value else ofValue (ty.convert value)
      modifyGet fun machine => machine.allocate converted
  modify fun machine => machine.bindIn machine.scope name cell

def declare (name : String) (value : Value) : Run σ Unit :=
  modify fun machine =>
    let (cell, after) := machine.allocate value
    after.bind name cell

def declareArray (name : String) (element : Ty) (bounds : List Bounds) : Run σ Unit := do
  let count ← ofGrid (Grid.slotCount bounds)
  modify fun machine =>
    let (cell, store) := machine.store.allocateArray element bounds count
    { machine with store }.bind name cell

def resizeArray (name : String) (element : Ty) (bounds : List Bounds) (preserve : Bool) :
    Run σ Unit := do
  let cell ← variableCell name
  match (← get).store.content cell with
  | .array held grid =>
    let count ← ofGrid (Grid.slotCount bounds)
    modify fun machine =>
      let kept := grid.kept count preserve
      let (slots, store) := machine.store.allocateMany held.default (count - kept.size) kept
      { machine with store := store.put cell (.array held ⟨bounds, slots⟩) }
  | _ =>
    let count ← ofGrid (Grid.slotCount bounds)
    modify fun machine =>
      let (slots, store) := machine.store.allocateMany element.default count #[]
      { machine with store := store.put cell (.array element ⟨bounds, slots⟩) }

def enter (setup : Setup σ) (kind : FrameKind) (scope : Nat) : Run σ Unit := do
  if setup.maxDepth ≤ (← get).frames.length then fail .outOfStackSpace
  else
    modify fun machine =>
      { machine with frames := { kind, returnTo := machine.next, scope } :: machine.frames }

def call (setup : Setup σ) (target : Target) : Run σ Unit := do
  enter setup .call (← get).scopes.size
  modify fun machine => { machine with scopes := machine.scopes.push [] }
  jump target

def gosub (setup : Setup σ) (target : Target) : Run σ Unit := do
  enter setup .gosub (← get).scope
  jump target

def ret : Run σ Unit := do
  match (← get).frames with
  | frame :: outer :: rest =>
    modify fun machine =>
      { machine with
        frames := outer :: rest
        next := frame.returnTo
        scopes := if frame.kind = .call then machine.scopes.pop else machine.scopes }
  | _ => fail .returnWithoutGosub

def forLoop (exit : Target) : Run σ Unit := do
  let step ← popNumber
  let last ← popNumber
  let counter ← popNumber
  if if 0 ≤ step then last < counter else counter < last then jump exit

def fits (ty : Ty) (number : Float) : Bool :=
  match ty with
  | .integer => -32768 ≤ number && number ≤ 32767
  | .long => -2147483648 ≤ number && number ≤ 2147483647
  | _ => true

def forStep : Run σ Unit := do
  let step ← popNumber
  let cell ← popReference
  let counter ← readCell cell
  match counter.toDouble? with
  | none => fail (.counterType counter.typeName)
  | some number =>
    let next := number + step
    if fits counter.ty (Double.roundToEven next) then assign cell (.double next)
    else fail .counterOverflow

def stop (setup : Setup σ) : Run σ Unit := do
  let flushes := (← get).flushes setup.devices
  modify fun machine =>
    { machine with next := machine.image.instructions.size, files := [], output := none }
  writeBack flushes

def arrayDeref (rank : Nat) (byRef : Bool) : Run σ Unit := do
  let indices ← popInts rank
  let cell ← popReference
  match (← get).store.content cell with
  | .array _ grid =>
    let slot ← ofGrid (grid.get indices)
    pushCell slot byRef
  | other => fail (.notAnArray other.ty.name)

def memberDeref (member : String) (byRef : Bool) : Run σ Unit := do
  match ← pop with
  | .reference cell =>
    match (← get).store.content cell with
    | .record name members fields =>
      match (members.index? member).bind (fields[·]?) with
      | some field => pushCell field byRef
      | none => fail (.noMember name member)
    | other => fail (.notARecord other.ty.name)
  | .value (.record name members fields) =>
    match (members.index? member).bind (fields[·]?) with
    | some value =>
      if byRef then
        let cell ← modifyGet fun machine => machine.allocate value
        pushReference cell
      else push value
    | none => fail (.noMember name member)
  | .value other => fail (.notARecord other.typeName)

def datumFor (target : Ty) (value : Value) : Value :=
  match target, value with
  | .string, .integer _ => .string value.text
  | .string, .double _ => .string value.text
  | _, _ => value

def readDatum : Run σ Unit := do
  let target ← popReference
  let value ← nextDatum
  assign target (datumFor ((← get).store.ty target) value)

def syscall (setup : Setup σ) (name : String) : Run σ Unit := do
  match setup.registry.lookup? name with
  | none => fail (.unknownBuiltin name)
  | some found =>
    tryCatch (builtin setup.devices found) fun error => do
      if error.isRecoverable then
        setStatus error.code
        match found.signature.returns with
        | some ty => if (← get).pending.isNone then push ty.default
        | none => return
      else throw error

def setHandler (target : Target) : Run σ Unit := do
  let key ← popText
  let place ← address target
  modify fun machine => { machine with handlers := machine.handlers.set key place }

def execute (setup : Setup σ) : Op → Run σ Unit
  | .pushConst value => push value
  | .pushValue name => do push (← readCell (← variableCell name))
  | .pushRef name => do pushReference (← variableCell name)
  | .pushArray name element rank => do pushReference (← arrayCell name element rank)
  | .pop => do let _ ← pop
  | .assign => do
    let value ← popValue
    let cell ← popReference
    assign cell value
  | .popParam name ty => bindParameter name ty
  | .dim name ty => declare name ty.default
  | .dimArray name element rank => do declareArray name element (← popBounds rank)
  | .redim name element rank preserve => do
    resizeArray name element (← popBounds rank) preserve
  | .setDefaultType first last ty =>
    modify fun machine => { machine with letters := machine.letters.setRange first last ty }
  | .binary operator => do
    let right ← popValue
    let left ← popValue
    push (← ofArithmetic (operator.apply left right))
  | .negate => do
    let value ← popValue
    push (← ofArithmetic value.negate)
  | .complement => do
    let value ← popValue
    push (← ofArithmetic value.complement)
  | .jump target => jump target
  | .jumpIfZero target => do
    if !(← popValue).isTrue then jump target
  | .jumpIfNonzero target => do
    if (← popValue).isTrue then jump target
  | .call target => call setup target
  | .gosub target => gosub setup target
  | .ret => ret
  | .forLoop target => forLoop target
  | .forStep => forStep
  | .stop => stop setup
  | .arrayDeref rank byRef => arrayDeref rank byRef
  | .memberDeref member byRef => memberDeref member byRef
  | .read => readDatum
  | .restore target => do
    let place ← address target
    modify fun machine => { machine with nextData := place }
  | .syscall name => syscall setup name
  | .onEvent target => setHandler target

end Run

end BasicLang
