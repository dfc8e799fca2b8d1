import BasicLang.Builtin
import BasicLang.Number.Binary
import BasicLang.Typing.Diagnostic

set_option autoImplicit false

namespace BasicLang

inductive LoopKind where
  | forLoop
  | whileLoop
  | doLoop
deriving Repr, DecidableEq

structure CheckContext where
  registry : Registry
  routine : String
  kind : RoutineKind
  loops : List LoopKind
  depth : Nat

structure CheckState where
  symbols : SymbolTable
  diagnostics : List Diagnostic

abbrev Check (α : Type) := StateM CheckState α

namespace Check

def report (kind : DiagnosticKind) (locus : Locus) : Check Unit :=
  modify fun state => { state with diagnostics := ⟨kind, locus⟩ :: state.diagnostics }

def symbols : Check SymbolTable := return (← get).symbols

def setSymbols (symbols : SymbolTable) : Check Unit := modify fun state => { state with symbols }

def declare (entry : SymbolEntry) (shared : Bool) : Check Unit := do
  match (← symbols).define entry shared with
  | .ok table => setSymbols table
  | .error existing => report (.duplicateVariable entry.name existing.locus) entry.locus

def declareImplicit (name : String) (ty : Ty) (locus : Locus) : Check Unit := do
  match (← symbols).define { name, kind := .implicit, ty, locus, constant := none } false with
  | .ok table => setSymbols table
  | .error _ => return

def variableType (name : String) (locus : Locus) : Check Ty := do
  match (← symbols).lookup? name with
  | some entry => return entry.ty
  | none =>
    let ty := (← symbols).implicitType name
    declareImplicit name ty locus
    return ty

inductive Resolution where
  | array (element : Ty) (rank : Nat)
  | function (params : List (String × Ty)) (result : Ty)
  | sub
  | builtin (builtin : Builtin)
  | notAnArray
  | implicit

def resolution (registry : Registry) (symbols : SymbolTable) (name : String) : Resolution :=
  let other : Resolution :=
    match symbols.procedure? name with
    | some entry =>
      match entry.kind, entry.returns with
      | .function, some result => .function entry.params result
      | _, _ => .sub
    | none =>
      match registry.function? name with
      | some builtin => .builtin builtin
      | none => if (symbols.lookup? name).isSome then .notAnArray else .implicit
  match symbols.lookup? name with
  | some entry =>
    match entry.ty with
    | .array element rank => .array element rank
    | _ => other
  | none => other

/-- Whether a name alone is a call: of a function, or of a builtin that needs no arguments.
Declared variables are never calls. -/
def isCall (registry : Registry) (symbols : SymbolTable) (name : String) : Bool :=
  if (symbols.lookup? name).isSome then false
  else
    match symbols.procedure? name with
    | some entry =>
      entry.kind == .function ||
        (registry.function? name).any fun builtin => builtin.signature.required == 0
    | none => (registry.function? name).any fun builtin => builtin.signature.required == 0

def literalType : Literal → Ty
  | .integer _ => .integer
  | .long _ => .long
  | .single _ => .single
  | .double _ => .double
  | .string _ => .string

abbrev Demand := Nat → Ty → Locus → Check Unit

def noDemand : Demand := fun _ _ _ => return

def isNumber (ty : Ty) : Bool := ty.isNumeric || ty == .any

def demandIndex : Demand := fun _ ty locus => do
  if !isNumber ty then report (.indexNotNumeric ty.name) locus

def demandTypes (name : String) (expected : List Ty) : Demand := fun position ty locus => do
  match expected[position]? with
  | some wanted =>
    if !wanted.isCompatible ty then
      report (.argumentType name (position + 1) wanted.name ty.name) locus
  | none => return

def unaryType (operator : UnaryOperator) (operand : Ty) (locus : Locus) : Check Ty := do
  if operand = .any then return .any
  else if !operand.isNumeric then
    report (.invalidUnary operator operand.name) locus
    return .any
  else
    match operator with
    | .negate => return operand
    | .not => return operand.integral

def binaryType (operator : BinaryOperator) (left right : Ty) (locus : Locus) : Check Ty := do
  match operator.resultType? left right with
  | some ty => return ty
  | none =>
    report (.invalidBinary operator left.name right.name) locus
    return .any

def memberType (object : Ty) (member : String) (locus : Locus) : Check Ty := do
  match object with
  | .record name members =>
    match members.type? member with
    | some ty => return ty
    | none =>
      report (.unknownMember name member) locus
      return .any
  | .any => return .any
  | other =>
    report (.notARecord member other.name) locus
    return .any

def expectedCount (signature : Signature) : String :=
  if signature.countsArguments then
    toString signature.required ++ " to " ++ toString signature.arguments.length
  else toString signature.required

/-- What a call demands of its arguments; a wrong number of them is reported at once, and then
nothing more is demanded. -/
def callDemand (name : String) (params : List (String × Ty)) (count : Nat) (locus : Locus) :
    Check Demand := do
  if params.length = count then return demandTypes name (params.map Prod.snd)
  else
    report (.argumentCount name (toString params.length) count) locus
    return noDemand

def builtinDemand (builtin : Builtin) (count : Nat) (locus : Locus) : Check Demand := do
  let signature := builtin.signature
  if signature.required ≤ count ∧ count ≤ signature.arguments.length then
    return demandTypes signature.name signature.arguments
  else
    report (.argumentCount signature.name (expectedCount signature) count) locus
    return noDemand

def applyDemand (resolved : Resolution) (symbols : SymbolTable) (name : String) (count : Nat)
    (locus : Locus) : Check Demand := do
  match resolved with
  | .array _ rank =>
    if count ≠ 0 ∧ rank ≠ 0 ∧ rank ≠ count then report (.dimensionMismatch name rank count) locus
    return demandIndex
  | .function params _ => callDemand name params count locus
  | .sub => return noDemand
  | .builtin builtin => builtinDemand builtin count locus
  | .notAnArray => return noDemand
  | .implicit =>
    if count ≠ 0 then declareImplicit name (.array (symbols.implicitType name) count) locus
    return demandIndex

/-- What is reported after the arguments are checked, what the call refers to, and its type. An
array without subscripts stands for the whole array. -/
def applyResult (resolved : Resolution) (symbols : SymbolTable) (name : String) (count : Nat)
    (locus : Locus) : Check (Callee × Ty) := do
  match resolved with
  | .array element rank => return (.element, if count = 0 then .array element rank else element)
  | .function _ result => return (.function, result)
  | .sub =>
    report (.subUsedAsFunction name) locus
    return (.function, .any)
  | .builtin builtin => return (.builtin, builtin.signature.returns.getD .null)
  | .notAnArray =>
    report (.notAnArray name) locus
    return (.element, .any)
  | .implicit => return (.element, symbols.implicitType name)

mutual

def expr (context : CheckContext) : Expr → Check Expr
  | .literal value info => return .literal value ⟨info.locus, some (literalType value)⟩
  | .variable name info => do
    let table ← symbols
    if isCall context.registry table name then
      let resolved := resolution context.registry table name
      let _ ← applyDemand resolved table name 0 info.locus
      let (callee, ty) ← applyResult resolved table name 0 info.locus
      return .apply name [] callee ⟨info.locus, some ty⟩
    else
      let ty ← variableType name info.locus
      return .variable name ⟨info.locus, some ty⟩
  | .apply name arguments _ info => do
    let table ← symbols
    let resolved := resolution context.registry table name
    let demand ← applyDemand resolved table name arguments.length info.locus
    let checked ← each context demand 0 arguments
    let (callee, ty) ← applyResult resolved table name arguments.length info.locus
    return .apply name checked callee ⟨info.locus, some ty⟩
  | .member object name info => do
    let checked ← expr context object
    let ty ← memberType checked.ty name info.locus
    return .member checked name ⟨info.locus, some ty⟩
  | .binary operator left right info => do
    let checkedLeft ← expr context left
    let checkedRight ← expr context right
    let ty ← binaryType operator checkedLeft.ty checkedRight.ty info.locus
    return .binary operator checkedLeft checkedRight ⟨info.locus, some ty⟩
  | .unary operator operand info => do
    let checked ← expr context operand
    let ty ← unaryType operator checked.ty info.locus
    return .unary operator checked ⟨info.locus, some ty⟩
  | .grouped inner info => do
    let checked ← expr context inner
    return .grouped checked ⟨info.locus, some checked.ty⟩

def each (context : CheckContext) (demand : Demand) (position : Nat) :
    List Expr → Check (List Expr)
  | [] => return []
  | first :: rest => do
    let checked ← expr context first
    demand position checked.ty checked.locus
    return checked :: (← each context demand (position + 1) rest)

end

def isConstant (symbols : SymbolTable) : Expr → Bool
  | .literal _ _ => true
  | .variable name _ => (symbols.lookup? name).any (·.kind == .constant)
  | .grouped inner _ => isConstant symbols inner
  | .unary _ operand _ => isConstant symbols operand
  | .binary _ left right _ => isConstant symbols left && isConstant symbols right
  | .apply _ _ _ _ => false
  | .member _ _ _ => false

def foldBinary (operator : BinaryOperator) (left right : Float) : Option Float :=
  let wholeLeft := Double.roundHalfAway left
  let wholeRight := Double.roundHalfAway right
  match operator with
  | .add => some (left + right)
  | .subtract => some (left - right)
  | .multiply => some (left * right)
  | .divide => if right == 0 then none else some (left / right)
  | .intDivide => if wholeRight == 0 then none else some (Double.truncate (wholeLeft / wholeRight))
  | .modulo => if wholeRight == 0 then none else some (Double.remainder wholeLeft wholeRight)
  | .power => some (Float.pow left right)
  | _ => none

def fold (symbols : SymbolTable) : Expr → Option Float
  | .literal value _ =>
    match value with
    | .integer number => some (Double.ofInt number)
    | .long number => some (Double.ofInt number)
    | .single number => some number
    | .double number => some number
    | .string _ => none
  | .variable name _ => (symbols.lookup? name).bind (·.constant)
  | .grouped inner _ => fold symbols inner
  | .unary .negate operand _ => (fold symbols operand).map (- ·)
  | .binary operator left right _ =>
    match fold symbols left, fold symbols right with
    | some leftNumber, some rightNumber => foldBinary operator leftNumber rightNumber
    | _, _ => none
  | _ => none

def expectNumeric (context : CheckContext) (expr : Expr) : Check Expr := do
  let checked ← Check.expr context expr
  if !isNumber checked.ty then report (.typeMismatch "numeric" checked.ty.name) checked.locus
  return checked

def expectString (context : CheckContext) (expr : Expr) : Check Expr := do
  let checked ← Check.expr context expr
  if !Ty.string.isCompatible checked.ty then
    report (.typeMismatch "STRING" checked.ty.name) checked.locus
  return checked

def expectPrintable (context : CheckContext) (expr : Expr) : Check Expr := do
  let checked ← Check.expr context expr
  match checked.ty with
  | .array _ _ | .record _ _ =>
    report (.typeMismatch "printable value" checked.ty.name) checked.locus
  | _ => pure ()
  return checked

def expectCondition (context : CheckContext) (expr : Expr) : Check Expr := do
  let checked ← Check.expr context expr
  if !isNumber checked.ty then report (.conditionNotNumeric checked.ty.name) checked.locus
  return checked

def target (context : CheckContext) (expr : Expr) : Check (Expr × Ty) := do
  let table ← symbols
  let constant? : Option String :=
    match expr with
    | .variable name _ =>
      if (table.lookup? name).any (·.kind == .constant) then some name else none
    | _ => none
  match constant? with
  | some name =>
    report (.assignmentToConst name) expr.locus
    return (expr, .any)
  | none =>
    let checked ← Check.expr context expr
    if !checked.isLvalue || checked.ty.isArray then
      report .notAssignable checked.locus
      return (checked, .any)
    else return (checked, checked.ty)

def scalarTarget (context : CheckContext) (expr : Expr) : Check Expr := do
  let (checked, ty) ← target context expr
  if !(isNumber ty || ty == .string) then
    report (.typeMismatch "numeric or STRING" ty.name) checked.locus
  return checked

def stringTarget (context : CheckContext) (expr : Expr) : Check Expr := do
  let (checked, ty) ← target context expr
  if !Ty.string.isCompatible ty then report (.typeMismatch "STRING" ty.name) checked.locus
  return checked

end Check

end BasicLang
