import BasicLang.Builtin
import BasicLang.Code.Assembly

set_option autoImplicit false

namespace BasicLang

structure EmitContext where
  symbols : SymbolTable
  registry : Registry
  /-- The loops around the statement and the labels behind them, the innermost first. -/
  loops : List (ExitTarget × Nat)
  exit : Option Nat

abbrev Emit (α : Type) := StateT Assembly (Except CodeError) α

namespace Emit

def op (op : Op) : Emit Unit := modify fun assembly => assembly.emit op

def setLocus (locus : Locus) : Emit Unit := modify fun assembly => { assembly with locus }

def newLabel : Emit Nat := modifyGet fun assembly => assembly.newLabel none

def namedLabel (name : String) : Emit Nat := modifyGet fun assembly => assembly.namedLabel name

def entryLabel (name : String) : Emit Nat := modifyGet fun assembly => assembly.entryLabel name

def place (id : Nat) : Emit Unit := do
  match (← get).place id with
  | .ok assembly => set assembly
  | .error error => throw error

def jump (id : Nat) : Emit Unit := op (.jump (.label id))

def pushInteger (number : Int16) : Emit Unit := op (.pushConst (.integer number))

def pushCount (count : Nat) : Emit Unit := pushInteger (Int16.ofNat (min count 32767))

def syscall (builtin : Builtin) : Emit Unit := op (.syscall builtin.name)

end Emit

def Value.ofWide (number : Int) : Value :=
  if -2147483648 ≤ number ∧ number ≤ 2147483647 then .long (Int32.ofInt number)
  else .double (Double.ofInt number)

def Literal.value : Literal → Value
  | .integer number =>
    if -32768 ≤ number ∧ number ≤ 32767 then .integer (Int16.ofInt number) else .ofWide number
  | .long number => .ofWide number
  | .single number => .single (Double.toSingle number)
  | .double number => .double number
  | .string text => .string text

/-- Whether an argument is passed as storage: it is storage, and of the type of the parameter. -/
def Expr.isPassedByReference (argument : Expr) (param : Option Ty) : Bool :=
  argument.isLvalue && param.any fun ty => ty = .any || ty.name == argument.ty.name

namespace Emit

def namedStorage (name : String) (ty : Ty) (byRef : Bool) : Emit Unit :=
  match ty with
  | .array element rank => op (.pushArray name element rank)
  | _ => op (if byRef then .pushRef name else .pushValue name)

def wholeArray (name : String) (ty : Ty) : Emit Unit :=
  match ty with
  | .array element rank => op (.pushArray name element rank)
  | other => op (.pushArray name other 0)

mutual

def value (context : EmitContext) : Expr → Emit Unit
  | .literal literal _ => op (.pushConst literal.value)
  | .variable name info => namedStorage name (info.ty.getD .any) false
  | .apply name arguments callee info => do
    match callee with
    | .element =>
      match arguments with
      | [] => wholeArray name (info.ty.getD .any)
      | _ =>
        op (.pushArray name (info.ty.getD .any) arguments.length)
        values context arguments
        op (.arrayDeref arguments.length false)
    | .function =>
      match context.symbols.procedure? name with
      | some entry =>
        procedureArguments context (entry.params.map Prod.snd) arguments
        op (.call (.label (← entryLabel name)))
      | none => throw (.located (.unresolved name) info.locus)
    | .builtin =>
      match context.registry.function? name with
      | some builtin =>
        builtinArguments context builtin.signature.byReference arguments
        if builtin.signature.countsArguments then pushCount arguments.length
        syscall builtin
      | none => throw (.located (.unresolved name) info.locus)
    | .unresolved =>
      throw { fault := .unresolved name, locus := some info.locus
              context := some "reference was never type checked" }
  | .member object name _ => do
    if object.isLvalue then reference context object else value context object
    op (.memberDeref name false)
  | .binary operator left right _ => do
    value context left
    value context right
    op (.binary operator)
  | .unary operator operand _ => do
    value context operand
    match operator with
    | .negate => op .negate
    | .not => op .complement
  | .grouped inner _ => value context inner

def reference (context : EmitContext) : Expr → Emit Unit
  | .variable name info => namedStorage name (info.ty.getD .any) true
  | .apply name arguments .element info =>
    match arguments with
    | [] => wholeArray name (info.ty.getD .any)
    | _ => do
      op (.pushArray name (info.ty.getD .any) arguments.length)
      values context arguments
      op (.arrayDeref arguments.length true)
  | .member object name _ => do
    reference context object
    op (.memberDeref name true)
  | .grouped inner _ => reference context inner
  | other => throw (.located .notStorage other.locus)

def values (context : EmitContext) : List Expr → Emit Unit
  | [] => return
  | first :: rest => do
    value context first
    values context rest

def procedureArguments (context : EmitContext) (params : List Ty) : List Expr → Emit Unit
  | [] => return
  | first :: rest => do
    if first.isPassedByReference params.head? then reference context first
    else value context first
    procedureArguments context params.tail rest

def builtinArguments (context : EmitContext) (byRef : Bool) : List Expr → Emit Unit
  | [] => return
  | first :: rest => do
    if byRef && first.isLvalue then reference context first else value context first
    builtinArguments context byRef rest

end

def references (context : EmitContext) (targets : List Expr) : Emit Unit :=
  targets.forM (reference context)

def callProcedure (context : EmitContext) (entry : ProcedureEntry) (name : String)
    (arguments : List Expr) : Emit Unit := do
  procedureArguments context (entry.params.map Prod.snd) arguments
  op (.call (.label (← entryLabel name)))

def callBuiltin (context : EmitContext) (builtin : Builtin) (arguments : List Expr) :
    Emit Unit := do
  builtinArguments context builtin.signature.byReference arguments
  if builtin.signature.countsArguments then pushCount arguments.length
  syscall builtin

end Emit

end BasicLang
