import BasicLang.Code.Expr
import BasicLang.Typing.Stmt

set_option autoImplicit false

namespace BasicLang

def DataItem.value : DataItem → Value
  | .integer number =>
    if -32768 ≤ number ∧ number ≤ 32767 then .integer (Int16.ofInt number)
    else .double (Double.ofInt number)
  | .real number => .double number
  | .text characters => .string characters

namespace EmitContext

def inLoop (context : EmitContext) (kind : ExitTarget) (exit : Nat) : EmitContext :=
  { context with loops := (kind, exit) :: context.loops }

/-- The label that an `EXIT` goes to: behind the innermost loop of its kind, or at the end of the
procedure. -/
def exitLabel? (context : EmitContext) : ExitTarget → Option Nat
  | .sub => context.exit
  | .function => context.exit
  | loop => context.loops.lookup loop

end EmitContext

namespace Emit

def temporary (stem : String) : Emit String :=
  modifyGet fun assembly =>
    let number := assembly.temporaries + 1
    ("~" ++ stem ++ toString number, { assembly with temporaries := number })

def typeOf (context : EmitContext) (spec : TypeSpec) (locus : Locus) : Emit Ty :=
  match context.symbols.resolve? spec with
  | some ty => return ty
  | none =>
    match spec with
    | .record name => throw (.located (.unresolved name) locus)
    | _ => throw (.located (.unresolved "") locus)

def elementType (context : EmitContext) (decl : VarDecl) : Emit Ty :=
  match decl.typeSpec with
  | some spec => typeOf context spec decl.locus
  | none => return context.symbols.implicitType decl.name

def bounds (context : EmitContext) (dimensions : List Dimension) : Emit Unit :=
  dimensions.forM fun dimension => do
    match dimension.lower with
    | some lower => value context lower
    | none => pushInteger 0
    value context dimension.upper

def dimDecl (context : EmitContext) (decl : VarDecl) : Emit Unit := do
  setLocus decl.locus
  let element ← elementType context decl
  if !decl.isArray then op (.dim decl.name element)
  else if decl.dimensions.isEmpty then op (.dim decl.name (.array element 0))
  else
    bounds context decl.dimensions
    op (.dimArray decl.name element decl.dimensions.length)

def redimDecl (context : EmitContext) (preserve : Bool) (decl : VarDecl) : Emit Unit := do
  setLocus decl.locus
  bounds context decl.dimensions
  let element ← elementType context decl
  op (.redim decl.name element decl.dimensions.length preserve)

def assignNew (name : String) (ty : Ty) (push : Emit Unit) : Emit Unit := do
  op (.dim name ty)
  op (.pushRef name)
  push
  op .assign

def caseMatch (context : EmitContext) (tested : String) : CaseMatch → Emit Unit
  | .single wanted => compare tested .equal wanted
  | .range first last => do
    compare tested .greaterEqual first
    compare tested .lessEqual last
    op (.binary .and)
  | .comparison operator wanted => compare tested operator wanted
where
  compare (tested : String) (operator : BinaryOperator) (wanted : Expr) : Emit Unit := do
    op (.pushValue tested)
    value context wanted
    op (.binary operator)

def casePatterns (context : EmitContext) (tested : String) (body : Nat)
    (patterns : List CaseMatch) : Emit Unit :=
  patterns.forM fun pattern => do
    caseMatch context tested pattern
    op (.jumpIfNonzero (.label body))

def selectOutput (context : EmitContext) (file : Expr) : Emit Unit := do
  value context file
  syscall .selectOutput

def selectConsole : Emit Unit := do
  pushInteger 0
  syscall .selectOutput

def redirected (context : EmitContext) (file : Option Expr) (write : Emit Unit) : Emit Unit := do
  match file with
  | some file =>
    selectOutput context file
    write
    selectConsole
  | none => write

def printItem (context : EmitContext) (item : PrintItem) : Emit Unit := do
  value context item.expr
  syscall .print
  if item.separator = some .comma then syscall .printZone

def printItems (context : EmitContext) (format : Option Expr) (items : List PrintItem)
    (newline : Bool) : Emit Unit := do
  match format with
  | some template =>
    value context template
    values context (items.map PrintItem.expr)
    pushCount items.length
    syscall .printUsing
  | none => items.forM (printItem context)
  if newline then syscall .printNewline

def call (context : EmitContext) (name : String) (arguments : List Expr) (locus : Locus) :
    Emit Unit := do
  match context.symbols.procedure? name with
  | some entry =>
    callProcedure context entry name arguments
    if entry.kind = .function then op .pop
  | none =>
    match context.registry.sub? name with
    | some builtin => callBuiltin context builtin arguments
    | none => throw (.located (.unresolved name) locus)

def promptText (prompt : Option String) (question : Bool) : String :=
  match prompt with
  | some text => if question then text ++ "? " else text
  | none => "? "

def closeFiles (context : EmitContext) (files : List Expr) : Emit Unit := do
  if files.isEmpty then
    pushCount 0
    syscall .closeFile
  else
    files.forM fun file => do
      value context file
      pushCount 1
      syscall .closeFile

def leaveUnless (context : EmitContext) (condition : LoopCondition) (exit : Nat) :
    Emit Unit := do
  value context condition.condition
  op (if condition.isWhile then .jumpIfZero (.label exit) else .jumpIfNonzero (.label exit))

def repeatIf (context : EmitContext) (condition : LoopCondition) (top : Nat) : Emit Unit := do
  value context condition.condition
  op (if condition.isWhile then .jumpIfNonzero (.label top) else .jumpIfZero (.label top))

mutual

def stmt (context : EmitContext) (locus : Locus) : Stmt → Emit Unit
  | .print file format items newline =>
    redirected context file (printItems context format items newline)
  | .assign target source => do
    reference context target
    value context source
    op .assign
  | .dim _ decls => decls.forM (dimDecl context)
  | .redim preserve decls => decls.forM (redimDecl context preserve)
  | .const name source => assignNew name (constantType name source) (value context source)
  | .cond branches => do
    let done ← newLabel
    arms context done branches
    place done
  | .select test clauses => do
    let tested ← temporary "SEL"
    assignNew tested .any (value context test)
    let done ← newLabel
    cases context tested done clauses
    place done
  | .forLoop counter first last step body _ => do
    op (.pushRef counter)
    value context first
    op .assign
    let lastName ← temporary "FOREND"
    let stepName ← temporary "FORSTEP"
    assignNew lastName .double (value context last)
    assignNew stepName .double
      (match step with
        | some step => value context step
        | none => pushInteger 1)
    let top ← newLabel
    let exit ← newLabel
    place top
    op (.pushValue counter)
    op (.pushValue lastName)
    op (.pushValue stepName)
    op (.forLoop (.label exit))
    block (context.inLoop .forLoop exit) body
    op (.pushRef counter)
    op (.pushValue stepName)
    op .forStep
    jump top
    place exit
  | .whileLoop condition body => do
    let top ← newLabel
    let exit ← newLabel
    place top
    value context condition
    op (.jumpIfZero (.label exit))
    block (context.inLoop .whileLoop exit) body
    jump top
    place exit
  | .doLoop before body after => do
    let top ← newLabel
    let exit ← newLabel
    place top
    match before with
    | some condition => leaveUnless context condition exit
    | none => pure ()
    block (context.inLoop .doLoop exit) body
    match after with
    | some condition => repeatIf context condition top
    | none => jump top
    place exit
  | .goto target => do jump (← namedLabel target)
  | .gosub target => do op (.gosub (.label (← namedLabel target)))
  | .ret => op .ret
  | .exit target => do
    match context.exitLabel? target with
    | some label => jump label
    | none => throw (.located (.exitOutside target) locus)
  | .stop => op .stop
  | .label name => do place (← namedLabel name)
  | .call name arguments => call context name arguments locus
  | .input prompt question targets => do
    op (.pushConst (.string (promptText prompt question)))
    references context targets
    pushCount targets.length
    syscall .input
  | .lineInput prompt target => do
    op (.pushConst (.string (prompt.getD "")))
    reference context target
    syscall .lineInput
  | .fileInput file targets line => do
    value context file
    if line then
      references context (targets.take 1)
      syscall .fileLineInput
    else
      references context targets
      pushCount targets.length
      syscall .fileInput
  | .openFile path mode file => do
    value context path
    pushInteger (Int16.ofNat mode.code)
    value context file
    syscall .openFile
  | .close files => closeFiles context files
  | .write file sources =>
    redirected context file do
      values context sources
      pushCount sources.length
      syscall .write
  | .data items =>
    modify fun assembly => { assembly with data := assembly.data ++ (items.map DataItem.value) }
  | .read targets =>
    targets.forM fun target => do
      reference context target
      op .read
  | .restore label => do
    match label with
    | some name => op (.restore (.label (← namedLabel name)))
    | none => op (.restore (.resolved 0))
  | .onEvent key target => do
    value context key
    op (.onEvent (.label (← namedLabel target)))
  | .defType _ _ => return
  | .declare _ _ _ _ => return
  | .typeDef _ _ => return
  | .comment _ => return

def block (context : EmitContext) : Block → Emit Unit
  | .nil => return
  | .cons locus head tail => do
    setLocus locus
    stmt context locus head
    block context tail

def arms (context : EmitContext) (done : Nat) : Arms → Emit Unit
  | .none => return
  | .otherwise body => block context body
  | .arm condition body rest => do
    let next ← newLabel
    value context condition
    op (.jumpIfZero (.label next))
    block context body
    jump done
    place next
    arms context done rest

def cases (context : EmitContext) (tested : String) (done : Nat) : Cases → Emit Unit
  | .none => return
  | .otherwise body => block context body
  | .clause locus patterns body rest => do
    setLocus locus
    let start ← newLabel
    let next ← newLabel
    casePatterns context tested start patterns
    jump next
    place start
    block context body
    jump done
    place next
    cases context tested done rest

end

end Emit

end BasicLang
