import BasicLang.Typing.Expr

set_option autoImplicit false

namespace BasicLang

namespace CheckContext

def inMain (context : CheckContext) : Bool := context.kind == .main

def nested (context : CheckContext) : CheckContext := { context with depth := context.depth + 1 }

def inLoop (context : CheckContext) (loop : LoopKind) : CheckContext :=
  { context.nested with loops := loop :: context.loops }

def allowsExit (context : CheckContext) : ExitTarget → Bool
  | .forLoop => context.loops.contains .forLoop
  | .whileLoop => context.loops.contains .whileLoop
  | .doLoop => context.loops.contains .doLoop
  | .sub => context.kind == .sub
  | .function => context.kind == .function

end CheckContext

namespace Check

def option {α β : Type} (check : α → Check β) : Option α → Check (Option β)
  | none => return none
  | some value => return some (← check value)

def moduleLevelOnly (context : CheckContext) (what : String) (locus : Locus) : Check Unit := do
  if !(context.inMain && context.depth == 0) then report (.moduleLevelOnly what) locus

def resolve (spec : TypeSpec) (locus : Locus) : Check Ty := do
  match (← symbols).resolve? spec with
  | some ty => return ty
  | none =>
    match spec with
    | .record name => report (.unknownType name) locus
    | _ => pure ()
    return .any

def resolveOr (spec : Option TypeSpec) (name : String) (locus : Locus) : Check Ty := do
  match spec with
  | some spec => resolve spec locus
  | none => return (← symbols).implicitType name

def bound (context : CheckContext) (expr : Expr) : Check Expr := do
  let checked ← Check.expr context expr
  if !isNumber checked.ty then report (.indexNotNumeric checked.ty.name) checked.locus
  return checked

def dimension (context : CheckContext) (dim : Dimension) : Check Dimension := do
  let lower ← option (bound context) dim.lower
  let upper ← bound context dim.upper
  return { lower, upper }

def declaredDimension (context : CheckContext) (decl : VarDecl) (dim : Dimension) :
    Check Dimension := do
  let lower ← option (bound context) dim.lower
  let before ← symbols
  let lowest :=
    match lower with
    | some expr => fold before expr
    | none => some 0
  let upper ← bound context dim.upper
  let highest := fold (← symbols) upper
  match lowest, highest with
  | some low, some high => if high < low then report (.invalidBounds decl.name) decl.locus
  | _, _ => pure ()
  return { lower, upper }

/-- One variable of a `DIM` statement. A name that all routines share cannot be declared again. -/
def dimDecl (context : CheckContext) (shared : Bool) (decl : VarDecl) : Check VarDecl := do
  let element ← resolveOr decl.typeSpec decl.name decl.locus
  let dimensions ←
    if decl.isArray then decl.dimensions.mapM (declaredDimension context decl)
    else pure decl.dimensions
  let ty := if decl.isArray then .array element decl.dimensions.length else element
  match (← symbols).lookupShared? decl.name with
  | some existing =>
    if context.inMain then report (.duplicateVariable decl.name existing.locus) decl.locus
    else report (.sharedRedeclared decl.name) decl.locus
  | none =>
    declare { name := decl.name, kind := .variable, ty, locus := decl.locus, constant := none }
      shared
  return { decl with dimensions }

/-- One variable of a `REDIM` statement: an array keeps its rank and the type of its elements, and
an unknown name becomes an array. -/
def redimDecl (context : CheckContext) (decl : VarDecl) : Check VarDecl := do
  let dimensions ← decl.dimensions.mapM (dimension context)
  let rank := decl.dimensions.length
  match (← symbols).lookup? decl.name with
  | some entry =>
    match entry.ty with
    | .array element dims =>
      if dims ≠ 0 ∧ dims ≠ rank then report (.dimensionMismatch decl.name dims rank) decl.locus
      match decl.typeSpec with
      | some spec =>
        let declared ← resolve spec decl.locus
        if declared.name ≠ element.name ∧ declared ≠ .any then
          report (.typeMismatch element.name declared.name) decl.locus
      | none => pure ()
      if dims = 0 then modify fun state =>
        { state with symbols := state.symbols.retype decl.name (.array element rank) }
    | _ => report (.notAnArray decl.name) decl.locus
  | none =>
    let element ← resolveOr decl.typeSpec decl.name decl.locus
    match (← symbols).define
        { name := decl.name, kind := .variable, ty := .array element rank, locus := decl.locus
          constant := none } false with
    | .ok table => setSymbols table
    | .error _ => pure ()
  return { decl with dimensions }

end Check

def constantType (name : String) (value : Expr) : Ty := (Ty.ofSigil? name).getD value.ty

namespace Check

def constant (context : CheckContext) (name : String) (value : Expr) (locus : Locus) :
    Check Expr := do
  let checked ← Check.expr context value
  let table ← symbols
  if !isConstant table checked then report .notConstant checked.locus
  let ty := constantType name checked
  if !ty.isCompatible checked.ty then
    report (.typeMismatch ty.name checked.ty.name) checked.locus
  declare { name, kind := .constant, ty, locus, constant := fold table checked } context.inMain
  return checked

def caseValue (context : CheckContext) (test : Ty) (value : Expr) : Check Expr := do
  let checked ← Check.expr context value
  if (BinaryOperator.equal.resultType? test checked.ty).isNone then
    report (.typeMismatch test.name checked.ty.name) checked.locus
  return checked

def caseMatch (context : CheckContext) (test : Ty) : CaseMatch → Check CaseMatch
  | .single value => return .single (← caseValue context test value)
  | .range first last => do
    let first ← caseValue context test first
    let last ← caseValue context test last
    return .range first last
  | .comparison operator value => return .comparison operator (← caseValue context test value)

def counter (name : String) (locus : Locus) : Check Unit := do
  match (← symbols).lookup? name with
  | some entry =>
    if entry.kind = .constant then report (.assignmentToConst name) locus
    else if !isNumber entry.ty then report (.typeMismatch "numeric" entry.ty.name) locus
  | none =>
    let ty ← variableType name locus
    if !isNumber ty then report (.typeMismatch "numeric" ty.name) locus

def jump (context : CheckContext) (name : String) (locus : Locus) : Check Unit := do
  match (← symbols).label? name with
  | none => report (.undefinedLabel name) locus
  | some label =>
    if label.routine ≠ context.routine then report (.labelOutOfScope name) locus

def loopCondition (context : CheckContext) (condition : LoopCondition) : Check LoopCondition :=
  return { condition with condition := ← expectCondition context condition.condition }

def referenceArguments (arguments : List Expr) : Check Unit := do
  match arguments with
  | [] => return
  | first :: _ =>
    arguments.forM fun argument => do
      if !argument.isLvalue then report .notAssignable argument.locus
      else if first.ty.name ≠ argument.ty.name ∧ !(first.ty.isNumeric && argument.ty.isNumeric) then
        report (.typeMismatch first.ty.name argument.ty.name) argument.locus

def callArguments (context : CheckContext) (name : String) (arguments : List Expr)
    (locus : Locus) : Check (List Expr) := do
  let refused (kind : DiagnosticKind) : Check (List Expr) := do
    let checked ← each context noDemand 0 arguments
    report kind locus
    return checked
  match (← symbols).procedure? name with
  | some entry =>
    if entry.kind = .function then refused (.functionUsedAsSub name)
    else if !entry.isDefined then refused (.undefinedProcedure name)
    else
      let demand ← callDemand name entry.params arguments.length locus
      each context demand 0 arguments
  | none =>
    match context.registry.sub? name with
    | some builtin =>
      let demand ← builtinDemand builtin arguments.length locus
      let checked ← each context demand 0 arguments
      if builtin.signature.byReference then referenceArguments checked
      return checked
    | none =>
      if (context.registry.function? name).isSome then refused (.functionUsedAsSub name)
      else refused (.undefinedProcedure name)

mutual

def stmt (context : CheckContext) (locus : Locus) : Stmt → Check Stmt
  | .print file format items newline => do
    let file ← option (expectNumeric context) file
    let format ← option (expectString context) format
    let items ← items.mapM fun item => do
      return { item with expr := ← expectPrintable context item.expr }
    return .print file format items newline
  | .assign target value => do
    let (target, ty) ← Check.target context target
    let value ← Check.expr context value
    if !ty.isCompatible value.ty then report (.typeMismatch ty.name value.ty.name) value.locus
    return .assign target value
  | .dim shared decls => do
    if shared && !context.inMain then report .sharedOutsideMain locus
    return .dim shared (← decls.mapM (dimDecl context (shared && context.inMain)))
  | .redim preserve decls => return .redim preserve (← decls.mapM (redimDecl context))
  | .const name value => return .const name (← constant context name value locus)
  | .cond branches => return .cond (← arms context branches)
  | .select test clauses => do
    let test ← Check.expr context test
    return .select test (← cases context test.ty clauses)
  | .forLoop name first last step body next => do
    counter name locus
    let first ← expectNumeric context first
    let last ← expectNumeric context last
    let step ← option (expectNumeric context) step
    let body ← block (context.inLoop .forLoop) body
    match next with
    | some (found, place) => if found ≠ name then report (.nextMismatch name found) place
    | none => pure ()
    return .forLoop name first last step body next
  | .whileLoop condition body => do
    let condition ← expectCondition context condition
    return .whileLoop condition (← block (context.inLoop .whileLoop) body)
  | .doLoop before body after => do
    let before ← option (loopCondition context) before
    let body ← block (context.inLoop .doLoop) body
    let after ← option (loopCondition context) after
    return .doLoop before body after
  | .goto target => do
    jump context target locus
    return .goto target
  | .gosub target => do
    jump context target locus
    return .gosub target
  | .exit target => do
    if !context.allowsExit target then report (.exitOutside target) locus
    return .exit target
  | .onEvent key target => do
    let key ← expectString context key
    jump context target locus
    return .onEvent key target
  | .restore label => do
    match label with
    | some name => if ((← symbols).label? name).isNone then report (.undefinedLabel name) locus
    | none => pure ()
    return .restore label
  | .declare kind name params returns => do
    moduleLevelOnly context "DECLARE" locus
    return .declare kind name params returns
  | .typeDef name members => do
    moduleLevelOnly context "TYPE" locus
    return .typeDef name members
  | .defType spec ranges => do
    moduleLevelOnly context "DEFtype" locus
    return .defType spec ranges
  | .call name arguments => return .call name (← callArguments context name arguments locus)
  | .input prompt question targets =>
    return .input prompt question (← targets.mapM (scalarTarget context))
  | .lineInput prompt target => return .lineInput prompt (← stringTarget context target)
  | .fileInput file targets line => do
    let file ← expectNumeric context file
    let targets ← targets.mapM (if line then stringTarget context else scalarTarget context)
    return .fileInput file targets line
  | .openFile path mode file => do
    let path ← expectString context path
    let file ← expectNumeric context file
    return .openFile path mode file
  | .close files => return .close (← files.mapM (expectNumeric context))
  | .write file values => do
    let file ← option (expectNumeric context) file
    return .write file (← values.mapM (expectPrintable context))
  | .read targets => return .read (← targets.mapM (scalarTarget context))
  | .data items => return .data items
  | .label name => return .label name
  | .ret => return .ret
  | .stop => return .stop
  | .comment text => return .comment text

def block (context : CheckContext) : Block → Check Block
  | .nil => return .nil
  | .cons locus head tail => do
    let head ← stmt context locus head
    return .cons locus head (← block context tail)

def arms (context : CheckContext) : Arms → Check Arms
  | .none => return .none
  | .otherwise body => return .otherwise (← block context.nested body)
  | .arm condition body rest => do
    let condition ← expectCondition context condition
    let body ← block context.nested body
    return .arm condition body (← arms context rest)

def cases (context : CheckContext) (test : Ty) : Cases → Check Cases
  | .none => return .none
  | .otherwise body => return .otherwise (← block context.nested body)
  | .clause locus patterns body rest => do
    let patterns ← patterns.mapM (caseMatch context test)
    let body ← block context.nested body
    return .clause locus patterns body (← cases context test rest)

end

end Check

end BasicLang
