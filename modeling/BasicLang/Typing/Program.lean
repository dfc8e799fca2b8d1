import BasicLang.Typing.Stmt

set_option autoImplicit false

namespace BasicLang

def Ty.agrees : Ty → Ty → Bool
  | .any, _ => true
  | _, .any => true
  | .array left _, .array right _ => left.agrees right
  | .array _ _, _ => false
  | _, .array _ _ => false
  | left, right => left.name == right.name

namespace ProcedureEntry

def parameterMismatch? (position : Nat) :
    List (String × Ty) → List (String × Ty) → Option DeclarationMismatch
  | (_, declared) :: declaredRest, (_, defined) :: definedRest =>
    if declared.agrees defined then parameterMismatch? (position + 1) declaredRest definedRest
    else some (.parameter position declared.name defined.name)
  | _, _ => none

def mismatch? (declared defined : ProcedureEntry) : Option DeclarationMismatch :=
  if declared.kind ≠ defined.kind then some (.kind declared.kind defined.kind)
  else if declared.params.length ≠ defined.params.length then
    some (.count declared.params.length defined.params.length)
  else
    match parameterMismatch? 1 declared.params defined.params with
    | some mismatch => some mismatch
    | none =>
      match declared.returns, defined.returns with
      | some result, some wanted =>
        if result.agrees wanted then none else some (.result result.name wanted.name)
      | _, _ => none

end ProcedureEntry

namespace Check

def declareTypes (locus : Locus) : Stmt → Check Unit
  | .defType spec ranges => do
    match (← symbols).resolve? spec with
    | some ty =>
      modify fun state =>
        { state with
          symbols := ranges.foldl (fun table (first, last) => table.setLetterType first last ty)
            state.symbols }
    | none => return
  | .typeDef name members => do
    let members ← members.mapM fun member => do
      return (member.name, ← resolve member.typeSpec member.locus)
    match (← symbols).defineType { name, members := .ofList members, locus } with
    | .ok table => setSymbols table
    | .error existing => report (.duplicateType name existing.locus) locus
  | _ => return

def procedureEntry (kind : RoutineKind) (name : String) (params : List Parameter)
    (returns : Option TypeSpec) (locus : Locus) (isDefined : Bool) : Check ProcedureEntry := do
  let params ← params.mapM fun param => do
    let element ← resolveOr param.typeSpec param.name param.locus
    return (param.name, if param.isArray then .array element 0 else element)
  let returns ←
    if kind = .function then do pure (some (← resolveOr returns name locus)) else pure none
  return { name, kind, params, returns, locus, isDefined }

def declareRoutine (routine : Routine) : Check Unit := do
  let entry ←
    procedureEntry routine.kind routine.name routine.params routine.returns routine.locus true
  match (← symbols).defineProcedure entry with
  | .ok table => setSymbols table
  | .error existing => report (.duplicateProcedure routine.name existing.locus) routine.locus

def declareProcedure (locus : Locus) : Stmt → Check Unit
  | .declare kind name params returns => do
    let entry ← procedureEntry kind name params returns locus false
    match (← symbols).defineProcedure entry with
    | .ok table => setSymbols table
    | .error defined =>
      match entry.mismatch? defined with
      | some mismatch => report (.declarationMismatch name mismatch) locus
      | none => return
  | _ => return

mutual

def stmtLabels (routine : String) (locus : Locus) : Stmt → Check Unit
  | .label name => do
    match (← symbols).defineLabel { name, locus, routine } with
    | .ok table => setSymbols table
    | .error existing => report (.duplicateLabel name existing.locus) locus
  | .cond branches => armsLabels routine branches
  | .select _ clauses => casesLabels routine clauses
  | .forLoop _ _ _ _ body _ => blockLabels routine body
  | .whileLoop _ body => blockLabels routine body
  | .doLoop _ body _ => blockLabels routine body
  | _ => return

def blockLabels (routine : String) : Block → Check Unit
  | .nil => return
  | .cons locus head tail => do
    stmtLabels routine locus head
    blockLabels routine tail

def armsLabels (routine : String) : Arms → Check Unit
  | .none => return
  | .otherwise body => blockLabels routine body
  | .arm _ body rest => do
    blockLabels routine body
    armsLabels routine rest

def casesLabels (routine : String) : Cases → Check Unit
  | .none => return
  | .otherwise body => blockLabels routine body
  | .clause _ _ body rest => do
    blockLabels routine body
    casesLabels routine rest

end

def declarations (program : Program) : Check Unit := do
  let main := program.main.toList
  main.forM fun (locus, stmt) => declareTypes locus stmt
  program.procedures.forM declareRoutine
  main.forM fun (locus, stmt) => declareProcedure locus stmt
  program.routines.forM fun routine => blockLabels routine.name routine.body

def declareLocal (name : String) (kind : SymbolKind) (ty : Ty) (locus : Locus) : Check Unit :=
  declare { name, kind, ty, locus, constant := none } false

/-- A routine in a scope of its own. Its parameters are variables there, and so is the name of a
function, which holds the result. -/
def routine (registry : Registry) (routine : Routine) : Check Routine := do
  modify fun state => { state with symbols := state.symbols.enterScope }
  match (← symbols).procedure? routine.name with
  | some entry =>
    (routine.params.zip entry.params).forM fun (param, _, ty) =>
      declareLocal param.name .parameter ty param.locus
    match entry.returns with
    | some ty => declareLocal routine.name .variable ty routine.locus
    | none => pure ()
  | none => pure ()
  let context : CheckContext :=
    { registry, routine := routine.name, kind := routine.kind, loops := [], depth := 0 }
  let body ← block context routine.body
  modify fun state => { state with symbols := state.symbols.exitScope }
  return { routine with body }

def program (registry : Registry) (program : Program) : Check Program := do
  declarations program
  let main ← routine registry (.main program.main)
  let procedures ← program.procedures.mapM (routine registry)
  return { main := main.body, procedures }

end Check

/-- A program with its types, its names, and what is wrong with it in the order of the source. -/
structure Checked where
  program : Program
  symbols : SymbolTable
  diagnostics : List Diagnostic

def Program.check (program : Program) (registry : Registry) : Checked :=
  let (checked, state) := (Check.program registry program).run ⟨.empty, []⟩
  { program := checked
    symbols := state.symbols
    diagnostics := Diagnostic.sort state.diagnostics.reverse }

end BasicLang
