import BasicLang.Code.Stmt
import BasicLang.Lexer
import BasicLang.Syntax.BlockGrammar
import BasicLang.Typing.Program

set_option autoImplicit false

namespace BasicLang

namespace Emit

def letterTypes (context : EmitContext) (locus : Locus) : Stmt → Emit Unit
  | .defType spec ranges => do
    setLocus locus
    let ty ← typeOf context spec locus
    ranges.forM fun (first, last) => op (.setDefaultType first last ty)
  | _ => return

def procedure (context : EmitContext) (routine : Routine) : Emit Unit := do
  match context.symbols.procedure? routine.name with
  | none => throw (.located (.unresolved routine.name) routine.locus)
  | some entry =>
    setLocus routine.locus
    let skip ← newLabel
    jump skip
    place (← entryLabel routine.name)
    entry.params.reverse.forM fun (name, ty) => op (.popParam name ty)
    if routine.kind = .function then op (.dim routine.name (entry.returns.getD .any))
    let exit ← newLabel
    block { context with exit := some exit } routine.body
    place exit
    if routine.kind = .function then op (.pushValue routine.name)
    op .ret
    place skip

def program (context : EmitContext) (program : Program) : Emit Unit := do
  program.main.toList.forM fun (locus, stmt) => letterTypes context locus stmt
  block context program.main
  op .stop
  program.procedures.forM (procedure context)
  if !program.procedures.isEmpty then op .stop

end Emit

/-- The code of a program. The program need not be free of diagnostics; what has no code then is an
error. -/
def Program.image (program : Program) (symbols : SymbolTable) (registry : Registry) :
    Except CodeError Image := do
  let context : EmitContext := { symbols, registry, loops := [], exit := none }
  let (_, assembly) ← (Emit.program context program).run .empty
  let linked ← assembly.link
  return {
    instructions := linked.code
    data := linked.data
    types := symbols.types.map fun (name, entry) => (name, entry.members)
    defaultType := .single
    shared := symbols.shared.names }

inductive CompileError where
  | lexing (errors : List LexError)
  | parsing (errors : List ParseError)
  | checking (diagnostics : List Diagnostic)
  | coding (error : CodeError)

namespace CompileError

def listing {α : Type} (locus : α → Locus) (message : α → String) (errors : List α) : String :=
  "\n".intercalate (errors.map fun error => (locus error).text ++ ": " ++ message error)

def message : CompileError → String
  | .lexing errors => listing LexError.locus LexError.message errors
  | .parsing errors => listing ParseError.locus ParseError.message errors
  | .checking diagnostics => listing Diagnostic.locus Diagnostic.message diagnostics
  | .coding error => error.message

def count : CompileError → Nat
  | .lexing errors => errors.length
  | .parsing errors => errors.length
  | .checking diagnostics => diagnostics.length
  | .coding _ => 1

end CompileError

def compile (source : String) (registry : Registry) : Except CompileError Image :=
  let (tokens, lexErrors) := tokenize source
  if !lexErrors.isEmpty then .error (.lexing lexErrors)
  else
    match parse tokens with
    | .error errors => .error (.parsing errors)
    | .ok program =>
      let checked := program.check registry
      if !checked.diagnostics.isEmpty then .error (.checking checked.diagnostics)
      else
        match checked.program.image checked.symbols registry with
        | .ok image => .ok image
        | .error error => .error (.coding error)

end BasicLang
