import BasicLang.Machine.Execute
import BasicLang.Proofs.Evaluation

set_option autoImplicit false

namespace BasicLang

abbrev Interpretation (α : Type) := ExceptT Fault Option α

namespace Interpretation

def unfinished {α : Type} : Interpretation α := ExceptT.mk none

def ofResult {α : Type} (result : Except Fault α) : Interpretation α := ExceptT.mk (some result)

end Interpretation

def Fault.ofValue (result : Except ValueFault Value) : Except Fault Value :=
  match result with
  | .ok found => .ok found
  | .error fault => .error (.value fault)

def Value.number (value : Value) : Except Fault Float :=
  match value.toDouble? with
  | some number => .ok number
  | none => .error (.expectedNumber value.typeName)

namespace Environment

def find (environment : Environment) (name : String) : Value × Environment :=
  environment.fetch name (environment.implicitType name).default

def assign (environment : Environment) (name : String) (value : Value) : Except Fault Environment := do
  let (held, environment) := environment.find name
  if held.ty = .null then return environment.set name value
  else return environment.set name (← Fault.ofValue (held.ty.convert value))

def assignFrom (environment : Environment) (name : String) (source : Expr) : Except Fault Environment := do
  let (value, environment) ← source.evaluate (environment.find name).2
  environment.assign name value

def counts (counter : String) (last step : Value) (environment : Environment) :
    Except Fault (Bool × Environment) := do
  let (held, environment) := environment.find counter
  let step ← step.number
  let last ← last.number
  let number ← held.number
  return (!decide (if 0 ≤ step then last < number else number < last), environment)

def advance (counter : String) (step : Value) (environment : Environment) : Except Fault Environment := do
  let (held, environment) := environment.find counter
  let step ← step.number
  match held.toDouble? with
  | none => throw (.counterType held.typeName)
  | some number =>
    if Run.fits held.ty (Double.roundToEven (number + step)) then
      environment.assign counter (.double (number + step))
    else throw .counterOverflow

end Environment

def Expr.evaluateDouble (environment : Environment) (expr : Expr) : Except Fault (Value × Environment) := do
  let (value, environment) ← expr.evaluate environment
  return (← Fault.ofValue (Ty.double.convert value), environment)

def Expr.evaluateStep (environment : Environment) : Option Expr → Except Fault (Value × Environment)
  | some step => step.evaluateDouble environment
  | none => .ok (.double (Double.ofInt 1), environment)

namespace CaseMatch

def compare (tested : Value) (operator : BinaryOperator) (wanted : Expr) (environment : Environment) :
    Except Fault (Value × Environment) := do
  let (value, environment) ← wanted.evaluate environment
  return (← Fault.ofArithmetic (operator.apply tested value), environment)

/-- The truth value of a pattern. Both ends of a range are computed. -/
def evaluate (tested : Value) (environment : Environment) : CaseMatch → Except Fault (Value × Environment)
  | .single wanted => compare tested .equal wanted environment
  | .range first last => do
    let (above, environment) ← compare tested .greaterEqual first environment
    let (below, environment) ← compare tested .lessEqual last environment
    return (← Fault.ofArithmetic (BinaryOperator.and.apply above below), environment)
  | .comparison operator wanted => compare tested operator wanted environment

def anyMatches (tested : Value) (environment : Environment) :
    List CaseMatch → Except Fault (Bool × Environment)
  | [] => .ok (false, environment)
  | pattern :: rest => do
    let (truth, environment) ← pattern.evaluate tested environment
    if truth.isTrue then return (true, environment) else anyMatches tested environment rest

end CaseMatch

def LoopCondition.goesOn (condition : Option LoopCondition) (environment : Environment) :
    Except Fault (Bool × Environment) :=
  match condition with
  | none => .ok (true, environment)
  | some loop => do
    let (value, environment) ← loop.condition.evaluate environment
    return (value.isTrue == loop.isWhile, environment)

def ExitTarget.beyond (loop target : ExitTarget) : Option ExitTarget :=
  if target = loop then none else some target

abbrev Flow := Option ExitTarget × Environment

/-- A loop with a test before its body and one behind it, for a number of rounds. -/
def loop (kind : ExitTarget) (test : Environment → Except Fault (Bool × Environment))
    (body : Environment → Interpretation Flow) (further : Environment → Except Fault (Bool × Environment)) :
    Nat → Environment → Interpretation Flow
  | 0, _ => .unfinished
  | rounds + 1, environment => do
    let (enters, environment) ← .ofResult (test environment)
    if enters then
      let (exit, environment) ← body environment
      match exit with
      | some target => return (kind.beyond target, environment)
      | none =>
        let (again, environment) ← .ofResult (further environment)
        if again then loop kind test body further rounds environment
        else return (none, environment)
    else return (none, environment)

mutual

def Stmt.interpret (rounds : Nat) : Stmt → Environment → Interpretation Flow
  | .assign (.variable name _) source => fun environment => do
    return (none, ← .ofResult (environment.assignFrom name source))
  | .cond branches => branches.interpret rounds
  | .select test clauses => fun environment => do
    let (tested, environment) ← .ofResult (test.evaluate environment)
    clauses.interpret rounds tested environment
  | .forLoop counter first last step body _ => fun environment => do
    let environment ← .ofResult (environment.assignFrom counter first)
    let (last, environment) ← .ofResult (last.evaluateDouble environment)
    let (step, environment) ← .ofResult (Expr.evaluateStep environment step)
    loop .forLoop (Environment.counts counter last step) (body.interpret rounds)
      (fun environment => do return (true, ← environment.advance counter step)) rounds environment
  | .whileLoop condition body =>
    loop .whileLoop (LoopCondition.goesOn (some ⟨true, condition⟩)) (body.interpret rounds)
      (LoopCondition.goesOn none) rounds
  | .doLoop before body after =>
    loop .doLoop (LoopCondition.goesOn before) (body.interpret rounds) (LoopCondition.goesOn after) rounds
  | .exit target => fun environment => return (some target, environment)
  | _ => fun environment => return (none, environment)

def Block.interpret (rounds : Nat) : Block → Environment → Interpretation Flow
  | .nil => fun environment => return (none, environment)
  | .cons _ head tail => fun environment => do
    let (exit, environment) ← head.interpret rounds environment
    match exit with
    | some target => return (some target, environment)
    | none => tail.interpret rounds environment

def Arms.interpret (rounds : Nat) : Arms → Environment → Interpretation Flow
  | .none => fun environment => return (none, environment)
  | .otherwise body => body.interpret rounds
  | .arm condition body rest => fun environment => do
    let (value, environment) ← .ofResult (condition.evaluate environment)
    if value.isTrue then body.interpret rounds environment else rest.interpret rounds environment

def Cases.interpret (rounds : Nat) (tested : Value) : Cases → Environment → Interpretation Flow
  | .none => fun environment => return (none, environment)
  | .otherwise body => body.interpret rounds
  | .clause _ patterns body rest => fun environment => do
    let (found, environment) ← .ofResult (CaseMatch.anyMatches tested environment patterns)
    if found then body.interpret rounds environment else rest.interpret rounds tested environment

end

def Expr.isScalar : Expr → Bool
  | .literal _ _ => true
  | .variable _ info => !(info.ty.getD .any).isArray
  | .binary _ left right _ => left.isScalar && right.isScalar
  | .unary _ operand _ => operand.isScalar
  | .grouped inner _ => inner.isScalar
  | _ => false

def CaseMatch.isScalar : CaseMatch → Bool
  | .single wanted => wanted.isScalar
  | .range first last => first.isScalar && last.isScalar
  | .comparison _ wanted => wanted.isScalar

def ExitTarget.isLoop : ExitTarget → Bool
  | .sub => false
  | .function => false
  | _ => true

mutual

/-- Assignments to variables, conditionals, selections, loops and their exits, on scalar expressions,
and comments. -/
def Stmt.isStructured : Stmt → Bool
  | .assign (.variable _ info) source => !(info.ty.getD .any).isArray && source.isScalar
  | .cond branches => branches.isStructured
  | .select test clauses => test.isScalar && clauses.isStructured
  | .forLoop _ first last step body _ =>
    first.isScalar && last.isScalar && step.all Expr.isScalar && body.isStructured
  | .whileLoop condition body => condition.isScalar && body.isStructured
  | .doLoop before body after =>
    before.all (·.condition.isScalar) && body.isStructured && after.all (·.condition.isScalar)
  | .exit target => target.isLoop
  | .comment _ => true
  | _ => false

def Block.isStructured : Block → Bool
  | .nil => true
  | .cons _ head tail => head.isStructured && tail.isStructured

def Arms.isStructured : Arms → Bool
  | .none => true
  | .otherwise body => body.isStructured
  | .arm condition body rest => condition.isScalar && body.isStructured && rest.isStructured

def Cases.isStructured : Cases → Bool
  | .none => true
  | .otherwise body => body.isStructured
  | .clause _ patterns body rest =>
    patterns.all CaseMatch.isScalar && body.isStructured && rest.isStructured

end

end BasicLang
