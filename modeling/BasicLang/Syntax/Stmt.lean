import BasicLang.Syntax.Expr

set_option autoImplicit false

namespace BasicLang

inductive TypeSpec where
  | integer
  | long
  | single
  | double
  | string
  | json
  | any
  | record (name : String)
deriving Repr, DecidableEq

namespace TypeSpec

def title : TypeSpec → String
  | .integer => "Integer"
  | .long => "Long"
  | .single => "Single"
  | .double => "Double"
  | .string => "String"
  | .json => "Json"
  | .any => "Any"
  | .record name => name

def sigils : List (TypeSpec × Char) :=
  [(.integer, '%'), (.long, '&'), (.single, '!'), (.double, '#'), (.string, '$')]

def ofSigil? (name : String) : Option TypeSpec :=
  (sigils.find? fun (_, char) => name.toList.getLast? == some char).map Prod.fst

def sigil? (spec : TypeSpec) : Option String := (sigils.lookup spec).map Char.toString

end TypeSpec

inductive RoutineKind where
  | main
  | sub
  | function
deriving Repr, DecidableEq

def RoutineKind.title : RoutineKind → String
  | .main => "MAIN"
  | .sub => "SUB"
  | .function => "FUNCTION"

inductive FileMode where
  | input
  | output
  | append
deriving Repr, DecidableEq

namespace FileMode

def title : FileMode → String
  | .input => "Input"
  | .output => "Output"
  | .append => "Append"

def code : FileMode → Nat
  | .input => 0
  | .output => 1
  | .append => 2

def ofCode? (code : Int) : Option FileMode :=
  if code = 0 then some .input
  else if code = 1 then some .output
  else if code = 2 then some .append
  else none

end FileMode

inductive PrintSeparator where
  | semicolon
  | comma
deriving Repr, DecidableEq

structure PrintItem where
  expr : Expr
  separator : Option PrintSeparator

structure Dimension where
  lower : Option Expr
  upper : Expr

structure VarDecl where
  name : String
  dimensions : List Dimension
  isArray : Bool
  typeSpec : Option TypeSpec
  locus : Locus

structure Parameter where
  name : String
  typeSpec : Option TypeSpec
  isArray : Bool
  locus : Locus
deriving Repr, DecidableEq

structure TypeMember where
  name : String
  typeSpec : TypeSpec
  locus : Locus
deriving Repr, DecidableEq

/-- What a clause of `SELECT CASE` compares with. The operator of a comparison is one of the
comparison operators. -/
inductive CaseMatch where
  | single (value : Expr)
  | range (first last : Expr)
  | comparison (operator : BinaryOperator) (value : Expr)

structure LoopCondition where
  isWhile : Bool
  condition : Expr

inductive ExitTarget where
  | forLoop
  | whileLoop
  | doLoop
  | sub
  | function
deriving Repr, DecidableEq

def ExitTarget.title : ExitTarget → String
  | .forLoop => "FOR"
  | .whileLoop => "WHILE"
  | .doLoop => "DO"
  | .sub => "SUB"
  | .function => "FUNCTION"

inductive DataItem where
  | integer (value : Int)
  | real (value : Float)
  | text (value : String)

mutual

inductive Stmt where
  | print (file format : Option Expr) (items : List PrintItem) (newline : Bool)
  | assign (target value : Expr)
  | dim (shared : Bool) (decls : List VarDecl)
  | redim (preserve : Bool) (decls : List VarDecl)
  | const (name : String) (value : Expr)
  | cond (arms : Arms)
  | select (test : Expr) (cases : Cases)
  | forLoop (counter : String) (first last : Expr) (step : Option Expr) (body : Block)
      (next : Option (String × Locus))
  | whileLoop (condition : Expr) (body : Block)
  | doLoop (before : Option LoopCondition) (body : Block) (after : Option LoopCondition)
  | goto (target : String)
  | gosub (target : String)
  | ret
  | exit (target : ExitTarget)
  | stop
  | label (name : String)
  | declare (kind : RoutineKind) (name : String) (params : List Parameter)
      (returns : Option TypeSpec)
  | call (name : String) (arguments : List Expr)
  | input (prompt : Option String) (question : Bool) (targets : List Expr)
  | lineInput (prompt : Option String) (target : Expr)
  | fileInput (file : Expr) (targets : List Expr) (line : Bool)
  | openFile (path : Expr) (mode : FileMode) (file : Expr)
  | close (files : List Expr)
  | write (file : Option Expr) (values : List Expr)
  | data (items : List DataItem)
  | read (targets : List Expr)
  | restore (label : Option String)
  | typeDef (name : String) (members : List TypeMember)
  | defType (spec : TypeSpec) (ranges : List (Char × Char))
  | onEvent (key : Expr) (target : String)
  | comment (text : String)

inductive Block where
  | nil
  | cons (locus : Locus) (head : Stmt) (tail : Block)

inductive Arms where
  | none
  | otherwise (body : Block)
  | arm (condition : Expr) (body : Block) (rest : Arms)

inductive Cases where
  | none
  | otherwise (body : Block)
  | clause (locus : Locus) (patterns : List CaseMatch) (body : Block) (rest : Cases)

end

namespace Block

def ofList : List (Locus × Stmt) → Block
  | [] => .nil
  | (locus, stmt) :: rest => .cons locus stmt (ofList rest)

def toList : Block → List (Locus × Stmt)
  | .nil => []
  | .cons locus stmt rest => (locus, stmt) :: rest.toList

end Block

structure Routine where
  kind : RoutineKind
  name : String
  params : List Parameter
  returns : Option TypeSpec
  body : Block
  locus : Locus

def mainName : String := "_main"

def Routine.main (body : Block) : Routine :=
  { kind := .main, name := mainName, params := [], returns := none, body, locus := .start }

structure Program where
  main : Block
  procedures : List Routine

def Program.routines (program : Program) : List Routine :=
  .main program.main :: program.procedures

end BasicLang
