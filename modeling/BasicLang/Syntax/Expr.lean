import BasicLang.Operator
import BasicLang.Token

set_option autoImplicit false

namespace BasicLang

inductive Literal where
  | integer (value : Int)
  | long (value : Int)
  | single (value : Float)
  | double (value : Float)
  | string (value : String)

inductive Callee where
  | unresolved
  | element
  | function
  | builtin
deriving Repr, DecidableEq

def Callee.title : Callee → String
  | .unresolved => "Unresolved"
  | .element => "Array"
  | .function => "Function"
  | .builtin => "Builtin"

structure ExprInfo where
  locus : Locus
  ty : Option Ty

inductive Expr where
  | literal (value : Literal) (info : ExprInfo)
  | variable (name : String) (info : ExprInfo)
  | apply (name : String) (arguments : List Expr) (callee : Callee) (info : ExprInfo)
  | member (object : Expr) (name : String) (info : ExprInfo)
  | binary (operator : BinaryOperator) (left right : Expr) (info : ExprInfo)
  | unary (operator : UnaryOperator) (operand : Expr) (info : ExprInfo)
  | grouped (inner : Expr) (info : ExprInfo)

namespace Expr

def info : Expr → ExprInfo
  | .literal _ info => info
  | .variable _ info => info
  | .apply _ _ _ info => info
  | .member _ _ info => info
  | .binary _ _ _ info => info
  | .unary _ _ info => info
  | .grouped _ info => info

def locus (expr : Expr) : Locus := expr.info.locus

def ty (expr : Expr) : Ty := expr.info.ty.getD .any

def isLvalue : Expr → Bool
  | .variable _ _ => true
  | .member _ _ _ => true
  | .apply _ _ callee _ => callee == .unresolved || callee == .element
  | _ => false

def rootName? : Expr → Option String
  | .variable name _ => some name
  | .apply name _ _ _ => some name
  | .member object _ _ => object.rootName?
  | _ => none

end Expr

instance : Inhabited Expr := ⟨.literal (.integer 0) ⟨default, none⟩⟩

end BasicLang
