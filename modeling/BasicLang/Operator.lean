import BasicLang.Ty

set_option autoImplicit false

namespace BasicLang

inductive BinaryOperator where
  | power
  | multiply
  | divide
  | intDivide
  | modulo
  | add
  | subtract
  | equal
  | notEqual
  | less
  | lessEqual
  | greater
  | greaterEqual
  | and
  | or
  | xor
  | eqv
  | imp
deriving Repr, DecidableEq

inductive UnaryOperator where
  | negate
  | not
deriving Repr, DecidableEq

namespace BinaryOperator

def all : List BinaryOperator :=
  [.power, .multiply, .divide, .intDivide, .modulo, .add, .subtract, .equal, .notEqual, .less,
    .lessEqual, .greater, .greaterEqual, .and, .or, .xor, .eqv, .imp]

def symbol : BinaryOperator → String
  | .power => "^"
  | .multiply => "*"
  | .divide => "/"
  | .intDivide => "\\"
  | .modulo => "MOD"
  | .add => "+"
  | .subtract => "-"
  | .equal => "="
  | .notEqual => "<>"
  | .less => "<"
  | .lessEqual => "<="
  | .greater => ">"
  | .greaterEqual => ">="
  | .and => "AND"
  | .or => "OR"
  | .xor => "XOR"
  | .eqv => "EQV"
  | .imp => "IMP"

def title : BinaryOperator → String
  | .power => "Power"
  | .multiply => "Multiply"
  | .divide => "Divide"
  | .intDivide => "IntDivide"
  | .modulo => "Modulo"
  | .add => "Add"
  | .subtract => "Subtract"
  | .equal => "Equal"
  | .notEqual => "NotEqual"
  | .less => "LessThan"
  | .lessEqual => "LessEqual"
  | .greater => "GreaterThan"
  | .greaterEqual => "GreaterEqual"
  | .and => "And"
  | .or => "Or"
  | .xor => "Xor"
  | .eqv => "Eqv"
  | .imp => "Imp"

def ofSymbol? (symbol : String) : Option BinaryOperator :=
  all.find? fun operator => operator.symbol == symbol

def isComparison : BinaryOperator → Bool
  | .equal | .notEqual | .less | .lessEqual | .greater | .greaterEqual => true
  | _ => false

def isLogical : BinaryOperator → Bool
  | .and | .or | .xor | .eqv | .imp => true
  | _ => false

def resultType? (operator : BinaryOperator) (left right : Ty) : Option Ty :=
  let dynamic := left.isDynamic || right.isDynamic
  let texts := left = .string ∧ right = .string
  let numbers := left.isNumeric && right.isNumeric
  if operator.isComparison then
    if dynamic || numbers || decide texts then some .integer else none
  else if dynamic then some .any
  else if operator = .add ∧ texts then some .string
  else if !numbers then none
  else
    let wide := left.wider right
    match operator with
    | .divide | .power => some (wide.wider .single)
    | .intDivide | .modulo | .and | .or | .xor | .eqv | .imp => some wide.integral
    | _ => some wide

end BinaryOperator

def UnaryOperator.symbol : UnaryOperator → String
  | .negate => "-"
  | .not => "NOT"

end BasicLang
