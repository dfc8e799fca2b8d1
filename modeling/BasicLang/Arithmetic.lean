import BasicLang.Value

set_option autoImplicit false

namespace BasicLang

inductive ArithmeticFault where
  | notApplicable (operator : BinaryOperator) (left right : String)
  | overflow (operator : BinaryOperator)
  | divisionByZero
  | notNegatable (operand : String)
  | noComplement (operand : String)
  | value (fault : ValueFault)
deriving Repr, DecidableEq

def ArithmeticFault.message : ArithmeticFault → String
  | .notApplicable operator left right =>
    "cannot apply " ++ operator.symbol ++ " to " ++ left ++ " and " ++ right
  | .overflow operator => "overflow in " ++ operator.symbol
  | .divisionByZero => "division by zero"
  | .notNegatable operand => "cannot negate " ++ operand
  | .noComplement operand => "NOT of " ++ operand
  | .value fault => fault.message

def ArithmeticFault.code : ArithmeticFault → Nat
  | .notApplicable _ _ _ => 13
  | .overflow _ => 6
  | .divisionByZero => 11
  | .notNegatable _ => 13
  | .noComplement _ => 13
  | .value fault => fault.code

namespace Value

def materialize (value other : Value) : Value :=
  match value, other with
  | .null, .string _ => .string ""
  | .null, _ => .integer 0
  | _, _ => value

def compareNumbers (left right : Float) : Ordering :=
  if left < right then .lt else if right < left then .gt else .eq

def compareTexts (left right : String) : Ordering :=
  if left < right then .lt else if left = right then .eq else .gt

end Value

def BinaryOperator.holds (operator : BinaryOperator) (order : Ordering) : Bool :=
  match operator with
  | .equal => order == .eq
  | .notEqual => order != .eq
  | .less => order == .lt
  | .lessEqual => order != .gt
  | .greater => order == .gt
  | _ => order != .lt

def BinaryOperator.bits (operator : BinaryOperator) (left right : Int64) : Int64 :=
  match operator with
  | .and => left &&& right
  | .or => left ||| right
  | .xor => left ^^^ right
  | .eqv => ~~~(left ^^^ right)
  | _ => ~~~left ||| right

namespace Arithmetic

def convert (ty : Ty) (number : Float) : Except ArithmeticFault Value :=
  match ty.convert (.double number) with
  | .ok value => .ok value
  | .error fault => .error (.value fault)

def wholeOperand (operator : BinaryOperator) (number : Float) : Except ArithmeticFault Int :=
  let rounded := Double.roundToEven number
  if -2147483648 ≤ rounded ∧ rounded ≤ 2147483647 then .ok (Double.toInt rounded)
  else .error (.overflow operator)

def roundedBits (number : Float) : Int64 :=
  Int64.ofInt (Double.toInt (Double.roundToEven number))

def numeric (operator : BinaryOperator) (left right : Float) : Except ArithmeticFault Float :=
  match operator with
  | .add => .ok (left + right)
  | .subtract => .ok (left - right)
  | .multiply => .ok (left * right)
  | .divide => if right == 0 then .error .divisionByZero else .ok (left / right)
  | .power => .ok (Float.pow left right)
  | .intDivide => do
    let dividend ← wholeOperand operator left
    let divisor ← wholeOperand operator right
    if divisor = 0 then .error .divisionByZero else .ok (Double.ofInt (dividend.tdiv divisor))
  | .modulo => do
    let dividend ← wholeOperand operator left
    let divisor ← wholeOperand operator right
    if divisor = 0 then .error .divisionByZero else .ok (Double.ofInt (dividend.tmod divisor))
  | _ => .ok (Double.ofInt (operator.bits (roundedBits left) (roundedBits right)).toInt)

end Arithmetic

def BinaryOperator.apply (operator : BinaryOperator) (left right : Value) :
    Except ArithmeticFault Value :=
  let left := left.materialize right
  let right := right.materialize left
  let notApplicable := .error (.notApplicable operator left.typeName right.typeName)
  match operator.resultType? left.ty right.ty with
  | none => notApplicable
  | some ty =>
    match left, right with
    | .string leftText, .string rightText =>
      if operator.isComparison then
        .ok (.ofBool (operator.holds (Value.compareTexts leftText rightText)))
      else .ok (.string (leftText ++ rightText))
    | _, _ =>
      match left.toDouble?, right.toDouble? with
      | some leftNumber, some rightNumber =>
        if operator.isComparison then
          .ok (.ofBool (operator.holds (Value.compareNumbers leftNumber rightNumber)))
        else
          match Arithmetic.numeric operator leftNumber rightNumber with
          | .ok number => Arithmetic.convert ty number
          | .error fault => .error fault
      | _, _ => notApplicable

def Value.negate (value : Value) : Except ArithmeticFault Value :=
  match value.toDouble? with
  | some number => Arithmetic.convert (if value.ty = .null then .integer else value.ty) (-number)
  | none => .error (.notNegatable value.typeName)

def Value.complement (value : Value) : Except ArithmeticFault Value :=
  match value.toDouble? with
  | some number =>
    Arithmetic.convert (if value.ty = .integer then .integer else .long)
      (Double.ofInt (~~~(Arithmetic.roundedBits number)).toInt)
  | none => .error (.noComplement value.typeName)

def UnaryOperator.apply (operator : UnaryOperator) (value : Value) :
    Except ArithmeticFault Value :=
  match operator with
  | .negate => value.negate
  | .not => value.complement

end BasicLang
