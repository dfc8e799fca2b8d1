import BasicLang.Syntax.Constant

set_option autoImplicit false

namespace BasicLang

namespace Precedence

def lowest : Nat := 0
def complement : Nat := 6
def negation : Nat := 12

end Precedence

def BinaryOperator.precedence : BinaryOperator → Nat
  | .imp => 1
  | .eqv => 2
  | .xor => 3
  | .or => 4
  | .and => 5
  | .equal | .notEqual | .less | .lessEqual | .greater | .greaterEqual => 7
  | .add | .subtract => 8
  | .modulo => 9
  | .intDivide => 10
  | .multiply | .divide => 11
  | .power => 13

def BinaryOperator.ofKind? : TokenKind → Option BinaryOperator
  | .symbol .plus => some .add
  | .symbol .minus => some .subtract
  | .symbol .star => some .multiply
  | .symbol .slash => some .divide
  | .symbol .backslash => some .intDivide
  | .symbol .caret => some .power
  | .symbol .equals => some .equal
  | .symbol .notEquals => some .notEqual
  | .symbol .notEqualsLegacy => some .notEqual
  | .symbol .lessThan => some .less
  | .symbol .lessEquals => some .lessEqual
  | .symbol .lessEqualsLegacy => some .lessEqual
  | .symbol .greaterThan => some .greater
  | .symbol .greaterEquals => some .greaterEqual
  | .symbol .greaterEqualsLegacy => some .greaterEqual
  | .keyword .MOD => some .modulo
  | .keyword .AND => some .and
  | .keyword .OR => some .or
  | .keyword .XOR => some .xor
  | .keyword .EQV => some .eqv
  | .keyword .IMP => some .imp
  | _ => none

namespace Reader

/-- Fails where no operand starts; the token that is none is skipped unless a statement ends
here. -/
def failOperand {α : Type} : Reader α := do
  modify (·.recordExpected "expression")
  if !(← get).isAtStatementEnd then advance
  failure

def members (object : Expr) : Nat → Reader Expr
  | 0 => outOfSteps
  | fuel + 1 => do
    if ← acceptSymbol .dot then
      let (name, _) ← expectName "member name after `.`"
      members (.member object name ⟨object.locus, none⟩) fuel
    else return object

mutual

def exprAbove (least : Nat) : Nat → Reader Expr
  | 0 => outOfSteps
  | fuel + 1 => do
    let left ← operand fuel
    operators least left fuel

def operators (least : Nat) (left : Expr) : Nat → Reader Expr
  | 0 => outOfSteps
  | fuel + 1 => do
    match (← get).kind? >>= BinaryOperator.ofKind? with
    | some operator =>
      if least < operator.precedence then
        advance
        let right ← exprAbove operator.precedence fuel
        operators least (.binary operator left right ⟨left.locus, none⟩) fuel
      else return left
    | none => return left

def operand : Nat → Reader Expr
  | 0 => outOfSteps
  | fuel + 1 => do
    match (← get).rest with
    | [] => failExpected "expression"
    | token :: _ =>
      match Literal.ofToken? token with
      | some (.ok literal) =>
        advance
        return .literal literal ⟨token.locus, none⟩
      | some (.error kind) =>
        advance
        fail kind token.locus
      | none =>
        match token.kind with
        | .identifier => referenceAt fuel
        | .symbol .leftParen =>
          advance
          let inner ← exprAbove Precedence.lowest fuel
          expectSymbol .rightParen ")"
          return .grouped inner ⟨token.locus, none⟩
        | .symbol .minus =>
          advance
          let inner ← exprAbove Precedence.negation fuel
          return .unary .negate inner ⟨token.locus, none⟩
        | .symbol .plus =>
          advance
          exprAbove Precedence.negation fuel
        | .keyword .NOT =>
          advance
          let inner ← exprAbove Precedence.complement fuel
          return .unary .not inner ⟨token.locus, none⟩
        | _ => failOperand

def referenceAt : Nat → Reader Expr
  | 0 => outOfSteps
  | fuel + 1 => do
    let (name, locus) ← expectName "identifier"
    if ← acceptSymbol .leftParen then
      let arguments ← argumentsAt fuel
      expectSymbol .rightParen ")"
      members (.apply name arguments .unresolved ⟨locus, none⟩) (fuel + 1)
    else members (.variable name ⟨locus, none⟩) (fuel + 1)

def argumentsAt : Nat → Reader (List Expr)
  | 0 => outOfSteps
  | fuel + 1 => do
    if ← isAtSymbol .rightParen then return []
    else
      let first ← exprAbove Precedence.lowest fuel
      let others ← furtherArguments fuel
      return first :: others

def furtherArguments : Nat → Reader (List Expr)
  | 0 => outOfSteps
  | fuel + 1 => do
    if ← acceptSymbol .comma then
      let first ← exprAbove Precedence.lowest fuel
      let others ← furtherArguments fuel
      return first :: others
    else return []

end

def exprFuel : Reader Nat := return 4 * (← get).rest.length + 4

def expr : Reader Expr := do exprAbove Precedence.lowest (← exprFuel)

def reference : Reader Expr := do referenceAt (← exprFuel)

def arguments : Reader (List Expr) := do argumentsAt (← exprFuel)

def afterCommas {α : Type} (reader : Reader α) : Nat → Reader (List α)
  | 0 => outOfSteps
  | fuel + 1 => do
    if ← acceptSymbol .comma then
      let first ← reader
      let others ← afterCommas reader fuel
      return first :: others
    else return []

def commaList {α : Type} (reader : Reader α) : Reader (List α) := do
  let first ← reader
  let others ← afterCommas reader ((← get).rest.length + 1)
  return first :: others

end Reader

end BasicLang
