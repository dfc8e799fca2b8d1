import BasicLang.Syntax.ExprGrammar

set_option autoImplicit false

namespace BasicLang

namespace Reader

def typeSpec : Reader TypeSpec := do
  match (← get).rest with
  | [] => failExpected "type name"
  | token :: _ =>
    let spec? : Option TypeSpec :=
      match token.kind with
      | .keyword .INTEGER => some .integer
      | .keyword .LONG => some .long
      | .keyword .SINGLE => some .single
      | .keyword .DOUBLE => some .double
      | .keyword .STRING => some .string
      | .keyword .JSON => some .json
      | .keyword .ANY => some .any
      | .identifier => some (.record (Text.upperAscii token.text))
      | _ => none
    match spec? with
    | none => failExpected "type name"
    | some spec =>
      advance
      if spec = .string then
        if ← acceptSymbol .star then
          let _ ← expect .integerLiteral "string length"
      return spec

def asType : Reader (Option TypeSpec) := do
  if ← acceptKeyword .AS then return some (← typeSpec) else return none

def callArguments : Reader (List Expr) := do
  if (← get).isAtStatementEnd then return []
  let found ← commaList expr
  if !(← get).isAtStatementEnd then failExpected "end of statement"
  return found

def fileNumber : Reader (Option Expr) := do
  if ← acceptSymbol .hash then
    let number ← expr
    expectSymbol .comma ", after file number"
    return some number
  else return none

def closeWithSemicolon : List PrintItem → List PrintItem
  | item :: items =>
    if item.separator.isNone then { item with separator := some .semicolon } :: items
    else item :: items
  | [] => []

def closeWithComma (locus : Locus) : List PrintItem → List PrintItem
  | item :: items =>
    if item.separator.isNone then { item with separator := some .comma } :: items
    else ⟨.literal (.string "") ⟨locus, none⟩, some .comma⟩ :: item :: items
  | [] => [⟨.literal (.string "") ⟨locus, none⟩, some .comma⟩]

def printItems (read : List PrintItem) : Nat → Reader (List PrintItem)
  | 0 => outOfSteps
  | fuel + 1 => do
    let cursor ← get
    if cursor.isAtStatementEnd then return read.reverse
    else if ← acceptSymbol .semicolon then printItems (closeWithSemicolon read) fuel
    else if ← acceptSymbol .comma then printItems (closeWithComma cursor.locus read) fuel
    else
      let item ← expr
      printItems (⟨item, none⟩ :: read) fuel

def print : Reader Stmt := do
  let file ← fileNumber
  let format ←
    if ← acceptKeyword .USING then
      let format ← expr
      expectSymbol .semicolon "; after USING format"
      pure (some format)
    else pure none
  let items ← printItems [] ((← get).rest.length + 1)
  return .print file format items (items.getLast?.all (·.separator.isNone))

def letStmt : Reader Stmt := do
  let target ← reference
  expectSymbol .equals "= in assignment"
  return .assign target (← expr)

def named (name : String) : Reader Stmt := do
  let cursor ← get
  if cursor.isAtLineStart ∧ cursor.advance.isAtSymbol .colon then
    advance
    advance
    return .label name
  else
    let target ← reference
    if ← acceptSymbol .equals then return .assign target (← expr)
    else
      match target with
      | .variable callee _ => return .call callee (← callArguments)
      | .apply callee first _ _ =>
        let others ← afterCommas expr ((← get).rest.length + 1)
        if !(← get).isAtStatementEnd then failExpected "end of statement"
        return .call callee (first ++ others)
      | _ => failExpected "= in assignment"

def call : Reader Stmt := do
  let (name, _) ← expectName "SUB name"
  if ← acceptSymbol .leftParen then
    let found ← arguments
    expectSymbol .rightParen ")"
    return .call name found
  else return .call name (← callArguments)

def dimension : Reader Dimension := do
  let first ← expr
  if ← acceptKeyword .TO then return ⟨some first, ← expr⟩ else return ⟨none, first⟩

def varDecl : Reader VarDecl := do
  let (name, locus) ← expectName "variable name"
  let isArray ← acceptSymbol .leftParen
  let dimensions ←
    if isArray then
      let found ← if ← isAtSymbol .rightParen then pure [] else commaList dimension
      expectSymbol .rightParen ")"
      pure found
    else pure []
  return { name, dimensions, isArray, typeSpec := ← asType, locus }

def dim : Reader Stmt := do
  let shared ← acceptKeyword .SHARED
  return .dim shared (← commaList varDecl)

def redim : Reader Stmt := do
  let preserve ← acceptKeyword .PRESERVE
  return .redim preserve (← commaList varDecl)

def const : Reader Stmt := do
  let (name, _) ← expectName "constant name"
  expectSymbol .equals "="
  return .const name (← expr)

def letter : Reader Char := do
  let (name, locus) ← expectName "letter"
  match name.toList with
  | [char] => if char.isAlpha then return char else fail (.notALetter name) locus
  | _ => fail (.notALetter name) locus

def letterRange (locus : Locus) : Reader (Char × Char) := do
  let first ← letter
  let last ← if ← acceptSymbol .minus then letter else pure first
  if last < first then fail (.invalidLetterRange first last) locus
  return (first, last)

def targets : Reader (List Expr) := commaList reference

def asksQuestion : Reader Bool := do
  if ← acceptSymbol .semicolon then return true
  else if ← acceptSymbol .comma then return false
  else failExpected "; or , after INPUT prompt"

def input : Reader Stmt := do
  match ← fileNumber with
  | some file => return .fileInput file (← targets) false
  | none =>
    let _ ← acceptSymbol .semicolon
    match (← get).rest with
    | token :: _ =>
      if token.kind = .stringLiteral then
        advance
        let question ← asksQuestion
        return .input (some (unquote token.text)) question (← targets)
      else return .input none true (← targets)
    | [] => return .input none true (← targets)

def lineInput : Reader Stmt := do
  expectKeyword .INPUT "INPUT after LINE"
  match ← fileNumber with
  | some file => return .fileInput file [← reference] true
  | none =>
    let _ ← acceptSymbol .semicolon
    match (← get).rest with
    | token :: _ =>
      if token.kind = .stringLiteral then
        advance
        if !(← acceptSymbol .semicolon) then
          expectSymbol .comma "; or , after LINE INPUT prompt"
        return .lineInput (some (unquote token.text)) (← reference)
      else return .lineInput none (← reference)
    | [] => return .lineInput none (← reference)

def fileMode : Reader FileMode := do
  if ← acceptKeyword .INPUT then return .input
  else if ← acceptKeyword .OUTPUT then return .output
  else if ← acceptKeyword .APPEND then return .append
  else failExpected "INPUT, OUTPUT or APPEND"

def openFile : Reader Stmt := do
  let path ← expr
  expectKeyword .FOR "FOR"
  let mode ← fileMode
  expectKeyword .AS "AS"
  let _ ← acceptSymbol .hash
  return .openFile path mode (← expr)

def close : Reader Stmt := do
  if (← get).isAtStatementEnd then return .close []
  return .close (← commaList do
    let _ ← acceptSymbol .hash
    expr)

def write : Reader Stmt := do
  let file ← fileNumber
  return .write file (← callArguments)

def labelName : Reader String := do
  match (← get).rest with
  | token :: _ =>
    match token.kind with
    | .identifier =>
      advance
      return Text.upperAscii token.text
    | .integerLiteral =>
      advance
      return token.text
    | _ => failExpected "label or line number"
  | [] => failExpected "label or line number"

def exit : Reader Stmt := do
  if ← acceptKeyword .FOR then return .exit .forLoop
  else if ← acceptKeyword .WHILE then return .exit .whileLoop
  else if ← acceptKeyword .DO then return .exit .doLoop
  else if ← acceptKeyword .SUB then return .exit .sub
  else if ← acceptKeyword .FUNCTION then return .exit .function
  else failExpected "FOR, WHILE, DO, SUB or FUNCTION after EXIT"

def stop (locus : Locus) : Reader Stmt := do
  match (← get).rest with
  | token :: _ =>
    match token.kind with
    | .keyword .IF | .keyword .SELECT | .keyword .SUB | .keyword .FUNCTION | .keyword .TYPE =>
      fail (.endWithoutBlock (Text.upperAscii token.text)) locus
    | _ => return .stop
  | [] => return .stop

def onEvent : Reader Stmt := do
  expectKeyword .EVENT "EVENT after ON"
  let key ← expr
  expectKeyword .GOSUB "GOSUB"
  return .onEvent key (← labelName)

def endsDataItem (kind : TokenKind) : Bool :=
  kind ∈ [.symbol .comma, .newline, .symbol .colon, .comment, .remComment]

def dataItem : Reader DataItem := do
  let cursor ← get
  set (cursor.skipWhile fun kind => !endsDataItem kind)
  return .ofTokens (cursor.rest.takeWhile fun token => !endsDataItem token.kind)

def restore : Reader Stmt := do
  if (← get).isAtStatementEnd then return .restore none
  return .restore (some (← labelName))

def parameter : Reader Parameter := do
  let (name, locus) ← expectName "parameter name"
  let isArray ← acceptSymbol .leftParen
  if isArray then expectSymbol .rightParen ")"
  return { name, typeSpec := ← asType, isArray, locus }

def header (kind : RoutineKind) : Reader (String × List Parameter × Option TypeSpec) := do
  let (name, _) ← expectName (kind.title ++ " name")
  let params ←
    if ← acceptSymbol .leftParen then
      let found ← if ← isAtSymbol .rightParen then pure [] else commaList parameter
      expectSymbol .rightParen ")"
      pure found
    else pure []
  let returns ← if kind = .function then asType else pure none
  return (name, params, returns)

def declaredKind : Reader RoutineKind := do
  if ← acceptKeyword .SUB then return .sub
  else if ← acceptKeyword .FUNCTION then return .function
  else failExpected "SUB or FUNCTION after DECLARE"

def declare : Reader Stmt := do
  let kind ← declaredKind
  let (name, params, returns) ← header kind
  return .declare kind name params returns

def typeMembers (locus : Locus) : Nat → Reader (List TypeMember)
  | 0 => outOfSteps
  | fuel + 1 => do
    skipTrivia
    let cursor ← get
    if cursor.rest.isEmpty then fail .missingEndType locus
    else if cursor.isAtEnd .TYPE then
      advance
      advance
      return []
    else
      let (name, memberLocus) ← expectName "member name"
      expectKeyword .AS "AS"
      let spec ← typeSpec
      let others ← typeMembers locus fuel
      return { name, typeSpec := spec, locus := memberLocus } :: others

def typeDef (locus : Locus) : Reader Stmt := do
  let (name, _) ← expectName "type name"
  return .typeDef name (← typeMembers locus ((← get).rest.length + 1))

def caseOperator : Reader (Option BinaryOperator) := do
  match (← get).kind? >>= BinaryOperator.ofKind? with
  | some operator =>
    if operator.isComparison then
      advance
      return some operator
    else return none
  | none => return none

def caseMatch : Reader CaseMatch := do
  let marked ← acceptKeyword .IS
  match ← caseOperator with
  | some operator => return .comparison operator (← expr)
  | none =>
    if marked then failExpected "comparison operator after IS"
    else
      let first ← expr
      if ← acceptKeyword .TO then return .range first (← expr) else return .single first

def forHeader : Reader (String × Expr × Expr × Option Expr) := do
  let (counter, _) ← expectName "loop variable"
  expectSymbol .equals "="
  let first ← expr
  expectKeyword .TO "TO"
  let last ← expr
  if ← acceptKeyword .STEP then return (counter, first, last, some (← expr))
  else return (counter, first, last, none)

def nextCounter : Reader (Option (String × Locus)) := do
  if (← get).isAt .identifier then return some (← expectName "loop variable") else return none

def loopCondition : Reader (Option LoopCondition) := do
  if ← acceptKeyword .WHILE then return some ⟨true, ← expr⟩
  else if ← acceptKeyword .UNTIL then return some ⟨false, ← expr⟩
  else return none

end Reader

end BasicLang
