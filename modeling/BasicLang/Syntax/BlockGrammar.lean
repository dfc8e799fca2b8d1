import BasicLang.Syntax.StmtGrammar

set_option autoImplicit false

namespace BasicLang

namespace Reader

def isDefKeyword? : Keyword → Option TypeSpec
  | .DEFINT => some .integer
  | .DEFLNG => some .long
  | .DEFSNG => some .single
  | .DEFDBL => some .double
  | .DEFSTR => some .string
  | _ => none

def simpleStmt (token : Token) : Reader Stmt := do
  match token.kind with
  | .comment | .remComment =>
    advance
    return .comment (commentText token)
  | .integerLiteral =>
    if (← get).isAtLineStart then
      advance
      let _ ← acceptSymbol .colon
      return .label token.text
    else fail (.unexpectedStart token.kind.description) token.locus
  | .identifier => named (Text.upperAscii token.text)
  | .keyword .SUB | .keyword .FUNCTION =>
    fail (.nestedDefinition (Text.upperAscii token.text)) token.locus
  | .keyword keyword =>
    let after (reader : Reader Stmt) : Reader Stmt := do
      advance
      reader
    match keyword with
    | .PRINT => after print
    | .INPUT => after input
    | .LINE => after lineInput
    | .OPEN => after openFile
    | .CLOSE => after close
    | .WRITE => after write
    | .LET => after letStmt
    | .DIM => after dim
    | .REDIM => after redim
    | .CONST => after const
    | .GOTO => after do return .goto (← labelName)
    | .GOSUB => after do return .gosub (← labelName)
    | .RETURN => after (return .ret)
    | .EXIT => after exit
    | .END => after (stop token.locus)
    | .ON => after onEvent
    | .DATA => after do return .data (← commaList dataItem)
    | .READ => after do return .read (← targets)
    | .RESTORE => after restore
    | .TYPE => after (typeDef token.locus)
    | .DECLARE => after declare
    | .CALL => after call
    | _ =>
      match isDefKeyword? keyword with
      | some spec => after do return .defType spec (← commaList (letterRange token.locus))
      | none =>
        if keyword.isBuiltinStatement then
          after do return .call (Text.upperAscii token.text) (← callArguments)
        else fail (.unexpectedStart token.kind.description) token.locus
  | _ => fail (.unexpectedStart token.kind.description) token.locus

def startsBranchBlock (kind? : Option TokenKind) : Bool :=
  match kind? with
  | none => true
  | some kind => kind ∈ [.newline, .comment, .remComment]

def isBranchEnd (cursor : Cursor) : Bool :=
  cursor.isAtKeyword .ELSEIF || cursor.isAtKeyword .ELSE || cursor.isAtEnd .IF

def isCaseEnd (cursor : Cursor) : Bool :=
  cursor.isAtKeyword .CASE || cursor.isAtEnd .SELECT

mutual

def stmtAt : Nat → Reader (Locus × Stmt)
  | 0 => outOfSteps
  | fuel + 1 => do
    match (← get).rest with
    | [] => failExpected "statement"
    | token :: _ =>
      let after (reader : Reader Stmt) : Reader (Locus × Stmt) := do
        advance
        return (token.locus, ← reader)
      match token.kind with
      | .keyword .IF => after (condAt token.locus fuel)
      | .keyword .SELECT => after (selectAt token.locus fuel)
      | .keyword .FOR => after (forAt token.locus fuel)
      | .keyword .WHILE => after (whileAt token.locus fuel)
      | .keyword .DO => after (doAt token.locus fuel)
      | _ => return (token.locus, ← simpleStmt token)

def blockAt (isEnd : Cursor → Bool) : Nat → Reader (Block × Bool)
  | 0 => outOfSteps
  | fuel + 1 => do
    skipSeparators
    let cursor ← get
    if cursor.rest.isEmpty then return (.nil, false)
    else if isEnd cursor then return (.nil, true)
    else
      match ← attempt (stmtAt fuel) with
      | some (locus, stmt) =>
        let (others, found) ← blockAt isEnd fuel
        return (.cons locus stmt others, found)
      | none =>
        modify Cursor.synchronize
        blockAt isEnd fuel

def condAt (locus : Locus) : Nat → Reader Stmt
  | 0 => outOfSteps
  | fuel + 1 => do
    let condition ← expr
    if ← isAtKeyword .GOTO then
      let jump ← stmtAt fuel
      return .cond (.arm condition (.ofList [jump]) (← lineElseAt fuel))
    else
      expectKeyword .THEN "THEN"
      if startsBranchBlock (← get).kind? then
        let (body, found) ← blockAt isBranchEnd fuel
        return .cond (.arm condition body (← armsAt locus found fuel))
      else
        let body ← lineBranchAt fuel
        return .cond (.arm condition body (← lineElseAt fuel))

def armsAt (locus : Locus) (found : Bool) : Nat → Reader Arms
  | 0 => outOfSteps
  | fuel + 1 => do
    if !found then fail .missingEndIf locus
    else if ← acceptKeyword .ELSEIF then
      let condition ← expr
      expectKeyword .THEN "THEN"
      let (body, foundNext) ← blockAt isBranchEnd fuel
      return .arm condition body (← armsAt locus foundNext fuel)
    else if ← acceptKeyword .ELSE then
      let (body, foundEnd) ← blockAt (·.isAtEnd .IF) fuel
      if !foundEnd then fail .missingEndIf locus
      advance
      advance
      return .otherwise body
    else
      advance
      advance
      return .none

def lineBranchAt : Nat → Reader Block
  | 0 => outOfSteps
  | fuel + 1 => do
    match (← get).rest with
    | token :: _ =>
      if token.kind = .integerLiteral then
        advance
        return .ofList [(token.locus, .goto token.text)]
      else
        let (locus, stmt) ← stmtAt fuel
        return .cons locus stmt (← lineRestAt fuel)
    | [] =>
      let (locus, stmt) ← stmtAt fuel
      return .cons locus stmt (← lineRestAt fuel)

def lineRestAt : Nat → Reader Block
  | 0 => outOfSteps
  | fuel + 1 => do
    if ← acceptSymbol .colon then
      match (← get).kind? with
      | none => return .nil
      | some .newline => return .nil
      | some (.keyword .ELSE) => return .nil
      | some _ =>
        let (locus, stmt) ← stmtAt fuel
        return .cons locus stmt (← lineRestAt fuel)
    else return .nil

def lineElseAt : Nat → Reader Arms
  | 0 => outOfSteps
  | fuel + 1 => do
    if ← acceptKeyword .ELSE then return .otherwise (← lineBranchAt fuel) else return .none

def selectAt (locus : Locus) : Nat → Reader Stmt
  | 0 => outOfSteps
  | fuel + 1 => do
    expectKeyword .CASE "CASE"
    let test ← expr
    return .select test (← casesAt locus fuel)

def casesAt (locus : Locus) : Nat → Reader Cases
  | 0 => outOfSteps
  | fuel + 1 => do
    skipTrivia
    let cursor ← get
    if cursor.rest.isEmpty then fail .missingEndSelect locus
    else if cursor.isAtEnd .SELECT then
      advance
      advance
      return .none
    else
      let token ← expect (.keyword .CASE) "CASE or END SELECT"
      if ← acceptKeyword .ELSE then
        let (body, _) ← blockAt (·.isAtEnd .SELECT) fuel
        let _ ← casesAt locus fuel
        return .otherwise body
      else
        let patterns ← commaList caseMatch
        let (body, _) ← blockAt isCaseEnd fuel
        return .clause token.locus patterns body (← casesAt locus fuel)

def forAt (locus : Locus) : Nat → Reader Stmt
  | 0 => outOfSteps
  | fuel + 1 => do
    let (counter, first, last, step) ← forHeader
    let (body, found) ← blockAt (·.isAtKeyword .NEXT) fuel
    if !found then fail .missingNext locus
    advance
    return .forLoop counter first last step body (← nextCounter)

def whileAt (locus : Locus) : Nat → Reader Stmt
  | 0 => outOfSteps
  | fuel + 1 => do
    let condition ← expr
    let (body, found) ← blockAt (·.isAtKeyword .WEND) fuel
    if !found then fail .missingWend locus
    advance
    return .whileLoop condition body

def doAt (locus : Locus) : Nat → Reader Stmt
  | 0 => outOfSteps
  | fuel + 1 => do
    let before ← loopCondition
    let (body, found) ← blockAt (·.isAtKeyword .LOOP) fuel
    if !found then fail .missingLoop locus
    advance
    let after ← loopCondition
    if before.isSome ∧ after.isSome then fail .twoLoopConditions locus
    return .doLoop before body after

end

/-- Enough steps for the statements ahead: between two tokens at most four readers are entered. -/
def stmtFuel : Reader Nat := return 4 * (← get).rest.length + 4

def stmt : Reader (Locus × Stmt) := do stmtAt (← stmtFuel)

def procedureBody (kind : RoutineKind) (locus : Locus) (headed : Bool) : Reader Block := do
  if !headed then skipLine
  if (← get).rest.head?.any fun token =>
      token.kind == .identifier && Text.sameName token.text "STATIC" then
    advance
  let keyword : Keyword := if kind = .function then .FUNCTION else .SUB
  let (body, closed) ← blockAt (·.isAtEnd keyword) (← stmtFuel)
  if !closed then fail (if kind = .function then .missingEndFunction else .missingEndSub) locus
  advance
  advance
  return body

def routine (kind : RoutineKind) : Reader Routine := do
  let locus := (← get).locus
  advance
  let found ← attempt (header kind)
  let body ← procedureBody kind locus found.isSome
  match found with
  | some (name, params, returns) => return { kind, name, params, returns, body, locus }
  | none => failure

def programAt : Nat → Reader (List (Locus × Stmt) × List Routine)
  | 0 => outOfSteps
  | fuel + 1 => do
    skipSeparators
    let read (reader : Reader (List (Locus × Stmt) × List Routine)) :
        Reader (List (Locus × Stmt) × List Routine) := do
      match ← attempt reader with
      | some (stmts, routines) =>
        let (otherStmts, otherRoutines) ← programAt fuel
        return (stmts ++ otherStmts, routines ++ otherRoutines)
      | none =>
        modify Cursor.synchronize
        programAt fuel
    match (← get).kind? with
    | none => return ([], [])
    | some (.keyword .SUB) => read do return ([], [← routine .sub])
    | some (.keyword .FUNCTION) => read do return ([], [← routine .function])
    | some _ => read do return ([← stmt], [])

end Reader

def parse (tokens : List Token) : Except (List ParseError) Program :=
  let (result, cursor) := (Reader.programAt (tokens.length + 1)).run (Cursor.ofTokens tokens)
  match result, cursor.errors with
  | some (stmts, procedures), [] => .ok ⟨.ofList stmts, procedures⟩
  | _, errors => .error errors.reverse

end BasicLang
