import BasicLang.Proofs.Progress.Program

set_option autoImplicit false

namespace BasicLang

namespace Cursor

def behindStatic (cursor : Cursor) : Cursor :=
  if cursor.rest.head?.any fun token =>
      token.kind == .identifier && Text.sameName token.text "STATIC" then
    cursor.advance
  else cursor

def endsBranch (cursor : Cursor) : Bool :=
  match cursor.kind? with
  | none => true
  | some .newline => true
  | some (.keyword .ELSE) => true
  | some _ => false

end Cursor

inductive Phrase where
  | stmt (locus : Locus) (stmt : Stmt)
  | block (isEnd : Cursor → Bool) (body : Block) (found : Bool)
  | cond (stmt : Stmt)
  | arms (found : Bool) (arms : Arms)
  | lineBranch (body : Block)
  | lineRest (body : Block)
  | lineElse (arms : Arms)
  | select (stmt : Stmt)
  | cases (cases : Cases)
  | forLoop (stmt : Stmt)
  | whileLoop (stmt : Stmt)
  | doLoop (stmt : Stmt)

def Phrase.behind? : TokenKind → Option (Stmt → Phrase)
  | .keyword .IF => some .cond
  | .keyword .SELECT => some .select
  | .keyword .FOR => some .forLoop
  | .keyword .WHILE => some .whileLoop
  | .keyword .DO => some .doLoop
  | _ => none

open Reader in
inductive Derives : Phrase → Cursor → Cursor → Prop where
  | compound {start after : Cursor} {token : Token} {rest : List Token} {phrase : Stmt → Phrase} {stmt : Stmt}
      (next : start.rest = token :: rest) (opens : Phrase.behind? token.kind = some phrase)
      (content : Derives (phrase stmt) start.advance after) : Derives (.stmt token.locus stmt) start after
  | simple {start after : Cursor} {token : Token} {rest : List Token} {stmt : Stmt}
      (next : start.rest = token :: rest) (opens : Phrase.behind? token.kind = none)
      (read : Gives (simpleStmt token) start stmt after) : Derives (.stmt token.locus stmt) start after
  | exhausted {start : Cursor} {isEnd : Cursor → Bool} (empty : start.behindSeparators.rest = []) :
      Derives (.block isEnd .nil false) start start.behindSeparators
  | ended {start : Cursor} {isEnd : Cursor → Bool} (more : start.behindSeparators.rest ≠ [])
      (ends : isEnd start.behindSeparators = true) : Derives (.block isEnd .nil true) start start.behindSeparators
  | statement {start middle after : Cursor} {isEnd : Cursor → Bool} {locus : Locus} {stmt : Stmt} {others : Block}
      {found : Bool} (more : start.behindSeparators.rest ≠ []) (goesOn : isEnd start.behindSeparators = false)
      (first : Derives (.stmt locus stmt) start.behindSeparators middle)
      (rest : Derives (.block isEnd others found) middle after) :
      Derives (.block isEnd (.cons locus stmt others) found) start after
  | jump {start tested jumped after : Cursor} {condition : Expr} {locus : Locus} {jump : Stmt} {others : Arms}
      (test : Gives expr start condition tested) (jumps : tested.isAtKeyword .GOTO = true)
      (target : Derives (.stmt locus jump) tested jumped) (rest : Derives (.lineElse others) jumped after) :
      Derives (.cond (.cond (.arm condition (.ofList [(locus, jump)]) others))) start after
  | branches {start tested marked read after : Cursor} {condition : Expr} {body : Block} {found : Bool}
      {others : Arms} (test : Gives expr start condition tested) (stays : tested.isAtKeyword .GOTO = false)
      (marks : Gives (expectKeyword .THEN "THEN") tested () marked) (breaks : startsBranchBlock marked.kind? = true)
      (branch : Derives (.block isBranchEnd body found) marked read) (rest : Derives (.arms found others) read after) :
      Derives (.cond (.cond (.arm condition body others))) start after
  | line {start tested marked read after : Cursor} {condition : Expr} {body : Block} {others : Arms}
      (test : Gives expr start condition tested) (stays : tested.isAtKeyword .GOTO = false)
      (marks : Gives (expectKeyword .THEN "THEN") tested () marked)
      (goesOn : startsBranchBlock marked.kind? = false) (branch : Derives (.lineBranch body) marked read)
      (rest : Derives (.lineElse others) read after) :
      Derives (.cond (.cond (.arm condition body others))) start after
  | elseIf {start tested marked read after : Cursor} {condition : Expr} {body : Block} {found : Bool} {others : Arms}
      (tests : start.isAtKeyword .ELSEIF = true) (test : Gives expr start.advance condition tested)
      (marks : Gives (expectKeyword .THEN "THEN") tested () marked)
      (branch : Derives (.block isBranchEnd body found) marked read) (rest : Derives (.arms found others) read after) :
      Derives (.arms true (.arm condition body others)) start after
  | otherwise {start read : Cursor} {body : Block} (plain : start.isAtKeyword .ELSEIF = false)
      (refuses : start.isAtKeyword .ELSE = true)
      (branch : Derives (.block (·.isAtEnd .IF) body true) start.advance read) :
      Derives (.arms true (.otherwise body)) start read.advance.advance
  | endIf {start : Cursor} (plain : start.isAtKeyword .ELSEIF = false) (accepts : start.isAtKeyword .ELSE = false) :
      Derives (.arms true .none) start start.advance.advance
  | lineNumber {start : Cursor} {token : Token} {rest : List Token} (next : start.rest = token :: rest)
      (number : token.kind = .integerLiteral) :
      Derives (.lineBranch (.ofList [(token.locus, .goto token.text)])) start start.advance
  | lineBranch {start middle after : Cursor} {locus : Locus} {stmt : Stmt} {others : Block}
      (noNumber : start.kind? ≠ some .integerLiteral) (first : Derives (.stmt locus stmt) start middle)
      (rest : Derives (.lineRest others) middle after) :
      Derives (.lineBranch (.cons locus stmt others)) start after
  | lineDone {start : Cursor} (noColon : start.isAtSymbol .colon = false) : Derives (.lineRest .nil) start start
  | lineEnds {start : Cursor} (colon : start.isAtSymbol .colon = true) (ends : start.advance.endsBranch = true) :
      Derives (.lineRest .nil) start start.advance
  | lineMore {start middle after : Cursor} {locus : Locus} {stmt : Stmt} {others : Block}
      (colon : start.isAtSymbol .colon = true) (goesOn : start.advance.endsBranch = false)
      (first : Derives (.stmt locus stmt) start.advance middle) (rest : Derives (.lineRest others) middle after) :
      Derives (.lineRest (.cons locus stmt others)) start after
  | lineElse {start after : Cursor} {body : Block} (refuses : start.isAtKeyword .ELSE = true)
      (branch : Derives (.lineBranch body) start.advance after) : Derives (.lineElse (.otherwise body)) start after
  | noLineElse {start : Cursor} (accepts : start.isAtKeyword .ELSE = false) : Derives (.lineElse .none) start start
  | select {start marked tested after : Cursor} {test : Expr} {clauses : Cases}
      (marks : Gives (expectKeyword .CASE "CASE") start () marked) (read : Gives expr marked test tested)
      (rest : Derives (.cases clauses) tested after) : Derives (.select (.select test clauses)) start after
  | endSelect {start : Cursor} (ends : start.behindTrivia.isAtEnd .SELECT = true) :
      Derives (.cases .none) start start.behindTrivia.advance.advance
  | caseElse {start clause read after : Cursor} {token : Token} {body : Block} {found : Bool} {dropped : Cases}
      (goesOn : start.behindTrivia.isAtEnd .SELECT = false)
      (opens : Gives (expect (.keyword .CASE) "CASE or END SELECT") start.behindTrivia token clause)
      (refuses : clause.isAtKeyword .ELSE = true)
      (branch : Derives (.block (·.isAtEnd .SELECT) body found) clause.advance read)
      (rest : Derives (.cases dropped) read after) : Derives (.cases (.otherwise body)) start after
  | clause {start clause matched read after : Cursor} {token : Token} {patterns : List CaseMatch} {body : Block}
      {found : Bool} {others : Cases} (goesOn : start.behindTrivia.isAtEnd .SELECT = false)
      (opens : Gives (expect (.keyword .CASE) "CASE or END SELECT") start.behindTrivia token clause)
      (accepts : clause.isAtKeyword .ELSE = false) (tests : Gives (commaList caseMatch) clause patterns matched)
      (branch : Derives (.block isCaseEnd body found) matched read) (rest : Derives (.cases others) read after) :
      Derives (.cases (.clause token.locus patterns body others)) start after
  | forLoop {start headed read after : Cursor} {counter : String} {first last : Expr} {step : Option Expr}
      {body : Block} {next : Option (String × Locus)}
      (head : Gives forHeader start (counter, first, last, step) headed)
      (content : Derives (.block (·.isAtKeyword .NEXT) body true) headed read)
      (closes : Gives nextCounter read.advance next after) :
      Derives (.forLoop (.forLoop counter first last step body next)) start after
  | whileLoop {start tested read : Cursor} {condition : Expr} {body : Block}
      (test : Gives expr start condition tested)
      (content : Derives (.block (·.isAtKeyword .WEND) body true) tested read) :
      Derives (.whileLoop (.whileLoop condition body)) start read.advance
  | doLoop {start tested read after : Cursor} {before behind : Option LoopCondition} {body : Block}
      (test : Gives loopCondition start before tested)
      (content : Derives (.block (·.isAtKeyword .LOOP) body true) tested read)
      (closes : Gives loopCondition read.advance behind after) (single : ¬(before.isSome ∧ behind.isSome)) :
      Derives (.doLoop (.doLoop before body behind)) start after

def RoutineKind.keyword (kind : RoutineKind) : Keyword := if kind = .function then .FUNCTION else .SUB

structure Routine.Derived (routine : Routine) (start after : Cursor) : Prop where
  place : routine.locus = start.locus
  content : ∃ headed read,
    (Reader.header routine.kind).Gives start.advance (routine.name, routine.params, routine.returns) headed ∧
    Derives (.block (·.isAtEnd routine.kind.keyword) routine.body true) headed.behindStatic read ∧
    after = read.advance.advance

inductive ProgramDerived : Cursor → List (Locus × Stmt) → List Routine → Prop where
  | finished {start : Cursor} (empty : start.behindSeparators.rest = []) : ProgramDerived start [] []
  | procedure {start middle : Cursor} {routine : Routine} {stmts : List (Locus × Stmt)} {routines : List Routine}
      (isProcedure : routine.kind ≠ .main)
      (opens : start.behindSeparators.kind? = some (.keyword routine.kind.keyword))
      (first : routine.Derived start.behindSeparators middle) (rest : ProgramDerived middle stmts routines) :
      ProgramDerived start stmts (routine :: routines)
  | statement {start middle : Cursor} {locus : Locus} {stmt : Stmt} {stmts : List (Locus × Stmt)}
      {routines : List Routine} (noProcedure : ∀ kind : RoutineKind,
        start.behindSeparators.kind? ≠ some (.keyword kind.keyword))
      (first : Derives (.stmt locus stmt) start.behindSeparators middle)
      (rest : ProgramDerived middle stmts routines) : ProgramDerived start ((locus, stmt) :: stmts) routines

end BasicLang
