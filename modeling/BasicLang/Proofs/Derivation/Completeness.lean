import BasicLang.Proofs.Derivation.Soundness

set_option autoImplicit false

namespace BasicLang

open Reader

def Phrase.ReadIn (fuel : Nat) (start after : Cursor) : Phrase → Prop
  | .stmt locus found => Gives (stmtAt fuel) start (locus, found) after
  | .block isEnd body ended => Gives (blockAt isEnd fuel) start (body, ended) after
  | .cond found => ∀ locus, Gives (condAt locus fuel) start found after
  | .arms ended found => ∀ locus, Gives (armsAt locus ended fuel) start found after
  | .lineBranch found => Gives (lineBranchAt fuel) start found after
  | .lineRest found => Gives (lineRestAt fuel) start found after
  | .lineElse found => Gives (lineElseAt fuel) start found after
  | .select found => ∀ locus, Gives (selectAt locus fuel) start found after
  | .cases found => ∀ locus, Gives (casesAt locus fuel) start found after
  | .forLoop found => ∀ locus, Gives (forAt locus fuel) start found after
  | .whileLoop found => ∀ locus, Gives (whileAt locus fuel) start found after
  | .doLoop found => ∀ locus, Gives (doAt locus fuel) start found after

def Phrase.slack : Phrase → Nat
  | .forLoop _ | .doLoop _ => 3
  | .block _ _ _ | .lineBranch _ => 2
  | _ => 1

namespace Reader

section Fewer

variable {start after : Cursor}

theorem expr_fewer {value : Expr} (gives : Gives expr start value after) :
    after.rest.length < start.rest.length :=
  have reads : ReadsAt True False _ start expr := reads_expr start
  reads.fewer gives

theorem stmt_fewer {fuel : Nat} {found : Locus × Stmt} (gives : Gives (stmtAt fuel) start found after) :
    after.rest.length < start.rest.length :=
  have reads : ReadsAt False True _ start (stmtAt fuel) := reads_stmt_at fuel start fun _ => trivial
  reads.fewer gives

theorem block_no_more {isEnd : Cursor → Bool} {fuel : Nat} {found : Block × Bool}
    (gives : Gives (blockAt isEnd fuel) start found after) : after.rest.length ≤ start.rest.length :=
  have reads : ReadsAt False True _ start (blockAt isEnd fuel) := reads_block_at isEnd fuel start fun _ => trivial
  Nat.le_of_lt_succ (reads.fewer gives)

theorem line_branch_no_more {fuel : Nat} {body : Block} (gives : Gives (lineBranchAt fuel) start body after) :
    after.rest.length ≤ start.rest.length :=
  have reads : ReadsAt False True _ start (lineBranchAt fuel) := reads_line_branch_at fuel start fun _ => trivial
  Nat.le_of_lt_succ (reads.fewer gives)

theorem expect_fewer {kind : TokenKind} {description : String} {token : Token}
    (gives : Gives (expect kind description) start token after) : after.rest.length < start.rest.length :=
  have reads : ReadsAt True False _ start (expect kind description) := reads_expect kind description
  reads.fewer gives

theorem expect_keyword_fewer {keyword : Keyword} {description : String} {found : Unit}
    (gives : Gives (expectKeyword keyword description) start found after) :
    after.rest.length < start.rest.length :=
  have reads : ReadsAt True False _ start (expectKeyword keyword description) :=
    reads_expect_keyword keyword description
  reads.fewer gives

theorem expect_more {kind : TokenKind} {description : String} {token : Token}
    (gives : Gives (expect kind description) start token after) : ¬start.rest.isEmpty = true := by
  have fewer := expect_fewer gives
  intro empty
  simp [List.isEmpty_iff.mp empty] at fewer

end Fewer

end Reader

def Phrase.Readable (phrase : Phrase) (start after : Cursor) : Prop :=
  ∀ fuel, 4 * start.rest.length + phrase.slack ≤ fuel → phrase.ReadIn fuel start after

section Readable

variable {phrase : Phrase} {start after : Cursor}

theorem Phrase.Readable.within (readable : phrase.Readable start after) (slack : Nat) (known : phrase.slack = slack)
    {fuel : Nat} (enough : 4 * start.rest.length + slack ≤ fuel) : phrase.ReadIn fuel start after :=
  readable fuel (known ▸ enough)

theorem Phrase.Readable.step (slack : Nat) (known : phrase.slack = slack)
    (read : ∀ fuel, 4 * start.rest.length + slack ≤ fuel + 1 → phrase.ReadIn (fuel + 1) start after) :
    phrase.Readable start after := by
  intro fuel enough
  have positive : 0 < phrase.slack := by cases phrase <;> simp [Phrase.slack]
  cases fuel with
  | zero => omega
  | succ fuel => exact read fuel (known ▸ enough)

end Readable

namespace Phrase

variable {start middle tested marked clause matched read after : Cursor} {token : Token} {rest : List Token}
  {locus : Locus} {stmt : Stmt} {condition : Expr} {body others : Block} {arms : Arms} {clauses : Cases} {found : Bool}
  {isEnd : Cursor → Bool}

theorem compound_readable {phrase : Stmt → Phrase} (next : start.rest = token :: rest)
    (opens : behind? token.kind = some phrase) (content : (phrase stmt).Readable start.advance after) :
    (Phrase.stmt token.locus stmt).Readable start after := by
  refine .step 1 rfl fun fuel enough => gives_get.mpr ?_
  have moved : start.advance.rest.length + 1 = start.rest.length := by simp [next]
  have goesOn {reader : Reader Stmt} (gives : Gives reader start.advance stmt after) :
      Gives (do
        advance
        return (token.locus, ← reader)) start (token.locus, stmt) after :=
    gives_advance.mpr (gives_seq.mpr ⟨_, _, gives, gives_unit.mpr ⟨rfl, rfl⟩⟩)
  rw [next]
  dsimp only
  unfold behind? at opens
  split at opens
  · cases opens
    next kind => simpa only [kind] using goesOn (content.within 1 rfl (by omega) token.locus)
  · cases opens
    next kind => simpa only [kind] using goesOn (content.within 1 rfl (by omega) token.locus)
  · cases opens
    next kind => simpa only [kind] using goesOn (content.within 3 rfl (by omega) token.locus)
  · cases opens
    next kind => simpa only [kind] using goesOn (content.within 1 rfl (by omega) token.locus)
  · cases opens
    next kind => simpa only [kind] using goesOn (content.within 3 rfl (by omega) token.locus)
  · cases opens

theorem simple_readable (next : start.rest = token :: rest) (opens : behind? token.kind = none)
    (gives : Gives (simpleStmt token) start stmt after) : (Phrase.stmt token.locus stmt).Readable start after := by
  refine .step 1 rfl fun fuel enough => gives_get.mpr ?_
  have goesOn : Gives (do return (token.locus, ← simpleStmt token)) start (token.locus, stmt) after :=
    gives_seq.mpr ⟨_, _, gives, gives_unit.mpr ⟨rfl, rfl⟩⟩
  rw [next]
  dsimp only
  split
  all_goals first | exact goesOn | simp_all [behind?]

theorem statement_readable (more : start.behindSeparators.rest ≠ []) (goesOn : isEnd start.behindSeparators = false)
    (first : (Phrase.stmt locus stmt).Readable start.behindSeparators middle)
    (rest : (Phrase.block isEnd others found).Readable middle after) :
    (Phrase.block isEnd (.cons locus stmt others) found).Readable start after := by
  refine .step 2 rfl fun fuel enough => gives_skip_separators.mpr (gives_get.mpr ?_)
  have skipped : start.behindSeparators.rest.length ≤ start.rest.length := (start.skip_while_suffix _).length_le
  have firstRead : Gives (stmtAt fuel) _ _ _ := first.within 1 rfl (by omega)
  have fewer := stmt_fewer firstRead
  have restRead : Gives (blockAt isEnd fuel) _ _ _ := rest.within 2 rfl (by omega)
  rw [if_neg (by simpa using more), if_neg (by simp [goesOn])]
  exact gives_attempt.mpr (.inl ⟨_, _, firstRead, gives_seq.mpr ⟨_, _, restRead, gives_unit.mpr ⟨rfl, rfl⟩⟩⟩)

theorem jump_readable (test : Gives expr start condition tested) (jumps : tested.isAtKeyword .GOTO = true)
    (target : (Phrase.stmt locus stmt).Readable tested middle) (rest : (Phrase.lineElse arms).Readable middle after) :
    (Phrase.cond (.cond (.arm condition (.ofList [(locus, stmt)]) arms))).Readable start after := by
  refine .step 1 rfl fun fuel enough place => ?_
  have fewer := expr_fewer test
  have targetRead : Gives (stmtAt fuel) _ _ _ := target.within 1 rfl (by omega)
  have fewerTarget := stmt_fewer targetRead
  have restRead : Gives (lineElseAt fuel) _ _ _ := rest.within 1 rfl (by omega)
  refine gives_seq.mpr ⟨_, _, test, gives_at_keyword.mpr ?_⟩
  rw [if_pos jumps]
  exact gives_seq.mpr ⟨_, _, targetRead, gives_seq.mpr ⟨_, _, restRead, gives_unit.mpr ⟨rfl, rfl⟩⟩⟩

theorem branches_readable (test : Gives expr start condition tested) (stays : tested.isAtKeyword .GOTO = false)
    (marks : Gives (expectKeyword .THEN "THEN") tested () marked) (breaks : startsBranchBlock marked.kind? = true)
    (branch : (Phrase.block isBranchEnd body found).Readable marked read)
    (rest : (Phrase.arms found arms).Readable read after) :
    (Phrase.cond (.cond (.arm condition body arms))).Readable start after := by
  refine .step 1 rfl fun fuel enough place => ?_
  have fewer := expr_fewer test
  have fewerMarks := expect_keyword_fewer marks
  have branchRead : Gives (blockAt isBranchEnd fuel) _ _ _ := branch.within 2 rfl (by omega)
  have noMore := block_no_more branchRead
  have restRead : Gives (armsAt place _ fuel) _ _ _ := rest.within 1 rfl (by omega) place
  refine gives_seq.mpr ⟨_, _, test, gives_at_keyword.mpr ?_⟩
  rw [if_neg (by simp [stays])]
  refine gives_seq.mpr ⟨_, _, marks, gives_get.mpr ?_⟩
  rw [if_pos breaks]
  exact gives_seq.mpr ⟨_, _, branchRead, gives_seq.mpr ⟨_, _, restRead, gives_unit.mpr ⟨rfl, rfl⟩⟩⟩

theorem line_readable (test : Gives expr start condition tested) (stays : tested.isAtKeyword .GOTO = false)
    (marks : Gives (expectKeyword .THEN "THEN") tested () marked) (goesOn : startsBranchBlock marked.kind? = false)
    (branch : (Phrase.lineBranch body).Readable marked read) (rest : (Phrase.lineElse arms).Readable read after) :
    (Phrase.cond (.cond (.arm condition body arms))).Readable start after := by
  refine .step 1 rfl fun fuel enough place => ?_
  have fewer := expr_fewer test
  have fewerMarks := expect_keyword_fewer marks
  have branchRead : Gives (lineBranchAt fuel) _ _ _ := branch.within 2 rfl (by omega)
  have noMore := line_branch_no_more branchRead
  have restRead : Gives (lineElseAt fuel) _ _ _ := rest.within 1 rfl (by omega)
  refine gives_seq.mpr ⟨_, _, test, gives_at_keyword.mpr ?_⟩
  rw [if_neg (by simp [stays])]
  refine gives_seq.mpr ⟨_, _, marks, gives_get.mpr ?_⟩
  rw [if_neg (by simp [goesOn])]
  exact gives_seq.mpr ⟨_, _, branchRead, gives_seq.mpr ⟨_, _, restRead, gives_unit.mpr ⟨rfl, rfl⟩⟩⟩

theorem else_if_readable (tests : start.isAtKeyword .ELSEIF = true) (test : Gives expr start.advance condition tested)
    (marks : Gives (expectKeyword .THEN "THEN") tested () marked)
    (branch : (Phrase.block isBranchEnd body found).Readable marked read)
    (rest : (Phrase.arms found arms).Readable read after) :
    (Phrase.arms true (.arm condition body arms)).Readable start after := by
  refine .step 1 rfl fun fuel enough place => gives_accept.mpr (.inl ⟨tests, ?_⟩)
  have moved := advance_length (at_kind_more tests)
  have fewer := expr_fewer test
  have fewerMarks := expect_keyword_fewer marks
  have branchRead : Gives (blockAt isBranchEnd fuel) _ _ _ := branch.within 2 rfl (by omega)
  have noMore := block_no_more branchRead
  have restRead : Gives (armsAt place _ fuel) _ _ _ := rest.within 1 rfl (by omega) place
  exact gives_seq.mpr ⟨_, _, test, gives_seq.mpr ⟨_, _, marks,
    gives_seq.mpr ⟨_, _, branchRead, gives_seq.mpr ⟨_, _, restRead, gives_unit.mpr ⟨rfl, rfl⟩⟩⟩⟩⟩

theorem otherwise_readable (plain : start.isAtKeyword .ELSEIF = false) (refuses : start.isAtKeyword .ELSE = true)
    (branch : (Phrase.block (·.isAtEnd .IF) body true).Readable start.advance read) :
    (Phrase.arms true (.otherwise body)).Readable start read.advance.advance := by
  refine .step 1 rfl fun fuel enough place =>
    gives_accept.mpr (.inr ⟨plain, gives_accept.mpr (.inl ⟨refuses, ?_⟩)⟩)
  have moved := advance_length (at_kind_more refuses)
  have branchRead : Gives (blockAt (·.isAtEnd .IF) fuel) _ _ _ := branch.within 2 rfl (by omega)
  exact gives_seq.mpr ⟨_, _, branchRead, gives_advance.mpr (gives_advance.mpr (gives_unit.mpr ⟨rfl, rfl⟩))⟩

theorem line_branch_readable (noNumber : start.kind? ≠ some .integerLiteral)
    (first : (Phrase.stmt locus stmt).Readable start middle) (rest : (Phrase.lineRest others).Readable middle after) :
    (Phrase.lineBranch (.cons locus stmt others)).Readable start after := by
  refine .step 2 rfl fun fuel enough => gives_get.mpr ?_
  have firstRead : Gives (stmtAt fuel) _ _ _ := first.within 1 rfl (by omega)
  have fewer := stmt_fewer firstRead
  have restRead : Gives (lineRestAt fuel) _ _ _ := rest.within 1 rfl (by omega)
  have line := gives_line.mpr ⟨_, _, _, firstRead, restRead, rfl⟩
  split
  · next token rest next =>
    have other : token.kind ≠ .integerLiteral := by simpa [Cursor.kind?, next] using noNumber
    rw [if_neg other]
    exact line
  · exact line

theorem line_ends_readable (colon : start.isAtSymbol .colon = true) (ends : start.advance.endsBranch = true) :
    (Phrase.lineRest .nil).Readable start start.advance := by
  refine .step 1 rfl fun fuel enough => gives_accept.mpr (.inl ⟨colon, gives_get.mpr ?_⟩)
  unfold Cursor.endsBranch at ends
  split at ends
  all_goals first
    | (next kind => simpa only [kind] using (gives_unit.mpr ⟨rfl, rfl⟩ : Gives (pure Block.nil) _ _ _))
    | cases ends

theorem line_more_readable (colon : start.isAtSymbol .colon = true) (goesOn : start.advance.endsBranch = false)
    (first : (Phrase.stmt locus stmt).Readable start.advance middle)
    (rest : (Phrase.lineRest others).Readable middle after) :
    (Phrase.lineRest (.cons locus stmt others)).Readable start after := by
  refine .step 1 rfl fun fuel enough => gives_accept.mpr (.inl ⟨colon, gives_get.mpr ?_⟩)
  have moved := advance_length (at_kind_more colon)
  have firstRead : Gives (stmtAt fuel) _ _ _ := first.within 1 rfl (by omega)
  have fewer := stmt_fewer firstRead
  have restRead : Gives (lineRestAt fuel) _ _ _ := rest.within 1 rfl (by omega)
  have line := gives_line.mpr ⟨_, _, _, firstRead, restRead, rfl⟩
  split
  · next ends => simp [Cursor.endsBranch, ends] at goesOn
  · next ends => simp [Cursor.endsBranch, ends] at goesOn
  · next ends => simp [Cursor.endsBranch, ends] at goesOn
  · exact line

theorem line_else_readable (refuses : start.isAtKeyword .ELSE = true)
    (branch : (Phrase.lineBranch body).Readable start.advance after) :
    (Phrase.lineElse (.otherwise body)).Readable start after := by
  refine .step 1 rfl fun fuel enough => gives_accept.mpr (.inl ⟨refuses, ?_⟩)
  have moved := advance_length (at_kind_more refuses)
  have branchRead : Gives (lineBranchAt fuel) _ _ _ := branch.within 2 rfl (by omega)
  exact gives_seq.mpr ⟨_, _, branchRead, gives_unit.mpr ⟨rfl, rfl⟩⟩

theorem select_readable (marks : Gives (expectKeyword .CASE "CASE") start () marked)
    (test : Gives expr marked condition tested) (rest : (Phrase.cases clauses).Readable tested after) :
    (Phrase.select (.select condition clauses)).Readable start after := by
  refine .step 1 rfl fun fuel enough place => ?_
  have fewerMarks := expect_keyword_fewer marks
  have fewer := expr_fewer test
  have restRead : Gives (casesAt place fuel) _ _ _ := rest.within 1 rfl (by omega) place
  exact gives_seq.mpr ⟨_, _, marks, gives_seq.mpr ⟨_, _, test,
    gives_seq.mpr ⟨_, _, restRead, gives_unit.mpr ⟨rfl, rfl⟩⟩⟩⟩

theorem end_select_readable (ends : start.behindTrivia.isAtEnd .SELECT = true) :
    (Phrase.cases .none).Readable start start.behindTrivia.advance.advance := by
  refine .step 1 rfl fun fuel enough place => gives_skip_trivia.mpr (gives_get.mpr ?_)
  have more : start.behindTrivia.rest.isEmpty = false := by
    cases next : start.behindTrivia.rest with
    | nil => simp [Cursor.isAtEnd, next] at ends
    | cons token rest => rfl
  rw [if_neg (by simp [more]), if_pos ends]
  exact gives_advance.mpr (gives_advance.mpr (gives_unit.mpr ⟨rfl, rfl⟩))

theorem case_else_readable (goesOn : start.behindTrivia.isAtEnd .SELECT = false)
    (opens : Gives (expect (.keyword .CASE) "CASE or END SELECT") start.behindTrivia token clause)
    (refuses : clause.isAtKeyword .ELSE = true)
    (branch : (Phrase.block (·.isAtEnd .SELECT) body found).Readable clause.advance read)
    (rest : (Phrase.cases clauses).Readable read after) : (Phrase.cases (.otherwise body)).Readable start after := by
  refine .step 1 rfl fun fuel enough place => gives_skip_trivia.mpr (gives_get.mpr ?_)
  have skipped : start.behindTrivia.rest.length ≤ start.rest.length := (start.skip_while_suffix _).length_le
  have fewer := expect_fewer opens
  have moved := advance_length (at_kind_more refuses)
  have branchRead : Gives (blockAt (·.isAtEnd .SELECT) fuel) _ _ _ := branch.within 2 rfl (by omega)
  have noMore := block_no_more branchRead
  have restRead : Gives (casesAt place fuel) _ _ _ := rest.within 1 rfl (by omega) place
  rw [if_neg (expect_more opens), if_neg (by simp [goesOn])]
  refine gives_seq.mpr ⟨_, _, opens, gives_accept.mpr (.inl ⟨refuses, ?_⟩)⟩
  exact gives_seq.mpr ⟨_, _, branchRead, gives_seq.mpr ⟨_, _, restRead, gives_unit.mpr ⟨rfl, rfl⟩⟩⟩

theorem clause_readable {patterns : List CaseMatch} (goesOn : start.behindTrivia.isAtEnd .SELECT = false)
    (opens : Gives (expect (.keyword .CASE) "CASE or END SELECT") start.behindTrivia token clause)
    (accepts : clause.isAtKeyword .ELSE = false) (tests : Gives (commaList caseMatch) clause patterns matched)
    (branch : (Phrase.block isCaseEnd body found).Readable matched read)
    (rest : (Phrase.cases clauses).Readable read after) :
    (Phrase.cases (.clause token.locus patterns body clauses)).Readable start after := by
  refine .step 1 rfl fun fuel enough place => gives_skip_trivia.mpr (gives_get.mpr ?_)
  have skipped : start.behindTrivia.rest.length ≤ start.rest.length := (start.skip_while_suffix _).length_le
  have fewer := expect_fewer opens
  have noMoreTests := (plain_comma_list plain_case_match).no_more tests
  have branchRead : Gives (blockAt isCaseEnd fuel) _ _ _ := branch.within 2 rfl (by omega)
  have noMore := block_no_more branchRead
  have restRead : Gives (casesAt place fuel) _ _ _ := rest.within 1 rfl (by omega) place
  rw [if_neg (expect_more opens), if_neg (by simp [goesOn])]
  refine gives_seq.mpr ⟨_, _, opens, gives_accept.mpr (.inr ⟨accepts, gives_seq.mpr ⟨_, _, tests, ?_⟩⟩)⟩
  exact gives_seq.mpr ⟨_, _, branchRead, gives_seq.mpr ⟨_, _, restRead, gives_unit.mpr ⟨rfl, rfl⟩⟩⟩

theorem for_loop_readable {counter : String} {first last : Expr} {step : Option Expr} {next : Option (String × Locus)}
    (head : Gives forHeader start (counter, first, last, step) middle)
    (content : (Phrase.block (·.isAtKeyword .NEXT) body true).Readable middle read)
    (closes : Gives nextCounter read.advance next after) :
    (Phrase.forLoop (.forLoop counter first last step body next)).Readable start after := by
  refine .step 3 rfl fun fuel enough place => gives_seq.mpr ⟨_, _, head, ?_⟩
  have noMore := plain_for_header.no_more head
  have contentRead : Gives (blockAt (·.isAtKeyword .NEXT) fuel) _ _ _ := content.within 2 rfl (by omega)
  exact gives_seq.mpr ⟨_, _, contentRead, gives_advance.mpr (gives_seq.mpr ⟨_, _, closes,
    gives_unit.mpr ⟨rfl, rfl⟩⟩)⟩

theorem while_loop_readable (test : Gives expr start condition tested)
    (content : (Phrase.block (·.isAtKeyword .WEND) body true).Readable tested read) :
    (Phrase.whileLoop (.whileLoop condition body)).Readable start read.advance := by
  refine .step 1 rfl fun fuel enough place => gives_seq.mpr ⟨_, _, test, ?_⟩
  have fewer := expr_fewer test
  have contentRead : Gives (blockAt (·.isAtKeyword .WEND) fuel) _ _ _ := content.within 2 rfl (by omega)
  exact gives_seq.mpr ⟨_, _, contentRead, gives_advance.mpr (gives_unit.mpr ⟨rfl, rfl⟩)⟩

theorem do_loop_readable {before behind : Option LoopCondition} (test : Gives loopCondition start before tested)
    (content : (Phrase.block (·.isAtKeyword .LOOP) body true).Readable tested read)
    (closes : Gives loopCondition read.advance behind after) (single : ¬(before.isSome ∧ behind.isSome)) :
    (Phrase.doLoop (.doLoop before body behind)).Readable start after := by
  refine .step 3 rfl fun fuel enough place => gives_seq.mpr ⟨_, _, test, ?_⟩
  have noMore := plain_loop_condition.no_more test
  have contentRead : Gives (blockAt (·.isAtKeyword .LOOP) fuel) _ _ _ := content.within 2 rfl (by omega)
  refine gives_seq.mpr ⟨_, _, contentRead, gives_advance.mpr (gives_seq.mpr ⟨_, _, closes, ?_⟩)⟩
  rw [if_neg single]
  exact gives_unit.mpr ⟨rfl, rfl⟩

end Phrase

theorem Derives.is_readable {phrase : Phrase} {start after : Cursor} (derives : Derives phrase start after) :
    phrase.Readable start after := by
  induction derives with
  | compound next opens _ ih => exact Phrase.compound_readable next opens ih
  | simple next opens read => exact Phrase.simple_readable next opens read
  | exhausted empty =>
    refine .step 2 rfl fun fuel enough => gives_skip_separators.mpr (gives_get.mpr ?_)
    rw [if_pos (by simpa using empty)]
    exact gives_unit.mpr ⟨rfl, rfl⟩
  | ended more ends =>
    refine .step 2 rfl fun fuel enough => gives_skip_separators.mpr (gives_get.mpr ?_)
    rw [if_neg (by simpa using more), if_pos ends]
    exact gives_unit.mpr ⟨rfl, rfl⟩
  | statement more goesOn _ _ firstIh restIh => exact Phrase.statement_readable more goesOn firstIh restIh
  | jump test jumps _ _ targetIh restIh => exact Phrase.jump_readable test jumps targetIh restIh
  | branches test stays marks breaks _ _ branchIh restIh =>
    exact Phrase.branches_readable test stays marks breaks branchIh restIh
  | line test stays marks goesOn _ _ branchIh restIh =>
    exact Phrase.line_readable test stays marks goesOn branchIh restIh
  | elseIf tests test marks _ _ branchIh restIh => exact Phrase.else_if_readable tests test marks branchIh restIh
  | otherwise plain refuses _ ih => exact Phrase.otherwise_readable plain refuses ih
  | endIf plain accepts =>
    refine .step 1 rfl fun fuel enough place =>
      gives_accept.mpr (.inr ⟨plain, gives_accept.mpr (.inr ⟨accepts, ?_⟩)⟩)
    exact gives_advance.mpr (gives_advance.mpr (gives_unit.mpr ⟨rfl, rfl⟩))
  | lineNumber next number =>
    refine .step 2 rfl fun fuel enough => gives_get.mpr ?_
    rw [next]
    dsimp only
    rw [if_pos number]
    exact gives_advance.mpr (gives_unit.mpr ⟨rfl, rfl⟩)
  | lineBranch noNumber _ _ firstIh restIh => exact Phrase.line_branch_readable noNumber firstIh restIh
  | lineDone noColon =>
    exact .step 1 rfl fun fuel enough => gives_accept.mpr (.inr ⟨noColon, gives_unit.mpr ⟨rfl, rfl⟩⟩)
  | lineEnds colon ends => exact Phrase.line_ends_readable colon ends
  | lineMore colon goesOn _ _ firstIh restIh => exact Phrase.line_more_readable colon goesOn firstIh restIh
  | lineElse refuses _ ih => exact Phrase.line_else_readable refuses ih
  | noLineElse accepts =>
    exact .step 1 rfl fun fuel enough => gives_accept.mpr (.inr ⟨accepts, gives_unit.mpr ⟨rfl, rfl⟩⟩)
  | select marks read _ ih => exact Phrase.select_readable marks read ih
  | endSelect ends => exact Phrase.end_select_readable ends
  | caseElse goesOn opens refuses _ _ branchIh restIh =>
    exact Phrase.case_else_readable goesOn opens refuses branchIh restIh
  | clause goesOn opens accepts tests _ _ branchIh restIh =>
    exact Phrase.clause_readable goesOn opens accepts tests branchIh restIh
  | forLoop head _ closes ih => exact Phrase.for_loop_readable head ih closes
  | whileLoop test _ ih => exact Phrase.while_loop_readable test ih
  | doLoop test _ closes single ih => exact Phrase.do_loop_readable test ih closes single

theorem Derives.same_errors {phrase : Phrase} {start after : Cursor} (derives : Derives phrase start after) :
    after.errors = start.errors := by
  induction derives with
  | @compound start after token rest phrase stmt next opens content ih => simpa using ih
  | simple next opens read => exact simple_stmt_same_errors read
  | exhausted empty => rfl
  | ended more ends => rfl
  | statement more goesOn first rest firstIh restIh => exact restIh.trans firstIh
  | jump test jumps target rest targetIh restIh =>
    exact (restIh.trans targetIh).trans (plain_expr.same_errors test)
  | branches test stays marks breaks branch rest branchIh restIh =>
    have marked := (plain_expect_keyword _ _).same_errors marks
    exact ((restIh.trans branchIh).trans marked).trans (plain_expr.same_errors test)
  | line test stays marks goesOn branch rest branchIh restIh =>
    have marked := (plain_expect_keyword _ _).same_errors marks
    exact ((restIh.trans branchIh).trans marked).trans (plain_expr.same_errors test)
  | elseIf tests test marks branch rest branchIh restIh =>
    have marked := (plain_expect_keyword _ _).same_errors marks
    have tested := (plain_expr.same_errors test).trans (Cursor.advance_errors _)
    exact ((restIh.trans branchIh).trans marked).trans tested
  | otherwise plain refuses branch ih => simpa using ih
  | endIf plain accepts => simp
  | lineNumber next number => simp
  | lineBranch noNumber first rest firstIh restIh => exact restIh.trans firstIh
  | lineDone noColon => rfl
  | lineEnds colon ends => simp
  | lineMore colon goesOn first rest firstIh restIh => simpa using restIh.trans firstIh
  | lineElse refuses branch ih => simpa using ih
  | noLineElse accepts => rfl
  | select marks read rest ih =>
    have marked := (plain_expect_keyword _ _).same_errors marks
    exact (ih.trans (plain_expr.same_errors read)).trans marked
  | endSelect ends => simp [Cursor.behind_trivia_errors]
  | caseElse goesOn opens refuses branch rest branchIh restIh =>
    have opened := (plain_expect _ _).same_errors opens
    have clause := (restIh.trans branchIh).trans (Cursor.advance_errors _)
    exact clause.trans opened
  | clause goesOn opens accepts tests branch rest branchIh restIh =>
    have opened := (plain_expect _ _).same_errors opens
    have tested := (plain_comma_list plain_case_match).same_errors tests
    exact ((restIh.trans branchIh).trans tested).trans opened
  | forLoop head content closes ih =>
    have closed := (plain_next_counter.same_errors closes).trans (Cursor.advance_errors _)
    exact (closed.trans ih).trans (plain_for_header.same_errors head)
  | whileLoop test content ih => simpa using ih.trans (plain_expr.same_errors test)
  | doLoop test content closes single ih =>
    have closed := (plain_loop_condition.same_errors closes).trans (Cursor.advance_errors _)
    exact (closed.trans ih).trans (plain_loop_condition.same_errors test)

end BasicLang
