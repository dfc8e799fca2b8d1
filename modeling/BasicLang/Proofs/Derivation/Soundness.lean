import BasicLang.Proofs.Derivation.Phrase

set_option autoImplicit false

namespace BasicLang

namespace Reader

theorem simple_stmt_same_errors {token : Token} {start after : Cursor} {stmt : Stmt}
    (gives : Gives (simpleStmt token) start stmt after) : after.errors = start.errors :=
  have reads : ReadsAt True False _ start (simpleStmt token) := reads_simple_stmt token start
  reads.same_errors gives

theorem gives_line {fuel : Nat} {start after : Cursor} {body : Block} :
    Gives (do
      let (locus, stmt) ← stmtAt fuel
      return Block.cons locus stmt (← lineRestAt fuel)) start body after ↔
      ∃ stmt middle others, Gives (stmtAt fuel) start stmt middle ∧ Gives (lineRestAt fuel) middle others after ∧
        body = .cons stmt.1 stmt.2 others := by
  constructor
  · intro gives
    obtain ⟨stmt, middle, first, gives⟩ := gives_seq.mp gives
    obtain ⟨others, last, rest, gives⟩ := gives_seq.mp gives
    obtain ⟨rfl, rfl⟩ := gives_unit.mp gives
    exact ⟨stmt, middle, others, first, rest, rfl⟩
  · rintro ⟨stmt, middle, others, first, rest, rfl⟩
    exact gives_seq.mpr ⟨_, _, first, gives_seq.mpr ⟨_, _, rest, gives_unit.mpr ⟨rfl, rfl⟩⟩⟩

mutual

theorem stmt_at_derives (fuel : Nat) {start after : Cursor} {found : Locus × Stmt}
    (gives : Gives (stmtAt fuel) start found after) (clean : after.errors = []) :
    start.errors = [] ∧ Derives (.stmt found.1 found.2) start after := by
  cases fuel with
  | zero => exact (gives_out_of_steps gives).elim
  | succ fuel =>
    unfold stmtAt at gives
    rw [gives_get] at gives
    split at gives
    · exact (gives_fail_expected gives).elim
    · next token rest next =>
      have compound {reader : Reader Stmt} {phrase : Stmt → Phrase} (opens : Phrase.behind? token.kind = some phrase)
          (derives : ∀ {stmt}, Gives reader start.advance stmt after →
            start.advance.errors = [] ∧ Derives (phrase stmt) start.advance after)
          (gives : Gives (do
            advance
            return (token.locus, ← reader)) start found after) :
          start.errors = [] ∧ Derives (.stmt found.1 found.2) start after := by
        rw [gives_advance, gives_seq] at gives
        obtain ⟨stmt, last, read, gives⟩ := gives
        obtain ⟨rfl, rfl⟩ := gives_unit.mp gives
        obtain ⟨cleanStart, content⟩ := derives read
        exact ⟨by simpa using cleanStart, .compound next opens content⟩
      split at gives
      · next kind => exact compound (by rw [kind]; rfl) (fun read => cond_at_derives fuel read clean) gives
      · next kind => exact compound (by rw [kind]; rfl) (fun read => select_at_derives fuel read clean) gives
      · next kind => exact compound (by rw [kind]; rfl) (fun read => for_at_derives fuel read clean) gives
      · next kind => exact compound (by rw [kind]; rfl) (fun read => while_at_derives fuel read clean) gives
      · next kind => exact compound (by rw [kind]; rfl) (fun read => do_at_derives fuel read clean) gives
      · next notIf notSelect notFor notWhile notDo =>
        obtain ⟨stmt, last, read, gives⟩ := gives_seq.mp gives
        obtain ⟨rfl, rfl⟩ := gives_unit.mp gives
        have opens : Phrase.behind? token.kind = none := by
          unfold Phrase.behind?
          split <;> simp_all
        exact ⟨(simple_stmt_same_errors read).symm.trans clean, .simple next opens read⟩
termination_by fuel

theorem block_at_derives (isEnd : Cursor → Bool) (fuel : Nat) {start after : Cursor} {found : Block × Bool}
    (gives : Gives (blockAt isEnd fuel) start found after) (clean : after.errors = []) :
    start.errors = [] ∧ Derives (.block isEnd found.1 found.2) start after := by
  cases fuel with
  | zero => exact (gives_out_of_steps gives).elim
  | succ fuel =>
    unfold blockAt at gives
    rw [gives_skip_separators, gives_get] at gives
    split at gives
    · next empty =>
      obtain ⟨rfl, rfl⟩ := gives_unit.mp gives
      exact ⟨clean, .exhausted (by simpa using empty)⟩
    · next more =>
      have more : start.behindSeparators.rest ≠ [] := by simpa using more
      split at gives
      · next ends =>
        obtain ⟨rfl, rfl⟩ := gives_unit.mp gives
        exact ⟨clean, .ended more ends⟩
      · next goesOn =>
        have goesOn : isEnd start.behindSeparators = false := by simpa using goesOn
        rcases gives_attempt.mp gives with ⟨stmt, middle, read, gives⟩ | ⟨middle, failed, gives⟩
        · obtain ⟨⟨others, found⟩, last, rest, gives⟩ := gives_seq.mp gives
          obtain ⟨rfl, rfl⟩ := gives_unit.mp gives
          obtain ⟨cleanMiddle, restDerives⟩ := block_at_derives isEnd fuel rest clean
          obtain ⟨cleanStart, firstDerives⟩ := stmt_at_derives fuel read cleanMiddle
          exact ⟨cleanStart, .statement more goesOn firstDerives restDerives⟩
        · -- The errors of the failed statement are still there behind the recovery.
          obtain ⟨cleanMiddle, -⟩ := block_at_derives isEnd fuel (gives_modify.mp gives) clean
          have reads : ReadsAt False True _ start.behindSeparators (stmtAt fuel) :=
            reads_stmt_at fuel _ fun _ => trivial
          unfold ReadsAt at reads
          rw [failed] at reads
          have grown : start.errors.length < middle.errors.length := reads.refused rfl
          rw [← middle.synchronize_errors, cleanMiddle] at grown
          exact (Nat.not_lt_zero _ grown).elim
termination_by fuel

theorem cond_at_derives {locus : Locus} (fuel : Nat) {start after : Cursor} {stmt : Stmt}
    (gives : Gives (condAt locus fuel) start stmt after) (clean : after.errors = []) :
    start.errors = [] ∧ Derives (.cond stmt) start after := by
  cases fuel with
  | zero => exact (gives_out_of_steps gives).elim
  | succ fuel =>
    obtain ⟨condition, tested, test, gives⟩ := gives_seq.mp gives
    rw [gives_at_keyword] at gives
    split at gives
    · next jumps =>
      obtain ⟨⟨place, jump⟩, jumped, target, gives⟩ := gives_seq.mp gives
      obtain ⟨others, last, rest, gives⟩ := gives_seq.mp gives
      obtain ⟨rfl, rfl⟩ := gives_unit.mp gives
      obtain ⟨cleanJumped, restDerives⟩ := line_else_at_derives fuel rest clean
      obtain ⟨cleanTested, targetDerives⟩ := stmt_at_derives fuel target cleanJumped
      exact ⟨plain_expr.clean test cleanTested, .jump test jumps targetDerives restDerives⟩
    · next stays =>
      have stays : tested.isAtKeyword .GOTO = false := by simpa using stays
      obtain ⟨_, marked, marks, gives⟩ := gives_seq.mp gives
      rw [gives_get] at gives
      split at gives
      · next breaks =>
        obtain ⟨⟨body, found⟩, read, branch, gives⟩ := gives_seq.mp gives
        obtain ⟨others, last, rest, gives⟩ := gives_seq.mp gives
        obtain ⟨rfl, rfl⟩ := gives_unit.mp gives
        obtain ⟨cleanRead, restDerives⟩ := arms_at_derives fuel rest clean
        obtain ⟨cleanMarked, branchDerives⟩ := block_at_derives _ fuel branch cleanRead
        have cleanTested := (plain_expect_keyword _ _).clean marks cleanMarked
        exact ⟨plain_expr.clean test cleanTested, .branches test stays marks breaks branchDerives restDerives⟩
      · next goesOn =>
        obtain ⟨body, read, branch, gives⟩ := gives_seq.mp gives
        obtain ⟨others, last, rest, gives⟩ := gives_seq.mp gives
        obtain ⟨rfl, rfl⟩ := gives_unit.mp gives
        obtain ⟨cleanRead, restDerives⟩ := line_else_at_derives fuel rest clean
        obtain ⟨cleanMarked, branchDerives⟩ := line_branch_at_derives fuel branch cleanRead
        have cleanTested := (plain_expect_keyword _ _).clean marks cleanMarked
        exact ⟨plain_expr.clean test cleanTested,
          .line test stays marks (by simpa using goesOn) branchDerives restDerives⟩
termination_by fuel

theorem arms_at_derives {locus : Locus} {found : Bool} (fuel : Nat) {start after : Cursor} {arms : Arms}
    (gives : Gives (armsAt locus found fuel) start arms after) (clean : after.errors = []) :
    start.errors = [] ∧ Derives (.arms found arms) start after := by
  cases fuel with
  | zero => exact (gives_out_of_steps gives).elim
  | succ fuel =>
    unfold armsAt at gives
    cases found with
    | false => exact (gives_fail gives).elim
    | true =>
      rcases gives_accept.mp gives with ⟨tests, gives⟩ | ⟨plain, gives⟩
      · obtain ⟨condition, tested, test, gives⟩ := gives_seq.mp gives
        obtain ⟨_, marked, marks, gives⟩ := gives_seq.mp gives
        obtain ⟨⟨body, found⟩, read, branch, gives⟩ := gives_seq.mp gives
        obtain ⟨others, last, rest, gives⟩ := gives_seq.mp gives
        obtain ⟨rfl, rfl⟩ := gives_unit.mp gives
        obtain ⟨cleanRead, restDerives⟩ := arms_at_derives fuel rest clean
        obtain ⟨cleanMarked, branchDerives⟩ := block_at_derives _ fuel branch cleanRead
        have cleanTested := (plain_expect_keyword _ _).clean marks cleanMarked
        have cleanStart := plain_expr.clean test cleanTested
        exact ⟨by simpa using cleanStart, .elseIf tests test marks branchDerives restDerives⟩
      · rcases gives_accept.mp gives with ⟨refuses, gives⟩ | ⟨accepts, gives⟩
        · obtain ⟨⟨body, found⟩, read, branch, gives⟩ := gives_seq.mp gives
          cases found with
          | false => exact (gives_refused gives).elim
          | true =>
            have closed := gives_advance.mp (gives_advance.mp gives)
            obtain ⟨rfl, rfl⟩ := gives_unit.mp closed
            obtain ⟨cleanStart, branchDerives⟩ := block_at_derives _ fuel branch (by simpa using clean)
            exact ⟨by simpa using cleanStart, .otherwise plain refuses branchDerives⟩
        · have closed := gives_advance.mp (gives_advance.mp gives)
          obtain ⟨rfl, rfl⟩ := gives_unit.mp closed
          exact ⟨by simpa using clean, .endIf plain accepts⟩
termination_by fuel

theorem line_branch_at_derives (fuel : Nat) {start after : Cursor} {body : Block}
    (gives : Gives (lineBranchAt fuel) start body after) (clean : after.errors = []) :
    start.errors = [] ∧ Derives (.lineBranch body) start after := by
  cases fuel with
  | zero => exact (gives_out_of_steps gives).elim
  | succ fuel =>
    have branch (noNumber : start.kind? ≠ some .integerLiteral)
        (line : ∃ stmt middle others, Gives (stmtAt fuel) start stmt middle ∧
          Gives (lineRestAt fuel) middle others after ∧ body = .cons stmt.1 stmt.2 others) :
        start.errors = [] ∧ Derives (.lineBranch body) start after := by
      obtain ⟨stmt, middle, others, first, rest, rfl⟩ := line
      obtain ⟨cleanMiddle, restDerives⟩ := line_rest_at_derives fuel rest clean
      obtain ⟨cleanStart, firstDerives⟩ := stmt_at_derives fuel first cleanMiddle
      exact ⟨cleanStart, .lineBranch noNumber firstDerives restDerives⟩
    unfold lineBranchAt at gives
    rw [gives_get] at gives
    split at gives
    · next token rest next =>
      split at gives
      · next number =>
        rw [gives_advance] at gives
        obtain ⟨rfl, rfl⟩ := gives_unit.mp gives
        exact ⟨by simpa using clean, .lineNumber next number⟩
      · next other => exact branch (by simpa [Cursor.kind?, next] using other) (gives_line.mp gives)
    · next empty => exact branch (by simp [Cursor.kind?, empty]) (gives_line.mp gives)
termination_by fuel

theorem line_rest_at_derives (fuel : Nat) {start after : Cursor} {body : Block}
    (gives : Gives (lineRestAt fuel) start body after) (clean : after.errors = []) :
    start.errors = [] ∧ Derives (.lineRest body) start after := by
  cases fuel with
  | zero => exact (gives_out_of_steps gives).elim
  | succ fuel =>
    rcases gives_accept.mp gives with ⟨colon, gives⟩ | ⟨noColon, gives⟩
    · rw [if_pos rfl, gives_get] at gives
      split at gives
      · next ends =>
        obtain ⟨rfl, rfl⟩ := gives_unit.mp gives
        exact ⟨by simpa using clean, .lineEnds colon (by simp [Cursor.endsBranch, ends])⟩
      · next ends =>
        obtain ⟨rfl, rfl⟩ := gives_unit.mp gives
        exact ⟨by simpa using clean, .lineEnds colon (by simp [Cursor.endsBranch, ends])⟩
      · next ends =>
        obtain ⟨rfl, rfl⟩ := gives_unit.mp gives
        exact ⟨by simpa using clean, .lineEnds colon (by simp [Cursor.endsBranch, ends])⟩
      · next kind notNewline notElse next =>
        obtain ⟨stmt, middle, others, first, rest, rfl⟩ := gives_line.mp gives
        obtain ⟨cleanMiddle, restDerives⟩ := line_rest_at_derives fuel rest clean
        obtain ⟨cleanStart, firstDerives⟩ := stmt_at_derives fuel first cleanMiddle
        have goesOn : start.advance.endsBranch = false := by
          unfold Cursor.endsBranch
          rw [next]
          split <;> simp_all
        exact ⟨by simpa using cleanStart, .lineMore colon goesOn firstDerives restDerives⟩
    · obtain ⟨rfl, rfl⟩ := gives_unit.mp gives
      exact ⟨clean, .lineDone noColon⟩
termination_by fuel

theorem line_else_at_derives (fuel : Nat) {start after : Cursor} {arms : Arms}
    (gives : Gives (lineElseAt fuel) start arms after) (clean : after.errors = []) :
    start.errors = [] ∧ Derives (.lineElse arms) start after := by
  cases fuel with
  | zero => exact (gives_out_of_steps gives).elim
  | succ fuel =>
    rcases gives_accept.mp gives with ⟨refuses, gives⟩ | ⟨accepts, gives⟩
    · obtain ⟨body, last, branch, gives⟩ := gives_seq.mp gives
      obtain ⟨rfl, rfl⟩ := gives_unit.mp gives
      obtain ⟨cleanStart, branchDerives⟩ := line_branch_at_derives fuel branch clean
      exact ⟨by simpa using cleanStart, .lineElse refuses branchDerives⟩
    · obtain ⟨rfl, rfl⟩ := gives_unit.mp gives
      exact ⟨clean, .noLineElse accepts⟩
termination_by fuel

theorem select_at_derives {locus : Locus} (fuel : Nat) {start after : Cursor} {stmt : Stmt}
    (gives : Gives (selectAt locus fuel) start stmt after) (clean : after.errors = []) :
    start.errors = [] ∧ Derives (.select stmt) start after := by
  cases fuel with
  | zero => exact (gives_out_of_steps gives).elim
  | succ fuel =>
    obtain ⟨_, marked, marks, gives⟩ := gives_seq.mp gives
    obtain ⟨test, tested, read, gives⟩ := gives_seq.mp gives
    obtain ⟨clauses, last, rest, gives⟩ := gives_seq.mp gives
    obtain ⟨rfl, rfl⟩ := gives_unit.mp gives
    obtain ⟨cleanTested, restDerives⟩ := cases_at_derives fuel rest clean
    have cleanMarked := plain_expr.clean read cleanTested
    exact ⟨(plain_expect_keyword _ _).clean marks cleanMarked, .select marks read restDerives⟩
termination_by fuel

theorem cases_at_derives {locus : Locus} (fuel : Nat) {start after : Cursor} {clauses : Cases}
    (gives : Gives (casesAt locus fuel) start clauses after) (clean : after.errors = []) :
    start.errors = [] ∧ Derives (.cases clauses) start after := by
  cases fuel with
  | zero => exact (gives_out_of_steps gives).elim
  | succ fuel =>
    unfold casesAt at gives
    rw [gives_skip_trivia, gives_get] at gives
    split at gives
    · exact (gives_fail gives).elim
    · split at gives
      · next ends =>
        rw [gives_advance, gives_advance] at gives
        obtain ⟨rfl, rfl⟩ := gives_unit.mp gives
        have cleanStart : start.behindTrivia.errors = [] := by simpa using clean
        exact ⟨cleanStart, .endSelect ends⟩
      · next goesOn =>
        have goesOn : start.behindTrivia.isAtEnd .SELECT = false := by simpa using goesOn
        obtain ⟨token, clause, opens, gives⟩ := gives_seq.mp gives
        rcases gives_accept.mp gives with ⟨refuses, gives⟩ | ⟨accepts, gives⟩
        · obtain ⟨⟨body, found⟩, read, branch, gives⟩ := gives_seq.mp gives
          obtain ⟨dropped, last, rest, gives⟩ := gives_seq.mp gives
          obtain ⟨rfl, rfl⟩ := gives_unit.mp gives
          obtain ⟨cleanRead, restDerives⟩ := cases_at_derives fuel rest clean
          obtain ⟨cleanClause, branchDerives⟩ := block_at_derives _ fuel branch cleanRead
          have cleanStart := (plain_expect _ _).clean opens (by simpa using cleanClause)
          exact ⟨cleanStart, .caseElse goesOn opens refuses branchDerives restDerives⟩
        · obtain ⟨patterns, matched, tests, gives⟩ := gives_seq.mp gives
          obtain ⟨⟨body, found⟩, read, branch, gives⟩ := gives_seq.mp gives
          obtain ⟨others, last, rest, gives⟩ := gives_seq.mp gives
          obtain ⟨rfl, rfl⟩ := gives_unit.mp gives
          obtain ⟨cleanRead, restDerives⟩ := cases_at_derives fuel rest clean
          obtain ⟨cleanMatched, branchDerives⟩ := block_at_derives _ fuel branch cleanRead
          have cleanClause := (plain_comma_list plain_case_match).clean tests cleanMatched
          have cleanStart := (plain_expect _ _).clean opens cleanClause
          exact ⟨cleanStart, .clause goesOn opens accepts tests branchDerives restDerives⟩
termination_by fuel

theorem for_at_derives {locus : Locus} (fuel : Nat) {start after : Cursor} {stmt : Stmt}
    (gives : Gives (forAt locus fuel) start stmt after) (clean : after.errors = []) :
    start.errors = [] ∧ Derives (.forLoop stmt) start after := by
  cases fuel with
  | zero => exact (gives_out_of_steps gives).elim
  | succ fuel =>
    obtain ⟨⟨counter, first, last, step⟩, headed, head, gives⟩ := gives_seq.mp gives
    obtain ⟨⟨body, found⟩, read, content, gives⟩ := gives_seq.mp gives
    cases found with
    | false => exact (gives_refused gives).elim
    | true =>
      obtain ⟨next, _, closes, gives⟩ := gives_seq.mp (gives_advance.mp gives)
      obtain ⟨rfl, rfl⟩ := gives_unit.mp gives
      have cleanRead := plain_next_counter.clean closes clean
      obtain ⟨cleanHeaded, contentDerives⟩ := block_at_derives _ fuel content (by simpa using cleanRead)
      exact ⟨plain_for_header.clean head cleanHeaded, .forLoop head contentDerives closes⟩
termination_by fuel

theorem while_at_derives {locus : Locus} (fuel : Nat) {start after : Cursor} {stmt : Stmt}
    (gives : Gives (whileAt locus fuel) start stmt after) (clean : after.errors = []) :
    start.errors = [] ∧ Derives (.whileLoop stmt) start after := by
  cases fuel with
  | zero => exact (gives_out_of_steps gives).elim
  | succ fuel =>
    obtain ⟨condition, tested, test, gives⟩ := gives_seq.mp gives
    obtain ⟨⟨body, found⟩, read, content, gives⟩ := gives_seq.mp gives
    cases found with
    | false => exact (gives_refused gives).elim
    | true =>
      have closed := gives_advance.mp gives
      obtain ⟨rfl, rfl⟩ := gives_unit.mp closed
      obtain ⟨cleanTested, contentDerives⟩ := block_at_derives _ fuel content (by simpa using clean)
      exact ⟨plain_expr.clean test cleanTested, .whileLoop test contentDerives⟩
termination_by fuel

theorem do_at_derives {locus : Locus} (fuel : Nat) {start after : Cursor} {stmt : Stmt}
    (gives : Gives (doAt locus fuel) start stmt after) (clean : after.errors = []) :
    start.errors = [] ∧ Derives (.doLoop stmt) start after := by
  cases fuel with
  | zero => exact (gives_out_of_steps gives).elim
  | succ fuel =>
    obtain ⟨before, tested, test, gives⟩ := gives_seq.mp gives
    obtain ⟨⟨body, found⟩, read, content, gives⟩ := gives_seq.mp gives
    cases found with
    | false => exact (gives_refused gives).elim
    | true =>
      obtain ⟨behind, last, closes, gives⟩ := gives_seq.mp (gives_advance.mp gives)
      split at gives
      · exact (gives_refused gives).elim
      · next single =>
        obtain ⟨rfl, rfl⟩ := gives_unit.mp gives
        have cleanRead := plain_loop_condition.clean closes clean
        obtain ⟨cleanTested, contentDerives⟩ := block_at_derives _ fuel content (by simpa using cleanRead)
        exact ⟨plain_loop_condition.clean test cleanTested, .doLoop test contentDerives closes single⟩
termination_by fuel

end

end Reader

end BasicLang
