import BasicLang.Proofs.Code.Marks
import BasicLang.Proofs.Derivation.Parsing
import BasicLang.Proofs.Derivation.Single
import BasicLang.Proofs.Lexing.LineIndex

set_option autoImplicit false

namespace BasicLang

section Tokens

theorem piece_some {chars : List Char} {piece : Piece} (inside : piece ∈ piecesOf chars) : piece.text ≠ [] := by
  fun_induction piecesOf chars with
  | case1 => exact absurd inside List.not_mem_nil
  | case2 char rest length ih =>
    rcases List.mem_cons.mp inside with rfl | later
    · refine List.ne_nil_of_length_pos ?_
      rw [List.length_take, List.length_cons]
      exact Nat.lt_min.mpr ⟨(Lexeme.first_reads char rest).length_pos, Nat.succ_pos _⟩
    · exact ih later

theorem token_behind (before : List Char) (pieces : List Piece) {token : Token}
    (inside : token ∈ (partsBehind before pieces).filterMap Part.token?) :
    ∃ more, token.locus = Locus.behind (before ++ more) := by
  induction pieces generalizing before with
  | nil => simp [partsBehind] at inside
  | cons piece further ih =>
    obtain ⟨part, isPart, isToken⟩ := List.mem_filterMap.mp inside
    rcases List.mem_cons.mp isPart with rfl | later
    · unfold Piece.placed at isToken
      split at isToken <;> cases isToken
      exact ⟨[], by rw [List.append_nil]⟩
    · obtain ⟨more, place⟩ := ih (before ++ piece.text) (List.mem_filterMap.mpr ⟨part, later, isToken⟩)
      exact ⟨piece.text ++ more, by rw [place, List.append_assoc]⟩

theorem places_ordered (before : List Char) (pieces : List Piece) (some : ∀ piece ∈ pieces, piece.text ≠ []) :
    ((partsBehind before pieces).filterMap Part.token?).Pairwise fun early late => early.locus.Before late.locus := by
  induction pieces generalizing before with
  | nil => exact .nil
  | cons piece further ih =>
    obtain ⟨someFirst, someFurther⟩ := List.forall_mem_cons.mp some
    rw [partsBehind]
    rcases isToken : (piece.placed before).token? with _ | token
    · rw [List.filterMap_cons_none isToken]
      exact ih _ someFurther
    · rw [List.filterMap_cons_some isToken]
      refine .cons (fun later inside => ?_) (ih _ someFurther)
      have place : token.locus = Locus.behind before := by
        unfold Piece.placed at isToken
        split at isToken <;> cases isToken
        rfl
      obtain ⟨more, isPlace⟩ := token_behind _ _ inside
      rw [place, isPlace, List.append_assoc]
      exact Locus.behind_more (by simp [someFirst])

theorem token_places_ordered (source : String) :
    (tokenize source).1.Pairwise fun early late => early.locus.Before late.locus := by
  rw [tokenize_parts]
  exact places_ordered [] _ fun _ => piece_some

end Tokens

namespace Cursor

/-- Between two cursors some places are those of tokens, one behind the other. -/
def Passes (start : Cursor) (places : List Locus) (after : Cursor) : Prop :=
  ∃ passed, start.rest = passed ++ after.rest ∧ places.Sublist (passed.map Token.locus)

variable {start middle after : Cursor} {places others : List Locus}

theorem passes_nothing (forward : after.rest <:+ start.rest) : start.Passes [] after := by
  obtain ⟨passed, isRest⟩ := forward
  exact ⟨passed, isRest.symm, List.nil_sublist _⟩

theorem passes_token {token : Token} {rest : List Token} (next : start.rest = token :: rest)
    (forward : after.rest <:+ rest) : start.Passes [token.locus] after := by
  obtain ⟨passed, rfl⟩ := forward
  exact ⟨token :: passed, next, by simp⟩

theorem Passes.andThen (first : start.Passes places middle) (rest : middle.Passes others after) :
    start.Passes (places ++ others) after := by
  obtain ⟨early, isStart, isFirst⟩ := first
  obtain ⟨late, isMiddle, isRest⟩ := rest
  exact ⟨early ++ late, by rw [isStart, isMiddle, List.append_assoc], by simpa using isFirst.append isRest⟩

theorem Passes.behind (passes : middle.Passes places after) (forward : middle.rest <:+ start.rest) :
    start.Passes places after := (passes_nothing forward).andThen passes

theorem Passes.before (passes : start.Passes places middle) (forward : after.rest <:+ middle.rest) :
    start.Passes places after := by
  simpa using passes.andThen (passes_nothing forward)

theorem Passes.fewer (passes : start.Passes places after) (fewer : others.Sublist places) : start.Passes others after := by
  obtain ⟨passed, isRest, inside⟩ := passes
  exact ⟨passed, isRest, fewer.trans inside⟩

theorem Passes.forward (passes : start.Passes places after) : after.rest <:+ start.rest := by
  obtain ⟨passed, isRest, -⟩ := passes
  exact ⟨passed, isRest.symm⟩

theorem advance_suffix (cursor : Cursor) : cursor.advance.rest <:+ cursor.rest := by
  simp [List.tail_suffix]

theorem behind_static_suffix (cursor : Cursor) : cursor.behindStatic.rest <:+ cursor.rest := by
  unfold behindStatic
  split
  · exact cursor.advance_suffix
  · exact List.suffix_refl _

end Cursor

namespace Reader

theorem ReadsAt.suffix {α : Type} {quiet short : Prop} {limit : α → Nat} {start after : Cursor} {reader : Reader α}
    {value : α} (reads : ReadsAt quiet short limit start reader) (gives : Gives reader start value after) :
    after.rest <:+ start.rest := by
  unfold ReadsAt at reads
  rw [gives] at reads
  exact reads.forward

theorem Plain.suffix {α : Type} {start after : Cursor} {reader : Reader α} {value : α} (plain : Plain reader)
    (gives : Gives reader start value after) : after.rest <:+ start.rest := (plain start).suffix gives

theorem simple_stmt_suffix {token : Token} {rest : List Token} {start after : Cursor} {stmt : Stmt}
    (next : start.rest = token :: rest) (gives : Gives (simpleStmt token) start stmt after) : after.rest <:+ rest := by
  have reads : ReadsAt False True (fun _ => start.advance.rest.length + 1) start (simpleStmt token) :=
    reads_simple_stmt token start
  have shorter : after.rest.length < start.advance.rest.length + 1 := reads.fewer gives
  have suffix := reads.suffix gives
  rw [next] at suffix
  rcases List.suffix_cons_iff.mp suffix with same | inside
  · rw [same] at shorter
    simp [next] at shorter
  · exact inside

end Reader

def placesOf (marks : List (Locus × Mark)) : List Locus := marks.map Prod.fst

theorem places_of_append (early late : List (Locus × Mark)) : placesOf (early ++ late) = placesOf early ++ placesOf late :=
  List.map_append

/-- What a phrase lists. A statement that is derived behind its first token stands at the place of that. -/
def Phrase.marks (locus : Locus) : Phrase → List (Locus × Mark)
  | .stmt own found => found.marks own
  | .block _ body _ => body.marks
  | .arms _ found => found.marks
  | .lineBranch body => body.marks
  | .lineRest body => body.marks
  | .lineElse found => found.marks
  | .cases found => found.marks
  | .cond found => found.marks locus
  | .select found => found.marks locus
  | .forLoop found => found.marks locus
  | .whileLoop found => found.marks locus
  | .doLoop found => found.marks locus

theorem Stmt.alone_places {stmt : Stmt} (alone : stmt.isAlone = true) (locus : Locus) :
    (placesOf (stmt.marks locus)).Sublist [locus] := by
  cases stmt with
  | data items => exact List.Sublist.refl _
  | label name => exact List.Sublist.refl _
  | cond _ | select _ _ | forLoop _ _ _ _ _ _ | whileLoop _ _ | doLoop _ _ _ => cases alone
  | _ => exact List.nil_sublist _

theorem Cursor.Passes.both {start middle after : Cursor} {early late : List (Locus × Mark)}
    (first : start.Passes (placesOf early) middle) (rest : middle.Passes (placesOf late) after) :
    start.Passes (placesOf (early ++ late)) after := by
  rw [places_of_append]
  exact first.andThen rest

open Reader Cursor in
theorem Derives.passes {phrase : Phrase} {start after : Cursor} (derives : Derives phrase start after) (locus : Locus) :
    start.Passes (placesOf (phrase.marks locus)) after := by
  -- The places of a phrase are those of its parts in turn, and what is dropped between them holds no statement.
  induction derives generalizing locus with
  | @compound start after token rest phrase stmt next opens content ih =>
    unfold Phrase.behind? at opens
    split at opens
    · cases opens
      exact (ih token.locus).behind (advance_suffix _)
    · cases opens
      exact (ih token.locus).behind (advance_suffix _)
    · cases opens
      exact (ih token.locus).behind (advance_suffix _)
    · cases opens
      exact (ih token.locus).behind (advance_suffix _)
    · cases opens
      exact (ih token.locus).behind (advance_suffix _)
    · cases opens
  | @simple start after token rest stmt next opens read =>
    exact (passes_token next (simple_stmt_suffix next read)).fewer
      (Stmt.alone_places (alone_simple_stmt token _ _ _ read) token.locus)
  | @exhausted start isEnd empty => exact passes_nothing (start.skip_while_suffix _)
  | @ended start isEnd more ends => exact passes_nothing (start.skip_while_suffix _)
  | @statement start middle after isEnd own stmt others found more goesOn first rest firstIh restIh =>
    exact ((firstIh locus).both (restIh locus)).behind (start.skip_while_suffix _)
  | @jump start tested jumped after condition own jump others test jumps target rest targetIh restIh =>
    have nothing : jumped.Passes (placesOf []) jumped := passes_nothing (List.suffix_refl _)
    exact (((targetIh locus).both nothing).both (restIh locus)).behind (plain_expr.suffix test)
  | branches test stays marks breaks branch rest branchIh restIh =>
    exact (((branchIh locus).both (restIh locus)).behind ((plain_expect_keyword _ _).suffix marks)).behind
      (plain_expr.suffix test)
  | line test stays marks goesOn branch rest branchIh restIh =>
    exact (((branchIh locus).both (restIh locus)).behind ((plain_expect_keyword _ _).suffix marks)).behind
      (plain_expr.suffix test)
  | elseIf tests test marks branch rest branchIh restIh =>
    exact ((((branchIh locus).both (restIh locus)).behind ((plain_expect_keyword _ _).suffix marks)).behind
      (plain_expr.suffix test)).behind (advance_suffix _)
  | otherwise plain refuses branch ih =>
    exact (((ih locus).behind (advance_suffix _)).before (advance_suffix _)).before (advance_suffix _)
  | endIf plain accepts => exact passes_nothing ((advance_suffix _).trans (advance_suffix _))
  | lineNumber next number => exact passes_nothing (advance_suffix _)
  | lineBranch noNumber first rest firstIh restIh => exact (firstIh locus).both (restIh locus)
  | lineDone noColon => exact passes_nothing (List.suffix_refl _)
  | lineEnds colon ends => exact passes_nothing (advance_suffix _)
  | lineMore colon goesOn first rest firstIh restIh =>
    exact ((firstIh locus).both (restIh locus)).behind (advance_suffix _)
  | lineElse refuses branch ih => exact (ih locus).behind (advance_suffix _)
  | noLineElse accepts => exact passes_nothing (List.suffix_refl _)
  | select marks read rest ih =>
    exact ((ih locus).behind (plain_expr.suffix read)).behind ((plain_expect_keyword _ _).suffix marks)
  | @endSelect start ends =>
    exact passes_nothing (((advance_suffix _).trans (advance_suffix _)).trans (start.skip_while_suffix _))
  | @caseElse start clause read after token body found dropped goesOn opens refuses branch rest branchIh restIh =>
    exact ((((branchIh locus).before (restIh locus).forward).behind (advance_suffix _)).behind
      ((plain_expect _ _).suffix opens)).behind (start.skip_while_suffix _)
  | @clause start clause matched read after token patterns body found others goesOn opens accepts tests branch rest
      branchIh restIh =>
    exact ((((branchIh locus).both (restIh locus)).behind ((plain_comma_list plain_case_match).suffix tests)).behind
      ((plain_expect _ _).suffix opens)).behind (start.skip_while_suffix _)
  | forLoop head content closes ih =>
    exact (((ih locus).before (advance_suffix _)).before (plain_next_counter.suffix closes)).behind
      (plain_for_header.suffix head)
  | whileLoop test content ih => exact ((ih locus).before (advance_suffix _)).behind (plain_expr.suffix test)
  | doLoop test content closes single ih =>
    exact (((ih locus).before (advance_suffix _)).before (plain_loop_condition.suffix closes)).behind
      (plain_loop_condition.suffix test)

open Reader Cursor in
theorem Routine.Derived.passes {routine : Routine} {start after : Cursor} (derived : routine.Derived start after) :
    start.Passes (placesOf routine.body.marks) after := by
  obtain ⟨-, headed, read, head, content, rfl⟩ := derived
  exact ((((content.passes routine.locus).behind headed.behind_static_suffix).behind
    ((plain_header routine.kind).suffix head)).behind (advance_suffix _)).before
    ((advance_suffix _).trans (advance_suffix _))

theorem ProgramDerived.passes {start : Cursor} {stmts : List (Locus × Stmt)} {routines : List Routine}
    (derived : ProgramDerived start stmts routines) :
    (placesOf (Block.ofList stmts).marks).Sublist (start.rest.map Token.locus) ∧
      (placesOf (routines.flatMap fun routine => routine.body.marks)).Sublist (start.rest.map Token.locus) := by
  induction derived with
  | finished empty => exact ⟨List.nil_sublist _, List.nil_sublist _⟩
  | @procedure start middle routine stmts routines isProcedure opens first rest ih =>
    have skipped := start.skip_while_suffix fun kind => kind == .newline || kind == .symbol .colon
    obtain ⟨passed, isRest, inside⟩ := first.passes.behind skipped
    rw [isRest, List.map_append]
    refine ⟨ih.1.trans (List.sublist_append_right _ _), ?_⟩
    rw [List.flatMap_cons, places_of_append]
    exact inside.append ih.2
  | @statement start middle locus stmt stmts routines noProcedure first rest ih =>
    have skipped := start.skip_while_suffix fun kind => kind == .newline || kind == .symbol .colon
    obtain ⟨passed, isRest, inside⟩ := (first.passes locus).behind skipped
    rw [isRest, List.map_append]
    refine ⟨?_, ih.2.trans (List.sublist_append_right _ _)⟩
    rw [Block.ofList, Block.marks, places_of_append]
    exact inside.append ih.1

theorem parsed_in_order {source : String} {program : Program} (parsed : parse (tokenize source).1 = .ok program) :
    (placesOf program.main.marks).Pairwise Locus.Before ∧ (placesOf program.procedureMarks).Pairwise Locus.Before := by
  obtain ⟨stmts, isMain, derived⟩ := (parse_accepts_iff _ _).mp parsed
  have ordered : ((tokenize source).1.map Token.locus).Pairwise Locus.Before :=
    List.pairwise_map.mpr (token_places_ordered source)
  obtain ⟨main, procedures⟩ := derived.passes
  rw [← isMain] at main
  exact ⟨ordered.sublist main, ordered.sublist procedures⟩

end BasicLang
