import BasicLang.Proofs.Syntax.StmtGrammar
import BasicLang.Syntax.BlockGrammar

set_option autoImplicit false

namespace BasicLang

namespace Reader

theorem def_keyword_basic {keyword : Keyword} {spec : TypeSpec}
    (found : isDefKeyword? keyword = some spec) : spec.IsBasic := by
  unfold isDefKeyword? at found
  split at found <;> cases found <;> trivial

theorem yields_after {reader : Reader Stmt} (yields : Yields Stmt.WellFormed reader) :
    Yields Stmt.WellFormed (do
      advance
      reader) :=
  yields_seq yields_advance fun _ _ => yields

theorem yields_simple_stmt (token : Token) (lexed : token.Lexed) :
    Yields Stmt.WellFormed (simpleStmt token) := by
  unfold simpleStmt
  split
  · exact yields_after (yields_unit trivial)
  · exact yields_after (yields_unit trivial)
  · refine yields_seq yields_get fun cursor _ => ?_
    split
    · exact yields_seq yields_advance fun _ _ => yields_seq (yields_symbol _) fun _ _ =>
        yields_unit trivial
    · exact yields_fail _ _
  · exact yields_named _
  · exact yields_fail _ _
  · exact yields_fail _ _
  · next keyword _ _ isKeyword =>
    dsimp only
    split
    · exact yields_after yields_print
    · exact yields_after yields_input
    · exact yields_after yields_line_input
    · exact yields_after yields_open_file
    · exact yields_after yields_close
    · exact yields_after yields_write
    · exact yields_after yields_let
    · exact yields_after yields_dim
    · exact yields_after yields_redim
    · exact yields_after yields_const
    · exact yields_after (yields_seq yields_label_name fun _ _ => yields_unit trivial)
    · exact yields_after (yields_seq yields_label_name fun _ _ => yields_unit trivial)
    · exact yields_after (yields_unit trivial)
    · exact yields_after yields_exit
    · exact yields_after (yields_stop _)
    · exact yields_after yields_on_event
    · exact yields_after (yields_seq (yields_comma_list yields_data_item) fun _ _ => yields_unit trivial)
    · exact yields_after (yields_seq yields_targets fun _ wellFormed => yields_unit wellFormed)
    · exact yields_after yields_restore
    · exact yields_after (yields_type_def _)
    · exact yields_after yields_declare
    · exact yields_after yields_call
    · split
      · next spec found =>
        exact yields_after (yields_seq (yields_comma_list (yields_letter_range _)) fun _ letters =>
          yields_unit ⟨def_keyword_basic found, letters⟩)
      · split
        · have named : SourceName (Text.upperAscii token.text) :=
            upper_source_name (lexed (.inr ⟨keyword, isKeyword⟩))
          exact yields_after (yields_seq yields_call_arguments fun _ argumentsFormed =>
            yields_unit ⟨named, argumentsFormed⟩)
        · exact yields_fail _ _
  · exact yields_fail _ _

mutual

theorem yields_stmt_at (fuel : Nat) : Yields (fun found => found.2.WellFormed) (stmtAt fuel) := by
  cases fuel with
  | zero => exact yields_out_of_steps
  | succ fuel =>
    refine yields_seq yields_get fun cursor lexed => ?_
    split
    · exact yields_fail_expected _
    · next token rest found =>
      have tokenLexed : token.Lexed := lexed token (by rw [found]; exact List.mem_cons_self)
      have after {reader : Reader Stmt} (yields : Yields Stmt.WellFormed reader) :
          Yields (fun found => found.2.WellFormed) (do
            advance
            return (token.locus, ← reader)) :=
        yields_seq yields_advance fun _ _ => yields_seq yields fun _ wellFormed =>
          yields_unit wellFormed
      split
      · exact after (yields_cond_at _ fuel)
      · exact after (yields_select_at _ fuel)
      · exact after (yields_for_at _ fuel)
      · exact after (yields_while_at _ fuel)
      · exact after (yields_do_at _ fuel)
      · exact yields_seq (yields_simple_stmt token tokenLexed) fun _ wellFormed =>
          yields_unit wellFormed
termination_by fuel

theorem yields_block_at (isEnd : Cursor → Bool) (fuel : Nat) :
    Yields (fun found => found.1.WellFormed) (blockAt isEnd fuel) := by
  cases fuel with
  | zero => exact yields_out_of_steps
  | succ fuel =>
    refine yields_seq (yields_skip _) fun _ _ => yields_seq yields_get fun cursor _ => ?_
    split
    · exact yields_unit trivial
    · split
      · exact yields_unit trivial
      · refine yields_seq (yields_attempt (yields_stmt_at fuel)) fun found wellFormed => ?_
        split
        · exact yields_seq (yields_block_at isEnd fuel) fun _ othersFormed =>
            yields_unit ⟨wellFormed _ rfl, othersFormed⟩
        · exact yields_seq (yields_modify synchronize_lexed) fun _ _ => yields_block_at isEnd fuel
termination_by fuel

theorem yields_cond_at (locus : Locus) (fuel : Nat) : Yields Stmt.WellFormed (condAt locus fuel) := by
  cases fuel with
  | zero => exact yields_out_of_steps
  | succ fuel =>
    refine yields_seq yields_expr fun condition conditionFormed =>
      yields_seq (yields_is_at_keyword _) fun jumps _ => ?_
    split
    · exact yields_seq (yields_stmt_at fuel) fun _ jumpFormed =>
        yields_seq (yields_line_else_at fuel) fun _ elseFormed =>
          yields_unit ⟨conditionFormed, ⟨jumpFormed, trivial⟩, elseFormed⟩
    · refine yields_seq (yields_expect_keyword _ _) fun _ _ =>
        yields_seq yields_get fun cursor _ => ?_
      split
      · exact yields_seq (yields_block_at _ fuel) fun found bodyFormed =>
          yields_seq (yields_arms_at locus found.2 fuel) fun _ armsFormed =>
            yields_unit ⟨conditionFormed, bodyFormed, armsFormed⟩
      · exact yields_seq (yields_line_branch_at fuel) fun _ bodyFormed =>
          yields_seq (yields_line_else_at fuel) fun _ elseFormed =>
            yields_unit ⟨conditionFormed, bodyFormed, elseFormed⟩
termination_by fuel

theorem yields_arms_at (locus : Locus) (found : Bool) (fuel : Nat) :
    Yields Arms.WellFormed (armsAt locus found fuel) := by
  cases fuel with
  | zero => exact yields_out_of_steps
  | succ fuel =>
    unfold armsAt
    split
    · exact yields_fail _ _
    · refine yields_seq (yields_keyword _) fun accepted _ => ?_
      split
      · exact yields_seq yields_expr fun _ conditionFormed =>
          yields_seq (yields_expect_keyword _ _) fun _ _ =>
            yields_seq (yields_block_at _ fuel) fun found bodyFormed =>
              yields_seq (yields_arms_at locus found.2 fuel) fun _ armsFormed =>
                yields_unit ⟨conditionFormed, bodyFormed, armsFormed⟩
      · refine yields_seq (yields_keyword _) fun accepted _ => ?_
        split
        · refine yields_seq (yields_block_at _ fuel) fun found bodyFormed => ?_
          obtain ⟨body, foundEnd⟩ := found
          have rest : Yields Arms.WellFormed (do
              advance
              advance
              return .otherwise body) :=
            yields_seq yields_advance fun _ _ => yields_seq yields_advance fun _ _ =>
              yields_unit bodyFormed
          cases foundEnd with
          | true => exact rest
          | false => exact yields_refused _ _ fun _ => rest
        · exact yields_seq yields_advance fun _ _ => yields_seq yields_advance fun _ _ =>
            yields_unit trivial
termination_by fuel

theorem yields_line_branch_at (fuel : Nat) : Yields Block.WellFormed (lineBranchAt fuel) := by
  cases fuel with
  | zero => exact yields_out_of_steps
  | succ fuel =>
    have stmts : Yields Block.WellFormed (do
        let (locus, stmt) ← stmtAt fuel
        return .cons locus stmt (← lineRestAt fuel)) :=
      yields_seq (yields_stmt_at fuel) fun _ stmtFormed =>
        yields_seq (yields_line_rest_at fuel) fun _ restFormed =>
          yields_unit ⟨stmtFormed, restFormed⟩
    refine yields_seq yields_get fun cursor _ => ?_
    split
    · split
      · exact yields_seq yields_advance fun _ _ => yields_unit ⟨trivial, trivial⟩
      · exact stmts
    · exact stmts
termination_by fuel

theorem yields_line_rest_at (fuel : Nat) : Yields Block.WellFormed (lineRestAt fuel) := by
  cases fuel with
  | zero => exact yields_out_of_steps
  | succ fuel =>
    refine yields_seq (yields_symbol _) fun accepted _ => ?_
    split
    · refine yields_seq yields_get fun cursor _ => ?_
      split
      · exact yields_unit trivial
      · exact yields_unit trivial
      · exact yields_unit trivial
      · exact yields_seq (yields_stmt_at fuel) fun _ stmtFormed =>
          yields_seq (yields_line_rest_at fuel) fun _ restFormed =>
            yields_unit ⟨stmtFormed, restFormed⟩
    · exact yields_unit trivial
termination_by fuel

theorem yields_line_else_at (fuel : Nat) : Yields Arms.WellFormed (lineElseAt fuel) := by
  cases fuel with
  | zero => exact yields_out_of_steps
  | succ fuel =>
    refine yields_seq (yields_keyword _) fun accepted _ => ?_
    split
    · exact yields_seq (yields_line_branch_at fuel) fun _ wellFormed => yields_unit wellFormed
    · exact yields_unit trivial
termination_by fuel

theorem yields_select_at (locus : Locus) (fuel : Nat) :
    Yields Stmt.WellFormed (selectAt locus fuel) := by
  cases fuel with
  | zero => exact yields_out_of_steps
  | succ fuel =>
    exact yields_seq (yields_expect_keyword _ _) fun _ _ =>
      yields_seq yields_expr fun _ testFormed =>
        yields_seq (yields_cases_at locus fuel) fun _ casesFormed =>
          yields_unit ⟨testFormed, casesFormed⟩
termination_by fuel

theorem yields_cases_at (locus : Locus) (fuel : Nat) :
    Yields Cases.WellFormed (casesAt locus fuel) := by
  cases fuel with
  | zero => exact yields_out_of_steps
  | succ fuel =>
    refine yields_seq (yields_skip _) fun _ _ => yields_seq yields_get fun cursor _ => ?_
    split
    · exact yields_fail _ _
    · split
      · exact yields_seq yields_advance fun _ _ => yields_seq yields_advance fun _ _ =>
          yields_unit trivial
      · refine yields_seq (yields_expect _ _) fun token _ =>
          yields_seq (yields_keyword _) fun accepted _ => ?_
        split
        · exact yields_seq (yields_block_at _ fuel) fun _ bodyFormed =>
            yields_seq (yields_cases_at locus fuel) fun _ _ => yields_unit bodyFormed
        · exact yields_seq (yields_comma_list yields_case_match) fun _ patternsFormed =>
            yields_seq (yields_block_at _ fuel) fun _ bodyFormed =>
              yields_seq (yields_cases_at locus fuel) fun _ casesFormed =>
                yields_unit ⟨patternsFormed, bodyFormed, casesFormed⟩
termination_by fuel

theorem yields_for_at (locus : Locus) (fuel : Nat) : Yields Stmt.WellFormed (forAt locus fuel) := by
  cases fuel with
  | zero => exact yields_out_of_steps
  | succ fuel =>
    refine yields_seq yields_for_header fun header headerFormed =>
      yields_seq (yields_block_at _ fuel) fun found bodyFormed => ?_
    obtain ⟨named, firstFormed, lastFormed, stepFormed⟩ := headerFormed
    obtain ⟨body, closed⟩ := found
    cases closed with
    | true =>
      exact yields_seq yields_advance fun _ _ => yields_seq yields_next_counter fun _ _ =>
        yields_unit ⟨named, firstFormed, lastFormed, stepFormed, bodyFormed⟩
    | false =>
      exact yields_refused _ _ fun _ => yields_seq yields_advance fun _ _ =>
        yields_seq yields_next_counter fun _ _ =>
          yields_unit ⟨named, firstFormed, lastFormed, stepFormed, bodyFormed⟩
termination_by fuel

theorem yields_while_at (locus : Locus) (fuel : Nat) :
    Yields Stmt.WellFormed (whileAt locus fuel) := by
  cases fuel with
  | zero => exact yields_out_of_steps
  | succ fuel =>
    refine yields_seq yields_expr fun condition conditionFormed =>
      yields_seq (yields_block_at _ fuel) fun found bodyFormed => ?_
    obtain ⟨body, closed⟩ := found
    have rest : Yields Stmt.WellFormed (do
        advance
        return .whileLoop condition body) :=
      yields_seq yields_advance fun _ _ => yields_unit ⟨conditionFormed, bodyFormed⟩
    cases closed with
    | true => exact rest
    | false => exact yields_refused _ _ fun _ => rest
termination_by fuel

theorem yields_do_at (locus : Locus) (fuel : Nat) : Yields Stmt.WellFormed (doAt locus fuel) := by
  cases fuel with
  | zero => exact yields_out_of_steps
  | succ fuel =>
    refine yields_seq yields_loop_condition fun before beforeFormed =>
      yields_seq (yields_block_at _ fuel) fun found bodyFormed => ?_
    obtain ⟨body, closed⟩ := found
    have rest : Yields Stmt.WellFormed (do
        advance
        let after ← loopCondition
        if before.isSome ∧ after.isSome then fail .twoLoopConditions locus
        return .doLoop before body after) := by
      refine yields_seq yields_advance fun _ _ =>
        yields_seq yields_loop_condition fun after afterFormed => ?_
      have made : (Stmt.doLoop before body after).WellFormed :=
        ⟨beforeFormed, bodyFormed, afterFormed⟩
      split
      · exact yields_refused _ _ fun _ => yields_unit made
      · exact yields_unit made
    cases closed with
    | true => exact rest
    | false => exact yields_refused _ _ fun _ => rest
termination_by fuel

end

theorem yields_stmt_fuel : Yields (fun _ => True) stmtFuel :=
  yields_seq yields_get fun _ _ => yields_unit trivial

theorem yields_stmt : Yields (fun found => found.2.WellFormed) stmt :=
  yields_seq yields_stmt_fuel fun fuel _ => yields_stmt_at fuel

theorem yields_procedure_body (kind : RoutineKind) (locus : Locus) (headed : Bool) :
    Yields Block.WellFormed (procedureBody kind locus headed) := by
  refine yields_when (yields_skip _) (yields_seq yields_get fun _ _ => yields_when yields_advance ?_)
  refine yields_seq yields_stmt_fuel fun fuel _ => yields_seq (yields_block_at _ fuel) fun result bodyFormed => ?_
  obtain ⟨body, closed⟩ := result
  exact yields_when (yields_fail _ _)
    (yields_seq yields_advance fun _ _ => yields_seq yields_advance fun _ _ => yields_unit bodyFormed)

theorem yields_routine (kind : RoutineKind) (isProcedure : kind ≠ .main) :
    Yields Routine.WellFormed (routine kind) := by
  refine yields_seq yields_get fun cursor _ => yields_seq yields_advance fun _ _ =>
    yields_seq (yields_attempt (yields_header kind)) fun found named =>
      yields_seq (yields_procedure_body kind _ _) fun body bodyFormed => ?_
  split
  · obtain ⟨routineNamed, paramsNamed⟩ := named _ rfl
    exact yields_unit ⟨isProcedure, routineNamed, paramsNamed, bodyFormed⟩
  · exact yields_nothing

def PartsFormed (found : List (Locus × Stmt) × List Routine) : Prop :=
  (∀ item ∈ found.1, item.2.WellFormed) ∧ ∀ routine ∈ found.2, routine.WellFormed

theorem no_parts_formed : PartsFormed ([], []) :=
  ⟨List.forall_mem_nil _, List.forall_mem_nil _⟩

theorem yields_part {fuel : Nat} (rest : Yields PartsFormed (programAt fuel))
    {reader : Reader (List (Locus × Stmt) × List Routine)} (yields : Yields PartsFormed reader) :
    Yields PartsFormed (do
      match ← attempt reader with
      | some (stmts, routines) =>
        let (otherStmts, otherRoutines) ← programAt fuel
        return (stmts ++ otherStmts, routines ++ otherRoutines)
      | none =>
        modify Cursor.synchronize
        programAt fuel) := by
  refine yields_seq (yields_attempt yields) fun found formed => ?_
  split
  · have first := formed _ rfl
    exact yields_seq rest fun others othersFormed =>
      yields_unit ⟨List.forall_mem_append.mpr ⟨first.1, othersFormed.1⟩,
        List.forall_mem_append.mpr ⟨first.2, othersFormed.2⟩⟩
  · exact yields_seq (yields_modify synchronize_lexed) fun _ _ => rest

theorem yields_program_at (fuel : Nat) : Yields PartsFormed (programAt fuel) := by
  induction fuel with
  | zero => exact yields_out_of_steps
  | succ fuel ih =>
    refine yields_seq (yields_skip _) fun _ _ => ?_
    refine yields_seq yields_get fun cursor _ => ?_
    dsimp only
    split
    · exact yields_unit no_parts_formed
    · exact yields_part ih (yields_seq (yields_routine .sub (by decide)) fun _ formed =>
        yields_unit ⟨no_parts_formed.1, by simpa using formed⟩)
    · exact yields_part ih (yields_seq (yields_routine .function (by decide)) fun _ formed =>
        yields_unit ⟨no_parts_formed.1, by simpa using formed⟩)
    · exact yields_part ih (yields_seq yields_stmt fun _ formed =>
        yields_unit ⟨by simpa using formed, no_parts_formed.2⟩)

end Reader

theorem parse_well_formed {tokens : List Token} (lexed : ∀ token ∈ tokens, token.Lexed)
    {program : Program} (parsed : parse tokens = .ok program) : program.WellFormed := by
  have yields := Reader.yields_program_at (tokens.length + 1) (Cursor.ofTokens tokens) lexed
  rcases ran : (Reader.programAt (tokens.length + 1)).run (Cursor.ofTokens tokens) with ⟨found, cursor⟩
  simp only [parse, ran] at parsed
  split at parsed
  · next stmts procedures _ =>
    have formed := yields.2 _ (congrArg Prod.fst ran)
    cases parsed
    exact ⟨Block.of_list_well_formed stmts formed.1, formed.2⟩
  · cases parsed

end BasicLang
