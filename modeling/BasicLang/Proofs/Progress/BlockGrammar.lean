import BasicLang.Proofs.Progress.StmtGrammar
import BasicLang.Syntax.BlockGrammar

set_option autoImplicit false

namespace BasicLang

namespace Reader

variable {quiet short : Prop}

theorem reads_simple_stmt (token : Token) (cursor : Cursor) :
    ReadsAt quiet short (fun _ => cursor.advance.rest.length + 1) cursor (simpleStmt token) := by
  have after {reader : Reader Stmt} (plain : Plain reader) :
      ReadsAt quiet short (fun _ => cursor.advance.rest.length + 1) cursor (do
        advance
        reader) :=
    reads_advance (plain.reads _)
  unfold simpleStmt
  split
  · exact after (plain_unit _)
  · exact after (plain_unit _)
  · refine reads_get ?_
    split
    · exact after (plain_seq (plain_symbol _) fun _ => plain_unit _)
    · exact reads_fail (by simp)
  · exact reads_within (reads_named _ cursor) fun _ => by simp; omega
  · exact reads_fail (by simp)
  · exact reads_fail (by simp)
  · dsimp only
    split
    · exact after plain_print
    · exact after plain_input
    · exact after plain_line_input
    · exact after plain_open_file
    · exact after plain_close
    · exact after plain_write
    · exact after plain_let
    · exact after plain_dim
    · exact after plain_redim
    · exact after plain_const
    · exact after (plain_map plain_label_name)
    · exact after (plain_map plain_label_name)
    · exact after (plain_unit _)
    · exact after plain_exit
    · exact after (plain_stop _)
    · exact after plain_on_event
    · exact after (plain_map (plain_comma_list plain_data_item))
    · exact after (plain_map plain_targets)
    · exact after plain_restore
    · exact after (plain_type_def _)
    · exact after plain_declare
    · exact after plain_call
    · split
      · exact after (plain_map (plain_comma_list (plain_letter_range _)))
      · split
        · exact after (plain_map plain_call_arguments)
        · exact reads_fail (by simp)
  · exact reads_fail (by simp)

mutual

theorem reads_stmt_at (fuel : Nat) (cursor : Cursor) (enough : fuel < 4 * cursor.rest.length + 1 → short) :
    ReadsAt False short (fun _ => cursor.rest.length) cursor (stmtAt fuel) := by
  cases fuel with
  | zero => exact reads_out_of_steps (enough (by omega))
  | succ fuel =>
    refine reads_get ?_
    split
    · exact reads_fail_expected _
    · next token rest next =>
      have moved : cursor.advance.rest.length + 1 = cursor.rest.length := by simp [next]
      have after {reader : Reader Stmt}
          (reads : ReadsAt False short (fun _ => cursor.advance.rest.length + 1) cursor.advance reader) :
          ReadsAt False short (fun _ => cursor.rest.length) cursor (do
            advance
            return (token.locus, ← reader)) :=
        reads_advance (reads_seq reads fun stmt last fewer => reads_unit (by omega))
      split
      · exact after (reads_cond_at _ fuel _ fun few => enough (by omega))
      · exact after (reads_select_at _ fuel _ fun few => enough (by omega))
      · exact after (reads_for_at _ fuel _ fun few => enough (by omega))
      · exact after (reads_while_at _ fuel _ fun few => enough (by omega))
      · exact after (reads_do_at _ fuel _ fun few => enough (by omega))
      · exact reads_seq (reads_simple_stmt token cursor) fun stmt last fewer => reads_unit (by omega)
termination_by fuel

theorem reads_block_at (isEnd : Cursor → Bool) (fuel : Nat) (cursor : Cursor)
    (enough : fuel < 4 * cursor.rest.length + 2 → short) :
    ReadsAt False short (fun _ => cursor.rest.length + 1) cursor (blockAt isEnd fuel) := by
  cases fuel with
  | zero => exact reads_out_of_steps (enough (by omega))
  | succ fuel =>
    refine reads_skip fun start skipped => reads_get ?_
    have others (after : Cursor) (fewer : after.rest.length < start.rest.length) :
        ReadsAt False short (fun _ => cursor.rest.length + 1) after (blockAt isEnd fuel) :=
      reads_within (reads_block_at isEnd fuel after fun few => enough (by omega)) fun _ => by omega
    split
    · exact reads_unit (by omega)
    · next more =>
      split
      · exact reads_unit (by omega)
      · refine reads_attempt (reads_stmt_at fuel start fun few => enough (by omega)) (fun stmt read fewer => ?_)
          fun failed behind => reads_synchronize (others _ (synchronize_passes (by simpa using more) behind))
        exact reads_seq (others read fewer) fun block after fewerAfter => reads_unit fewerAfter
termination_by fuel

theorem reads_cond_at (locus : Locus) (fuel : Nat) (cursor : Cursor)
    (enough : fuel < 4 * cursor.rest.length + 1 → short) :
    ReadsAt False short (fun _ => cursor.rest.length + 1) cursor (condAt locus fuel) := by
  cases fuel with
  | zero => exact reads_out_of_steps (enough (by omega))
  | succ fuel =>
    refine reads_seq (reads_expr cursor) fun condition tested fewer => reads_at_keyword ?_
    split
    · refine reads_seq (reads_stmt_at fuel tested fun few => enough (by omega)) fun jump jumped fewerStill => ?_
      refine reads_seq (reads_line_else_at fuel jumped fun few => enough (by omega)) fun _ after fewerAfter => ?_
      exact reads_unit (by omega)
    · refine reads_seq (reads_expect_keyword _ _) fun _ marked fewerMarked => reads_get ?_
      split
      · refine reads_seq (reads_block_at _ fuel marked fun few => enough (by omega)) fun body read fewerRead => ?_
        refine reads_seq (reads_arms_at locus body.2 fuel read fun few => enough (by omega))
          fun _ after fewerAfter => reads_unit (by omega)
      · refine reads_seq (reads_line_branch_at fuel marked fun few => enough (by omega))
          fun body read fewerRead => ?_
        refine reads_seq (reads_line_else_at fuel read fun few => enough (by omega))
          fun _ after fewerAfter => reads_unit (by omega)
termination_by fuel

theorem reads_arms_at (locus : Locus) (found : Bool) (fuel : Nat) (cursor : Cursor)
    (enough : fuel < 4 * cursor.rest.length + 1 → short) :
    ReadsAt False short (fun _ => cursor.rest.length + 1) cursor (armsAt locus found fuel) := by
  cases fuel with
  | zero => exact reads_out_of_steps (enough (by omega))
  | succ fuel =>
    have closing (cursor : Cursor) (arms : Arms) :
        ReadsAt False short (fun _ => cursor.rest.length + 1) cursor (do
          advance
          advance
          return arms) :=
      (plain_seq plain_advance fun _ => plain_seq plain_advance fun _ => plain_unit _).reads cursor
    unfold armsAt
    split
    · exact reads_fail (by simp)
    · refine reads_accept (fun elseIf fewer => ?_) (reads_accept (fun otherwise fewer => ?_) ?_)
      · refine reads_seq (reads_expr elseIf) fun condition tested fewerTested => ?_
        refine reads_seq (reads_expect_keyword _ _) fun _ marked fewerMarked => ?_
        refine reads_seq (reads_block_at _ fuel marked fun few => enough (by omega)) fun body read fewerRead => ?_
        refine reads_seq (reads_arms_at locus body.2 fuel read fun few => enough (by omega))
          fun _ after fewerAfter => reads_unit (by omega)
      · refine reads_seq (reads_block_at _ fuel otherwise fun few => enough (by omega)) fun body read fewerRead => ?_
        obtain ⟨body, foundEnd⟩ := body
        cases foundEnd with
        | true => exact reads_within (closing read _) fun _ => by omega
        | false => exact reads_refused (by simp)
      · exact closing cursor _
termination_by fuel

theorem reads_line_branch_at (fuel : Nat) (cursor : Cursor)
    (enough : fuel < 4 * cursor.rest.length + 2 → short) :
    ReadsAt False short (fun _ => cursor.rest.length + 1) cursor (lineBranchAt fuel) := by
  cases fuel with
  | zero => exact reads_out_of_steps (enough (by omega))
  | succ fuel =>
    have stmts : ReadsAt False short (fun _ => cursor.rest.length + 1) cursor (do
        let (locus, stmt) ← stmtAt fuel
        return Block.cons locus stmt (← lineRestAt fuel)) := by
      refine reads_seq (reads_stmt_at fuel cursor fun few => enough (by omega)) fun stmt read fewer => ?_
      refine reads_seq (reads_line_rest_at fuel read fun few => enough (by omega))
        fun others after fewerAfter => reads_unit (by omega)
    refine reads_get ?_
    split
    · split
      · exact (plain_seq plain_advance fun _ => plain_unit _).reads cursor
      · exact stmts
    · exact stmts
termination_by fuel

theorem reads_line_rest_at (fuel : Nat) (cursor : Cursor)
    (enough : fuel < 4 * cursor.rest.length + 1 → short) :
    ReadsAt False short (fun _ => cursor.rest.length + 1) cursor (lineRestAt fuel) := by
  cases fuel with
  | zero => exact reads_out_of_steps (enough (by omega))
  | succ fuel =>
    refine reads_accept (fun behind fewer => reads_get ?_) (reads_unit (Nat.lt_succ_self _))
    split
    · exact reads_unit (by omega)
    · exact reads_unit (by omega)
    · exact reads_unit (by omega)
    · refine reads_seq (reads_stmt_at fuel behind fun few => enough (by omega)) fun stmt read fewerRead => ?_
      refine reads_seq (reads_line_rest_at fuel read fun few => enough (by omega))
        fun others after fewerAfter => reads_unit (by omega)
termination_by fuel

theorem reads_line_else_at (fuel : Nat) (cursor : Cursor)
    (enough : fuel < 4 * cursor.rest.length + 1 → short) :
    ReadsAt False short (fun _ => cursor.rest.length + 1) cursor (lineElseAt fuel) := by
  cases fuel with
  | zero => exact reads_out_of_steps (enough (by omega))
  | succ fuel =>
    refine reads_accept (fun behind fewer => ?_) (reads_unit (Nat.lt_succ_self _))
    exact reads_seq (reads_line_branch_at fuel behind fun few => enough (by omega))
      fun body after fewerAfter => reads_unit (by omega)
termination_by fuel

theorem reads_select_at (locus : Locus) (fuel : Nat) (cursor : Cursor)
    (enough : fuel < 4 * cursor.rest.length + 1 → short) :
    ReadsAt False short (fun _ => cursor.rest.length + 1) cursor (selectAt locus fuel) := by
  cases fuel with
  | zero => exact reads_out_of_steps (enough (by omega))
  | succ fuel =>
    refine reads_seq (reads_expect_keyword _ _) fun _ marked fewer => ?_
    refine reads_seq (reads_expr marked) fun test tested fewerTested => ?_
    exact reads_seq (reads_cases_at locus fuel tested fun few => enough (by omega))
      fun cases after fewerAfter => reads_unit (by omega)
termination_by fuel

theorem reads_cases_at (locus : Locus) (fuel : Nat) (cursor : Cursor)
    (enough : fuel < 4 * cursor.rest.length + 1 → short) :
    ReadsAt False short (fun _ => cursor.rest.length + 1) cursor (casesAt locus fuel) := by
  cases fuel with
  | zero => exact reads_out_of_steps (enough (by omega))
  | succ fuel =>
    refine reads_skip fun start skipped => reads_get ?_
    split
    · exact reads_fail (by simp)
    · split
      · have closing := (plain_seq plain_advance fun _ => plain_seq plain_advance fun _ => plain_unit Cases.none)
        exact reads_within (closing.reads start) fun _ => by omega
      · refine reads_seq (reads_expect _ _) fun token clause fewer =>
          reads_accept (fun otherwise fewerElse => ?_) ?_
        · refine reads_seq (reads_block_at _ fuel otherwise fun few => enough (by omega))
            fun body read fewerRead => ?_
          exact reads_seq (reads_cases_at locus fuel read fun few => enough (by omega))
            fun cases after fewerAfter => reads_unit (by omega)
        · refine reads_seq ((plain_comma_list plain_case_match).reads clause) fun patterns matched fewerMatched => ?_
          refine reads_seq (reads_block_at _ fuel matched fun few => enough (by omega))
            fun body read fewerRead => ?_
          exact reads_seq (reads_cases_at locus fuel read fun few => enough (by omega))
            fun cases after fewerAfter => reads_unit (by omega)
termination_by fuel

theorem reads_for_at (locus : Locus) (fuel : Nat) (cursor : Cursor)
    (enough : fuel < 4 * cursor.rest.length + 3 → short) :
    ReadsAt False short (fun _ => cursor.rest.length + 1) cursor (forAt locus fuel) := by
  cases fuel with
  | zero => exact reads_out_of_steps (enough (by omega))
  | succ fuel =>
    refine reads_seq (plain_for_header.reads cursor) fun header headed fewer => ?_
    refine reads_seq (reads_block_at _ fuel headed fun few => enough (by omega)) fun body read fewerRead => ?_
    obtain ⟨body, closed⟩ := body
    cases closed with
    | true =>
      have closing := plain_seq plain_advance fun _ => plain_seq plain_next_counter fun next =>
        plain_unit (Stmt.forLoop header.1 header.2.1 header.2.2.1 header.2.2.2 body next)
      exact reads_within (closing.reads read) fun _ => by omega
    | false => exact reads_refused (by simp)
termination_by fuel

theorem reads_while_at (locus : Locus) (fuel : Nat) (cursor : Cursor)
    (enough : fuel < 4 * cursor.rest.length + 1 → short) :
    ReadsAt False short (fun _ => cursor.rest.length + 1) cursor (whileAt locus fuel) := by
  cases fuel with
  | zero => exact reads_out_of_steps (enough (by omega))
  | succ fuel =>
    refine reads_seq (reads_expr cursor) fun condition tested fewer => ?_
    refine reads_seq (reads_block_at _ fuel tested fun few => enough (by omega)) fun body read fewerRead => ?_
    obtain ⟨body, closed⟩ := body
    cases closed with
    | true =>
      have closing := plain_seq plain_advance fun _ => plain_unit (Stmt.whileLoop condition body)
      exact reads_within (closing.reads read) fun _ => by omega
    | false => exact reads_refused (by simp)
termination_by fuel

theorem reads_do_at (locus : Locus) (fuel : Nat) (cursor : Cursor)
    (enough : fuel < 4 * cursor.rest.length + 3 → short) :
    ReadsAt False short (fun _ => cursor.rest.length + 1) cursor (doAt locus fuel) := by
  cases fuel with
  | zero => exact reads_out_of_steps (enough (by omega))
  | succ fuel =>
    refine reads_seq (plain_loop_condition.reads cursor) fun before tested fewer => ?_
    refine reads_seq (reads_block_at _ fuel tested fun few => enough (by omega)) fun body read fewerRead => ?_
    obtain ⟨body, closed⟩ := body
    cases closed with
    | true =>
      refine reads_within (Plain.reads (plain_seq plain_advance fun _ =>
        plain_seq plain_loop_condition fun after => ?_) read) fun _ => by omega
      split
      · exact plain_refused (by simp)
      · exact plain_unit _
    | false => exact reads_refused (by simp)
termination_by fuel

end

theorem reads_stmt_fuel {α : Type} {limit : α → Nat} {cursor : Cursor} {next : Nat → Reader α}
    (readsNext : ReadsAt quiet short limit cursor (next (4 * cursor.rest.length + 4))) :
    ReadsAt quiet short limit cursor (stmtFuel >>= next) := readsNext

theorem reads_stmt (cursor : Cursor) : ReadsAt False short (fun _ => cursor.rest.length) cursor stmt :=
  reads_stmt_fuel (reads_stmt_at _ cursor fun few => by omega)

theorem reads_procedure_body (kind : RoutineKind) (locus : Locus) (headed : Bool) (cursor : Cursor) :
    ReadsAt False short (fun _ => cursor.rest.length + 1) cursor (procedureBody kind locus headed) := by
  refine reads_when (plain_skip _) fun start behind => reads_get ?_
  refine reads_when plain_advance fun inside behindStatic => reads_stmt_fuel ?_
  refine reads_seq (reads_block_at _ _ inside fun few => by omega) fun body read fewer => ?_
  obtain ⟨body, closed⟩ := body
  cases closed with
  | true =>
    have closing := plain_seq plain_advance fun _ => plain_seq plain_advance fun _ => plain_unit body
    exact reads_within (closing.reads read) fun _ => by omega
  | false => exact reads_refused (by split <;> simp)

theorem reads_routine (kind : RoutineKind) (cursor : Cursor) :
    ReadsAt False short (fun _ => cursor.advance.rest.length + 1) cursor (routine kind) := by
  refine reads_get (reads_advance ?_)
  have headed : ReadsAt False short _ cursor.advance (header kind) := (plain_header kind).reads cursor.advance
  unfold ReadsAt at headed ⊢
  rw [run_seq, run_attempt]
  revert headed
  rcases ((header kind).run).run cursor.advance with ⟨found, after⟩
  intro headed
  have rest : ReadsAt False short _ after (procedureBody kind cursor.locus found.isSome) :=
    reads_procedure_body _ _ _ after
  unfold ReadsAt at rest
  dsimp only
  rw [run_seq]
  revert rest
  rcases ((procedureBody kind cursor.locus found.isSome).run).run after with ⟨_ | body, last⟩
  all_goals intro rest; have both := headed.andThen rest False.elim
  · exact ⟨both.forward, both.reported, fun _ => both.refused rfl, False.elim, nofun⟩
  · cases found with
    | none =>
      have grown : cursor.advance.errors.length < last.errors.length :=
        Nat.lt_of_lt_of_le (headed.refused rfl) rest.grown
      exact ⟨both.forward, both.reported, fun _ => grown, False.elim, nofun⟩
    | some line =>
      have shorter : last.rest.length < cursor.advance.rest.length + 1 :=
        Nat.lt_succ_of_le both.forward.length_le
      exact ⟨both.forward, both.reported, nofun, False.elim, fun _ _ => shorter⟩

theorem reads_routine_part (kind : RoutineKind) {cursor : Cursor} (more : cursor.rest ≠ []) :
    ReadsAt False short (fun _ => cursor.rest.length) cursor
      (do return (([] : List (Locus × Stmt)), [← routine kind])) := by
  have moved := advance_length more
  exact reads_seq (reads_routine kind cursor) fun _ _ fewer => reads_unit (by omega)

theorem reads_stmt_part (cursor : Cursor) :
    ReadsAt False short (fun _ => cursor.rest.length) cursor (do return ([← stmt], ([] : List Routine))) :=
  reads_seq (reads_stmt cursor) fun _ _ fewer => reads_unit fewer

theorem reads_part {fuel : Nat} {cursor : Cursor} {reader : Reader (List (Locus × Stmt) × List Routine)}
    (more : cursor.rest ≠ []) (reads : ReadsAt False short (fun _ => cursor.rest.length) cursor reader)
    (rest : ∀ after : Cursor, after.rest.length < cursor.rest.length →
      ReadsAt False short (fun _ => 1) after (programAt fuel)) :
    ReadsAt False short (fun _ => 1) cursor (do
      match ← attempt reader with
      | some (stmts, routines) =>
        let (otherStmts, otherRoutines) ← programAt fuel
        return (stmts ++ otherStmts, routines ++ otherRoutines)
      | none =>
        modify Cursor.synchronize
        programAt fuel) := by
  refine reads_attempt reads (fun part after fewer => ?_) fun after behind => reads_synchronize (rest _ ?_)
  · exact reads_seq (rest after fewer) fun others last fewerLast => reads_unit fewerLast
  · exact synchronize_passes more behind

theorem reads_program_at (fuel : Nat) (cursor : Cursor) (enough : fuel ≤ cursor.rest.length → short) :
    ReadsAt False short (fun _ => 1) cursor (programAt fuel) := by
  induction fuel generalizing cursor with
  | zero => exact reads_out_of_steps (enough (Nat.zero_le _))
  | succ fuel ih =>
    refine reads_skip fun start skipped => reads_get ?_
    have rest (after : Cursor) (fewer : after.rest.length < start.rest.length) :
        ReadsAt False short (fun _ => 1) after (programAt fuel) := ih after fun few => enough (by omega)
    dsimp only
    split
    · next ends => exact reads_unit (by simp [no_kind ends])
    · next kind => exact reads_part (kind_more kind) (reads_routine_part .sub (kind_more kind)) rest
    · next kind => exact reads_part (kind_more kind) (reads_routine_part .function (kind_more kind)) rest
    · next _ _ _ kind => exact reads_part (kind_more kind) (reads_stmt_part start) rest

end Reader

end BasicLang
