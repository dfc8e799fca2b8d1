import BasicLang.Proofs.Progress.Reader
import BasicLang.Syntax.ExprGrammar

set_option autoImplicit false

namespace BasicLang

namespace Reader

variable {quiet short : Prop}

theorem found_kind {cursor : Cursor} {operator : BinaryOperator}
    (next : cursor.kind? >>= BinaryOperator.ofKind? = some operator) : cursor.rest ≠ [] := by
  intro empty
  simp [Cursor.kind?, empty] at next

theorem reads_members (object : Expr) (fuel : Nat) (cursor : Cursor)
    (enough : fuel ≤ cursor.rest.length → short) :
    ReadsAt quiet short (fun _ => cursor.rest.length + 1) cursor (members object fuel) := by
  induction fuel generalizing object cursor with
  | zero => exact reads_out_of_steps (enough (Nat.zero_le _))
  | succ fuel ih =>
    refine reads_accept (fun named fewer => ?_) (reads_unit (Nat.lt_succ_self _))
    refine reads_seq (reads_expect_name _) fun found after fewerStill => ?_
    have deeper := ih (.member object found.1 ⟨object.locus, none⟩) after fun few => enough (by omega)
    exact reads_within deeper fun _ => by omega

theorem run_fail_operand {α : Type} (cursor : Cursor) :
    ((failOperand : Reader α).run).run cursor =
      let recorded := cursor.recordExpected "expression"
      (none, if recorded.isAtStatementEnd then recorded else recorded.advance) := by
  unfold failOperand
  rw [run_modify, run_get]
  by_cases ends : (cursor.recordExpected "expression").isAtStatementEnd = true
  · simp only [ends, if_true]
    rfl
  · simp only [ends]
    rfl

theorem reads_fail_operand {α : Type} {limit : α → Nat} (cursor : Cursor) :
    ReadsAt quiet short limit cursor (failOperand : Reader α) := by
  obtain ⟨error, grown, other⟩ := cursor.record_expected_errors "expression"
  have rest := cursor.record_expected_rest "expression"
  have fails (after : Cursor) (forward : after.rest <:+ cursor.rest) (same : after.errors = error :: cursor.errors) :
      Outcome quiet short limit cursor none after := {
    forward
    reported := ⟨[error], same, by simpa using fun isOut => (other isOut).elim⟩
    refused := fun _ => by simp [same]
    silent := fun _ some => (some rfl).elim
    moved := nofun }
  unfold ReadsAt
  rw [run_fail_operand]
  dsimp only
  split
  · exact fails _ (by simp [rest]) grown
  · exact fails _ (by simp [rest, List.tail_suffix]) (by simp [grown])

theorem literal_error {token : Token} {kind : ParseErrorKind}
    (read : Literal.ofToken? token = some (.error kind)) : kind ≠ .outOfSteps := by
  rintro rfl
  simp only [Literal.ofToken?, Literal.ofInteger, Literal.ofRadix] at read
  split at read
  all_goals simp only [Option.some.injEq, reduceCtorEq] at read
  all_goals repeat' split at read
  all_goals cases read

mutual

theorem reads_expr_above (least fuel : Nat) (cursor : Cursor)
    (enough : fuel < 4 * cursor.rest.length + 3 → short) :
    ReadsAt quiet short (fun _ => cursor.rest.length) cursor (exprAbove least fuel) := by
  cases fuel with
  | zero => exact reads_out_of_steps (enough (by omega))
  | succ fuel =>
    refine reads_seq (reads_operand fuel cursor fun few => enough (by omega)) fun left after fewer => ?_
    exact reads_within (reads_operators least left fuel after fun few => enough (by omega)) fun _ => fewer
termination_by fuel

theorem reads_operators (least : Nat) (left : Expr) (fuel : Nat) (cursor : Cursor)
    (enough : fuel < 4 * cursor.rest.length + 1 → short) :
    ReadsAt quiet short (fun _ => cursor.rest.length + 1) cursor (operators least left fuel) := by
  cases fuel with
  | zero => exact reads_out_of_steps (enough (by omega))
  | succ fuel =>
    refine reads_get ?_
    split
    · next operator next =>
      have moved : cursor.advance.rest.length + 1 = cursor.rest.length := advance_length (found_kind next)
      split
      · refine reads_advance (reads_seq (reads_expr_above _ fuel _ fun few => enough (by omega))
          fun right after fewer => ?_)
        exact reads_within (reads_operators least _ fuel after fun few => enough (by omega)) fun _ => by omega
      · exact reads_unit (Nat.lt_succ_self _)
    · exact reads_unit (Nat.lt_succ_self _)
termination_by fuel

theorem reads_operand (fuel : Nat) (cursor : Cursor) (enough : fuel < 4 * cursor.rest.length + 2 → short) :
    ReadsAt quiet short (fun _ => cursor.rest.length) cursor (operand fuel) := by
  cases fuel with
  | zero => exact reads_out_of_steps (enough (by omega))
  | succ fuel =>
    refine reads_get ?_
    split
    · exact reads_fail_expected _
    · next token rest next =>
      have moved : cursor.advance.rest.length + 1 = cursor.rest.length := by simp [next]
      have inner (least : Nat) :
          ReadsAt quiet short (fun _ => cursor.advance.rest.length) cursor.advance (exprAbove least fuel) :=
        reads_expr_above least fuel _ fun few => enough (by omega)
      split
      · exact reads_advance (reads_unit (by omega))
      · next kind read =>
        exact reads_advance (reads_fail fun isOut => (literal_error read isOut).elim)
      · split
        · exact reads_reference_at fuel cursor fun few => enough (by omega)
        · exact reads_advance (reads_seq (inner _) fun _ after fewer =>
            reads_seq (reads_expect_symbol _ _) fun _ _ _ => reads_unit (by omega))
        · exact reads_advance (reads_seq (inner _) fun _ after fewer => reads_unit (by omega))
        · exact reads_advance (reads_within (inner _) fun _ => by omega)
        · exact reads_advance (reads_seq (inner _) fun _ after fewer => reads_unit (by omega))
        · exact reads_fail_operand cursor
termination_by fuel

theorem reads_reference_at (fuel : Nat) (cursor : Cursor) (enough : fuel < 4 * cursor.rest.length + 1 → short) :
    ReadsAt quiet short (fun _ => cursor.rest.length) cursor (referenceAt fuel) := by
  cases fuel with
  | zero => exact reads_out_of_steps (enough (by omega))
  | succ fuel =>
    refine reads_seq (reads_expect_name _) fun found after fewer => ?_
    obtain ⟨name, locus⟩ := found
    refine reads_accept (fun opened fewerOpened => ?_) ?_
    · refine reads_seq (reads_arguments_at fuel opened fun few => enough (by omega)) fun arguments last fewerLast =>
        reads_seq (reads_expect_symbol _ _) fun _ closed fewerClosed => ?_
      exact reads_within (reads_members _ (fuel + 1) closed fun few => enough (by omega)) fun _ => by omega
    · exact reads_within (reads_members _ (fuel + 1) after fun few => enough (by omega)) fun _ => by omega
termination_by fuel

theorem reads_arguments_at (fuel : Nat) (cursor : Cursor) (enough : fuel < 4 * cursor.rest.length + 4 → short) :
    ReadsAt quiet short (fun _ => cursor.rest.length + 1) cursor (argumentsAt fuel) := by
  cases fuel with
  | zero => exact reads_out_of_steps (enough (by omega))
  | succ fuel =>
    refine reads_at_symbol ?_
    split
    · exact reads_unit (Nat.lt_succ_self _)
    · exact reads_seq (reads_expr_above _ fuel cursor fun few => enough (by omega)) fun first after fewer =>
        reads_seq (reads_further_arguments fuel after fun few => enough (by omega)) fun others last fewerLast =>
          reads_unit (by omega)
termination_by fuel

theorem reads_further_arguments (fuel : Nat) (cursor : Cursor)
    (enough : fuel < 4 * cursor.rest.length + 1 → short) :
    ReadsAt quiet short (fun _ => cursor.rest.length + 1) cursor (furtherArguments fuel) := by
  cases fuel with
  | zero => exact reads_out_of_steps (enough (by omega))
  | succ fuel =>
    refine reads_accept (fun behind fewerBehind => ?_) (reads_unit (Nat.lt_succ_self _))
    exact reads_seq (reads_expr_above _ fuel behind fun few => enough (by omega)) fun first after fewer =>
      reads_seq (reads_further_arguments fuel after fun few => enough (by omega)) fun others last fewerLast =>
        reads_unit (by omega)
termination_by fuel

end

theorem reads_expr_fuel {α : Type} {limit : α → Nat} {cursor : Cursor} {next : Nat → Reader α}
    (readsNext : ReadsAt quiet short limit cursor (next (4 * cursor.rest.length + 4))) :
    ReadsAt quiet short limit cursor (exprFuel >>= next) := readsNext

theorem reads_expr (cursor : Cursor) : ReadsAt quiet short (fun _ => cursor.rest.length) cursor expr :=
  reads_expr_fuel (reads_expr_above _ _ cursor fun few => by omega)

theorem reads_reference (cursor : Cursor) :
    ReadsAt quiet short (fun _ => cursor.rest.length) cursor reference :=
  reads_expr_fuel (reads_reference_at _ cursor fun few => by omega)

theorem plain_expr : Plain expr := fun cursor => reads_within (reads_expr cursor) fun _ => Nat.le_succ _

theorem plain_reference : Plain reference :=
  fun cursor => reads_within (reads_reference cursor) fun _ => Nat.le_succ _

theorem plain_arguments : Plain arguments := 
  fun cursor => reads_expr_fuel (reads_arguments_at _ cursor fun few => by omega)

theorem reads_after_commas {α : Type} {reader : Reader α} (plain : Plain reader) (fuel : Nat) (cursor : Cursor)
    (enough : fuel ≤ cursor.rest.length → short) :
    ReadsAt quiet short (fun _ => cursor.rest.length + 1) cursor (afterCommas reader fuel) := by
  induction fuel generalizing cursor with
  | zero => exact reads_out_of_steps (enough (Nat.zero_le _))
  | succ fuel ih =>
    refine reads_accept (fun behind fewerBehind => ?_) (reads_unit (Nat.lt_succ_self _))
    exact reads_seq (plain.reads behind) fun first after fewer =>
      reads_seq (ih after fun few => enough (by omega)) fun others last fewerLast => reads_unit (by omega)

theorem plain_after_commas {α β : Type} {reader : Reader α} (plain : Plain reader)
    {next : List α → Reader β} (plainNext : ∀ found, Plain (next found)) :
    Plain (do next (← afterCommas reader ((← get).rest.length + 1))) :=
  fun cursor => reads_get (reads_seq (reads_after_commas plain _ cursor fun few => by omega)
    fun found after fewer => reads_within (plainNext found after) fun _ => fewer)

theorem plain_comma_list {α : Type} {reader : Reader α} (plain : Plain reader) : Plain (commaList reader) :=
  plain_seq plain fun _ => plain_after_commas plain fun _ => plain_unit _

end Reader

end BasicLang
