import BasicLang.Proofs.Progress.ExprGrammar
import BasicLang.Syntax.StmtGrammar

set_option autoImplicit false

namespace BasicLang

namespace Reader

variable {quiet short : Prop}

theorem plain_type_spec : Plain typeSpec := by
  refine plain_get fun cursor => ?_
  split
  · exact plain_fail_expected _
  · dsimp only
    split
    · exact plain_fail_expected _
    · refine plain_seq plain_advance fun _ => ?_
      split
      · refine plain_seq (plain_symbol _) fun accepted => ?_
        split
        · exact plain_seq (plain_expect _ _) fun _ => plain_unit _
        · exact plain_unit _
      · exact plain_unit _

theorem plain_as_type : Plain asType := by
  refine plain_seq (plain_keyword _) fun accepted => ?_
  split
  · exact plain_map plain_type_spec
  · exact plain_unit _

theorem plain_call_arguments : Plain callArguments := by
  refine plain_get fun cursor => ?_
  split
  · exact plain_unit _
  · refine plain_seq (plain_comma_list plain_expr) fun found => plain_get fun cursor => ?_
    split
    · exact plain_refusal
    · exact plain_unit _

theorem plain_file_number : Plain fileNumber := by
  refine plain_seq (plain_symbol _) fun accepted => ?_
  split
  · exact plain_seq plain_expr fun number => plain_seq (plain_expect_symbol _ _) fun _ => plain_unit _
  · exact plain_unit _

theorem reads_print_items (read : List PrintItem) (fuel : Nat) (cursor : Cursor)
    (enough : fuel ≤ cursor.rest.length → short) :
    ReadsAt quiet short (fun _ => cursor.rest.length + 1) cursor (printItems read fuel) := by
  induction fuel generalizing read cursor with
  | zero => exact reads_out_of_steps (enough (Nat.zero_le _))
  | succ fuel ih =>
    have behind (read : List PrintItem) (after : Cursor) (fewer : after.rest.length < cursor.rest.length) :
        ReadsAt quiet short (fun _ => cursor.rest.length + 1) after (printItems read fuel) :=
      reads_within (ih read after fun few => enough (by omega)) fun _ => by omega
    refine reads_get ?_
    split
    · exact reads_unit (Nat.lt_succ_self _)
    · refine reads_accept (behind _) (reads_accept (behind _) ?_)
      exact reads_seq (reads_expr cursor) fun item => behind _

theorem plain_print : Plain print := by
  refine plain_seq plain_file_number fun file => ?_
  have rest (format : Option Expr) : Plain (do
      let items ← printItems [] ((← get).rest.length + 1)
      return Stmt.print file format items (items.getLast?.all (·.separator.isNone))) :=
    fun cursor => reads_get (reads_seq (reads_print_items [] _ cursor fun few => by omega)
      fun items after fewer => reads_unit fewer)
  refine plain_seq (plain_keyword _) fun accepted => ?_
  split
  · exact plain_seq plain_expr fun format => plain_seq (plain_expect_symbol _ _) fun _ => rest _
  · exact rest _

theorem plain_let : Plain letStmt :=
  plain_seq plain_reference fun _ => plain_seq (plain_expect_symbol _ _) fun _ => plain_map plain_expr

theorem reads_named (name : String) (cursor : Cursor) :
    ReadsAt quiet short (fun _ => cursor.rest.length) cursor (named name) := by
  refine reads_get ?_
  split
  · next isLabel =>
    have colon := at_kind_more isLabel.2
    simp only [Cursor.advance_rest] at colon
    refine reads_advance (reads_advance (reads_unit ?_))
    cases next : cursor.rest with
    | nil => simp [next] at colon
    | cons token rest => simp only [Cursor.advance_rest, next, List.tail_cons, List.length_cons, List.length_tail]; omega
  · refine reads_seq (reads_reference cursor) fun target after fewer => ?_
    refine reads_within (Plain.reads (plain_seq (plain_symbol _) fun accepted => ?_) after) fun _ => fewer
    split
    · exact plain_map plain_expr
    · split
      · exact plain_map plain_call_arguments
      · refine plain_after_commas plain_expr fun others => plain_get fun cursor => ?_
        split
        · exact plain_refusal
        · exact plain_unit _
      · exact plain_fail_expected _

theorem plain_call : Plain call := by
  refine plain_seq (plain_expect_name _) fun found => plain_seq (plain_symbol _) fun accepted => ?_
  split
  · exact plain_seq plain_arguments fun _ => plain_seq (plain_expect_symbol _ _) fun _ => plain_unit _
  · exact plain_map plain_call_arguments

theorem plain_dimension : Plain dimension := by
  refine plain_seq plain_expr fun first => plain_seq (plain_keyword _) fun accepted => ?_
  split
  · exact plain_map plain_expr
  · exact plain_unit _

theorem plain_var_decl : Plain varDecl := by
  refine plain_seq (plain_expect_name _) fun found => plain_seq (plain_symbol _) fun isArray => ?_
  obtain ⟨name, locus⟩ := found
  have rest (dimensions : List Dimension) : Plain (do
      return ({ name, dimensions, isArray, typeSpec := ← asType, locus } : VarDecl)) :=
    plain_map plain_as_type
  have closed (dimensions : List Dimension) : Plain (do
      expectSymbol .rightParen ")"
      return ({ name, dimensions, isArray, typeSpec := ← asType, locus } : VarDecl)) :=
    plain_seq (plain_expect_symbol _ _) fun _ => rest dimensions
  split
  · refine plain_seq (plain_at_symbol _) fun closes => ?_
    dsimp only
    split
    · exact closed []
    · exact plain_seq (plain_comma_list plain_dimension) closed
  · exact rest []

theorem plain_dim : Plain dim :=
  plain_seq (plain_keyword _) fun _ => plain_map (plain_comma_list plain_var_decl)

theorem plain_redim : Plain redim :=
  plain_seq (plain_keyword _) fun _ => plain_map (plain_comma_list plain_var_decl)

theorem plain_const : Plain const :=
  plain_seq (plain_expect_name _) fun _ => plain_seq (plain_expect_symbol _ _) fun _ => plain_map plain_expr

theorem plain_letter : Plain letter := by
  refine plain_seq (plain_expect_name _) fun found => ?_
  obtain ⟨name, locus⟩ := found
  dsimp only
  split
  · split
    · exact plain_unit _
    · exact plain_fail _ (by simp)
  · exact plain_fail _ (by simp)

theorem plain_letter_range (locus : Locus) : Plain (letterRange locus) := by
  refine plain_seq plain_letter fun first => plain_seq (plain_symbol _) fun accepted => ?_
  have rest (last : Char) : Plain (do
      if last < first then fail (.invalidLetterRange first last) locus
      return (first, last)) := by
    split
    · exact plain_refused (by simp)
    · exact plain_unit _
  split
  · exact plain_seq plain_letter fun _ => rest _
  · exact rest _

theorem plain_targets : Plain targets := plain_comma_list plain_reference

theorem plain_asks_question : Plain asksQuestion := by
  refine plain_seq (plain_symbol _) fun accepted => ?_
  split
  · exact plain_unit _
  · refine plain_seq (plain_symbol _) fun accepted => ?_
    split
    · exact plain_unit _
    · exact plain_fail_expected _

theorem plain_input : Plain input := by
  refine plain_seq plain_file_number fun file => ?_
  split
  · exact plain_seq plain_targets fun _ => plain_unit _
  · refine plain_seq (plain_symbol _) fun _ => plain_get fun cursor => ?_
    split
    · split
      · exact plain_seq plain_advance fun _ => plain_seq plain_asks_question fun _ => plain_map plain_targets
      · exact plain_map plain_targets
    · exact plain_map plain_targets

theorem plain_line_input : Plain lineInput := by
  refine plain_seq (plain_expect_keyword _ _) fun _ => plain_seq plain_file_number fun file => ?_
  split
  · exact plain_seq plain_reference fun _ => plain_unit _
  · refine plain_seq (plain_symbol _) fun _ => plain_get fun cursor => ?_
    split
    · split
      · refine plain_seq plain_advance fun _ => plain_seq (plain_symbol _) fun accepted => ?_
        split
        · exact plain_seq (plain_expect_symbol _ _) fun _ => plain_map plain_reference
        · exact plain_map plain_reference
      · exact plain_map plain_reference
    · exact plain_map plain_reference

theorem plain_file_mode : Plain fileMode := by
  unfold fileMode
  iterate 3
    refine plain_seq (plain_keyword _) fun accepted => ?_
    split
    · exact plain_unit _
  exact plain_fail_expected _

theorem plain_open_file : Plain openFile :=
  plain_seq plain_expr fun _ => plain_seq (plain_expect_keyword _ _) fun _ =>
    plain_seq plain_file_mode fun _ => plain_seq (plain_expect_keyword _ _) fun _ =>
      plain_seq (plain_symbol _) fun _ => plain_map plain_expr

theorem plain_closed_number : Plain (do
    let _ ← acceptSymbol .hash
    expr) :=
  plain_seq (plain_symbol _) fun _ => plain_expr

theorem plain_close : Plain close := by
  refine plain_get fun cursor => ?_
  split
  · exact plain_unit _
  · exact plain_map (plain_comma_list plain_closed_number)

theorem plain_write : Plain write := plain_seq plain_file_number fun _ => plain_map plain_call_arguments

theorem plain_label_name : Plain labelName := by
  refine plain_get fun cursor => ?_
  split
  · split
    · exact plain_seq plain_advance fun _ => plain_unit _
    · exact plain_seq plain_advance fun _ => plain_unit _
    · exact plain_fail_expected _
  · exact plain_fail_expected _

theorem plain_exit : Plain exit := by
  unfold exit
  iterate 5
    refine plain_seq (plain_keyword _) fun accepted => ?_
    split
    · exact plain_unit _
  exact plain_fail_expected _

theorem plain_stop (locus : Locus) : Plain (stop locus) := by
  refine plain_get fun cursor => ?_
  split
  · split
    all_goals first | exact plain_unit _ | exact plain_fail _ (by simp)
  · exact plain_unit _

theorem plain_on_event : Plain onEvent :=
  plain_seq (plain_expect_keyword _ _) fun _ => plain_seq plain_expr fun _ =>
    plain_seq (plain_expect_keyword _ _) fun _ => plain_map plain_label_name

theorem plain_data_item : Plain dataItem := by
  intro cursor
  have forward := cursor.skip_while_suffix fun kind => !endsDataItem kind
  have skipped : ReadsAt True False (fun _ => cursor.rest.length + 1)
      (cursor.skipWhile fun kind => !endsDataItem kind)
      (pure (.ofTokens (cursor.rest.takeWhile fun token => !endsDataItem token.kind)) : Reader DataItem) :=
    reads_unit (Nat.lt_succ_of_le forward.length_le)
  exact Outcome.behind forward rfl skipped

theorem plain_restore : Plain restore := by
  refine plain_get fun cursor => ?_
  split
  · exact plain_unit _
  · exact plain_seq plain_label_name fun _ => plain_unit _

theorem plain_parameter : Plain parameter := by
  refine plain_seq (plain_expect_name _) fun found => plain_seq (plain_symbol _) fun isArray => ?_
  obtain ⟨name, locus⟩ := found
  have rest : Plain (do return ({ name, typeSpec := ← asType, isArray, locus } : Parameter)) :=
    plain_map plain_as_type
  split
  · exact plain_seq (plain_expect_symbol _ _) fun _ => rest
  · exact rest

theorem plain_header (kind : RoutineKind) : Plain (header kind) := by
  refine plain_seq (plain_expect_name _) fun found => plain_seq (plain_symbol _) fun accepted => ?_
  obtain ⟨name, locus⟩ := found
  have rest (params : List Parameter) : Plain (do
      let returns ← if kind = .function then asType else pure none
      return (name, params, returns)) := by
    dsimp only
    split
    · exact plain_seq plain_as_type fun _ => plain_unit _
    · exact plain_unit _
  have closed (params : List Parameter) : Plain (do
      expectSymbol .rightParen ")"
      let returns ← if kind = .function then asType else pure none
      return (name, params, returns)) :=
    plain_seq (plain_expect_symbol _ _) fun _ => rest params
  cases accepted with
  | true =>
    refine plain_seq (plain_at_symbol _) fun closes => ?_
    cases closes with
    | true => exact closed []
    | false => exact plain_seq (plain_comma_list plain_parameter) closed
  | false => exact rest []

theorem plain_declared_kind : Plain declaredKind := by
  unfold declaredKind
  iterate 2
    refine plain_seq (plain_keyword _) fun accepted => ?_
    split
    · exact plain_unit _
  exact plain_fail_expected _

theorem plain_declare : Plain declare :=
  plain_seq plain_declared_kind fun kind => plain_map (plain_header kind)

theorem reads_type_members (locus : Locus) (fuel : Nat) (cursor : Cursor)
    (enough : fuel ≤ cursor.rest.length → short) :
    ReadsAt quiet short (fun _ => cursor.rest.length + 1) cursor (typeMembers locus fuel) := by
  induction fuel generalizing cursor with
  | zero => exact reads_out_of_steps (enough (Nat.zero_le _))
  | succ fuel ih =>
    refine reads_skip fun start skipped => reads_get ?_
    split
    · exact reads_fail (by simp)
    · split
      · refine reads_advance (reads_advance (reads_unit ?_))
        simp only [Cursor.advance_rest, List.length_tail]
        omega
      · refine reads_seq (reads_expect_name _) fun found named fewer => ?_
        refine reads_seq ((plain_expect_keyword _ _).reads named) fun _ marked fewerMarked => ?_
        refine reads_seq (plain_type_spec.reads marked) fun spec typed fewerTyped => ?_
        refine reads_seq (ih typed fun few => enough (by omega)) fun others after fewerAfter => ?_
        exact reads_unit (by omega)

theorem plain_type_def (locus : Locus) : Plain (typeDef locus) :=
  plain_seq (plain_expect_name _) fun found cursor =>
    reads_get (reads_seq (reads_type_members locus _ cursor fun few => by omega)
      fun members after fewer => reads_unit fewer)

theorem plain_case_operator : Plain caseOperator := by
  refine plain_get fun cursor => ?_
  split
  · split
    · exact plain_seq plain_advance fun _ => plain_unit _
    · exact plain_unit _
  · exact plain_unit _

theorem plain_case_match : Plain caseMatch := by
  refine plain_seq (plain_keyword _) fun marked => plain_seq plain_case_operator fun operator => ?_
  split
  · exact plain_map plain_expr
  · split
    · exact plain_fail_expected _
    · refine plain_seq plain_expr fun first => plain_seq (plain_keyword _) fun accepted => ?_
      split
      · exact plain_map plain_expr
      · exact plain_unit _

theorem plain_for_header : Plain forHeader := by
  refine plain_seq (plain_expect_name _) fun counter => plain_seq (plain_expect_symbol _ _) fun _ =>
    plain_seq plain_expr fun first => plain_seq (plain_expect_keyword _ _) fun _ =>
      plain_seq plain_expr fun last => plain_seq (plain_keyword _) fun accepted => ?_
  split
  · exact plain_seq plain_expr fun _ => plain_unit _
  · exact plain_unit _

theorem plain_next_counter : Plain nextCounter := by
  refine plain_get fun cursor => ?_
  split
  · exact plain_map (plain_expect_name _)
  · exact plain_unit _

theorem plain_loop_condition : Plain loopCondition := by
  refine plain_seq (plain_keyword _) fun accepted => ?_
  split
  · exact plain_map plain_expr
  · refine plain_seq (plain_keyword _) fun accepted => ?_
    split
    · exact plain_map plain_expr
    · exact plain_unit _

end Reader

end BasicLang
