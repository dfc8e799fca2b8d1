import BasicLang.Proofs.Syntax.ExprGrammar
import BasicLang.Syntax.StmtGrammar

set_option autoImplicit false

namespace BasicLang

namespace Reader

theorem yields_type_spec : Yields (fun _ => True) typeSpec := by
  refine yields_seq yields_get fun cursor _ => ?_
  split
  · exact yields_fail_expected _
  · dsimp only
    split
    · exact yields_fail_expected _
    · refine yields_seq yields_advance fun _ _ => ?_
      split
      · refine yields_seq (yields_symbol _) fun accepted _ => ?_
        split
        · exact yields_seq (yields_expect _ _) fun _ _ => yields_unit trivial
        · exact yields_unit trivial
      · exact yields_unit trivial

theorem yields_as_type : Yields (fun _ => True) asType := by
  refine yields_seq (yields_keyword _) fun accepted _ => ?_
  split
  · exact yields_seq yields_type_spec fun _ _ => yields_unit trivial
  · exact yields_unit trivial

theorem yields_call_arguments :
    Yields (fun found => ∀ expr ∈ found, expr.WellFormed) callArguments := by
  refine yields_seq yields_get fun cursor _ => ?_
  split
  · exact yields_unit fun _ inside => nomatch inside
  · refine yields_seq (yields_comma_list yields_expr) fun found wellFormed =>
      yields_seq yields_get fun cursor _ => ?_
    split
    · exact yields_refusal _ fun _ => yields_unit wellFormed
    · exact yields_unit wellFormed

theorem yields_file_number : Yields (fun found => ∀ expr ∈ found, expr.WellFormed) fileNumber := by
  refine yields_seq (yields_symbol _) fun accepted _ => ?_
  split
  · exact yields_seq yields_expr fun number wellFormed =>
      yields_seq (yields_expect_symbol _ _) fun _ _ => yields_unit (by simpa using wellFormed)
  · exact yields_unit fun _ inside => nomatch inside

theorem close_with_semicolon_well_formed (items : List PrintItem)
    (wellFormed : ∀ item ∈ items, item.expr.WellFormed) :
    ∀ item ∈ closeWithSemicolon items, item.expr.WellFormed := by
  unfold closeWithSemicolon
  split
  · split
    · exact List.forall_mem_cons.mpr (List.forall_mem_cons.mp wellFormed)
    · exact wellFormed
  · exact wellFormed

theorem close_with_comma_well_formed (locus : Locus) (items : List PrintItem)
    (wellFormed : ∀ item ∈ items, item.expr.WellFormed) :
    ∀ item ∈ closeWithComma locus items, item.expr.WellFormed := by
  unfold closeWithComma
  split
  · split
    · exact List.forall_mem_cons.mpr (List.forall_mem_cons.mp wellFormed)
    · exact List.forall_mem_cons.mpr ⟨trivial, wellFormed⟩
  · exact List.forall_mem_cons.mpr ⟨trivial, wellFormed⟩

theorem yields_print_items (read : List PrintItem)
    (wellFormed : ∀ item ∈ read, item.expr.WellFormed) (fuel : Nat) :
    Yields (fun found => ∀ item ∈ found, item.expr.WellFormed) (printItems read fuel) := by
  induction fuel generalizing read with
  | zero => exact yields_out_of_steps
  | succ fuel ih =>
    refine yields_seq yields_get fun cursor _ => ?_
    split
    · exact yields_unit fun item inside => wellFormed item (List.mem_reverse.mp inside)
    · refine yields_seq (yields_symbol _) fun accepted _ => ?_
      split
      · exact ih _ (close_with_semicolon_well_formed read wellFormed)
      · refine yields_seq (yields_symbol _) fun accepted _ => ?_
        split
        · exact ih _ (close_with_comma_well_formed _ read wellFormed)
        · exact yields_seq yields_expr fun item itemFormed =>
            ih _ (List.forall_mem_cons.mpr ⟨itemFormed, wellFormed⟩)

theorem yields_print : Yields Stmt.WellFormed print := by
  refine yields_seq yields_file_number fun file fileFormed => ?_
  have rest (format : Option Expr) (formatFormed : ∀ expr ∈ format, expr.WellFormed) :
      Yields Stmt.WellFormed (do
        let items ← printItems [] ((← get).rest.length + 1)
        return .print file format items (items.getLast?.all (·.separator.isNone))) :=
    yields_seq yields_get fun _ _ =>
      yields_seq (yields_print_items [] (fun _ inside => nomatch inside) _) fun _ itemsFormed =>
        yields_unit ⟨fileFormed, formatFormed, itemsFormed⟩
  refine yields_seq (yields_keyword _) fun accepted _ => ?_
  split
  · exact yields_seq yields_expr fun format formatFormed =>
      yields_seq (yields_expect_symbol _ _) fun _ _ => rest _ (by simpa using formatFormed)
  · exact rest _ fun _ inside => nomatch inside

theorem yields_let : Yields Stmt.WellFormed letStmt :=
  yields_seq yields_reference fun _ targetFormed =>
    yields_seq (yields_expect_symbol _ _) fun _ _ =>
      yields_seq yields_expr fun _ valueFormed => yields_unit ⟨targetFormed, valueFormed⟩

theorem yields_named (name : String) : Yields Stmt.WellFormed (named name) := by
  refine yields_seq yields_get fun cursor _ => ?_
  split
  · exact yields_seq yields_advance fun _ _ => yields_seq yields_advance fun _ _ => yields_unit trivial
  · refine yields_seq yields_reference fun target targetFormed =>
      yields_seq (yields_symbol _) fun accepted _ => ?_
    split
    · exact yields_seq yields_expr fun _ valueFormed => yields_unit ⟨targetFormed, valueFormed⟩
    · split
      · exact yields_seq yields_call_arguments fun _ argumentsFormed =>
          yields_unit ⟨targetFormed, argumentsFormed⟩
      · next callee first _ _ =>
        have firstFormed := (Expr.all_well_formed_iff first).mp targetFormed.2
        refine yields_seq yields_get fun cursor _ =>
          yields_seq (yields_after_commas yields_expr _) fun others othersFormed =>
            yields_seq yields_get fun cursor _ => ?_
        have made : (Stmt.call callee (first ++ others)).WellFormed :=
          ⟨targetFormed.1, List.forall_mem_append.mpr ⟨firstFormed, othersFormed⟩⟩
        split
        · exact yields_refusal _ fun _ => yields_unit made
        · exact yields_unit made
      · exact yields_fail_expected _

theorem yields_call : Yields Stmt.WellFormed call := by
  refine yields_seq (yields_expect_name _) fun found named => ?_
  obtain ⟨name, locus⟩ := found
  refine yields_seq (yields_symbol _) fun accepted _ => ?_
  split
  · exact yields_seq yields_arguments fun _ argumentsFormed =>
      yields_seq (yields_expect_symbol _ _) fun _ _ => yields_unit ⟨named, argumentsFormed⟩
  · exact yields_seq yields_call_arguments fun _ argumentsFormed =>
      yields_unit ⟨named, argumentsFormed⟩

theorem yields_dimension : Yields Dimension.WellFormed dimension := by
  refine yields_seq yields_expr fun first firstFormed =>
    yields_seq (yields_keyword _) fun accepted _ => ?_
  split
  · have lowerFormed : ∀ lower ∈ some first, lower.WellFormed := by simpa using firstFormed
    exact yields_seq yields_expr fun _ upperFormed => yields_unit ⟨lowerFormed, upperFormed⟩
  · exact yields_unit ⟨fun _ inside => (nomatch inside), firstFormed⟩

theorem yields_var_decl : Yields VarDecl.WellFormed varDecl := by
  refine yields_seq (yields_expect_name _) fun found named => ?_
  obtain ⟨name, locus⟩ := found
  refine yields_seq (yields_symbol _) fun isArray _ => ?_
  have rest (dimensions : List Dimension)
      (wellFormed : ∀ dimension ∈ dimensions, dimension.WellFormed) :
      Yields VarDecl.WellFormed (do
        return { name, dimensions, isArray, typeSpec := ← asType, locus }) :=
    yields_seq yields_as_type fun _ _ => yields_unit ⟨named, wellFormed⟩
  have closed (dimensions : List Dimension)
      (wellFormed : ∀ dimension ∈ dimensions, dimension.WellFormed) :
      Yields VarDecl.WellFormed (do
        expectSymbol .rightParen ")"
        return { name, dimensions, isArray, typeSpec := ← asType, locus }) :=
    yields_seq (yields_expect_symbol _ _) fun _ _ => rest dimensions wellFormed
  split
  · refine yields_seq (yields_is_at_symbol _) fun closes _ => ?_
    dsimp only
    split
    · exact closed [] fun _ inside => nomatch inside
    · exact yields_seq (yields_comma_list yields_dimension) closed
  · exact rest [] fun _ inside => nomatch inside

theorem yields_dim : Yields Stmt.WellFormed dim :=
  yields_seq (yields_keyword _) fun _ _ =>
    yields_seq (yields_comma_list yields_var_decl) fun _ wellFormed => yields_unit wellFormed

theorem yields_redim : Yields Stmt.WellFormed redim :=
  yields_seq (yields_keyword _) fun _ _ =>
    yields_seq (yields_comma_list yields_var_decl) fun _ wellFormed => yields_unit wellFormed

theorem yields_const : Yields Stmt.WellFormed const :=
  yields_seq (yields_expect_name _) fun _ named =>
    yields_seq (yields_expect_symbol _ _) fun _ _ =>
      yields_seq yields_expr fun _ wellFormed => yields_unit ⟨named, wellFormed⟩

theorem yields_letter : Yields (fun found => found.isAlpha = true) letter := by
  refine yields_seq (yields_expect_name _) fun found _ => ?_
  obtain ⟨name, locus⟩ := found
  dsimp only
  split
  · split
    · next isLetter => exact yields_unit isLetter
    · exact yields_fail _ _
  · exact yields_fail _ _

theorem yields_letter_range (locus : Locus) :
    Yields (fun found => found.1.isAlpha = true ∧ found.2.isAlpha = true) (letterRange locus) := by
  refine yields_seq yields_letter fun first isFirst => yields_seq (yields_symbol _) fun accepted _ => ?_
  have rest (last : Char) (isLast : last.isAlpha = true) :
      Yields (fun found => found.1.isAlpha = true ∧ found.2.isAlpha = true) (do
        if last < first then fail (.invalidLetterRange first last) locus
        return (first, last)) := by
    split
    · exact yields_refused _ _ fun _ => yields_unit ⟨isFirst, isLast⟩
    · exact yields_unit ⟨isFirst, isLast⟩
  split
  · exact yields_seq yields_letter fun last isLast => rest last isLast
  · exact rest first isFirst

theorem yields_targets : Yields (fun found => ∀ target ∈ found, target.WellFormed) targets :=
  yields_comma_list yields_reference

theorem yields_plain_input (prompt : Option String) (question : Bool) :
    Yields Stmt.WellFormed (do return .input prompt question (← targets)) :=
  yields_seq yields_targets fun _ wellFormed => yields_unit wellFormed

theorem yields_asks_question : Yields (fun _ => True) asksQuestion := by
  refine yields_seq (yields_symbol _) fun accepted _ => ?_
  split
  · exact yields_unit trivial
  · refine yields_seq (yields_symbol _) fun accepted _ => ?_
    split
    · exact yields_unit trivial
    · exact yields_fail_expected _

theorem yields_input : Yields Stmt.WellFormed input := by
  refine yields_seq yields_file_number fun file fileFormed => ?_
  split
  · exact yields_seq yields_targets fun _ targetsFormed =>
      yields_unit ⟨fileFormed _ rfl, targetsFormed, fun isLine => nomatch isLine⟩
  · refine yields_seq (yields_symbol _) fun _ _ => yields_seq yields_get fun cursor _ => ?_
    split
    · split
      · exact yields_seq yields_advance fun _ _ =>
          yields_seq yields_asks_question fun _ _ => yields_plain_input _ _
      · exact yields_plain_input _ _
    · exact yields_plain_input _ _

theorem yields_line_input : Yields Stmt.WellFormed lineInput := by
  have plain (prompt : Option String) :
      Yields Stmt.WellFormed (do return .lineInput prompt (← reference)) :=
    yields_seq yields_reference fun _ wellFormed => yields_unit wellFormed
  refine yields_seq (yields_expect_keyword _ _) fun _ _ =>
    yields_seq yields_file_number fun file fileFormed => ?_
  split
  · exact yields_seq yields_reference fun target targetFormed =>
      yields_unit ⟨fileFormed _ rfl, by simpa using targetFormed, fun _ => rfl⟩
  · refine yields_seq (yields_symbol _) fun _ _ => yields_seq yields_get fun cursor _ => ?_
    split
    · split
      · refine yields_seq yields_advance fun _ _ => yields_seq (yields_symbol _) fun accepted _ => ?_
        split
        · exact yields_seq (yields_expect_symbol _ _) fun _ _ => plain _
        · exact plain _
      · exact plain _
    · exact plain _

theorem yields_file_mode : Yields (fun _ => True) fileMode := by
  refine yields_seq (yields_keyword _) fun accepted _ => ?_
  split
  · exact yields_unit trivial
  · refine yields_seq (yields_keyword _) fun accepted _ => ?_
    split
    · exact yields_unit trivial
    · refine yields_seq (yields_keyword _) fun accepted _ => ?_
      split
      · exact yields_unit trivial
      · exact yields_fail_expected _

theorem yields_open_file : Yields Stmt.WellFormed openFile :=
  yields_seq yields_expr fun _ pathFormed =>
    yields_seq (yields_expect_keyword _ _) fun _ _ =>
      yields_seq yields_file_mode fun _ _ =>
        yields_seq (yields_expect_keyword _ _) fun _ _ =>
          yields_seq (yields_symbol _) fun _ _ =>
            yields_seq yields_expr fun _ fileFormed => yields_unit ⟨pathFormed, fileFormed⟩

theorem yields_close : Yields Stmt.WellFormed close := by
  refine yields_seq yields_get fun cursor _ => ?_
  split
  · exact yields_unit fun _ inside => nomatch inside
  · exact yields_seq (yields_comma_list (yields_seq (yields_symbol _) fun _ _ => yields_expr))
      fun _ wellFormed => yields_unit wellFormed

theorem yields_write : Yields Stmt.WellFormed write :=
  yields_seq yields_file_number fun _ fileFormed =>
    yields_seq yields_call_arguments fun _ valuesFormed => yields_unit ⟨fileFormed, valuesFormed⟩

theorem yields_label_name : Yields (fun _ => True) labelName := by
  refine yields_seq yields_get fun cursor _ => ?_
  split
  · split
    · exact yields_seq yields_advance fun _ _ => yields_unit trivial
    · exact yields_seq yields_advance fun _ _ => yields_unit trivial
    · exact yields_fail_expected _
  · exact yields_fail_expected _

theorem yields_exit : Yields Stmt.WellFormed exit := by
  unfold exit
  iterate 5
    refine yields_seq (yields_keyword _) fun accepted _ => ?_
    split
    · exact yields_unit trivial
  exact yields_fail_expected _

theorem yields_stop (locus : Locus) : Yields Stmt.WellFormed (stop locus) := by
  refine yields_seq yields_get fun cursor _ => ?_
  split
  · split
    all_goals first | exact yields_unit trivial | exact yields_fail _ _
  · exact yields_unit trivial

theorem yields_on_event : Yields Stmt.WellFormed onEvent :=
  yields_seq (yields_expect_keyword _ _) fun _ _ =>
    yields_seq yields_expr fun _ keyFormed =>
      yields_seq (yields_expect_keyword _ _) fun _ _ =>
        yields_seq yields_label_name fun _ _ => yields_unit keyFormed

theorem yields_data_item : Yields (fun _ => True) dataItem :=
  yields_seq yields_get fun cursor lexed =>
    yields_seq (yields_set (skip_while_lexed _ cursor lexed)) fun _ _ => yields_unit trivial

theorem yields_restore : Yields Stmt.WellFormed restore := by
  refine yields_seq yields_get fun cursor _ => ?_
  split
  · exact yields_unit trivial
  · exact yields_seq yields_label_name fun _ _ => yields_unit trivial

theorem yields_parameter : Yields (fun found => SourceName found.name) parameter := by
  refine yields_seq (yields_expect_name _) fun found named => ?_
  obtain ⟨name, locus⟩ := found
  refine yields_seq (yields_symbol _) fun isArray _ => ?_
  have rest : Yields (fun found : Parameter => SourceName found.name) (do
      return ({ name, typeSpec := ← asType, isArray, locus } : Parameter)) :=
    yields_seq yields_as_type fun _ _ => yields_unit named
  split
  · exact yields_seq (yields_expect_symbol _ _) fun _ _ => rest
  · exact rest

def HeadingFormed (found : String × List Parameter × Option TypeSpec) : Prop :=
  SourceName found.1 ∧ ∀ param ∈ found.2.1, SourceName param.name

theorem yields_header (kind : RoutineKind) : Yields HeadingFormed (header kind) := by
  refine yields_seq (yields_expect_name _) fun found named => ?_
  obtain ⟨name, locus⟩ := found
  refine yields_seq (yields_symbol _) fun accepted _ => ?_
  have rest (params : List Parameter) (paramsNamed : ∀ param ∈ params, SourceName param.name) : Yields HeadingFormed (do
      let returns ← if kind = .function then asType else pure none
      return (name, params, returns)) := by
    dsimp only
    split
    · exact yields_seq yields_as_type fun _ _ => yields_unit ⟨named, paramsNamed⟩
    · exact yields_unit ⟨named, paramsNamed⟩
  have closed (params : List Parameter) (paramsNamed : ∀ param ∈ params, SourceName param.name) : Yields HeadingFormed (do
      expectSymbol .rightParen ")"
      let returns ← if kind = .function then asType else pure none
      return (name, params, returns)) :=
    yields_seq (yields_expect_symbol _ _) fun _ _ => rest params paramsNamed
  cases accepted with
  | true =>
    refine yields_seq (yields_is_at_symbol _) fun closes _ => ?_
    cases closes with
    | true => exact closed [] (List.forall_mem_nil _)
    | false => exact yields_seq (yields_comma_list yields_parameter) closed
  | false => exact rest [] (List.forall_mem_nil _)

theorem yields_declared_kind : Yields (fun _ => True) declaredKind := by
  refine yields_seq (yields_keyword _) fun accepted _ => ?_
  split
  · exact yields_unit trivial
  · refine yields_seq (yields_keyword _) fun accepted _ => ?_
    split
    · exact yields_unit trivial
    · exact yields_fail_expected _

theorem yields_declare : Yields Stmt.WellFormed declare :=
  yields_seq yields_declared_kind fun kind _ =>
    yields_seq (yields_header kind) fun _ _ => yields_unit trivial

theorem yields_type_members (locus : Locus) (fuel : Nat) :
    Yields (fun _ => True) (typeMembers locus fuel) := by
  induction fuel with
  | zero => exact yields_out_of_steps
  | succ fuel ih =>
    refine yields_seq (yields_skip _) fun _ _ => yields_seq yields_get fun cursor _ => ?_
    split
    · exact yields_fail _ _
    · split
      · exact yields_seq yields_advance fun _ _ => yields_seq yields_advance fun _ _ =>
          yields_unit trivial
      · exact yields_seq (yields_expect_name _) fun _ _ =>
          yields_seq (yields_expect_keyword _ _) fun _ _ =>
            yields_seq yields_type_spec fun _ _ => yields_seq ih fun _ _ => yields_unit trivial

theorem yields_type_def (locus : Locus) : Yields Stmt.WellFormed (typeDef locus) :=
  yields_seq (yields_expect_name _) fun _ _ =>
    yields_seq yields_get fun _ _ =>
      yields_seq (yields_type_members locus _) fun _ _ => yields_unit trivial

theorem yields_case_operator :
    Yields (fun found => ∀ operator ∈ found, operator.isComparison = true) caseOperator := by
  refine yields_seq yields_get fun cursor _ => ?_
  split
  · split
    · next isComparison =>
      exact yields_seq yields_advance fun _ _ => yields_unit fun _ same => Option.some.inj same ▸ isComparison
    · exact yields_unit (by simp)
  · exact yields_unit (by simp)

theorem yields_case_match : Yields CaseMatch.WellFormed caseMatch := by
  refine yields_seq (yields_keyword _) fun marked _ =>
    yields_seq yields_case_operator fun operator isComparison => ?_
  split
  · exact yields_seq yields_expr fun _ wellFormed => yields_unit ⟨isComparison _ rfl, wellFormed⟩
  · split
    · exact yields_fail_expected _
    · refine yields_seq yields_expr fun first firstFormed =>
        yields_seq (yields_keyword _) fun accepted _ => ?_
      split
      · exact yields_seq yields_expr fun _ lastFormed => yields_unit ⟨firstFormed, lastFormed⟩
      · exact yields_unit firstFormed

theorem yields_for_header :
    Yields (fun found => SourceName found.1 ∧ found.2.1.WellFormed ∧ found.2.2.1.WellFormed ∧
      ∀ step ∈ found.2.2.2, step.WellFormed) forHeader := by
  refine yields_seq (yields_expect_name _) fun counter named =>
    yields_seq (yields_expect_symbol _ _) fun _ _ =>
      yields_seq yields_expr fun first firstFormed =>
        yields_seq (yields_expect_keyword _ _) fun _ _ =>
          yields_seq yields_expr fun last lastFormed =>
            yields_seq (yields_keyword _) fun accepted _ => ?_
  split
  · exact yields_seq yields_expr fun step stepFormed =>
      yields_unit ⟨named, firstFormed, lastFormed, by simpa using stepFormed⟩
  · exact yields_unit ⟨named, firstFormed, lastFormed, fun _ inside => nomatch inside⟩

theorem yields_next_counter : Yields (fun _ => True) nextCounter := by
  refine yields_seq yields_get fun cursor _ => ?_
  split
  · exact yields_seq (yields_expect_name _) fun _ _ => yields_unit trivial
  · exact yields_unit trivial

theorem yields_loop_condition :
    Yields (fun found => ∀ loop ∈ found, loop.condition.WellFormed) loopCondition := by
  have made (isWhile : Bool) : Yields
      (fun found : Option LoopCondition => ∀ loop ∈ found, loop.condition.WellFormed)
      (do return some ⟨isWhile, ← expr⟩) :=
    yields_seq yields_expr fun _ wellFormed => yields_unit (by simpa using wellFormed)
  refine yields_seq (yields_keyword _) fun accepted _ => ?_
  split
  · exact made true
  · refine yields_seq (yields_keyword _) fun accepted _ => ?_
    split
    · exact made false
    · exact yields_unit fun _ inside => nomatch inside

end Reader

end BasicLang
