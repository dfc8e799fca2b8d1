import BasicLang.Proofs.Progress.BlockGrammar
import BasicLang.Proofs.Progress.Gives

set_option autoImplicit false

namespace BasicLang

namespace Reader

inductive Item : {α : Type} → Reader α → Prop where
  | expr : Item expr
  | reference : Item reference
  | dimension : Item dimension
  | varDecl : Item varDecl
  | closedNumber : Item (do
      let _ ← acceptSymbol .hash
      expr)
  | letterRange (locus : Locus) : Item (letterRange locus)
  | dataItem : Item dataItem
  | parameter : Item parameter
  | caseMatch : Item caseMatch

theorem Item.plain {α : Type} {reader : Reader α} (item : Item reader) : Plain reader := by
  cases item with
  | expr => exact plain_expr
  | reference => exact plain_reference
  | dimension => exact plain_dimension
  | varDecl => exact plain_var_decl
  | closedNumber => exact plain_closed_number
  | letterRange locus => exact plain_letter_range locus
  | dataItem => exact plain_data_item
  | parameter => exact plain_parameter
  | caseMatch => exact plain_case_match

inductive Part : {α : Type} → Reader α → Prop where
  | expect (kind : TokenKind) (description : String) : Part (expect kind description)
  | expectKeyword (keyword : Keyword) (description : String) : Part (expectKeyword keyword description)
  | expectSymbol (symbol : Symbol) (description : String) : Part (expectSymbol symbol description)
  | expectName (description : String) : Part (expectName description)
  | item {α : Type} {reader : Reader α} (item : Item reader) : Part reader
  | commaList {α : Type} {reader : Reader α} (item : Item reader) : Part (commaList reader)
  | arguments : Part arguments
  | typeSpec : Part typeSpec
  | asType : Part asType
  | callArguments : Part callArguments
  | fileNumber : Part fileNumber
  | print : Part print
  | letStmt : Part letStmt
  | call : Part call
  | dim : Part dim
  | redim : Part redim
  | const : Part const
  | letter : Part letter
  | targets : Part targets
  | asksQuestion : Part asksQuestion
  | input : Part input
  | lineInput : Part lineInput
  | fileMode : Part fileMode
  | openFile : Part openFile
  | close : Part close
  | write : Part write
  | labelName : Part labelName
  | exit : Part exit
  | stop (locus : Locus) : Part (stop locus)
  | onEvent : Part onEvent
  | restore : Part restore
  | header (kind : RoutineKind) : Part (header kind)
  | declaredKind : Part declaredKind
  | declare : Part declare
  | typeDef (locus : Locus) : Part (typeDef locus)
  | caseOperator : Part caseOperator
  | forHeader : Part forHeader
  | nextCounter : Part nextCounter
  | loopCondition : Part loopCondition

theorem Part.plain {α : Type} {reader : Reader α} (part : Part reader) : Plain reader := by
  cases part with
  | expect kind description => exact plain_expect kind description
  | expectKeyword keyword description => exact plain_expect_keyword keyword description
  | expectSymbol symbol description => exact plain_expect_symbol symbol description
  | expectName description => exact plain_expect_name description
  | item item => exact item.plain
  | commaList item => exact plain_comma_list item.plain
  | arguments => exact plain_arguments
  | typeSpec => exact plain_type_spec
  | asType => exact plain_as_type
  | callArguments => exact plain_call_arguments
  | fileNumber => exact plain_file_number
  | print => exact plain_print
  | letStmt => exact plain_let
  | call => exact plain_call
  | dim => exact plain_dim
  | redim => exact plain_redim
  | const => exact plain_const
  | letter => exact plain_letter
  | targets => exact plain_targets
  | asksQuestion => exact plain_asks_question
  | input => exact plain_input
  | lineInput => exact plain_line_input
  | fileMode => exact plain_file_mode
  | openFile => exact plain_open_file
  | close => exact plain_close
  | write => exact plain_write
  | labelName => exact plain_label_name
  | exit => exact plain_exit
  | stop locus => exact plain_stop locus
  | onEvent => exact plain_on_event
  | restore => exact plain_restore
  | header kind => exact plain_header kind
  | declaredKind => exact plain_declared_kind
  | declare => exact plain_declare
  | typeDef locus => exact plain_type_def locus
  | caseOperator => exact plain_case_operator
  | forHeader => exact plain_for_header
  | nextCounter => exact plain_next_counter
  | loopCondition => exact plain_loop_condition

/-- The readers of the grammar. One that counts its steps has at least so many. -/
inductive Grammar (steps : Nat) : {α : Type} → Reader α → Prop where
  | part {α : Type} {reader : Reader α} (part : Part reader) : Grammar steps reader
  | named (name : String) : Grammar steps (named name)
  | simpleStmt (token : Token) : Grammar steps (simpleStmt token)
  | members (object : Expr) {fuel : Nat} (enough : steps ≤ fuel) : Grammar steps (members object fuel)
  | exprAbove (least : Nat) {fuel : Nat} (enough : steps ≤ fuel) : Grammar steps (exprAbove least fuel)
  | operators (least : Nat) (left : Expr) {fuel : Nat} (enough : steps ≤ fuel) :
      Grammar steps (operators least left fuel)
  | operand {fuel : Nat} (enough : steps ≤ fuel) : Grammar steps (operand fuel)
  | referenceAt {fuel : Nat} (enough : steps ≤ fuel) : Grammar steps (referenceAt fuel)
  | argumentsAt {fuel : Nat} (enough : steps ≤ fuel) : Grammar steps (argumentsAt fuel)
  | furtherArguments {fuel : Nat} (enough : steps ≤ fuel) : Grammar steps (furtherArguments fuel)
  | afterCommas {α : Type} {reader : Reader α} (item : Item reader) {fuel : Nat} (enough : steps ≤ fuel) :
      Grammar steps (afterCommas reader fuel)
  | printItems (read : List PrintItem) {fuel : Nat} (enough : steps ≤ fuel) : Grammar steps (printItems read fuel)
  | typeMembers (locus : Locus) {fuel : Nat} (enough : steps ≤ fuel) : Grammar steps (typeMembers locus fuel)
  | stmtAt {fuel : Nat} (enough : steps ≤ fuel) : Grammar steps (stmtAt fuel)
  | blockAt (isEnd : Cursor → Bool) {fuel : Nat} (enough : steps ≤ fuel) : Grammar steps (blockAt isEnd fuel)
  | condAt (locus : Locus) {fuel : Nat} (enough : steps ≤ fuel) : Grammar steps (condAt locus fuel)
  | armsAt (locus : Locus) (found : Bool) {fuel : Nat} (enough : steps ≤ fuel) :
      Grammar steps (armsAt locus found fuel)
  | lineBranchAt {fuel : Nat} (enough : steps ≤ fuel) : Grammar steps (lineBranchAt fuel)
  | lineRestAt {fuel : Nat} (enough : steps ≤ fuel) : Grammar steps (lineRestAt fuel)
  | lineElseAt {fuel : Nat} (enough : steps ≤ fuel) : Grammar steps (lineElseAt fuel)
  | selectAt (locus : Locus) {fuel : Nat} (enough : steps ≤ fuel) : Grammar steps (selectAt locus fuel)
  | casesAt (locus : Locus) {fuel : Nat} (enough : steps ≤ fuel) : Grammar steps (casesAt locus fuel)
  | forAt (locus : Locus) {fuel : Nat} (enough : steps ≤ fuel) : Grammar steps (forAt locus fuel)
  | whileAt (locus : Locus) {fuel : Nat} (enough : steps ≤ fuel) : Grammar steps (whileAt locus fuel)
  | doAt (locus : Locus) {fuel : Nat} (enough : steps ≤ fuel) : Grammar steps (doAt locus fuel)
  | stmt : Grammar steps stmt
  | procedureBody (kind : RoutineKind) (locus : Locus) (headed : Bool) :
      Grammar steps (procedureBody kind locus headed)
  | routine (kind : RoutineKind) : Grammar steps (routine kind)
  | programAt {fuel : Nat} (enough : steps ≤ fuel) : Grammar steps (programAt fuel)

theorem Grammar.reads {α : Type} {steps : Nat} {reader : Reader α} (grammar : Grammar steps reader)
    (cursor : Cursor) :
    ReadsAt False (steps < 4 * cursor.rest.length + 4) (fun _ => cursor.rest.length + 1) cursor reader := by
  have behind : cursor.advance.rest.length ≤ cursor.rest.length := by simp
  cases grammar with
  | part part => exact part.plain.reads cursor
  | named name => exact reads_within (reads_named name cursor) fun _ => Nat.le_succ _
  | simpleStmt token => exact reads_within (reads_simple_stmt token cursor) fun _ => Nat.succ_le_succ behind
  | members object enough => exact reads_members object _ cursor fun few => by omega
  | exprAbove least enough =>
    exact reads_within (reads_expr_above least _ cursor fun few => by omega) fun _ => Nat.le_succ _
  | operators least left enough => exact reads_operators least left _ cursor fun few => by omega
  | operand enough => exact reads_within (reads_operand _ cursor fun few => by omega) fun _ => Nat.le_succ _
  | referenceAt enough =>
    exact reads_within (reads_reference_at _ cursor fun few => by omega) fun _ => Nat.le_succ _
  | argumentsAt enough => exact reads_arguments_at _ cursor fun few => by omega
  | furtherArguments enough => exact reads_further_arguments _ cursor fun few => by omega
  | afterCommas item enough => exact reads_after_commas item.plain _ cursor fun few => by omega
  | printItems read enough => exact reads_print_items read _ cursor fun few => by omega
  | typeMembers locus enough => exact reads_type_members locus _ cursor fun few => by omega
  | stmtAt enough => exact reads_within (reads_stmt_at _ cursor fun few => by omega) fun _ => Nat.le_succ _
  | blockAt isEnd enough => exact reads_block_at isEnd _ cursor fun few => by omega
  | condAt locus enough => exact reads_cond_at locus _ cursor fun few => by omega
  | armsAt locus found enough => exact reads_arms_at locus found _ cursor fun few => by omega
  | lineBranchAt enough => exact reads_line_branch_at _ cursor fun few => by omega
  | lineRestAt enough => exact reads_line_rest_at _ cursor fun few => by omega
  | lineElseAt enough => exact reads_line_else_at _ cursor fun few => by omega
  | selectAt locus enough => exact reads_select_at locus _ cursor fun few => by omega
  | casesAt locus enough => exact reads_cases_at locus _ cursor fun few => by omega
  | forAt locus enough => exact reads_for_at locus _ cursor fun few => by omega
  | whileAt locus enough => exact reads_while_at locus _ cursor fun few => by omega
  | doAt locus enough => exact reads_do_at locus _ cursor fun few => by omega
  | stmt => exact reads_within (reads_stmt cursor) fun _ => Nat.le_succ _
  | procedureBody kind locus headed => exact reads_procedure_body kind locus headed cursor
  | routine kind => exact reads_within (reads_routine kind cursor) fun _ => Nat.succ_le_succ behind
  | programAt enough =>
    exact reads_within (reads_program_at _ cursor fun few => by omega) fun _ => by omega

def Advances {α : Type} (cursor : Cursor) (reader : Reader α) : Prop :=
  match (reader.run).run cursor with
  | (some _, after) => after.rest.length < cursor.rest.length
  | (none, after) => after.synchronize.rest.length < cursor.rest.length

theorem ReadsAt.advances {α : Type} {quiet short : Prop} {cursor : Cursor} {reader : Reader α}
    (reads : ReadsAt quiet short (fun _ => cursor.rest.length) cursor reader) (more : cursor.rest ≠ []) :
    Advances cursor reader := by
  unfold Advances
  unfold ReadsAt at reads
  revert reads
  rcases (reader.run).run cursor with ⟨_ | value, after⟩ <;> intro reads
  · exact synchronize_passes more reads.forward.length_le
  · exact reads.moved value rfl

theorem gives_part {fuel : Nat} {start after : Cursor} {found : List (Locus × Stmt) × List Routine}
    {reader : Reader (List (Locus × Stmt) × List Routine)} :
    Gives (do
      match ← attempt reader with
      | some (stmts, routines) =>
        let (otherStmts, otherRoutines) ← programAt fuel
        return (stmts ++ otherStmts, routines ++ otherRoutines)
      | none =>
        modify Cursor.synchronize
        programAt fuel) start found after ↔
      (∃ part middle others, Gives reader start part middle ∧ Gives (programAt fuel) middle others after ∧
        found = (part.1 ++ others.1, part.2 ++ others.2)) ∨
      ∃ middle, (reader.run).run start = (none, middle) ∧
        Gives (programAt fuel) middle.synchronize found after := by
  rw [gives_attempt]
  constructor
  · rintro (⟨part, middle, read, gives⟩ | ⟨middle, failed, gives⟩)
    · obtain ⟨others, last, rest, gives⟩ := gives_seq.mp gives
      obtain ⟨rfl, rfl⟩ := gives_unit.mp gives
      exact .inl ⟨part, middle, others, read, rest, rfl⟩
    · exact .inr ⟨middle, failed, gives⟩
  · rintro (⟨part, middle, others, read, rest, rfl⟩ | ⟨middle, failed, gives⟩)
    · exact .inl ⟨part, middle, read, gives_seq.mpr ⟨others, _, rest, gives_unit.mpr ⟨rfl, rfl⟩⟩⟩
    · exact .inr ⟨middle, failed, gives⟩

theorem program_at_finishes (fuel : Nat) (cursor : Cursor) (enough : cursor.rest.length < fuel) :
    ∃ found after, Gives (programAt fuel) cursor found after := by
  induction fuel generalizing cursor with
  | zero => omega
  | succ fuel ih =>
    have skipped : cursor.behindSeparators.rest.length ≤ cursor.rest.length :=
      (cursor.skip_while_suffix _).length_le
    have part {reader : Reader (List (Locus × Stmt) × List Routine)}
        (advances : Advances cursor.behindSeparators reader) :
        ∃ found after, Gives (do
          match ← attempt reader with
          | some (stmts, routines) =>
            let (otherStmts, otherRoutines) ← programAt fuel
            return (stmts ++ otherStmts, routines ++ otherRoutines)
          | none =>
            modify Cursor.synchronize
            programAt fuel) cursor.behindSeparators found after := by
      unfold Advances at advances
      rcases ran : (reader.run).run cursor.behindSeparators with ⟨_ | part, middle⟩
      · rw [ran] at advances
        obtain ⟨found, after, rest⟩ := ih middle.synchronize (by dsimp only at advances; omega)
        exact ⟨found, after, gives_part.mpr (.inr ⟨middle, ran, rest⟩)⟩
      · rw [ran] at advances
        obtain ⟨others, after, rest⟩ := ih middle (by dsimp only at advances; omega)
        exact ⟨_, after, gives_part.mpr (.inl ⟨part, middle, others, ran, rest, rfl⟩)⟩
    simp only [programAt, gives_skip_separators, gives_get]
    split
    · exact ⟨_, _, gives_unit.mpr ⟨rfl, rfl⟩⟩
    · next kind =>
      have more := kind_more kind
      have reads : ReadsAt False True _ cursor.behindSeparators _ := reads_routine_part .sub more
      exact part (reads.advances more)
    · next kind =>
      have more := kind_more kind
      have reads : ReadsAt False True _ cursor.behindSeparators _ := reads_routine_part .function more
      exact part (reads.advances more)
    · next kind =>
      have reads : ReadsAt False True _ cursor.behindSeparators _ := reads_stmt_part cursor.behindSeparators
      exact part (reads.advances (kind_more kind))

/-- No reader goes back or runs out of steps, every statement and procedure advances, and the program is read to
its last token. -/
theorem parser_makes_progress :
    (∀ {α : Type} {steps : Nat} {reader : Reader α}, Grammar steps reader → ∀ cursor : Cursor,
      ((reader.run).run cursor).2.rest <:+ cursor.rest ∧
      (4 * cursor.rest.length + 4 ≤ steps →
        ∃ recorded, ((reader.run).run cursor).2.errors = recorded ++ cursor.errors ∧
          ∀ error ∈ recorded, error.kind ≠ .outOfSteps)) ∧
    (∀ cursor : Cursor, cursor.rest ≠ [] →
      (∀ fuel, Advances cursor (stmtAt fuel)) ∧ ∀ kind, Advances cursor (routine kind)) ∧
    ∀ tokens : List Token, ∃ found after,
      Gives (programAt (tokens.length + 1)) (Cursor.ofTokens tokens) found after ∧
      after.rest = [] ∧ ∀ error ∈ after.errors, error.kind ≠ .outOfSteps := by
  refine ⟨fun grammar cursor => ?_, fun cursor more => ⟨fun fuel => ?_, fun kind => ?_⟩, fun tokens => ?_⟩
  · have reads := grammar.reads cursor
    obtain ⟨recorded, grown, few⟩ := reads.reported
    refine ⟨reads.forward, fun enough => ⟨recorded, grown, fun error inside isOut => ?_⟩⟩
    have short := few error inside isOut
    omega
  · have reads : ReadsAt False True _ cursor (stmtAt fuel) := reads_stmt_at fuel cursor fun _ => trivial
    exact reads.advances more
  · have moved := advance_length more
    have reads : ReadsAt False True _ cursor (routine kind) := reads_routine kind cursor
    exact ReadsAt.advances (reads_within reads fun _ => by omega) more
  -- The fuel is one more than the number of tokens, which is more than the reader can use up.
  · obtain ⟨found, after, gives⟩ := program_at_finishes (tokens.length + 1) (Cursor.ofTokens tokens)
      (Nat.lt_succ_self _)
    have reads : ReadsAt False False _ (Cursor.ofTokens tokens) (programAt (tokens.length + 1)) :=
      reads_program_at _ _ fun few => absurd few (Nat.not_succ_le_self _)
    have fewer := reads.fewer gives
    refine ⟨found, after, gives, List.length_eq_zero_iff.mp (by omega), fun error inside isOut => ?_⟩
    unfold ReadsAt at reads
    rw [gives] at reads
    obtain ⟨recorded, grown, few⟩ := reads.reported
    have start : (Cursor.ofTokens tokens).errors = [] := rfl
    rw [start, List.append_nil] at grown
    exact few error (grown ▸ inside) isOut

end Reader

end BasicLang
