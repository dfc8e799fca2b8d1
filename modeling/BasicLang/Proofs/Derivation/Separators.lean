import BasicLang.Proofs.Code.Generation
import BasicLang.Proofs.Derivation.Places

set_option autoImplicit false

namespace BasicLang

namespace Cursor

def isAtSeparator (cursor : Cursor) : Bool :=
  cursor.rest.head?.any fun token => token.kind == .newline || token.kind == .symbol .colon

variable {cursor : Cursor}

theorem behind_separators_advance (separator : cursor.isAtSeparator = true) :
    cursor.behindSeparators.rest <:+ cursor.advance.rest := by
  rcases cursor with ⟨previous, _ | ⟨token, rest⟩, last, errors⟩
  · cases separator
  · have skipped : (token.kind == .newline || token.kind == .symbol .colon) = true := separator
    have same : ((token :: rest).dropWhile fun token => token.kind == .newline || token.kind == .symbol .colon) = _ :=
      List.dropWhile_cons_of_pos skipped
    rw [behindSeparators, skipWhile, same]
    exact List.dropWhile_suffix _

theorem at_separator {kind : TokenKind} (ends : cursor.isAtStatementEnd = true)
    (next : cursor.behindSeparators.kind? = some kind) (goesOn : kind ∉ [.comment, .remComment, .keyword .ELSE]) :
    cursor.isAtSeparator = true := by
  rcases cursor with ⟨previous, _ | ⟨token, rest⟩, last, errors⟩
  · cases next
  · refine Decidable.byContradiction fun stays => ?_
    have same : ((token :: rest).dropWhile fun token => token.kind == .newline || token.kind == .symbol .colon) = _ :=
      List.dropWhile_cons_of_neg stays
    have here : some token.kind = some kind := by
      rw [← next, behindSeparators, kind?, skipWhile, same]
      rfl
    cases here
    simp_all [isAtStatementEnd, kind?, isAtSeparator]

end Cursor

namespace Reader

section Ends

variable {start after : Cursor}

theorem call_arguments_end {found : List Expr} (gives : Gives callArguments start found after) :
    after.isAtStatementEnd = true := by
  have gives := gives_get.mp gives
  split at gives
  · next ends =>
    rw [(gives_unit.mp gives).2]
    exact ends
  · obtain ⟨found, middle, -, gives⟩ := gives_seq.mp gives
    have gives := gives_get.mp gives
    split at gives
    · exact (gives_seq.mp gives).elim fun _ ⟨_, failed, _⟩ => (gives_fail_expected failed).elim
    · next ends =>
      rw [(gives_unit.mp gives).2]
      simpa using ends

theorem print_items_end {read found : List PrintItem} {fuel : Nat}
    (gives : Gives (printItems read fuel) start found after) : after.isAtStatementEnd = true := by
  induction fuel generalizing read start with
  | zero => exact (gives_out_of_steps gives).elim
  | succ fuel ih =>
    have gives := gives_get.mp gives
    split at gives
    · next ends =>
      rw [(gives_unit.mp gives).2]
      exact ends
    · rcases gives_accept.mp gives with ⟨-, gives⟩ | ⟨-, gives⟩
      · exact ih gives
      · rcases gives_accept.mp gives with ⟨-, gives⟩ | ⟨-, gives⟩
        · exact ih gives
        · obtain ⟨item, middle, -, gives⟩ := gives_seq.mp gives
          exact ih gives

theorem data_item_stops {found : DataItem} (gives : Gives dataItem start found after) :
    after.rest.head?.all (fun token => endsDataItem token.kind) = true := by
  have gives := gives_get.mp gives
  rw [(gives_unit.mp gives).2, Option.all_eq_true]
  intro token (next : (start.rest.dropWhile fun token => !endsDataItem token.kind).head? = some token)
  have stops := List.head?_dropWhile_not (fun token => !endsDataItem token.kind) start.rest
  rw [next] at stops
  simpa using stops

theorem further_items_end {found : List DataItem} {fuel : Nat}
    (stops : start.rest.head?.all (fun token => endsDataItem token.kind) = true)
    (gives : Gives (afterCommas dataItem fuel) start found after) : after.isAtStatementEnd = true := by
  induction fuel generalizing start after found with
  | zero => exact (gives_out_of_steps gives).elim
  | succ fuel ih =>
    rcases gives_accept.mp gives with ⟨-, gives⟩ | ⟨noComma, gives⟩
    · obtain ⟨item, middle, read, gives⟩ := gives_seq.mp gives
      obtain ⟨others, behind, reads, gives⟩ := gives_seq.mp gives
      rw [(gives_unit.mp gives).2]
      exact ih (data_item_stops read) reads
    · rw [(gives_unit.mp gives).2]
      rcases start with ⟨previous, _ | ⟨token, rest⟩, last, errors⟩
      · rfl
      · simp_all [Cursor.isAtStatementEnd, Cursor.isAt, Cursor.kind?, endsDataItem]
        tauto

theorem data_items_end {found : List DataItem} (gives : Gives (commaList dataItem) start found after) :
    after.isAtStatementEnd = true := by
  obtain ⟨item, middle, read, gives⟩ := gives_seq.mp gives
  obtain ⟨others, behind, reads, gives⟩ := gives_seq.mp (gives_get.mp gives)
  rw [(gives_unit.mp gives).2]
  exact further_items_end (data_item_stops read) reads

def AtEnd (stmt : Stmt) (after : Cursor) : Prop := stmt.goesToEnd = true → after.isAtStatementEnd = true

abbrev ComesToEnd (reader : Reader Stmt) : Prop := Brings AtEnd reader

theorem print_end : ComesToEnd print :=
  brings_seq fun file => brings_seq fun formats => by
    have items (format : Option Expr) : ComesToEnd (do
        let items ← printItems [] ((← get).rest.length + 1)
        return .print file format items (items.getLast?.all (·.separator.isNone))) := by
      intro start after stmt gives _
      obtain ⟨items, middle, read, gives⟩ := gives_seq.mp (gives_get.mp gives)
      rw [(gives_unit.mp gives).2]
      exact print_items_end read
    split
    · exact brings_seq fun _ => brings_seq fun _ => brings_seq fun _ => items _
    · exact brings_seq fun _ => items _

theorem arguments_end {make : List Expr → Stmt} : ComesToEnd (do return make (← callArguments)) := by
  intro start after stmt gives _
  obtain ⟨found, middle, read, gives⟩ := gives_seq.mp gives
  rw [(gives_unit.mp gives).2]
  exact call_arguments_end read

theorem named_end (name : String) : ComesToEnd (named name) := by
  refine brings_seq fun cursor => ?_
  split
  · exact brings_seq fun _ => brings_seq fun _ => brings_unit nofun
  · refine brings_seq fun target => brings_seq fun assigns => ?_
    split
    · exact brings_seq fun _ => brings_unit nofun
    · split
      · exact arguments_end
      · refine brings_seq fun _ => brings_seq fun _ => ?_
        intro start after stmt gives _
        have gives := gives_get.mp gives
        split at gives
        · exact (gives_seq.mp gives).elim fun _ ⟨_, failed, _⟩ => (gives_fail_expected failed).elim
        · next ends =>
          rw [(gives_unit.mp gives).2]
          simpa using ends
      · exact brings_fail_expected _

theorem close_end : ComesToEnd close := by
  intro start after stmt gives toEnd
  have gives := gives_get.mp gives
  split at gives
  · next ends =>
    rw [(gives_unit.mp gives).2]
    exact ends
  · obtain ⟨files, middle, read, gives⟩ := gives_seq.mp gives
    obtain ⟨file, behind, -, reads⟩ := gives_seq.mp read
    obtain ⟨others, further, -, reads⟩ := gives_seq.mp (gives_get.mp reads)
    rw [(gives_unit.mp gives).1, (gives_unit.mp reads).1] at toEnd
    cases toEnd

theorem restore_end : ComesToEnd restore := by
  intro start after stmt gives toEnd
  have gives := gives_get.mp gives
  split at gives
  · next ends =>
    rw [(gives_unit.mp gives).2]
    exact ends
  · obtain ⟨label, middle, read, gives⟩ := gives_seq.mp gives
    rw [(gives_unit.mp gives).1] at toEnd
    cases toEnd

theorem expected_token {kind : TokenKind} {description : String} {token : Token}
    (gives : Gives (expect kind description) start token after) : start.rest = token :: after.rest := by
  have gives := gives_get.mp gives
  cases isRest : start.rest with
  | nil =>
    rw [isRest] at gives
    exact (gives_fail_expected gives).elim
  | cons first rest =>
    rw [isRest] at gives
    dsimp only at gives
    split at gives
    · have read := gives_advance.mp gives
      obtain ⟨rfl, rfl⟩ := gives_unit.mp read
      rw [Cursor.advance_rest, isRest, List.tail_cons]
    · exact (gives_fail_expected gives).elim

theorem call_end {stmt : Stmt} (gives : Gives call start stmt after)
    (noParen : ∀ name next others, start.rest = name :: next :: others → next.kind ≠ .symbol .leftParen) :
    after.isAtStatementEnd = true := by
  obtain ⟨named, middle, read, gives⟩ := gives_seq.mp gives
  obtain ⟨token, between, expected, read⟩ := gives_seq.mp read
  rw [(gives_unit.mp read).2] at gives
  rcases gives_accept.mp gives with ⟨paren, -⟩ | ⟨-, gives⟩
  · rw [Cursor.isAt, Cursor.kind?, beq_iff_eq, Option.map_eq_some_iff] at paren
    obtain ⟨next, isNext, isParen⟩ := paren
    obtain ⟨others, isRest⟩ := List.head?_eq_some_iff.mp isNext
    exact absurd isParen (noParen token next others (isRest ▸ expected_token expected))
  · obtain ⟨found, behind, read, gives⟩ := gives_seq.mp gives
    rw [(gives_unit.mp gives).2]
    exact call_arguments_end read

theorem simple_stmt_end {token : Token} (noCall : token.kind ≠ .keyword .CALL) : ComesToEnd (simpleStmt token) :=
  have plainly : Plainly AtEnd := fun _ _ _ short toEnd => absurd toEnd (Bool.eq_false_iff.mp short)
  brings_simple_stmt plainly token print_end named_end close_end
    (brings_seq fun _ => arguments_end)
    (fun _ _ _ gives _ => by
      obtain ⟨items, middle, read, gives⟩ := gives_seq.mp gives
      rw [(gives_unit.mp gives).2]
      exact data_items_end read)
    restore_end (fun isCall => absurd isCall noCall) fun _ => arguments_end

end Ends

end Reader

abbrev PlacedStmt := Locus × Stmt

mutual

/-- The statements inside one that follow one another in the same block. -/
def Stmt.neighbours : Stmt → List (PlacedStmt × PlacedStmt)
  | .cond arms => arms.neighbours
  | .select _ clauses => clauses.neighbours
  | .forLoop _ _ _ _ body _ => body.neighbours
  | .whileLoop _ body => body.neighbours
  | .doLoop _ body _ => body.neighbours
  | _ => []

def Block.neighbours : Block → List (PlacedStmt × PlacedStmt)
  | .nil => []
  | .cons locus stmt others =>
    (others.toList.head?.map fun next => ((locus, stmt), next)).toList ++ (stmt.neighbours ++ others.neighbours)

def Arms.neighbours : Arms → List (PlacedStmt × PlacedStmt)
  | .none => []
  | .otherwise body => body.neighbours
  | .arm _ body others => body.neighbours ++ others.neighbours

def Cases.neighbours : Cases → List (PlacedStmt × PlacedStmt)
  | .none => []
  | .otherwise body => body.neighbours
  | .clause _ _ body others => body.neighbours ++ others.neighbours

end

/-- The statements of a program that follow one another in the same block, those of the main routine first. -/
def Program.neighbours (program : Program) : List (PlacedStmt × PlacedStmt) :=
  program.main.neighbours ++ program.procedures.flatMap fun routine => routine.body.neighbours

def Phrase.neighbours : Phrase → List (PlacedStmt × PlacedStmt)
  | .stmt _ found | .cond found | .select found | .forLoop found | .whileLoop found | .doLoop found => found.neighbours
  | .block _ body _ | .lineBranch body | .lineRest body => body.neighbours
  | .arms _ found | .lineElse found => found.neighbours
  | .cases found => found.neighbours

/-- The second statement is derived behind a separator that follows the first one. -/
def Separated (tokens : List Token) (first second : PlacedStmt) : Prop :=
  ∃ start middle next after : Cursor, start.rest <:+ tokens ∧ Derives (.stmt first.1 first.2) start middle ∧
    middle.isAtSeparator = true ∧ next.rest <:+ middle.advance.rest ∧ Derives (.stmt second.1 second.2) next after

/-- The statement goes up to its end. Behind `CALL` it does so unless there are parentheses. -/
def GoesToEnd (tokens : List Token) (placed : PlacedStmt) : Prop :=
  placed.2.goesToEnd = true ∧ ∀ token name next others, token :: name :: next :: others <:+ tokens →
    token.locus = placed.1 → token.kind = .keyword .CALL → next.kind ≠ .symbol .leftParen

def Stmt.isComment : Stmt → Bool
  | .comment _ => true
  | _ => false

def Stmt.isLabel : Stmt → Bool
  | .label _ => true
  | _ => false

/-- A statement that goes up to its end is separated from the next one, unless that is a comment. -/
def AllSeparated (tokens : List Token) (pairs : List (PlacedStmt × PlacedStmt)) : Prop :=
  ∀ pair ∈ pairs, GoesToEnd tokens pair.1 → pair.2.2.isComment = false → Separated tokens pair.1 pair.2

section Separated

variable {tokens later : List Token} {pairs others : List (PlacedStmt × PlacedStmt)} {start middle after : Cursor}
  {locus : Locus} {stmt : Stmt} {placed : PlacedStmt}

theorem AllSeparated.behind (all : AllSeparated later pairs) (behind : later <:+ tokens) : AllSeparated tokens pairs := by
  intro pair member goes noComment
  obtain ⟨start, middle, next, after, inside, derived⟩ :=
    all pair member ⟨goes.1, fun _ _ _ _ inside => goes.2 _ _ _ _ (inside.trans behind)⟩ noComment
  exact ⟨start, middle, next, after, inside.trans behind, derived⟩

theorem AllSeparated.append (all : AllSeparated tokens pairs) (further : AllSeparated tokens others) :
    AllSeparated tokens (pairs ++ others) := fun pair member =>
  (List.mem_append.mp member).elim (all pair) (further pair)

theorem separated_none : AllSeparated tokens [] := fun _ member => absurd member List.not_mem_nil

theorem Derives.forward {phrase : Phrase} (derives : Derives phrase start after) : after.rest <:+ start.rest :=
  (derives.passes .start).forward

theorem compound_short {kind : TokenKind} {phrase : Stmt → Phrase} (opens : Phrase.behind? kind = some phrase)
    (content : Derives (phrase stmt) start after) : stmt.goesToEnd = false ∧ stmt.isAlone = false := by
  unfold Phrase.behind? at opens
  split at opens <;> cases opens <;> cases content <;> exact ⟨rfl, rfl⟩

theorem stmt_end (derives : Derives (.stmt locus stmt) start after) (goes : GoesToEnd start.rest (locus, stmt)) :
    after.isAtStatementEnd = true := by
  cases derives with
  | compound next opens content => cases (compound_short opens content).1.symm.trans goes.1
  | @simple _ _ token rest _ next opens read =>
    by_cases isCall : token.kind = .keyword .CALL
    · simp only [Reader.simpleStmt, isCall] at read
      refine Reader.call_end (Reader.gives_advance.mp read) fun name paren others isRest => ?_
      rw [Cursor.advance_rest, next, List.tail_cons] at isRest
      have isStart : start.rest = token :: name :: paren :: others := by rw [next, isRest]
      exact goes.2 token name paren others (isStart ▸ List.suffix_refl _) rfl isCall
    · exact Reader.simple_stmt_end isCall _ _ _ read goes.1

theorem stmt_start (derives : Derives (.stmt locus stmt) start after) (noComment : stmt.isComment = false) :
    ∃ kind, start.kind? = some kind ∧ kind ∉ [.comment, .remComment, .keyword .ELSE] := by
  cases derives with
  | @compound _ _ token rest phrase _ next opens content =>
    refine ⟨token.kind, by rw [Cursor.kind?, next]; rfl, fun member => ?_⟩
    simp only [List.mem_cons, List.not_mem_nil, or_false] at member
    rcases member with isKind | isKind | isKind
    all_goals
      rw [isKind] at opens
      cases opens
  | @simple _ _ token rest _ next opens read =>
    refine ⟨token.kind, by rw [Cursor.kind?, next]; rfl, fun member => ?_⟩
    simp only [List.mem_cons, List.not_mem_nil, or_false] at member
    rcases member with isKind | isKind | isKind
    all_goals simp only [Reader.simpleStmt, isKind] at read
    · have read := Reader.gives_advance.mp read
      rw [(Reader.gives_unit.mp read).1] at noComment
      cases noComment
    · have read := Reader.gives_advance.mp read
      rw [(Reader.gives_unit.mp read).1] at noComment
      cases noComment
    · exact (Reader.gives_fail read).elim

theorem next_in_block {isEnd : Cursor → Bool} {body : Block} {found : Bool}
    (derives : Derives (.block isEnd body found) start after) (next : body.toList.head? = some placed) :
    ∃ behind, Derives (.stmt placed.1 placed.2) start.behindSeparators behind := by
  cases derives with
  | exhausted empty => cases next
  | ended more ends => cases next
  | statement more goesOn first rest =>
    cases next
    exact ⟨_, first⟩

theorem next_in_line {body : Block} (derives : Derives (.lineRest body) start after)
    (next : body.toList.head? = some placed) :
    start.isAtSeparator = true ∧ ∃ behind, Derives (.stmt placed.1 placed.2) start.advance behind := by
  cases derives with
  | lineDone noColon => cases next
  | lineEnds colon ends => cases next
  | lineMore colon goesOn first rest =>
    cases next
    refine ⟨?_, _, first⟩
    rcases start with ⟨previous, _ | ⟨token, rest⟩, last, errors⟩
    · cases colon
    · simp_all [Cursor.isAtSymbol, Cursor.isAt, Cursor.kind?, Cursor.isAtSeparator]

theorem separated_cons {rest : Block} (derives : Derives (.stmt locus stmt) start middle)
    (inside : AllSeparated start.rest stmt.neighbours) (others : AllSeparated middle.rest rest.neighbours)
    (first : ∀ next, rest.toList.head? = some next → GoesToEnd start.rest (locus, stmt) → next.2.isComment = false →
      Separated start.rest (locus, stmt) next) : AllSeparated start.rest (Block.cons locus stmt rest).neighbours := by
  rw [Block.neighbours]
  refine AllSeparated.append (fun pair member goes noComment => ?_) (inside.append (others.behind derives.forward))
  obtain ⟨next, isNext, rfl⟩ := Option.map_eq_some_iff.mp (Option.mem_toList.mp member)
  exact first next isNext goes noComment

open Reader Cursor in
theorem Derives.separates {phrase : Phrase} {start after : Cursor} (derives : Derives phrase start after) :
    AllSeparated start.rest phrase.neighbours := by
  induction derives with
  | @compound start after token rest phrase stmt next opens content ih =>
    unfold Phrase.behind? at opens
    split at opens <;> cases opens <;> exact ih.behind (advance_suffix _)
  | @simple start after token rest stmt next opens read =>
    have alone : stmt.isAlone = true := alone_simple_stmt token _ _ _ read
    cases stmt with
    | cond _ | select _ _ | forLoop _ _ _ _ _ _ | whileLoop _ _ | doLoop _ _ _ => cases alone
    | _ => exact separated_none
  | exhausted empty => exact separated_none
  | ended more ends => exact separated_none
  | @statement start middle after isEnd locus stmt others found more goesOn first rest firstIh restIh =>
    refine (separated_cons first firstIh restIh fun next isNext goes noComment => ?_).behind (start.skip_while_suffix _)
    obtain ⟨behind, derived⟩ := next_in_block rest isNext
    obtain ⟨kind, isKind, other⟩ := stmt_start derived noComment
    -- What follows a statement starts none, and the next statement starts with what may start one: between them is a separator.
    have separator := at_separator (stmt_end first goes) isKind other
    exact ⟨_, _, _, _, List.suffix_refl _, first, separator, behind_separators_advance separator, derived⟩
  | @jump start tested jumped after condition own jump others test jumps target rest targetIh restIh =>
    exact ((targetIh.append separated_none).append (restIh.behind target.forward)).behind (plain_expr.suffix test)
  | branches test stays marks breaks branch rest branchIh restIh =>
    exact ((branchIh.append (restIh.behind branch.forward)).behind ((plain_expect_keyword _ _).suffix marks)).behind
      (plain_expr.suffix test)
  | line test stays marks goesOn branch rest branchIh restIh =>
    exact ((branchIh.append (restIh.behind branch.forward)).behind ((plain_expect_keyword _ _).suffix marks)).behind
      (plain_expr.suffix test)
  | elseIf tests test marks branch rest branchIh restIh =>
    exact (((branchIh.append (restIh.behind branch.forward)).behind ((plain_expect_keyword _ _).suffix marks)).behind
      (plain_expr.suffix test)).behind (advance_suffix _)
  | otherwise plain refuses branch ih => exact ih.behind (advance_suffix _)
  | endIf plain accepts => exact separated_none
  | lineNumber next number => exact separated_none
  | @lineBranch start middle after locus stmt others noNumber first rest firstIh restIh =>
    refine separated_cons first firstIh restIh fun next isNext _ _ => ?_
    obtain ⟨separator, behind, derived⟩ := next_in_line rest isNext
    exact ⟨_, _, _, _, List.suffix_refl _, first, separator, List.suffix_refl _, derived⟩
  | lineDone noColon => exact separated_none
  | lineEnds colon ends => exact separated_none
  | lineMore colon goesOn first rest firstIh restIh =>
    refine (separated_cons first firstIh restIh fun next isNext _ _ => ?_).behind (advance_suffix _)
    obtain ⟨separator, behind, derived⟩ := next_in_line rest isNext
    exact ⟨_, _, _, _, List.suffix_refl _, first, separator, List.suffix_refl _, derived⟩
  | lineElse refuses branch ih => exact ih.behind (advance_suffix _)
  | noLineElse accepts => exact separated_none
  | select marks read rest ih =>
    exact (ih.behind (plain_expr.suffix read)).behind ((plain_expect_keyword _ _).suffix marks)
  | endSelect ends => exact separated_none
  | @caseElse start clause read after token body found dropped goesOn opens refuses branch rest branchIh restIh =>
    exact ((branchIh.behind (advance_suffix _)).behind ((plain_expect _ _).suffix opens)).behind
      (start.skip_while_suffix _)
  | @clause start clause matched read after token patterns body found others goesOn opens accepts tests branch rest
      branchIh restIh =>
    exact (((branchIh.append (restIh.behind branch.forward)).behind
      ((plain_comma_list plain_case_match).suffix tests)).behind ((plain_expect _ _).suffix opens)).behind
      (start.skip_while_suffix _)
  | forLoop head content closes ih => exact ih.behind (plain_for_header.suffix head)
  | whileLoop test content ih => exact ih.behind (plain_expr.suffix test)
  | doLoop test content closes single ih => exact ih.behind (plain_loop_condition.suffix test)

theorem Separated.behind {first second : PlacedStmt} (separated : Separated later first second)
    (behind : later <:+ tokens) : Separated tokens first second := by
  obtain ⟨start, middle, next, after, inside, derived⟩ := separated
  exact ⟨start, middle, next, after, inside.trans behind, derived⟩

theorem line_separated {others : Block} (first : Derives (.stmt locus stmt) start middle)
    (rest : Derives (.lineRest others) middle after)
    (further : ∀ pair ∈ others.toList.zip others.toList.tail, Separated middle.rest pair.1 pair.2) :
    ∀ pair ∈ ((locus, stmt) :: others.toList).zip others.toList, Separated start.rest pair.1 pair.2 := by
  intro pair member
  have isNext (isFirst : others.toList.head? = some pair.2) := next_in_line rest isFirst
  cases isOthers : others.toList with
  | nil =>
    rw [isOthers] at member
    cases member
  | cons next more =>
    rw [isOthers] at member isNext further
    rcases List.mem_cons.mp member with rfl | member
    · obtain ⟨separator, behind, derived⟩ := isNext rfl
      exact ⟨_, _, _, _, List.suffix_refl _, first, separator, List.suffix_refl _, derived⟩
    · exact (further pair member).behind first.forward

theorem line_rest_separated {body : Block} (derives : Derives (.lineRest body) start after) :
    ∀ pair ∈ body.toList.zip body.toList.tail, Separated start.rest pair.1 pair.2 := by
  generalize isRest : Phrase.lineRest body = phrase at derives
  induction derives generalizing body with
  | lineDone noColon =>
    cases isRest
    exact nofun
  | lineEnds colon ends =>
    cases isRest
    exact nofun
  | lineMore colon goesOn first rest firstIh restIh =>
    cases isRest
    exact fun pair member => (line_separated first rest (restIh rfl) pair member).behind (Cursor.advance_suffix _)
  | _ => cases isRest

theorem next_in_program {stmts : List PlacedStmt} {routines : List Routine}
    (derived : ProgramDerived start stmts routines) (next : stmts.head? = some placed) :
    ∃ behind after, behind.rest <:+ start.behindSeparators.rest ∧ Derives (.stmt placed.1 placed.2) behind after ∧
      (start.isAtStatementEnd = true → placed.2.isComment = false → start.isAtSeparator = true) := by
  induction derived with
  | finished empty => cases next
  | @procedure start middle routine stmts routines isProcedure opens first rest ih =>
    obtain ⟨behind, after, inside, derived, -⟩ := ih next
    have other : TokenKind.keyword routine.kind.keyword ∉ [.comment, .remComment, .keyword .ELSE] := by
      unfold RoutineKind.keyword
      split <;> decide
    refine ⟨behind, after, ?_, derived, fun ends _ => Cursor.at_separator ends opens other⟩
    exact (inside.trans (middle.skip_while_suffix _)).trans first.passes.forward
  | statement noProcedure first rest ih =>
    cases next
    refine ⟨_, _, List.suffix_refl _, first, fun ends noComment => ?_⟩
    obtain ⟨kind, isKind, other⟩ := stmt_start first noComment
    exact Cursor.at_separator ends isKind other

theorem ProgramDerived.separates {stmts : List PlacedStmt} {routines : List Routine}
    (derived : ProgramDerived start stmts routines) :
    AllSeparated start.rest (Block.ofList stmts).neighbours ∧
      AllSeparated start.rest (routines.flatMap fun routine => routine.body.neighbours) := by
  induction derived with
  | finished empty => exact ⟨separated_none, separated_none⟩
  | @procedure start middle routine stmts routines isProcedure opens first rest ih =>
    have skipped := start.skip_while_suffix fun kind => kind == .newline || kind == .symbol .colon
    have forward := first.passes.forward.trans skipped
    obtain ⟨-, headed, read, head, content, -⟩ := first
    have inside := (((content.separates.behind headed.behind_static_suffix).behind
      ((Reader.plain_header routine.kind).suffix head)).behind (Cursor.advance_suffix _)).behind skipped
    rw [List.flatMap_cons]
    exact ⟨ih.1.behind forward, inside.append (ih.2.behind forward)⟩
  | @statement start middle locus stmt stmts routines noProcedure first rest ih =>
    have skipped := start.skip_while_suffix fun kind => kind == .newline || kind == .symbol .colon
    have forward := first.forward.trans skipped
    refine ⟨(separated_cons first first.separates ih.1 fun next isNext goes noComment => ?_).behind skipped,
      ih.2.behind forward⟩
    have isFirst : stmts.head? = some next := by
      cases stmts with
      | nil => cases isNext
      | cons found more => exact isNext
    obtain ⟨behind, after, inside, derived, separates⟩ := next_in_program rest isFirst
    have separator := separates (stmt_end first goes) noComment
    exact ⟨_, _, _, _, List.suffix_refl _, first, separator, inside.trans (Cursor.behind_separators_advance separator),
      derived⟩

end Separated

/-- A separator follows every statement that goes up to its end and has another behind it in the same block, unless that
is a comment; and it follows every statement with another behind it in a branch on one line. -/
theorem statements_separated (tokens : List Token) (program : Program) (parsed : parse tokens = .ok program) :
    (∀ pair ∈ program.neighbours, GoesToEnd tokens pair.1 → pair.2.2.isComment = false →
      Separated tokens pair.1 pair.2) ∧
    ∀ (body : Block) (start after : Cursor), Derives (.lineBranch body) start after →
      ∀ pair ∈ body.toList.zip body.toList.tail, Separated start.rest pair.1 pair.2 := by
  refine ⟨?_, fun body start after derives => ?_⟩
  · obtain ⟨stmts, isMain, derived⟩ := (parse_accepts_iff _ _).mp parsed
    have separates := derived.separates
    rw [← isMain] at separates
    exact separates.1.append separates.2
  · cases derives with
    | lineNumber next number => exact nofun
    | lineBranch noNumber first rest => exact line_separated first rest (line_rest_separated rest)

/-- In `PRINT 1: X = 2` a colon stands between the two statements. -/
theorem print_separated : ∃ program, parse (tokenize "PRINT 1: X = 2").1 = .ok program ∧
    ∃ pair ∈ program.neighbours, Separated (tokenize "PRINT 1: X = 2").1 pair.1 pair.2 := by
  obtain ⟨program, parsed, found⟩ := exists_parsed "PRINT 1: X = 2"
    (fun program => (∀ token ∈ (tokenize "PRINT 1: X = 2").1, token.kind ≠ .keyword .CALL) ∧
      ∃ pair ∈ program.neighbours, pair.1.2.goesToEnd = true ∧ pair.2.2.isComment = false) (by decide +kernel)
  obtain ⟨noCall, pair, member, toEnd, noComment⟩ := found
  have goes : GoesToEnd (tokenize "PRINT 1: X = 2").1 pair.1 :=
    ⟨toEnd, fun token _ _ _ inside _ isCall => absurd isCall (noCall token (inside.subset List.mem_cons_self))⟩
  exact ⟨program, parsed, pair, member, (statements_separated _ program parsed).1 pair member goes noComment⟩

/-- In `X = 1 PRINT 2` nothing stands between the two statements. -/
theorem assignment_not_separated : ∃ program, parse (tokenize "X = 1 PRINT 2").1 = .ok program ∧
    (∃ pair ∈ program.neighbours, pair.1.2.isLabel = false ∧ pair.2.2.isComment = false) ∧
    ∀ token ∈ (tokenize "X = 1 PRINT 2").1, token.kind ∉ [.newline, .symbol .colon, .comment, .remComment] :=
  exists_parsed "X = 1 PRINT 2"
    (fun program => (∃ pair ∈ program.neighbours, pair.1.2.isLabel = false ∧ pair.2.2.isComment = false) ∧
      ∀ token ∈ (tokenize "X = 1 PRINT 2").1, token.kind ∉ [.newline, .symbol .colon, .comment, .remComment])
    (by decide +kernel)

end BasicLang
