import BasicLang.Proofs.Derivation.Completeness

set_option autoImplicit false

namespace BasicLang

theorem Cursor.behind_static_errors (cursor : Cursor) : cursor.behindStatic.errors = cursor.errors := by
  unfold behindStatic
  split
  · exact cursor.advance_errors
  · rfl

namespace Reader

theorem gives_body {kind : RoutineKind} {locus : Locus} {start after : Cursor} {body : Block} :
    Gives (do
      let (body, closed) ← blockAt (·.isAtEnd kind.keyword) (← stmtFuel)
      if !closed then fail (if kind = .function then .missingEndFunction else .missingEndSub) locus
      advance
      advance
      return body) start body after ↔
      ∃ read, Gives (blockAt (·.isAtEnd kind.keyword) (4 * start.rest.length + 4)) start (body, true) read ∧
        after = read.advance.advance := by
  constructor
  · intro gives
    obtain ⟨⟨read, closed⟩, last, block, gives⟩ := gives_seq.mp (gives_stmt_fuel.mp gives)
    cases closed with
    | false => exact (gives_refused gives).elim
    | true =>
      have closing := gives_advance.mp (gives_advance.mp gives)
      obtain ⟨rfl, rfl⟩ := gives_unit.mp closing
      exact ⟨last, block, rfl⟩
  · rintro ⟨read, block, rfl⟩
    exact gives_stmt_fuel.mpr (gives_seq.mpr ⟨_, _, block, gives_advance.mpr (gives_advance.mpr
      (gives_unit.mpr ⟨rfl, rfl⟩))⟩)

theorem gives_procedure_body {kind : RoutineKind} {locus : Locus} {start after : Cursor} {body : Block} :
    Gives (procedureBody kind locus true) start body after ↔
      ∃ read, Gives (blockAt (·.isAtEnd kind.keyword) (4 * start.behindStatic.rest.length + 4)) start.behindStatic
        (body, true) read ∧ after = read.advance.advance := by
  refine Iff.trans ?_ (@gives_body kind locus start.behindStatic after body)
  unfold procedureBody
  rw [if_neg (by simp), gives_get]
  exact gives_advance_if

theorem routine_derives {kind : RoutineKind} {start after : Cursor} {routine : Routine}
    (gives : Gives (Reader.routine kind) start routine after) (clean : after.errors = []) :
    start.errors = [] ∧ routine.kind = kind ∧ routine.Derived start after := by
  rcases gives_attempt.mp (gives_advance.mp (gives_get.mp gives)) with ⟨line, headed, head, gives⟩ | ⟨_, _, gives⟩
  · obtain ⟨body, last, read, gives⟩ := gives_seq.mp gives
    obtain ⟨rfl, rfl⟩ := gives_unit.mp gives
    obtain ⟨closed, block, rfl⟩ := gives_procedure_body.mp read
    obtain ⟨cleanStatic, content⟩ := block_at_derives _ _ block (by simpa using clean)
    have cleanHeaded : headed.errors = [] := headed.behind_static_errors ▸ cleanStatic
    have cleanStart := (plain_header kind).clean head cleanHeaded
    exact ⟨by simpa using cleanStart, rfl, ⟨rfl, headed, closed, head, content, rfl⟩⟩
  · obtain ⟨_, _, _, failed⟩ := gives_seq.mp gives
    cases failed

theorem routine_is_read {start after : Cursor} {routine : Routine} (derived : routine.Derived start after) :
    Gives (Reader.routine routine.kind) start routine after := by
  obtain ⟨place, headed, read, head, content, rfl⟩ := derived
  have body : Gives (blockAt _ (4 * headed.behindStatic.rest.length + 4)) _ _ _ :=
    content.is_readable.within 2 rfl (by omega)
  refine gives_get.mpr (gives_advance.mpr (gives_attempt.mpr (.inl ⟨_, _, head, ?_⟩)))
  refine gives_seq.mpr ⟨routine.body, _, gives_procedure_body.mpr ⟨read, body, rfl⟩, gives_unit.mpr ⟨?_, rfl⟩⟩
  rw [← place]

theorem routine_same_errors {start after : Cursor} {routine : Routine} (derived : routine.Derived start after) :
    after.errors = start.errors := by
  obtain ⟨place, headed, read, head, content, rfl⟩ := derived
  have block := content.same_errors.trans headed.behind_static_errors
  have line := ((plain_header routine.kind).same_errors head).trans start.advance_errors
  simpa using block.trans line

theorem not_procedure {kind? : Option TokenKind} (notSub : kind? ≠ some (.keyword .SUB))
    (notFunction : kind? ≠ some (.keyword .FUNCTION)) (kind : RoutineKind) :
    kind? ≠ some (.keyword kind.keyword) := by
  unfold RoutineKind.keyword
  split
  · exact notFunction
  · exact notSub

theorem program_at_derives (fuel : Nat) {start after : Cursor} {found : List (Locus × Stmt) × List Routine}
    (gives : Gives (programAt fuel) start found after) (clean : after.errors = []) :
    start.errors = [] ∧ ProgramDerived start found.1 found.2 := by
  induction fuel generalizing start found with
  | zero => exact (gives_out_of_steps gives).elim
  | succ fuel ih =>
    -- A part that failed has left an error.
    have recovered {reader : Reader (List (Locus × Stmt) × List Routine)} {middle : Cursor}
        (reads : ReadsAt False True (fun _ => start.behindSeparators.rest.length) start.behindSeparators reader)
        (failed : (reader.run).run start.behindSeparators = (none, middle))
        (gives : Gives (programAt fuel) middle.synchronize found after) : False := by
      unfold ReadsAt at reads
      rw [failed] at reads
      have grown : start.errors.length < middle.errors.length := reads.refused rfl
      rw [← middle.synchronize_errors, (ih gives).1] at grown
      exact Nat.not_lt_zero _ grown
    have procedure (kind : RoutineKind) (isProcedure : kind ≠ .main)
        (opens : start.behindSeparators.kind? = some (.keyword kind.keyword))
        (parted : (∃ part middle others, Gives (do return ([], [← Reader.routine kind])) start.behindSeparators part middle ∧
            Gives (programAt fuel) middle others after ∧ found = (part.1 ++ others.1, part.2 ++ others.2)) ∨
          ∃ middle, ((do return ([], [← Reader.routine kind]) : Reader (List (Locus × Stmt) × List Routine)).run).run
              start.behindSeparators = (none, middle) ∧
            Gives (programAt fuel) middle.synchronize found after) :
        start.errors = [] ∧ ProgramDerived start found.1 found.2 := by
      rcases parted with ⟨part, middle, others, read, rest, rfl⟩ | ⟨middle, failed, gives⟩
      · obtain ⟨routine, last, read, gives⟩ := gives_seq.mp read
        obtain ⟨rfl, rfl⟩ := gives_unit.mp gives
        obtain ⟨cleanMiddle, restDerives⟩ := ih rest
        obtain ⟨cleanStart, rfl, first⟩ := routine_derives read cleanMiddle
        exact ⟨cleanStart, .procedure isProcedure opens first restDerives⟩
      · exact (recovered (reads_routine_part kind (kind_more opens)) failed gives).elim
    have gives := gives_get.mp (gives_skip_separators.mp gives)
    dsimp only at gives
    split at gives
    · next ends =>
      obtain ⟨rfl, rfl⟩ := gives_unit.mp gives
      exact ⟨clean, .finished (no_kind ends)⟩
    · next opens => exact procedure .sub (by decide) opens (gives_part.mp gives)
    · next opens => exact procedure .function (by decide) opens (gives_part.mp gives)
    · next kind notSub notFunction opens =>
      have notProcedure : ∀ kind : RoutineKind,
          start.behindSeparators.kind? ≠ some (.keyword kind.keyword) :=
        not_procedure (by rw [opens]; simpa using notSub) (by rw [opens]; simpa using notFunction)
      rcases gives_part.mp gives with ⟨part, middle, others, read, rest, rfl⟩ | ⟨middle, failed, gives⟩
      · obtain ⟨stmt, last, read, gives⟩ := gives_seq.mp read
        obtain ⟨rfl, rfl⟩ := gives_unit.mp gives
        obtain ⟨cleanMiddle, restDerives⟩ := ih rest
        obtain ⟨cleanStart, first⟩ := stmt_at_derives _ (gives_stmt_fuel.mp read) cleanMiddle
        exact ⟨cleanStart, .statement notProcedure first restDerives⟩
      · exact (recovered (reads_stmt_part _) failed gives).elim

theorem program_is_read {start : Cursor} {stmts : List (Locus × Stmt)} {routines : List Routine}
    (derived : ProgramDerived start stmts routines) (fuel : Nat) (enough : start.rest.length < fuel) :
    ∃ after, Gives (programAt fuel) start (stmts, routines) after ∧ after.errors = start.errors := by
  -- Each part of the program takes a token at least, so the fuel outlasts the rest of the cursor.
  induction derived generalizing fuel with
  | @finished start empty =>
    cases fuel with
    | zero => omega
    | succ fuel =>
      refine ⟨start.behindSeparators, gives_skip_separators.mpr (gives_get.mpr ?_), rfl⟩
      have ends : start.behindSeparators.kind? = none := by simp [Cursor.kind?, empty]
      rw [ends]
      exact gives_unit.mpr ⟨rfl, rfl⟩
  | @procedure start middle routine stmts routines isProcedure opens first rest ih =>
    cases fuel with
    | zero => omega
    | succ fuel =>
      have skipped : start.behindSeparators.rest.length ≤ start.rest.length :=
        (start.skip_while_suffix _).length_le
      have read := routine_is_read first
      have reads : ReadsAt False True _ start.behindSeparators (Reader.routine routine.kind) :=
        reads_routine routine.kind start.behindSeparators
      have fewer := reads.fewer read
      have moved := advance_length (kind_more opens)
      obtain ⟨after, others, same⟩ := ih fuel (by omega)
      have part : Gives (do return ([], [← Reader.routine routine.kind])) start.behindSeparators
          (([] : List (Locus × Stmt)), [routine]) middle :=
        gives_seq.mpr ⟨_, _, read, gives_unit.mpr ⟨rfl, rfl⟩⟩
      have both := gives_part.mpr (.inl ⟨_, _, _, part, others, rfl⟩)
      have quiet := (routine_same_errors first).trans start.behind_separators_errors
      refine ⟨after, gives_skip_separators.mpr (gives_get.mpr ?_), same.trans quiet⟩
      cases kind : routine.kind with
      | main => exact (isProcedure kind).elim
      | sub =>
        rw [kind] at opens both
        rw [opens]
        exact both
      | function =>
        rw [kind] at opens both
        rw [opens]
        exact both
  | @statement start middle locus stmt stmts routines noProcedure first rest ih =>
    cases fuel with
    | zero => omega
    | succ fuel =>
      have skipped : start.behindSeparators.rest.length ≤ start.rest.length :=
        (start.skip_while_suffix _).length_le
      have read : Gives Reader.stmt start.behindSeparators (locus, stmt) middle :=
        gives_stmt_fuel.mpr (first.is_readable.within 1 rfl (by omega))
      have fewer := stmt_fewer (gives_stmt_fuel.mp read)
      obtain ⟨after, others, same⟩ := ih fuel (by omega)
      have part : Gives (do return ([← Reader.stmt], [])) start.behindSeparators
          ([(locus, stmt)], ([] : List Routine)) middle :=
        gives_seq.mpr ⟨_, _, read, gives_unit.mpr ⟨rfl, rfl⟩⟩
      refine ⟨after, gives_skip_separators.mpr (gives_get.mpr ?_), same.trans first.same_errors⟩
      dsimp only
      split
      · next ends => simp [no_kind ends] at fewer
      · next opens => exact (noProcedure .sub opens).elim
      · next opens => exact (noProcedure .function opens).elim
      · exact gives_part.mpr (.inl ⟨_, _, _, part, others, rfl⟩)

end Reader

theorem parse_accepts_iff (tokens : List Token) (program : Program) :
    parse tokens = .ok program ↔ ∃ stmts, program.main = .ofList stmts ∧
      ProgramDerived (Cursor.ofTokens tokens) stmts program.procedures := by
  have start : (Cursor.ofTokens tokens).errors = [] := rfl
  unfold parse
  constructor
  · intro parsed
    rcases ran : (Reader.programAt (tokens.length + 1)).run (Cursor.ofTokens tokens) with ⟨found, after⟩
    rw [ran] at parsed
    dsimp only at parsed
    split at parsed
    · next stmts procedures clean =>
      cases parsed
      exact ⟨stmts, rfl, (Reader.program_at_derives _ ran clean).2⟩
    · cases parsed
  · rintro ⟨stmts, main, derived⟩
    obtain ⟨after, gives, same⟩ := Reader.program_is_read derived (tokens.length + 1) (Nat.lt_succ_self _)
    have ran : (Reader.programAt (tokens.length + 1)).run (Cursor.ofTokens tokens) = _ := gives
    rw [ran]
    simp only [same, start, ← main]

open Reader in
/-- A reader that fails has recorded an error, and a program is accepted exactly if all its tokens have a derivation,
in which there is no recovery. -/
theorem parsing_drops_nothing :
    (∀ {α : Type} {steps : Nat} {reader : Reader α}, Grammar steps reader → ∀ cursor after : Cursor,
      (reader.run).run cursor = (none, after) →
        ∃ recorded, recorded ≠ [] ∧ after.errors = recorded ++ cursor.errors) ∧
    ∀ (tokens : List Token) (program : Program), parse tokens = .ok program ↔
      ∃ stmts, program.main = .ofList stmts ∧
        ProgramDerived (Cursor.ofTokens tokens) stmts program.procedures := by
  refine ⟨fun grammar cursor after failed => ?_, parse_accepts_iff⟩
  have reads := grammar.reads cursor
  unfold ReadsAt at reads
  rw [failed] at reads
  obtain ⟨recorded, grown, -⟩ := reads.reported
  refine ⟨recorded, ?_, grown⟩
  rintro rfl
  have more : cursor.errors.length < after.errors.length := reads.refused rfl
  have same : after.errors = cursor.errors := grown
  simp [same] at more

end BasicLang
