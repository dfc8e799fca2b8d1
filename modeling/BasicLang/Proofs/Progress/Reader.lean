import BasicLang.Proofs.Syntax.Reader

set_option autoImplicit false

namespace BasicLang

namespace Cursor

@[simp] theorem advance_rest (cursor : Cursor) : cursor.advance.rest = cursor.rest.tail := by
  unfold advance
  split <;> simp [*]

@[simp] theorem advance_errors (cursor : Cursor) : cursor.advance.errors = cursor.errors := by
  unfold advance
  split <;> rfl

@[simp] theorem skip_while_errors (cursor : Cursor) (skip : TokenKind → Bool) :
    (cursor.skipWhile skip).errors = cursor.errors := rfl

theorem skip_while_suffix (cursor : Cursor) (skip : TokenKind → Bool) :
    (cursor.skipWhile skip).rest <:+ cursor.rest :=
  List.dropWhile_suffix _

@[simp] theorem synchronize_errors (cursor : Cursor) : cursor.synchronize.errors = cursor.errors := by
  simp [synchronize]

theorem synchronize_suffix (cursor : Cursor) : cursor.synchronize.rest <:+ cursor.rest.tail := by
  have recovered := Reader.recover_from_suffix cursor.advance.previous cursor.advance.rest
  simpa [synchronize] using recovered

theorem record_expected_rest (expected : String) (cursor : Cursor) :
    (cursor.recordExpected expected).rest = cursor.rest := by
  unfold recordExpected
  split <;> rfl

theorem record_expected_errors (expected : String) (cursor : Cursor) :
    ∃ error, (cursor.recordExpected expected).errors = error :: cursor.errors ∧
      error.kind ≠ .outOfSteps := by
  unfold recordExpected
  split
  · exact ⟨_, rfl, by simp⟩
  · exact ⟨_, rfl, by simp⟩

end Cursor

namespace Reader

/-- What a reader did from a cursor on. What it gives leaves fewer tokens than the limit. One that is `quiet`
gives nothing behind an error, and one that runs out of steps is `short` of them. -/
structure Outcome {α : Type} (quiet short : Prop) (limit : α → Nat) (cursor : Cursor) (result : Option α)
    (after : Cursor) : Prop where
  forward : after.rest <:+ cursor.rest
  reported : ∃ recorded, after.errors = recorded ++ cursor.errors ∧
    ∀ error ∈ recorded, error.kind = .outOfSteps → short
  refused : result = none → cursor.errors.length < after.errors.length
  silent : quiet → result ≠ none → after.errors = cursor.errors
  moved : ∀ value ∈ result, after.rest.length < limit value

def ReadsAt {α : Type} (quiet short : Prop) (limit : α → Nat) (cursor : Cursor) (reader : Reader α) : Prop :=
  Outcome quiet short limit cursor ((reader.run).run cursor).1 ((reader.run).run cursor).2

section Rules

variable {α β : Type} {quiet short : Prop} {limit : α → Nat} {final : β → Nat} {cursor : Cursor}

theorem Outcome.grown {result : Option α} {after : Cursor}
    (outcome : Outcome quiet short limit cursor result after) :
    cursor.errors.length ≤ after.errors.length := by
  obtain ⟨recorded, grown, _⟩ := outcome.reported
  simp [grown]

theorem Outcome.behind {middle after : Cursor} {result : Option α} (forward : middle.rest <:+ cursor.rest)
    (same : middle.errors = cursor.errors) (outcome : Outcome quiet short limit middle result after) :
    Outcome quiet short limit cursor result after where
  forward := outcome.forward.trans forward
  reported := same ▸ outcome.reported
  refused := same ▸ outcome.refused
  silent := same ▸ outcome.silent
  moved := outcome.moved

theorem Outcome.andThen {middle after : Cursor} {result : Option α} {found : Option β}
    (first : Outcome quiet short limit cursor result middle) (rest : Outcome quiet short final middle found after)
    (silent : quiet → result ≠ none) : Outcome quiet short final cursor found after := by
  obtain ⟨recorded, grown, enough⟩ := first.reported
  obtain ⟨more, grownMore, enoughMore⟩ := rest.reported
  have together : ∀ error ∈ more ++ recorded, error.kind = .outOfSteps → short :=
    List.forall_mem_append.mpr ⟨enoughMore, enough⟩
  exact {
    forward := rest.forward.trans first.forward
    reported := ⟨more ++ recorded, by rw [grownMore, grown, List.append_assoc], together⟩
    refused := fun failed => Nat.lt_of_le_of_lt first.grown (rest.refused failed)
    silent := fun isQuiet some => (rest.silent isQuiet some).trans (first.silent isQuiet (silent isQuiet))
    moved := rest.moved }

theorem reads_within {narrow : α → Nat} {reader : Reader α} (reads : ReadsAt quiet short narrow cursor reader)
    (wider : ∀ value, narrow value ≤ limit value) : ReadsAt quiet short limit cursor reader :=
  { reads with moved := fun value found => Nat.lt_of_lt_of_le (reads.moved value found) (wider value) }

theorem reads_unit {value : α} (fewer : cursor.rest.length < limit value) :
    ReadsAt quiet short limit cursor (pure value) where
  forward := List.suffix_refl _
  reported := ⟨[], rfl, by simp⟩
  refused := nofun
  silent := fun _ _ => rfl
  moved := by
    intro found same
    cases same
    exact fewer

theorem reads_seq {first : Reader α} {next : α → Reader β} (reads : ReadsAt quiet short limit cursor first)
    (readsNext : ∀ value after, after.rest.length < limit value →
      ReadsAt quiet short final after (next value)) :
    ReadsAt quiet short final cursor (first >>= next) := by
  unfold ReadsAt at reads ⊢
  rw [run_seq]
  revert reads
  rcases (first.run).run cursor with ⟨_ | value, after⟩ <;> intro reads
  · exact ⟨reads.forward, reads.reported, fun _ => reads.refused rfl, fun _ some => (some rfl).elim, nofun⟩
  · exact reads.andThen (readsNext value after (reads.moved value rfl)) nofun

theorem run_get (next : Cursor → Reader β) (cursor : Cursor) :
    ((get >>= next).run).run cursor = ((next cursor).run).run cursor := rfl

theorem run_modify (change : Cursor → Cursor) (next : Unit → Reader β) (cursor : Cursor) :
    (((modify change : Reader Unit) >>= next).run).run cursor = ((next ()).run).run (change cursor) := rfl

theorem reads_get {next : Cursor → Reader β} (readsNext : ReadsAt quiet short final cursor (next cursor)) :
    ReadsAt quiet short final cursor (get >>= next) := readsNext

theorem reads_move {change : Cursor → Cursor} {next : Unit → Reader β}
    (forward : (change cursor).rest <:+ cursor.rest) (same : (change cursor).errors = cursor.errors)
    (readsNext : ReadsAt quiet short final (change cursor) (next ())) :
    ReadsAt quiet short final cursor ((modify change : Reader Unit) >>= next) :=
  Outcome.behind forward same readsNext

theorem reads_advance {next : Unit → Reader β}
    (readsNext : ReadsAt quiet short final cursor.advance (next ())) :
    ReadsAt quiet short final cursor (advance >>= next) :=
  reads_move (by simp [List.tail_suffix]) cursor.advance_errors readsNext

theorem reads_skip {skip : TokenKind → Bool} {next : Unit → Reader β}
    (readsNext : ∀ start : Cursor, start.rest.length ≤ cursor.rest.length →
      ReadsAt quiet short final start (next ())) :
    ReadsAt quiet short final cursor ((modify (·.skipWhile skip) : Reader Unit) >>= next) :=
  reads_move (cursor.skip_while_suffix skip) rfl (readsNext _ (cursor.skip_while_suffix skip).length_le)

theorem synchronize_passes {failed : Cursor} (more : cursor.rest ≠ [])
    (behind : failed.rest.length ≤ cursor.rest.length) :
    failed.synchronize.rest.length < cursor.rest.length := by
  have shorter := failed.synchronize_suffix.length_le
  have nonempty := List.length_pos_iff.mpr more
  simp only [List.length_tail] at shorter
  omega

theorem reads_synchronize {next : Unit → Reader β}
    (readsNext : ReadsAt quiet short final cursor.synchronize (next ())) :
    ReadsAt quiet short final cursor ((modify Cursor.synchronize : Reader Unit) >>= next) :=
  reads_move (cursor.synchronize_suffix.trans (List.tail_suffix _)) cursor.synchronize_errors readsNext

theorem reads_fail {kind : ParseErrorKind} {locus : Locus} (enough : kind = .outOfSteps → short) :
    ReadsAt quiet short limit cursor (fail kind locus) where
  forward := List.suffix_refl _
  reported := ⟨[⟨kind, locus⟩], rfl, by simpa using enough⟩
  refused := fun _ => Nat.lt_succ_self _
  silent := fun _ some => (some rfl).elim
  moved := nofun

theorem reads_out_of_steps (few : short) : ReadsAt quiet short limit cursor outOfSteps :=
  reads_fail fun _ => few

theorem reads_fail_expected (expected : String) :
    ReadsAt quiet short limit cursor (failExpected expected) := by
  obtain ⟨error, grown, other⟩ := cursor.record_expected_errors expected
  exact {
    forward := (cursor.record_expected_rest expected) ▸ List.suffix_refl _
    reported := ⟨[error], grown, by simpa using fun isOut => (other isOut).elim⟩
    refused := fun _ => grown.symm ▸ Nat.lt_succ_self _
    silent := fun _ some => (some rfl).elim
    moved := nofun }

theorem reads_refusal {expected : String} {next : Unit → Reader β} :
    ReadsAt quiet short final cursor (failExpected expected >>= next) :=
  reads_seq (reads_fail_expected expected) fun _ _ (fewer : _ < 0) => nomatch fewer

theorem reads_refused {kind : ParseErrorKind} {locus : Locus} {next : Unit → Reader β}
    (enough : kind = .outOfSteps → short) :
    ReadsAt quiet short final cursor (fail kind locus >>= next) :=
  reads_seq (reads_fail enough) fun _ _ (fewer : _ < 0) => nomatch fewer

theorem advance_length (more : cursor.rest ≠ []) : cursor.advance.rest.length + 1 = cursor.rest.length := by
  have := List.length_pos_iff.mpr more
  simp
  omega

theorem no_kind (ends : cursor.kind? = none) : cursor.rest = [] := by
  simpa [Cursor.kind?] using ends

theorem kind_more {kind : TokenKind} (next : cursor.kind? = some kind) : cursor.rest ≠ [] := by
  intro empty
  simp [Cursor.kind?, empty] at next

theorem at_kind_more {kind : TokenKind} (isAt : cursor.isAt kind = true) : cursor.rest ≠ [] :=
  kind_more (by simpa [Cursor.isAt] using isAt)

theorem run_accept (kind : TokenKind) (cursor : Cursor) :
    ((accept kind).run).run cursor =
      if cursor.isAt kind then (some true, cursor.advance) else (some false, cursor) := by
  by_cases isAt : cursor.isAt kind = true
  · simp only [accept, run_seq, isAt, if_true]
    show ((if cursor.isAt kind = true then (do advance; return true) else return false).run).run cursor = _
    simp only [isAt, if_true]
    rfl
  · show ((if cursor.isAt kind = true then (do advance; return true) else return false).run).run cursor = _
    simp only [isAt]
    rfl

theorem reads_accept {kind : TokenKind} {next : Bool → Reader β}
    (readsYes : ∀ after : Cursor, after.rest.length < cursor.rest.length →
      ReadsAt quiet short final after (next true))
    (readsNo : ReadsAt quiet short final cursor (next false)) :
    ReadsAt quiet short final cursor (accept kind >>= next) := by
  unfold ReadsAt
  rw [run_seq, run_accept]
  by_cases isAt : cursor.isAt kind = true
  · have moved : cursor.advance.rest.length < cursor.rest.length := by
      have := advance_length (at_kind_more isAt)
      omega
    rw [if_pos isAt]
    exact Outcome.behind (by simp [List.tail_suffix]) cursor.advance_errors (readsYes _ moved)
  · rw [if_neg isAt]
    exact readsNo

theorem reads_at_keyword {keyword : Keyword} {next : Bool → Reader β}
    (readsNext : ReadsAt quiet short final cursor (next (cursor.isAtKeyword keyword))) :
    ReadsAt quiet short final cursor (isAtKeyword keyword >>= next) := readsNext

theorem reads_at_symbol {symbol : Symbol} {next : Bool → Reader β}
    (readsNext : ReadsAt quiet short final cursor (next (cursor.isAtSymbol symbol))) :
    ReadsAt quiet short final cursor (isAtSymbol symbol >>= next) := readsNext

theorem reads_expect (kind : TokenKind) (description : String) :
    ReadsAt quiet short (fun _ => cursor.rest.length) cursor (expect kind description) := by
  refine reads_get ?_
  split
  · next token rest next =>
    split
    · refine reads_advance (reads_unit ?_)
      simp [next]
    · exact reads_fail_expected _
  · exact reads_fail_expected _

theorem reads_expect_keyword (keyword : Keyword) (description : String) :
    ReadsAt quiet short (fun _ => cursor.rest.length) cursor (expectKeyword keyword description) :=
  reads_seq (reads_expect _ _) fun _ _ fewer => reads_unit fewer

theorem reads_expect_symbol (symbol : Symbol) (description : String) :
    ReadsAt quiet short (fun _ => cursor.rest.length) cursor (expectSymbol symbol description) :=
  reads_seq (reads_expect _ _) fun _ _ fewer => reads_unit fewer

theorem reads_expect_name (description : String) :
    ReadsAt quiet short (fun _ => cursor.rest.length) cursor (expectName description) :=
  reads_seq (reads_expect _ _) fun _ _ fewer => reads_unit fewer

theorem reads_attempt {reader : Reader α} {next : Option α → Reader β}
    (reads : ReadsAt False short limit cursor reader)
    (readsFound : ∀ value after, after.rest.length < limit value →
      ReadsAt False short final after (next (some value)))
    (readsNone : ∀ after : Cursor, after.rest.length ≤ cursor.rest.length →
      ReadsAt False short final after (next none)) :
    ReadsAt False short final cursor (attempt reader >>= next) := by
  unfold ReadsAt at reads ⊢
  rw [run_seq, run_attempt]
  revert reads
  rcases (reader.run).run cursor with ⟨_ | value, after⟩ <;> intro reads
  · exact reads.andThen (readsNone after reads.forward.length_le) False.elim
  · exact reads.andThen (readsFound value after (reads.moved value rfl)) False.elim

end Rules

def Plain {α : Type} (reader : Reader α) : Prop :=
  ∀ cursor : Cursor, ReadsAt True False (fun _ => cursor.rest.length + 1) cursor reader

section Plain

variable {α β : Type}

theorem Plain.reads {quiet short : Prop} {reader : Reader α} (plain : Plain reader) (cursor : Cursor) :
    ReadsAt quiet short (fun _ => cursor.rest.length + 1) cursor reader :=
  have outcome := plain cursor
  have ⟨recorded, grown, enough⟩ := outcome.reported
  { outcome with
    reported := ⟨recorded, grown, fun error inside isOut => (enough error inside isOut).elim⟩
    silent := fun _ => outcome.silent trivial }

theorem reads_when {quiet short : Prop} {final : β → Nat} {cursor : Cursor} {condition : Prop}
    [Decidable condition] {reader : Reader Unit} {next : Unit → Reader β} (plain : Plain reader)
    (readsNext : ∀ start : Cursor, start.rest.length ≤ cursor.rest.length →
      ReadsAt quiet short final start (next ())) :
    ReadsAt quiet short final cursor (if condition then reader >>= next else next ()) := by
  split
  · exact reads_seq (plain.reads cursor) fun _ start fewer => readsNext start (Nat.le_of_lt_succ fewer)
  · exact readsNext cursor (Nat.le_refl _)

theorem plain_unit (value : α) : Plain (pure value : Reader α) :=
  fun _ => reads_unit (Nat.lt_succ_self _)

theorem plain_seq {first : Reader α} {next : α → Reader β} (plain : Plain first)
    (plainNext : ∀ value, Plain (next value)) : Plain (first >>= next) :=
  fun cursor => reads_seq (plain cursor) fun value after fewer =>
    reads_within (plainNext value after) fun _ => by omega

theorem plain_map {change : α → β} {reader : Reader α} (plain : Plain reader) : Plain (change <$> reader) :=
  plain_seq plain fun _ => plain_unit _

theorem plain_get {next : Cursor → Reader α} (plainNext : ∀ cursor, Plain (next cursor)) :
    Plain (get >>= next) :=
  fun cursor => plainNext cursor cursor

theorem plain_move {change : Cursor → Cursor} (forward : ∀ cursor, (change cursor).rest <:+ cursor.rest)
    (same : ∀ cursor, (change cursor).errors = cursor.errors) : Plain (modify change : Reader Unit) :=
  fun cursor => Outcome.behind (forward cursor) (same cursor)
    (reads_unit (Nat.lt_succ_of_le (forward cursor).length_le))

theorem plain_advance : Plain advance :=
  plain_move (fun cursor => by simp [List.tail_suffix]) Cursor.advance_errors

theorem plain_skip (skip : TokenKind → Bool) : Plain (modify (·.skipWhile skip) : Reader Unit) :=
  plain_move (fun cursor => cursor.skip_while_suffix skip) fun _ => rfl

theorem plain_fail {kind : ParseErrorKind} (locus : Locus) (other : kind ≠ .outOfSteps) :
    Plain (fail kind locus : Reader α) :=
  fun _ => reads_fail fun isOut => (other isOut).elim

theorem plain_fail_expected (expected : String) : Plain (failExpected expected : Reader α) :=
  fun _ => reads_fail_expected expected

theorem plain_refusal {expected : String} {next : Unit → Reader β} : Plain (failExpected expected >>= next) :=
  fun _ => reads_refusal

theorem plain_refused {kind : ParseErrorKind} {locus : Locus} {next : Unit → Reader β}
    (other : kind ≠ .outOfSteps) : Plain (fail kind locus >>= next) :=
  fun _ => reads_refused fun isOut => (other isOut).elim

theorem plain_accept (kind : TokenKind) : Plain (accept kind) := by
  refine plain_get fun cursor => ?_
  split
  · exact plain_seq plain_advance fun _ => plain_unit _
  · exact plain_unit _

theorem plain_keyword (keyword : Keyword) : Plain (acceptKeyword keyword) := plain_accept _

theorem plain_symbol (symbol : Symbol) : Plain (acceptSymbol symbol) := plain_accept _

theorem plain_at_symbol (symbol : Symbol) : Plain (isAtSymbol symbol) := plain_get fun _ => plain_unit _

theorem plain_expect (kind : TokenKind) (description : String) : Plain (expect kind description) :=
  fun _ => reads_within (reads_expect kind description) fun _ => Nat.le_succ _

theorem plain_expect_keyword (keyword : Keyword) (description : String) :
    Plain (expectKeyword keyword description) :=
  plain_seq (plain_expect _ _) fun _ => plain_unit _

theorem plain_expect_symbol (symbol : Symbol) (description : String) :
    Plain (expectSymbol symbol description) :=
  plain_seq (plain_expect _ _) fun _ => plain_unit _

theorem plain_expect_name (description : String) : Plain (expectName description) :=
  plain_seq (plain_expect _ _) fun _ => plain_unit _

end Plain

end Reader

end BasicLang
