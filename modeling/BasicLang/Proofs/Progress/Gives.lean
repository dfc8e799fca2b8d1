import BasicLang.Proofs.Progress.Reader
import BasicLang.Syntax.BlockGrammar

set_option autoImplicit false

namespace BasicLang

namespace Cursor

def behindSeparators (cursor : Cursor) : Cursor :=
  cursor.skipWhile fun kind => kind == .newline || kind == .symbol .colon

def behindTrivia (cursor : Cursor) : Cursor :=
  cursor.skipWhile fun kind =>
    kind == .newline || kind == .symbol .colon || kind == .comment || kind == .remComment

theorem behind_separators_errors (cursor : Cursor) : cursor.behindSeparators.errors = cursor.errors := rfl

theorem behind_trivia_errors (cursor : Cursor) : cursor.behindTrivia.errors = cursor.errors := rfl

end Cursor

namespace Reader

/-- The reader goes from one cursor to the other and gives the value. -/
def Gives {α : Type} (reader : Reader α) (cursor : Cursor) (value : α) (after : Cursor) : Prop :=
  (reader.run).run cursor = (some value, after)

section Gives

variable {α β : Type} {cursor after : Cursor}

theorem gives_unit {value found : α} : Gives (pure value) cursor found after ↔ found = value ∧ after = cursor := by
  unfold Gives
  show (some value, cursor) = (some found, after) ↔ _
  simp [eq_comm]

theorem gives_seq {first : Reader α} {next : α → Reader β} {value : β} :
    Gives (first >>= next) cursor value after ↔
      ∃ found middle, Gives first cursor found middle ∧ Gives (next found) middle value after := by
  unfold Gives
  rw [run_seq]
  rcases (first.run).run cursor with ⟨_ | found, middle⟩
  · exact ⟨nofun, fun ⟨_, _, same, _⟩ => nomatch same⟩
  · constructor
    · exact fun gives => ⟨found, middle, rfl, gives⟩
    · rintro ⟨_, _, same, gives⟩
      cases same
      exact gives

theorem gives_get {next : Cursor → Reader α} {value : α} :
    Gives (get >>= next) cursor value after ↔ Gives (next cursor) cursor value after := Iff.rfl

theorem gives_modify {change : Cursor → Cursor} {next : Unit → Reader α} {value : α} :
    Gives ((modify change : Reader Unit) >>= next) cursor value after ↔
      Gives (next ()) (change cursor) value after := Iff.rfl

theorem gives_skip_separators {next : Unit → Reader α} {value : α} :
    Gives (skipSeparators >>= next) cursor value after ↔
      Gives (next ()) cursor.behindSeparators value after := Iff.rfl

theorem gives_skip_trivia {next : Unit → Reader α} {value : α} :
    Gives (skipTrivia >>= next) cursor value after ↔ Gives (next ()) cursor.behindTrivia value after := Iff.rfl

theorem gives_attempt {reader : Reader α} {next : Option α → Reader β} {value : β} :
    Gives (attempt reader >>= next) cursor value after ↔
      (∃ found middle, Gives reader cursor found middle ∧ Gives (next (some found)) middle value after) ∨
      ∃ middle, (reader.run).run cursor = (none, middle) ∧ Gives (next none) middle value after := by
  unfold Gives
  rw [run_seq, run_attempt]
  rcases (reader.run).run cursor with ⟨_ | found, middle⟩
  · constructor
    · exact fun gives => .inr ⟨middle, rfl, gives⟩
    · rintro (⟨_, _, same, _⟩ | ⟨_, same, gives⟩)
      · cases same
      · cases same
        exact gives
  · constructor
    · exact fun gives => .inl ⟨found, middle, rfl, gives⟩
    · rintro (⟨_, _, same, gives⟩ | ⟨_, same, _⟩)
      · cases same
        exact gives
      · cases same

theorem gives_advance {next : Unit → Reader α} {value : α} :
    Gives (advance >>= next) cursor value after ↔ Gives (next ()) cursor.advance value after := Iff.rfl

theorem gives_at_keyword {keyword : Keyword} {next : Bool → Reader α} {value : α} :
    Gives (isAtKeyword keyword >>= next) cursor value after ↔
      Gives (next (cursor.isAtKeyword keyword)) cursor value after := Iff.rfl

theorem gives_accept {kind : TokenKind} {next : Bool → Reader α} {value : α} :
    Gives (accept kind >>= next) cursor value after ↔
      (cursor.isAt kind = true ∧ Gives (next true) cursor.advance value after) ∨
      (cursor.isAt kind = false ∧ Gives (next false) cursor value after) := by
  unfold Gives
  rw [run_seq, run_accept]
  cases cursor.isAt kind with
  | true => simp
  | false => simp

theorem gives_fail {kind : ParseErrorKind} {locus : Locus} {value : α} :
    ¬Gives (fail kind locus) cursor value after := nofun

theorem gives_refused {kind : ParseErrorKind} {locus : Locus} {next : Unit → Reader α} {value : α} :
    ¬Gives (fail kind locus >>= next) cursor value after := by
  rw [gives_seq]
  exact fun ⟨_, _, failed, _⟩ => gives_fail failed

theorem gives_fail_expected {expected : String} {value : α} :
    ¬Gives (failExpected expected) cursor value after := nofun

theorem gives_out_of_steps {value : α} : ¬Gives outOfSteps cursor value after := nofun

theorem ReadsAt.same_errors {short : Prop} {limit : α → Nat} {reader : Reader α} {value : α}
    (reads : ReadsAt True short limit cursor reader) (gives : Gives reader cursor value after) :
    after.errors = cursor.errors := by
  have silent := reads.silent trivial
  rw [gives] at silent
  exact silent nofun

theorem Plain.same_errors {reader : Reader α} (plain : Plain reader) {value : α}
    (gives : Gives reader cursor value after) : after.errors = cursor.errors :=
  (plain cursor).same_errors gives

theorem Plain.clean {reader : Reader α} (plain : Plain reader) {value : α}
    (gives : Gives reader cursor value after) (clean : after.errors = []) : cursor.errors = [] :=
  (plain.same_errors gives).symm.trans clean

theorem ReadsAt.fewer {quiet short : Prop} {limit : α → Nat} {reader : Reader α} {value : α}
    (reads : ReadsAt quiet short limit cursor reader) (gives : Gives reader cursor value after) :
    after.rest.length < limit value := by
  unfold ReadsAt at reads
  rw [gives] at reads
  exact reads.moved value rfl

theorem Plain.no_more {reader : Reader α} {value : α} (plain : Plain reader)
    (gives : Gives reader cursor value after) : after.rest.length ≤ cursor.rest.length :=
  Nat.le_of_lt_succ ((plain cursor).fewer gives)

end Gives

theorem gives_advance_if {α : Type} {condition : Prop} [Decidable condition] {next : Unit → Reader α}
    {start after : Cursor} {value : α} :
    Gives (if condition then advance >>= next else next ()) start value after ↔
      Gives (next ()) (if condition then start.advance else start) value after := by
  split
  · exact gives_advance
  · exact Iff.rfl

theorem gives_stmt_fuel {α : Type} {next : Nat → Reader α} {start after : Cursor} {value : α} :
    Gives (stmtFuel >>= next) start value after ↔ Gives (next (4 * start.rest.length + 4)) start value after :=
  Iff.rfl

end Reader

end BasicLang
