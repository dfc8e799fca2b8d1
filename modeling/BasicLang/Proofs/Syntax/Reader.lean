import BasicLang.Proofs.Syntax.WellFormed
import BasicLang.Syntax.Cursor

set_option autoImplicit false

namespace BasicLang

def Token.Lexed (token : Token) : Prop :=
  token.kind = .identifier ∨ (∃ keyword, token.kind = .keyword keyword) → SourceName token.text

def Cursor.Lexed (cursor : Cursor) : Prop := ∀ token ∈ cursor.rest, token.Lexed

namespace Reader

/-- What a reader gives, when it does, from tokens of the lexer. -/
def Yields {α : Type} (result : α → Prop) (reader : Reader α) : Prop :=
  ∀ cursor : Cursor, cursor.Lexed →
    ((reader.run).run cursor).2.Lexed ∧ ∀ value, ((reader.run).run cursor).1 = some value → result value

section Rules

variable {α β : Type} {result : α → Prop} {final : β → Prop}

theorem yields_unit {value : α} (holds : result value) : Yields result (pure value) :=
  fun _ lexed => ⟨lexed, fun _ same => Option.some.inj same ▸ holds⟩

theorem run_seq (first : Reader α) (next : α → Reader β) (cursor : Cursor) :
    ((first >>= next).run).run cursor =
      match (first.run).run cursor with
      | (some value, after) => ((next value).run).run after
      | (none, after) => (none, after) := by
  simp only [OptionT.run_bind, StateT.run_bind, Option.elimM]
  rcases (first.run).run cursor with ⟨_ | value, after⟩ <;> rfl

theorem run_attempt (reader : Reader α) (cursor : Cursor) :
    ((attempt reader).run).run cursor = (some ((reader.run).run cursor).1, ((reader.run).run cursor).2) := by
  simp only [attempt, OptionT.run_lift, StateT.run_bind]
  rfl

theorem yields_seq {first : Reader α} {next : α → Reader β} (yieldsFirst : Yields result first)
    (yieldsNext : ∀ value, result value → Yields final (next value)) :
    Yields final (first >>= next) := by
  intro cursor lexed
  have start := yieldsFirst cursor lexed
  rw [run_seq]
  revert start
  rcases (first.run).run cursor with ⟨_ | value, after⟩
  · exact fun start => ⟨start.1, fun _ found => nomatch found⟩
  · exact fun start => yieldsNext value (start.2 value rfl) after start.1

theorem yields_branch {condition : Prop} [Decidable condition] {accepted refused : Reader α}
    (yields : Yields result accepted) (otherwise : Yields result refused) :
    Yields result (if condition then accepted else refused) := by
  split
  · exact yields
  · exact otherwise

theorem yields_when {condition : Prop} [Decidable condition] {reader : Reader Unit} {next : Unit → Reader α}
    (yields : Yields (fun _ => True) reader) (yieldsNext : Yields result (next ())) :
    Yields result (if condition then reader >>= next else next ()) :=
  yields_branch (yields_seq yields fun _ _ => yieldsNext) yieldsNext

theorem yields_weaken {weaker : α → Prop} {reader : Reader α} (yields : Yields result reader)
    (weaken : ∀ value, result value → weaker value) : Yields weaker reader :=
  fun cursor lexed =>
    ⟨(yields cursor lexed).1, fun value found => weaken value ((yields cursor lexed).2 value found)⟩

theorem yields_nothing : Yields result failure := fun _ lexed => ⟨lexed, fun _ found => nomatch found⟩

theorem yields_get : Yields Cursor.Lexed (get : Reader Cursor) :=
  fun _ lexed => ⟨lexed, fun _ same => Option.some.inj same ▸ lexed⟩

theorem yields_modify {change : Cursor → Cursor}
    (keeps : ∀ cursor, cursor.Lexed → (change cursor).Lexed) :
    Yields (fun _ => True) (modify change : Reader Unit) :=
  fun cursor lexed => ⟨keeps cursor lexed, fun _ _ => trivial⟩

theorem yields_set {cursor : Cursor} (lexed : cursor.Lexed) :
    Yields (fun _ => True) (set cursor : Reader Unit) :=
  fun _ _ => ⟨lexed, fun _ _ => trivial⟩

theorem yields_attempt {reader : Reader α} (yields : Yields result reader) :
    Yields (fun found => ∀ value ∈ found, result value) (attempt reader) := by
  intro cursor lexed
  have inner := yields cursor lexed
  rw [run_attempt]
  exact ⟨inner.1, fun found same value inside => inner.2 value (Option.some.inj same ▸ inside)⟩

end Rules

theorem advance_lexed (cursor : Cursor) (lexed : cursor.Lexed) : cursor.advance.Lexed := by
  unfold Cursor.advance
  split
  · next token rest found =>
    intro other inside
    exact lexed other (by rw [found]; exact List.mem_cons_of_mem _ inside)
  · exact lexed

theorem skip_while_lexed (skip : TokenKind → Bool) (cursor : Cursor) (lexed : cursor.Lexed) :
    (cursor.skipWhile skip).Lexed :=
  fun token inside => lexed token ((List.dropWhile_suffix _).subset inside)

theorem record_expected_lexed (expected : String) (cursor : Cursor) (lexed : cursor.Lexed) :
    (cursor.recordExpected expected).Lexed := by
  unfold Cursor.recordExpected
  split <;> exact lexed

theorem recover_from_suffix (previous : Option Token) (tokens : List Token) :
    (Cursor.recoverFrom previous tokens).2 <:+ tokens := by
  induction tokens generalizing previous with
  | nil => exact List.suffix_refl _
  | cons token rest ih =>
    unfold Cursor.recoverFrom
    split
    · exact List.suffix_refl _
    · exact (ih _).trans (List.suffix_cons _ _)

theorem synchronize_lexed (cursor : Cursor) (lexed : cursor.Lexed) : cursor.synchronize.Lexed :=
  fun token inside =>
    advance_lexed cursor lexed token ((recover_from_suffix _ _).subset inside)

theorem yields_advance : Yields (fun _ => True) advance := yields_modify advance_lexed

theorem yields_skip (skip : TokenKind → Bool) :
    Yields (fun _ => True) (modify (·.skipWhile skip) : Reader Unit) :=
  yields_modify (skip_while_lexed skip)

theorem yields_fail {α : Type} {result : α → Prop} (kind : ParseErrorKind) (locus : Locus) :
    Yields result (fail kind locus) :=
  yields_seq (yields_modify fun _ lexed => lexed) fun _ _ => yields_nothing

theorem yields_out_of_steps {α : Type} {result : α → Prop} : Yields result outOfSteps :=
  yields_seq yields_get fun _ _ => yields_fail _ _

theorem yields_fail_expected {α : Type} {result : α → Prop} (expected : String) :
    Yields result (failExpected expected) :=
  yields_seq (yields_modify (record_expected_lexed expected)) fun _ _ => yields_nothing

theorem yields_refusal {α : Type} {result : α → Prop} (expected : String) {next : Unit → Reader α}
    (yields : ∀ value, Yields result (next value)) :
    Yields result (failExpected expected >>= next) :=
  have refused : Yields (fun _ => True) (failExpected expected) := yields_fail_expected expected
  yields_seq refused fun value _ => yields value

theorem yields_refused {α : Type} {result : α → Prop} (kind : ParseErrorKind) (locus : Locus)
    {next : Unit → Reader α} (yields : ∀ value, Yields result (next value)) :
    Yields result (fail kind locus >>= next) :=
  have refused : Yields (fun _ => True) (fail kind locus) := yields_fail kind locus
  yields_seq refused fun value _ => yields value

theorem yields_accept (kind : TokenKind) : Yields (fun _ => True) (accept kind) := by
  refine yields_seq yields_get fun cursor _ => ?_
  split
  · exact yields_seq yields_advance fun _ _ => yields_unit trivial
  · exact yields_unit trivial

theorem yields_is_at_keyword (keyword : Keyword) : Yields (fun _ => True) (isAtKeyword keyword) :=
  yields_seq yields_get fun _ _ => yields_unit trivial

theorem yields_is_at_symbol (symbol : Symbol) : Yields (fun _ => True) (isAtSymbol symbol) :=
  yields_seq yields_get fun _ _ => yields_unit trivial

theorem yields_expect (kind : TokenKind) (description : String) :
    Yields (fun token => token.Lexed ∧ token.kind = kind) (expect kind description) := by
  refine yields_seq yields_get fun cursor lexed => ?_
  split
  · next token rest found =>
    split
    · next same =>
      exact yields_seq yields_advance fun _ _ =>
        yields_unit ⟨lexed token (by rw [found]; exact List.mem_cons_self), same⟩
    · exact yields_fail_expected _
  · exact yields_fail_expected _

theorem yields_expect_keyword (keyword : Keyword) (description : String) :
    Yields (fun _ => True) (expectKeyword keyword description) :=
  yields_seq (yields_expect _ _) fun _ _ => yields_unit trivial

theorem yields_expect_symbol (symbol : Symbol) (description : String) :
    Yields (fun _ => True) (expectSymbol symbol description) :=
  yields_seq (yields_expect _ _) fun _ _ => yields_unit trivial

theorem letter_upper {char : Char} (letter : Lexeme.isLetter char = true) :
    Lexeme.isLetter char.toUpper = true := by
  unfold Char.toUpper
  split
  · next lower =>
    simp only [Lexeme.isLetter, Bool.or_eq_true, Bool.and_eq_true, decide_eq_true_eq, Char.le_def,
      UInt32.le_iff_toNat_le] at lower ⊢
    have lowerA : 'a'.val.toNat = 97 := rfl
    have lowerZ : 'z'.val.toNat = 122 := rfl
    have upperA : 'A'.val.toNat = 65 := rfl
    have upperZ : 'Z'.val.toNat = 90 := rfl
    have shift : ('A'.val - 'a'.val).toNat = 4294967264 := rfl
    have moved : (char.val + ('A'.val - 'a'.val)).toNat = char.val.toNat - 32 := by
      rw [UInt32.toNat_add]
      omega
    left
    rw [moved]
    omega
  · exact letter

theorem upper_source_name {text : String} (named : SourceName text) :
    SourceName (Text.upperAscii text) := by
  obtain ⟨first, rest, spelled, letter⟩ := named
  exact ⟨first.toUpper, rest.map Char.toUpper, by simp [Text.upperAscii, String.toList_map, spelled],
    letter_upper letter⟩

theorem yields_expect_name (description : String) :
    Yields (fun found => SourceName found.1) (expectName description) :=
  yields_seq (yields_expect _ _) fun _ found =>
    yields_unit (upper_source_name (found.1 (.inl found.2)))

end Reader

end BasicLang
