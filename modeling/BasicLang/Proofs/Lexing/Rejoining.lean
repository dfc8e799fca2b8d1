import Mathlib.Data.List.Chain
import Mathlib.Data.List.Forall2
import BasicLang.Proofs.Lexing.Coverage
import BasicLang.Proofs.Lexing.Rereading
import BasicLang.Text.Blank

set_option autoImplicit false

namespace BasicLang

structure Word where
  kind : TokenKind
  text : List Char

namespace Word

def Same (word again : Word) : Prop :=
  again.kind = word.kind ∧
    Text.trimEnd isBlank (String.ofList again.text) = Text.trimEnd isBlank (String.ofList word.text)

/-- The word is found where its text stands before a blank or the end, and a remark goes on up to the end of the line. -/
def IsFound (word : Word) : Prop :=
  ∃ char more, word.text = char :: more ∧ Lexeme.isGap char = false ∧ (word.kind = .newline → char = '\n' ∧ more = []) ∧
    ∀ tail, Lexeme.Stops tail → Lexeme.first char (more ++ tail) =
      (.token word.kind, word.text.length + if word.kind.isRemark then Lexeme.restOfLine tail else 0)

def KeepsLine (word next : Word) : Prop := word.kind.isRemark = true → next.kind = .newline

end Word

def Piece.word? (piece : Piece) : Option Word :=
  match piece.lexeme with
  | .token kind => some ⟨kind, piece.text⟩
  | _ => none

def Piece.isFault (piece : Piece) : Bool :=
  match piece.lexeme with
  | .unterminated => true
  | .illegal => true
  | _ => false

def wordsOf (chars : List Char) : List Word := (piecesOf chars).filterMap Piece.word?

def IsClean (chars : List Char) : Prop := ∀ piece ∈ piecesOf chars, piece.isFault = false

def spaced (words : List Word) : List Char := [' '].intercalate (words.map Word.text)

def ComeBack (words : List Word) : Prop :=
  IsClean (spaced words) ∧ List.Forall₂ Word.Same words (wordsOf (spaced words))

section Steps

variable {word next : Word} {words : List Word} {chars tail : List Char}

theorem Word.same_refl (word : Word) : word.Same word := ⟨rfl, rfl⟩

theorem Word.same_blank (word : Word) : word.Same ⟨word.kind, word.text ++ [' ']⟩ := by
  refine ⟨rfl, ?_⟩
  have blank : isBlank ' ' = true := by decide
  simp [Text.trimEnd, blank]

theorem words_token {kind : TokenKind} {char : Char} {rest : List Char} {length : Nat}
    (reads : Lexeme.first char rest = (.token kind, length)) : wordsOf (char :: rest) =
      ⟨kind, (char :: rest).take length⟩ :: wordsOf ((char :: rest).drop length) := by
  rw [wordsOf, pieces_cons reads]
  rfl

theorem words_skipped {char : Char} {rest : List Char} {length : Nat}
    (reads : Lexeme.first char rest = (.skipped, length)) :
    wordsOf (char :: rest) = wordsOf ((char :: rest).drop length) := by
  rw [wordsOf, pieces_cons reads]
  rfl

theorem clean_cons {char : Char} {rest : List Char} {lexeme : Lexeme} {length : Nat}
    (reads : Lexeme.first char rest = (lexeme, length)) : IsClean (char :: rest) ↔
      lexeme ≠ .unterminated ∧ lexeme ≠ .illegal ∧ IsClean ((char :: rest).drop length) := by
  rw [IsClean, pieces_cons reads, List.forall_mem_cons]
  cases lexeme <;> simp [Piece.isFault, IsClean]

theorem word_found (found : word.IsFound) (stops : Lexeme.Stops tail) :
    let taken := if word.kind.isRemark then Lexeme.restOfLine tail else 0
    wordsOf (word.text ++ tail) = ⟨word.kind, word.text ++ tail.take taken⟩ :: wordsOf (tail.drop taken) ∧
      (IsClean (word.text ++ tail) ↔ IsClean (tail.drop taken)) := by
  obtain ⟨char, more, isText, -, -, reads⟩ := found
  have read := reads tail stops
  intro taken
  rw [isText] at read ⊢
  rw [List.cons_append, words_token read, clean_cons read, ← List.cons_append,
    List.take_length_add_append, List.drop_length_add_append]
  exact ⟨rfl, by simp [taken]⟩

theorem blank_skipped (others : ∀ char ∈ chars.head?, Lexeme.isGap char = false) :
    wordsOf (' ' :: chars) = wordsOf chars ∧ (IsClean (' ' :: chars) ↔ IsClean chars) := by
  have single : Lexeme.run Lexeme.isGap (' ' :: chars) = 1 := by
    rw [Lexeme.run_cons rfl]
    cases chars with
    | nil => rfl
    | cons char rest => rw [Lexeme.run_none (others char rfl)]
  have read : Lexeme.first ' ' chars = (.skipped, 1) := congrArg (Prod.mk Lexeme.skipped) single
  rw [words_skipped read, clean_cons read]
  exact ⟨rfl, by simp⟩

theorem spaced_head (words : List Word) (found : next.IsFound) :
    ∀ char ∈ (spaced (next :: words)).head?, Lexeme.isGap char = false := by
  obtain ⟨char, more, isText, noGap, -, -⟩ := found
  have begins : ∃ further, spaced (next :: words) = char :: further := by
    cases words with
    | nil => exact ⟨more, by simp [spaced, isText]⟩
    | cons word words => exact ⟨_, by rw [spaced, List.map_cons, List.map_cons, List.intercalate_cons_cons, isText]; rfl⟩
  obtain ⟨further, same⟩ := begins
  rw [same]
  intro first isFirst
  obtain rfl := Option.some.inj isFirst
  exact noGap

theorem spaced_break (words : List Word) (found : next.IsFound) (breaks : next.kind = .newline) :
    ∃ rest, spaced (next :: words) = '\n' :: rest := by
  obtain ⟨char, more, isText, -, isBreak, -⟩ := found
  obtain ⟨rfl, rfl⟩ := isBreak breaks
  cases words with
  | nil => exact ⟨[], by simp [spaced, isText]⟩
  | cons word words => exact ⟨_, by rw [spaced, List.map_cons, List.map_cons, List.intercalate_cons_cons, isText]; rfl⟩

theorem spaced_cons : spaced (word :: next :: words) = word.text ++ ' ' :: spaced (next :: words) := by
  rw [spaced, List.map_cons, List.map_cons, List.intercalate_cons_cons, List.append_assoc]
  rfl

theorem line_end (chars : List Char) : chars.drop (Lexeme.restOfLine chars) = [] ∨
    ∃ rest, chars.drop (Lexeme.restOfLine chars) = '\n' :: rest := by
  have rest : chars.drop (Lexeme.restOfLine chars) = chars.dropWhile (· != '\n') := Lexeme.drop_run _ _
  rw [rest]
  induction chars with
  | nil => exact .inl rfl
  | cons char chars ih =>
    by_cases breaks : char = '\n'
    · subst breaks
      exact .inr ⟨chars, by simp⟩
    · rw [List.dropWhile_cons_of_pos (by simpa using breaks)]
      exact ih (Lexeme.drop_run _ _)

theorem words_break (rest : List Char) : ∃ text words, wordsOf ('\n' :: rest) = ⟨.newline, text⟩ :: words :=
  ⟨_, _, words_token rfl⟩

theorem come_back_cons (found : word.IsFound) (foundNext : next.IsFound) :
    ComeBack (word :: next :: words) ↔ word.KeepsLine next ∧ ComeBack (next :: words) := by
  have stops : Lexeme.Stops (' ' :: spaced (next :: words)) := fun first isFirst => (Option.some.inj isFirst).symm
  obtain ⟨blankWords, blankClean⟩ := blank_skipped (spaced_head words foundNext)
  obtain ⟨foundWords, foundClean⟩ := word_found found stops
  rw [ComeBack, spaced_cons, foundWords, foundClean, List.forall₂_cons]
  cases remark : word.kind.isRemark with
  | false =>
    simp only [Bool.false_eq_true, if_false, List.take_zero, List.append_nil, List.drop_zero, blankWords, blankClean]
    have keeps : word.KeepsLine next := fun isRemark => nomatch remark.symm.trans isRemark
    exact ⟨fun ⟨clean, _, others⟩ => ⟨keeps, clean, others⟩, fun ⟨_, clean, others⟩ => ⟨clean, word.same_refl, others⟩⟩
  | true =>
    simp only [if_true]
    by_cases breaks : next.kind = .newline
    · have keeps : word.KeepsLine next := fun _ => breaks
      obtain ⟨rest, begins⟩ := spaced_break words foundNext breaks
      have line : Lexeme.restOfLine (' ' :: spaced (next :: words)) = 1 := by
        rw [Lexeme.rest_of_line_blank, begins]
        rfl
      rw [line]
      exact ⟨fun ⟨clean, _, others⟩ => ⟨keeps, clean, others⟩,
        fun ⟨_, clean, others⟩ => ⟨clean, word.same_blank, others⟩⟩
    · refine ⟨fun ⟨_, _, others⟩ => ?_, fun ⟨keeps, _⟩ => absurd (keeps remark) breaks⟩
      exfalso
      obtain ended | ⟨rest, begins⟩ := line_end (' ' :: spaced (next :: words))
      · rw [ended, wordsOf, piecesOf] at others
        cases others
      · obtain ⟨text, further, isBreak⟩ := words_break rest
        rw [begins, isBreak, List.forall₂_cons] at others
        exact breaks others.1.1.symm

theorem come_back_iff (found : ∀ word ∈ words, word.IsFound) : ComeBack words ↔ words.IsChain Word.KeepsLine := by
  induction words with
  | nil => simp [ComeBack, spaced, IsClean, wordsOf, piecesOf]
  | cons word words ih =>
    have foundFirst := found word List.mem_cons_self
    have foundOthers : ∀ next ∈ words, next.IsFound := fun next inside => found next (List.mem_cons_of_mem _ inside)
    cases words with
    | nil =>
      have stops : Lexeme.Stops [] := by simp [Lexeme.Stops]
      have alone : spaced [word] = word.text ++ [] := by simp [spaced]
      have none : (if word.kind.isRemark then Lexeme.restOfLine [] else 0) = 0 := ite_self 0
      obtain ⟨foundWords, foundClean⟩ := word_found foundFirst stops
      rw [ComeBack, alone, foundWords, foundClean, none]
      simp [wordsOf, piecesOf, IsClean, word.same_refl]
    | cons next words =>
      rw [List.isChain_cons_cons, come_back_cons foundFirst (foundOthers next List.mem_cons_self), ih foundOthers]

end Steps

section Source

variable {char : Char} {rest chars : List Char} {kind : TokenKind} {length : Nat}

theorem token_no_gap (reads : Lexeme.first char rest = (.token kind, length)) : Lexeme.isGap char = false := by
  refine Bool.eq_false_iff.mpr fun blank => ?_
  unfold Lexeme.first at reads
  dsimp only at reads
  split at reads
  · cases reads
  · next noBlank => exact noBlank blank

theorem word_kind (chars : List Char) : (Lexeme.word chars).1 ≠ .newline ∧ (Lexeme.word chars).1 ≠ .comment := by
  rw [Lexeme.word_parts]
  split
  · simp
  split
  · simp
  · unfold Lexeme.wordKind
    split <;> simp

theorem breaks_or_comments (reads : Lexeme.Reads char rest (.token kind) length) :
    (kind = .newline → char = '\n' ∧ length = 1) ∧ (kind = .comment → length = 1 + Lexeme.restOfLine rest) := by
  cases reads with
  | newline breaks => exact ⟨fun _ => ⟨breaks, rfl⟩, nofun⟩
  | comment remarks => exact ⟨nofun, fun _ => rfl⟩
  | word letter => exact ⟨fun same => absurd same (word_kind _).1, fun same => absurd same (word_kind _).2⟩
  | number starts =>
    rcases Lexeme.number_kind (char :: rest) with same | same <;> rw [same] <;> exact ⟨nofun, nofun⟩
  | radix marks found =>
    obtain rfl | rfl | rfl := Lexeme.radix_kind found <;> exact ⟨nofun, nofun⟩
  | quoted | symbol => exact ⟨nofun, nofun⟩

theorem token_reads (reads : Lexeme.first char rest = (.token kind, length)) :
    Lexeme.Reads char rest (.token kind) length := by
  have read := Lexeme.first_reads char rest
  rwa [reads] at read

theorem token_found (reads : Lexeme.first char rest = (.token kind, length)) :
    Word.IsFound ⟨kind, (char :: rest).take length⟩ := by
  have isRead := token_reads reads
  obtain ⟨more, rfl⟩ := Nat.exists_eq_add_one_of_ne_zero (Nat.ne_of_gt isRead.length_pos)
  refine ⟨char, rest.take more, rfl, token_no_gap reads, fun isBreak => ?_, fun tail stops => ?_⟩
  · obtain ⟨breaks, single⟩ := (breaks_or_comments isRead).1 isBreak
    obtain rfl : more = 0 := by omega
    exact ⟨breaks, rfl⟩
  · obtain ⟨within, again⟩ := Lexeme.reads_again stops isRead
    rw [Nat.add_sub_cancel] at again
    rw [again, List.length_take, List.length_cons, Nat.min_eq_left within]

theorem source_found (chars : List Char) : ∀ word ∈ wordsOf chars, word.IsFound := by
  fun_induction piecesOf chars with
  | case1 => simp [wordsOf, piecesOf]
  | case2 char rest length ih =>
    rcases reads : Lexeme.first char rest with ⟨lexeme, size⟩
    have isSize : length = size := congrArg Prod.snd reads
    rw [isSize] at ih
    cases lexeme with
    | token kind =>
      rw [words_token reads, List.forall_mem_cons]
      exact ⟨token_found reads, ih⟩
    | skipped => rwa [words_skipped reads]
    | unterminated | illegal =>
      rw [wordsOf, pieces_cons reads]
      exact ih

theorem comment_keeps_line (chars : List Char) :
    (wordsOf chars).IsChain fun word next => word.kind = .comment → next.kind = .newline := by
  fun_induction piecesOf chars with
  | case1 => simp [wordsOf, piecesOf]
  | case2 char rest length ih =>
    rcases reads : Lexeme.first char rest with ⟨lexeme, size⟩
    have isSize : length = size := congrArg Prod.snd reads
    rw [isSize] at ih
    cases lexeme with
    | token kind =>
      rw [words_token reads, List.isChain_cons]
      refine ⟨fun next isNext isComment => ?_, ih⟩
      have line := (breaks_or_comments (token_reads reads)).2 isComment
      rw [line, Nat.add_comm, List.drop_succ_cons] at isNext
      obtain ended | ⟨further, begins⟩ := line_end rest
      · rw [ended, wordsOf, piecesOf] at isNext
        cases isNext
      · obtain ⟨text, words, isBreak⟩ := words_break further
        rw [begins, isBreak] at isNext
        exact congrArg Word.kind (Option.some.inj isNext).symm
    | skipped => rwa [words_skipped reads]
    | unterminated | illegal =>
      rw [wordsOf, pieces_cons reads]
      exact ih

end Source

section Tokens

def Token.word (token : Token) : Word := ⟨token.kind, token.text.toList⟩

def Token.Same (token again : Token) : Prop :=
  again.kind = token.kind ∧ Text.trimEnd isBlank again.text = Text.trimEnd isBlank token.text

/-- The tokens are read again from their texts with blanks between them. -/
def Token.ReadAgain (tokens : List Token) : Prop :=
  let again := tokenize (" ".intercalate (tokens.map Token.text))
  again.2 = [] ∧ List.Forall₂ Token.Same tokens again.1

theorem Token.same_word (token again : Token) : token.Same again ↔ token.word.Same again.word := by
  simp [Same, Word.Same, word]

theorem parts_words (before : List Char) (pieces : List Piece) :
    ((partsBehind before pieces).filterMap Part.token?).map Token.word = pieces.filterMap Piece.word? := by
  induction pieces generalizing before with
  | nil => rfl
  | cons piece pieces ih =>
    rcases piece with ⟨lexeme, text⟩
    have further := ih (before ++ text)
    cases lexeme with
    | token kind => simp [partsBehind, Piece.placed, Piece.word?, Part.token?, Token.word, further]
    | skipped | unterminated | illegal => exact further

theorem parts_faults (before : List Char) (pieces : List Piece) :
    (partsBehind before pieces).filterMap Part.error? = [] ↔ ∀ piece ∈ pieces, piece.isFault = false := by
  induction pieces generalizing before with
  | nil => simp [partsBehind]
  | cons piece pieces ih =>
    rcases piece with ⟨lexeme, text⟩
    have further := ih (before ++ text)
    rw [List.forall_mem_cons, ← further]
    cases lexeme <;> simp [partsBehind, Piece.placed, Piece.isFault, Part.error?]

theorem tokenize_words (source : String) : (tokenize source).1.map Token.word = wordsOf source.toList := by
  rw [tokenize_parts]
  exact parts_words [] _

theorem tokenize_clean (source : String) : (tokenize source).2 = [] ↔ IsClean source.toList := by
  rw [tokenize_parts]
  exact parts_faults [] _

theorem both_keep_line {words : List Word}
    (comments : words.IsChain fun word next => word.kind = .comment → next.kind = .newline) :
    words.IsChain Word.KeepsLine ↔ words.IsChain fun word next => word.kind = .remComment → next.kind = .newline := by
  induction words with
  | nil => simp
  | cons word words ih =>
    cases words with
    | nil => simp
    | cons next words =>
      rw [List.isChain_cons_cons] at comments
      rw [List.isChain_cons_cons, List.isChain_cons_cons, ih comments.2]
      refine and_congr_left fun _ => ⟨fun keeps isRemark => keeps (by rw [isRemark]; rfl), fun keeps isRemark => ?_⟩
      cases kind : word.kind <;> simp [kind, TokenKind.isRemark] at isRemark
      · exact comments.1 kind
      · exact keeps kind

theorem same_words {tokens again : List Token} :
    List.Forall₂ Token.Same tokens again ↔ List.Forall₂ Word.Same (tokens.map Token.word) (again.map Token.word) := by
  have same : Token.Same = fun token again => token.word.Same again.word := by
    funext token again
    exact propext (token.same_word again)
  rw [List.forall₂_map_left_iff, List.forall₂_map_right_iff, same]

/-- The tokens come back from their texts with blanks between them if every remark has the rest of its line to itself. -/
theorem joined_tokens_come_back_iff (source : String) :
    Token.ReadAgain (tokenize source).1 ↔
      (tokenize source).1.IsChain fun token next => token.kind = .remComment → next.kind = .newline := by
  have words := tokenize_words source
  have joined : (" ".intercalate ((tokenize source).1.map Token.text)).toList = spaced (wordsOf source.toList) := by
    rw [String.toList_intercalate, spaced, ← words, List.map_map, List.map_map]
    rfl
  have back := come_back_iff (source_found source.toList)
  rw [both_keep_line (comment_keeps_line source.toList), ComeBack, ← joined, ← tokenize_clean, ← words,
    ← tokenize_words, ← same_words, List.isChain_map] at back
  exact back

/-- A remark that is only its word takes what follows when a blank is put behind it. -/
theorem bare_remark_takes_line :
    (tokenize "REM:PRINT 1").2 = [] ∧ ¬Token.ReadAgain (tokenize "REM:PRINT 1").1 := by
  have counts : (tokenize "REM:PRINT 1").2 = [] ∧ (tokenize "REM:PRINT 1").1.length = 4 ∧
      (tokenize (" ".intercalate ((tokenize "REM:PRINT 1").1.map Token.text))).1.length = 1 := by
    decide +kernel
  obtain ⟨noErrors, before, after⟩ := counts
  refine ⟨noErrors, fun ⟨_, same⟩ => ?_⟩
  rw [List.Forall₂.length_eq same, after] at before
  cases before

end Tokens

end BasicLang
