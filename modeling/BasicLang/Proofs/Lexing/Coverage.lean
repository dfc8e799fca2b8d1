import BasicLang.Proofs.Lexing.Pieces
import BasicLang.Proofs.Text.Bytes

set_option autoImplicit false

namespace BasicLang

/-- The place behind a text: its line is one more than the breaks, its column one more than the bytes behind the last
break. -/
def Locus.behind (before : List Char) : Locus :=
  ⟨before.count '\n' + 1, byteSize (before.reverse.takeWhile (· != '\n')) + 1⟩

theorem Locus.behind_snoc (before : List Char) (char : Char) :
    Locus.behind (before ++ [char]) = (Locus.behind before).after char := by
  unfold Locus.after
  split
  · next breaks =>
    subst breaks
    simp [behind, byteSize]
  · next inside =>
    simp [behind, byteSize, inside]
    omega

inductive Part where
  | gap (text : List Char)
  | token (read : Token)
  | fault (error : LexError) (text : List Char)

namespace Part

def text : Part → List Char
  | .gap text => text
  | .token read => read.text.toList
  | .fault _ text => text

def token? : Part → Option Token
  | .token read => some read
  | _ => none

def error? : Part → Option LexError
  | .fault error _ => some error
  | _ => none

def item? : Part → Option (Except LexError Token)
  | .gap _ => none
  | .token read => some (.ok read)
  | .fault error _ => some (.error error)

end Part

/-- Blanks, tabs and carriage returns, or the mark at the end of a line that goes on in the next one. -/
def IsGap (text : List Char) : Prop :=
  (∀ char ∈ text, char = ' ' ∨ char = '\t' ∨ char = '\r') ∨
    ∃ blanks, (∀ char ∈ blanks, char = ' ' ∨ char = '\t') ∧
      (text = '_' :: blanks ++ ['\n'] ∨ text = '_' :: blanks ++ ['\r', '\n'])

/-- What an error is about: a character that starts no token, or a text from its quote up to the end of the line. -/
def LexErrorKind.Covers (text after : List Char) : LexErrorKind → Prop
  | .illegalCharacter char => text = [char]
  | .unterminatedString =>
    (∃ inside, text = '"' :: inside) ∧ '\n' ∉ text ∧ ∀ next ∈ after.head?, next = '\n'

/-- The part is what it says between the text before it and the one after it. -/
def Part.Fits (before after : List Char) : Part → Prop
  | .gap text => IsGap text
  | .token read =>
    read.text.toList ≠ [] ∧ read.start = byteSize before ∧ read.stop = byteSize (before ++ read.text.toList) ∧
      read.locus = Locus.behind before
  | .fault error text => error.kind.Covers text after ∧ error.locus = Locus.behind before

def Piece.placed (before : List Char) (piece : Piece) : Part :=
  match piece.lexeme with
  | .skipped => .gap piece.text
  | .token kind =>
    .token ⟨kind, String.ofList piece.text, byteSize before, byteSize (before ++ piece.text), Locus.behind before⟩
  | .unterminated => .fault ⟨.unterminatedString, Locus.behind before⟩ piece.text
  | .illegal => .fault ⟨.illegalCharacter (piece.text.headD ' '), Locus.behind before⟩ piece.text

def partsBehind (before : List Char) : List Piece → List Part
  | [] => []
  | piece :: further => piece.placed before :: partsBehind (before ++ piece.text) further

@[simp] theorem Piece.placed_text (before : List Char) (piece : Piece) : (piece.placed before).text = piece.text := by
  unfold placed
  split <;> simp [Part.text]

theorem parts_text (before : List Char) (pieces : List Piece) :
    (partsBehind before pieces).flatMap Part.text = pieces.flatMap Piece.text := by
  induction pieces generalizing before with
  | nil => rfl
  | cons piece further ih => simp [partsBehind, ih]

namespace Lexer

def behind (before rest : List Char) : Lexer := ⟨rest, byteSize before, Locus.behind before⟩

theorem skip_behind (before rest : List Char) (count : Nat) :
    (behind before rest).skip count = behind (before ++ rest.take count) (rest.drop count) := by
  induction count generalizing before rest with
  | zero => simp [skip]
  | succ count ih =>
    cases rest with
    | nil => simp [skip, behind]
    | cons char rest =>
      have next : (⟨rest, byteSize before + char.utf8Size, (Locus.behind before).after char⟩ : Lexer) =
          behind (before ++ [char]) rest := by
        simp [behind, Locus.behind_snoc, byteSize_append, byteSize]
      rw [skip]
      dsimp only [behind]
      rw [next, ih, List.append_assoc]
      rfl

theorem next_behind {char : Char} {rest : List Char} {lexeme : Lexeme} {length : Nat} (before : List Char) (fuel : Nat)
    (reads : Lexeme.first char rest = (lexeme, length)) :
    (behind before (char :: rest)).next? (fuel + 1) =
      let after := behind (before ++ (char :: rest).take length) ((char :: rest).drop length)
      match ((⟨lexeme, (char :: rest).take length⟩ : Piece).placed before).item? with
      | none => after.next? fuel
      | some item => some (item, after) := by
  have positive : 0 < length := by
    have found := (Lexeme.first_reads char rest).length_pos
    rwa [reads] at found
  obtain ⟨more, rfl⟩ := Nat.exists_eq_add_of_lt positive
  rw [← skip_behind, next?]
  dsimp only [behind]
  rw [reads]
  cases lexeme with
  | skipped => rfl
  | token kind =>
    have read := skip_behind before (char :: rest) (0 + more + 1)
    simp only [Piece.placed, Part.item?]
    rw [show Lexer.skip ⟨char :: rest, byteSize before, Locus.behind before⟩ (0 + more + 1) = _ from read]
    rfl
  | unterminated => rfl
  | illegal => simp [Piece.placed, Part.item?]

theorem next_placed (before rest : List Char) (fuel : Nat) (enough : rest.length ≤ fuel) :
    match (behind before rest).next? fuel with
    | none => (partsBehind before (piecesOf rest)).filterMap Part.item? = []
    | some (item, after) => ∃ read left, after = behind (before ++ read) left ∧ left.length < rest.length ∧
        (partsBehind before (piecesOf rest)).filterMap Part.item? =
          item :: (partsBehind (before ++ read) (piecesOf left)).filterMap Part.item? := by
  induction fuel generalizing before rest with
  | zero =>
    obtain rfl := List.length_eq_zero_iff.mp (Nat.le_zero.mp enough)
    simp [next?, piecesOf, partsBehind]
  | succ fuel ih =>
    cases rest with
    | nil => simp [next?, behind, piecesOf, partsBehind]
    | cons char rest =>
      rcases reads : Lexeme.first char rest with ⟨lexeme, length⟩
      have positive : 0 < length := by
        have found := (Lexeme.first_reads char rest).length_pos
        rwa [reads] at found
      have shorter : ((char :: rest).drop length).length < (char :: rest).length := by
        simp only [List.length_drop, List.length_cons]
        omega
      rw [next_behind before fuel reads, pieces_cons reads, partsBehind]
      dsimp only
      rcases first : ((⟨lexeme, (char :: rest).take length⟩ : Piece).placed before).item? with _ | item
      · have further := ih (before ++ (char :: rest).take length) ((char :: rest).drop length) (by simp at *; omega)
        dsimp only
        rw [List.filterMap_cons_none first]
        split at further
        · next ended => simpa [ended] using further
        · next item after goesOn =>
          obtain ⟨read, left, isAfter, less, same⟩ := further
          rw [goesOn]
          refine ⟨(char :: rest).take length ++ read, left, by simp [isAfter], by omega, ?_⟩
          rw [same, List.append_assoc]
      · exact ⟨(char :: rest).take length, (char :: rest).drop length, rfl, shorter, List.filterMap_cons_some first⟩

theorem items_placed (before rest : List Char) (fuel : Nat) (enough : rest.length ≤ fuel) :
    (behind before rest).items fuel = (partsBehind before (piecesOf rest)).filterMap Part.item? := by
  induction fuel generalizing before rest with
  | zero =>
    obtain rfl := List.length_eq_zero_iff.mp (Nat.le_zero.mp enough)
    simp [items, piecesOf, partsBehind]
  | succ fuel ih =>
    have placed := next_placed before rest rest.length (Nat.le_refl _)
    rw [items, step, show (behind before rest).rest = rest from rfl]
    split at placed
    · next ended => simp [ended, placed]
    · next item after goesOn =>
      obtain ⟨read, left, rfl, less, same⟩ := placed
      rw [goesOn, same]
      dsimp only
      rw [ih (before ++ read) left (by omega)]

end Lexer

def partsOf (source : String) : List Part := partsBehind [] (piecesOf source.toList)

theorem parts_join (source : String) : (partsOf source).flatMap Part.text = source.toList := by
  rw [partsOf, parts_text, pieces_join]

theorem items_split (parts : List Part) :
    (parts.filterMap Part.item?).foldr
      (fun item (tokens, errors) =>
        match item with
        | .ok token => (token :: tokens, errors)
        | .error error => (tokens, error :: errors))
      (([], []) : List Token × List LexError) = (parts.filterMap Part.token?, parts.filterMap Part.error?) := by
  induction parts with
  | nil => rfl
  | cons part parts ih =>
    cases part with
    | gap text => exact ih
    | token read => exact congrArg (fun split : List Token × List LexError => (read :: split.1, split.2)) ih
    | fault error text => exact congrArg (fun split : List Token × List LexError => (split.1, error :: split.2)) ih

theorem tokenize_parts (source : String) :
    tokenize source = ((partsOf source).filterMap Part.token?, (partsOf source).filterMap Part.error?) := by
  have start : Lexer.ofSource source = Lexer.behind [] source.toList := rfl
  rw [tokenize, start, show (Lexer.behind [] source.toList).rest = source.toList from rfl]
  dsimp only
  rw [Lexer.items_placed [] source.toList source.toList.length (Nat.le_refl _)]
  exact items_split _

section Fitting

variable {char : Char} {rest before : List Char}

theorem gap_run (chars : List Char) : IsGap (chars.take (Lexeme.run Lexeme.isGap chars)) := by
  refine .inl fun char inside => ?_
  rw [Lexeme.take_run] at inside
  have blank := List.all_eq_true.mp List.all_takeWhile char inside
  simpa [Lexeme.isGap, Lexeme.isLineBlank, or_assoc] using blank

theorem gap_continued {length : Nat} (continues : Lexeme.continuation? rest = some length) :
    IsGap (('_' :: rest).take (length + 1)) := by
  have blank : ∀ char ∈ rest.takeWhile Lexeme.isLineBlank, char = ' ' ∨ char = '\t' := by
    intro char inside
    simpa [Lexeme.isLineBlank] using List.all_eq_true.mp List.all_takeWhile char inside
  refine .inr ⟨rest.takeWhile Lexeme.isLineBlank, blank, ?_⟩
  rw [List.take_succ_cons, List.cons_append, List.cons_append]
  unfold Lexeme.continuation? at continues
  dsimp only at continues
  split at continues
  · next ends =>
    cases continues
    rw [List.take_add, Lexeme.take_run, ends]
    exact .inl rfl
  · next ends =>
    cases continues
    rw [List.take_add, Lexeme.take_run, ends]
    exact .inr rfl
  · cases continues

theorem piece_fits {lexeme : Lexeme} {length : Nat} (before : List Char) (reads : Lexeme.Reads char rest lexeme length) :
    ((⟨lexeme, (char :: rest).take length⟩ : Piece).placed before).Fits before ((char :: rest).drop length) := by
  have positive := reads.length_pos
  have some : (char :: rest).take length ≠ [] := by
    simp only [ne_eq, List.take_eq_nil_iff, reduceCtorEq, or_false]
    omega
  cases reads with
  | gap blank => exact gap_run _
  | continued marks continues => exact marks ▸ gap_continued continues
  | illegal => exact ⟨rfl, rfl⟩
  | unterminated quotes isOpen =>
    obtain ⟨inLine, ends⟩ := Lexeme.quoted_open isOpen
    refine ⟨⟨⟨_, by rw [List.take_succ_cons, quotes]⟩, ?_, ends⟩, rfl⟩
    simpa [quotes] using inLine
  | _ => exact ⟨by rwa [String.toList_ofList], rfl, by rw [String.toList_ofList], rfl⟩

end Fitting

theorem parts_fit (before chars : List Char) {early late : List Part} {part : Part}
    (split : partsBehind before (piecesOf chars) = early ++ part :: late) :
    part.Fits (before ++ early.flatMap Part.text) (late.flatMap Part.text) := by
  fun_induction piecesOf chars generalizing before early with
  | case1 => simp [partsBehind] at split
  | case2 char rest length ih =>
    rw [partsBehind] at split
    cases early with
    | nil =>
      obtain ⟨rfl, rfl⟩ := List.cons.inj split
      rw [parts_text, pieces_join, List.flatMap_nil, List.append_nil]
      exact piece_fits before (Lexeme.first_reads char rest)
    | cons first early =>
      obtain ⟨rfl, further⟩ := List.cons.inj split
      have fits := ih _ further
      rwa [List.append_assoc, ← Piece.placed_text before, ← List.flatMap_cons] at fits

theorem part_fits {source : String} {part : Part} (inside : part ∈ partsOf source) :
    ∃ before after, source.toList = before ++ (part.text ++ after) ∧ part.Fits before after := by
  obtain ⟨early, late, split⟩ := List.append_of_mem inside
  have whole := parts_join source
  rw [split, List.flatMap_append, List.flatMap_cons] at whole
  exact ⟨early.flatMap Part.text, late.flatMap Part.text, whole.symm, parts_fit [] source.toList split⟩

theorem tokens_behind (before : List Char) (pieces : List Piece) {token : Token}
    (inside : token ∈ (partsBehind before pieces).filterMap Part.token?) : byteSize before ≤ token.start := by
  induction pieces generalizing before with
  | nil => simp [partsBehind] at inside
  | cons piece further ih =>
    obtain ⟨part, isPart, isToken⟩ := List.mem_filterMap.mp inside
    rcases List.mem_cons.mp isPart with rfl | later
    · unfold Piece.placed at isToken
      split at isToken <;> cases isToken
      exact Nat.le_refl _
    · have least := ih (before ++ piece.text) (List.mem_filterMap.mpr ⟨part, later, isToken⟩)
      rw [byteSize_append] at least
      omega

theorem tokens_ordered (before : List Char) (pieces : List Piece) :
    ((partsBehind before pieces).filterMap Part.token?).Pairwise fun earlier later => earlier.stop ≤ later.start := by
  induction pieces generalizing before with
  | nil => exact .nil
  | cons piece further ih =>
    rw [partsBehind]
    rcases isToken : (piece.placed before).token? with _ | token
    · rw [List.filterMap_cons_none isToken]
      exact ih _
    · rw [List.filterMap_cons_some isToken]
      refine .cons (fun later inside => ?_) (ih _)
      have stop : token.stop = byteSize (before ++ piece.text) := by
        unfold Piece.placed at isToken
        split at isToken <;> cases isToken
        rfl
      exact stop ▸ tokens_behind _ _ inside

/-- The tokens lie one behind the other, each with the text and the place of its bytes, and the rest of the source is
gaps and what the errors are about. -/
theorem lexing_loses_nothing (source : String) :
    (∀ token ∈ (tokenize source).1, token.start < token.stop ∧ ∃ before after : String,
      source = before ++ token.text ++ after ∧ before.utf8ByteSize = token.start ∧
        (before ++ token.text).utf8ByteSize = token.stop ∧ token.locus = Locus.behind before.toList) ∧
    (tokenize source).1.Pairwise (fun earlier later => earlier.stop ≤ later.start) ∧
    ∃ parts : List Part, parts.flatMap Part.text = source.toList ∧
      parts.filterMap Part.token? = (tokenize source).1 ∧ parts.filterMap Part.error? = (tokenize source).2 ∧
      (∀ early part late, parts = early ++ part :: late →
        part.Fits (early.flatMap Part.text) (late.flatMap Part.text)) ∧
      ((tokenize source).2 = [] → ∀ part ∈ parts, part.error? = none) := by
  rw [tokenize_parts]
  have fit : ∀ early part late, partsOf source = early ++ part :: late →
      part.Fits (early.flatMap Part.text) (late.flatMap Part.text) :=
    fun early part late split => parts_fit [] source.toList split
  refine ⟨fun token inside => ?_, tokens_ordered [] _, partsOf source, parts_join source, rfl, rfl, fit,
    fun none part inside => ?_⟩
  · obtain ⟨part, isPart, isToken⟩ := List.mem_filterMap.mp inside
    obtain ⟨early, late, split⟩ := List.append_of_mem isPart
    have fits := fit early part late split
    cases part <;> cases isToken
    obtain ⟨some, start, stop, locus⟩ := fits
    have whole := parts_join source
    rw [split, List.flatMap_append, List.flatMap_cons] at whole
    refine ⟨?_, String.ofList (early.flatMap Part.text), String.ofList (late.flatMap Part.text), ?_, ?_, ?_, ?_⟩
    · rw [start, stop, byteSize_append]
      exact Nat.lt_add_of_pos_right (byteSize_pos some)
    · rw [← String.toList_inj, ← whole]
      simp [Part.text]
    · rw [byteSize_of_list, start]
    · rw [String.utf8ByteSize_append, byteSize_of_list, byteSize_of_text, stop, byteSize_append]
    · simpa using locus
  · exact List.filterMap_eq_nil_iff.mp none part inside

end BasicLang
