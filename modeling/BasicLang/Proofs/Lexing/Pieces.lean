import BasicLang.Lexer
import BasicLang.Proofs.Lexer

set_option autoImplicit false

namespace BasicLang

namespace Lexeme

def isGap (char : Char) : Bool := isLineBlank char || char == '\r'

section Lengths

variable {char : Char} {rest : List Char}

theorem take_run (member : Char → Bool) (chars : List Char) : chars.take (run member chars) = chars.takeWhile member := by
  induction chars with
  | nil => rfl
  | cons char rest ih =>
    by_cases isMember : member char = true
    · simpa [run, isMember] using ih
    · simp [run, isMember]

theorem drop_run (member : Char → Bool) (chars : List Char) : chars.drop (run member chars) = chars.dropWhile member := by
  induction chars with
  | nil => rfl
  | cons char rest ih =>
    by_cases isMember : member char = true
    · simpa [run, isMember] using ih
    · simp [run, isMember]

theorem run_cons {member : Char → Bool} (isMember : member char = true) :
    run member (char :: rest) = run member rest + 1 := by
  simp [run, isMember]

theorem run_none {member : Char → Bool} (notMember : member char = false) : run member (char :: rest) = 0 := by
  simp [run, notMember]

theorem number_length (chars : List Char) :
    run isDigit chars + one (· == '.') (chars.drop (run isDigit chars)) ≤ (number chars).2 := by
  unfold number
  dsimp only
  generalize (if one (· == '.') (chars.drop (run isDigit chars)) = 0 then 0 else _) = fraction
  split <;> dsimp only <;> omega

theorem number_length_pos (starts : isDigit char = true ∨ char = '.' ∧ one isDigit rest = 1) :
    0 < (number (char :: rest)).2 := by
  have least := number_length (char :: rest)
  rcases starts with digit | ⟨rfl, -⟩
  · rw [run_cons digit] at least
    omega
  · rw [run_none (by decide)] at least
    exact least

theorem radix_length_pos {kind : TokenKind} {length : Nat} (found : radixNumber? rest = some (kind, length)) :
    0 < length := by
  unfold radixNumber? at found
  grind

theorem quoted_open {length : Nat} (isOpen : quotedLength rest = (length, false)) :
    '\n' ∉ rest.take length ∧ ∀ next ∈ (rest.drop length).head?, next = '\n' := by
  fun_induction quotedLength rest generalizing length <;> grind

end Lengths

/-- How the lexeme at the front of a text is found, and its length. -/
inductive Reads (char : Char) (rest : List Char) : Lexeme → Nat → Prop where
  | gap (blank : isGap char = true) : Reads char rest .skipped (run isGap (char :: rest))
  | newline (breaks : char = '\n') : Reads char rest (.token .newline) 1
  | word (letter : isLetter char = true) : Reads char rest (.token (word (char :: rest)).1) (word (char :: rest)).2
  | number (starts : isDigit char = true ∨ char = '.' ∧ one isDigit rest = 1) :
      Reads char rest (.token (number (char :: rest)).1) (number (char :: rest)).2
  | quoted {length : Nat} (quotes : char = '"') (closes : quotedLength rest = (length, true)) :
      Reads char rest (.token .stringLiteral) (length + 1)
  | unterminated {length : Nat} (quotes : char = '"') (isOpen : quotedLength rest = (length, false)) :
      Reads char rest .unterminated (length + 1)
  | comment (remarks : char = '\'') : Reads char rest (.token .comment) (1 + restOfLine rest)
  | continued {length : Nat} (marks : char = '_') (continues : continuation? rest = some length) :
      Reads char rest .skipped (length + 1)
  | radix {kind : TokenKind} {length : Nat} (marks : char = '&') (found : radixNumber? rest = some (kind, length)) :
      Reads char rest (.token kind) length
  | symbol {symbol : Symbol} (found : Symbol.longest? (char :: rest) = some symbol)
      (noNumber : ¬(char = '.' ∧ one isDigit rest = 1)) :
      Reads char rest (.token (.symbol symbol)) symbol.spelling.length
  | illegal : Reads char rest .illegal 1

theorem first_reads (char : Char) (rest : List Char) : Reads char rest (first char rest).1 (first char rest).2 := by
  unfold first
  dsimp only
  split
  · next blank => exact .gap blank
  split
  · next breaks => exact .newline breaks
  split
  · next letter => exact .word letter
  split
  · next starts => exact .number (by simpa using starts)
  next noNumber =>
  split
  · next quotes =>
    rcases isQuoted : quotedLength rest with ⟨length, closed⟩
    cases closed with
    | true => exact .quoted quotes isQuoted
    | false => exact .unterminated quotes isQuoted
  split
  · next remarks => exact .comment remarks
  split
  · next marks =>
    split
    · next continues => exact .continued marks continues
    · exact .illegal
  split
  · next marks =>
    split
    · next found => exact .radix marks found
    · exact .illegal
  split
  · next found =>
    refine .symbol found fun point => noNumber ?_
    simp [point]
  · exact .illegal

theorem Symbol.spelling_length_pos (symbol : Symbol) : 0 < symbol.spelling.length := by
  cases symbol <;> decide

theorem Reads.length_pos {char : Char} {rest : List Char} {lexeme : Lexeme} {length : Nat}
    (reads : Reads char rest lexeme length) : 0 < length := by
  cases reads with
  | gap blank => exact run_cons blank ▸ Nat.succ_pos _
  | word letter => exact word_length_pos letter rest
  | number starts => exact number_length_pos starts
  | radix _ found => exact radix_length_pos found
  | symbol _ _ => exact Symbol.spelling_length_pos _
  | comment _ => exact Nat.lt_add_right _ Nat.one_pos
  | newline | illegal | quoted | unterminated | continued => exact Nat.succ_pos _

end Lexeme

structure Piece where
  lexeme : Lexeme
  text : List Char

def piecesOf (chars : List Char) : List Piece :=
  match chars with
  | [] => []
  | char :: rest =>
    let length := (Lexeme.first char rest).2
    ⟨(Lexeme.first char rest).1, (char :: rest).take length⟩ :: piecesOf ((char :: rest).drop length)
termination_by chars.length
decreasing_by
  have positive := (Lexeme.first_reads char rest).length_pos
  simp only [List.length_drop, List.length_cons]
  omega

theorem pieces_cons {char : Char} {rest : List Char} {lexeme : Lexeme} {length : Nat}
    (reads : Lexeme.first char rest = (lexeme, length)) :
    piecesOf (char :: rest) = ⟨lexeme, (char :: rest).take length⟩ :: piecesOf ((char :: rest).drop length) := by
  rw [piecesOf, reads]

theorem pieces_join (chars : List Char) : (piecesOf chars).flatMap Piece.text = chars := by
  fun_induction piecesOf chars with
  | case1 => rfl
  | case2 char rest length ih => rw [List.flatMap_cons, ih, List.take_append_drop]

end BasicLang
