import BasicLang.Lexer
import BasicLang.Proofs.Syntax.Reader

set_option autoImplicit false

namespace BasicLang

def TokenKind.IsWord (kind : TokenKind) : Prop :=
  kind = .identifier ∨ ∃ keyword, kind = .keyword keyword

namespace Lexeme

theorem number_kind (chars : List Char) :
    (number chars).1 = .integerLiteral ∨ (number chars).1 = .floatLiteral := by
  unfold number
  dsimp only
  rw [apply_ite Prod.fst]
  exact (Decidable.em _).imp (if_pos ·) (if_neg ·)

theorem radix_kind {chars : List Char} {kind : TokenKind} {length : Nat}
    (found : radixNumber? chars = some (kind, length)) :
    kind = .hexLiteral ∨ kind = .octalLiteral ∨ kind = .binaryLiteral := by
  unfold radixNumber? at found
  grind

theorem word_length_pos {char : Char} (letter : isLetter char = true) (rest : List Char) :
    0 < (word (char :: rest)).2 := by
  have plain : 0 < run isWordChar (char :: rest) := by
    simp [run, List.takeWhile, isWordChar, letter]
  unfold word
  grind

theorem first_word {char : Char} {rest : List Char} {kind : TokenKind} {length : Nat}
    (found : first char rest = (.token kind, length)) (isWord : kind.IsWord) :
    isLetter char = true ∧ 0 < length := by
  have isNumber := number_kind (char :: rest)
  unfold TokenKind.IsWord at isWord
  unfold first at found
  dsimp only at found
  split at found
  · cases found
  · split at found
    · cases found
      simp at isWord
    · split at found
      · next letter =>
        cases found
        exact ⟨letter, word_length_pos letter rest⟩
      · exfalso
        split at found
        · cases found
          rcases isNumber with same | same <;> simp [same] at isWord
        · split at found
          · split at found <;> cases found
            simp at isWord
          · split at found
            · cases found
              simp at isWord
            · split at found
              · split at found <;> cases found
              · split at found
                · split at found
                  · next read =>
                    cases found
                    rcases radix_kind read with rfl | rfl | rfl <;> simp at isWord
                  · cases found
                · split at found
                  · cases found
                    simp at isWord
                  · cases found

end Lexeme

namespace Lexer

theorem next_lexed {lexer after : Lexer} {token : Token} (fuel : Nat)
    (found : lexer.next? fuel = some (.ok token, after)) : token.Lexed := by
  induction fuel generalizing lexer with
  | zero => cases found
  | succ fuel ih =>
    unfold next? at found
    split at found
    · cases found
    · next char rest spelled =>
      rcases read : Lexeme.first char rest with ⟨lexeme, length⟩
      simp only [read] at found
      split at found
      · exact ih found
      · next kind =>
        obtain ⟨same, -⟩ := Prod.mk.inj (Option.some.inj found)
        obtain rfl := Except.ok.inj same
        intro isWord
        obtain ⟨letter, positive⟩ := Lexeme.first_word read isWord
        obtain ⟨count, rfl⟩ := Nat.exists_eq_add_of_lt positive
        exact ⟨char, rest.take count, by simp [spelled], letter⟩
      · cases found
      · cases found

theorem items_lexed (lexer : Lexer) (fuel : Nat) {token : Token}
    (found : .ok token ∈ lexer.items fuel) : token.Lexed := by
  induction fuel generalizing lexer with
  | zero => cases found
  | succ fuel ih =>
    unfold items at found
    split at found
    · next item after stepped =>
      rcases List.mem_cons.mp found with rfl | further
      · exact next_lexed _ stepped
      · exact ih after further
    · cases found

end Lexer

theorem tokenize_lexed (source : String) : ∀ token ∈ (tokenize source).1, token.Lexed := by
  intro token inside
  refine Lexer.items_lexed (Lexer.ofSource source) (Lexer.ofSource source).rest.length ?_
  unfold tokenize at inside
  dsimp only at inside
  revert inside
  generalize (Lexer.ofSource source).items (Lexer.ofSource source).rest.length = items
  induction items with
  | nil => exact fun inside => nomatch inside
  | cons item items ih =>
    cases item with
    | ok read =>
      intro inside
      rcases List.mem_cons.mp inside with rfl | further
      · exact List.mem_cons_self
      · exact List.mem_cons_of_mem _ (ih further)
    | error problem => exact fun inside => List.mem_cons_of_mem _ (ih inside)

end BasicLang
