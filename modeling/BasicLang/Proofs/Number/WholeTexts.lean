import BasicLang.Number.Reading
import BasicLang.Proofs.Number.WholeDoubles

set_option autoImplicit false

namespace BasicLang

theorem digit_of_is_digit {char : Char} (isDigit : char.isDigit = true) :
    digitValue? 10 char = some (char.toNat - '0'.toNat) := by
  have bounds : '0' ≤ char ∧ char ≤ '9' := by
    simpa [Char.isDigit, Char.le_def] using isDigit
  have small : char.toNat - '0'.toNat < 10 := by
    have := Char.le_def.mp bounds.2
    have most : char.toNat ≤ '9'.toNat := this
    change char.toNat - 48 < 10
    change char.toNat ≤ 57 at most
    omega
  rw [digitValue?, if_pos bounds]
  simp only [Option.filter, small, decide_true, if_pos]

theorem is_digit_of_is_digit {char : Char} (isDigit : char.isDigit = true) : NumberText.isDigit char = true := by
  rw [NumberText.isDigit, isDigitOf, digit_of_is_digit isDigit, Option.isSome_some]

theorem of_digits_of_chars {chars : List Char} (digits : ∀ char ∈ chars, char.isDigit = true) :
    ofDigits 10 chars = Nat.ofDigitChars 10 chars 0 := by
  refine List.foldl_ext _ _ _ fun total char inside => ?_
  rw [digit_of_is_digit (digits char inside), Nat.mul_comm]
  rfl

def digitsOf (number : Nat) : List Char := Nat.toDigits 10 number

theorem is_digit_of_digits_of {number : Nat} {char : Char} (inside : char ∈ digitsOf number) : char.isDigit = true :=
  Nat.isDigit_of_mem_toDigits (by decide) (by decide) inside

theorem of_digits_digits_of (number : Nat) : ofDigits 10 (digitsOf number) = number := by
  rw [of_digits_of_chars fun _ => is_digit_of_digits_of]
  exact Nat.ofDigitChars_toDigits (by decide) (by decide)

theorem digits_of_ne_nil (number : Nat) : digitsOf number ≠ [] := Nat.toDigits_ne_nil

theorem to_list_to_string (number : Int) :
    (toString number).toList = if number < 0 then '-' :: digitsOf number.natAbs else digitsOf number.natAbs := by
  cases number with
  | ofNat number =>
    rw [if_neg (by simp)]
    exact String.toList_ofList
  | negSucc number =>
    rw [if_pos (Int.negSucc_lt_zero number)]
    change ("-" ++ String.ofList (digitsOf (number + 1))).toList = _
    rw [String.toList_append, String.toList_ofList, String.toList_ofList]
    rfl

theorem mem_to_string {number : Int} {char : Char} (inside : char ∈ (toString number).toList) :
    char = '-' ∨ char.isDigit = true := by
  rw [to_list_to_string] at inside
  split at inside
  · rcases List.mem_cons.mp inside with rfl | inside
    · exact .inl rfl
    · exact .inr (is_digit_of_digits_of inside)
  · exact .inr (is_digit_of_digits_of inside)

theorem to_string_ne_nil (number : Int) : (toString number).toList ≠ [] := by
  rw [to_list_to_string]
  split
  · exact List.cons_ne_nil _ _
  · exact digits_of_ne_nil _

theorem split_sign_digits (number : Nat) : NumberText.splitSign (digitsOf number) = (false, digitsOf number) := by
  cases digits : digitsOf number with
  | nil => rfl
  | cons char rest =>
    have isDigit : char.isDigit = true := is_digit_of_digits_of (by rw [digits]; exact List.mem_cons_self)
    unfold NumberText.splitSign
    split
    · next same => cases same; cases isDigit
    · next same => cases same; cases isDigit
    · rfl

theorem of_prefix_digits (marker : Char → Bool) (negative : Bool) (number : Nat) :
    NumberText.ofPrefix? marker (if negative then '-' :: digitsOf number else digitsOf number) =
      some { negative, whole := digitsOf number, fraction := [], exponentNegative := false, exponent := [] } := by
  have sign : NumberText.splitSign (if negative then '-' :: digitsOf number else digitsOf number) =
      (negative, digitsOf number) := by
    cases negative with
    | false => exact split_sign_digits number
    | true => rfl
  have all : ∀ char ∈ digitsOf number, NumberText.isDigit char = true :=
    fun _ inside => is_digit_of_is_digit (is_digit_of_digits_of inside)
  have taken : (digitsOf number).takeWhile NumberText.isDigit = digitsOf number := List.takeWhile_eq_self_iff.mpr all
  have dropped : (digitsOf number).dropWhile NumberText.isDigit = [] := List.dropWhile_eq_nil_iff.mpr all
  have some : (digitsOf number).isEmpty = false := by simpa using digits_of_ne_nil number
  simp only [NumberText.ofPrefix?, sign, taken, dropped, some]
  rfl

theorem decimal_digits (number : Nat) (small : number < 2 ^ 53) :
    Decimal.toDouble ⟨number, 0⟩ = Float.ofNat number := by
  rcases Nat.eq_zero_or_pos number with rfl | positive
  · rfl
  · have short : Decimal.digitCount number ≤ 16 :=
      (Nat.length_toDigits_le_iff (by decide) (by decide)).mpr (Nat.lt_trans small (by decide))
    rw [Decimal.toDouble, if_neg (Nat.ne_of_gt positive)]
    dsimp only
    rw [if_neg (by omega), if_neg (by omega)]
    rfl

theorem to_upper_of_is_digit {char : Char} (isDigit : char.isDigit = true) : char.toUpper = char := by
  have most : char.val ≤ '9'.val := by
    simp only [Char.isDigit, Bool.and_eq_true, decide_eq_true_eq] at isDigit
    exact isDigit.2
  have notLower : ¬ 'a'.val ≤ char.val := fun least => absurd (UInt32.le_trans least most) (by decide)
  rw [Char.toUpper, dif_neg fun isLower => notLower isLower.1]

theorem number_prefix_to_string {number : Int} (small : number.natAbs < 2 ^ 53) :
    numberPrefix (toString number) = Double.ofInt number := by
  have text := to_list_to_string number
  have shown := @mem_to_string number
  have kept : ((toString number).toList.filter fun char => char ≠ ' ' ∧ char ≠ '\t').map Char.toUpper =
      (toString number).toList := by
    have noBlank : ∀ char ∈ (toString number).toList, decide (char ≠ ' ' ∧ char ≠ '\t') = true := by
      intro char inside
      rcases shown inside with rfl | isDigit
      · rfl
      · refine decide_eq_true ⟨?_, ?_⟩ <;> rintro rfl <;> cases isDigit
    rw [List.filter_eq_self.mpr noBlank]
    refine (List.map_congr_left fun char inside => ?_).trans (List.map_id _)
    rcases shown inside with rfl | isDigit
    · rfl
    · exact to_upper_of_is_digit isDigit
  -- The text does not start with the sign of a radix either.
  have notRadix : ∀ char rest, (toString number).toList ≠ '&' :: char :: rest := by
    intro char rest same
    rcases shown (by rw [same]; exact List.mem_cons_self) with other | isDigit
    · cases other
    · cases isDigit
  have isText : NumberText.ofPrefix? (fun char => char == 'E' || char == 'D') (toString number).toList =
      some ⟨number < 0, digitsOf number.natAbs, [], false, []⟩ := by
    rw [text, ← of_prefix_digits (fun char => char == 'E' || char == 'D')]
    simp
  have value : NumberText.toDouble ⟨number < 0, digitsOf number.natAbs, [], false, []⟩ = Double.ofInt number := by
    have decimal : NumberText.decimal ⟨number < 0, digitsOf number.natAbs, [], false, []⟩ = ⟨number.natAbs, 0⟩ := by
      simp only [NumberText.decimal, List.append_nil, of_digits_digits_of]
      rfl
    rw [NumberText.toDouble, decimal, decimal_digits _ small]
    cases number with
    | ofNat number => exact if_neg (by simp)
    | negSucc number => exact if_pos (by simp)
  unfold numberPrefix
  simp only [kept, isText, value]

end BasicLang
