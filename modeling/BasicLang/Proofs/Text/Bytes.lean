import BasicLang.Text.Bytes
import Mathlib.Data.List.DropRight

set_option autoImplicit false

namespace BasicLang

theorem byteSize_append (early late : List Char) : byteSize (early ++ late) = byteSize early + byteSize late := by
  induction early with
  | nil => simp [byteSize]
  | cons char rest ih => rw [List.cons_append, byteSize, byteSize, ih, Nat.add_assoc]

theorem byteSize_pos {chars : List Char} (some : chars ≠ []) : 0 < byteSize chars := by
  obtain ⟨char, rest, rfl⟩ := List.exists_cons_of_ne_nil some
  exact Nat.add_pos_left char.utf8Size_pos _

theorem byteSize_of_list (chars : List Char) : (String.ofList chars).utf8ByteSize = byteSize chars := by
  induction chars with
  | nil => rfl
  | cons char rest ih =>
    have parts : String.ofList (char :: rest) = String.singleton char ++ String.ofList rest := by
      rw [← String.toList_inj]
      simp
    rw [parts, String.utf8ByteSize_append, ih, String.utf8ByteSize_singleton]
    rfl

theorem byteSize_of_text (text : String) : text.utf8ByteSize = byteSize text.toList := by
  rw [← byteSize_of_list, String.ofList_toList]

namespace Text

variable {chars before after : List Char} {place : Nat}

theorem split_at_cons (char : Char) (rest : List Char) (place : Nat) :
    splitAt? (char :: rest) (char.utf8Size + place) =
      (splitAt? rest place).map fun (before, after) => (char :: before, after) := by
  obtain ⟨more, size⟩ := Nat.exists_eq_add_of_lt char.utf8Size_pos
  rw [show char.utf8Size + place = more + place + 1 by omega, splitAt?, if_pos (by omega),
    show more + place + 1 - char.utf8Size = place by omega]
  exact Nat.succ_ne_zero _

theorem split_at_append (before after : List Char) : splitAt? (before ++ after) (byteSize before) = some (before, after) := by
  induction before with
  | nil => exact splitAt?.eq_1 _
  | cons char before ih => rw [List.cons_append, byteSize, split_at_cons, ih, Option.map_some]

theorem split_at_some (found : splitAt? chars place = some (before, after)) :
    chars = before ++ after ∧ byteSize before = place := by
  fun_induction splitAt? chars place generalizing before with
  | case1 chars =>
    obtain ⟨rfl, rfl⟩ := Prod.mk.inj (Option.some.inj found)
    exact ⟨rfl, rfl⟩
  | case2 => cases found
  | case3 char rest place _ fits ih =>
    obtain ⟨⟨early, late⟩, further, same⟩ := Option.map_eq_some_iff.mp found
    obtain ⟨rfl, rfl⟩ := Prod.mk.inj same
    obtain ⟨rfl, size⟩ := ih further
    refine ⟨rfl, ?_⟩
    rw [byteSize, size, Nat.add_sub_cancel' fits]
  | case4 => cases found

theorem split_at_some_iff :
    splitAt? chars place = some (before, after) ↔ chars = before ++ after ∧ byteSize before = place := by
  refine ⟨split_at_some, ?_⟩
  rintro ⟨rfl, rfl⟩
  exact split_at_append before after

section Finding

variable {test : Char → Bool}

theorem find_byte_missing (missing : chars.dropWhile (fun char => !test char) = []) : findByte? test chars = none := by
  induction chars with
  | nil => rfl
  | cons char rest ih =>
    cases found : test char with
    | true => simp [found] at missing
    | false =>
      rw [List.dropWhile_cons_of_pos (by simp [found])] at missing
      rw [findByte?, found, if_neg Bool.false_ne_true, ih missing, Option.map_none]

theorem find_byte_found (found : chars.dropWhile (fun char => !test char) ≠ []) :
    findByte? test chars = some (byteSize (chars.takeWhile fun char => !test char)) := by
  induction chars with
  | nil => exact absurd rfl found
  | cons char rest ih =>
    cases here : test char with
    | true => rw [findByte?, here, if_pos rfl, List.takeWhile_cons_of_neg (by simp [here]), byteSize]
    | false =>
      rw [List.dropWhile_cons_of_pos (by simp [here])] at found
      rw [findByte?, here, if_neg Bool.false_ne_true, ih found, List.takeWhile_cons_of_pos (by simp [here]), byteSize,
        Option.map_some]

theorem find_byte_or_end (test : Char → Bool) (chars : List Char) :
    (findByte? test chars).getD (byteSize chars) = byteSize (chars.takeWhile fun char => !test char) := by
  by_cases missing : chars.dropWhile (fun char => !test char) = []
  · have whole := List.takeWhile_append_dropWhile (p := fun char => !test char) (l := chars)
    rw [missing, List.append_nil] at whole
    rw [find_byte_missing missing, whole, Option.getD_none]
  · rw [find_byte_found missing, Option.getD_some]

theorem find_byte_missing_iff : findByte? test chars = none ↔ chars.dropWhile (fun char => !test char) = [] := by
  refine ⟨fun missing => ?_, find_byte_missing⟩
  by_contra found
  rw [find_byte_found found] at missing
  cases missing

theorem eq_of_find_byte (found : findByte? test chars = some place) :
    place = byteSize (chars.takeWhile fun char => !test char) := by
  have some : chars.dropWhile (fun char => !test char) ≠ [] := fun missing => by
    rw [find_byte_missing missing] at found
    cases found
  rw [find_byte_found some] at found
  exact (Option.some.inj found).symm

theorem split_at_found (test : Char → Bool) (chars : List Char) :
    splitAt? chars (byteSize (chars.takeWhile fun char => !test char)) =
      some (chars.takeWhile (fun char => !test char), chars.dropWhile fun char => !test char) := by
  have parts := split_at_append (chars.takeWhile fun char => !test char) (chars.dropWhile fun char => !test char)
  rwa [List.takeWhile_append_dropWhile] at parts

theorem pass_found (test : Char → Bool) (single : ∀ char, test char = true → char.utf8Size = 1) (chars : List Char) :
    ∃ passed, chars = passed ++ (chars.dropWhile fun char => !test char).drop 1 ∧
      byteSize passed = match findByte? test chars with
        | some place => place + 1
        | none => byteSize chars := by
  have parts := List.takeWhile_append_dropWhile (p := fun char => !test char) (l := chars)
  cases behind : chars.dropWhile (fun char => !test char) with
  | nil =>
    rw [behind, List.append_nil] at parts
    exact ⟨chars, by simp, by rw [find_byte_missing behind]⟩
  | cons first after =>
    have found : chars.dropWhile (fun char => !test char) ≠ [] := by simp [behind]
    have size : first.utf8Size = 1 := single first (by
      have stops := List.head?_dropWhile_not (fun char => !test char) chars
      simpa [behind] using stops)
    refine ⟨chars.takeWhile (fun char => !test char) ++ [first], ?_, ?_⟩
    · rw [List.drop_succ_cons, List.drop_zero, List.append_assoc, List.singleton_append, ← behind, parts]
    · rw [find_byte_found found, byteSize_append, byteSize, size, byteSize]

end Finding

end Text

end BasicLang
