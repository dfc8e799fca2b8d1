import BasicLang.Text.Substring
import Mathlib.Order.Bounds.Basic

set_option autoImplicit false

namespace BasicLang

namespace Text

/-- A text stands in another at a position: as many characters and one are before it. -/
def StandsAt (text part : String) (place : Int) : Prop :=
  ∃ before behind, text = before ++ part ++ behind ∧ (before.length : Int) + 1 = place

section Searching

variable {needle chars : List Char}

theorem occurrence_missing (missing : occurrence? needle chars = none) (skipped : Nat) :
    ¬needle <+: chars.drop skipped := by
  induction chars generalizing skipped with
  | nil =>
    intro stands
    rw [List.drop_nil, List.prefix_nil] at stands
    simp [occurrence?, stands] at missing
  | cons char rest ih =>
    rw [occurrence?] at missing
    split at missing
    · cases missing
    · next notHere =>
      cases skipped with
      | zero => exact fun stands => notHere (List.isPrefixOf_iff_prefix.mpr stands)
      | succ skipped => exact ih (Option.map_eq_none_iff.mp missing) skipped

theorem occurrence_found {skipped : Nat} (found : occurrence? needle chars = some skipped) :
    needle <+: chars.drop skipped ∧ ∀ earlier < skipped, ¬needle <+: chars.drop earlier := by
  induction chars generalizing skipped with
  | nil =>
    rw [occurrence?] at found
    split at found
    · next isEmpty =>
      cases found
      exact ⟨by simp [List.isEmpty_iff.mp isEmpty], fun _ before => absurd before (Nat.not_lt_zero _)⟩
    · cases found
  | cons char rest ih =>
    rw [occurrence?] at found
    split at found
    · next here =>
      cases found
      exact ⟨List.isPrefixOf_iff_prefix.mp here, fun _ before => absurd before (Nat.not_lt_zero _)⟩
    · next notHere =>
      obtain ⟨later, further, rfl⟩ := Option.map_eq_some_iff.mp found
      obtain ⟨stands, first⟩ := ih further
      refine ⟨stands, fun earlier before => ?_⟩
      cases earlier with
      | zero => exact fun stands => notHere (List.isPrefixOf_iff_prefix.mpr stands)
      | succ earlier => exact first earlier (Nat.lt_of_succ_lt_succ before)

end Searching

section Places

variable {text part : String} {place start : Int}

theorem stands_iff : StandsAt text part place ↔ 1 ≤ place ∧ (place - 1).toNat ≤ text.toList.length ∧
    part.toList <+: text.toList.drop (place - 1).toNat := by
  constructor
  · rintro ⟨before, behind, rfl, rfl⟩
    have skipped : ((before.length : Int) + 1 - 1).toNat = before.toList.length := by simp [String.length_toList]
    rw [skipped, String.toList_append, String.toList_append, List.append_assoc, List.drop_left]
    exact ⟨by omega, by simp, List.prefix_append _ _⟩
  · rintro ⟨fromOne, inside, behind, isRest⟩
    refine ⟨String.ofList (text.toList.take (place - 1).toNat), String.ofList behind, ?_, ?_⟩
    · rw [← String.toList_inj, String.toList_append, String.toList_append, String.toList_ofList, String.toList_ofList,
        List.append_assoc, isRest, List.take_append_drop]
    · rw [String.length_ofList, List.length_take, Nat.min_eq_left inside]
      omega

theorem stands_from_iff (someText : part ≠ "") (fromOne : 1 ≤ start) :
    start ≤ place ∧ StandsAt text part place ↔ ∃ skipped : Nat, place = start + skipped ∧
      part.toList <+: (text.toList.drop (start - 1).toNat).drop skipped := by
  simp only [stands_iff, List.drop_drop]
  constructor
  · rintro ⟨later, -, -, stands⟩
    refine ⟨(place - start).toNat, by omega, ?_⟩
    rwa [show (start - 1).toNat + (place - start).toNat = (place - 1).toNat by omega]
  · rintro ⟨skipped, rfl, stands⟩
    have same : (start - 1).toNat + skipped = (start + skipped - 1).toNat := by omega
    rw [same] at stands
    refine ⟨by omega, by omega, ?_, stands⟩
    have shorter := stands.length_le
    have positive : 0 < part.toList.length := by simpa [List.length_pos_iff] using someText
    rw [List.length_drop] at shorter
    omega

theorem position_eq (someText : part ≠ "") (fromOne : 1 ≤ start) :
    position start text part = match occurrence? part.toList (text.toList.drop (start - 1).toNat) with
      | some skipped => start + skipped
      | none => 0 := by
  have first : (max start 1).toNat = start.toNat := by rw [max_eq_left fromOne]
  have skips : start.toNat - 1 = (start - 1).toNat := by omega
  have notEmpty : part.toList.isEmpty = false := by simpa [List.isEmpty_eq_false_iff] using someText
  rw [position, first, skips]
  split
  · next beyond =>
    have nothing : text.toList.drop (start - 1).toNat = [] := List.drop_eq_nil_of_le (by omega)
    rw [nothing, occurrence?, notEmpty, if_neg (by simp [someText]), if_neg (by simp)]
  · cases occurrence? part.toList (text.toList.drop (start - 1).toNat) with
    | none => rfl
    | some skipped => exact congrArg (· + (skipped : Int)) (Int.toNat_of_nonneg (by omega))

theorem position_least (text : String) (someText : part ≠ "") (fromOne : 1 ≤ start)
    (somewhere : ∃ place, start ≤ place ∧ StandsAt text part place) :
    IsLeast { place | start ≤ place ∧ StandsAt text part place } (position start text part) := by
  rw [position_eq someText fromOne]
  cases found : occurrence? part.toList (text.toList.drop (start - 1).toNat) with
  | none =>
    obtain ⟨place, stands⟩ := somewhere
    obtain ⟨skipped, -, stands⟩ := (stands_from_iff someText fromOne).mp stands
    exact absurd stands (occurrence_missing found skipped)
  | some skipped =>
    obtain ⟨stands, first⟩ := occurrence_found found
    refine ⟨(stands_from_iff someText fromOne).mpr ⟨skipped, rfl, stands⟩, fun place standsThere => ?_⟩
    obtain ⟨other, rfl, isPrefix⟩ := (stands_from_iff someText fromOne).mp standsThere
    have notBefore : skipped ≤ other := Nat.le_of_not_lt fun before => first other before isPrefix
    simpa using notBefore

theorem position_nowhere (text : String) (someText : part ≠ "") (fromOne : 1 ≤ start)
    (nowhere : ¬∃ place, start ≤ place ∧ StandsAt text part place) : position start text part = 0 := by
  rw [position_eq someText fromOne]
  cases found : occurrence? part.toList (text.toList.drop (start - 1).toNat) with
  | none => rfl
  | some skipped =>
    have stands := (stands_from_iff someText fromOne).mpr ⟨skipped, rfl, (occurrence_found found).1⟩
    exact absurd ⟨_, stands⟩ nowhere

end Places

section Parts

variable (text : String)

theorem mid_to_end {start : Int} (fromOne : 1 ≤ start) :
    mid text start none = String.ofList (text.toList.drop (start - 1).toNat) := by
  rw [mid, if_neg (by omega)]

theorem left_mid {count : Int} (notNegative : 0 ≤ count) : left text count ++ mid text (count + 1) none = text := by
  rw [mid_to_end text (by omega), left, ← String.ofList_append, show (count + 1 - 1).toNat = count.toNat by omega,
    List.take_append_drop, String.ofList_toList]

theorem right_is_mid {count : Int} (positive : 1 ≤ count) :
    right text count = mid text (max 1 (text.length - count + 1)) none := by
  have skips : (max 1 ((text.length : Int) - count + 1) - 1).toNat = text.toList.length - count.toNat := by
    rw [String.length_toList]
    omega
  rw [mid_to_end text (le_max_left _ _), skips, right]

theorem parts_around {part : String} {place : Int} (stands : StandsAt text part place) :
    left text (place - 1) ++ part ++ mid text (place + part.length) none = text := by
  obtain ⟨before, behind, rfl, rfl⟩ := stands
  have early : ((before.length : Int) + 1 - 1).toNat = before.toList.length := by simp [String.length_toList]
  have late : ((before.length : Int) + 1 + part.length - 1).toNat = (before ++ part).toList.length := by
    simp only [String.toList_append, List.length_append, String.length_toList]
    omega
  have whole : (before ++ part ++ behind).toList = (before ++ part).toList ++ behind.toList := String.toList_append
  rw [mid_to_end _ (by omega), left, early, late, whole, List.drop_left, String.toList_append, List.append_assoc,
    List.take_left, String.ofList_toList, String.ofList_toList]

end Parts

/-- A search from a position on gives the least position at which the text stands, or zero if there is none, and the
text that was found parts the other. The characters up to a position and those behind it are the whole text, and the last
characters are those from the matching position on. -/
theorem parts_share_positions (text : String) :
    (∀ (part : String) (start : Int), part ≠ "" → 1 ≤ start →
      ((∃ place, start ≤ place ∧ StandsAt text part place) →
        IsLeast { place | start ≤ place ∧ StandsAt text part place } (position start text part)) ∧
      ((¬∃ place, start ≤ place ∧ StandsAt text part place) → position start text part = 0) ∧
      (0 < position start text part →
        left text (position start text part - 1) ++ part ++
          mid text (position start text part + part.length) none = text)) ∧
    (∀ count : Int, 0 ≤ count → left text count ++ mid text (count + 1) none = text) ∧
    ∀ count : Int, 1 ≤ count → right text count = mid text (max 1 (text.length - count + 1)) none := by
  refine ⟨fun part start someText fromOne => ?_, fun count => left_mid text, fun count => right_is_mid text⟩
  have least := position_least text someText fromOne
  have nowhere := position_nowhere text someText fromOne
  refine ⟨least, nowhere, fun found => parts_around text ?_⟩
  by_cases somewhere : ∃ place, start ≤ place ∧ StandsAt text part place
  · exact (least somewhere).1.2
  · rw [nowhere somewhere] at found
    exact absurd found (lt_irrefl 0)

theorem second_place_found :
    left "größe, größer" 7 ++ "größ" ++ mid "größe, größer" 12 none = "größe, größer" ∧
      left "größe, größer" 9 ++ mid "größe, größer" 10 none = "größe, größer" ∧
      right "größe, größer" 2 = mid "größe, größer" 12 none := by
  have found : position 2 "größe, größer" "größ" = 8 := by decide +kernel
  obtain ⟨searches, parts, ends⟩ := parts_share_positions "größe, größer"
  have around := (searches "größ" 2 (by decide) (by decide)).2.2 (by rw [found]; decide)
  rw [found] at around
  exact ⟨around, parts 9 (by decide), ends 2 (by decide)⟩

end Text

end BasicLang
