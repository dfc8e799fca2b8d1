import BasicLang.Machine.OpenFile
import BasicLang.Proofs.Text.Bytes
import Mathlib.Data.List.TakeDrop

set_option autoImplicit false

namespace BasicLang

namespace OpenFile

def rest (file : OpenFile) : List Char := file.rest?.getD []

def advance (file : OpenFile) (after : List Char) : OpenFile :=
  { file with position := file.text.utf8ByteSize - byteSize after }

/-- The field at the start of text that does not start with a blank, and what follows it. A field
in quotes may hold separators. -/
def field : List Char → List Char × List Char
  | '"' :: quoted =>
    let (content, after) := quoted.span (· != '"')
    (content, after.drop 1)
  | chars =>
    let (content, after) := chars.span fun char => !isSeparator char
    (dropLast isBlank content, after)

variable {file : OpenFile} {left after : List Char}

theorem rest_some_iff : file.rest? = some left ↔
    ∃ before, file.text.toList = before ++ left ∧ byteSize before = file.position := by
  rw [rest?, Option.map_eq_some_iff]
  constructor
  · rintro ⟨⟨before, after⟩, cut, rfl⟩
    exact ⟨before, Text.split_at_some cut⟩
  · rintro ⟨before, split, size⟩
    exact ⟨(before, left), Text.split_at_some_iff.mpr ⟨split, size⟩, rfl⟩

theorem size_behind {before : List Char} (split : file.text.toList = before ++ after) :
    file.text.utf8ByteSize - byteSize after = byteSize before := by
  rw [byteSize_of_text, split, byteSize_append, Nat.add_sub_cancel]

theorem advance_eq {before : List Char} {place : Nat} (split : file.text.toList = before ++ after)
    (size : byteSize before = place) : { file with position := place } = file.advance after := by
  rw [advance, size_behind split, size]

theorem rest_advance (isSuffix : after <:+ file.rest) : (file.advance after).rest = after := by
  have inText : ∃ before, file.text.toList = before ++ after := by
    rw [rest] at isSuffix
    cases found : file.rest? with
    | none =>
      rw [found, Option.getD_none, List.suffix_nil] at isSuffix
      exact ⟨file.text.toList, by rw [isSuffix, List.append_nil]⟩
    | some left =>
      obtain ⟨before, split, -⟩ := rest_some_iff.mp found
      obtain ⟨passed, same⟩ := isSuffix
      rw [found, Option.getD_some] at same
      exact ⟨before ++ passed, by rw [split, ← same, List.append_assoc]⟩
  obtain ⟨before, split⟩ := inText
  have found : (file.advance after).rest? = some after := rest_some_iff.mpr ⟨before, split, (size_behind split).symm⟩
  rw [rest, found, Option.getD_some]

theorem rest_input (path contents : String) : (input path contents).rest = contents.toList := by
  have found : (input path contents).rest? = some contents.toList := rest_some_iff.mpr ⟨[], rfl, rfl⟩
  rw [rest, found, Option.getD_some]

theorem is_at_end_eq (file : OpenFile) : file.isAtEnd = file.rest.all fun char => char == '\r' || char == '\n' := by
  rw [isAtEnd, isAtEnd?, rest]
  cases file.rest? <;> rfl

theorem size_of_break (char : Char) (isBreak : (char == '\n') = true) : char.utf8Size = 1 := by
  rw [eq_of_beq isBreak]
  rfl

theorem size_of_separator (char : Char) (separates : isSeparator char = true) : char.utf8Size = 1 := by
  rcases Bool.or_eq_true _ _ ▸ separates with comma | isBreak
  · rw [eq_of_beq comma]
    rfl
  · exact size_of_break char isBreak

theorem line_at_eq (chars : List Char) :
    ∃ passed, chars = passed ++ (chars.dropWhile (· != '\n')).drop 1 ∧
      lineAt? chars = some (chars.takeWhile (· != '\n'), byteSize passed) := by
  obtain ⟨passed, parts, length⟩ := Text.pass_found (· == '\n') size_of_break chars
  refine ⟨passed, parts, ?_⟩
  rw [lineAt?, length]
  cases found : Text.findByte? (· == '\n') chars with
  | none =>
    have nothing := Text.find_byte_missing_iff.mp found
    have whole := List.takeWhile_append_dropWhile (p := fun char => !(char == '\n')) (l := chars)
    rw [nothing, List.append_nil] at whole
    exact congrArg (fun line => some (line, byteSize chars)) whole.symm
  | some place =>
    dsimp only
    rw [Text.eq_of_find_byte found, Text.split_at_found]
    rfl

theorem read_line_at (found : file.rest? = some left) (more : left ≠ []) :
    file.readLine? = some (some (String.ofList (dropLast (· == '\r') (left.takeWhile (· != '\n')))),
      file.advance ((left.dropWhile (· != '\n')).drop 1)) := by
  obtain ⟨before, split, size⟩ := rest_some_iff.mp found
  obtain ⟨passed, parts, line⟩ := line_at_eq left
  have notEnd : ¬file.text.utf8ByteSize ≤ file.position := by
    have positive := byteSize_pos more
    rw [byteSize_of_text, split, byteSize_append, size]
    omega
  have inText : file.text.toList = before ++ passed ++ (left.dropWhile (· != '\n')).drop 1 := by
    rw [split, List.append_assoc, ← parts]
  have behind := advance_eq inText (by rw [byteSize_append, size])
  rw [readLine?, if_neg notEnd, found, Option.bind_eq_bind, Option.bind_some, line, ← behind]
  rfl

theorem read_line_at_end (found : file.rest? = some []) : file.readLine? = some (none, file) := by
  obtain ⟨before, split, size⟩ := rest_some_iff.mp found
  have atEnd : file.text.utf8ByteSize ≤ file.position := by
    rw [byteSize_of_text, split, List.append_nil, size]
  rw [readLine?, if_pos atEnd]

theorem quoted_field_at (quoted : List Char) :
    ∃ passed, '"' :: quoted = passed ++ (quoted.dropWhile (· != '"')).drop 1 ∧
      fieldAt? ('"' :: quoted) = some (quoted.takeWhile (· != '"'), byteSize passed) := by
  have isQuote (char : Char) (same : (char == '"') = true) : char.utf8Size = 1 := by
    rw [eq_of_beq same]
    rfl
  obtain ⟨passed, parts, length⟩ := Text.pass_found (· == '"') isQuote quoted
  refine ⟨'"' :: passed, congrArg ('"' :: ·) parts, ?_⟩
  have upTo : min (byteSize (quoted.takeWhile (· != '"')) + 1) (byteSize quoted) = byteSize passed := by
    have whole := congrArg byteSize (List.takeWhile_append_dropWhile (p := (· != '"')) (l := quoted))
    rw [byteSize_append] at whole
    cases found : Text.findByte? (· == '"') quoted with
    | none =>
      have nothing : quoted.dropWhile (· != '"') = [] := Text.find_byte_missing_iff.mp found
      rw [nothing, byteSize, Nat.add_zero] at whole
      rw [length, found, whole]
      exact Nat.min_eq_right (Nat.le_succ _)
    | some place =>
      have some : quoted.dropWhile (· != '"') ≠ [] := fun missing => by
        rw [Text.find_byte_missing missing] at found
        cases found
      have positive := byteSize_pos some
      rw [length, found, Text.eq_of_find_byte found]
      exact Nat.min_eq_left (by omega)
  rw [fieldAt?, Text.find_byte_or_end, Text.split_at_found, byteSize]
  exact congrArg (fun size => some (quoted.takeWhile (· != '"'), 1 + size)) upTo

theorem plain_field_at {chars : List Char} (plain : ∀ quoted, chars ≠ '"' :: quoted) :
    fieldAt? chars = some (dropLast isBlank (chars.takeWhile fun char => !isSeparator char),
      byteSize (chars.takeWhile fun char => !isSeparator char)) := by
  rw [fieldAt?, Text.find_byte_or_end, Text.split_at_found]
  · rfl
  · exact plain

theorem field_at_eq (chars : List Char) :
    ∃ passed, chars = passed ++ (field chars).2 ∧ fieldAt? chars = some ((field chars).1, byteSize passed) := by
  unfold field
  split
  · next quoted =>
    rw [List.span_eq_takeWhile_dropWhile]
    exact quoted_field_at quoted
  · next chars plain =>
    rw [List.span_eq_takeWhile_dropWhile]
    exact ⟨_, List.takeWhile_append_dropWhile.symm, plain_field_at plain⟩

theorem behind_separator_eq {before : List Char} {place : Nat} (split : file.text.toList = before ++ after)
    (size : byteSize before = place) : ∃ position, file.behindSeparator? place = some position ∧
      { file with position } = file.advance ((after.dropWhile fun char => !isSeparator char).drop 1) := by
  obtain ⟨passed, parts, length⟩ := Text.pass_found isSeparator size_of_separator after
  have inText : file.text.toList = before ++ passed ++ (after.dropWhile fun char => !isSeparator char).drop 1 := by
    rw [split, List.append_assoc, ← parts]
  refine ⟨byteSize (before ++ passed), ?_, advance_eq inText rfl⟩
  rw [behindSeparator?, ← size, split, Text.split_at_append, Option.map_some, byteSize_append, length, byteSize_of_text,
    split, byteSize_append]
  dsimp only
  cases Text.findByte? isSeparator after <;> rfl

theorem read_field_at (found : file.rest? = some left) :
    file.readField? = some (match left.dropWhile isFieldBlank with
      | [] => (none, file.advance [])
      | chars => (some (String.ofList (field chars).1),
          file.advance (((field chars).2.dropWhile fun char => !isSeparator char).drop 1))) := by
  obtain ⟨before, split, size⟩ := rest_some_iff.mp found
  have parts : left.takeWhile isFieldBlank ++ left.dropWhile isFieldBlank = left := List.takeWhile_append_dropWhile
  have skipped : byteSize left - byteSize (left.dropWhile isFieldBlank) = byteSize (left.takeWhile isFieldBlank) := by
    conv_lhs => rw [← parts, byteSize_append, parts, Nat.add_sub_cancel]
  rw [readField?, found, Option.bind_eq_bind, Option.bind_some]
  dsimp only
  rw [skipped]
  generalize left.dropWhile isFieldBlank = trimmed at parts
  cases trimmed with
  | nil => rfl
  | cons first others =>
    obtain ⟨passed, chars, length⟩ := field_at_eq (first :: others)
    have inText : file.text.toList =
        before ++ left.takeWhile isFieldBlank ++ passed ++ (field (first :: others)).2 := by
      rw [split, List.append_assoc, List.append_assoc, ← chars, parts]
    obtain ⟨position, isBehind, same⟩ := behind_separator_eq inText (by rw [byteSize_append, byteSize_append, size])
    rw [List.isEmpty_cons, if_neg Bool.false_ne_true, length, Option.bind_eq_bind, Option.bind_some]
    dsimp only
    rw [isBehind, ← same]
    rfl

theorem read_line_eq (file : OpenFile) : file.readLine = match file.rest with
    | [] => (none, file)
    | rest => (some (String.ofList (dropLast (· == '\r') (rest.takeWhile (· != '\n')))),
        file.advance ((rest.dropWhile (· != '\n')).drop 1)) := by
  rw [readLine, rest]
  cases found : file.rest? with
  | none =>
    rw [readLine?, found]
    split <;> rfl
  | some left =>
    cases left with
    | nil => rw [read_line_at_end found]; rfl
    | cons first others => rw [read_line_at found (List.cons_ne_nil _ _)]; rfl

theorem read_field_eq (file : OpenFile) : file.readField = match file.rest.dropWhile isFieldBlank with
    | [] => (none, file.advance [])
    | chars => (some (String.ofList (field chars).1),
        file.advance (((field chars).2.dropWhile fun char => !isSeparator char).drop 1)) := by
  rw [readField, rest]
  cases found : file.rest? with
  | none => rw [readField?, found]; rfl
  | some left => rw [read_field_at found]; rfl

theorem read_line_keeps_input (file : OpenFile) : file.readLine.2.isInput = file.isInput := by
  rw [read_line_eq]
  split <;> rfl

theorem read_field_keeps_input (file : OpenFile) : file.readField.2.isInput = file.isInput := by
  rw [read_field_eq]
  split <;> rfl

inductive ReadCall where
  | line
  | field

def read? (file : OpenFile) : ReadCall → Option (Option String × OpenFile)
  | .line => file.readLine?
  | .field => file.readField?

def readAll? (file : OpenFile) : List ReadCall → Option (List (Option String) × OpenFile)
  | [] => some ([], file)
  | call :: calls => do
    let (answer, behind) ← file.read? call
    let (answers, last) ← behind.readAll? calls
    return (answer :: answers, last)

def BetweenCharacters (file : OpenFile) : Prop := (⟨file.position⟩ : String.Pos.Raw).IsValid file.text

/-- A call went on if it had an answer, and otherwise is at the end. -/
structure Passes (file : OpenFile) (answer : Option String) (behind : OpenFile) : Prop where
  text : behind.text = file.text
  between : behind.BetweenCharacters
  forward : file.position ≤ behind.position
  moves : match answer with
    | some _ => file.position < behind.position
    | none => behind.position = file.text.utf8ByteSize

theorem between_iff : file.BetweenCharacters ↔ ∃ left, file.rest? = some left := by
  rw [BetweenCharacters, String.Pos.Raw.isValid_iff_exists_append]
  constructor
  · rintro ⟨before, after, split, size⟩
    refine ⟨after.toList, rest_some_iff.mpr ⟨before.toList, by rw [split, String.toList_append], ?_⟩⟩
    rw [← byteSize_of_text]
    exact (congrArg String.Pos.Raw.byteIdx size).symm
  · rintro ⟨left, found⟩
    obtain ⟨before, split, size⟩ := rest_some_iff.mp found
    refine ⟨String.ofList before, String.ofList left, ?_, ?_⟩
    · rw [← String.toList_inj, split, String.toList_append, String.toList_ofList, String.toList_ofList]
    · rw [String.Pos.Raw.ext_iff, ← size, ← byteSize_of_list]
      rfl

theorem between_le (between : file.BetweenCharacters) : file.position ≤ file.text.utf8ByteSize := by
  obtain ⟨left, found⟩ := between_iff.mp between
  obtain ⟨before, split, size⟩ := rest_some_iff.mp found
  rw [byteSize_of_text, split, byteSize_append, size]
  exact Nat.le_add_right _ _

theorem advance_passes {passed : List Char} (found : file.rest? = some left) (parts : left = passed ++ after) :
    (file.advance after).BetweenCharacters ∧ (file.advance after).position = file.position + byteSize passed := by
  obtain ⟨before, split, size⟩ := rest_some_iff.mp found
  have behind : file.text.toList = (before ++ passed) ++ after := by rw [split, parts, List.append_assoc]
  have position : (file.advance after).position = byteSize (before ++ passed) := size_behind behind
  refine ⟨between_iff.mpr ⟨after, rest_some_iff.mpr ⟨before ++ passed, behind, position.symm⟩⟩, ?_⟩
  rw [position, byteSize_append, size]

theorem passes_some {content : String} (found : file.rest? = some left) (isSuffix : after <:+ left)
    (shorter : after ≠ left) : file.Passes (some content) (file.advance after) := by
  obtain ⟨passed, parts⟩ := isSuffix
  obtain ⟨between, position⟩ := advance_passes found parts.symm
  have some : passed ≠ [] := by
    rintro rfl
    exact shorter parts
  have positive := byteSize_pos some
  exact ⟨rfl, between, by omega, show file.position < (file.advance after).position by omega⟩

theorem passes_none (found : file.rest? = some left) : file.Passes none (file.advance []) := by
  obtain ⟨between, position⟩ := advance_passes found (List.append_nil left).symm
  exact ⟨rfl, between, by omega, Nat.sub_zero _⟩

theorem drop_one_shorter {part whole : List Char} (isSuffix : part <:+ whole) (some : whole ≠ []) :
    part.drop 1 <:+ whole ∧ part.drop 1 ≠ whole := by
  refine ⟨(List.drop_suffix 1 part).trans isSuffix, fun same => ?_⟩
  have length := congrArg List.length same
  have most := isSuffix.length_le
  have positive := List.length_pos_iff.mpr some
  rw [List.length_drop] at length
  omega

theorem read_line_passes (between : file.BetweenCharacters) :
    ∃ answer behind, file.readLine? = some (answer, behind) ∧ file.Passes answer behind := by
  obtain ⟨left, found⟩ := between_iff.mp between
  by_cases atEnd : left = []
  · subst atEnd
    obtain ⟨before, split, size⟩ := rest_some_iff.mp found
    refine ⟨none, file, read_line_at_end found, rfl, between, Nat.le_refl _, ?_⟩
    rw [byteSize_of_text, split, List.append_nil, size]
  · obtain ⟨isSuffix, shorter⟩ := drop_one_shorter (List.dropWhile_suffix (l := left) (· != '\n')) atEnd
    exact ⟨_, _, read_line_at found atEnd, passes_some found isSuffix shorter⟩

theorem read_field_passes (between : file.BetweenCharacters) :
    ∃ answer behind, file.readField? = some (answer, behind) ∧ file.Passes answer behind := by
  obtain ⟨left, found⟩ := between_iff.mp between
  have read := read_field_at found
  have blanks := List.dropWhile_suffix (l := left) isFieldBlank
  generalize left.dropWhile isFieldBlank = trimmed at read blanks
  cases trimmed with
  | nil => exact ⟨_, _, read, passes_none found⟩
  | cons first others =>
    obtain ⟨passed, parts, -⟩ := field_at_eq (first :: others)
    have behind : (field (first :: others)).2.dropWhile (fun char => !isSeparator char) <:+ first :: others :=
      (List.dropWhile_suffix _).trans ⟨passed, parts.symm⟩
    obtain ⟨isSuffix, shorter⟩ := drop_one_shorter behind (List.cons_ne_nil _ _)
    refine ⟨_, _, read, passes_some found (isSuffix.trans blanks) fun same => shorter ?_⟩
    exact (isSuffix.eq_of_length_le (same ▸ blanks.length_le))

theorem read_passes (between : file.BetweenCharacters) (call : ReadCall) :
    ∃ answer behind, file.read? call = some (answer, behind) ∧ file.Passes answer behind := by
  cases call with
  | line => exact read_line_passes between
  | field => exact read_field_passes between

theorem read_all_passes (between : file.BetweenCharacters) (calls : List ReadCall) :
    ∃ answers last, file.readAll? calls = some (answers, last) ∧ last.text = file.text ∧ last.BetweenCharacters ∧
      answers.length = calls.length ∧
      file.position + (answers.takeWhile Option.isSome).length ≤ last.position := by
  induction calls generalizing file with
  | nil => exact ⟨[], file, rfl, rfl, between, rfl, Nat.le_refl _⟩
  | cons call calls ih =>
    obtain ⟨answer, behind, read, passes⟩ := read_passes between call
    obtain ⟨answers, last, others, text, ends, length, most⟩ := ih passes.between
    refine ⟨answer :: answers, last, ?_, text.trans passes.text, ends, congrArg Nat.succ length, ?_⟩
    · rw [readAll?, read, Option.bind_eq_bind, Option.bind_some]
      dsimp only
      rw [others]
      rfl
    · have moves := passes.moves
      have forward := passes.forward
      cases answer with
      | none =>
        rw [List.takeWhile_cons_of_neg (by simp)]
        simp only [List.length_nil]
        omega
      | some content =>
        rw [List.takeWhile_cons_of_pos rfl, List.length_cons]
        dsimp only at moves
        omega

/-- However a file is read, every call finds its position between characters and leaves it there, further on if there
was an answer and at the end if there was none; so there are no more answers before the first missing one than bytes. -/
theorem reading_stays_between_characters (path text : String) (calls : List ReadCall) :
    ∃ answers file, (input path text).readAll? calls = some (answers, file) ∧ answers.length = calls.length ∧
      (answers.takeWhile Option.isSome).length ≤ text.utf8ByteSize ∧
      file.text = text ∧ (⟨file.position⟩ : String.Pos.Raw).IsValid text ∧ file.position ≤ text.utf8ByteSize ∧
      file.isAtEnd? = some file.isAtEnd ∧ file.readLine? = some file.readLine ∧ file.readField? = some file.readField ∧
      ∀ call, ∃ answer behind, file.read? call = some (answer, behind) ∧ behind.text = text ∧
        (⟨behind.position⟩ : String.Pos.Raw).IsValid text ∧ behind.position ≤ text.utf8ByteSize ∧
        file.position ≤ behind.position ∧
        match answer with
        | some _ => file.position < behind.position
        | none => behind.position = text.utf8ByteSize := by
  have starts : (input path text).BetweenCharacters :=
    between_iff.mpr ⟨text.toList, rest_some_iff.mpr ⟨[], rfl, rfl⟩⟩
  obtain ⟨answers, file, read, sameText, between, length, most⟩ := read_all_passes starts calls
  replace sameText : file.text = text := sameText
  obtain ⟨left, found⟩ := between_iff.mp between
  obtain ⟨line, behindLine, readsLine, -⟩ := read_line_passes between
  obtain ⟨field, behindField, readsField, -⟩ := read_field_passes between
  have within := between_le between
  refine ⟨answers, file, read, length, ?_, sameText, sameText ▸ between, sameText ▸ within, ?_, ?_, ?_, fun call => ?_⟩
  · rw [sameText] at within
    rw [show (input path text).position = 0 from rfl] at most
    omega
  · rw [isAtEnd, isAtEnd?, found]
    rfl
  · rw [readLine, readsLine, Option.getD_some]
  · rw [readField, readsField, Option.getD_some]
  · obtain ⟨answer, behind, reads, passes⟩ := read_passes between call
    have behindText : behind.text = text := passes.text.trans sameText
    exact ⟨answer, behind, reads, behindText, behindText ▸ passes.between, behindText ▸ between_le passes.between,
      passes.forward, sameText ▸ passes.moves⟩

end OpenFile

end BasicLang
