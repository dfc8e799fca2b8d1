import BasicLang.Action.File
import BasicLang.Action.Console
import BasicLang.Proofs.Files.Cursor
import BasicLang.Proofs.Number.WholeTexts

set_option autoImplicit false

namespace BasicLang

/-- The values that a file can hold: whole numbers, and texts without quotes. -/
def Value.isWritable : Value → Bool
  | .integer _ => true
  | .long _ => true
  | .string text => !text.toList.contains '"'
  | _ => false

inductive Written : List Value → List Char → Prop where
  | nothing : Written [] []
  | value {value : Value} {values : List Value} {separator : Char} {after : List Char}
      (writable : value.isWritable = true) (separates : OpenFile.isSeparator separator = true)
      (written : Written values after) :
      Written (value :: values) ((Run.writtenText value).toList ++ separator :: after)

theorem Written.append {values others : List Value} {text after : List Char} (written : Written values text)
    (rest : Written others after) : Written (values ++ others) (text ++ after) := by
  induction written with
  | nothing => exact rest
  | value writable separates _ ih =>
    rw [List.append_assoc, List.cons_append]
    exact .value writable separates ih

theorem Written.writable {values : List Value} {text : List Char} (written : Written values text) :
    ∀ value ∈ values, value.isWritable = true := by
  induction written with
  | nothing => simp
  | value writable separates _ ih => exact List.forall_mem_cons.mpr ⟨writable, ih⟩

theorem written_line {values : List Value} (some : values ≠ []) (writable : ∀ value ∈ values, value.isWritable = true) :
    Written values (",".intercalate (values.map Run.writtenText) ++ "\n").toList := by
  induction values with
  | nil => exact absurd rfl some
  | cons value rest ih =>
    have first := writable value List.mem_cons_self
    cases rest with
    | nil =>
      rw [List.map_singleton, String.intercalate_singleton, String.toList_append]
      exact .value first rfl .nothing
    | cons next rest =>
      have others := ih (List.cons_ne_nil _ _) fun other inside => writable other (List.mem_cons_of_mem _ inside)
      have split : (",".intercalate ((value :: next :: rest).map Run.writtenText) ++ "\n").toList =
          (Run.writtenText value).toList ++
            ',' :: (",".intercalate ((next :: rest).map Run.writtenText) ++ "\n").toList := by
        simp only [List.map_cons, String.intercalate_cons_cons, String.toList_append, List.append_assoc]
        rfl
      rw [split]
      exact .value first rfl others

namespace OpenFile

theorem number_char {char : Char} (shown : char = '-' ∨ char.isDigit = true) :
    isFieldBlank char = false ∧ isSeparator char = false ∧ isBlank char = false ∧ char ≠ '"' := by
  have all : ∀ code, 48 ≤ code → code ≤ 57 → isFieldBlank (Char.ofNat code) = false ∧
      isSeparator (Char.ofNat code) = false ∧ isBlank (Char.ofNat code) = false ∧ Char.ofNat code ≠ '"' := by
    intro code least most
    interval_cases code <;> decide
  rcases shown with rfl | isDigit
  · decide
  · simp only [Char.isDigit, Bool.and_eq_true, decide_eq_true_eq] at isDigit
    have found := all char.toNat isDigit.1 isDigit.2
    rwa [Char.ofNat_toNat] at found

theorem span_until {test : Char → Bool} {content after : List Char} {stop : Char}
    (passes : ∀ char ∈ content, test char = true) (stops : test stop = false) :
    (content ++ stop :: after).span test = (content, stop :: after) := by
  rw [List.span_eq_takeWhile_dropWhile, List.takeWhile_append_of_pos passes, List.dropWhile_append_of_pos passes,
    List.takeWhile_cons_of_neg (by simp [stops]), List.dropWhile_cons_of_neg (by simp [stops]), List.append_nil]

theorem drop_last_none {test : Char → Bool} {chars : List Char} (none : ∀ char ∈ chars, test char = false) :
    dropLast test chars = chars := by
  have kept : chars.reverse.dropWhile test = chars.reverse := by
    rw [List.dropWhile_eq_self_iff]
    intro some first
    rw [none _ (List.mem_reverse.mp (List.getElem_mem some))] at first
    cases first
  rw [dropLast, kept, List.reverse_reverse]

def fieldText : Value → String
  | .string text => text
  | other => other.text

theorem field_number (number : Int) {separator : Char} {after : List Char} (separates : isSeparator separator = true) :
    field ((toString number).toList ++ separator :: after) = ((toString number).toList, separator :: after) := by
  have chars (char : Char) (inside : char ∈ (toString number).toList) := number_char (mem_to_string inside)
  have content : ((toString number).toList ++ separator :: after).span (fun char => !isSeparator char) =
      ((toString number).toList, separator :: after) :=
    span_until (fun char inside => by rw [(chars char inside).2.1]; rfl) (by rw [separates]; rfl)
  have trimmed : dropLast isBlank (toString number).toList = (toString number).toList :=
    drop_last_none fun char inside => (chars char inside).2.2.1
  unfold field
  split
  · next quoted same =>
    cases text : (toString number).toList with
    | nil => exact absurd text (to_string_ne_nil number)
    | cons first rest =>
      rw [text, List.cons_append] at same
      have isFirst := (chars first (by rw [text]; exact List.mem_cons_self)).2.2.2
      exact absurd (List.cons.inj same).1 isFirst
  · rw [content]
    dsimp only
    rw [trimmed]

theorem field_written {value : Value} {separator : Char} {after : List Char} (writable : value.isWritable = true)
    (separates : isSeparator separator = true) :
    field ((Run.writtenText value).toList ++ separator :: after) = ((fieldText value).toList, separator :: after) := by
  cases value with
  | integer number => exact field_number number.toInt separates
  | long number => exact field_number number.toInt separates
  | string text =>
    have noQuote : ∀ char ∈ text.toList, (char != '"') = true := by
      intro char inside
      have absent : '"' ∉ text.toList := by simpa [Value.isWritable] using writable
      simpa using fun same : char = '"' => absent (same ▸ inside)
    have quoted : (Run.writtenText (.string text)).toList ++ separator :: after =
        '"' :: (text.toList ++ '"' :: separator :: after) := by
      simp [Run.writtenText]
    rw [quoted, field, span_until noQuote (by decide)]
    rfl
  | _ => cases writable

theorem written_starts {value : Value} (writable : value.isWritable = true) :
    ∃ first rest, (Run.writtenText value).toList = first :: rest ∧ isFieldBlank first = false := by
  have number (number : Int) : ∃ first rest, (toString number).toList = first :: rest ∧ isFieldBlank first = false := by
    cases text : (toString number).toList with
    | nil => exact absurd text (to_string_ne_nil number)
    | cons first rest =>
      exact ⟨first, rest, rfl, (number_char (mem_to_string (by rw [text]; exact List.mem_cons_self))).1⟩
  cases value with
  | integer value => exact number value.toInt
  | long value => exact number value.toInt
  | string text => exact ⟨'"', text.toList ++ ['"'], by simp [Run.writtenText], by decide⟩
  | _ => cases writable

theorem read_written {file : OpenFile} {value : Value} {separator : Char} {after : List Char}
    (writable : value.isWritable = true) (separates : isSeparator separator = true)
    (rest : file.rest = (Run.writtenText value).toList ++ separator :: after) :
    file.readField = (some (fieldText value), file.advance after) := by
  obtain ⟨first, others, starts, notBlank⟩ := written_starts writable
  have noBlanks : file.rest.dropWhile isFieldBlank = (Run.writtenText value).toList ++ separator :: after := by
    rw [rest, starts, List.cons_append, List.dropWhile_cons_of_neg (by simp [notBlank])]
  have isField : field ((Run.writtenText value).toList ++ separator :: after) =
      ((fieldText value).toList, separator :: after) := field_written writable separates
  rw [read_field_eq, noBlanks]
  split
  · next empty => rw [starts] at empty; cases empty
  · rw [isField]
    dsimp only
    rw [List.dropWhile_cons_of_neg (by simp [separates]), String.ofList_toList]
    rfl

end OpenFile

section Conversion

theorem whole_of_short (number : Int16) : Double.toInt (Double.roundToEven (Double.ofInt number.toInt)) = number.toInt := by
  have least := Int16.le_toInt number
  have most := Int16.toInt_lt number
  exact Double.to_int_of_int (by omega)

theorem whole_of_long (number : Int32) : Double.toInt (Double.roundToEven (Double.ofInt number.toInt)) = number.toInt := by
  have least := Int32.le_toInt number
  have most := Int32.toInt_lt number
  exact Double.to_int_of_int (by omega)

theorem trim_none {text : String} (noQuote : '"' ∉ text.toList) : Text.trim (· == '"') text = text := by
  have start : text.toList.dropWhile (· == '"') = text.toList := by
    rw [List.dropWhile_eq_self_iff]
    intro some first
    exact noQuote (eq_of_beq first ▸ List.getElem_mem some)
  have last : OpenFile.dropLast (· == '"') text.toList = text.toList :=
    OpenFile.drop_last_none fun char inside => beq_false_of_ne fun same => noQuote (same ▸ inside)
  rw [Text.trim, Text.trimStart, start, Text.trimEnd, String.toList_ofList]
  exact (congrArg String.ofList last).trans String.ofList_toList

theorem convert_field {store : Store} {cell : Cell} {value : Value} (writable : value.isWritable = true)
    (typed : store.ty cell = value.ty) :
    value.ty.convert (Run.fieldValue store cell (OpenFile.fieldText value)) = .ok value := by
  rw [Run.fieldValue, typed]
  cases value with
  | integer number =>
    have least := Int16.le_toInt number
    have most := Int16.toInt_lt number
    have read : numberPrefix (toString number.toInt) = Double.ofInt number.toInt := number_prefix_to_string (by omega)
    change Except.ok (Value.integer (Int16.ofInt (Double.toInt (Double.roundToEven (numberPrefix (toString number.toInt)))))) = _
    rw [read, whole_of_short, Int16.ofInt_toInt]
  | long number =>
    have least := Int32.le_toInt number
    have most := Int32.toInt_lt number
    have read : numberPrefix (toString number.toInt) = Double.ofInt number.toInt := number_prefix_to_string (by omega)
    change Except.ok (Value.long (Int32.ofInt (Double.toInt (Double.roundToEven (numberPrefix (toString number.toInt)))))) = _
    rw [read, whole_of_long, Int32.ofInt_toInt]
  | string text =>
    have noQuote : '"' ∉ text.toList := by simpa [Value.isWritable] using writable
    have trimmed : Text.trim (· == '"') text = text := trim_none noQuote
    change Except.ok (Value.string (Text.trim (· == '"') text)) = _
    rw [trimmed]
  | _ => cases writable

end Conversion

end BasicLang
