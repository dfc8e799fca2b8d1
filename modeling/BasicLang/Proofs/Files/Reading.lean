import BasicLang.Proofs.Files.Statements
import BasicLang.Proofs.Values
import Mathlib.Data.List.DropRight

set_option autoImplicit false

namespace BasicLang

namespace OpenFile

variable {file : OpenFile} {chars content after : List Char}

def takeField (chars : List Char) : Option (List Char × List Char) :=
  match chars.dropWhile isFieldBlank with
  | [] => none
  | text => some ((field text).1, ((field text).2.dropWhile fun char => !isSeparator char).drop 1)

def takeFields : Nat → List Char → Option (List String × List Char)
  | 0, chars => some ([], chars)
  | count + 1, chars =>
    (takeField chars).bind fun taken =>
      (takeFields count taken.2).map fun further => (String.ofList taken.1 :: further.1, further.2)

def lineOf (chars : List Char) : String :=
  String.ofList (dropLast (· == '\r') (chars.takeWhile (· != '\n')))

def behindLine (chars : List Char) : List Char := (chars.dropWhile (· != '\n')).drop 1

theorem behind_line_shorter (first : Char) (rest : List Char) :
    (behindLine (first :: rest)).length < (first :: rest).length := by
  have dropped := (List.dropWhile_suffix (· != '\n') (l := first :: rest)).length_le
  rw [behindLine, List.length_drop]
  rw [List.length_cons] at dropped ⊢
  omega

def linesOf : List Char → List String
  | [] => []
  | first :: rest => lineOf (first :: rest) :: linesOf (behindLine (first :: rest))
termination_by chars => chars.length
decreasing_by exact behind_line_shorter first rest

theorem lines_cons (more : chars ≠ []) : linesOf chars = lineOf chars :: linesOf (behindLine chars) := by
  cases chars with
  | nil => exact absurd rfl more
  | cons first rest => rw [linesOf]

theorem take_field_none_iff : takeField chars = none ↔ ∀ char ∈ chars, isFieldBlank char = true := by
  rw [← List.dropWhile_eq_nil_iff, takeField]
  cases chars.dropWhile isFieldBlank <;> simp

theorem field_suffix (chars : List Char) : (field chars).2 <:+ chars := by
  unfold field
  split
  · next quoted =>
    rw [List.span_eq_takeWhile_dropWhile]
    exact ((List.drop_suffix _ _).trans (List.dropWhile_suffix _)).trans (List.suffix_cons _ _)
  · rw [List.span_eq_takeWhile_dropWhile]
    exact List.dropWhile_suffix _

theorem take_field_suffix (found : takeField chars = some (content, after)) : after <:+ chars := by
  have behind : chars.dropWhile isFieldBlank <:+ chars := List.dropWhile_suffix _
  rw [takeField] at found
  generalize chars.dropWhile isFieldBlank = text at found behind
  cases text with
  | nil => cases found
  | cons first rest =>
    obtain ⟨-, rfl⟩ := Prod.mk.inj (Option.some.inj found)
    exact (((List.drop_suffix _ _).trans (List.dropWhile_suffix _)).trans (field_suffix _)).trans behind

theorem behind_line_suffix (chars : List Char) : behindLine chars <:+ chars :=
  (List.drop_suffix _ _).trans (List.dropWhile_suffix _)

theorem read_field_some (found : takeField file.rest = some (content, after)) :
    file.readField = (some (String.ofList content), file.advance after) := by
  rw [takeField] at found
  rw [read_field_eq]
  generalize file.rest.dropWhile isFieldBlank = text at found
  cases text with
  | nil => cases found
  | cons first rest =>
    obtain ⟨rfl, rfl⟩ := Prod.mk.inj (Option.some.inj found)
    rfl

theorem read_field_none (missing : takeField file.rest = none) : file.readField = (none, file.advance []) := by
  rw [takeField] at missing
  rw [read_field_eq]
  generalize file.rest.dropWhile isFieldBlank = text at missing
  cases text with
  | nil => rfl
  | cons first rest => cases missing

theorem read_line_some (more : file.rest ≠ []) :
    file.readLine = (some (lineOf file.rest), file.advance (behindLine file.rest)) := by
  rw [read_line_eq]
  generalize file.rest = text at more
  cases text with
  | nil => exact absurd rfl more
  | cons first rest =>
    rfl

theorem read_line_none (atEnd : file.rest = []) : file.readLine = (none, file) := by
  rw [read_line_eq, atEnd]

theorem read_field_file (file : OpenFile) : ∃ after, file.readField.2 = file.advance after := by
  cases found : takeField file.rest with
  | none => exact ⟨_, congrArg Prod.snd (read_field_none found)⟩
  | some taken => exact ⟨_, congrArg Prod.snd (read_field_some found)⟩

theorem read_line_file (file : OpenFile) : file.readLine.2 = file ∨ ∃ after, file.readLine.2 = file.advance after := by
  by_cases atEnd : file.rest = []
  · exact .inl (congrArg Prod.snd (read_line_none atEnd))
  · exact .inr ⟨_, congrArg Prod.snd (read_line_some atEnd)⟩

end OpenFile

namespace Run

def fieldItem (ty : Ty) (field : String) : Value :=
  match ty with
  | .string => .string (Text.trim (· == '"') field)
  | .integer => .integer (Double.toInteger (numberPrefix field))
  | .long => .long (Double.toLong (numberPrefix field))
  | .single => .single (Double.toSingle (numberPrefix field))
  | _ => .double (numberPrefix field)

section Items

variable {store : Store} {target : Cell} {ty : Ty}

theorem field_item_ty (isScalar : ty.IsScalar) (field : String) : (fieldItem ty field).ty = ty := by
  rcases isScalar with numeric | rfl
  · rcases Ty.numeric_cases numeric with rfl | rfl | rfl | rfl <;> rfl
  · rfl

theorem field_item_scalar (ty : Ty) (field : String) : (fieldItem ty field).isScalar = true := by
  unfold fieldItem
  split <;> rfl

theorem convert_field_item (isScalar : (store.ty target).IsScalar) (field : String) :
    (store.ty target).convert (fieldValue store target field) = .ok (fieldItem (store.ty target) field) := by
  rw [fieldValue]
  generalize store.ty target = ty at isScalar
  rcases isScalar with numeric | rfl
  · rcases Ty.numeric_cases numeric with rfl | rfl | rfl | rfl <;> rfl
  · rfl

end Items

variable {σ : Type} {machine : Machine σ} {number : Int} {file : OpenFile}

section Fields

variable {targets : List Cell} {fields : List String} {after : List Char}

theorem on_take_fields (isOpen : machine.files.get? number = some file) (isInput : file.isInput = true)
    (found : OpenFile.takeFields targets.length file.rest = some (fields, after)) :
    ∃ files last, (readFields number targets).on machine =
        (.ok (targets.zipWith (fieldValue machine.store) fields), { machine with files }) ∧
      FileTable.get? files number = some last ∧ last.isInput = true ∧ last.rest = after := by
  induction targets generalizing fields machine file with
  | nil =>
    obtain ⟨rfl, rfl⟩ := Prod.mk.inj (Option.some.inj found)
    exact ⟨machine.files, file, rfl, isOpen, isInput, rfl⟩
  | cons target targets ih =>
    rw [List.length_cons, OpenFile.takeFields] at found
    obtain ⟨⟨content, behind⟩, taken, found⟩ := Option.bind_eq_some_iff.mp found
    obtain ⟨⟨further, last⟩, rest, same⟩ := Option.map_eq_some_iff.mp found
    obtain ⟨rfl, rfl⟩ := Prod.mk.inj same
    have left : (file.advance behind).rest = behind := OpenFile.rest_advance (OpenFile.take_field_suffix taken)
    obtain ⟨files, final, others, stillOpen, stillInput, ends⟩ :=
      @ih { machine with files := machine.files.set number (file.advance behind) } (file.advance behind) further
        (FileTable.get_set _ _ _) isInput (by rw [left]; exact rest)
    refine ⟨files, final, ?_, stillOpen, stillInput, ends⟩
    rw [readFields, on_seq (on_input_file isOpen isInput), OpenFile.read_field_some taken]
    dsimp only
    rw [setFile, on_seq (on_modify _ _), on_seq (on_get _), on_seq others]
    rfl

theorem on_fields_missing (isOpen : machine.files.get? number = some file) (isInput : file.isInput = true)
    (missing : OpenFile.takeFields targets.length file.rest = none) :
    ∃ files last, (readFields number targets).on machine =
        (.error (.ofFault (.device .endOfInput)), { machine with files }) ∧
      FileTable.get? files number = some last ∧ last.isInput = true ∧ last.rest = [] := by
  induction targets generalizing machine file with
  | nil => cases missing
  | cons target targets ih =>
    rw [List.length_cons, OpenFile.takeFields] at missing
    cases taken : OpenFile.takeField file.rest with
    | none =>
      refine ⟨machine.files.set number (file.advance []), file.advance [], ?_, FileTable.get_set _ _ _, isInput,
        OpenFile.rest_advance (List.nil_suffix)⟩
      rw [readFields, on_seq (on_input_file isOpen isInput), OpenFile.read_field_none taken]
      rfl
    | some field =>
      obtain ⟨content, behind⟩ := field
      have left : (file.advance behind).rest = behind := OpenFile.rest_advance (OpenFile.take_field_suffix taken)
      have rest : OpenFile.takeFields targets.length (file.advance behind).rest = none := by
        rw [taken, Option.bind_some, Option.map_eq_none_iff] at missing
        rwa [left]
      obtain ⟨files, final, others, stillOpen, stillInput, ends⟩ :=
        @ih { machine with files := machine.files.set number (file.advance behind) } (file.advance behind)
          (FileTable.get_set _ _ _) isInput rest
      refine ⟨files, final, ?_, stillOpen, stillInput, ends⟩
      rw [readFields, on_seq (on_input_file isOpen isInput), OpenFile.read_field_some taken]
      dsimp only
      rw [setFile, on_seq (on_modify _ _), on_seq (on_get _), on_stop others]

theorem on_assign_fields {store : Store} (typed : ∀ target ∈ targets, (store.ty target).IsScalar)
    (same : ∀ cell, machine.store.ty cell = store.ty cell) :
    (assignAll (targets.zip (targets.zipWith (fieldValue store) fields))).on machine =
      (.ok (), { machine with
        store := machine.store.writeAll
          (targets.zip (targets.zipWith (fun target field => fieldItem (store.ty target) field) fields)) }) := by
  induction targets generalizing fields machine with
  | nil => rfl
  | cons target targets ih =>
    cases fields with
    | nil => rfl
    | cons field fields =>
      obtain ⟨isScalar, others⟩ := List.forall_mem_cons.mp typed
      have converted := convert_field_item isScalar field
      have assigned : (assign target (fieldValue store target field)).on machine =
          (.ok (), { machine with store := machine.store.write target (fieldItem (store.ty target) field) }) := by
        rw [assign, on_seq (on_get machine), same, if_neg isScalar.not_null, converted]
        rfl
      rw [List.zipWith_cons_cons, List.zip_cons_cons, assignAll, on_seq assigned]
      exact ih others fun cell =>
        (Store.ty_write_scalar (field_item_scalar _ field) ((same target).trans (field_item_ty isScalar field).symm)
          cell).trans (same cell)

end Fields

section Statements

variable (devices : Devices σ)

def inputFields (number : Int) (targets : List Cell) : Run σ Unit := do
  pushInteger number
  targets.forM pushReference
  pushCount targets.length
  builtin devices .fileInput

def inputLine (number : Int) (target : Cell) : Run σ Unit := do
  pushInteger number
  pushReference target
  builtin devices .fileLineInput

def askEnd (number : Int) : Run σ Unit := do
  pushInteger number
  builtin devices .eof

variable {targets : List Cell} {target : Cell}

theorem on_input_fields {fields : List String} {after : List Char} (least : 1 ≤ number) (most : number ≤ 255)
    (few : targets.length ≤ 32767) (isOpen : machine.files.get? number = some file) (isInput : file.isInput = true)
    (found : OpenFile.takeFields targets.length file.rest = some (fields, after))
    (typed : ∀ target ∈ targets, (machine.store.ty target).IsScalar) :
    ∃ files last, (inputFields devices number targets).on machine = (.ok (), { machine with
        files
        store := machine.store.writeAll
          (targets.zip (targets.zipWith (fun target field => fieldItem (machine.store.ty target) field) fields)) }) ∧
      FileTable.get? files number = some last ∧ last.isInput = true ∧ last.rest = after := by
  obtain ⟨files, last, read, stillOpen, stillInput, ends⟩ := on_take_fields isOpen isInput found
  refine ⟨files, last, ?_, stillOpen, stillInput, ends⟩
  rw [inputFields, on_seq (on_push_integer _), on_seq (on_push_references _), pushCount, on_seq (on_push_integer _),
    builtin, fileInput, on_seq (on_pop_pushed_targets few rfl), on_seq (on_pop_file_number least most rfl),
    on_seq (on_input_file isOpen isInput), on_seq read]
  exact on_assign_fields typed fun _ => rfl

theorem on_input_fields_missing (least : 1 ≤ number) (most : number ≤ 255) (few : targets.length ≤ 32767)
    (isOpen : machine.files.get? number = some file) (isInput : file.isInput = true)
    (missing : OpenFile.takeFields targets.length file.rest = none) :
    ∃ files, (inputFields devices number targets).on machine =
      (.error (.ofFault (.device .endOfInput)), { machine with files }) := by
  obtain ⟨files, last, read, -, -, -⟩ := on_fields_missing isOpen isInput missing
  refine ⟨files, ?_⟩
  rw [inputFields, on_seq (on_push_integer _), on_seq (on_push_references _), pushCount, on_seq (on_push_integer _),
    builtin, fileInput, on_seq (on_pop_pushed_targets few rfl), on_seq (on_pop_file_number least most rfl),
    on_seq (on_input_file isOpen isInput), on_stop read]

theorem on_input_line (least : 1 ≤ number) (most : number ≤ 255) (isOpen : machine.files.get? number = some file)
    (isInput : file.isInput = true) (isText : machine.store.ty target = .string) (more : file.rest ≠ []) :
    (inputLine devices number target).on machine = (.ok (), { machine with
      files := machine.files.set number (file.advance (OpenFile.behindLine file.rest))
      store := machine.store.write target (.string (OpenFile.lineOf file.rest)) }) := by
  rw [inputLine, on_seq (on_push_integer _), on_seq (on_push_reference _ _), builtin, fileLineInput,
    on_seq (on_pop_reference rfl), on_seq (on_pop_file_number least most rfl), on_seq (on_input_file isOpen isInput),
    OpenFile.read_line_some more]
  dsimp only
  rw [setFile, on_seq (on_modify _ _), assign, on_seq (on_get _), isText]
  rfl

theorem on_input_line_missing (least : 1 ≤ number) (most : number ≤ 255)
    (isOpen : machine.files.get? number = some file) (isInput : file.isInput = true) (atEnd : file.rest = []) :
    (inputLine devices number target).on machine =
      (.error (.ofFault (.device .endOfInput)), { machine with files := machine.files.set number file }) := by
  rw [inputLine, on_seq (on_push_integer _), on_seq (on_push_reference _ _), builtin, fileLineInput,
    on_seq (on_pop_reference rfl), on_seq (on_pop_file_number least most rfl), on_seq (on_input_file isOpen isInput),
    OpenFile.read_line_none atEnd]
  rfl

theorem on_ask_end (least : 1 ≤ number) (most : number ≤ 255) (isOpen : machine.files.get? number = some file)
    (isInput : file.isInput = true) : (askEnd devices number).on machine =
      (.ok (), { machine with stack := .value (.ofBool file.isAtEnd) :: machine.stack }) := by
  rw [askEnd, on_seq (on_push_integer _), builtin, eof, on_seq (on_pop_file_number least most rfl),
    on_seq (on_input_file isOpen isInput)]
  rfl

end Statements

end Run

end BasicLang
