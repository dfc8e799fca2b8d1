import BasicLang.Proofs.Action.Printing
import BasicLang.Proofs.Files.EndOfFile
import BasicLang.Proofs.Machine.Replies
import Mathlib.Data.String.Basic

set_option autoImplicit false

namespace BasicLang

section Splitting

open String

theorem split_on_aux (sep : Char) (before piece rest : List Char) (pieces : List String) :
    splitOnAux (ofList (before ++ piece ++ rest)) (ofList [sep]) ⟨utf8Len before⟩ ⟨utf8Len before + utf8Len piece⟩ 0
        pieces =
      pieces.reverse ++ (List.splitOnPPrepend (· == sep) rest piece.reverse).map ofList := by
  have place := utf8Len_append before piece
  -- The state of the loop is what lies before the piece, the piece itself and the rest, at the offsets of their bytes.
  induction rest generalizing before piece pieces with
  | nil =>
    have isEnd : Pos.Raw.atEnd (ofList (before ++ piece ++ [])) ⟨utf8Len before + utf8Len piece⟩ = true := by
      simp only [atEnd_iff, rawEndPos_ofList, List.append_nil, place, Pos.Raw.mk_le_mk, Nat.le_refl]
    have taken := extract_of_valid before piece []
    rw [splitOnAux, if_pos isEnd, taken]
    simp
  | cons char rest ih =>
    have notEnd :
        ¬Pos.Raw.atEnd (ofList (before ++ piece ++ char :: rest)) ⟨utf8Len before + utf8Len piece⟩ = true := by
      simp only [atEnd_iff, rawEndPos_ofList, utf8Len_append, utf8Len_cons, Pos.Raw.mk_le_mk]
      have := char.utf8Size_pos
      omega
    have found := get_of_valid (before ++ piece) (char :: rest)
    have next := next_of_valid (before ++ piece) char rest
    have taken := extract_of_valid before piece (char :: rest)
    have sepFound := get_of_valid [] [sep]
    have sepNext := next_of_valid [] sep []
    rw [place] at found next
    rw [splitOnAux, if_neg notEnd, found]
    simp only [List.nil_append, utf8Len_nil, Nat.zero_add] at sepFound sepNext
    change (if (_ == Pos.Raw.get (ofList [sep]) ⟨0⟩) = true then _ else _) = _
    rw [sepFound]
    by_cases same : char = sep
    · subst same
      have sepEnd : Pos.Raw.atEnd (ofList [char]) ⟨char.utf8Size⟩ = true := by
        simp only [atEnd_iff, rawEndPos_ofList, utf8Len_cons, utf8Len_nil, Nat.zero_add, Pos.Raw.mk_le_mk, Nat.le_refl]
      have step := ih (before ++ piece ++ [char]) [] (ofList piece :: pieces) (utf8Len_append _ _)
      simp only [List.append_assoc, List.append_nil, List.singleton_append, utf8Len_append, utf8Len_cons, utf8Len_nil,
        Nat.zero_add, Nat.add_zero, ← Nat.add_assoc] at step
      have back : Pos.Raw.unoffsetBy ⟨utf8Len before + utf8Len piece + char.utf8Size⟩ ⟨char.utf8Size⟩ =
          ⟨utf8Len before + utf8Len piece⟩ := by
        simp [Pos.Raw.unoffsetBy]
      rw [if_pos (by simp), next]
      change (if Pos.Raw.atEnd (ofList [char]) (Pos.Raw.next (ofList [char]) ⟨0⟩) = true then
        splitOnAux _ _ _ _ 0 (Pos.Raw.extract _ _ (Pos.Raw.unoffsetBy _ (Pos.Raw.next (ofList [char]) ⟨0⟩)) :: pieces)
        else _) = _
      rw [sepNext, if_pos sepEnd, back, taken, List.append_assoc]
      refine step.trans ?_
      rw [List.splitOnPPrepend_cons_pos (by simp)]
      simp
    · have step := ih before (piece ++ [char]) pieces (utf8Len_append _ _)
      simp only [List.append_assoc, List.singleton_append, utf8Len_append, utf8Len_cons, utf8Len_nil, Nat.zero_add,
        ← Nat.add_assoc, List.reverse_append, List.reverse_singleton] at step
      have here : Pos.Raw.unoffsetBy ⟨utf8Len before + utf8Len piece⟩ 0 = ⟨utf8Len before + utf8Len piece⟩ := by
        simp [Pos.Raw.unoffsetBy]
      rw [if_neg (by simpa using same), here, next, List.append_assoc]
      refine step.trans ?_
      rw [List.splitOnPPrepend_cons_neg (by simpa using same)]

theorem split_on_char (text : String) (sep : Char) :
    text.splitOn (String.ofList [sep]) = (text.toList.splitOn sep).map String.ofList := by
  have split := split_on_aux sep [] [] text.toList []
  simp only [List.append_nil, List.nil_append, String.ofList_toList, List.reverse_nil] at split
  have notEmpty : ¬(String.ofList [sep] == "") = true := by simp
  rw [String.splitOn, if_neg notEmpty]
  exact split

end Splitting

def pieceOf (chars : List Char) : List Char := chars.takeWhile (· != ',')

def behindPiece (chars : List Char) : List Char := (chars.dropWhile (· != ',')).drop 1

theorem split_pieces (chars : List Char) : chars.splitOn ',' = [pieceOf chars] ∧ behindPiece chars = [] ∨
    chars.splitOn ',' = pieceOf chars :: (behindPiece chars).splitOn ',' := by
  have split := List.takeWhile_append_dropWhile (p := (· != ',')) (l := chars)
  have stop := List.head?_dropWhile_not (· != ',') chars
  have inPiece : ∀ char ∈ pieceOf chars, (char == ',') = false := fun char inside => by
    simpa using List.mem_takeWhile_imp inside
  rw [behindPiece]
  cases behind : chars.dropWhile (· != ',') with
  | nil =>
    rw [behind, List.append_nil] at split
    refine .inl ⟨?_, rfl⟩
    conv_lhs => rw [← split]
    exact List.splitOn_eq_singleton_of_beq_eq_false inPiece
  | cons char rest =>
    rw [behind] at split stop
    have isComma : char = ',' := by simpa using stop
    refine .inr ?_
    conv_lhs => rw [← split, isComma]
    exact List.splitOn_append_cons_of_forall_mem_beq_eq_false inPiece _ rfl _

namespace Run

def consoleFields : Nat → List Char → List String
  | 0, _ => []
  | count + 1, chars => Text.trim isBlank (String.ofList (pieceOf chars)) :: consoleFields count (behindPiece chars)

variable {σ : Type} {machine : Machine σ}

def LineFields (fields : List String) (chars : List Char) : Prop :=
  fields = (chars.splitOn ',').map (fun piece => Text.trim isBlank (String.ofList piece)) ∨ fields = [] ∧ chars = []

theorem line_fields_cons {fields : List String} {chars : List Char} (isLine : LineFields fields chars) :
    fields.headD "" = Text.trim isBlank (String.ofList (pieceOf chars)) ∧
      LineFields fields.tail (behindPiece chars) := by
  rcases isLine with rfl | ⟨rfl, rfl⟩
  · rcases split_pieces chars with ⟨split, behind⟩ | split
    · rw [split, behind]
      exact ⟨rfl, .inr ⟨rfl, rfl⟩⟩
    · rw [split]
      exact ⟨rfl, .inl rfl⟩
  · exact ⟨by decide, .inr ⟨rfl, rfl⟩⟩

theorem line_fields_line (line : String) : LineFields (lineFields line) line.toList := by
  have comma : "," = String.ofList [','] := rfl
  rw [LineFields, lineFields, comma, split_on_char, List.map_map]
  exact .inl rfl

theorem on_assign_line {store : Store} {targets : List Cell} {fields : List String} {chars : List Char}
    (isLine : LineFields fields chars)
    (typed : ∀ target ∈ targets, (store.ty target).IsScalar) (same : ∀ cell, machine.store.ty cell = store.ty cell) :
    (assignFields targets fields).on machine = (.ok (), { machine with
      store := machine.store.writeAll (targets.zip (targets.zipWith (fun target field =>
        fieldItem (store.ty target) field) (consoleFields targets.length chars))) }) := by
  induction targets generalizing fields chars machine with
  | nil => rfl
  | cons target targets ih =>
    obtain ⟨isScalar, others⟩ := List.forall_mem_cons.mp typed
    obtain ⟨first, further⟩ := line_fields_cons isLine
    have scalarHere : (machine.store.ty target).IsScalar := by rwa [same]
    have converted := convert_field_item scalarHere (fields.headD "")
    rw [same, first] at converted
    have assigned : (assign target (fieldValue machine.store target (fields.headD ""))).on machine =
        (.ok (), { machine with
          store := machine.store.write target
            (fieldItem (store.ty target) (Text.trim isBlank (String.ofList (pieceOf chars)))) }) := by
      rw [assign, on_seq (on_get machine), same, if_neg isScalar.not_null, first, converted]
      rfl
    rw [assignFields, on_seq (on_get machine), on_seq assigned]
    exact ih further others fun cell =>
      (Store.ty_write_scalar (field_item_scalar _ _) ((same target).trans (field_item_ty isScalar _).symm)
        cell).trans (same cell)

end Run

namespace OpenFile

section Alike

variable {chars piece content after : List Char}

/-- A piece that is empty, or starts with neither a quote nor a blank that only the console drops. -/
def Plain (piece : List Char) : Prop :=
  ∀ char ∈ (piece.dropWhile isFieldBlank).head?, char ≠ '"' ∧ isBlank char = false

def Quoted (piece : List Char) : Prop :=
  ∃ content blanks, piece.dropWhile isFieldBlank = '"' :: (content ++ '"' :: blanks) ∧ '"' ∉ content ∧
    ∀ char ∈ blanks, isBlank char = true

/-- The pieces of a line are fields as they stand: plain ones, and texts in quotes for texts. -/
def FieldsAlike : List Ty → List Char → Prop
  | [], _ => True
  | ty :: tys, chars =>
    (Plain (pieceOf chars) ∨ ty = .string ∧ Quoted (pieceOf chars)) ∧ FieldsAlike tys (behindPiece chars)

theorem blank_of_field_blank {char : Char} (blank : isFieldBlank char = true) : isBlank char = true := by
  simp only [isFieldBlank, Bool.or_eq_true, beq_iff_eq] at blank
  rcases blank with ((rfl | rfl) | rfl) | rfl <;> decide

theorem trim_eq (test : Char → Bool) (chars : List Char) :
    Text.trim test (String.ofList chars) = String.ofList (dropLast test (chars.dropWhile test)) := by
  rw [Text.trim, Text.trimStart, Text.trimEnd, String.toList_ofList, String.toList_ofList]
  rfl

theorem field_plain {first : Char} (noQuote : first ≠ '"') (rest : List Char) : field (first :: rest) =
    (dropLast isBlank ((first :: rest).takeWhile fun char => !isSeparator char),
      (first :: rest).dropWhile fun char => !isSeparator char) := by
  unfold field
  split
  · next quoted same =>
    cases same
    exact absurd rfl noQuote
  · rw [List.span_eq_takeWhile_dropWhile]

theorem field_quoted (content rest : List Char) (noQuote : '"' ∉ content) :
    field ('"' :: (content ++ '"' :: rest)) = (content, rest) := by
  have inside : ∀ char ∈ content, (char != '"') = true := fun char inside => by
    simpa using fun same : char = '"' => noQuote (same ▸ inside)
  rw [field, span_until inside (by decide)]
  rfl

theorem piece_split (chars : List Char) : chars = pieceOf chars ++ chars.dropWhile (· != ',') ∧
    (chars.dropWhile (· != ',') = [] ∨ chars.dropWhile (· != ',') = ',' :: behindPiece chars) := by
  refine ⟨List.takeWhile_append_dropWhile.symm, ?_⟩
  have stop := List.head?_dropWhile_not (· != ',') chars
  rw [behindPiece]
  cases behind : chars.dropWhile (· != ',') with
  | nil => exact .inl rfl
  | cons char rest =>
    rw [behind] at stop
    have isComma : char = ',' := by simpa using stop
    exact .inr (by rw [isComma]; rfl)

theorem piece_no_separator (noBreak : '\n' ∉ chars) :
    ∀ char ∈ pieceOf chars, (!isSeparator char) = true := by
  intro char inside
  have noComma : char ≠ ',' := by simpa using List.mem_takeWhile_imp inside
  have notBreak : char ≠ '\n' := fun same => noBreak (same ▸ (List.takeWhile_sublist _).mem inside)
  simp [isSeparator, notBreak, noComma]

theorem behind_blanks (chars : List Char) {blanks : List Char}
    (noSeparator : ∀ char ∈ blanks, (!isSeparator char) = true) :
    ((blanks ++ chars.dropWhile (· != ',')).dropWhile fun char => !isSeparator char).drop 1 = behindPiece chars := by
  rw [List.dropWhile_append_of_pos noSeparator]
  rcases (piece_split chars).2 with none | comma
  · rw [none, behindPiece, none]
    rfl
  · rw [comma]
    rfl

theorem take_piece (chars : List Char) : chars.dropWhile isFieldBlank =
    (pieceOf chars).dropWhile isFieldBlank ++ chars.dropWhile (· != ',') := by
  obtain ⟨split, behind⟩ := piece_split chars
  conv_lhs => rw [split, List.dropWhile_append]
  cases left : (pieceOf chars).dropWhile isFieldBlank with
  | nil =>
    rcases behind with none | comma
    · rw [none]
      rfl
    · rw [comma]
      rfl
  | cons first rest => rfl

theorem trim_piece (first : ∀ char ∈ (piece.dropWhile isFieldBlank).head?, isBlank char = false) :
    Text.trim isBlank (String.ofList piece) = String.ofList (dropLast isBlank (piece.dropWhile isFieldBlank)) := by
  have split := List.takeWhile_append_dropWhile (p := isFieldBlank) (l := piece)
  have blanks : ∀ char ∈ piece.takeWhile isFieldBlank, isBlank char = true :=
    fun char inside => blank_of_field_blank (List.mem_takeWhile_imp inside)
  have same : piece.dropWhile isBlank = piece.dropWhile isFieldBlank := by
    conv_lhs => rw [← split, List.dropWhile_append_of_pos blanks]
    cases left : piece.dropWhile isFieldBlank with
    | nil => rfl
    | cons char rest =>
      rw [left] at first
      rw [List.dropWhile_cons_of_neg (by simp [first char rfl])]
  rw [trim_eq, same]

theorem take_plain (noBreak : '\n' ∉ chars) (plain : Plain (pieceOf chars))
    (found : takeField chars = some (content, after)) :
    String.ofList content = Text.trim isBlank (String.ofList (pieceOf chars)) ∧ after = behindPiece chars := by
  have noSeparator : ∀ char ∈ (pieceOf chars).dropWhile isFieldBlank, (!isSeparator char) = true :=
    fun char inside => piece_no_separator noBreak char ((List.dropWhile_sublist _).mem inside)
  rw [trim_piece fun char inside => (plain char inside).2]
  rw [Plain] at plain
  rw [takeField, take_piece] at found
  generalize (pieceOf chars).dropWhile isFieldBlank = text at *
  have behind := behind_blanks chars noSeparator
  -- Without text in front of the comma only the comma is left to be taken.
  cases text with
  | nil =>
    rcases (piece_split chars).2 with none | comma
    · rw [none] at found
      cases found
    · rw [comma] at found
      obtain ⟨rfl, rfl⟩ := Prod.mk.inj (Option.some.inj found)
      rw [List.nil_append, field_plain (by decide : ',' ≠ '"')]
      exact ⟨rfl, rfl⟩
  | cons first rest =>
    have taken : ((first :: rest) ++ chars.dropWhile (· != ',')).takeWhile (fun char => !isSeparator char) =
        first :: rest := by
      rw [List.takeWhile_append_of_pos noSeparator]
      rcases (piece_split chars).2 with none | comma
      · rw [none, List.takeWhile_nil, List.append_nil]
      · rw [comma, List.takeWhile_cons_of_neg (by decide), List.append_nil]
    obtain ⟨rfl, rfl⟩ := Prod.mk.inj (Option.some.inj found)
    rw [List.cons_append] at taken behind ⊢
    rw [field_plain (plain first rfl).1, taken, List.dropWhile_idempotent]
    exact ⟨rfl, behind⟩

theorem trim_quotes (noQuote : '"' ∉ content) :
    Text.trim (· == '"') (String.ofList ('"' :: (content ++ ['"']))) = String.ofList content := by
  cases content with
  | nil => decide
  | cons first rest =>
    have notQuote : ∀ char ∈ first :: rest, (char == '"') = false :=
      fun char inside => beq_false_of_ne fun same => noQuote (same ▸ inside)
    have kept := drop_last_none notQuote
    have dropped : dropLast (· == '"') (first :: (rest ++ ['"'])) = dropLast (· == '"') (first :: rest) := by
      simp [dropLast]
    rw [trim_eq, List.dropWhile_cons_of_pos (by decide), List.cons_append,
      List.dropWhile_cons_of_neg (by simp [notQuote first List.mem_cons_self]), dropped, kept]

theorem take_quoted (noBreak : '\n' ∉ chars) (quoted : Quoted (pieceOf chars))
    (found : takeField chars = some (content, after)) :
    Text.trim (· == '"') (String.ofList content) =
        Text.trim (· == '"') (Text.trim isBlank (String.ofList (pieceOf chars))) ∧ after = behindPiece chars := by
  obtain ⟨inner, blanks, text, noQuote, allBlank⟩ := quoted
  have noSeparator : ∀ char ∈ blanks, (!isSeparator char) = true := fun char inside =>
    piece_no_separator noBreak char ((List.dropWhile_sublist _).mem (by rw [text]; simp [inside]))
  have first : ∀ char ∈ ((pieceOf chars).dropWhile isFieldBlank).head?, isBlank char = false := by
    rw [text]
    rintro _ ⟨⟩
    decide
  have trimmed : dropLast isBlank ('"' :: (inner ++ '"' :: blanks)) = '"' :: (inner ++ ['"']) := by
    have dropped : blanks.reverse.dropWhile isBlank = [] := by simpa using allBlank
    have quote : isBlank '"' = false := by decide
    simp [dropLast, List.dropWhile_append, dropped, quote]
  rw [trim_piece first, text, trimmed]
  rw [takeField, take_piece, text] at found
  have isField : field ('"' :: (inner ++ '"' :: blanks) ++ chars.dropWhile (· != ',')) =
      (inner, blanks ++ chars.dropWhile (· != ',')) := by
    rw [List.cons_append, List.append_assoc, List.cons_append]
    exact field_quoted inner _ noQuote
  obtain ⟨rfl, rfl⟩ := Prod.mk.inj (Option.some.inj found)
  rw [isField]
  refine ⟨?_, behind_blanks chars noSeparator⟩
  rw [trim_quotes noQuote]
  exact trim_none (by rwa [String.toList_ofList])

theorem fields_alike {tys : List Ty} {fields : List String} (noBreak : '\n' ∉ chars) (alike : FieldsAlike tys chars)
    (found : takeFields tys.length chars = some (fields, after)) :
    tys.zipWith Run.fieldItem fields = tys.zipWith Run.fieldItem (Run.consoleFields tys.length chars) := by
  induction tys generalizing chars fields with
  | nil => rfl
  | cons ty tys ih =>
    obtain ⟨first, further⟩ := alike
    rw [List.length_cons, takeFields] at found
    obtain ⟨⟨content, behind⟩, taken, found⟩ := Option.bind_eq_some_iff.mp found
    obtain ⟨⟨others, last⟩, rest, same⟩ := Option.map_eq_some_iff.mp found
    obtain ⟨rfl, rfl⟩ := Prod.mk.inj same
    have item : Run.fieldItem ty (String.ofList content) =
        Run.fieldItem ty (Text.trim isBlank (String.ofList (pieceOf chars))) ∧ behind = behindPiece chars := by
      rcases first with plain | ⟨rfl, quoted⟩
      · obtain ⟨same, isBehind⟩ := take_plain noBreak plain taken
        exact ⟨congrArg _ same, isBehind⟩
      · obtain ⟨same, isBehind⟩ := take_quoted noBreak quoted taken
        exact ⟨congrArg Value.string same, isBehind⟩
    obtain ⟨sameItem, rfl⟩ := item
    have noFurther : '\n' ∉ behindPiece chars := fun inside =>
      noBreak ((List.dropWhile_sublist _).mem (List.mem_of_mem_drop inside))
    rw [List.length_cons, Run.consoleFields, List.zipWith_cons_cons, List.zipWith_cons_cons, sameItem,
      ih noFurther further rest]

end Alike

end OpenFile

namespace Run

variable {σ : Type} {machine waiting : Machine σ} {targets : List Cell}

def askFields (devices : Devices σ) (prompt : String) (targets : List Cell) : Run σ Unit := do
  pushText prompt
  targets.forM pushReference
  pushCount targets.length
  builtin devices .input

theorem print_keeps_store {machine after : Machine σ} {devices : Devices σ} {text : String}
    (printed : (print devices text).on machine = (.ok (), after)) : after.store = machine.store := by
  have prints := on_print machine devices text
  rw [Meets, printed] at prints
  change machine.Prints devices machine.output after text at prints
  cases selected : machine.output with
  | none =>
    rw [selected, Machine.Prints] at prints
    rw [prints]
  | some number =>
    rw [selected, Machine.Prints] at prints
    rcases prints with ⟨_, _, _, same⟩ | ⟨_, same⟩ <;> rw [same]

theorem asked_fields {devices : Devices σ} {prompt : String} (few : targets.length ≤ 32767)
    (asked : (askFields devices prompt targets).on machine = (.ok (), waiting)) :
    waiting.pending = some ⟨.readLine, .input targets⟩ ∧ waiting.store = machine.store := by
  have popped : (popText : Run σ String).on { machine with stack := .value (.string prompt) :: machine.stack } =
      (.ok prompt, machine) := by
    rw [popText, on_seq (on_pop_value rfl)]
    rfl
  rw [askFields, pushText, on_seq (on_push _ _), on_seq (on_push_references _), pushCount, on_seq (on_push_integer _),
    builtin, input, on_seq (on_pop_pushed_targets few rfl), on_seq popped, on_bind] at asked
  cases printed : (print devices prompt).on machine with
  | mk result between =>
    rw [printed] at asked
    cases result with
    | error error => cases asked
    | ok _ =>
      have kept := print_keeps_store printed
      change (suspend .readLine (.input targets)).on between = (.ok (), waiting) at asked
      cases isPending : between.pending with
      | some other =>
        rw [suspend, on_seq (on_get between), if_pos (by simp [isPending])] at asked
        cases asked
      | none =>
        obtain ⟨notices, suspended⟩ := on_suspend isPending .readLine (.input targets)
        rw [suspended] at asked
        cases asked
        exact ⟨rfl, kept⟩

theorem on_answer_line {line : String} (waits : waiting.pending = some ⟨.readLine, .input targets⟩)
    (typed : ∀ target ∈ targets, (waiting.store.ty target).IsScalar) :
    ∃ last, (resume (.ok (.text line))).on waiting = (.ok (), last) ∧
      last.store = waiting.store.writeAll (targets.zip (targets.zipWith (fun target field =>
        fieldItem (waiting.store.ty target) field) (consoleFields targets.length line.toList))) := by
  have assigned := @on_assign_line σ { waiting with pending := none, status := 0 } waiting.store targets
    (lineFields line) line.toList (line_fields_line line) typed fun _ => rfl
  have answered : (answer (.input targets) (.ok (.text line))).on { waiting with pending := none } =
      (.ok (), { waiting with
        pending := none
        status := 0
        store := waiting.store.writeAll (targets.zip (targets.zipWith (fun target field =>
          fieldItem (waiting.store.ty target) field) (consoleFields targets.length line.toList))) }) := by
    rw [answer, setStatus, on_seq (on_modify _ _), complete, completeText, assigned]
  rw [on_resume_waiting waits, answered]
  refine ⟨_, rfl, ?_⟩
  obtain ⟨notices, same⟩ := Machine.set_phase_only _ .running
  rw [same]

end Run

/-- `INPUT` of a line stores what `INPUT #` of a file with that line alone stores, wherever the pieces of the line
between its commas are fields as they stand. -/
theorem input_splits_alike {σ : Type} (devices : Devices σ) {machine waiting after : Machine σ} {number : Int}
    {path line prompt : String} {targets : List Cell} (least : 1 ≤ number) (most : number ≤ 255)
    (isOpen : machine.files.get? number = some (.input path line)) (noBreak : '\n' ∉ line.toList)
    (few : targets.length ≤ 32767) (typed : ∀ target ∈ targets, (machine.store.ty target).IsScalar)
    (filled : (Run.inputFields devices number targets).on machine = (.ok (), after))
    (asked : (Run.askFields devices prompt targets).on machine = (.ok (), waiting))
    (alike : OpenFile.FieldsAlike (targets.map machine.store.ty) line.toList) :
    ∃ last, (Run.resume (.ok (.text line))).on waiting = (.ok (), last) ∧ last.store = after.store := by
  have rest : (OpenFile.input path line).rest = line.toList := OpenFile.rest_input path line
  obtain ⟨waits, kept⟩ := Run.asked_fields few asked
  obtain ⟨last, answered, stored⟩ := @Run.on_answer_line σ waiting targets line waits (by rwa [kept])
  refine ⟨last, answered, ?_⟩
  cases found : OpenFile.takeFields targets.length line.toList with
  | none =>
    obtain ⟨files, missed⟩ := Run.on_input_fields_missing devices least most few isOpen rfl (by rw [rest, found])
    rw [filled] at missed
    cases missed
  | some taken =>
    obtain ⟨fields, behind⟩ := taken
    obtain ⟨files, final, read, -⟩ :=
      Run.on_input_fields devices least most few isOpen rfl (by rw [rest, found]) typed
    rw [filled] at read
    cases read
    have items := OpenFile.fields_alike noBreak alike (by rw [List.length_map]; exact found)
    rw [List.zipWith_map_left, List.zipWith_map_left, List.length_map] at items
    rw [stored, kept, items]

theorem quoted_text_and_number_alike : ∃ after waiting last,
    (Run.inputFields Bench.bare 1 [0, 1]).on (sampleReader "\"a b\" , 7") = (.ok (), after) ∧
      (Run.askFields Bench.bare "? " [0, 1]).on (sampleReader "\"a b\" , 7") = (.ok (), waiting) ∧
      (Run.resume (.ok (.text "\"a b\" , 7"))).on waiting = (.ok (), last) ∧ last.store = after.store := by
  have isOpen : (sampleReader "\"a b\" , 7").files.get? 1 = some (.input "f" "\"a b\" , 7") := rfl
  have typed : ∀ target ∈ [0, 1], ((sampleReader "\"a b\" , 7").store.ty target).IsScalar :=
    List.forall_mem_cons.mpr ⟨.inr rfl, List.forall_mem_cons.mpr ⟨.inl rfl, List.forall_mem_nil _⟩⟩
  have found : OpenFile.takeFields [0, 1].length (OpenFile.input "f" "\"a b\" , 7").rest =
      some (["a b", "7"], []) := by decide
  obtain ⟨files, -, filled, -⟩ :=
    Run.on_input_fields Bench.bare (by decide) (by decide) (by decide) isOpen rfl found typed
  obtain ⟨waiting, asked⟩ : ∃ waiting,
      (Run.askFields Bench.bare "? " [0, 1]).on (sampleReader "\"a b\" , 7") = (.ok (), waiting) := ⟨_, rfl⟩
  have first : pieceOf "\"a b\" , 7".toList = ['"', 'a', ' ', 'b', '"', ' '] := by decide
  have second : pieceOf (behindPiece "\"a b\" , 7".toList) = [' ', '7'] := by decide
  have quoted : OpenFile.Quoted (pieceOf "\"a b\" , 7".toList) := by
    rw [first]
    exact ⟨['a', ' ', 'b'], [' '], rfl, by simp, List.forall_mem_singleton.mpr (by decide)⟩
  have plain : OpenFile.Plain (pieceOf (behindPiece "\"a b\" , 7".toList)) := by
    rw [second]
    rintro _ ⟨⟩
    decide
  obtain ⟨last, answered, same⟩ := input_splits_alike Bench.bare (by decide) (by decide) isOpen (by decide) (by decide)
    typed filled asked ⟨.inr ⟨rfl, quoted⟩, .inl plain, trivial⟩
  exact ⟨_, waiting, last, filled, asked, answered, same⟩

/-- A comma in quotes is part of the field of a file, and ends the field of a line from the console. -/
theorem quoted_comma_splits : ∃ after waiting last,
    (Run.inputFields Bench.bare 1 [0]).on (sampleReader "\"a,b\"") = (.ok (), after) ∧
      (∃ file, after.files.get? 1 = some file ∧ file.rest = []) ∧
      (Run.askFields Bench.bare "? " [0]).on (sampleReader "\"a,b\"") = (.ok (), waiting) ∧
      (Run.resume (.ok (.text "\"a,b\""))).on waiting = (.ok (), last) ∧
      after.store.read 0 = .string "a,b" ∧ last.store.read 0 = .string "a" := by
  have isOpen : (sampleReader "\"a,b\"").files.get? 1 = some (.input "f" "\"a,b\"") := rfl
  have typed : ∀ target ∈ [0], ((sampleReader "\"a,b\"").store.ty target).IsScalar :=
    List.forall_mem_cons.mpr ⟨.inr rfl, List.forall_mem_nil _⟩
  have found : OpenFile.takeFields [0].length (OpenFile.input "f" "\"a,b\"").rest = some (["a,b"], []) := by decide
  obtain ⟨files, file, filled, stillOpen, -, atEnd⟩ :=
    Run.on_input_fields Bench.bare (by decide) (by decide) (by decide) isOpen rfl found typed
  obtain ⟨waiting, asked⟩ : ∃ waiting,
      (Run.askFields Bench.bare "? " [0]).on (sampleReader "\"a,b\"") = (.ok (), waiting) := ⟨_, rfl⟩
  obtain ⟨waits, kept⟩ := Run.asked_fields (by decide) asked
  obtain ⟨last, answered, stored⟩ := @Run.on_answer_line _ waiting [0] "\"a,b\"" waits (by rwa [kept])
  refine ⟨_, waiting, last, filled, ⟨file, stillOpen, atEnd⟩, asked, answered, ?_, ?_⟩
  · exact (Store.read_eq _ _).trans (congrArg Value.string (by decide))
  · rw [stored, kept]
    exact (Store.read_eq _ _).trans (congrArg Value.string (by decide))

end BasicLang
