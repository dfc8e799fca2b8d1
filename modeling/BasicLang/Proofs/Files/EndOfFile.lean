import BasicLang.Proofs.Action.Invariant
import BasicLang.Proofs.Files.Reading
import BasicLang.Device.Bench

set_option autoImplicit false

namespace BasicLang

namespace OpenFile

variable {chars : List Char}

theorem forall_mem_line {holds : Char → Prop} (breaks : holds '\n') : (∀ char ∈ chars, holds char) ↔
    (∀ char ∈ chars.takeWhile (· != '\n'), holds char) ∧ ∀ char ∈ behindLine chars, holds char := by
  have split := List.takeWhile_append_dropWhile (p := (· != '\n')) (l := chars)
  have stop := List.head?_dropWhile_not (· != '\n') chars
  rw [behindLine]
  generalize chars.dropWhile (· != '\n') = behind at split stop
  rw [← split, List.forall_mem_append, split]
  cases behind with
  | nil => simp
  | cons char behind =>
    have isBreak : char = '\n' := by simpa using stop
    rw [List.forall_mem_cons, isBreak]
    exact and_congr_right fun _ => and_iff_right breaks

theorem line_empty_iff : lineOf chars = "" ↔ ∀ char ∈ chars.takeWhile (· != '\n'), char = '\r' := by
  have empty : lineOf chars = "" ↔ (chars.takeWhile (· != '\n')).rdropWhile (· == '\r') = [] :=
    String.ofList_eq_empty_iff
  rw [empty, List.rdropWhile_eq_nil_iff]
  simp

theorem lines_empty_iff (chars : List Char) :
    (∀ line ∈ linesOf chars, line = "") ↔ ∀ char ∈ chars, char = '\r' ∨ char = '\n' := by
  induction chars using linesOf.induct with
  | case1 => simp [linesOf]
  | case2 first rest ih =>
    rw [linesOf, List.forall_mem_cons, ih, line_empty_iff,
      @forall_mem_line (first :: rest) (fun char => char = '\r' ∨ char = '\n') (Or.inr rfl)]
    refine and_congr_left fun _ => forall₂_congr fun char inside => ?_
    have noBreak : char ≠ '\n' := by simpa using List.mem_takeWhile_imp inside
    exact (or_iff_left noBreak).symm

theorem at_end_iff (file : OpenFile) : file.isAtEnd = true ↔ ∀ line ∈ linesOf file.rest, line = "" := by
  rw [lines_empty_iff, is_at_end_eq, List.all_eq_true]
  simp

theorem rdrop_cons {first : String} {rest : List String} {test : String → Bool}
    (kept : ∃ line ∈ first :: rest, test line = false) :
    (first :: rest).rdropWhile test = first :: rest.rdropWhile test := by
  rw [List.rdropWhile, List.rdropWhile, List.reverse_cons, List.dropWhile_append]
  by_cases dropped : rest.reverse.dropWhile test = []
  · have allDropped : ∀ line ∈ rest, test line = true := by simpa using List.dropWhile_eq_nil_iff.mp dropped
    have firstKept : test first = false := by
      obtain ⟨line, inside, fails⟩ := kept
      rcases List.mem_cons.mp inside with rfl | inside
      · exact fails
      · rw [allDropped line inside] at fails
        cases fails
    simp [dropped, firstKept]
  · simp [dropped]

theorem read_lines_cons (more : chars ≠ []) (kept : ∃ line ∈ linesOf chars, line ≠ "") :
    (linesOf chars).rdropWhile (· == "") = lineOf chars :: (linesOf (behindLine chars)).rdropWhile (· == "") := by
  rw [lines_cons more] at kept ⊢
  exact rdrop_cons (by simpa using kept)

end OpenFile

namespace Run

variable {σ : Type} (devices : Devices σ) (number : Int)

/-- What can happen between opening a file and reading from it: other reading, and whatever leaves the file alone. -/
inductive Reading : Machine σ → Machine σ → Prop
  | opened (machine : Machine σ) : Reading machine machine
  | fields {start machine after : Machine σ} {result : Except RuntimeError Unit} (targets : List Cell)
      (earlier : Reading start machine) (ran : (inputFields devices number targets).on machine = (result, after)) :
      Reading start after
  | line {start machine after : Machine σ} {result : Except RuntimeError Unit} (target : Cell)
      (earlier : Reading start machine) (ran : (inputLine devices number target).on machine = (result, after)) :
      Reading start after
  | aside {start machine after : Machine σ} (earlier : Reading start machine)
      (same : after.files.get? number = machine.files.get? number) : Reading start after

inductive ReadsLines (target : Cell) : Machine σ → List String → Machine σ → Prop
  | done {machine : Machine σ} (atEnd : (askEnd devices number).on machine =
      (.ok (), { machine with stack := .value (.ofBool true) :: machine.stack })) : ReadsLines target machine [] machine
  | line {machine between last : Machine σ} {line : String} {lines : List String}
      (more : (askEnd devices number).on machine =
        (.ok (), { machine with stack := .value (.ofBool false) :: machine.stack }))
      (ran : (inputLine devices number target).on machine = (.ok (), between))
      (found : between.store.read target = .string line) (rest : ReadsLines target between lines last) :
      ReadsLines target machine (line :: lines) last

/-- Where `EOF` is false a field can be read, and where it is true no line can. -/
def EndTold (field line : Cell) (machine : Machine σ) : Prop :=
  ((askEnd devices number).on machine = (.ok (), { machine with stack := .value (.ofBool false) :: machine.stack }) →
    ∃ after, (inputFields devices number [field]).on machine = (.ok (), after)) ∧
  ((askEnd devices number).on machine = (.ok (), { machine with stack := .value (.ofBool true) :: machine.stack }) →
    ∃ error after, (inputLine devices number line).on machine = (.error error, after) ∧ error.code = 62)

def HoldsText (text : String) (machine : Machine σ) : Prop :=
  ∃ file, machine.files.get? number = some file ∧ file.isInput = true ∧ file.text = text

variable {devices number}

section Reading

variable {text : String}

theorem preserved_text : Preserved (fun machine : Machine σ => HoldsText number text machine) fun _ => True where
  pop _ _ _ held _ := held
  reference _ _ _ _ _ := trivial
  push _ _ held := held
  write _ _ _ held _ _ := held
  around _ _ _ _ _ _ held := held

theorem holds_found (other : Int) : Maintains (fun machine : Machine σ => HoldsText number text machine) (inputFile other)
    fun file => other = number → file.isInput = true ∧ file.text = text := by
  rintro machine ⟨file, isOpen, isInput, isText⟩
  have held : HoldsText number text machine := ⟨file, isOpen, isInput, isText⟩
  rw [Meets, inputFile, on_seq (on_get machine)]
  cases found : machine.files.get? other with
  | none => exact held
  | some other =>
    dsimp only
    by_cases reads : other.isInput = true
    · rw [if_pos reads]
      refine ⟨held, ?_⟩
      rintro rfl
      cases isOpen.symm.trans found
      exact ⟨isInput, isText⟩
    · rw [if_neg reads]
      exact held

theorem holds_set {other : Int} {file : OpenFile} (same : other = number → file.isInput = true ∧ file.text = text) :
    Maintains (fun machine : Machine σ => HoldsText number text machine) (setFile other file) fun _ => True := by
  refine maintains_modify fun machine held => ?_
  by_cases isNumber : other = number
  · subst isNumber
    exact ⟨file, FileTable.get_set _ _ _, same rfl⟩
  · obtain ⟨found, isOpen, rest⟩ := held
    exact ⟨found, (FileTable.get_set_other _ _ (Ne.symm isNumber)).trans isOpen, rest⟩

theorem holds_read_fields (other : Int) (targets : List Cell) :
    Maintains (fun machine : Machine σ => HoldsText number text machine) (readFields other targets) fun _ => True := by
  induction targets with
  | nil => exact maintains_value _
  | cons target rest ih =>
    refine maintains_seq (holds_found other) fun file isFile => ?_
    obtain ⟨after, behind⟩ := file.read_field_file
    generalize file.readField = field at behind
    refine maintains_seq (holds_set fun same => behind ▸ isFile same) fun _ _ => ?_
    cases field.1 with
    | none => exact maintains_fail _
    | some text => exact maintains_seq maintains_get fun _ _ => maintains_seq ih fun _ _ => maintains_value _

theorem holds_input_fields (targets : List Cell) :
    Maintains (fun machine : Machine σ => HoldsText number text machine) (inputFields devices number targets)
      fun _ => True := by
  have pushed : Maintains (fun machine : Machine σ => HoldsText number text machine) (targets.forM pushReference)
      fun _ => True := by
    intro machine held
    rw [Meets, on_push_references]
    exact ⟨held, trivial⟩
  refine maintains_seq (maintains_push preserved_text _) fun _ _ => maintains_seq pushed fun _ _ => ?_
  refine maintains_seq (maintains_push preserved_text _) fun _ _ => ?_
  refine maintains_seq (maintains_pop_targets preserved_text) fun found _ => ?_
  refine maintains_seq (maintains_file_number preserved_text) fun other _ => ?_
  refine maintains_seq (maintains_input_file other) fun _ _ => ?_
  refine maintains_seq (holds_read_fields other found) fun values _ => ?_
  exact maintains_assign_all preserved_text _ fun _ _ => trivial

theorem holds_input_line (target : Cell) :
    Maintains (fun machine : Machine σ => HoldsText number text machine) (inputLine devices number target)
      fun _ => True := by
  refine maintains_seq (maintains_push preserved_text _) fun _ _ => ?_
  refine maintains_seq (maintains_modify fun _ held => held) fun _ _ => ?_
  refine maintains_seq (maintains_pop_reference preserved_text) fun found _ => ?_
  refine maintains_seq (maintains_file_number preserved_text) fun other _ => ?_
  refine maintains_seq (holds_found other) fun file isFile => ?_
  have behind : other = number → file.readLine.2.isInput = true ∧ file.readLine.2.text = text := by
    rcases file.read_line_file with same | ⟨after, same⟩
    · rwa [same]
    · rwa [same]
  generalize file.readLine = line at behind
  refine maintains_seq (holds_set behind) fun _ _ => ?_
  cases line.1 with
  | none => exact maintains_fail _
  | some text => exact maintains_assign preserved_text trivial _

theorem holds_after {action : Run σ Unit} {machine after : Machine σ} {result : Except RuntimeError Unit}
    (maintains : Maintains (fun machine : Machine σ => HoldsText number text machine) action fun _ => True)
    (held : HoldsText number text machine) (ran : action.on machine = (result, after)) :
    HoldsText number text after := by
  have kept := maintains machine held
  rw [Meets, ran] at kept
  cases result with
  | ok _ => exact kept.1
  | error _ => exact kept

theorem Reading.holds {start machine : Machine σ} (reading : Reading devices number start machine)
    (opened : HoldsText number text start) : HoldsText number text machine := by
  induction reading with
  | opened => exact opened
  | fields targets _ ran ih => exact holds_after (holds_input_fields targets) ih ran
  | line target _ ran ih => exact holds_after (holds_input_line target) ih ran
  | aside _ same ih =>
    obtain ⟨file, isOpen, rest⟩ := ih
    exact ⟨file, same.trans isOpen, rest⟩

end Reading

section Loop

variable {machine : Machine σ} {target : Cell} {file : OpenFile}

theorem reads_lines (least : 1 ≤ number) (most : number ≤ 255) (isOpen : machine.files.get? number = some file)
    (isInput : file.isInput = true) (isText : machine.store.ty target = .string) :
    ∃ last, ReadsLines devices number target machine ((OpenFile.linesOf file.rest).rdropWhile (· == "")) last := by
  -- The induction is on the lines that are left. Trailing empty lines are never reached, as the loop asks `EOF` first.
  generalize left : file.rest = chars
  induction chars using OpenFile.linesOf.induct generalizing machine file with
  | case1 =>
    have atEnd : file.isAtEnd = true := by rw [OpenFile.is_at_end_eq, left]; rfl
    have asked := on_ask_end devices least most isOpen isInput
    rw [atEnd] at asked
    rw [OpenFile.linesOf]
    exact ⟨machine, .done asked⟩
  | case2 first rest ih =>
    have asked := on_ask_end devices least most isOpen isInput
    cases atEnd : file.isAtEnd with
    | true =>
      rw [atEnd] at asked
      have empty := (OpenFile.at_end_iff file).mp atEnd
      rw [left] at empty
      have none : (OpenFile.linesOf (first :: rest)).rdropWhile (· == "") = [] := by
        rw [List.rdropWhile_eq_nil_iff]
        simpa using empty
      rw [none]
      exact ⟨machine, .done asked⟩
    | false =>
      rw [atEnd] at asked
      have more : file.rest ≠ [] := by rw [left]; exact List.cons_ne_nil _ _
      have kept : ∃ line ∈ OpenFile.linesOf (first :: rest), line ≠ "" := by
        rw [← left]
        by_contra none
        have empty : file.isAtEnd = true := (OpenFile.at_end_iff file).mpr (by simpa using none)
        rw [atEnd] at empty
        cases empty
      have ran := on_input_line devices least most isOpen isInput isText more
      have behind : (file.advance (OpenFile.behindLine file.rest)).rest = OpenFile.behindLine (first :: rest) := by
        rw [OpenFile.rest_advance (OpenFile.behind_line_suffix _), left]
      have below : target < machine.store.size := Store.below_of_ty (by rw [isText]; decide)
      have stillText : (machine.store.write target (.string (OpenFile.lineOf file.rest))).ty target = .string :=
        (Store.ty_write_scalar rfl isText target).trans isText
      have stored : (machine.store.write target (.string (OpenFile.lineOf file.rest))).read target =
          .string (OpenFile.lineOf file.rest) := by
        rw [Store.write_scalar rfl, Store.read_put_same below]
      obtain ⟨last, further⟩ := @ih { machine with
          files := machine.files.set number (file.advance (OpenFile.behindLine file.rest))
          store := machine.store.write target (.string (OpenFile.lineOf file.rest)) } _
        (FileTable.get_set _ _ _) isInput stillText behind
      rw [OpenFile.read_lines_cons (List.cons_ne_nil _ _) kept, ← left]
      rw [← left] at further
      exact ⟨last, .line asked ran stored further⟩

theorem field_read_iff (least : 1 ≤ number) (most : number ≤ 255) (isOpen : machine.files.get? number = some file)
    (isInput : file.isInput = true) {field : Cell} (typed : (machine.store.ty field).IsScalar) :
    (∃ after, (inputFields devices number [field]).on machine = (.ok (), after)) ↔
      ∃ char ∈ file.rest, OpenFile.isFieldBlank char = false := by
  have one : [field].length ≤ 32767 := by simp
  cases taken : OpenFile.takeField file.rest with
  | none =>
    have missing : OpenFile.takeFields [field].length file.rest = none := by
      rw [List.length_singleton, OpenFile.takeFields, taken]
      rfl
    obtain ⟨files, failed⟩ := on_input_fields_missing devices least most one isOpen isInput missing
    have allBlank := OpenFile.take_field_none_iff.mp taken
    rw [failed]
    simpa using allBlank
  | some found =>
    have fields : OpenFile.takeFields [field].length file.rest = some ([String.ofList found.1], found.2) := by
      rw [List.length_singleton, OpenFile.takeFields, taken]
      rfl
    obtain ⟨files, last, ran, -⟩ := on_input_fields devices least most one isOpen isInput fields
      (by simpa using typed)
    have notBlank : ¬∀ char ∈ file.rest, OpenFile.isFieldBlank char = true := by
      rw [← OpenFile.take_field_none_iff, taken]
      exact Option.some_ne_none _
    refine iff_of_true ⟨_, ran⟩ ?_
    simpa using notBlank

theorem line_missing_iff (least : 1 ≤ number) (most : number ≤ 255) (isOpen : machine.files.get? number = some file)
    (isInput : file.isInput = true) {line : Cell} (isText : machine.store.ty line = .string) :
    (∃ error after, (inputLine devices number line).on machine = (.error error, after) ∧ error.code = 62) ↔
      file.rest = [] := by
  by_cases nothing : file.rest = []
  · exact iff_of_true ⟨_, _, on_input_line_missing devices least most isOpen isInput nothing, rfl⟩ nothing
  · rw [on_input_line devices least most isOpen isInput isText nothing]
    simp [nothing]

theorem told_iff {told : Bool} (asked : (askEnd devices number).on machine =
      (.ok (), { machine with stack := .value (.ofBool told) :: machine.stack })) (other : Bool) :
    (askEnd devices number).on machine = (.ok (), { machine with stack := .value (.ofBool other) :: machine.stack }) ↔
      told = other := by
  rw [asked]
  cases told <;> cases other <;> simp [Value.ofBool]

theorem end_told_iff (least : 1 ≤ number) (most : number ≤ 255) (isOpen : machine.files.get? number = some file)
    (isInput : file.isInput = true) {field line : Cell} (fieldTyped : (machine.store.ty field).IsScalar)
    (isText : machine.store.ty line = .string) : EndTold devices number field line machine ↔
      file.rest = [] ∨ ∃ char ∈ file.rest, OpenFile.isFieldBlank char = false := by
  have told := told_iff (on_ask_end devices least most isOpen isInput)
  rw [EndTold, told, told, field_read_iff least most isOpen isInput fieldTyped,
    line_missing_iff least most isOpen isInput isText]
  have atEnd (nothing : file.rest = []) : file.isAtEnd = true := by rw [OpenFile.is_at_end_eq, nothing]; rfl
  have notAtEnd : (∃ char ∈ file.rest, OpenFile.isFieldBlank char = false) → file.isAtEnd = false := by
    rintro ⟨char, inside, notBlank⟩
    simp only [OpenFile.isFieldBlank, Bool.or_eq_false_iff] at notBlank
    exact file.is_at_end_eq.trans (List.all_eq_false.mpr ⟨char, inside, by simp [notBlank]⟩)
  cases isEnd : file.isAtEnd with
  | true =>
    have noField : ¬∃ char ∈ file.rest, OpenFile.isFieldBlank char = false :=
      fun some => Bool.noConfusion (isEnd.symm.trans (notAtEnd some))
    simp [noField]
  | false =>
    have more : file.rest ≠ [] := fun nothing => Bool.noConfusion (isEnd.symm.trans (atEnd nothing))
    simp [more]

theorem ReadsLines.same {last final : Machine σ} {lines others : List String}
    (reads : ReadsLines devices number target machine lines last)
    (again : ReadsLines devices number target machine others final) : lines = others := by
  induction reads generalizing others with
  | done atEnd =>
    cases again with
    | done => rfl
    | line more => exact Bool.noConfusion ((told_iff atEnd false).mp more)
  | line more ran found rest ih =>
    cases again with
    | done atEnd => exact Bool.noConfusion ((told_iff atEnd false).mp more)
    | line _ ranAgain foundAgain further =>
      cases ran.symm.trans ranAgain
      cases found.symm.trans foundAgain
      exact congrArg _ (ih further)

end Loop

end Run

/-- Wherever a file was read to, `EOF` is right about the next field and the next line if nothing is left, or something
besides blank characters. A loop that reads lines until `EOF` is true reads all that are left but the empty ones at the
end. -/
theorem end_of_file_told_iff {σ : Type} (devices : Devices σ) (number : Int) (least : 1 ≤ number)
    (most : number ≤ 255) {path text : String} {start machine : Machine σ}
    (opened : start.files.get? number = some (.input path text)) (reading : Run.Reading devices number start machine)
    {field line : Cell} (fieldTyped : (machine.store.ty field).IsScalar) (isText : machine.store.ty line = .string) :
    ∃ file, machine.files.get? number = some file ∧ file.text = text ∧
      (Run.EndTold devices number field line machine ↔
        file.rest = [] ∨ ∃ char ∈ file.rest, OpenFile.isFieldBlank char = false) ∧
      ∃ lines last, Run.ReadsLines devices number line machine lines last ∧
        lines = (OpenFile.linesOf file.rest).rdropWhile (· == "") ∧
        (lines = OpenFile.linesOf file.rest ↔ (OpenFile.linesOf file.rest).getLast? ≠ some "") ∧
        ∀ others final, Run.ReadsLines devices number line machine others final → others = lines := by
  obtain ⟨file, isOpen, isInput, same⟩ := reading.holds ⟨_, opened, rfl, rfl⟩
  obtain ⟨last, reads⟩ := Run.reads_lines least most isOpen isInput isText
  refine ⟨file, isOpen, same, Run.end_told_iff least most isOpen isInput fieldTyped isText, _, last, reads, rfl, ?_,
    fun others final again => again.same reads⟩
  rw [List.rdropWhile_eq_self_iff]
  rcases (OpenFile.linesOf file.rest).eq_nil_or_concat with none | ⟨lines, final, last⟩
  · simp [none]
  · simp [last]

def sampleReader (text : String) : Machine Bench :=
  { Machine.create Bench.empty with
    phase := .running, files := [(1, .input "f" text)]
    store := (Store.empty.push (.plain (.string ""))).push (.plain (.integer 0)) }

theorem inner_line_break_read : Run.EndTold Bench.bare 1 1 0 (sampleReader "a\n\nb\n") ∧
    ∃ last, Run.ReadsLines Bench.bare 1 0 (sampleReader "a\n\nb\n") ["a", "", "b"] last := by
  obtain ⟨file, isOpen, -, told, lines, last, reads, kept, -⟩ :=
    end_of_file_told_iff Bench.bare 1 (by decide) (by decide) rfl (.opened (sampleReader "a\n\nb\n"))
      (.inl rfl : ((sampleReader "a\n\nb\n").store.ty 1).IsScalar)
      (rfl : (sampleReader "a\n\nb\n").store.ty 0 = .string)
  cases isOpen
  have rest : (OpenFile.input "f" "a\n\nb\n").rest = ['a', '\n', '\n', 'b', '\n'] := by decide
  have isLines : lines = ["a", "", "b"] := by
    rw [kept, rest]
    simp [OpenFile.linesOf, OpenFile.behindLine, OpenFile.lineOf, OpenFile.dropLast]
  refine ⟨told.mpr (.inr ⟨'a', ?_⟩), last, isLines ▸ reads⟩
  rw [rest]
  decide

/-- With one empty line left `EOF` is true, but the line can be read. -/
theorem last_empty_line_not_told : ¬Run.EndTold Bench.bare 1 1 0 (sampleReader "\n") := by
  have isOpen : (sampleReader "\n").files.get? 1 = some (.input "f" "\n") := rfl
  have asked := Run.on_ask_end Bench.bare (by decide) (by decide) isOpen rfl
  have ran := Run.on_input_line Bench.bare (by decide) (by decide) isOpen rfl
    (rfl : (sampleReader "\n").store.ty 0 = .string) (by decide)
  rintro ⟨-, noLine⟩
  obtain ⟨error, after, failed, -⟩ := noLine asked
  cases ran.symm.trans failed

end BasicLang
