import BasicLang.Text.Template

set_option autoImplicit false

namespace BasicLang

namespace NumberField

theorem split_places_length (inside : Bool) (chars : List Char) :
    (splitPlaces inside chars).2.length ≤ chars.length := by
  fun_induction splitPlaces inside chars with
  | case1 inside rest places remaining split ih =>
    rw [split] at ih
    exact Nat.le_succ_of_le ih
  | case2 rest places remaining split ih =>
    rw [split] at ih
    exact Nat.le_succ_of_le ih
  | case3 => exact Nat.le_refl _

theorem of_chars_length (leadingPlus : Bool) (chars : List Char) :
    (ofChars leadingPlus chars).2.length ≤ (splitPlaces false chars).2.length ∧
      ((splitPlaces false chars).2.head? = some '.' →
        (ofChars leadingPlus chars).2.length < (splitPlaces false chars).2.length) := by
  have digits_end (digits : List Char) : (digits.dropWhile (· == '#')).length < digits.length + 1 :=
    Nat.lt_succ_of_le (List.dropWhile_suffix _).length_le
  unfold ofChars
  generalize splitPlaces false chars = parts
  obtain ⟨places, rest⟩ := parts
  dsimp only
  -- A sign may be behind the digits that a point starts, or be first.
  split
  · next behind isSigned =>
    split at isSigned
    · next digits =>
      have shorter := digits_end digits
      rw [show digits.dropWhile (· == '#') = '-' :: behind from isSigned, List.length_cons] at shorter
      rw [List.length_cons]
      dsimp only
      exact ⟨by omega, fun _ => by omega⟩
    · next noPoint =>
      rw [show rest = '-' :: behind from isSigned]
      simp
  · split
    · next digits _ =>
      have shorter := digits_end digits
      rw [List.length_cons]
      exact ⟨Nat.le_of_lt shorter, fun _ => shorter⟩
    · next noPoint =>
      refine ⟨Nat.le_refl _, fun point => ?_⟩
      obtain ⟨digits, isPoint⟩ := List.head?_eq_some_iff.mp point
      exact (noPoint digits isPoint).elim

theorem of_chars_shorter {char : Char} {rest : List Char} (starts : startsAt (char :: rest) = true) :
    (ofChars (char == '+') (if char = '+' then rest else char :: rest)).2.length ≤ rest.length := by
  by_cases plus : char = '+'
  · rw [if_pos plus]
    exact Nat.le_trans (of_chars_length _ rest).1 (split_places_length false rest)
  · rw [if_neg plus]
    have bounds := of_chars_length (char == '+') (char :: rest)
    by_cases place : char = '#'
    · subst place
      exact Nat.le_trans bounds.1 (split_places_length true rest)
    · have point : char = '.' := by
        unfold startsAt at starts
        split at starts <;> simp_all
      subst point
      exact Nat.le_of_lt_succ (bounds.2 rfl)

end NumberField

namespace TemplateField

section Reading

theorem scan_steps {steps enough : Nat} {pending chars : List Char} (most : chars.length ≤ steps)
    (more : chars.length ≤ enough) : scan pending chars steps = scan pending chars enough := by
  induction steps generalizing pending chars enough with
  | zero =>
    obtain rfl := List.length_eq_zero_iff.mp (Nat.le_zero.mp most)
    cases enough <;> rfl
  | succ steps ih =>
    cases enough with
    | zero =>
      obtain rfl := List.length_eq_zero_iff.mp (Nat.le_zero.mp more)
      rfl
    | succ enough =>
      -- Every case takes characters away, so that both counts are still enough for the rest.
      have further {pending rest : List Char} (shorter : rest.length < chars.length) :
          scan pending rest steps = scan pending rest enough := ih (by omega) (by omega)
      unfold scan
      split
      · rfl
      · rw [further (by simp only [List.length_cons]; omega)]
      · rfl
      · rw [further (by simp)]
      · rw [further (by simp)]
      · next rest _ =>
        split
        · next inner _ =>
          rw [further (by simp only [List.length_drop, List.length_cons]; omega)]
        · rw [further (by simp)]
      · next char rest _ _ _ _ _ =>
        split
        · next starts =>
          have shorter := NumberField.of_chars_shorter starts
          dsimp only
          rw [further (Nat.lt_succ_of_le shorter)]
        · rw [further (by simp)]

end Reading

def slots (fields : List TemplateField) : List TemplateField := fields.filter fun field => !field.isLiteral

def suits : TemplateField → TemplateArgument → Bool
  | .number _, .number _ => true
  | .firstChar, .text _ | .wholeText, .text _ | .fixedWidth _, .text _ => true
  | _, _ => false

/-- Whether no place count and no width that is needed for an argument is greater than 16 bits allow. The width of a number
is needed only where blanks are in front of the number. -/
def fits : TemplateField → TemplateArgument → Bool
  | .number layout, .number value => layout.places < UInt16.size &&
      (layout.width < UInt16.size || layout.width ≤ (layout.signed (UInt16.ofNat layout.places) value).length)
  | .fixedWidth width, .text _ => width < UInt16.size
  | _, _ => true

/-- The argument at an index, and the field that it meets where the fields are taken in turn. -/
def Turn (fields : List TemplateField) (arguments : List TemplateArgument) (index : Nat) (field : TemplateField)
    (argument : TemplateArgument) : Prop :=
  arguments[index]? = some argument ∧ (slots fields)[index % (slots fields).length]? = some field

def AllSuit (fields : List TemplateField) (arguments : List TemplateArgument) : Prop :=
  ∀ index field argument, Turn fields arguments index field argument → field.suits argument = true

def AllFit (fields : List TemplateField) (arguments : List TemplateArgument) : Prop :=
  ∀ index field argument, Turn fields arguments index field argument → field.fits argument = true

theorem measure_eq_some_iff {count : Nat} {width : UInt16} :
    Text.measure? count = some width ↔ count < UInt16.size ∧ UInt16.ofNat count = width := by
  rw [Text.measure?, Option.ite_none_right_eq_some, Option.some_inj]

theorem measure_eq_none_iff {count : Nat} : Text.measure? count = none ↔ ¬count < UInt16.size := by
  rw [Text.measure?, ite_eq_right_iff]
  simp only [reduceCtorEq, imp_false]

theorem format_is_some (layout : NumberField) (value : Float) :
    (layout.format? value).isSome = fits (.number layout) (.number value) := by
  have fitting : fits (.number layout) (.number value) = (decide (layout.places < UInt16.size) &&
      (decide (layout.width < UInt16.size) ||
        decide (layout.width ≤ (layout.signed (UInt16.ofNat layout.places) value).length))) := rfl
  rw [fitting, NumberField.format?]
  by_cases few : layout.places < UInt16.size
  · rw [measure_eq_some_iff.mpr ⟨few, rfl⟩]
    by_cases shorter : (layout.signed (UInt16.ofNat layout.places) value).length < layout.width
    · by_cases narrow : layout.width < UInt16.size
      · rw [measure_eq_some_iff.mpr ⟨narrow, rfl⟩, decide_eq_true few, decide_eq_true narrow]
        simp [shorter]
      · rw [measure_eq_none_iff.mpr narrow, decide_eq_false narrow, decide_eq_false (Nat.not_le.mpr shorter)]
        simp [shorter]
    · rw [decide_eq_true few, decide_eq_true (Nat.le_of_not_lt shorter)]
      by_cases longer : layout.width < (layout.signed (UInt16.ofNat layout.places) value).length <;>
        simp [shorter, longer]
  · rw [measure_eq_none_iff.mpr few, decide_eq_false few]
    rfl

theorem laid_out_cases {text? : Option String} {isThere : Bool} (there : text?.isSome = isThere) :
    (∃ text, laidOut text? = .ok text ∧ isThere = true) ∨ laidOut text? = .error .tooWide ∧ isThere = false := by
  cases text? with
  | none => exact .inr ⟨rfl, there.symm⟩
  | some text => exact .inl ⟨text, rfl, there.symm⟩

theorem fill_cases (field : TemplateField) (argument : TemplateArgument) :
    (∃ text, field.fill argument = .ok text ∧ field.suits argument = true ∧ field.fits argument = true) ∨
      (field.fill argument = .error .tooWide ∧ field.suits argument = true ∧ field.fits argument = false) ∨
      (field.fill argument = .error .unsuited ∧ field.suits argument = false) := by
  cases field <;> cases argument
  case number.number layout value =>
    rcases laid_out_cases (format_is_some layout value) with ⟨text, filled, fits⟩ | ⟨wide, fitsNot⟩
    · exact .inl ⟨text, filled, rfl, fits⟩
    · exact .inr (.inl ⟨wide, rfl, fitsNot⟩)
  case fixedWidth.text count value =>
    have isThere : ((Text.measure? count).map fun width => Text.padRight width (Text.left value count)).isSome =
        decide (count < UInt16.size) := by
      rw [Option.isSome_map, Text.measure?]
      split <;> simp_all
    rcases laid_out_cases isThere with ⟨text, filled, fits⟩ | ⟨wide, fitsNot⟩
    · exact .inl ⟨text, filled, rfl, fits⟩
    · exact .inr (.inl ⟨wide, rfl, fitsNot⟩)
  case firstChar.text value => exact .inl ⟨_, rfl, rfl, rfl⟩
  case wholeText.text value => exact .inl ⟨_, rfl, rfl, rfl⟩
  all_goals exact .inr (.inr ⟨rfl, rfl⟩)

def takes (field : TemplateField) (argument : TemplateArgument) : Bool := field.suits argument && field.fits argument

theorem takes_iff {field : TemplateField} {argument : TemplateArgument} :
    field.takes argument = true ↔ ∃ text, field.fill argument = .ok text := by
  rw [takes]
  rcases fill_cases field argument with ⟨text, filled, suited, fitted⟩ | ⟨wide, suited, fitsNot⟩ | ⟨refused, suitsNot⟩
  · simp [filled, suited, fitted]
  · simp [wide, suited, fitsNot]
  · simp [refused, suitsNot]

section Passing

variable {fields : List TemplateField} {first rest arguments remaining : List TemplateArgument}
  {written : String} {stopped : Bool} {fault : TemplateFault}

theorem slots_cons {field : TemplateField} (isSlot : ∀ text, field = .literal text → False) :
    slots (field :: fields) = field :: slots fields := by
  cases field with
  | literal text => exact (isSlot text rfl).elim
  | _ => rfl

theorem pass_cons {field : TemplateField} {argument : TemplateArgument}
    (isSlot : ∀ text, field = .literal text → False) : pass (field :: fields) (argument :: arguments) =
      (field.fill argument).bind fun filled =>
        (pass fields arguments).map fun (written, remaining, stopped) => (filled ++ written, remaining, stopped) := by
  rw [pass]
  · cases field.fill argument with
    | error fault => rfl
    | ok filled => cases pass fields arguments <;> rfl
  · exact isSlot

theorem pass_cases (fields : List TemplateField) (arguments : List TemplateArgument) :
    (∃ found, pass fields arguments = .ok found ∧
      ∀ pair ∈ (slots fields).zip arguments, pair.1.takes pair.2 = true) ∨
    ∃ fault before field argument after, pass fields arguments = .error fault ∧
      (slots fields).zip arguments = before ++ (field, argument) :: after ∧
      (∀ pair ∈ before, pair.1.takes pair.2 = true) ∧ field.fill argument = .error fault := by
  fun_induction pass fields arguments with
  | case1 arguments => exact .inl ⟨_, rfl, by simp [slots]⟩
  | case2 text fields arguments ih =>
    rcases ih with ⟨found, passed, all⟩ | ⟨fault, before, field, argument, after, passed, parts, takes, refused⟩
    · exact .inl ⟨_, by rw [passed]; rfl, all⟩
    · exact .inr ⟨fault, before, field, argument, after, by rw [passed]; rfl, parts, takes, refused⟩
  | case3 => exact .inl ⟨_, rfl, by simp⟩
  | case4 field fields argument arguments isSlot ih =>
    rw [slots_cons isSlot, List.zip_cons_cons, ← pass, pass_cons isSlot]
    · cases isFilled : field.fill argument with
      | error fault => exact .inr ⟨fault, [], field, argument, _, rfl, rfl, by simp, isFilled⟩
      | ok text =>
        have isTaken : field.takes argument = true := takes_iff.mpr ⟨text, isFilled⟩
        rcases ih with ⟨found, passed, all⟩ | ⟨fault, before, other, further, after, passed, parts, takes, refused⟩
        · exact .inl ⟨_, by rw [passed]; rfl, List.forall_mem_cons.mpr ⟨isTaken, all⟩⟩
        · exact .inr ⟨fault, (field, argument) :: before, other, further, after, by rw [passed]; rfl, by rw [parts]; rfl,
            List.forall_mem_cons.mpr ⟨isTaken, takes⟩, refused⟩
    · exact isSlot

theorem pass_leaves (passed : pass fields arguments = .ok (written, remaining, stopped)) :
    remaining = arguments.drop (slots fields).length ∧
      (stopped = true ↔ arguments.length < (slots fields).length) := by
  fun_induction pass fields arguments generalizing written with
  | case1 arguments =>
    cases passed
    simp [slots]
  | case2 text fields arguments ih =>
    cases inner : pass fields arguments with
    | error fault =>
      rw [inner] at passed
      cases passed
    | ok found =>
      rw [inner] at passed
      cases passed
      simpa [slots, isLiteral] using ih inner
  | case3 field fields isSlot =>
    cases passed
    simp [slots_cons isSlot]
  | case4 field fields argument arguments isSlot ih =>
    rw [← pass, pass_cons isSlot] at passed
    · cases isFilled : field.fill argument with
      | error fault =>
        rw [isFilled] at passed
        cases passed
      | ok filled =>
        cases inner : pass fields arguments with
        | error fault =>
          rw [isFilled, inner] at passed
          cases passed
        | ok found =>
          rw [isFilled, inner] at passed
          cases passed
          simpa [slots_cons isSlot] using ih inner
    · exact isSlot

theorem remains_none (passed : pass fields arguments = .ok (written, remaining, stopped))
    (ends : (stopped || remaining.isEmpty) = true) : remaining = [] := by
  obtain ⟨leaves, stops⟩ := pass_leaves passed
  rcases Bool.or_eq_true_iff.mp ends with short | empty
  · rw [leaves, List.drop_eq_nil_of_le (Nat.le_of_lt (stops.mp short))]
  · exact List.isEmpty_iff.mp empty

theorem pass_append (rest : List TemplateArgument) (enough : (slots fields).length ≤ first.length) :
    pass fields (first ++ rest) = (pass fields first).map fun found => (found.1, found.2.1 ++ rest, found.2.2) := by
  fun_induction pass fields first with
  | case1 arguments => rfl
  | case2 text fields arguments ih =>
    have same : (slots (.literal text :: fields)).length = (slots fields).length := rfl
    rw [pass, ih (same ▸ enough)]
    cases pass fields arguments <;> rfl
  | case3 field fields isSlot =>
    rw [slots_cons isSlot] at enough
    cases enough
  | case4 field fields argument arguments isSlot ih =>
    rw [slots_cons isSlot] at enough
    rw [List.cons_append, pass_cons isSlot, ih (Nat.le_of_succ_le_succ enough)]
    cases field.fill argument <;> cases pass fields arguments <;> rfl

end Passing

/-- The runs of the passes: another pass follows where arguments remain. -/
inductive Runs (fields : List TemplateField) : List TemplateArgument → Except TemplateFault String → Prop where
  | stops {arguments : List TemplateArgument} {fault : TemplateFault} :
      pass fields arguments = .error fault → Runs fields arguments (.error fault)
  | last {arguments remaining : List TemplateArgument} {written : String} {stopped : Bool} :
      pass fields arguments = .ok (written, remaining, stopped) → (stopped || remaining.isEmpty) = true →
      Runs fields arguments (.ok written)
  | again {arguments remaining : List TemplateArgument} {written : String} {stopped : Bool}
      {result : Except TemplateFault String} :
      pass fields arguments = .ok (written, remaining, stopped) → (stopped || remaining.isEmpty) = false →
      Runs fields remaining result → Runs fields arguments (result.map (written ++ ·))

def StopsFor (fields : List TemplateField) (arguments : List TemplateArgument) (fault : TemplateFault) : Prop :=
  ∃ index field argument, Turn fields arguments index field argument ∧ field.fill argument = .error fault ∧
    ∀ earlier < index, ∀ other further, Turn fields arguments earlier other further → other.takes further = true

section Turns

variable {fields : List TemplateField} {first rest arguments remaining : List TemplateArgument}
  {result other : Except TemplateFault String} {fault : TemplateFault}

theorem passes_succ {written : String} {stopped : Bool} {rounds : Nat}
    (passed : pass fields arguments = .ok (written, remaining, stopped)) :
    passes fields arguments (rounds + 1) =
      if (stopped || remaining.isEmpty) = true then .ok written
      else (passes fields remaining rounds).map (written ++ ·) := by
  simp only [passes, passed, bind, Except.bind, pure, Except.pure]
  cases passes fields remaining rounds <;> rfl

theorem passes_run {rounds : Nat} (some : 0 < (slots fields).length) (enough : arguments.length < rounds) :
    Runs fields arguments (passes fields arguments rounds) := by
  induction rounds generalizing arguments with
  | zero => cases enough
  | succ rounds ih =>
    cases passed : pass fields arguments with
    | error fault =>
      rw [passes, passed]
      exact .stops passed
    | ok found =>
      obtain ⟨written, remaining, stopped⟩ := found
      have leaves := (pass_leaves passed).1
      rw [passes_succ passed]
      split
      · next ends => exact .last passed ends
      · next goes =>
        have remains : 0 < remaining.length := List.length_pos_iff.mpr (by simp_all)
        have shorter : remaining.length < rounds := by
          rw [leaves, List.length_drop] at remains ⊢
          omega
        exact .again passed (Bool.eq_false_iff.mpr goes) (ih shorter)

theorem Runs.unique (run : Runs fields arguments result) (second : Runs fields arguments other) :
    result = other := by
  induction run generalizing other with
  | stops passed => cases second <;> simp_all
  | last passed ends => cases second <;> simp_all
  | again passed ends run ih =>
    cases second with
    | stops found => simp_all
    | last found stops => simp_all
    | again found goes second =>
      cases passed.symm.trans found
      rw [ih second]

theorem turn_first_iff {index : Nat} (early : index < (slots fields).length) {field : TemplateField}
    {argument : TemplateArgument} : Turn fields arguments index field argument ↔
      ((slots fields).zip arguments)[index]? = some (field, argument) := by
  rw [Turn, Nat.mod_eq_of_lt early, List.getElem?_zip_eq_some, And.comm]

theorem turn_later_iff {index : Nat} {field : TemplateField} {argument : TemplateArgument} :
    Turn fields arguments ((slots fields).length + index) field argument ↔
      Turn fields (arguments.drop (slots fields).length) index field argument := by
  rw [Turn, Turn, List.getElem?_drop, Nat.add_mod_left]

theorem all_taken_iff : (∀ index field argument, Turn fields arguments index field argument → field.takes argument = true) ↔
    (∀ pair ∈ (slots fields).zip arguments, pair.1.takes pair.2 = true) ∧
      ∀ index field argument, Turn fields (arguments.drop (slots fields).length) index field argument →
        field.takes argument = true := by
  constructor
  · refine fun all => ⟨fun pair inside => ?_, fun index field argument turn => all _ _ _ (turn_later_iff.mpr turn)⟩
    obtain ⟨index, isPair⟩ := List.getElem?_of_mem inside
    have early := (List.getElem?_eq_some_iff.mp isPair).1
    rw [List.length_zip] at early
    exact all index _ _ ((turn_first_iff (by omega)).mpr isPair)
  · rintro ⟨inFirst, further⟩ index field argument turn
    by_cases early : index < (slots fields).length
    · exact inFirst _ (List.mem_of_getElem? ((turn_first_iff early).mp turn))
    · obtain ⟨more, rfl⟩ := Nat.exists_eq_add_of_le (Nat.le_of_not_lt early)
      exact further more _ _ (turn_later_iff.mp turn)

theorem Runs.cases (run : Runs fields arguments result) :
    (∃ text, result = .ok text ∧
      ∀ index field argument, Turn fields arguments index field argument → field.takes argument = true) ∨
    ∃ fault, result = .error fault ∧ StopsFor fields arguments fault := by
  -- The induction is on the passes: a field of a later pass is met at its place plus the number of fields.
  induction run with
  | @stops arguments fault passed =>
    rcases pass_cases fields arguments with ⟨found, isFound, -⟩ | ⟨other, before, field, argument, after, isFault, parts,
      taken, refused⟩
    · cases passed.symm.trans isFound
    · cases passed.symm.trans isFault
      have within := congrArg List.length parts
      rw [List.length_zip, List.length_append, List.length_cons] at within
      refine .inr ⟨fault, rfl, before.length, field, argument, (turn_first_iff (by omega)).mpr ?_, refused,
        fun earlier less other further turn => ?_⟩
      · rw [parts, List.getElem?_append_right (Nat.le_refl _), Nat.sub_self, List.getElem?_cons_zero]
      · have place := (turn_first_iff (by omega)).mp turn
        rw [parts, List.getElem?_append_left less] at place
        exact taken _ (List.mem_of_getElem? place)
  | @last arguments remaining written stopped passed ends =>
    rcases pass_cases fields arguments with ⟨-, -, inFirst⟩ | ⟨other, _, _, _, _, isFault, -⟩
    · refine .inl ⟨written, rfl, all_taken_iff.mpr ⟨inFirst, fun index field argument turn => ?_⟩⟩
      rw [← (pass_leaves passed).1, remains_none passed ends] at turn
      cases turn.1
    · cases passed.symm.trans isFault
  | @again arguments remaining written stopped result passed ends run ih =>
    have leaves := (pass_leaves passed).1
    rcases pass_cases fields arguments with ⟨-, -, inFirst⟩ | ⟨other, _, _, _, _, isFault, -⟩
    · rcases ih with ⟨text, rfl, further⟩ | ⟨fault, rfl, index, field, argument, turn, refused, earlier⟩
      · exact .inl ⟨_, rfl, all_taken_iff.mpr ⟨inFirst, leaves ▸ further⟩⟩
      · refine .inr ⟨fault, rfl, _, field, argument, turn_later_iff.mpr (leaves ▸ turn), refused,
          fun place less other further before => ?_⟩
        by_cases early : place < (slots fields).length
        · exact inFirst _ (List.mem_of_getElem? ((turn_first_iff early).mp before))
        · obtain ⟨more, rfl⟩ := Nat.exists_eq_add_of_le (Nat.le_of_not_lt early)
          exact earlier more (by omega) _ _ (leaves ▸ turn_later_iff.mp before)
    · cases passed.symm.trans isFault

theorem StopsFor.unique {fault other : TemplateFault} (stops : StopsFor fields arguments fault)
    (second : StopsFor fields arguments other) : fault = other := by
  obtain ⟨index, field, argument, turn, refused, before⟩ := stops
  obtain ⟨place, slot, given, there, refusedThere, beforeThere⟩ := second
  have isTaken {field : TemplateField} {argument : TemplateArgument} {fault : TemplateFault}
      (taken : field.takes argument = true) (refused : field.fill argument = .error fault) : False := by
    obtain ⟨text, filled⟩ := takes_iff.mp taken
    cases filled.symm.trans refused
  rcases Nat.lt_trichotomy index place with less | rfl | greater
  · exact (isTaken (beforeThere index less _ _ turn) refused).elim
  · obtain rfl := Option.some.inj (turn.1.symm.trans there.1)
    obtain rfl := Option.some.inj (turn.2.symm.trans there.2)
    exact Except.error.inj (refused.symm.trans refusedThere)
  · exact (isTaken (before place greater _ _ there) refusedThere).elim

theorem StopsFor.not_all_taken (stops : StopsFor fields arguments fault) :
    ¬∀ index field argument, Turn fields arguments index field argument → field.takes argument = true := by
  intro all
  obtain ⟨index, field, argument, turn, refused, -⟩ := stops
  obtain ⟨text, filled⟩ := takes_iff.mp (all index field argument turn)
  cases filled.symm.trans refused

theorem Runs.error_iff (run : Runs fields arguments result) : result = .error fault ↔ StopsFor fields arguments fault := by
  rcases run.cases with ⟨text, rfl, all⟩ | ⟨other, rfl, stops⟩
  · exact ⟨nofun, fun stops => absurd all stops.not_all_taken⟩
  · constructor
    · rintro ⟨⟩
      exact stops
    · intro second
      rw [stops.unique second]

theorem all_suit_and_fit_iff : AllSuit fields arguments ∧ AllFit fields arguments ↔
    ∀ index field argument, Turn fields arguments index field argument → field.takes argument = true := by
  simp only [AllSuit, AllFit, takes, Bool.and_eq_true, imp_and, forall_and]

theorem turn_take_iff {index earlier : Nat} {field : TemplateField} {argument : TemplateArgument} :
    Turn fields (arguments.take index) earlier field argument ↔
      earlier < index ∧ Turn fields arguments earlier field argument := by
  rw [Turn, Turn, List.getElem?_take, Option.ite_none_right_eq_some, and_assoc]

theorem stops_too_wide_iff : StopsFor fields arguments .tooWide ↔
    ∃ index field argument, Turn fields arguments index field argument ∧ field.suits argument = true ∧
      field.fits argument = false ∧ AllSuit fields (arguments.take index) ∧ AllFit fields (arguments.take index) := by
  have wide_iff (field : TemplateField) (argument : TemplateArgument) :
      field.fill argument = .error .tooWide ↔ field.suits argument = true ∧ field.fits argument = false := by
    rcases fill_cases field argument with ⟨text, filled, suited, fitted⟩ | ⟨wide, suited, fitsNot⟩ | ⟨refused, suitsNot⟩
    · simp [filled, fitted]
    · simp [wide, suited, fitsNot]
    · simp [refused, suitsNot]
  have before_iff (index : Nat) :
      (∀ earlier < index, ∀ other further, Turn fields arguments earlier other further → other.takes further = true) ↔
        AllSuit fields (arguments.take index) ∧ AllFit fields (arguments.take index) := by
    simp only [all_suit_and_fit_iff, turn_take_iff, and_imp]
    exact ⟨fun all place field argument less => all place less field argument,
      fun all place less field argument => all place field argument less⟩
  simp only [StopsFor, wide_iff, before_iff, and_assoc]

theorem not_stops_unsuited (all : AllSuit fields arguments) : ¬StopsFor fields arguments .unsuited := by
  rintro ⟨index, field, argument, turn, refused, -⟩
  have suited := all index field argument turn
  rcases fill_cases field argument with ⟨text, filled, -⟩ | ⟨wide, -⟩ | ⟨-, suitsNot⟩
  · cases filled.symm.trans refused
  · cases wide.symm.trans refused
  · cases suited.symm.trans suitsNot

theorem Runs.ok_iff (run : Runs fields arguments result) :
    (∃ text, result = .ok text) ↔ AllSuit fields arguments ∧ AllFit fields arguments := by
  rw [all_suit_and_fit_iff]
  rcases run.cases with ⟨text, rfl, all⟩ | ⟨other, rfl, stops⟩
  · exact ⟨fun _ => all, fun _ => ⟨text, rfl⟩⟩
  · exact ⟨nofun, fun all => absurd all stops.not_all_taken⟩

theorem Runs.append {written further : String} (run : Runs fields first (.ok written))
    (whole : (slots fields).length ∣ first.length) (isFirst : first ≠ [])
    (others : rest ≠ []) (second : Runs fields rest (.ok further)) :
    Runs fields (first ++ rest) (.ok (written ++ further)) := by
  generalize isResult : Except.ok written = result at run
  -- The first arguments fill whole passes, so that the last of their passes leaves no field open.
  induction run generalizing written with
  | stops passed => cases isResult
  | @last arguments remaining text stopped passed ends =>
    cases isResult
    have enough : (slots fields).length ≤ arguments.length := Nat.le_of_dvd (List.length_pos_iff.mpr isFirst) whole
    have appended := pass_append rest enough
    rw [passed, Except.map, remains_none passed ends] at appended
    have goesOn : stopped = false :=
      Bool.eq_false_iff.mpr fun stops => Nat.not_lt.mpr enough ((pass_leaves passed).2.mp stops)
    have remains : rest.isEmpty = false := List.isEmpty_eq_false_iff.mpr others
    exact .again appended (by rw [goesOn, List.nil_append, remains]; rfl) second
  | @again arguments remaining text stopped result passed ends run ih =>
    cases result with
    | error fault => cases isResult
    | ok behind =>
      cases isResult
      have enough := Nat.le_of_dvd (List.length_pos_iff.mpr isFirst) whole
      have appended := pass_append rest enough
      rw [passed, Except.map] at appended
      have leaves := (pass_leaves passed).1
      have remains := ih (by rw [leaves, List.length_drop]; exact Nat.dvd_sub whole (Nat.dvd_refl _)) (by simp_all) rfl
      rw [String.append_assoc]
      exact .again appended (by simp_all) remains

end Turns

theorem all_literal_iff (fields : List TemplateField) :
    fields.all isLiteral = true ↔ ¬0 < (slots fields).length := by
  rw [Nat.not_lt, Nat.le_zero, List.length_eq_zero_iff, slots, List.filter_eq_nil_iff, List.all_eq_true]
  simp

theorem format_run {template : String} {arguments : List TemplateArgument}
    (some : 0 < (slots (ofTemplate template)).length) :
    Runs (ofTemplate template) arguments (formatUsing template arguments) := by
  rw [formatUsing, if_neg fun literal => (all_literal_iff _).mp literal some]
  exact passes_run some (Nat.lt_succ_self _)

theorem format_literal {template : String} (literal : ¬0 < (slots (ofTemplate template)).length)
    (arguments : List TemplateArgument) : formatUsing template arguments = .error .unsuited :=
  if_pos ((all_literal_iff _).mpr literal)

theorem format_ok_iff (template : String) (arguments : List TemplateArgument) :
    (∃ text, formatUsing template arguments = .ok text) ↔ 0 < (slots (ofTemplate template)).length ∧
      AllSuit (ofTemplate template) arguments ∧ AllFit (ofTemplate template) arguments := by
  by_cases some : 0 < (slots (ofTemplate template)).length
  · exact (format_run some).ok_iff.trans (iff_and_self.mpr fun _ => some)
  · rw [format_literal some]
    exact ⟨nofun, fun all => absurd all.1 some⟩

theorem format_ok_iff_of_laid_out {template : String} {arguments : List TemplateArgument}
    (laidOut : formatUsing template arguments ≠ .error .tooWide) :
    (∃ text, formatUsing template arguments = .ok text) ↔
      0 < (slots (ofTemplate template)).length ∧ AllSuit (ofTemplate template) arguments := by
  constructor
  · intro written
    obtain ⟨some, suited, -⟩ := (format_ok_iff template arguments).mp written
    exact ⟨some, suited⟩
  · rintro ⟨some, suited⟩
    have run : Runs (ofTemplate template) arguments (formatUsing template arguments) := format_run some
    rcases run.cases with ⟨text, written, -⟩ | ⟨fault, stopped, stops⟩
    · exact ⟨text, written⟩
    · cases fault with
      | unsuited => exact absurd stops (not_stops_unsuited suited)
      | tooWide => exact absurd stopped laidOut

theorem format_append {template : String} {first rest : List TemplateArgument} (isFirst : first ≠ []) (others : rest ≠ [])
    (whole : (slots (ofTemplate template)).length ∣ first.length) {written further : String}
    (fills : formatUsing template first = .ok written) (followed : formatUsing template rest = .ok further) :
    formatUsing template (first ++ rest) = .ok (written ++ further) := by
  have some := ((format_ok_iff template first).mp ⟨written, fills⟩).1
  have run : Runs (ofTemplate template) first (.ok written) := fills ▸ format_run some
  have second : Runs (ofTemplate template) rest (.ok further) := followed ▸ format_run some
  exact (format_run some).unique (run.append whole isFirst others second)

theorem format_too_wide_iff (template : String) (arguments : List TemplateArgument) :
    formatUsing template arguments = .error .tooWide ↔ StopsFor (ofTemplate template) arguments .tooWide := by
  by_cases some : 0 < (slots (ofTemplate template)).length
  · exact (format_run some).error_iff
  · rw [format_literal some]
    refine ⟨nofun, fun ⟨_, _, _, turn, _⟩ => ?_⟩
    have met := turn.2
    rw [List.length_eq_zero_iff.mp (Nat.le_zero.mp (Nat.not_lt.mp some))] at met
    cases met

/-- The arguments fill the fields of a template in turn. The template is read to its end, and the passes over its fields
come to theirs. Unless the machine gives up, which it does where an argument meets a field that is too wide for it, a text
is written exactly when the template takes arguments and each argument is of the kind of the field at its place modulo the
number of fields. Arguments that fill whole passes may be written by themselves. -/
theorem arguments_fill_in_turn (template : String) :
    (∀ steps, template.length ≤ steps → scan [] template.toList steps = ofTemplate template) ∧
    (0 < (slots (ofTemplate template)).length → ∀ arguments,
      Runs (ofTemplate template) arguments (formatUsing template arguments) ∧
        ∀ result, Runs (ofTemplate template) arguments result → result = formatUsing template arguments) ∧
    (∀ arguments, formatUsing template arguments = .error .tooWide ↔
      ∃ index field argument, Turn (ofTemplate template) arguments index field argument ∧
        field.suits argument = true ∧ field.fits argument = false ∧
        AllSuit (ofTemplate template) (arguments.take index) ∧ AllFit (ofTemplate template) (arguments.take index)) ∧
    (∀ arguments, formatUsing template arguments ≠ .error .tooWide →
      ((∃ text, formatUsing template arguments = .ok text) ↔
        0 < (slots (ofTemplate template)).length ∧ AllSuit (ofTemplate template) arguments)) ∧
    (∀ first rest, first ≠ [] → rest ≠ [] → (slots (ofTemplate template)).length ∣ first.length → ∀ written further,
      formatUsing template first = .ok written → formatUsing template rest = .ok further →
      formatUsing template (first ++ rest) = .ok (written ++ further)) := by
  refine ⟨fun steps enough => ?_, fun some arguments => ?_, fun arguments => ?_,
    fun arguments laidOut => format_ok_iff_of_laid_out laidOut,
    fun first rest isFirst others whole written further => format_append isFirst others whole⟩
  · exact scan_steps (String.length_toList ▸ enough) (Nat.le_of_eq String.length_toList)
  · exact ⟨format_run some, fun result run => run.unique (format_run some)⟩
  · exact (format_too_wide_iff template arguments).trans stops_too_wide_iff

theorem two_texts_in_turn :
    formatUsing "[&] " [.text "a", .text "b"] = .ok ("[a] " ++ "[b] ") :=
  (arguments_fill_in_turn "[&] ").2.2.2.2 [.text "a"] [.text "b"] (by simp) (by simp) (by decide) _ _
    rfl rfl

theorem places_of_marks (inside : Bool) (count : Nat) :
    NumberField.splitPlaces inside (List.replicate count '#') = (List.replicate count '#', []) := by
  induction count generalizing inside with
  | zero => cases inside <;> rfl
  | succ count ih => rw [List.replicate_succ, NumberField.splitPlaces, ih]

theorem scan_marks {places : Nat} (some : 0 < places) : ofTemplate (String.ofList (List.replicate places '#')) =
    [.number { before := places, after := none, commas := false, leadingPlus := false, trailingMinus := false }] := by
  obtain ⟨count, rfl⟩ := Nat.exists_eq_add_one.mpr some
  have field : NumberField.ofChars false ('#' :: List.replicate count '#') =
      ({ before := count + 1, after := none, commas := false, leadingPlus := false, trailingMinus := false }, []) := by
    rw [← List.replicate_succ, NumberField.ofChars, places_of_marks]
    simp
  have starts : NumberField.startsAt ('#' :: List.replicate count '#') = true := rfl
  rw [ofTemplate, String.length_ofList, String.toList_ofList, List.length_replicate, List.replicate_succ, scan, if_pos starts,
    if_neg (by decide), show ('#' == '+') = false from rfl, field]
  · cases count <;> rfl
  all_goals simp

theorem wide_field_gives_up :
    formatUsing (String.ofList (List.replicate 65536 '#')) [.number 1] = .error .tooWide := by
  have wide : fits (.number { before := 65536, after := none, commas := false, leadingPlus := false, trailingMinus := false })
      (.number 1) = false := by decide +kernel
  rw [format_too_wide_iff, stops_too_wide_iff, scan_marks (by decide)]
  exact ⟨0, _, .number 1, ⟨rfl, rfl⟩, rfl, wide, fun _ _ _ turn => (nomatch turn.1), fun _ _ _ turn => (nomatch turn.1)⟩

end TemplateField

end BasicLang
