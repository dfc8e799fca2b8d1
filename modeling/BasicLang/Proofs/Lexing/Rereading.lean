import BasicLang.Proofs.Lexing.Pieces

set_option autoImplicit false

namespace BasicLang

def TokenKind.isRemark : TokenKind → Bool
  | .comment => true
  | .remComment => true
  | _ => false

namespace Lexeme

section Cuts

def Stops (tail : List Char) : Prop := ∀ next ∈ tail.head?, next = ' '

theorem Stops.cases {tail : List Char} (stops : Stops tail) : tail = [] ∨ ∃ further, tail = ' ' :: further := by
  cases tail with
  | nil => exact .inl rfl
  | cons next further => exact .inr ⟨further, by rw [stops next rfl]⟩

variable {member : Char → Bool} {chars tail : List Char} {count reach : Nat}

theorem run_le : run member chars ≤ chars.length := (List.takeWhile_sublist member).length_le

theorem one_le : one member chars ≤ chars.length := by
  unfold one
  split
  · split <;> simp
  · exact Nat.zero_le _

theorem one_le_one : one member chars ≤ 1 := by
  unfold one
  split
  · split <;> simp
  · exact Nat.zero_le _

theorem one_of_none (other : ∀ next ∈ chars.head?, member next = false) : one member chars = 0 := by
  cases chars with
  | nil => rfl
  | cons next rest => simp [one, other next rfl]

theorem one_stops (blank : member ' ' = false) (stops : Stops tail) : one member tail = 0 :=
  one_of_none fun next isNext => stops next isNext ▸ blank

theorem run_stops (blank : member ' ' = false) (stops : Stops tail) : run member tail = 0 := by
  obtain rfl | ⟨further, rfl⟩ := stops.cases
  · rfl
  · exact run_none blank

theorem drop_cut (before : count ≤ reach) (within : count ≤ chars.length) :
    (chars.take reach ++ tail).drop count = (chars.drop count).take (reach - count) ++ tail := by
  rw [List.drop_append_of_le_length (by rw [List.length_take]; omega), List.drop_take]

theorem take_cut (before : count ≤ reach) (within : count ≤ chars.length) :
    (chars.take reach ++ tail).take count = chars.take count := by
  rw [List.take_append_of_le_length (by rw [List.length_take]; omega), List.take_take, Nat.min_eq_left before]

theorem run_cut (blank : member ' ' = false) (stops : Stops tail) (before : run member chars ≤ reach) :
    run member (chars.take reach ++ tail) = run member chars := by
  induction chars generalizing reach with
  | nil => simpa [run] using run_stops blank stops
  | cons char rest ih =>
    cases isMember : member char with
    | true =>
      rw [run_cons isMember] at before ⊢
      obtain ⟨reach, rfl⟩ := Nat.exists_eq_add_one_of_ne_zero (Nat.ne_of_gt (Nat.lt_of_lt_of_le (Nat.succ_pos _) before))
      rw [List.take_succ_cons, List.cons_append, run_cons isMember, ih (by omega)]
    | false =>
      rw [run_none isMember]
      cases reach with
      | zero => exact run_stops blank stops
      | succ reach => exact run_none isMember

theorem one_cut (blank : member ' ' = false) (stops : Stops tail) (before : one member chars ≤ reach) :
    one member (chars.take reach ++ tail) = one member chars := by
  cases chars with
  | nil => simpa [one] using one_stops blank stops
  | cons char rest =>
    cases reach with
    | zero =>
      rw [Nat.le_zero.mp before]
      exact one_stops blank stops
    | succ reach => rfl

theorem head_cut (stops : Stops tail) :
    ∀ next ∈ (chars.take (one member chars) ++ tail).head?, member next = true ∨ next = ' ' := by
  intro next isNext
  cases chars with
  | nil => exact .inr (stops next (by simpa using isNext))
  | cons char rest =>
    cases isMember : member char with
    | true =>
      simp only [one, isMember, if_true, List.take_succ_cons] at isNext
      exact .inl (Option.some.inj isNext ▸ isMember)
    | false =>
      simp only [one, isMember, Bool.false_eq_true, if_false, List.take_zero, List.nil_append] at isNext
      exact .inr (stops next isNext)

end Cuts

section Numbers

def isExponentMark (char : Char) : Bool := char == 'E' || char == 'e' || char == 'D' || char == 'd'

def isSign (char : Char) : Bool := char == '+' || char == '-'

def isWholeSigil (char : Char) : Bool := char == '%' || char == '&'

def isRealSigil (char : Char) : Bool := char == '!' || char == '#'

variable (chars : List Char)

def wholeLength : Nat := run isDigit chars

def pointLength : Nat := one (· == '.') (chars.drop (wholeLength chars))

def fractionLength : Nat := if pointLength chars = 0 then 0 else run isDigit ((chars.drop (wholeLength chars)).drop 1)

def powerLength : Nat := exponentLength ((chars.drop (wholeLength chars)).drop (pointLength chars + fractionLength chars))

def realLength : Nat := wholeLength chars + pointLength chars + fractionLength chars + powerLength chars

def wholeSigil : Nat := one isWholeSigil (chars.drop (wholeLength chars))

def realSigil : Nat := one isRealSigil (chars.drop (realLength chars))

theorem number_parts : number chars =
    if pointLength chars = 0 ∧ powerLength chars = 0 ∧ realSigil chars = 0 then
      (.integerLiteral, wholeLength chars + wholeSigil chars)
    else (.floatLiteral, realLength chars + realSigil chars) := rfl

variable {chars} {tail : List Char}

theorem exponent_parts (mark : Char) (rest : List Char) : exponentLength (mark :: rest) =
    if isExponentMark mark = true then
      if run isDigit (rest.drop (one isSign rest)) = 0 then 0
      else 1 + one isSign rest + run isDigit (rest.drop (one isSign rest))
    else 0 := rfl

theorem exponent_of_none (other : ∀ next ∈ chars.head?, isExponentMark next = false) : exponentLength chars = 0 := by
  cases chars with
  | nil => rfl
  | cons mark rest => rw [exponent_parts, if_neg (by simp [other mark rfl])]

theorem exponent_le : exponentLength chars ≤ chars.length := by
  cases chars with
  | nil => exact Nat.le_refl _
  | cons mark rest =>
    have digits := @run_le isDigit (rest.drop (one isSign rest))
    have sign := @one_le isSign rest
    rw [List.length_drop] at digits
    rw [exponent_parts, List.length_cons]
    split
    · split <;> omega
    · omega

theorem no_mark {next : Char} (isNext : isRealSigil next = true ∨ next = ' ') : isExponentMark next = false := by
  rcases isNext with sigil | rfl
  · simp only [isRealSigil, Bool.or_eq_true, beq_iff_eq] at sigil
    obtain rfl | rfl := sigil <;> rfl
  · rfl

theorem exponent_cut (stops : Stops tail) :
    exponentLength (chars.take (exponentLength chars + one isRealSigil (chars.drop (exponentLength chars))) ++ tail) =
      exponentLength chars := by
  cases chars with
  | nil => simpa [exponentLength, one] using exponent_of_none fun next isNext => stops next isNext ▸ rfl
  | cons mark rest =>
    have sign := @one_le isSign rest
    by_cases isMark : isExponentMark mark = true
    · by_cases noDigits : run isDigit (rest.drop (one isSign rest)) = 0
      · have none : exponentLength (mark :: rest) = 0 := by rw [exponent_parts, if_pos isMark, if_pos noDigits]
        have noSigil : isRealSigil mark = false := by
          simp only [isExponentMark, Bool.or_eq_true, beq_iff_eq] at isMark
          obtain ((rfl | rfl) | rfl) | rfl := isMark <;> rfl
        have nothing : one isRealSigil ((mark :: rest).drop 0) = 0 := by simp [one, noSigil]
        rw [none, nothing]
        exact exponent_of_none fun next isNext => stops next isNext ▸ rfl
      · have some : exponentLength (mark :: rest) = 1 + one isSign rest + run isDigit (rest.drop (one isSign rest)) := by
          rw [exponent_parts, if_pos isMark, if_neg noDigits]
        rw [some]
        generalize one isRealSigil _ = sigil
        have reach : 1 + one isSign rest + run isDigit (rest.drop (one isSign rest)) + sigil =
            (one isSign rest + (run isDigit (rest.drop (one isSign rest)) + sigil)) + 1 := by omega
        rw [reach, List.take_succ_cons, List.cons_append, exponent_parts, if_pos isMark,
          one_cut rfl stops (Nat.le_add_right _ _), drop_cut (Nat.le_add_right _ _) sign, Nat.add_sub_cancel_left,
          run_cut rfl stops (Nat.le_add_right _ _), if_neg noDigits]
    · have none : exponentLength (mark :: rest) = 0 := by rw [exponent_parts, if_neg isMark]
      rw [none, List.drop_zero, Nat.zero_add]
      exact exponent_of_none fun next isNext => no_mark (head_cut stops next isNext)

theorem no_real {next : Char} (isNext : isWholeSigil next = true ∨ next = ' ') :
    (next == '.') = false ∧ isExponentMark next = false ∧ isRealSigil next = false := by
  rcases isNext with sigil | rfl
  · simp only [isWholeSigil, Bool.or_eq_true, beq_iff_eq] at sigil
    obtain rfl | rfl := sigil <;> exact ⟨rfl, rfl, rfl⟩
  · exact ⟨rfl, rfl, rfl⟩

theorem whole_number_cut (stops : Stops tail)
    (isWhole : pointLength chars = 0 ∧ powerLength chars = 0 ∧ realSigil chars = 0) :
    number (chars.take (wholeLength chars + wholeSigil chars) ++ tail) = number chars := by
  have within : wholeLength chars ≤ chars.length := run_le
  generalize isCut : chars.take (wholeLength chars + wholeSigil chars) ++ tail = cut
  have digits : wholeLength cut = wholeLength chars := isCut ▸ run_cut rfl stops (Nat.le_add_right _ _)
  have behind : cut.drop (wholeLength chars) = (chars.drop (wholeLength chars)).take (wholeSigil chars) ++ tail := by
    rw [← isCut, drop_cut (Nat.le_add_right _ _) within, Nat.add_sub_cancel_left]
  have head : ∀ next ∈ (cut.drop (wholeLength chars)).head?, isWholeSigil next = true ∨ next = ' ' :=
    behind ▸ head_cut stops
  have point : pointLength cut = 0 := by
    rw [pointLength, digits]
    exact one_of_none fun next isNext => (no_real (head next isNext)).1
  have fraction : fractionLength cut = 0 := if_pos point
  have power : powerLength cut = 0 := by
    rw [powerLength, digits, point, fraction]
    exact exponent_of_none fun next isNext => (no_real (head next isNext)).2.1
  have sigil : realSigil cut = 0 := by
    rw [realSigil, realLength, digits, point, fraction, power]
    exact one_of_none fun next isNext => (no_real (head next isNext)).2.2
  have ending : wholeSigil cut = wholeSigil chars := by
    rw [wholeSigil, digits, behind]
    exact one_cut rfl stops (Nat.le_refl _)
  rw [number_parts, number_parts, if_pos ⟨point, power, sigil⟩, if_pos isWhole, digits, ending]

theorem fraction_within : wholeLength chars + pointLength chars + fractionLength chars ≤ chars.length := by
  have whole : wholeLength chars ≤ chars.length := run_le
  have point : pointLength chars ≤ (chars.drop (wholeLength chars)).length := one_le
  have single : pointLength chars ≤ 1 := one_le_one
  have digits : run isDigit ((chars.drop (wholeLength chars)).drop 1) ≤ _ := run_le
  rw [List.length_drop] at point digits
  rw [List.length_drop] at digits
  unfold fractionLength
  split <;> omega

theorem real_within : realLength chars ≤ chars.length := by
  have fraction := @fraction_within chars
  have power : powerLength chars ≤ _ := exponent_le
  rw [List.drop_drop, List.length_drop] at power
  rw [realLength]
  omega

theorem real_number_cut (stops : Stops tail)
    (isReal : ¬(pointLength chars = 0 ∧ powerLength chars = 0 ∧ realSigil chars = 0)) :
    number (chars.take (realLength chars + realSigil chars) ++ tail) = number chars := by
  have within : realLength chars ≤ chars.length := real_within
  have fractionWithin := @fraction_within chars
  have size : realLength chars = wholeLength chars + pointLength chars + fractionLength chars + powerLength chars := rfl
  have pointWithin : pointLength chars ≤ (chars.drop (wholeLength chars)).length := one_le
  generalize isCut : chars.take (realLength chars + realSigil chars) ++ tail = cut
  have digits : wholeLength cut = wholeLength chars :=
    isCut ▸ run_cut rfl stops (by change wholeLength chars ≤ _; omega)
  have behind : cut.drop (wholeLength chars) = (chars.drop (wholeLength chars)).take
      (pointLength chars + fractionLength chars + powerLength chars + realSigil chars) ++ tail := by
    rw [← isCut, drop_cut (by omega) (by omega)]
    congr 2
    omega
  have point : pointLength cut = pointLength chars := by
    rw [pointLength, digits, behind]
    exact one_cut rfl stops (by change pointLength chars ≤ _; omega)
  have fraction : fractionLength cut = fractionLength chars := by
    rw [fractionLength, point, digits, behind]
    by_cases none : pointLength chars = 0
    · rw [if_pos none, fractionLength, if_pos none]
    · have isFraction : fractionLength chars = run isDigit ((chars.drop (wholeLength chars)).drop 1) := if_neg none
      rw [if_neg none, drop_cut (by omega) (by omega), isFraction]
      exact run_cut rfl stops (by rw [← isFraction]; omega)
  have power : powerLength cut = powerLength chars := by
    have ending : realSigil chars = one isRealSigil
        (((chars.drop (wholeLength chars)).drop (pointLength chars + fractionLength chars)).drop (powerLength chars)) := by
      rw [realSigil, List.drop_drop, List.drop_drop, size, Nat.add_assoc (wholeLength chars)]
      congr 2
      omega
    rw [powerLength, digits, point, fraction, behind,
      drop_cut (by omega) (by rw [List.length_drop]; omega), ending]
    have reach (sigil : Nat) : pointLength chars + fractionLength chars + powerLength chars + sigil -
        (pointLength chars + fractionLength chars) = powerLength chars + sigil := by omega
    rw [reach]
    exact exponent_cut stops
  have real : realLength cut = realLength chars := by
    rw [realLength, digits, point, fraction, power, size]
  have sigil : realSigil cut = realSigil chars := by
    rw [realSigil, real, ← isCut, drop_cut (Nat.le_add_right _ _) within, Nat.add_sub_cancel_left]
    exact one_cut rfl stops (Nat.le_refl _)
  rw [number_parts, number_parts, point, power, sigil, if_neg isReal, if_neg isReal, real]

theorem number_cut (stops : Stops tail) : number (chars.take (number chars).2 ++ tail) = number chars := by
  by_cases isWhole : pointLength chars = 0 ∧ powerLength chars = 0 ∧ realSigil chars = 0
  · have length : (number chars).2 = wholeLength chars + wholeSigil chars := by rw [number_parts, if_pos isWhole]
    rw [length, whole_number_cut stops isWhole]
  · have length : (number chars).2 = realLength chars + realSigil chars := by rw [number_parts, if_neg isWhole]
    rw [length, real_number_cut stops isWhole]

theorem number_within : (number chars).2 ≤ chars.length := by
  have whole : wholeLength chars ≤ chars.length := run_le
  have ending : wholeSigil chars ≤ _ := one_le
  have real := @real_within chars
  have realEnding : realSigil chars ≤ _ := one_le
  rw [List.length_drop] at ending realEnding
  rw [number_parts]
  split <;> dsimp only <;> omega

end Numbers

section Words

variable {chars tail : List Char}

theorem rest_of_line_cut : restOfLine (chars.take (restOfLine chars) ++ tail) = restOfLine chars + restOfLine tail := by
  have inside : ∀ char ∈ chars.takeWhile (· != '\n'), (char != '\n') = true :=
    fun char isInside => List.all_eq_true.mp List.all_takeWhile char isInside
  have line : chars.take (restOfLine chars) = chars.takeWhile (· != '\n') := take_run _ _
  rw [line, restOfLine, run, List.takeWhile_append_of_pos inside, List.length_append]
  rfl

theorem rest_of_line_blank : restOfLine (' ' :: tail) = restOfLine tail + 1 := run_cons rfl

theorem quoted_cut {length : Nat} (stops : Stops tail) (closes : quotedLength chars = (length, true)) :
    quotedLength (chars.take length ++ tail) = (length, true) ∧ length ≤ chars.length := by
  fun_induction quotedLength chars generalizing length with
  | case1 => cases closes
  | case2 rest read closed isRead ih =>
    obtain ⟨rfl, rfl⟩ := Prod.mk.inj closes
    obtain ⟨again, within⟩ := ih isRead
    refine ⟨?_, by simpa using within⟩
    rw [List.take_succ_cons, List.take_succ_cons, List.cons_append, List.cons_append, quotedLength, again]
  | case3 rest noQuote =>
    obtain ⟨rfl, -⟩ := Prod.mk.inj closes
    refine ⟨?_, by simp⟩
    obtain rfl | ⟨further, rfl⟩ := stops.cases <;> rfl
  | case4 => cases closes
  | case5 char rest noPair noQuote noBreak read closed isRead ih =>
    obtain ⟨rfl, rfl⟩ := Prod.mk.inj closes
    obtain ⟨again, within⟩ := ih isRead
    refine ⟨?_, by simpa using within⟩
    rw [List.take_succ_cons, List.cons_append, quotedLength, again]
    · exact fun _ quotes _ => noQuote quotes
    · exact noQuote
    · exact noBreak

def radixDigits (radix : Nat) (chars : List Char) : Nat :=
  run (isDigitOf radix) chars + one (· == '&') (chars.drop (run (isDigitOf radix) chars))

theorem radix_digits_within {radix : Nat} : radixDigits radix chars ≤ chars.length := by
  have digits : run (isDigitOf radix) chars ≤ _ := run_le
  have sign : one (· == '&') (chars.drop (run (isDigitOf radix) chars)) ≤ _ := one_le
  rw [List.length_drop] at sign
  unfold radixDigits
  omega

def radixLiteral? (kind : TokenKind) (radix : Nat) (digits : List Char) : Option (TokenKind × Nat) :=
  let count := run (isDigitOf radix) digits
  if count = 0 then none else some (kind, 2 + count + one (· == '&') (digits.drop count))

theorem radix_parts (mark : Char) (digits : List Char) : radixNumber? (mark :: digits) =
    match mark.toUpper with
    | 'H' => radixLiteral? .hexLiteral 16 digits
    | 'O' => radixLiteral? .octalLiteral 8 digits
    | 'B' => radixLiteral? .binaryLiteral 2 digits
    | _ => none := rfl

theorem radix_literal_cut {kind found : TokenKind} {radix length : Nat} (blank : isDigitOf radix ' ' = false)
    (stops : Stops tail) (isFound : radixLiteral? kind radix chars = some (found, length)) :
    length = radixDigits radix chars + 2 ∧
      radixLiteral? kind radix (chars.take (radixDigits radix chars) ++ tail) = some (found, length) := by
  have least : run (isDigitOf radix) chars ≤ radixDigits radix chars := Nat.le_add_right _ _
  have digits := run_cut blank stops least
  have sign : one (· == '&') ((chars.take (radixDigits radix chars) ++ tail).drop (run (isDigitOf radix) chars)) =
      one (· == '&') (chars.drop (run (isDigitOf radix) chars)) := by
    rw [drop_cut least run_le]
    refine one_cut rfl stops (Nat.le_of_eq ?_)
    rw [radixDigits, Nat.add_sub_cancel_left]
  unfold radixLiteral? at isFound ⊢
  dsimp only at isFound ⊢
  rw [digits, sign]
  refine ⟨?_, isFound⟩
  split at isFound
  · cases isFound
  · obtain ⟨-, rfl⟩ := Prod.mk.inj (Option.some.inj isFound)
    rw [radixDigits]
    omega

theorem radix_cut {kind : TokenKind} {length : Nat} (stops : Stops tail)
    (found : radixNumber? chars = some (kind, length)) :
    radixNumber? (chars.take (length - 1) ++ tail) = some (kind, length) ∧ length ≤ chars.length + 1 := by
  cases chars with
  | nil => cases found
  | cons mark digits =>
    rw [radix_parts] at found
    have whole {radix : Nat} (isLength : length = radixDigits radix digits + 2) :
        (mark :: digits).take (length - 1) ++ tail = mark :: (digits.take (radixDigits radix digits) ++ tail) ∧
          length ≤ (mark :: digits).length + 1 := by
      have within := @radix_digits_within digits radix
      subst isLength
      exact ⟨rfl, by rw [List.length_cons]; omega⟩
    split at found
    all_goals first | contradiction | skip
    all_goals
      obtain ⟨isLength, again⟩ := radix_literal_cut rfl stops found
      obtain ⟨cut, within⟩ := whole isLength
      refine ⟨?_, within⟩
      rw [cut, radix_parts]
      simp only [*]

def remarkLength (chars : List Char) : Nat :=
  match chars with
  | next :: rest => if isLineBlank next then 1 + restOfLine rest else 0
  | [] => 0

theorem remark_within : remarkLength chars ≤ chars.length := by
  unfold remarkLength
  split
  · next next rest =>
    have line : restOfLine rest ≤ rest.length := run_le
    rw [List.length_cons]
    split <;> omega
  · exact Nat.zero_le _

theorem remark_stops (stops : Stops tail) : remarkLength tail = restOfLine tail := by
  obtain rfl | ⟨further, rfl⟩ := stops.cases
  · rfl
  · rw [rest_of_line_blank, Nat.add_comm]
    rfl

theorem remark_cut (stops : Stops tail) :
    remarkLength (chars.take (remarkLength chars) ++ tail) = remarkLength chars + restOfLine tail := by
  cases chars with
  | nil => simpa [remarkLength] using remark_stops stops
  | cons next rest =>
    by_cases blank : isLineBlank next = true
    · have length : remarkLength (next :: rest) = restOfLine rest + 1 := by
        rw [remarkLength, if_pos blank, Nat.add_comm]
      rw [length, List.take_succ_cons, List.cons_append, remarkLength, if_pos blank, rest_of_line_cut]
      omega
    · have length : remarkLength (next :: rest) = 0 := by rw [remarkLength, if_neg blank]
      rw [length, List.take_zero, List.nil_append, remark_stops stops, Nat.zero_add]

def wordKind (spelled : List Char) : TokenKind :=
  match Keyword.ofWord? (String.ofList spelled) with
  | some keyword => .keyword keyword
  | none => .identifier

theorem word_parts (chars : List Char) : word chars =
    if one isSigil (chars.drop (run isWordChar chars)) = 1 then (.identifier, run isWordChar chars + 1)
    else if Text.upperAscii (String.ofList (chars.take (run isWordChar chars))) = "REM" then
      (.remComment, run isWordChar chars + remarkLength (chars.drop (run isWordChar chars)))
    else (wordKind (chars.take (run isWordChar chars)), run isWordChar chars) := by
  unfold word wordKind remarkLength
  dsimp only
  grind

theorem word_kind_no_remark (spelled : List Char) : (wordKind spelled).isRemark = false := by
  unfold wordKind
  split <;> rfl

theorem word_cut (stops : Stops tail) : (word chars).2 ≤ chars.length ∧
    word (chars.take (word chars).2 ++ tail) =
      ((word chars).1, (word chars).2 + if (word chars).1.isRemark then restOfLine tail else 0) := by
  have plain : run isWordChar chars ≤ chars.length := run_le
  have sigilWithin : one isSigil (chars.drop (run isWordChar chars)) ≤ _ := one_le
  rw [List.length_drop] at sigilWithin
  have cut (more : Nat) : run isWordChar (chars.take (run isWordChar chars + more) ++ tail) = run isWordChar chars ∧
      (chars.take (run isWordChar chars + more) ++ tail).take (run isWordChar chars) =
        chars.take (run isWordChar chars) ∧
      (chars.take (run isWordChar chars + more) ++ tail).drop (run isWordChar chars) =
        (chars.drop (run isWordChar chars)).take more ++ tail := by
    refine ⟨run_cut rfl stops (Nat.le_add_right _ _), take_cut (Nat.le_add_right _ _) plain, ?_⟩
    rw [drop_cut (Nat.le_add_right _ _) plain, Nat.add_sub_cancel_left]
  by_cases sigil : one isSigil (chars.drop (run isWordChar chars)) = 1
  · have isWord : word chars = (.identifier, run isWordChar chars + 1) := by rw [word_parts, if_pos sigil]
    obtain ⟨again, -, behind⟩ := cut 1
    have ending : one isSigil ((chars.drop (run isWordChar chars)).take 1 ++ tail) = 1 :=
      (one_cut rfl stops (Nat.le_of_eq sigil)).trans sigil
    rw [isWord]
    refine ⟨by omega, ?_⟩
    rw [word_parts, again, behind, if_pos ending]
    rfl
  have single : one isSigil (chars.drop (run isWordChar chars)) ≤ 1 := one_le_one
  have noSigil (more : Nat) : ¬one isSigil ((chars.drop (run isWordChar chars)).take more ++ tail) = 1 := by
    rwa [one_cut rfl stops (by omega)]
  by_cases remark : Text.upperAscii (String.ofList (chars.take (run isWordChar chars))) = "REM"
  · have isWord : word chars =
        (.remComment, run isWordChar chars + remarkLength (chars.drop (run isWordChar chars))) := by
      rw [word_parts, if_neg sigil, if_pos remark]
    obtain ⟨again, same, behind⟩ := cut (remarkLength (chars.drop (run isWordChar chars)))
    have within := @remark_within (chars.drop (run isWordChar chars))
    rw [List.length_drop] at within
    rw [isWord]
    refine ⟨by omega, ?_⟩
    rw [word_parts, again, same, behind, if_neg (noSigil _), if_pos remark, remark_cut stops, Nat.add_assoc]
    rfl
  · have isWord : word chars = (wordKind (chars.take (run isWordChar chars)), run isWordChar chars) := by
      rw [word_parts, if_neg sigil, if_neg remark]
    obtain ⟨again, same, behind⟩ := cut 0
    rw [isWord]
    refine ⟨plain, ?_⟩
    rw [Nat.add_zero] at again same behind
    rw [word_parts, again, same, behind, if_neg (noSigil 0), if_neg remark]
    simp [word_kind_no_remark]

end Words

section Again

variable {char : Char} {rest tail : List Char}

theorem first_of_letter (letter : isLetter char = true) :
    first char rest = (.token (word (char :: rest)).1, (word (char :: rest)).2) := by
  have noGap : ¬(isLineBlank char || char == '\r') = true := by
    intro blank
    simp only [isLineBlank, Bool.or_eq_true, beq_iff_eq] at blank
    obtain (rfl | rfl) | rfl := blank <;> exact absurd letter (by decide)
  have noBreak : ¬char = '\n' := by
    rintro rfl
    exact absurd letter (by decide)
  unfold first
  dsimp only
  rw [if_neg noGap, if_neg noBreak, if_pos letter]

theorem first_of_digit (starts : isDigit char = true ∨ char = '.' ∧ one isDigit rest = 1) :
    first char rest = (.token (number (char :: rest)).1, (number (char :: rest)).2) := by
  have noGap : ¬(isLineBlank char || char == '\r') = true := by
    intro blank
    simp only [isLineBlank, Bool.or_eq_true, beq_iff_eq] at blank
    obtain (rfl | rfl) | rfl := blank <;> exact absurd starts (by simp; decide)
  have noBreak : ¬char = '\n' := by
    rintro rfl
    exact absurd starts (by simp; decide)
  have noLetter : ¬isLetter char = true := by
    intro letter
    rcases starts with digit | ⟨rfl, -⟩
    · simp only [isDigit, isLetter, Char.le_def, UInt32.le_iff_toNat_le, Bool.and_eq_true, Bool.or_eq_true,
        decide_eq_true_eq] at digit letter
      have bounds : '9'.val.toNat = 57 ∧ 'A'.val.toNat = 65 ∧ 'a'.val.toNat = 97 := ⟨rfl, rfl, rfl⟩
      omega
    · exact absurd letter (by decide)
  have isNumber : (isDigit char || (char == '.' && one isDigit rest == 1)) = true := by simpa using starts
  unfold first
  dsimp only
  rw [if_neg noGap, if_neg noBreak, if_neg noLetter, if_pos isNumber]

theorem first_of_quote : first '"' rest =
    (if (quotedLength rest).2 then .token .stringLiteral else .unterminated, (quotedLength rest).1 + 1) := rfl

theorem first_of_apostrophe : first '\'' rest = (.token .comment, 1 + restOfLine rest) := rfl

theorem first_of_sign {kind : TokenKind} {length : Nat} (found : radixNumber? rest = some (kind, length)) :
    first '&' rest = (.token kind, length) := by
  simp only [first, found]
  rfl

theorem first_of_symbol {symbol : Symbol} (stops : Stops tail) : ∃ mark more, symbol.spelling.toList = mark :: more ∧
    first mark (more ++ tail) = (.token (.symbol symbol), symbol.spelling.length) := by
  obtain rfl | ⟨further, rfl⟩ := stops.cases <;> cases symbol <;> exact ⟨_, _, rfl, rfl⟩

theorem symbol_found {chars : List Char} {symbol : Symbol} (found : Symbol.longest? chars = some symbol) :
    ∃ further, chars = symbol.spelling.toList ++ further := by
  have begins (length : Nat) (isFound : (Symbol.all.find? fun symbol =>
      symbol.spelling.length == length && symbol.spelling.toList.isPrefixOf chars) = some symbol) :
      ∃ further, chars = symbol.spelling.toList ++ further := by
    have holds := List.find?_some isFound
    rw [Bool.and_eq_true] at holds
    obtain ⟨further, same⟩ := List.isPrefixOf_iff_prefix.mp holds.2
    exact ⟨further, same.symm⟩
  unfold Symbol.longest? at found
  dsimp only at found
  rcases two : Symbol.all.find? (fun symbol =>
    symbol.spelling.length == 2 && symbol.spelling.toList.isPrefixOf chars) with _ | long
  · rw [two] at found
    exact begins 1 found
  · rw [two] at found
    exact begins 2 (two.trans found)

theorem cut_cons {length : Nat} (positive : 0 < length) :
    (char :: rest).take length ++ tail = char :: (rest.take (length - 1) ++ tail) := by
  obtain ⟨more, rfl⟩ := Nat.exists_eq_add_one_of_ne_zero (Nat.ne_of_gt positive)
  rfl

theorem digit_after_point (digit : one isDigit rest = 1) : 1 < (number ('.' :: rest)).2 := by
  have whole : wholeLength ('.' :: rest) = 0 := rfl
  have point : pointLength ('.' :: rest) = 1 := rfl
  have some : fractionLength ('.' :: rest) = run isDigit rest := rfl
  have digits : 0 < run isDigit rest := by
    cases rest with
    | nil => cases digit
    | cons next further =>
      have isDigit : isDigit next = true := by
        unfold one at digit
        split at digit <;> simp_all
      exact run_cons isDigit ▸ Nat.succ_pos _
  rw [number_parts, if_neg (by omega), realLength]
  dsimp only
  omega

theorem reads_again {kind : TokenKind} {length : Nat} (stops : Stops tail) (reads : Reads char rest (.token kind) length) :
    length ≤ rest.length + 1 ∧ first char (rest.take (length - 1) ++ tail) =
      (.token kind, length + if kind.isRemark then restOfLine tail else 0) := by
  have positive := reads.length_pos
  -- One case for each kind of token: its pattern stops at the same place whatever admissible text follows.
  cases reads with
  | newline breaks =>
    subst breaks
    exact ⟨Nat.le_add_left _ _, rfl⟩
  | word letter =>
    obtain ⟨within, again⟩ := @word_cut (char :: rest) tail stops
    rw [cut_cons positive] at again
    exact ⟨within, by rw [first_of_letter letter, again]⟩
  | number starts =>
    have again := @number_cut (char :: rest) tail stops
    rw [cut_cons positive] at again
    have startsAgain : isDigit char = true ∨
        char = '.' ∧ one isDigit (rest.take ((number (char :: rest)).2 - 1) ++ tail) = 1 := by
      refine starts.imp_right fun ⟨point, digit⟩ => ⟨point, ?_⟩
      have long := digit_after_point digit
      subst point
      rwa [one_cut rfl stops (by omega)]
    have noRemark : (number (char :: rest)).1.isRemark = false := by
      rcases number_kind (char :: rest) with same | same <;> rw [same] <;> rfl
    refine ⟨number_within, ?_⟩
    rw [first_of_digit startsAgain, again, noRemark]
    rfl
  | quoted quotes closes =>
    subst quotes
    obtain ⟨again, within⟩ := quoted_cut stops closes
    refine ⟨Nat.succ_le_succ within, ?_⟩
    rw [Nat.add_sub_cancel, first_of_quote, again]
    rfl
  | comment remarks =>
    subst remarks
    have line : restOfLine rest ≤ rest.length := run_le
    refine ⟨by omega, ?_⟩
    rw [Nat.add_sub_cancel_left, first_of_apostrophe, rest_of_line_cut, Nat.add_assoc]
    rfl
  | radix marks found =>
    subst marks
    obtain ⟨again, within⟩ := radix_cut stops found
    have noRemark : kind.isRemark = false := by
      obtain rfl | rfl | rfl := radix_kind found <;> rfl
    refine ⟨within, ?_⟩
    rw [first_of_sign again, noRemark]
    rfl
  | @symbol symbol found noNumber =>
    obtain ⟨further, split⟩ := symbol_found found
    obtain ⟨mark, more, isMark, again⟩ := @first_of_symbol tail symbol stops
    have size : symbol.spelling.length = more.length + 1 := by
      rw [← String.length_toList, isMark, List.length_cons]
    rw [isMark, List.cons_append] at split
    obtain ⟨rfl, rfl⟩ := List.cons.inj split
    refine ⟨by rw [size, List.length_append]; omega, ?_⟩
    rw [size, Nat.add_sub_cancel, List.take_left, again, size]
    rfl

end Again

end Lexeme

end BasicLang
