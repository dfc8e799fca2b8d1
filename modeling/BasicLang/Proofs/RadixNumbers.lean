import BasicLang.Proofs.Lexing.Rejoining
import BasicLang.Proofs.Machine.Iteration
import BasicLang.Proofs.Number.ExactNumbers

set_option autoImplicit false

namespace BasicLang

def TokenKind.isRadix : TokenKind → Bool
  | .hexLiteral | .octalLiteral | .binaryLiteral => true
  | _ => false

structure Token.Denotes (token : Token) (letter : Char) (digits : List Char) : Prop where
  isRadix : token.kind.isRadix = true
  text : token.text.toList = '&' :: letter :: digits
  names : radixOf? letter.toUpper = some (radixOfKind token.kind)
  nonempty : digits ≠ []
  areDigits : ∀ digit ∈ digits, isDigitOf (radixOfKind token.kind) digit = true

section Lexing

variable {kind found : TokenKind} {radix : Nat} {chars : List Char}

theorem radix_literal_digits (whole : Lexeme.radixLiteral? kind radix chars = some (found, chars.length + 2))
    (noSigil : chars.getLast? ≠ some '&') :
    found = kind ∧ chars ≠ [] ∧ ∀ digit ∈ chars, isDigitOf radix digit = true := by
  unfold Lexeme.radixLiteral? at whole
  dsimp only at whole
  split at whole
  · cases whole
  · next least =>
    obtain ⟨rfl, length⟩ := Prod.mk.inj (Option.some.inj whole)
    have parts : chars.takeWhile (isDigitOf radix) ++ chars.dropWhile (isDigitOf radix) = chars :=
      List.takeWhile_append_dropWhile
    have lengths := congrArg List.length parts
    rw [Lexeme.drop_run] at length
    rw [List.length_append] at lengths
    change 2 + (chars.takeWhile (isDigitOf radix)).length + _ = _ at length
    have none : chars.dropWhile (isDigitOf radix) = [] := by
      rcases behind : chars.dropWhile (isDigitOf radix) with _ | ⟨next, further⟩
      · rfl
      · rw [behind] at parts length lengths
        by_cases sigil : (next == '&') = true
        · obtain rfl : further = [] := by
            rw [← List.length_eq_zero_iff]
            simp only [Lexeme.one, sigil, if_true, List.length_cons] at length lengths
            omega
          rw [← parts, beq_iff_eq.mp sigil, List.getLast?_append] at noSigil
          exact absurd rfl noSigil
        · simp only [Lexeme.one, sigil, List.length_cons] at length lengths
          simp only [Bool.false_eq_true, if_false] at length
          omega
    rw [none, List.append_nil] at parts
    refine ⟨rfl, ?_, List.takeWhile_eq_self_iff.mp parts⟩
    rintro rfl
    exact least rfl

theorem last_of_cons {char : Char} (noSigil : (char :: chars).getLast? ≠ some '&') : chars.getLast? ≠ some '&' := by
  intro sigil
  rw [List.getLast?_cons, sigil] at noSigil
  exact noSigil rfl

theorem radix_number_digits (whole : Lexeme.radixNumber? chars = some (found, chars.length + 1))
    (noSigil : chars.getLast? ≠ some '&') :
    ∃ letter digits, chars = letter :: digits ∧ found.isRadix = true ∧ radixOf? letter.toUpper = some (radixOfKind found) ∧
      digits ≠ [] ∧ ∀ digit ∈ digits, isDigitOf (radixOfKind found) digit = true := by
  cases chars with
  | nil => cases whole
  | cons letter digits =>
    have last := last_of_cons noSigil
    rw [Lexeme.radix_parts] at whole
    refine ⟨letter, digits, rfl, ?_⟩
    split at whole
    · next letterH =>
      obtain ⟨rfl, some, all⟩ := radix_literal_digits whole last
      exact ⟨rfl, by rw [letterH]; rfl, some, all⟩
    · next letterO =>
      obtain ⟨rfl, some, all⟩ := radix_literal_digits whole last
      exact ⟨rfl, by rw [letterO]; rfl, some, all⟩
    · next letterB =>
      obtain ⟨rfl, some, all⟩ := radix_literal_digits whole last
      exact ⟨rfl, by rw [letterB]; rfl, some, all⟩
    · cases whole

theorem word_no_radix (chars : List Char) : (Lexeme.word chars).1.isRadix = false := by
  rw [Lexeme.word_parts]
  split
  · rfl
  split
  · rfl
  · unfold Lexeme.wordKind
    split <;> rfl

theorem token_denotes {source : String} {token : Token} (isToken : token ∈ (tokenize source).1)
    (isRadix : token.kind.isRadix = true) (noSigil : token.text.toList.getLast? ≠ some '&') :
    ∃ letter digits, token.Denotes letter digits := by
  have isWord : token.word ∈ wordsOf source.toList := tokenize_words source ▸ List.mem_map_of_mem isToken
  -- Found again where its text stands alone, the token takes all of it.
  obtain ⟨char, more, isText, -, -, reads⟩ := source_found _ _ isWord
  have read := token_reads (reads [] (by simp [Lexeme.Stops]))
  change token.text.toList = _ at isText
  change Lexeme.Reads char (more ++ []) (.token token.kind) (token.text.toList.length + if _ then 0 else 0) at read
  rw [ite_self, List.append_nil, isText] at read
  rw [isText] at noSigil
  change Lexeme.Reads char more (.token token.kind) (more.length + 1) at read
  generalize isKind : token.kind = kind, isLength : more.length + 1 = length at read
  rw [isKind] at isRadix
  cases read with
  | newline | quoted | comment | symbol => cases isRadix
  | word => exact absurd isRadix (by rw [word_no_radix]; decide)
  | number => rcases Lexeme.number_kind (char :: more) with same | same <;> rw [same] at isRadix <;> cases isRadix
  | radix marks found =>
    subst marks isLength
    obtain ⟨letter, digits, rfl, radixed, names, some, all⟩ := radix_number_digits found (last_of_cons noSigil)
    exact ⟨letter, digits, by rw [isKind]; exact radixed, isText, by rw [isKind]; exact names, some, by rw [isKind]; exact all⟩

end Lexing

def Token.pattern (token : Token) : Nat := ofDigits (radixOfKind token.kind) (token.text.toList.drop 2)

/-- The number that an expression has for a pattern, in two's complement of 16 bits or else of 32. -/
def signedPattern (pattern : Nat) : Int :=
  if pattern < 2 ^ 16 then (pattern : Int).bmod (2 ^ 16) else (pattern : Int).bmod (2 ^ 32)

def Token.expressionNumber? (token : Token) : Option Float :=
  match Literal.ofToken? token with
  | some (.ok literal) => literal.value.toDouble?
  | _ => none

def Token.IsReadAs (token : Token) (ty : Ty) (number : Float) : Prop :=
  ∀ (σ : Type) (setup : Setup σ) (machine : Machine σ) (cell : Cell) (rest : List StackItem),
    machine.stack = .reference cell :: rest → cell < machine.store.size → machine.store.ty cell = ty →
    machine.image.data[machine.nextData]? = some (DataItem.ofTokens [token]).value →
    ∃ after, (Run.execute setup .read).on machine = (.ok (), after) ∧ (after.store.read cell).toDouble? = some number

theorem of_digits_some {radix : Nat} {digits : List Char} (nonempty : digits ≠ [])
    (areDigits : ∀ digit ∈ digits, isDigitOf radix digit = true) (short : ofDigits radix digits < 2 ^ 63) :
    ofDigits? radix digits = some (ofDigits radix digits) := by
  rw [ofDigits?, List.all_eq_true.mpr areDigits, List.isEmpty_eq_false_iff.mpr nonempty]
  exact if_pos short

theorem upper_digit (radix : Nat) (char : Char) : digitValue? radix char.toUpper = digitValue? radix char := by
  by_cases lower : 'a'.toNat ≤ char.toNat ∧ char.toNat ≤ 'z'.toNat
  · obtain ⟨least, most⟩ := lower
    change 97 ≤ char.toNat at least
    change char.toNat ≤ 122 at most
    rw [← Char.ofNat_toNat char]
    generalize char.toNat = code at least most
    interval_cases code <;> rfl
  · have kept : char.toUpper = char := dif_neg lower
    rw [kept]

theorem upper_digits (radix : Nat) (digits : List Char) : ofDigits radix (digits.map Char.toUpper) = ofDigits radix digits := by
  simp only [ofDigits, List.foldl_map, upper_digit]

section Meanings

variable {token : Token} {letter : Char} {digits : List Char} (denotes : token.Denotes letter digits)
include denotes

theorem Token.Denotes.pattern_eq : token.pattern = ofDigits (radixOfKind token.kind) digits := by
  rw [Token.pattern, denotes.text]
  rfl

theorem Token.Denotes.no_sigil {digit : Char} (inside : digit ∈ digits) : digit ≠ '&' := by
  rintro rfl
  have isDigit := denotes.areDigits _ inside
  rw [isDigitOf, digitValue?] at isDigit
  simp at isDigit

theorem Token.Denotes.split_text : splitSigil ['&'] token.text = (token.text.toList, none) := by
  have reversed : token.text.toList.reverse = digits.reverse ++ [letter, '&'] := by
    rw [denotes.text]
    simp
  rcases behind : digits.reverse with _ | ⟨last, before⟩
  · exact absurd (List.reverse_eq_nil_iff.mp behind) denotes.nonempty
  · have noSigil : last ≠ '&' := by
      refine denotes.no_sigil (List.mem_reverse.mp ?_)
      rw [behind]
      exact List.mem_cons_self
    rw [splitSigil, reversed, behind]
    simp [noSigil]

theorem Token.Denotes.literal_of_token : Literal.ofToken? token =
    some (if token.pattern < 2 ^ 16 then .ok (.integer (Int16.ofNat token.pattern).toInt)
      else if token.pattern < 2 ^ 32 then .ok (.long (Int32.ofNat token.pattern).toInt)
      else if token.pattern < 2 ^ 64 then .error .longOverflow
      else .error .radixOverflow) := by
  have ofRadix : Literal.ofToken? token = some (Literal.ofRadix (radixOfKind token.kind) token.text) := by
    have isRadix := denotes.isRadix
    unfold Literal.ofToken?
    cases kind : token.kind <;> rw [kind] at isRadix <;> first | rfl | cases isRadix
  have value : ofDigits (radixOfKind token.kind) (token.text.toList.drop 2) = token.pattern := rfl
  rw [ofRadix, Literal.ofRadix, denotes.split_text]
  dsimp only
  rw [value]
  simp only [Option.isNone_none, true_and]
  congr 1
  split_ifs <;> first | rfl | omega

theorem Token.Denotes.data_of_tokens (short : token.pattern < 2 ^ 63) : DataItem.ofTokens [token] = .integer token.pattern := by
  have isRadix := denotes.isRadix
  have digitsOnly : (token.text.toList.drop 2).filter (· != '&') = digits := by
    rw [denotes.text]
    exact List.filter_eq_self.mpr fun digit inside => bne_iff_ne.mpr (denotes.no_sigil inside)
  have read : ofDigits? (radixOfKind token.kind) ((token.text.toList.drop 2).filter (· != '&')) = some token.pattern := by
    rw [digitsOnly, denotes.pattern_eq]
    exact of_digits_some denotes.nonempty denotes.areDigits (denotes.pattern_eq ▸ short)
  have number : DataItem.number? token = some (.integer token.pattern) := by
    unfold DataItem.number?
    cases kind : token.kind <;> rw [kind] at isRadix read <;> try cases isRadix
    all_goals
      dsimp only
      rw [read]
      rfl
  have noText : token.kind ≠ .stringLiteral := by
    intro text
    rw [text] at isRadix
    cases isRadix
  rw [DataItem.ofTokens, if_neg noText, DataItem.signedNumber?, number]
  rfl

theorem Token.Denotes.chars_of_text :
    (token.text.toList.filter fun char => char ≠ ' ' ∧ char ≠ '\t').map Char.toUpper =
      '&' :: letter.toUpper :: digits.map Char.toUpper := by
  have noBlank : ∀ char ∈ token.text.toList, char ≠ ' ' ∧ char ≠ '\t' := by
    rw [denotes.text, List.forall_mem_cons, List.forall_mem_cons]
    refine ⟨by decide, ?_, fun digit inside => ?_⟩
    · have names := denotes.names
      constructor <;> rintro rfl <;> cases names
    · have isDigit := denotes.areDigits digit inside
      constructor <;> rintro rfl <;> simp [isDigitOf, digitValue?] at isDigit
  rw [List.filter_eq_self.mpr (by simpa using noBlank), denotes.text]
  rfl

theorem Token.Denotes.prefix_of_text (short : token.pattern < 2 ^ 63) :
    numberPrefix token.text = Double.ofInt token.pattern := by
  have all : ∀ digit ∈ digits.map Char.toUpper, isDigitOf (radixOfKind token.kind) digit = true := by
    intro digit inside
    obtain ⟨plain, isPlain, rfl⟩ := List.mem_map.mp inside
    rw [isDigitOf, upper_digit]
    exact denotes.areDigits plain isPlain
  have same : ofDigits (radixOfKind token.kind) (digits.map Char.toUpper) = token.pattern := by
    rw [upper_digits, denotes.pattern_eq]
  have nonempty : digits.map Char.toUpper ≠ [] := List.map_eq_nil_iff.not.mpr denotes.nonempty
  unfold numberPrefix
  simp only [denotes.chars_of_text, denotes.names, List.takeWhile_eq_self_iff.mpr all,
    of_digits_some nonempty all (same ▸ short), same]
  rfl

end Meanings

section Readings

variable {pattern : Nat}

theorem signed_short (short : pattern < 2 ^ 16) : (Int16.ofNat pattern).toInt = signedPattern pattern := by
  rw [signedPattern, if_pos short]
  exact Int16.toInt_ofNat'

theorem signed_long (long : ¬pattern < 2 ^ 16) : (Int32.ofNat pattern).toInt = signedPattern pattern := by
  rw [signedPattern, if_neg long]
  exact Int32.toInt_ofNat'

theorem signed_iff (bits : pattern < 2 ^ 32) :
    signedPattern pattern = pattern ↔ pattern < 2 ^ 15 ∨ 2 ^ 16 ≤ pattern ∧ pattern < 2 ^ 31 := by
  rw [signedPattern]
  split_ifs with short <;> simp only [Int.bmod_def] <;> omega

theorem integer_value (number : Int16) : (Literal.integer number.toInt).value = .integer number := by
  have least := number.le_toInt
  have most := number.toInt_lt
  rw [Literal.value, if_pos (by omega), Int16.ofInt_toInt]

theorem long_value (number : Int32) : (Literal.long number.toInt).value = .long number := by
  have least := number.le_toInt
  have most := number.toInt_lt
  rw [Literal.value, Value.ofWide, if_pos (by omega), Int32.ofInt_toInt]

theorem data_number (pattern : Nat) : (DataItem.integer pattern).value.toDouble? = some (Double.ofInt pattern) := by
  rw [DataItem.value]
  split_ifs with short
  · exact congrArg (fun number => some (Double.ofInt number)) (Int16.toInt_ofInt_of_le (by omega) (by omega))
  · rfl

end Readings

namespace Run

variable {σ : Type} {setup : Setup σ} {machine : Machine σ} {rest : List StackItem} {cell : Cell} {value item : Value}

theorem on_next_datum (datum : machine.image.data[machine.nextData]? = some value) :
    (nextDatum : Run σ Value).on machine = (.ok value, { machine with nextData := machine.nextData + 1 }) := by
  rw [nextDatum, on_seq (on_get machine), datum]
  rfl

theorem on_read_datum (top : machine.stack = .reference cell :: rest)
    (datum : machine.image.data[machine.nextData]? = some value) (noText : machine.store.ty cell ≠ .string)
    (present : machine.store.ty cell ≠ .null) (converted : (machine.store.ty cell).convert value = .ok item) :
    (execute setup .read).on machine = (.ok (), { machine with
      stack := rest, nextData := machine.nextData + 1, store := machine.store.write cell item }) := by
  have same : datumFor (machine.store.ty cell) value = value := by
    unfold datumFor
    split <;> first | rfl | exact absurd ‹_› noText
  rw [execute, readDatum, on_seq (on_pop_reference top),
    on_seq (@on_next_datum _ { machine with stack := rest } _ datum), on_seq (on_get _)]
  dsimp only
  rw [same]
  exact on_store present converted

end Run

section OneMeaning

variable {token : Token} {letter : Char} {digits : List Char} (denotes : token.Denotes letter digits)
include denotes

theorem Token.Denotes.expression_number : token.expressionNumber? =
    if token.pattern < 2 ^ 32 then some (Double.ofInt (signedPattern token.pattern)) else none := by
  rw [expressionNumber?, denotes.literal_of_token]
  split_ifs with short long long wide <;> try omega
  · dsimp only
    rw [integer_value, Value.toDouble?, signed_short short]
  · dsimp only
    rw [long_value, Value.toDouble?, signed_long short]
  all_goals rfl

theorem Token.Denotes.read_number {ty : Ty} {item : Value} {number : Float} (short : token.pattern < 2 ^ 63)
    (converted : ty.convert (DataItem.integer token.pattern).value = .ok item) (isNumber : item.toDouble? = some number)
    (scalar : item.isScalar = true) (noText : ty ≠ .string) (present : ty ≠ .null) : token.IsReadAs ty number := by
  intro σ setup machine cell rest top below isTy datum
  rw [denotes.data_of_tokens short] at datum
  subst isTy
  refine ⟨_, Run.on_read_datum top datum noText present converted, ?_⟩
  rw [Store.read_plain ((Store.content_written below scalar cell).trans (if_pos rfl)), isNumber]

theorem Token.Denotes.read_long (short : token.pattern < 2 ^ 53) :
    token.IsReadAs .long (Double.ofInt ((token.pattern : Int).bmod (2 ^ 32))) := by
  have whole : Double.toInt (Double.roundToEven (Double.ofInt token.pattern)) = token.pattern := Double.to_int_of_int short
  have converted : Ty.long.convert (DataItem.integer token.pattern).value = .ok (.long (Int32.ofInt token.pattern)) := by
    rw [Ty.convert, data_number]
    dsimp only
    rw [Double.toLong, whole]
  exact denotes.read_number (by omega) converted (congrArg (some <| Double.ofInt ·) Int32.toInt_ofInt) rfl (by simp) (by simp)

theorem Token.Denotes.read_double (short : token.pattern < 2 ^ 63) :
    token.IsReadAs .double (Double.ofInt token.pattern) := by
  have number := data_number token.pattern
  have converted : Ty.double.convert (DataItem.integer token.pattern).value = .ok (.double (Double.ofInt token.pattern)) := by
    rw [DataItem.value] at number ⊢
    split_ifs at number ⊢ with small
    · rw [Ty.convert, number]
      intro single same
      cases same
    · rfl
  exact denotes.read_number short converted rfl rfl (by simp) (by simp)

end OneMeaning

/-- The number that the text is in an expression, that `READ` takes from it and that `VAL` finds in it are the same. -/
def Token.HasOneMeaning (token : Token) : Prop :=
  ∃ number, token.expressionNumber? = some number ∧ token.IsReadAs .long number ∧ token.IsReadAs .double number ∧
    numberPrefix token.text = number

/-- A radix number that an expression takes means the same everywhere unless its pattern is a negative number. -/
theorem radix_number_has_one_meaning_iff {source : String} {token : Token} {number : Float}
    (isToken : token ∈ (tokenize source).1) (isRadix : token.kind.isRadix = true)
    (noSigil : token.text.toList.getLast? ≠ some '&') (accepted : token.expressionNumber? = some number) :
    token.HasOneMeaning ↔ token.pattern < 2 ^ 15 ∨ 2 ^ 16 ≤ token.pattern ∧ token.pattern < 2 ^ 31 := by
  obtain ⟨letter, digits, denotes⟩ := token_denotes isToken isRadix noSigil
  have inExpression := denotes.expression_number
  have bits : token.pattern < 2 ^ 32 := by
    by_contra long
    rw [inExpression, if_neg long] at accepted
    cases accepted
  rw [if_pos bits] at inExpression
  have inText := denotes.prefix_of_text (by omega)
  rw [← signed_iff bits]
  constructor
  · rintro ⟨found, expressed, -, -, read⟩
    rw [inExpression] at expressed
    rw [inText, ← Option.some.inj expressed] at read
    refine (Double.of_int_injective ?_ ?_ read).symm
    · omega
    · rw [signedPattern]
      split_ifs <;> rw [Int.bmod_def] <;> omega
  · intro same
    rw [same] at inExpression
    have wrapped : (token.pattern : Int).bmod (2 ^ 32) = token.pattern := by
      rw [signed_iff bits] at same
      rw [Int.bmod_def]
      omega
    have inLong := denotes.read_long (by omega)
    rw [wrapped] at inLong
    exact ⟨_, inExpression, inLong, denotes.read_double (by omega), inText⟩

/-- The largest positive number of 16 bits means the same everywhere. -/
theorem largest_integer_has_one_meaning : ∃ token ∈ (tokenize "DATA &H7FFF").1,
    token.kind.isRadix = true ∧ token.text = "&H7FFF" ∧ token.expressionNumber? = some (Double.ofInt 32767) ∧
      token.HasOneMeaning := by
  have second : (tokenize "DATA &H7FFF").1[1]? = some ⟨.hexLiteral, "&H7FFF", 5, 11, ⟨1, 6⟩⟩ := by cbv
  have isToken := List.mem_of_getElem? second
  have isPattern : (⟨.hexLiteral, "&H7FFF", 5, 11, ⟨1, 6⟩⟩ : Token).pattern = 32767 := by decide
  have accepted : (⟨.hexLiteral, "&H7FFF", 5, 11, ⟨1, 6⟩⟩ : Token).expressionNumber? = some (Double.ofInt 32767) := rfl
  refine ⟨_, isToken, rfl, rfl, accepted, ?_⟩
  exact (radix_number_has_one_meaning_iff isToken rfl (by decide) accepted).mpr (by rw [isPattern]; decide)

/-- The largest pattern of 16 bits is -1 in an expression and 65535 elsewhere. -/
theorem largest_pattern_has_two_meanings : ∃ token ∈ (tokenize "DATA &HFFFF").1,
    token.kind.isRadix = true ∧ token.text = "&HFFFF" ∧ token.expressionNumber? = some (Double.ofInt (-1)) ∧
      token.IsReadAs .long (Double.ofInt 65535) ∧ token.IsReadAs .double (Double.ofInt 65535) ∧
      numberPrefix token.text = Double.ofInt 65535 ∧ ¬token.HasOneMeaning := by
  have second : (tokenize "DATA &HFFFF").1[1]? = some ⟨.hexLiteral, "&HFFFF", 5, 11, ⟨1, 6⟩⟩ := by cbv
  have isToken := List.mem_of_getElem? second
  obtain ⟨letter, digits, denotes⟩ := token_denotes isToken rfl (by decide)
  have isPattern : (⟨.hexLiteral, "&HFFFF", 5, 11, ⟨1, 6⟩⟩ : Token).pattern = 65535 := by decide
  have expressed := denotes.expression_number
  have inText := denotes.prefix_of_text (by rw [isPattern]; decide)
  have inLong := denotes.read_long (by rw [isPattern]; decide)
  have inDouble := denotes.read_double (by rw [isPattern]; decide)
  rw [isPattern] at expressed inText inLong inDouble
  refine ⟨_, isToken, rfl, rfl, expressed, inLong, inDouble, inText, ?_⟩
  rintro ⟨number, same, -, -, read⟩
  rw [expressed] at same
  rw [inText, ← Option.some.inj same] at read
  cases Double.of_int_injective (by decide) (by decide) read

end BasicLang
