import BasicLang.Editor.Finding
import BasicLang.Proofs.Lexing.LineIndex

set_option autoImplicit false

namespace BasicLang

namespace Text

variable {chars before after : List Char}

theorem units16_append (early late : List Char) : units16 (early ++ late) = units16 early + units16 late := by
  induction early with
  | nil => simp [units16]
  | cons char rest ih => rw [List.cons_append, units16, units16, ih, Nat.add_assoc]

theorem units16_replicate (count : Nat) : units16 (List.replicate count 'a') = count := by
  induction count with
  | zero => rfl
  | succ count ih => rw [List.replicate_succ, units16, ih, Nat.add_comm]; rfl

theorem length16_eq_of_lt {chars : List Char} (few : units16 chars < UInt32.size) : (length16 chars).toNat = units16 chars :=
  UInt32.toNat_ofNat_of_lt' few

theorem units16_le_of_prefix {front chars : List Char} (isFront : front <+: chars) : units16 front ≤ units16 chars := by
  obtain ⟨rest, rfl⟩ := isFront
  rw [units16_append]
  exact Nat.le_add_right _ _

theorem split_bytes_parts (budget : Nat) (chars : List Char) :
    (splitBytes budget chars).1 ++ (splitBytes budget chars).2 = chars := by
  induction chars generalizing budget with
  | nil => rfl
  | cons char rest ih =>
    rw [splitBytes]
    split
    · exact congrArg (char :: ·) (ih _)
    · rfl

theorem split_bytes_append (before after : List Char) : splitBytes (byteSize before) (before ++ after) = (before, after) := by
  induction before with
  | nil =>
    cases after with
    | nil => rfl
    | cons char rest => exact if_neg (Nat.not_le.mpr char.utf8Size_pos)
  | cons char before ih =>
    rw [List.cons_append, splitBytes, byteSize, if_pos (Nat.le_add_right _ _), Nat.add_sub_cancel_left, ih]

theorem lines_of_unbroken {source : String} (some : source.toList ≠ []) (noBreak : '\n' ∉ source.toList) :
    lines source = [source.toList] := by
  have gathers (chars current : List Char) (inLine : '\n' ∉ chars) (more : chars ≠ [] ∨ current ≠ []) :
      linesFrom chars current = [current.reverse ++ chars] := by
    induction chars generalizing current with
    | nil =>
      obtain ⟨last, front, rfl⟩ := List.exists_cons_of_ne_nil (more.resolve_left (absurd rfl))
      rw [linesFrom, List.append_nil]
      exact nofun
    | cons char rest ih =>
      rw [List.mem_cons, not_or] at inLine
      rw [linesFrom, if_neg (Ne.symm inLine.1), ih _ inLine.2 (.inr (List.cons_ne_nil _ _)), List.reverse_cons,
        List.append_assoc, List.singleton_append]
  exact gathers _ [] noBreak (.inl some)

/-- A line of a source with what ends it: a line feed, maybe behind a carriage return, or the end of the source. -/
def IsLine (chars line : List Char) : Prop :=
  ∃ ending late, chars = line ++ ending ++ late ∧ '\n' ∉ line ∧
    (ending = ['\n'] ∨ ending = ['\r', '\n'] ∨ ending = [] ∧ late = [])

theorem first_line {line current : List Char} (noBreak : '\n' ∉ current)
    (found : (linesFrom chars current)[0]? = some line) : IsLine (current.reverse ++ chars) line := by
  have noBreakBack : '\n' ∉ current.reverse := mt List.mem_reverse.mp noBreak
  -- The induction carries the characters of the line read so far, in reverse and without a line feed.
  induction chars generalizing current with
  | nil =>
    cases current with
    | nil => cases found
    | cons last current =>
      cases found
      exact ⟨[], [], by simp, noBreakBack, .inr (.inr ⟨rfl, rfl⟩)⟩
  | cons char rest ih =>
    rw [linesFrom] at found
    split at found
    · next isBreak =>
      subst isBreak
      cases found
      unfold dropReturn
      split
      · next last current =>
        rw [List.reverse_cons] at noBreakBack ⊢
        exact ⟨['\r', '\n'], rest, by simp, fun inside => noBreakBack (List.mem_append_left _ inside), .inr (.inl rfl)⟩
      · exact ⟨['\n'], rest, by simp, noBreakBack, .inl rfl⟩
    · next inLine =>
      have stillNone : '\n' ∉ char :: current := by
        rw [List.mem_cons]
        exact not_or.mpr ⟨Ne.symm inLine, noBreak⟩
      have further := ih stillNone found (mt List.mem_reverse.mp stillNone)
      rwa [List.reverse_cons, List.append_assoc] at further

theorem lines_behind (head tail current : List Char) (starts : head = [] → current = [])
    (ends : ∀ last ∈ head.getLast?, last = '\n') :
    (linesFrom (head ++ tail) current)[head.count '\n']? = (linesFrom tail [])[0]? := by
  induction head generalizing current with
  | nil => rw [starts rfl]; rfl
  | cons char head ih =>
    have endsBehind : ∀ last ∈ head.getLast?, last = '\n' := fun last isLast => ends last (by
      rw [Option.mem_def] at isLast ⊢
      rw [List.getLast?_cons, isLast]
      rfl)
    rw [List.cons_append, linesFrom]
    split
    · next isBreak =>
      subst isBreak
      rw [List.count_cons_self, List.getElem?_cons_succ]
      exact ih [] (fun _ => rfl) endsBehind
    · next inLine =>
      rw [List.count_cons_of_ne inLine]
      refine ih (char :: current) (fun nothing => ?_) endsBehind
      subst nothing
      exact absurd (ends char rfl) inLine

end Text

namespace Range

theorem covered_front (chars : List Char) : covered chars <+: chars := by
  unfold covered
  dsimp only
  split
  · exact List.take_prefix 1 chars
  · exact List.takeWhile_prefix _

/-- A word at the front of some characters, with no more characters of words behind it, or else one character. -/
def IsWordOrOne (chars shown : List Char) : Prop :=
  ∃ further, chars = shown ++ further ∧
    (shown ≠ [] ∧ (∀ char ∈ shown, isWordChar char = true) ∧ (∀ next ∈ further.head?, isWordChar next = false) ∨
      ∃ char, shown = [char] ∧ isWordChar char = false)

theorem covered_word {chars : List Char} (some : chars ≠ []) : IsWordOrOne chars (covered chars) := by
  obtain ⟨first, rest, rfl⟩ := List.exists_cons_of_ne_nil some
  unfold covered
  cases isWord : isWordChar first with
  | true =>
    have word : (first :: rest).takeWhile isWordChar ≠ [] := by simp [isWord]
    dsimp only
    rw [if_neg (by simpa using word)]
    refine ⟨(first :: rest).dropWhile isWordChar, List.takeWhile_append_dropWhile.symm, .inl ⟨word, ?_, ?_⟩⟩
    · exact fun char inside => List.all_eq_true.mp List.all_takeWhile char inside
    · intro next isNext
      have stops := List.head?_dropWhile_not isWordChar (first :: rest)
      rw [Option.mem_def.mp isNext] at stops
      simpa using stops
  | false =>
    dsimp only
    rw [List.takeWhile_cons_of_neg (by simp [isWord]), List.isEmpty_nil, if_pos rfl]
    exact ⟨rest, rfl, .inr ⟨first, rfl, isWord⟩⟩

variable {lines : List (List Char)} {line before rest : List Char} {locus : Locus}

theorem of_locus_missing (missing : lines[locus.line - 1]? = none) : ofLocus lines locus =
    ⟨⟨UInt32.ofNat (locus.line - 1), 0⟩, ⟨UInt32.ofNat (locus.line - 1), 0⟩⟩ := by
  rw [ofLocus, missing]

theorem of_locus_found (found : lines[locus.line - 1]? = some line)
    (split : Text.splitBytes (locus.column - 1) line = (before, rest)) : ofLocus lines locus =
      ⟨⟨UInt32.ofNat (locus.line - 1), Text.length16 before⟩,
        ⟨UInt32.ofNat (locus.line - 1), Text.length16 (before ++ covered rest)⟩⟩ := by
  rw [ofLocus, found]
  dsimp only
  rw [split]

theorem of_locus_cuts (found : lines[locus.line - 1]? = some line) : ∃ before shown after,
    line = before ++ shown ++ after ∧
      (ofLocus lines locus).start = ⟨UInt32.ofNat (locus.line - 1), Text.length16 before⟩ ∧
      (ofLocus lines locus).stop = ⟨UInt32.ofNat (locus.line - 1), Text.length16 (before ++ shown)⟩ := by
  rcases split : Text.splitBytes (locus.column - 1) line with ⟨before, rest⟩
  have parts := Text.split_bytes_parts (locus.column - 1) line
  obtain ⟨after, shows⟩ := covered_front rest
  rw [of_locus_found found split]
  rw [split] at parts
  exact ⟨before, covered rest, after, by rw [List.append_assoc, shows, parts], rfl, rfl⟩

end Range

def startsOf (source : String) : List Locus :=
  (tokenize source).1.map Token.locus ++ (tokenize source).2.map LexError.locus

theorem starts_behind {source : String} {locus : Locus} (starts : locus ∈ startsOf source) :
    ∃ before after, source.toList = before ++ after ∧ locus = Locus.behind before := by
  rw [startsOf, tokenize_parts, List.mem_append] at starts
  rcases starts with isToken | isError
  · obtain ⟨token, inside, rfl⟩ := List.mem_map.mp isToken
    obtain ⟨part, isPart, same⟩ := List.mem_filterMap.mp inside
    obtain ⟨before, after, whole, fits⟩ := part_fits isPart
    cases part <;> cases same
    exact ⟨before, _, whole, fits.2.2.2⟩
  · obtain ⟨error, inside, rfl⟩ := List.mem_map.mp isError
    obtain ⟨part, isPart, same⟩ := List.mem_filterMap.mp inside
    obtain ⟨before, after, whole, fits⟩ := part_fits isPart
    cases part <;> cases same
    exact ⟨before, _, whole, fits.2⟩

namespace Range

/-- How a range shows a place in a line of a source: it starts behind the text before the place in that line, and ends
behind the word there. -/
structure Shows (source : String) (locus : Locus) (line : List Char) (range : Range)
    (early before rest late shown : List Char) : Prop where
  source_eq : source.toList = early ++ before ++ rest ++ late
  line_start : early = [] ∨ ∃ more, early = more ++ ['\n']
  place : locus = Locus.ofOffset source (byteSize (early ++ before))
  line_eq : line = before ++ rest
  word : IsWordOrOne rest shown
  start_line : range.start.line.toNat = locus.line - 1
  start_character : range.start.character.toNat = Text.units16 before
  stop_character : range.stop.character.toNat = Text.units16 (before ++ shown)

theorem line_cut {source : String} {head before after line : List Char} (whole : source.toList = head ++ before ++ after)
    (ends : head = [] ∨ ∃ more, head = more ++ ['\n']) (noBreak : '\n' ∉ before)
    (found : (Text.lines source)[(head ++ before).count '\n']? = some line) (inside : byteSize before < byteSize line) :
    ∃ rest late, line = before ++ rest ∧ rest ≠ [] ∧ source.toList = head ++ before ++ rest ++ late := by
  have lastBreak : ∀ last ∈ head.getLast?, last = '\n' := by
    rcases ends with rfl | ⟨more, rfl⟩
    · simp
    · simp
  rw [Text.lines, whole, List.count_append, List.count_eq_zero.mpr noBreak, Nat.add_zero, List.append_assoc,
    Text.lines_behind head (before ++ after) [] (fun _ => rfl) lastBreak] at found
  obtain ⟨ending, late, split, -, -⟩ := Text.first_line List.not_mem_nil found
  rw [List.reverse_nil, List.nil_append, List.append_assoc] at split
  -- The line and the text before the place both start behind the same line feed.
  have isFront : before <+: line := by
    refine List.prefix_of_prefix_length_le (List.prefix_append before after) (split ▸ List.prefix_append line _) ?_
    by_contra longer
    obtain ⟨more, isMore⟩ := List.prefix_of_prefix_length_le (split ▸ List.prefix_append line _)
      (List.prefix_append before after) (Nat.le_of_not_le longer)
    rw [← isMore, byteSize_append] at inside
    omega
  obtain ⟨rest, rfl⟩ := isFront
  refine ⟨rest, ending ++ late, rfl, ?_, ?_⟩
  · rintro rfl
    rw [List.append_nil] at inside
    exact absurd inside (Nat.lt_irrefl _)
  · rw [whole, List.append_assoc, split]
    simp only [List.append_assoc]

theorem of_locus_shows {source : String} {locus : Locus} {line : List Char} (few : locus.line ≤ UInt32.size)
    (short : Text.units16 line < UInt32.size) (starts : locus ∈ startsOf source)
    (found : (Text.lines source)[locus.line - 1]? = some line) (inside : locus.column - 1 < byteSize line) :
    ∃ early before rest late shown,
      Shows source locus line (ofLocus (Text.lines source) locus) early before rest late shown := by
  obtain ⟨read, after, whole, rfl⟩ := starts_behind starts
  -- The locus is that of the characters read before the token, whose last line is cut from the text behind it.
  have place := of_offset_behind whole
  obtain ⟨head, before, rfl, noBreak, ends, behind⟩ := last_line read
  have isNumber : (UInt32.ofNat ((Locus.behind (head ++ before)).line - 1)).toNat =
      (Locus.behind (head ++ before)).line - 1 :=
        UInt32.toNat_ofNat_of_lt' (Nat.sub_one_lt_of_le (by rw [behind]; exact Nat.succ_pos _) few)
  rw [behind] at found inside
  obtain ⟨rest, late, rfl, some, parts⟩ := line_cut whole ends noBreak found inside
  have cut : Text.splitBytes ((Locus.behind (head ++ before)).column - 1) (before ++ rest) = (before, rest) := by
    rw [behind]
    exact Text.split_bytes_append before rest
  rw [← behind] at found
  rw [of_locus_found found cut]
  have front : before ++ covered rest <+: before ++ rest := List.prefix_append_right_inj before |>.mpr (covered_front rest)
  have least := Text.units16_le_of_prefix (List.prefix_append before rest)
  have most := Text.units16_le_of_prefix front
  exact ⟨head, before, rest, late, covered rest, parts, ends, place.symm, rfl, covered_word some, isNumber,
    Text.length16_eq_of_lt (Nat.lt_of_le_of_lt least short), Text.length16_eq_of_lt (Nat.lt_of_le_of_lt most short)⟩

end Range

/-- A range is a part of one line, whatever the place is, and at the start of a token or of an error in a line it shows
the word there. The numbers of lines, and of the units in a line, are told where 32 bits are enough for them. -/
theorem ranges_are_faithful (source : String) (locus : Locus) :
    let range := Range.ofLocus (Text.lines source) locus
    range.stop.line = range.start.line ∧ (locus.line ≤ UInt32.size → range.start.line.toNat = locus.line - 1) ∧
    ((Text.lines source)[locus.line - 1]? = none → range.stop.character = range.start.character) ∧
    (∀ line, (Text.lines source)[locus.line - 1]? = some line → Text.units16 line < UInt32.size →
      range.start.character ≤ range.stop.character ∧ range.stop.character.toNat ≤ Text.units16 line ∧
      ∃ before shown after, line = before ++ shown ++ after ∧
        range.start.character.toNat = Text.units16 before ∧
        range.stop.character.toNat = Text.units16 (before ++ shown)) ∧
    (∀ line, (Text.lines source)[locus.line - 1]? = some line → Text.units16 line < UInt32.size → locus.line ≤ UInt32.size →
      locus ∈ startsOf source → locus.column - 1 < byteSize line →
        ∃ early before rest late shown, Range.Shows source locus line range early before rest late shown) := by
  have numbered : (Range.ofLocus (Text.lines source) locus).start.line = UInt32.ofNat (locus.line - 1) ∧
      (Range.ofLocus (Text.lines source) locus).stop.line = UInt32.ofNat (locus.line - 1) := by
    cases found : (Text.lines source)[locus.line - 1]? with
    | none =>
      rw [Range.of_locus_missing found]
      exact ⟨rfl, rfl⟩
    | some line =>
      obtain ⟨before, shown, after, -, start, stop⟩ := Range.of_locus_cuts found
      exact ⟨congrArg Position.line start, congrArg Position.line stop⟩
  refine ⟨numbered.2.trans numbered.1.symm, fun few => ?_, fun missing => ?_, fun line found short => ?_,
    fun line found short few starts inside => Range.of_locus_shows few short starts found inside⟩
  · rw [numbered.1]
    exact UInt32.toNat_ofNat_of_lt' (by unfold UInt32.size at few ⊢; omega)
  · rw [Range.of_locus_missing missing]
  · obtain ⟨before, shown, after, rfl, start, stop⟩ := Range.of_locus_cuts found
    have least := Text.units16_le_of_prefix (List.prefix_append before shown)
    have most := Text.units16_le_of_prefix (List.prefix_append (before ++ shown) after)
    rw [start, stop, UInt32.le_iff_toNat_le, Text.length16_eq_of_lt (by omega), Text.length16_eq_of_lt (by omega)]
    exact ⟨least, most, before, shown, after, rfl, rfl, rfl⟩

/-- The word behind characters of several bytes, where an error starts. -/
theorem accented_word_shown :
    let source := "x$ = \"😀\" + é1%\r\n"
    let line := "x$ = \"😀\" + é1%".toList
    let range := Range.ofLocus (Text.lines source) ⟨1, 15⟩
    (Text.lines source)[0]? = some line ∧ (⟨1, 15⟩ : Locus) ∈ startsOf source ∧ 14 < byteSize line ∧
      range = ⟨⟨0, 12⟩, ⟨0, 15⟩⟩ ∧ range.stop.character.toNat ≤ Text.units16 line ∧
      ∃ early before rest late shown, Range.Shows source ⟨1, 15⟩ line range early before rest late shown := by
  intro source line range
  have found : (Text.lines source)[0]? = some line := by decide +kernel
  have starts : (⟨1, 15⟩ : Locus) ∈ startsOf source := by decide +kernel
  have inside : 14 < byteSize line := by decide +kernel
  have short : Text.units16 line < UInt32.size := by decide +kernel
  obtain ⟨-, -, -, within, shows⟩ := ranges_are_faithful source ⟨1, 15⟩
  exact ⟨found, starts, inside, by decide +kernel, (within line found short).2.1,
    shows line found short (by decide) starts inside⟩

theorem long_word_shown {count : Nat} (some : 0 < count) :
    Range.ofLocus (Text.lines (String.ofList (List.replicate count 'a'))) ⟨1, 2⟩ = ⟨⟨0, 1⟩, ⟨0, UInt32.ofNat count⟩⟩ := by
  obtain ⟨more, rfl⟩ := Nat.exists_eq_add_one.mpr some
  have chars : (String.ofList (List.replicate (more + 1) 'a')).toList = ['a'] ++ List.replicate more 'a' := by
    rw [String.toList_ofList]
    rfl
  have found : (Text.lines (String.ofList (List.replicate (more + 1) 'a')))[0]? =
      Option.some (['a'] ++ List.replicate more 'a') := by
    rw [Text.lines_of_unbroken (by rw [chars]; exact List.cons_ne_nil _ _) (by simp [chars]), chars]
    rfl
  have word : Range.covered (List.replicate more 'a') = List.replicate more 'a' := by
    have all : (List.replicate more 'a').takeWhile Range.isWordChar = List.replicate more 'a' := by
      rw [List.takeWhile_replicate_eq_filter, List.filter_replicate_of_pos (by decide +kernel)]
    rw [Range.covered, all]
    cases more <;> rfl
  have units : Text.length16 (['a'] ++ List.replicate more 'a') = UInt32.ofNat (more + 1) :=
    congrArg UInt32.ofNat (Text.units16_replicate (more + 1))
  have split : Text.splitBytes 1 (['a'] ++ List.replicate more 'a') = (['a'], List.replicate more 'a') :=
    Text.split_bytes_append ['a'] _
  rw [@Range.of_locus_found _ _ _ _ ⟨1, 2⟩ found split, word, units]
  rfl

/-- In a line of `UInt32.size` units the units up to the end of a word are too many to be told, and the word would end in front
of its start. -/
theorem long_line_shown_backwards :
    let range := Range.ofLocus (Text.lines (String.ofList (List.replicate 4294967296 'a'))) ⟨1, 2⟩
    ¬range.start.character ≤ range.stop.character := by
  rw [long_word_shown (by decide)]
  decide

end BasicLang
