import BasicLang.Proofs.Lexing.Coverage
import Mathlib.Data.List.Induction

set_option autoImplicit false

namespace BasicLang

namespace Locus

def Before (early late : Locus) : Prop :=
  early.line < late.line ∨ early.line = late.line ∧ early.column < late.column

instance : DecidableRel Before := fun early late =>
  inferInstanceAs (Decidable (early.line < late.line ∨ early.line = late.line ∧ early.column < late.column))

variable {first second third : Locus}

theorem Before.trans (early : first.Before second) (late : second.Before third) : first.Before third := by
  unfold Before at *
  omega

theorem before_irrefl (locus : Locus) : ¬locus.Before locus := by
  unfold Before
  omega

theorem before_after (locus : Locus) (char : Char) : locus.Before (locus.after char) := by
  unfold after
  split
  · exact .inl (Nat.lt_succ_self _)
  · exact .inr ⟨rfl, Nat.lt_add_of_pos_right char.utf8Size_pos⟩

theorem behind_more {before more : List Char} (some : more ≠ []) :
    (Locus.behind before).Before (Locus.behind (before ++ more)) := by
  induction more using List.reverseRecOn with
  | nil => exact absurd rfl some
  | append_singleton more char ih =>
    have next : (Locus.behind (before ++ more)).Before (Locus.behind (before ++ (more ++ [char]))) := by
      rw [← List.append_assoc, behind_snoc]
      exact before_after _ char
    by_cases none : more = []
    · simpa [none] using next
    · exact (ih none).trans next

end Locus

theorem byte_of_char {char : Char} {byte : UInt8} (inside : byte ∈ String.utf8EncodeChar char) :
    byte.toNat = char.toNat ∨ 128 ≤ byte.toNat := by
  unfold String.utf8EncodeChar at inside
  rw [Char.toNat]
  generalize char.val.toNat = code at *
  dsimp only at inside
  split at inside
  · obtain rfl := List.mem_singleton.mp inside
    rw [UInt8.toNat_ofNat']
    omega
  · right
    split at inside
    · simp only [List.mem_cons, List.not_mem_nil, or_false] at inside
      rcases inside with rfl | rfl <;> rw [UInt8.toNat_ofNat'] <;> omega
    · split at inside
      · simp only [List.mem_cons, List.not_mem_nil, or_false] at inside
        rcases inside with rfl | rfl | rfl <;> rw [UInt8.toNat_ofNat'] <;> omega
      · simp only [List.mem_cons, List.not_mem_nil, or_false] at inside
        rcases inside with rfl | rfl | rfl | rfl <;> rw [UInt8.toNat_ofNat'] <;> omega

namespace LineIndex

section Searching

structure Splits (starts : Array Nat) (offset count : Nat) : Prop where
  within : count ≤ starts.size
  upTo_iff : ∀ index start, starts[index]? = some start → (start ≤ offset ↔ index < count)

def upTo : Searched → Nat
  | .found index => index + 1
  | .missing next => next

variable {starts : Array Nat} {offset count : Nat}

theorem sorted_lt (sorted : starts.toList.Pairwise (· < ·)) {index later start next : Nat}
    (isStart : starts[index]? = some start) (isNext : starts[later]? = some next) (before : index < later) :
    start < next := by
  obtain ⟨inside, rfl⟩ := Array.getElem?_eq_some_iff.mp isStart
  obtain ⟨nextInside, rfl⟩ := Array.getElem?_eq_some_iff.mp isNext
  exact List.pairwise_iff_getElem.mp sorted index later inside nextInside before

theorem search_splits (sorted : starts.toList.Pairwise (· < ·)) {low high : Nat} {within : high ≤ starts.size}
    (ordered : low ≤ high) (below : ∀ index start, starts[index]? = some start → index < low → start < offset)
    (above : ∀ index start, starts[index]? = some start → high ≤ index → offset < start) :
    Splits starts offset (upTo (search starts offset low high within)) := by
  -- All starts below `low` are before the offset and all from `high` on behind it; the halves keep both bounds.
  fun_induction search starts offset low high within with
  | case1 low high within more middle inside same =>
    have isMiddle : starts[middle]? = some offset := Array.getElem?_eq_some_iff.mpr ⟨inside, same⟩
    refine ⟨inside, fun index start isStart => ⟨fun least => ?_, fun before => ?_⟩⟩
    · by_contra behind
      have less := sorted_lt sorted isMiddle isStart (Nat.lt_of_succ_le (Nat.not_lt.mp behind))
      omega
    · rcases Nat.lt_succ_iff_lt_or_eq.mp before with earlier | rfl
      · exact Nat.le_of_lt (sorted_lt sorted isStart isMiddle earlier)
      · rw [isMiddle] at isStart
        exact Nat.le_of_eq (Option.some.inj isStart).symm
  | case2 low high within more middle inside different less ih =>
    have isMiddle : starts[middle]? = some starts[middle] := Array.getElem?_eq_getElem inside
    refine ih (by omega) (fun index start isStart before => ?_) above
    rcases Nat.lt_succ_iff_lt_or_eq.mp before with earlier | rfl
    · exact Nat.lt_trans (sorted_lt sorted isStart isMiddle earlier) less
    · rw [isMiddle] at isStart
      exact Option.some.inj isStart ▸ less
  | case3 low high within more middle inside different notLess ih =>
    have isMiddle : starts[middle]? = some starts[middle] := Array.getElem?_eq_getElem inside
    have greater : offset < starts[middle] := by omega
    refine ih (by omega) below fun index start isStart behind => ?_
    rcases Nat.eq_or_lt_of_le behind with rfl | later
    · rw [isMiddle] at isStart
      exact Option.some.inj isStart ▸ greater
    · exact Nat.lt_trans greater (sorted_lt sorted isMiddle isStart later)
  | case4 low high within none =>
    obtain rfl : low = high := by omega
    refine ⟨within, fun index start isStart => ⟨fun least => ?_, fun before => Nat.le_of_lt (below _ _ isStart before)⟩⟩
    by_contra behind
    exact absurd (above index start isStart (Nat.not_lt.mp behind)) (Nat.not_lt.mpr least)

theorem count_of_splits (splits : Splits starts offset count) : starts.toList.countP (· ≤ offset) = count := by
  have entry {index start : Nat} (isStart : starts.toList[index]? = some start) : start ≤ offset ↔ index < count :=
    splits.upTo_iff index start (by rwa [← Array.getElem?_toList])
  rw [← List.take_append_drop count starts.toList, List.countP_append]
  have early : (starts.toList.take count).countP (· ≤ offset) = count := by
    rw [List.countP_eq_length.mpr, List.length_take, Array.length_toList, Nat.min_eq_left splits.within]
    intro start inside
    obtain ⟨index, isStart⟩ := List.getElem?_of_mem inside
    rw [List.getElem?_take] at isStart
    split at isStart
    · next before => simpa using (entry isStart).mpr before
    · cases isStart
  have late : (starts.toList.drop count).countP (· ≤ offset) = 0 := by
    rw [List.countP_eq_zero]
    intro start inside
    obtain ⟨index, isStart⟩ := List.getElem?_of_mem inside
    rw [List.getElem?_drop] at isStart
    simp [entry isStart]
  rw [early, late, Nat.add_zero]

end Searching

section Table

def behindFeeds (base : Nat) (bytes : List UInt8) : List Nat :=
  ((bytes.zipIdx base).filter (·.1 == lineFeed)).map (·.2 + 1)

theorem starts_eq (source : String) :
    (ofSource source).starts.toList = 0 :: behindFeeds 0 source.toUTF8.data.toList := rfl

theorem mem_behind_feeds {bytes : List UInt8} {start : Nat} :
    start ∈ behindFeeds 0 bytes ↔ 0 < start ∧ bytes[start - 1]? = some lineFeed := by
  simp only [behindFeeds, List.mem_map, List.mem_filter, List.mem_zipIdx_iff_getElem?, beq_iff_eq]
  constructor
  · rintro ⟨⟨byte, index⟩, ⟨isByte, rfl⟩, rfl⟩
    exact ⟨Nat.succ_pos _, isByte⟩
  · rintro ⟨positive, isFeed⟩
    exact ⟨(lineFeed, start - 1), ⟨isFeed, rfl⟩, Nat.succ_pred_eq_of_pos positive⟩

theorem behind_feeds_sorted (base : Nat) (bytes : List UInt8) : (behindFeeds base bytes).Pairwise (· < ·) := by
  have indexed : (bytes.zipIdx base).Pairwise fun early late => early.2 < late.2 := by
    rw [← List.pairwise_map, List.zipIdx_map_snd]
    exact List.pairwise_lt_range'
  rw [behindFeeds, List.pairwise_map]
  exact (indexed.filter _).imp Nat.succ_lt_succ

theorem starts_sorted (source : String) : (ofSource source).starts.toList.Pairwise (· < ·) := by
  rw [starts_eq]
  exact .cons (fun start inside => (mem_behind_feeds.mp inside).1) (behind_feeds_sorted 0 _)

theorem count_behind_feeds (base offset : Nat) (bytes : List UInt8) :
    (behindFeeds base bytes).countP (· ≤ base + offset) = (bytes.take offset).count lineFeed := by
  induction bytes generalizing base offset with
  | nil => simp [behindFeeds]
  | cons byte rest ih =>
    cases offset with
    | zero =>
      rw [List.take_zero, List.count_nil, List.countP_eq_zero]
      intro start inside
      obtain ⟨⟨feed, index⟩, kept, rfl⟩ := List.mem_map.mp inside
      have least : base ≤ index := List.le_snd_of_mem_zipIdx (List.mem_filter.mp kept).1
      simpa using Nat.lt_succ_of_le least
    | succ offset =>
      have further := ih (base + 1) offset
      rw [Nat.add_right_comm, Nat.add_assoc] at further
      rw [List.take_succ_cons, List.count_cons, ← further, behindFeeds, List.zipIdx_cons, List.filter_cons]
      by_cases isFeed : byte = lineFeed
      · simp [isFeed, behindFeeds]
      · simp [isFeed, behindFeeds]

end Table

theorem sum_eq_some_iff {number more sum : Nat} : sum? number more = some sum ↔
    number + more < UInt64.size ∧ number + more = sum := by
  rw [sum?, Option.ite_none_right_eq_some, Option.some_inj]

theorem sum_eq_none_iff {number more : Nat} : sum? number more = none ↔ UInt64.size ≤ number + more := by
  rw [sum?, ite_eq_right_iff]
  simp only [reduceCtorEq, imp_false]
  exact Nat.not_lt

theorem difference_eq {number less : Nat} (isLess : less ≤ number) : difference? number less = some (number - less) :=
  if_pos isLess

theorem line_eq (index : LineIndex) (offset : Nat) : index.line? offset =
    difference? (upTo (search index.starts offset 0 index.starts.size (Nat.le_refl _))) 1 := by
  rw [line?]
  cases search index.starts offset 0 index.starts.size (Nat.le_refl _) with
  | found line => exact (difference_eq (Nat.le_add_left 1 line)).symm
  | missing next => rfl

section Places

variable {source : String} {offset start : Nat}

def feedsBefore (source : String) (offset : Nat) : Nat := (source.toUTF8.data.toList.take offset).count lineFeed

end Places

end LineIndex

open LineIndex in
def Locus.ofOffset (source : String) (offset : Nat) : Locus :=
  ⟨feedsBefore source offset + 1, offset - ((ofSource source).starts[feedsBefore source offset]?).getD 0 + 1⟩

namespace LineIndex

section Places

variable {source : String} {offset start : Nat}

theorem searched (source : String) (offset : Nat) :
    Splits (ofSource source).starts offset (feedsBefore source offset + 1) ∧
      (ofSource source).line? offset = some (feedsBefore source offset) := by
  have splits : Splits (ofSource source).starts offset
      (upTo (search (ofSource source).starts offset 0 (ofSource source).starts.size (Nat.le_refl _))) :=
    search_splits (starts_sorted source) (Nat.zero_le _) (fun index start _ before => absurd before (Nat.not_lt_zero index))
      fun index start isStart behind => absurd (Array.getElem?_eq_some_iff.mp isStart).1 (Nat.not_lt.mpr behind)
  have counted := count_of_splits splits
  have feeds := count_behind_feeds 0 offset source.toUTF8.data.toList
  rw [starts_eq, List.countP_cons_of_pos (by simp)] at counted
  rw [Nat.zero_add] at feeds
  rw [line_eq, ← counted, feeds]
  rw [← counted, feeds] at splits
  exact ⟨splits, difference_eq (Nat.le_add_left 1 _)⟩

def IsLineStart (source : String) (offset start : Nat) : Prop :=
  (ofSource source).starts[feedsBefore source offset]? = some start

theorem exists_line_start (source : String) (offset : Nat) : ∃ start, IsLineStart source offset start := by
  obtain ⟨splits, -⟩ := searched source offset
  exact ⟨_, Array.getElem?_eq_getElem splits.within⟩

theorem line_start_le (isStart : IsLineStart source offset start) : start ≤ offset :=
  ((searched source offset).1.upTo_iff _ _ isStart).mpr (Nat.lt_succ_self _)

theorem locus_eq (isStart : IsLineStart source offset start) : (ofSource source).locus? offset =
    (sum? (offset - start) 1).map fun column => ⟨feedsBefore source offset + 1, column⟩ := by
  rw [locus?, (searched source offset).2, Option.bind_eq_bind, Option.bind_some, isStart, Option.bind_some,
    difference_eq (line_start_le isStart), Option.bind_some]
  cases sum? (offset - start) 1 <;> rfl

theorem start_behind_feed (isStart : IsLineStart source offset start) :
    start = 0 ∨ source.toUTF8.data.toList[start - 1]? = some lineFeed := by
  have inside : start ∈ (ofSource source).starts.toList :=
    List.mem_of_getElem? ((Array.getElem?_toList).trans isStart)
  rw [starts_eq, List.mem_cons] at inside
  exact inside.imp_right fun behind => (mem_behind_feeds.mp behind).2

theorem no_feed_behind_start (isStart : IsLineStart source offset start) :
    lineFeed ∉ (source.toUTF8.data.toList.take offset).drop start := by
  intro inside
  obtain ⟨place, isFeed⟩ := List.getElem?_of_mem inside
  rw [List.getElem?_drop, List.getElem?_take] at isFeed
  split at isFeed
  · next before =>
    -- The line behind this line feed would start between the last start and the offset.
    have later : start + place + 1 ∈ (ofSource source).starts.toList := by
      rw [starts_eq]
      exact List.mem_cons_of_mem _ (mem_behind_feeds.mpr ⟨Nat.succ_pos _, isFeed⟩)
    obtain ⟨index, isLater⟩ := List.getElem?_of_mem later
    rw [Array.getElem?_toList] at isLater
    have early := ((searched source offset).1.upTo_iff index _ isLater).mp before
    rcases Nat.lt_succ_iff_lt_or_eq.mp early with earlier | rfl
    · have less := sorted_lt (starts_sorted source) isLater isStart earlier
      omega
    · have same := Option.some.inj (isLater.symm.trans isStart)
      omega
  · cases isFeed

theorem of_offset_eq (isStart : IsLineStart source offset start) :
    Locus.ofOffset source offset = ⟨feedsBefore source offset + 1, offset - start + 1⟩ := by
  rw [Locus.ofOffset, isStart, Option.getD_some]

theorem locus_eq_some_iff {place : Locus} : (ofSource source).locus? offset = some place ↔
    place = Locus.ofOffset source offset ∧ place.column < UInt64.size := by
  obtain ⟨start, isStart⟩ := exists_line_start source offset
  rw [locus_eq isStart, of_offset_eq isStart, Option.map_eq_some_iff]
  constructor
  · rintro ⟨column, isSum, rfl⟩
    obtain ⟨within, rfl⟩ := sum_eq_some_iff.mp isSum
    exact ⟨rfl, within⟩
  · rintro ⟨rfl, within⟩
    exact ⟨_, sum_eq_some_iff.mpr ⟨within, rfl⟩, rfl⟩

theorem feed_between {bytes : List UInt8} {early late : Nat} (before : early < late) (within : late ≤ offset)
    (isFeed : bytes[late - 1]? = some lineFeed) : lineFeed ∈ (bytes.take offset).drop early := by
  refine List.mem_of_getElem? (i := late - 1 - early) ?_
  rw [List.getElem?_drop, Nat.add_sub_cancel' (by omega), List.getElem?_take_of_lt (by omega), isFeed]

theorem line_start_of (least : start ≤ offset)
    (behindFeed : start = 0 ∨ source.toUTF8.data.toList[start - 1]? = some lineFeed)
    (noFeed : lineFeed ∉ (source.toUTF8.data.toList.take offset).drop start) : IsLineStart source offset start := by
  obtain ⟨other, isStart⟩ := exists_line_start source offset
  rcases Nat.lt_trichotomy start other with less | rfl | greater
  · rcases start_behind_feed isStart with rfl | isFeed
    · exact absurd less (Nat.not_lt_zero start)
    · exact absurd (feed_between less (line_start_le isStart) isFeed) noFeed
  · exact isStart
  · rcases behindFeed with rfl | isFeed
    · exact absurd greater (Nat.not_lt_zero other)
    · exact absurd (feed_between greater least isFeed) (no_feed_behind_start isStart)

theorem start_eq_zero_iff (isStart : IsLineStart source offset start) :
    start = 0 ↔ lineFeed ∉ source.toUTF8.data.toList.take offset := by
  constructor
  · rintro rfl
    exact no_feed_behind_start isStart
  · intro noFeed
    have front := line_start_of (Nat.zero_le offset) (.inl rfl) noFeed
    exact Option.some.inj (isStart.symm.trans front)

theorem feeds_before_le (source : String) {earlier later : Nat} (before : earlier ≤ later) :
    feedsBefore source earlier ≤ feedsBefore source later :=
  (List.take_sublist_take_left before).count_le lineFeed

theorem of_offset_before {earlier later : Nat} (before : earlier < later) :
    (Locus.ofOffset source earlier).Before (Locus.ofOffset source later) := by
  obtain ⟨start, isStart⟩ := exists_line_start source earlier
  obtain ⟨next, isNext⟩ := exists_line_start source later
  rw [of_offset_eq isStart, of_offset_eq isNext]
  rcases Nat.eq_or_lt_of_le (feeds_before_le source (Nat.le_of_lt before)) with same | less
  · rw [IsLineStart, ← same] at isNext
    obtain rfl := Option.some.inj (isStart.symm.trans isNext)
    have least := line_start_le isStart
    exact .inr ⟨congrArg Nat.succ same, by dsimp only; omega⟩
  · exact .inl (Nat.succ_lt_succ less)

end Places

end LineIndex

section Bytes

def utf8 (chars : List Char) : List UInt8 := chars.flatMap String.utf8EncodeChar

theorem utf8_of_text (source : String) : source.toUTF8.data.toList = utf8 source.toList := by
  obtain ⟨chars, rfl⟩ : ∃ chars, source = String.ofList chars := ⟨source.toList, String.ofList_toList.symm⟩
  rw [String.toUTF8_eq_toByteArray, String.toByteArray_ofList, String.toList_ofList]
  exact congrArg Array.toList List.data_toByteArray

theorem length_utf8 (chars : List Char) : (utf8 chars).length = byteSize chars := by
  induction chars with
  | nil => rfl
  | cons char rest ih =>
    rw [utf8, List.flatMap_cons, List.length_append, String.length_utf8EncodeChar, byteSize]
    exact congrArg _ ih

theorem feed_in_char_iff {char : Char} : LineIndex.lineFeed ∈ String.utf8EncodeChar char ↔ char = '\n' := by
  constructor
  · intro inside
    rcases byte_of_char inside with same | large
    · exact Char.toNat_inj.mp same.symm
    · exact absurd large (by decide)
  · rintro rfl
    decide

theorem count_feeds (chars : List Char) : (utf8 chars).count LineIndex.lineFeed = chars.count '\n' := by
  induction chars with
  | nil => rfl
  | cons char rest ih =>
    rw [utf8, List.flatMap_cons, List.count_append, List.count_cons, Nat.add_comm]
    refine congr (congrArg _ ih) ?_
    by_cases isBreak : char = '\n'
    · subst isBreak
      decide
    · rw [List.count_eq_zero.mpr (mt feed_in_char_iff.mp isBreak)]
      simp [isBreak]

theorem utf8_append (early late : List Char) : utf8 (early ++ late) = utf8 early ++ utf8 late := List.flatMap_append

theorem byteSize_reverse (chars : List Char) : byteSize chars.reverse = byteSize chars := by
  induction chars with
  | nil => rfl
  | cons char rest ih => rw [List.reverse_cons, byteSize_append, ih, byteSize, byteSize, byteSize, Nat.add_comm]; rfl

theorem last_line (before : List Char) : ∃ head line, before = head ++ line ∧ '\n' ∉ line ∧
    (head = [] ∨ ∃ more, head = more ++ ['\n']) ∧
    Locus.behind before = ⟨before.count '\n' + 1, byteSize line + 1⟩ := by
  refine ⟨(before.reverse.dropWhile (· != '\n')).reverse, (before.reverse.takeWhile (· != '\n')).reverse, ?_, ?_, ?_, ?_⟩
  · rw [← List.reverse_append, List.takeWhile_append_dropWhile, List.reverse_reverse]
  · intro inside
    have passed := List.all_eq_true.mp List.all_takeWhile _ (List.mem_reverse.mp inside)
    simp at passed
  · have stops := List.head?_dropWhile_not (· != '\n') before.reverse
    cases behind : before.reverse.dropWhile (· != '\n') with
    | nil => exact .inl rfl
    | cons first more =>
      rw [behind] at stops
      obtain rfl : first = '\n' := by simpa using stops
      exact .inr ⟨more.reverse, List.reverse_cons⟩
  · rw [byteSize_reverse]
    rfl

theorem line_start_behind {source : String} {head line after : List Char} (whole : source.toList = head ++ line ++ after)
    (noBreak : '\n' ∉ line) (ends : head = [] ∨ ∃ more, head = more ++ ['\n']) :
    LineIndex.IsLineStart source (byteSize (head ++ line)) (byteSize head) := by
  have bytes := utf8_of_text source
  rw [whole, utf8_append] at bytes
  have upTo : (utf8 (head ++ line) ++ utf8 after).take (byteSize (head ++ line)) = utf8 head ++ utf8 line := by
    rw [List.take_left' (length_utf8 _), utf8_append]
  refine LineIndex.line_start_of (by rw [byteSize_append]; exact Nat.le_add_right _ _) ?_ ?_
  · rcases ends with rfl | ⟨more, rfl⟩
    · exact .inl rfl
    · refine .inr ?_
      have size : byteSize (more ++ ['\n']) - 1 = (utf8 more).length := by
        rw [byteSize_append, length_utf8]
        rfl
      rw [bytes, size, utf8_append, utf8_append, List.append_assoc, List.append_assoc,
        List.getElem?_append_right (Nat.le_refl _), Nat.sub_self]
      rfl
  · rw [bytes, upTo, List.drop_left' (length_utf8 head), ← List.count_eq_zero, count_feeds, List.count_eq_zero]
    exact noBreak

theorem of_offset_behind {source : String} {before after : List Char} (whole : source.toList = before ++ after) :
    Locus.ofOffset source (byteSize before) = Locus.behind before := by
  obtain ⟨head, line, rfl, noBreak, ends, behind⟩ := last_line before
  have bytes := utf8_of_text source
  rw [whole, utf8_append] at bytes
  have feeds : LineIndex.feedsBefore source (byteSize (head ++ line)) = (head ++ line).count '\n' := by
    rw [LineIndex.feedsBefore, bytes, List.take_left' (length_utf8 _), count_feeds]
  have isStart := line_start_behind whole noBreak ends
  rw [LineIndex.of_offset_eq isStart, feeds, behind, byteSize_append, Nat.add_sub_cancel_left]

end Bytes

theorem token_place {source : String} {token : Token} (inside : token ∈ (tokenize source).1) :
    token.locus = Locus.ofOffset source token.start := by
  rw [tokenize_parts] at inside
  obtain ⟨part, isPart, isToken⟩ := List.mem_filterMap.mp inside
  obtain ⟨before, after, whole, fits⟩ := part_fits isPart
  cases part <;> cases isToken
  obtain ⟨-, start, -, place⟩ := fits
  rw [place, start, of_offset_behind whole]

section Offsets

variable (source : String)

theorem of_offset_before_iff (earlier later : Nat) :
    (Locus.ofOffset source earlier).Before (Locus.ofOffset source later) ↔ earlier < later := by
  refine ⟨fun before => ?_, LineIndex.of_offset_before⟩
  by_contra behind
  rcases Nat.eq_or_lt_of_le (Nat.not_lt.mp behind) with rfl | less
  · exact Locus.before_irrefl _ before
  · exact Locus.before_irrefl _ (before.trans (LineIndex.of_offset_before less))

theorem of_offset_injective : Function.Injective (Locus.ofOffset source) := by
  intro offset other same
  have notBefore := Locus.before_irrefl (Locus.ofOffset source offset)
  have less := mt (of_offset_before_iff source offset other).mpr (same ▸ notBefore)
  have greater := mt (of_offset_before_iff source other offset).mpr (same ▸ notBefore)
  omega

theorem locus_eq_none_iff {offset : Nat} (isWord : offset < UInt64.size) :
    (LineIndex.ofSource source).locus? offset = none ↔
      offset + 1 = UInt64.size ∧ LineIndex.lineFeed ∉ source.toUTF8.data.toList.take offset := by
  obtain ⟨start, isStart⟩ := LineIndex.exists_line_start source offset
  have least := LineIndex.line_start_le isStart
  rw [← LineIndex.start_eq_zero_iff isStart, LineIndex.locus_eq isStart, Option.map_eq_none_iff,
    LineIndex.sum_eq_none_iff]
  omega

/-- An offset of 64 bits has the line and the column that its line feeds give it, unless its column does not fit a word,
and a later one has a later place. -/
theorem places_of_offsets :
    (∀ offset, ∃ line start distance, (LineIndex.ofSource source).line? offset = some line ∧
      (LineIndex.ofSource source).starts[line]? = some start ∧ LineIndex.difference? offset start = some distance) ∧
    (∀ offset < UInt64.size, (LineIndex.ofSource source).locus? offset = none ↔
      offset + 1 = UInt64.size ∧ LineIndex.lineFeed ∉ source.toUTF8.data.toList.take offset) ∧
    (∀ offset place, (LineIndex.ofSource source).locus? offset = some place →
      place.line = 1 + (source.toUTF8.data.toList.take offset).count LineIndex.lineFeed ∧
      ∃ start ≤ offset, place.column = 1 + (offset - start) ∧
        (start = 0 ∨ source.toUTF8.data.toList[start - 1]? = some LineIndex.lineFeed) ∧
        LineIndex.lineFeed ∉ (source.toUTF8.data.toList.take offset).drop start) ∧
    (∀ earlier later place further, (LineIndex.ofSource source).locus? earlier = some place →
      (LineIndex.ofSource source).locus? later = some further →
        (place.Before further ↔ earlier < later) ∧ (place = further ↔ earlier = later)) := by
  refine ⟨fun offset => ?_, fun offset isWord => locus_eq_none_iff source isWord, fun offset place found => ?_, ?_⟩
  · obtain ⟨start, isStart⟩ := LineIndex.exists_line_start source offset
    exact ⟨_, start, _, (LineIndex.searched source offset).2, isStart,
      LineIndex.difference_eq (LineIndex.line_start_le isStart)⟩
  · obtain ⟨rfl, -⟩ := LineIndex.locus_eq_some_iff.mp found
    obtain ⟨start, isStart⟩ := LineIndex.exists_line_start source offset
    rw [LineIndex.of_offset_eq isStart]
    exact ⟨Nat.add_comm _ _, start, LineIndex.line_start_le isStart, Nat.add_comm _ _,
      LineIndex.start_behind_feed isStart, LineIndex.no_feed_behind_start isStart⟩
  · intro earlier later place further atEarlier atLater
    obtain ⟨rfl, -⟩ := LineIndex.locus_eq_some_iff.mp atEarlier
    obtain ⟨rfl, -⟩ := LineIndex.locus_eq_some_iff.mp atLater
    exact ⟨of_offset_before_iff source earlier later, (of_offset_injective source).eq_iff⟩

end Offsets

theorem place_in_second_line : ∃ place, (LineIndex.ofSource "A\nB").locus? 3 = some place ∧ place.line = 2 := by
  obtain ⟨-, missing, exact_, -⟩ := places_of_offsets "A\nB"
  obtain ⟨place, found⟩ := Option.ne_none_iff_exists'.mp fun none => absurd ((missing 3 (by decide)).mp none).1 (by decide)
  exact ⟨place, found, (exact_ 3 place found).1.trans (by decide +kernel)⟩

theorem no_place_at_last_offset : (LineIndex.ofSource "").locus? (UInt64.size - 1) = none :=
  (locus_eq_none_iff "" (by decide)).mpr ⟨rfl, by simp⟩

end BasicLang
