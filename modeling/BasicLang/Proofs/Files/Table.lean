import BasicLang.Machine.State
import Mathlib.Data.List.Perm.Basic

set_option autoImplicit false

namespace BasicLang

def Flush.extend (flush : Flush) (text : String) : Flush := { flush with contents := flush.contents ++ text }

theorem Flush.extend_nothing (flush : Flush) : flush.extend "" = flush := by
  rw [Flush.extend, String.append_empty]

theorem Flush.extend_extend (flush : Flush) (first second : String) :
    (flush.extend first).extend second = flush.extend (first ++ second) := by
  simp only [Flush.extend, String.append_assoc]

namespace FileTable

def isWritable (files : FileTable) (number : Int) : Bool := (files.get? number).any fun file => !file.isInput

def Ordered (files : FileTable) : Prop := files.Pairwise fun entry other => entry.1 < other.1

def dues (files : FileTable) : List (Int × Flush) := files.filterMap fun (number, file) => file.flush?.map (number, ·)

variable {files before after : FileTable} {number : Int} {file : OpenFile}

theorem flushes_dues (files : FileTable) : files.dues.map Prod.snd = files.flushes := by
  induction files with
  | nil => rfl
  | cons entry rest ih =>
    obtain ⟨number, file⟩ := entry
    cases same : file.flush? <;> simpa [dues, flushes, same] using ih

theorem dues_nil : FileTable.dues [] = [] := rfl

theorem dues_of_flushes {files : FileTable} {flushes : List Flush} (all : flushes.Perm files.flushes) :
    ∃ closed : List (Int × Flush), closed.map Prod.snd = flushes ∧ closed.Perm files.dues := by
  have numbered : List.Forall₂ (fun flush due => flush = due.2) files.flushes files.dues := by
    rw [← flushes_dues, List.forall₂_map_left_iff, List.forall₂_same]
    exact fun _ _ => rfl
  obtain ⟨closed, same, others⟩ := List.perm_comp_forall₂ all numbered
  rw [← List.forall₂_map_right_iff, List.forall₂_eq_eq_eq] at same
  exact ⟨closed, same.symm, others⟩

theorem dues_append (before after : FileTable) :
    FileTable.dues (before ++ after) = before.dues ++ after.dues := List.filterMap_append

theorem dues_cons (number : Int) (file : OpenFile) (rest : FileTable) :
    FileTable.dues ((number, file) :: rest) = (file.flush?.map (number, ·)).toList ++ rest.dues := by
  cases same : file.flush? <;> simp [dues, same]

theorem dues_number {due : Int × Flush} (isDue : due ∈ files.dues) : ∃ file, (due.1, file) ∈ files := by
  obtain ⟨⟨number, file⟩, inside, flushes⟩ := List.mem_filterMap.mp isDue
  obtain ⟨flush, -, rfl⟩ := Option.map_eq_some_iff.mp flushes
  exact ⟨file, inside⟩

theorem get_none (absent : ∀ entry ∈ files, entry.1 ≠ number) : files.get? number = none := by
  rw [get?, List.lookup_eq_none_iff]
  intro entry inside
  simpa using (absent entry inside).symm

structure Place (files : FileTable) (number : Int) (before after : FileTable) : Prop where
  below : ∀ entry ∈ before, entry.1 < number
  above : ∀ entry ∈ after, number < entry.1
  split : files = before ++ ((files.get? number).map (number, ·)).toList ++ after
  set : ∀ file, files.set number file = before ++ (number, file) :: after
  erase : files.erase number = before ++ after

theorem Ordered.place (ordered : files.Ordered) (number : Int) : ∃ before after, files.Place number before after := by
  induction files with
  | nil => exact ⟨[], [], by simp, by simp, rfl, fun _ => rfl, rfl⟩
  | cons entry rest ih =>
    obtain ⟨key, old⟩ := entry
    obtain ⟨larger, others⟩ := List.pairwise_cons.mp ordered
    rcases Int.lt_trichotomy number key with less | rfl | greater
    · have above : ∀ entry ∈ (key, old) :: rest, number < entry.1 := by
        refine List.forall_mem_cons.mpr ⟨less, fun entry inside => ?_⟩
        exact Int.lt_trans less (larger entry inside)
      have absent : FileTable.get? ((key, old) :: rest) number = none :=
        get_none fun entry inside => (Int.ne_of_lt (above entry inside)).symm
      refine ⟨[], (key, old) :: rest, by simp, above, by rw [absent]; rfl, fun file => ?_, ?_⟩
      · rw [FileTable.set, if_pos less]
        rfl
      · refine List.filter_eq_self.mpr fun entry inside => ?_
        simpa using (Int.ne_of_lt (above entry inside)).symm
    · have found : FileTable.get? ((number, old) :: rest) number = some old := List.lookup_cons_self
      refine ⟨[], rest, by simp, larger, by rw [found]; rfl, fun file => ?_, ?_⟩
      · rw [FileTable.set, if_neg (Int.lt_irrefl number), if_pos rfl]
        rfl
      · rw [erase, List.filter_cons_of_neg (by simp)]
        refine List.filter_eq_self.mpr fun entry inside => ?_
        simpa using (Int.ne_of_lt (larger entry inside)).symm
    · obtain ⟨before, after, place⟩ := ih others
      have further : FileTable.get? ((key, old) :: rest) number = FileTable.get? rest number := by
        have isOther : (number == key) = false := by simpa using (Int.ne_of_lt greater).symm
        rw [get?, List.lookup_cons, isOther]
        rfl
      have below : ∀ entry ∈ (key, old) :: before, entry.1 < number := List.forall_mem_cons.mpr ⟨greater, place.below⟩
      refine ⟨(key, old) :: before, after, below, place.above, ?_, fun file => ?_, ?_⟩
      · rw [further]
        exact congrArg ((key, old) :: ·) place.split
      · rw [FileTable.set, if_neg (Int.not_lt.mpr (Int.le_of_lt greater)), if_neg (Int.ne_of_lt greater).symm, place.set]
        rfl
      · rw [erase, List.filter_cons_of_pos (by simpa using Int.ne_of_lt greater)]
        exact congrArg ((key, old) :: ·) place.erase

theorem Place.dues (place : files.Place number before after) :
    files.dues = before.dues ++ (((files.get? number).bind OpenFile.flush?).map (number, ·)).toList ++ after.dues := by
  calc
    files.dues = FileTable.dues (before ++ ((files.get? number).map (number, ·)).toList ++ after) :=
      congrArg FileTable.dues place.split
    _ = _ := by
      rw [dues_append, dues_append]
      cases files.get? number with
      | none => rfl
      | some file => rw [Option.map_some, Option.toList_some, dues_cons, Option.bind_some]; simp [FileTable.dues]

theorem Place.dues_set (place : files.Place number before after) (file : OpenFile) :
    (files.set number file).dues = before.dues ++ (file.flush?.map (number, ·)).toList ++ after.dues := by
  rw [place.set, dues_append, dues_cons, List.append_assoc]

theorem Place.others (place : files.Place number before after) :
    (∀ due ∈ before.dues, due.1 ≠ number) ∧ ∀ due ∈ after.dues, due.1 ≠ number := by
  refine ⟨fun due isDue => ?_, fun due isDue => ?_⟩
  · obtain ⟨file, inside⟩ := dues_number isDue
    exact Int.ne_of_lt (place.below _ inside)
  · obtain ⟨file, inside⟩ := dues_number isDue
    exact (Int.ne_of_lt (place.above _ inside)).symm

theorem Ordered.set (ordered : files.Ordered) (number : Int) (file : OpenFile) : (files.set number file).Ordered := by
  obtain ⟨before, after, place⟩ := ordered.place number
  have parts : (before ++ ((files.get? number).map (number, ·)).toList ++ after).Pairwise
      fun entry other => entry.1 < other.1 := place.split ▸ ordered
  obtain ⟨early, afterOrdered, -⟩ := List.pairwise_append.mp parts
  rw [Ordered, place.set]
  refine List.pairwise_append.mpr ⟨(List.pairwise_append.mp early).1,
    List.pairwise_cons.mpr ⟨place.above, afterOrdered⟩, fun entry isBefore other isOther => ?_⟩
  rcases List.mem_cons.mp isOther with rfl | isAfter
  · exact place.below entry isBefore
  · exact Int.lt_trans (place.below entry isBefore) (place.above other isAfter)

theorem Ordered.erase (ordered : files.Ordered) (number : Int) : (files.erase number).Ordered := ordered.filter _

theorem Ordered.writable_iff (ordered : files.Ordered) (number : Int) :
    files.isWritable number = true ↔ ∃ flush, (number, flush) ∈ files.dues := by
  obtain ⟨before, after, place⟩ := ordered.place number
  obtain ⟨early, late⟩ := place.others
  have isHere (flush : Flush) : (number, flush) ∈ files.dues ↔ (files.get? number).bind OpenFile.flush? = some flush := by
    rw [place.dues, List.mem_append, List.mem_append]
    constructor
    · rintro ((isEarly | isIt) | isLate)
      · exact absurd rfl (early _ isEarly)
      · obtain ⟨other, isFlush, same⟩ := Option.map_eq_some_iff.mp (Option.mem_toList.mp isIt)
        rw [isFlush, (Prod.mk.inj same).2]
      · exact absurd rfl (late _ isLate)
    · intro isFlush
      rw [isFlush]
      exact .inl (.inr List.mem_cons_self)
  simp only [isHere, isWritable]
  cases files.get? number with
  | none => simp
  | some file => cases isInput : file.isInput <;> simp [OpenFile.flush?, isInput]

theorem Ordered.writable_congr (ordered : files.Ordered) {others : FileTable} (othersOrdered : others.Ordered)
    (same : files.dues = others.dues) (number : Int) : files.isWritable number = others.isWritable number := by
  rw [Bool.eq_iff_iff, ordered.writable_iff, othersOrdered.writable_iff, same]

theorem Ordered.dues_set_input (ordered : files.Ordered) (isInput : file.isInput = true)
    (replaces : files.isWritable number = false) : (files.set number file).dues = files.dues := by
  obtain ⟨before, after, place⟩ := ordered.place number
  have nothing : (files.get? number).bind OpenFile.flush? = none := by
    rw [isWritable] at replaces
    cases found : files.get? number with
    | none => rfl
    | some old =>
      have isOldInput : old.isInput = true := by simpa [found] using replaces
      simp [OpenFile.flush?, isOldInput]
  rw [place.dues_set, place.dues, nothing]
  simp [OpenFile.flush?, isInput]

theorem Ordered.dues_open (ordered : files.Ordered) (path : String) {mode : FileMode} (writes : mode ≠ .input)
    (unused : files.get? number = none) :
    (files.set number (.output path mode)).dues.Perm ((number, ⟨path, "", mode == .append⟩) :: files.dues) := by
  obtain ⟨before, after, place⟩ := ordered.place number
  have flushes : (OpenFile.output path mode).flush? = some ⟨path, "", mode == .append⟩ := by
    have isOutput : (OpenFile.output path mode).isInput = false := by cases mode <;> first | rfl | exact absurd rfl writes
    rw [OpenFile.flush?, isOutput]
    rfl
  have isEmpty : files.dues = before.dues ++ after.dues := by
    rw [place.dues, unused]
    exact congrArg (· ++ after.dues) (List.append_nil before.dues)
  rw [place.dues_set, flushes, isEmpty, List.append_assoc]
  exact List.perm_middle

theorem Ordered.dues_erase (ordered : files.Ordered) (found : files.get? number = some file) :
    (file.flush?.toList.map (number, ·) ++ (files.erase number).dues).Perm files.dues ∧
      (files.erase number).isWritable number = false := by
  obtain ⟨before, after, place⟩ := ordered.place number
  have absent : (files.erase number).get? number = none := by
    refine get_none fun entry inside => ?_
    rw [place.erase] at inside
    rcases List.mem_append.mp inside with isBefore | isAfter
    · exact Int.ne_of_lt (place.below entry isBefore)
    · exact (Int.ne_of_lt (place.above entry isAfter)).symm
  refine ⟨?_, by rw [isWritable, absent]; rfl⟩
  rw [place.erase, dues_append, place.dues, found, Option.bind_some]
  cases file.flush? with
  | none => simp
  | some flush => simpa using List.perm_middle.symm

end FileTable

def creditTo (output : Option Int) (text : String) (due : Int × Flush) : Int × Flush :=
  if output = some due.1 then (due.1, due.2.extend text) else due

namespace FileTable

variable {files before after : FileTable} {number : Int} {file : OpenFile}

theorem credit_nowhere {dues : List (Int × Flush)} (elsewhere : ∀ due ∈ dues, due.1 ≠ number) (text : String) :
    dues.map (creditTo (some number) text) = dues := by
  refine (List.map_congr_left fun due isDue => ?_).trans (List.map_id' dues)
  exact if_neg fun isIt => elsewhere due isDue (Option.some.inj isIt).symm

theorem credit_nothing (output : Option Int) (dues : List (Int × Flush)) : dues.map (creditTo output "") = dues := by
  refine (List.map_congr_left fun due _ => ?_).trans (List.map_id' dues)
  rw [creditTo, Flush.extend_nothing, ite_self]

theorem credit_console (text : String) (dues : List (Int × Flush)) : dues.map (creditTo none text) = dues :=
  (List.map_congr_left fun _ _ => rfl).trans (List.map_id' dues)

theorem refused_iff : files.isWritable number = false ↔ ∀ file, files.get? number = some file → file.isInput = true := by
  rw [isWritable]
  cases files.get? number <;> simp

theorem Ordered.dues_write (ordered : files.Ordered) (found : files.get? number = some file)
    (isOutput : file.isInput = false) (text : String) :
    (files.set number (file.write text)).dues = files.dues.map (creditTo (some number) text) := by
  obtain ⟨before, after, place⟩ := ordered.place number
  obtain ⟨early, late⟩ := place.others
  have flushes (text : String) : (file.write text).flush? = some ⟨file.path, file.text ++ text, file.mode == .append⟩ := by
    have isOutput : (file.write text).isInput = false := isOutput
    rw [OpenFile.flush?, isOutput]
    rfl
  have isFlush : file.flush? = some ⟨file.path, file.text, file.mode == .append⟩ := by
    rw [OpenFile.flush?, isOutput]
    rfl
  rw [place.dues_set, place.dues, found, Option.bind_some, isFlush, flushes, List.map_append, List.map_append,
    credit_nowhere early, credit_nowhere late]
  simp [creditTo, Flush.extend]

theorem Ordered.dues_refused (ordered : files.Ordered) (refused : files.isWritable number = false) (text : String) :
    files.dues.map (creditTo (some number) text) = files.dues := by
  refine credit_nowhere (fun due isDue same => ?_) text
  have isWritable := (ordered.writable_iff number).mpr ⟨due.2, same ▸ isDue⟩
  rw [refused] at isWritable
  cases isWritable

end FileTable

end BasicLang
