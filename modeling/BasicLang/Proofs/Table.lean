import BasicLang.Typing.Symbols

set_option autoImplicit false

namespace BasicLang

namespace Table

variable {α : Type}

theorem get_nil (name : String) : get? ([] : Table α) name = none := rfl

theorem get_cons (key name : String) (value : α) (rest : Table α) :
    get? ((key, value) :: rest) name = if name = key then some value else get? rest name := by
  by_cases same : name = key
  · simp [get?, same]
  · simp [get?, List.lookup_cons, same, beq_eq_false_iff_ne.mpr same]

theorem mem_of_get {table : Table α} {name : String} {value : α} (found : table.get? name = some value) :
    (name, value) ∈ table := by
  obtain ⟨before, after, rfl, -⟩ := List.lookup_eq_some_iff.mp found
  simp

theorem get_set (table : Table α) (key name : String) (value : α) :
    get? (table.set key value) name = if name = key then some value else get? table name := by
  induction table with
  | nil => simp [set, get_cons, get_nil]
  | cons entry rest ih =>
    obtain ⟨first, old⟩ := entry
    by_cases same : first = key
    · subst first
      rw [set, if_pos rfl, get_cons, get_cons]
      split <;> rfl
    · rw [set, if_neg same, get_cons, get_cons, ih]
      by_cases here : name = first
      · rw [if_pos here, if_pos here, if_neg fun found => same (here.symm.trans found)]
      · rw [if_neg here, if_neg here]

theorem get_set_self (table : Table α) (name : String) (value : α) :
    get? (table.set name value) name = some value := by rw [get_set, if_pos rfl]

theorem get_set_other (table : Table α) (key name : String) (value : α) (different : name ≠ key) :
    get? (table.set key value) name = get? table name := by rw [get_set, if_neg different]

theorem get_update (table : Table α) (key name : String) (change : α → α) :
    get? (table.update key change) name =
      if name = key then (get? table name).map change else get? table name := by
  induction table with
  | nil => simp [update, get_nil]
  | cons entry rest ih =>
    obtain ⟨first, old⟩ := entry
    have unfolded : update ((first, old) :: rest) key change =
        (if first = key then (first, change old) else (first, old)) :: update rest key change := rfl
    rw [unfolded]
    by_cases same : first = key
    · rw [if_pos same, get_cons, get_cons, ih]
      by_cases here : name = first
      · simp [here, same]
      · rw [if_neg here, if_neg here]
    · rw [if_neg same, get_cons, get_cons, ih]
      by_cases here : name = first
      · rw [if_pos here, if_pos here, if_neg fun found => same (here.symm.trans found)]
      · rw [if_neg here, if_neg here]

end Table

theorem LetterTypes.get_uniform (ty : Ty) (char : Char) :
    ((LetterTypes.uniform ty).get? char).getD ty = ty := by
  unfold LetterTypes.get? LetterTypes.uniform
  split
  · rw [List.getElem?_replicate]
    split <;> rfl
  · rfl

end BasicLang
