import BasicLang.Proofs.Table
import BasicLang.Proofs.Typing.Accepted

set_option autoImplicit false

namespace BasicLang

namespace SymbolTable

def Includes (later earlier : SymbolTable) : Prop :=
  ∀ name entry, earlier.lookup? name = some entry → later.lookup? name = some entry

theorem Includes.refl (table : SymbolTable) : table.Includes table := fun _ _ found => found

theorem Includes.trans {first second third : SymbolTable} (late : third.Includes second)
    (early : second.Includes first) : third.Includes first :=
  fun name entry found => late name entry (early name entry found)

theorem define_lookup (table : SymbolTable) (entry : SymbolEntry)
    (absent : table.lookup? entry.name = none) :
    ∃ after, table.define entry false = .ok after ∧
      ∀ name, after.lookup? name = if name = entry.name then some entry else table.lookup? name := by
  unfold lookup? define at *
  cases scopes : table.locals with
  | nil =>
    simp only [scopes, List.head?_nil, Option.bind_none, Option.orElse_eq_orElse, Option.orElse_eq_or,
      Option.none_or] at absent ⊢
    rw [absent]
    refine ⟨_, rfl, fun name => ?_⟩
    simp [Table.get_set]
  | cons scope outer =>
    simp only [scopes, List.head?_cons, Option.bind_some, Option.orElse_eq_orElse, Option.orElse_eq_or,
      Option.or_eq_none_iff] at absent ⊢
    rw [absent.1]
    refine ⟨_, rfl, fun name => ?_⟩
    simp only [List.head?_cons, Option.bind_some, Table.get_set]
    split
    · rfl
    · rfl

end SymbolTable

mutual

def Expr.Bound (symbols : SymbolTable) : Expr → Prop
  | .literal _ _ => True
  | .variable name info => ∃ entry, symbols.lookup? name = some entry ∧ info.ty = some entry.ty
  | .apply name arguments callee info =>
    Expr.AllBound symbols arguments ∧ (callee = .element → arguments ≠ [] →
      (∀ argument ∈ arguments, Check.isNumber argument.ty = true) ∧
      ∃ entry rank, symbols.lookup? name = some entry ∧
        entry.ty = .array (info.ty.getD .any) rank ∧ (rank = 0 ∨ rank = arguments.length))
  | .member object _ _ => object.Bound symbols
  | .binary _ left right _ => left.Bound symbols ∧ right.Bound symbols
  | .unary _ operand _ => operand.Bound symbols
  | .grouped inner _ => inner.Bound symbols

def Expr.AllBound (symbols : SymbolTable) : List Expr → Prop
  | [] => True
  | first :: rest => first.Bound symbols ∧ Expr.AllBound symbols rest

end

namespace Check

variable {α β : Type} {final : SymbolTable} {holds : α → Prop} {later : β → Prop}

/-- A check that reports nothing only adds declarations, and has such a result if these are among
the final ones. -/
def Binds (final : SymbolTable) (holds : α → Prop) (check : Check α) : Prop :=
  Follows (fun before result after => after.Includes before ∧ (final.Includes after → holds result)) check

theorem binds_unit {result : α} (holdsResult : holds result) : Binds final holds (pure result) :=
  follows_weaken (follows_unit result) fun _ _ _ same => by
    rw [same.1, same.2]
    exact ⟨.refl _, fun _ => holdsResult⟩

theorem binds_weaken {weaker : α → Prop} {check : Check α} (binds : Binds final holds check)
    (weaken : ∀ result, holds result → weaker result) : Binds final weaker check :=
  follows_weaken binds fun _ _ _ found => ⟨found.1, fun included => weaken _ (found.2 included)⟩

theorem binds_seq {first : Check α} {next : α → Check β} (bindsFirst : Binds final holds first)
    (bindsNext : ∀ value, Binds final (fun result => holds value → later result) (next value)) :
    Binds final later (first >>= next) := by
  refine follows_weaken (follows_seq bindsFirst bindsNext) ?_
  rintro before result after ⟨value, between, ⟨early, holdsValue⟩, late, holdsResult⟩
  exact ⟨late.trans early, fun included => holdsResult included (holdsValue (included.trans late))⟩

theorem binds_report (kind : DiagnosticKind) (locus : Locus) :
    Binds final (fun _ => False) (report kind locus) := follows_report kind locus

theorem binds_reporting (kind : DiagnosticKind) (locus : Locus) (result : α) :
    Binds final holds (do report kind locus; return result) :=
  binds_seq (binds_report kind locus) fun _ => binds_unit fun impossible => impossible.elim

theorem binds_report_if (condition : Prop) [Decidable condition] (kind : DiagnosticKind)
    (locus : Locus) :
    Binds final (fun _ => ¬condition) (if condition then report kind locus else pure ()) := by
  split
  · exact binds_weaken (binds_report kind locus) fun _ impossible => impossible.elim
  · next no => exact binds_unit no

theorem follows_declare_new (table : SymbolTable) (name : String) (ty : Ty) (locus : Locus)
    (absent : table.lookup? name = none) :
    Follows (fun before _ after => table = before → after.Includes before ∧
      ∃ entry, after.lookup? name = some entry ∧ entry.ty = ty) (declareImplicit name ty locus) := by
  refine follows_read fun found => ?_
  by_cases same : table = found
  · obtain ⟨after, defined, lookups⟩ := SymbolTable.define_lookup found
      { name, kind := .implicit, ty, locus, constant := none } (same ▸ absent)
    rw [defined]
    refine follows_weaken (follows_set after) ?_
    rintro before _ _ rfl rfl rfl
    refine ⟨fun other entry isThere => ?_, _, by rw [lookups, if_pos rfl], rfl⟩
    rw [lookups, if_neg]
    · exact isThere
    · rintro rfl
      rw [absent] at isThere
      cases isThere
  · split
    · exact follows_weaken (follows_set _) fun _ _ _ _ isFound isTable => absurd (isTable.trans isFound.symm) same
    · exact follows_weaken (follows_unit ()) fun _ _ _ _ isFound isTable => absurd (isTable.trans isFound.symm) same

theorem binds_variable_type (name : String) (locus : Locus) :
    Binds final (fun ty => ∃ entry, final.lookup? name = some entry ∧ entry.ty = ty)
      (variableType name locus) := by
  refine follows_read fun found => ?_
  split
  · next entry declared =>
    refine follows_weaken (follows_unit entry.ty) ?_
    rintro before _ _ ⟨rfl, rfl⟩ rfl
    exact ⟨.refl _, fun included => ⟨entry, included name entry declared, rfl⟩⟩
  · next absent =>
    refine follows_read fun again => ?_
    refine follows_weaken (follows_seq (follows_declare_new found name _ locus absent) fun _ =>
      follows_unit _) ?_
    rintro before _ after ⟨_, between, declares, rfl, rfl⟩ rfl rfl
    obtain ⟨includes, entry, declared, typed⟩ := declares rfl
    exact ⟨includes, fun included => ⟨entry, included name entry declared, typed⟩⟩

def Demand.Asks (final : SymbolTable) (wanted : Ty → Prop) (demand : Demand) : Prop :=
  ∀ position ty locus, Binds final (fun _ => wanted ty) (demand position ty locus)

theorem demand_index_asks : Demand.Asks final (fun ty => isNumber ty = true) demandIndex :=
  fun _ _ _ => binds_weaken (binds_report_if _ _ _) fun _ isNumber => by simpa using isNumber

theorem no_demand_asks : Demand.Asks final (fun _ => True) noDemand := fun _ _ _ => binds_unit trivial

theorem demand_types_asks (name : String) (expected : List Ty) :
    Demand.Asks final (fun _ => True) (demandTypes name expected) := by
  intro position ty locus
  unfold demandTypes
  split
  · exact binds_weaken (binds_report_if _ _ _) fun _ _ => trivial
  · exact binds_unit trivial

/-- Whether a name with subscripts stands for elements of an array. -/
def Resolution.isArray : Resolution → Bool
  | .array _ _ => true
  | .implicit => true
  | _ => false

def Resolution.Declared (final table : SymbolTable) (name : String) (count : Nat) : Resolution → Prop
  | .array element rank => (count = 0 ∨ rank = 0 ∨ rank = count) ∧
      ∃ entry, final.lookup? name = some entry ∧ entry.ty = .array element rank
  | .implicit => count = 0 ∨
      ∃ entry, final.lookup? name = some entry ∧ entry.ty = .array (table.implicitType name) count
  | _ => True

theorem resolution_array {registry : Registry} {symbols : SymbolTable} {name : String} {element : Ty}
    {rank : Nat} (resolved : resolution registry symbols name = .array element rank) :
    ∃ entry, symbols.lookup? name = some entry ∧ entry.ty = .array element rank := by
  unfold resolution at resolved
  grind

theorem resolution_implicit {registry : Registry} {symbols : SymbolTable} {name : String}
    (resolved : resolution registry symbols name = .implicit) : symbols.lookup? name = none := by
  unfold resolution at resolved
  grind

def BindsFrom (table final : SymbolTable) (holds : α → Prop) (check : Check α) : Prop :=
  Follows (fun before result after => table = before →
    after.Includes before ∧ (final.Includes after → holds result)) check

theorem binds_from_given {given : Prop} {table : SymbolTable} {check : Check α}
    (binds : Binds final (fun result => given → holds result) check)
    (holdsThere : final.Includes table → given) :
    BindsFrom table final (fun result => final.Includes table → holds result) check :=
  follows_weaken binds fun _ _ _ found _ =>
    ⟨found.1, fun included includesTable => found.2 included (holdsThere includesTable)⟩

theorem binds_from {table : SymbolTable} {check : Check α} (binds : Binds final holds check) :
    BindsFrom table final (fun result => final.Includes table → holds result) check :=
  binds_from_given (binds_weaken binds fun _ found _ => found) fun _ => trivial

theorem binds_read {next : SymbolTable → Check β}
    (binds : ∀ table, BindsFrom table final (fun result => final.Includes table → later result)
      (next table)) :
    Binds final later (symbols >>= next) := by
  refine follows_read fun table => follows_weaken (binds table) ?_
  rintro before result after found rfl
  obtain ⟨includes, holdsResult⟩ := found rfl
  exact ⟨includes, fun included => holdsResult included (included.trans includes)⟩

theorem binds_refused {anything : β → Prop} {next : Unit → Check β} (kind : DiagnosticKind)
    (locus : Locus) (binds : Binds final anything (next ())) :
    Binds final later (report kind locus >>= next) :=
  binds_seq (binds_report kind locus) fun _ => binds_weaken binds fun _ _ impossible => impossible.elim

theorem binds_from_demand (registry : Registry) (table : SymbolTable) (name : String) (count : Nat)
    (locus : Locus) {next : Demand → Check β}
    (binds : ∀ demand : Demand, demand.Asks final
        (fun ty => (resolution registry table name).isArray = true → isNumber ty = true) →
      Binds final (fun result =>
        (resolution registry table name).Declared final table name count → later result) (next demand)) :
    BindsFrom table final (fun result => final.Includes table → later result)
      (applyDemand (resolution registry table name) table name count locus >>= next) := by
  have mild (demand : Demand) (asks : demand.Asks final fun _ => True)
      (noArray : (resolution registry table name).isArray = false) :
      Binds final (fun result =>
        (resolution registry table name).Declared final table name count → later result) (next demand) :=
    binds demand fun position ty locus => binds_weaken (asks position ty locus) fun _ _ isArray => by
      rw [noArray] at isArray
      cases isArray
  cases resolved : resolution registry table name with
  | array element rank =>
    rw [resolved] at binds
    obtain ⟨entry, declared, typed⟩ := resolution_array resolved
    have rest := binds demandIndex fun position ty locus =>
      binds_weaken (demand_index_asks position ty locus) fun _ found _ => found
    unfold applyDemand
    dsimp only
    split
    · rw [bind_assoc]
      exact binds_from (binds_refused _ _ rest)
    · next suits =>
      have rankSuits : count = 0 ∨ rank = 0 ∨ rank = count := by omega
      exact binds_from_given rest fun includes =>
        ⟨rankSuits, entry, includes name entry declared, typed⟩
  | implicit =>
    rw [resolved] at binds
    have absent := resolution_implicit resolved
    have rest := binds demandIndex fun position ty locus =>
      binds_weaken (demand_index_asks position ty locus) fun _ found _ => found
    unfold applyDemand
    dsimp only
    split
    · rw [bind_assoc]
      refine follows_weaken (follows_seq (follows_declare_new table name
        (.array (table.implicitType name) count) locus absent) fun _ => rest) ?_
      rintro before result after ⟨_, between, declares, late, holdsResult⟩ same
      obtain ⟨includes, entry, declared, typed⟩ := declares same
      refine ⟨late.trans includes, fun included _ => holdsResult included (.inr ?_)⟩
      exact ⟨entry, (included.trans late) name entry declared, typed⟩
    · next none =>
      exact binds_from_given rest fun _ => .inl (Decidable.not_not.mp none)
  | function params result =>
    rw [resolved] at mild
    unfold applyDemand callDemand
    dsimp only
    split
    · exact binds_from (binds_weaken (mild _ (demand_types_asks _ _) rfl) fun _ found => found trivial)
    · rw [bind_assoc]
      exact binds_from (binds_refused _ _ (mild _ no_demand_asks rfl))
  | builtin builtin =>
    rw [resolved] at mild
    unfold applyDemand builtinDemand
    dsimp only
    split
    · exact binds_from (binds_weaken (mild _ (demand_types_asks _ _) rfl) fun _ found => found trivial)
    · rw [bind_assoc]
      exact binds_from (binds_refused _ _ (mild _ no_demand_asks rfl))
  | sub =>
    rw [resolved] at mild
    exact binds_from (binds_weaken (mild _ no_demand_asks rfl) fun _ found => found trivial)
  | notAnArray =>
    rw [resolved] at mild
    exact binds_from (binds_weaken (mild _ no_demand_asks rfl) fun _ found => found trivial)

theorem binds_apply_result (registry : Registry) (table : SymbolTable) (name : String) (count : Nat)
    (locus : Locus) :
    Binds final (fun found => found.1 = .element →
      (resolution registry table name).isArray = true ∧
        ((resolution registry table name).Declared final table name count → count ≠ 0 →
          ∃ entry rank, final.lookup? name = some entry ∧ entry.ty = .array found.2 rank ∧
            (rank = 0 ∨ rank = count)))
      (applyResult (resolution registry table name) table name count locus) := by
  cases resolution registry table name with
  | array element rank =>
    refine binds_unit fun _ => ⟨rfl, fun declared some => ?_⟩
    obtain ⟨suits, entry, found, typed⟩ := declared
    rw [if_neg some]
    exact ⟨entry, rank, found, typed, suits.resolve_left some⟩
  | function params result => exact binds_unit fun impossible => nomatch impossible
  | sub => exact binds_reporting _ _ _
  | builtin builtin => exact binds_unit fun impossible => nomatch impossible
  | notAnArray => exact binds_reporting _ _ _
  | implicit =>
    refine binds_unit fun _ => ⟨rfl, fun declared some => ?_⟩
    obtain ⟨entry, found, typed⟩ := declared.resolve_left some
    exact ⟨entry, count, found, typed, .inr rfl⟩

theorem binds_member_type (object : Ty) (member : String) (locus : Locus) :
    Binds final (fun _ => True) (memberType object member locus) := by
  unfold memberType
  split
  · split
    · exact binds_unit trivial
    · exact binds_reporting _ _ _
  · exact binds_unit trivial
  · exact binds_reporting _ _ _

theorem binds_binary_type (operator : BinaryOperator) (left right : Ty) (locus : Locus) :
    Binds final (fun _ => True) (binaryType operator left right locus) := by
  unfold binaryType
  split
  · exact binds_unit trivial
  · exact binds_reporting _ _ _

theorem binds_unary_type (operator : UnaryOperator) (operand : Ty) (locus : Locus) :
    Binds final (fun _ => True) (unaryType operator operand locus) := by
  unfold unaryType
  split
  · exact binds_unit trivial
  · split
    · exact binds_reporting _ _ _
    · cases operator <;> exact binds_unit trivial

mutual

theorem binds_expr (context : CheckContext) (expr : Expr) :
    Binds final (Expr.Bound final) (Check.expr context expr) := by
  cases expr with
  | literal value info => exact binds_unit trivial
  | «variable» name info =>
    refine binds_read fun table => ?_
    split
    · refine binds_from_demand _ _ _ _ _ fun demand _ =>
        binds_seq (binds_apply_result _ _ _ _ _) fun found => binds_unit fun _ _ => ?_
      exact ⟨trivial, fun _ none => absurd rfl none⟩
    · refine binds_from (binds_seq (binds_variable_type name _) fun ty => binds_unit ?_)
      rintro ⟨entry, declared, rfl⟩
      exact ⟨entry, declared, rfl⟩
  | apply name arguments callee info =>
    refine binds_read fun table => binds_from_demand _ _ _ _ _ fun demand asks =>
      binds_seq (binds_each context demand _ asks 0 arguments) fun checked =>
        binds_seq (binds_apply_result _ _ _ _ _) fun found => binds_unit ?_
    rintro isElement ⟨sameLength, bound, numbers⟩ declared
    refine ⟨bound, fun element some => ?_⟩
    obtain ⟨isArray, declares⟩ := isElement element
    have notNone : arguments.length ≠ 0 := fun none => some (List.eq_nil_of_length_eq_zero (sameLength.trans none))
    obtain ⟨entry, rank, lookup, typed, suits⟩ := declares declared notNone
    exact ⟨fun argument inside => numbers argument inside isArray, entry, rank, lookup, typed, sameLength ▸ suits⟩
  | member object name info =>
    exact binds_seq (binds_expr context object) fun checked =>
      binds_seq (binds_member_type _ _ _) fun ty => binds_unit fun _ bound => bound
  | binary operator left right info =>
    exact binds_seq (binds_expr context left) fun checkedLeft =>
      binds_seq (binds_expr context right) fun checkedRight =>
        binds_seq (binds_binary_type _ _ _ _) fun ty => binds_unit fun _ boundRight boundLeft =>
          ⟨boundLeft, boundRight⟩
  | unary operator operand info =>
    exact binds_seq (binds_expr context operand) fun checked =>
      binds_seq (binds_unary_type _ _ _) fun ty => binds_unit fun _ bound => bound
  | grouped inner info =>
    exact binds_seq (binds_expr context inner) fun checked => binds_unit fun bound => bound

theorem binds_each (context : CheckContext) (demand : Demand) (wanted : Ty → Prop)
    (asks : demand.Asks final wanted) (position : Nat) (exprs : List Expr) :
    Binds final (fun found => found.length = exprs.length ∧ Expr.AllBound final found ∧
      ∀ argument ∈ found, wanted argument.ty) (each context demand position exprs) := by
  cases exprs with
  | nil => exact binds_unit ⟨rfl, trivial, fun _ inside => nomatch inside⟩
  | cons first rest =>
    refine binds_seq (binds_expr context first) fun checked =>
      binds_seq (asks _ _ _) fun _ =>
        binds_seq (binds_each context demand wanted asks _ rest) fun others => binds_unit ?_
    rintro ⟨sameLength, boundRest, wantedRest⟩ wantedFirst boundFirst
    exact ⟨by simp [sameLength], ⟨boundFirst, boundRest⟩, List.forall_mem_cons.mpr ⟨wantedFirst, wantedRest⟩⟩

end

end Check

end BasicLang
