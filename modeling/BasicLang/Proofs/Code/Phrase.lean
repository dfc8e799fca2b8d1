import BasicLang.Proofs.Code.Linking
import BasicLang.Proofs.Machine.Points

set_option autoImplicit false

namespace BasicLang

theorem repr_injective {first second : Nat} (same : first.repr = second.repr) : first = second := by
  have digits := congrArg String.toList same
  rw [Nat.toList_repr, Nat.toList_repr] at digits
  rw [← Nat.ofDigitChars_ten_toDigits (n := first), digits, Nat.ofDigitChars_ten_toDigits]

def isMade (name : String) : Bool := name.toList.head? == some '~'

theorem SourceName.not_made {name : String} (source : SourceName name) : isMade name = false := by
  obtain ⟨first, rest, characters, letter⟩ := source
  rw [isMade, characters, List.head?_cons]
  refine beq_false_of_ne fun same => ?_
  rw [Option.some.inj same] at letter
  exact absurd letter (by decide)

def madeStems : List String := ["SEL", "FOREND", "FORSTEP"]

def madeName (stem : String) (number : Nat) : String := "~" ++ stem ++ toString number

theorem made_is_made (stem : String) (number : Nat) : isMade (madeName stem number) = true := by
  simp [isMade, madeName]

theorem made_number {first second : String} {left right : Nat} (known : first ∈ madeStems)
    (otherKnown : second ∈ madeStems) (same : madeName first left = madeName second right) : left = right := by
  simp only [madeStems, List.mem_cons, List.not_mem_nil, or_false] at known otherKnown
  rcases known with rfl | rfl | rfl <;> rcases otherKnown with rfl | rfl | rfl <;> first
    | exact repr_injective ((String.append_right_inj _).mp same)
    | (have characters := congrArg String.toList same
       simp [madeName] at characters)

def IsOlder (limit : Nat) (name : String) : Prop :=
  ∃ stem ∈ madeStems, ∃ number ≤ limit, name = madeName stem number

theorem newer_name {limit number : Nat} {stem : String} (known : stem ∈ madeStems) (above : limit < number)
    {name : String} (older : IsOlder limit name) : name ≠ madeName stem number := by
  obtain ⟨other, otherKnown, old, below, rfl⟩ := older
  intro same
  rw [made_number otherKnown known same] at below
  exact absurd above (Nat.not_lt.mpr below)

namespace Environment

variable {environment made : Environment} {name : String}

def beside (environment made : Environment) : Environment :=
  { environment with
    value? := fun name => if isMade name then made.value? name else environment.value? name }

def Keeps (limit : Nat) (made later : Environment) : Prop :=
  ∀ name, IsOlder limit name → later.value? name = made.value? name

theorem Keeps.refl (limit : Nat) (made : Environment) : Keeps limit made made := fun _ _ => rfl

theorem Keeps.trans {limit higher : Nat} {later last : Environment} (early : Keeps limit made later)
    (late : Keeps higher later last) (below : limit ≤ higher) : Keeps limit made last := by
  intro name older
  obtain ⟨stem, known, number, bound, isName⟩ := older
  exact (late name ⟨stem, known, number, Nat.le_trans bound below, isName⟩).trans
    (early name ⟨stem, known, number, bound, isName⟩)

theorem keeps_set {limit number : Nat} {stem : String} (known : stem ∈ madeStems) (above : limit < number)
    (value : Value) : Keeps limit made (made.set (madeName stem number) value) := by
  intro name older
  exact if_neg (newer_name known above older)

theorem set_source (source : isMade name = false) (value : Value) :
    (environment.beside made).set name value = (environment.set name value).beside made := by
  unfold beside set
  congr 1
  funext other
  by_cases same : other = name
  · simp [same, source]
  · simp [same]

theorem set_made (isName : isMade name = true) (value : Value) :
    (environment.beside made).set name value = environment.beside (made.set name value) := by
  unfold beside set
  congr 1
  funext other
  by_cases same : other = name
  · simp [same, isName]
  · simp [same]

theorem find_source (source : isMade name = false) :
    (environment.beside made).find name =
      ((environment.find name).1, (environment.find name).2.beside made) := by
  have seen : (environment.beside made).value? name = environment.value? name := by simp [beside, source]
  rw [find, fetch, find, fetch, seen]
  cases environment.value? name with
  | some value => rfl
  | none => exact congrArg (Prod.mk _) (set_source source _)

theorem find_made {value : Value} (isName : isMade name = true) (known : made.value? name = some value) :
    (environment.beside made).find name = (value, environment.beside made) := by
  have seen : (environment.beside made).value? name = some value := by simp [beside, isName, known]
  rw [find, fetch, seen]

theorem assign_source (source : isMade name = false) (value : Value) :
    (environment.beside made).assign name value =
      (do return (← environment.assign name value).beside made) := by
  rw [assign, assign, find_source source]
  dsimp only
  split
  · exact congrArg Except.ok (set_source source value)
  · cases Fault.ofValue ((environment.find name).1.ty.convert value) with
    | error fault => rfl
    | ok converted => exact congrArg Except.ok (set_source source converted)

theorem assign_made {held : Value} (isName : isMade name = true) (known : made.value? name = some held)
    (value : Value) :
    (environment.beside made).assign name value =
      if held.ty = .null then .ok (environment.beside (made.set name value))
      else do return environment.beside (made.set name (← Fault.ofValue (held.ty.convert value))) := by
  rw [assign, find_made isName known]
  dsimp only
  split
  · exact congrArg Except.ok (set_made isName value)
  · cases Fault.ofValue (held.ty.convert value) with
    | error fault => rfl
    | ok converted => exact congrArg Except.ok (set_made isName converted)

theorem advance_source (source : isMade name = false) (step : Value) :
    (environment.beside made).advance name step =
      (do return (← environment.advance name step).beside made) := by
  rw [advance, advance, find_source source]
  cases number : (environment.find name).1.toDouble? with
  | none =>
    simp only [number]
    cases step.number <;> rfl
  | some found =>
    simp only [number]
    cases step.number with
    | error fault => rfl
    | ok stepFound =>
      show (if Run.fits _ _ = true then ((environment.find name).2.beside made).assign name _ else _) =
        (if Run.fits _ _ = true then (environment.find name).2.assign name _ else _) >>= _
      split
      · exact assign_source source _
      · rfl

end Environment

namespace Assembly

/-- The instructions of an image are those of the code, with places for labels. -/
def Linked (whole : Assembly) (image : Image) : Prop :=
  ∀ (place : Nat) (instruction : Instruction), whole.code[place]? = some instruction →
    ∃ linked, whole.linkInstruction instruction = .ok linked ∧ image.instructions[place]? = some linked

theorem link_plain (whole : Assembly) {op : Op} (plain : op.labels = []) (locus : Locus) :
    whole.linkInstruction ⟨op, locus⟩ = .ok ⟨op, locus⟩ := by
  cases op with
  | jump target | jumpIfZero target | jumpIfNonzero target | call target | gosub target | forLoop target
  | onEvent target | restore target =>
    cases target with
    | resolved place => rfl
    | label id => cases plain
  | _ => rfl

theorem map_each {α β : Type} {step : α → Except CodeError β} {items : List α} {results : List β}
    (mapped : items.mapM step = .ok results) {place : Nat} {item : α} (found : items[place]? = some item) :
    ∃ result, step item = .ok result ∧ results[place]? = some result := by
  induction items generalizing results place with
  | nil => cases found
  | cons head tail ih =>
    rw [List.mapM_cons] at mapped
    cases first : step head with
    | error error =>
      rw [first] at mapped
      cases mapped
    | ok result =>
      cases rest : tail.mapM step with
      | error error =>
        rw [first, rest] at mapped
        cases mapped
      | ok others =>
        rw [first, rest] at mapped
        cases mapped
        cases place with
        | zero =>
          cases found
          exact ⟨result, first, rfl⟩
        | succ place => exact ih rest found

theorem link_linked {whole linked : Assembly} (isLinked : whole.link = .ok linked) {image : Image}
    (same : image.instructions = linked.code) : whole.Linked image := by
  intro place instruction found
  rw [link] at isLinked
  split at isLinked
  · cases isLinked
  · cases mapped : whole.code.toList.mapM whole.linkInstruction with
    | error error =>
      rw [mapped] at isLinked
      cases isLinked
    | ok code =>
      rw [mapped] at isLinked
      rw [← Array.getElem?_toList] at found
      obtain ⟨result, isResult, inCode⟩ := map_each mapped found
      refine ⟨result, isResult, ?_⟩
      rw [same, ← Except.ok.inj isLinked, List.getElem?_toArray]
      exact inCode

theorem map_length {α β : Type} {step : α → Except CodeError β} {items : List α} {results : List β}
    (mapped : items.mapM step = .ok results) : results.length = items.length := by
  induction items generalizing results with
  | nil =>
    cases mapped
    rfl
  | cons head tail ih =>
    rw [List.mapM_cons] at mapped
    cases first : step head with
    | error error =>
      rw [first] at mapped
      cases mapped
    | ok result =>
      cases rest : tail.mapM step with
      | error error =>
        rw [first, rest] at mapped
        cases mapped
      | ok others =>
        rw [first, rest] at mapped
        cases mapped
        exact congrArg Nat.succ (ih rest)

theorem link_size {whole linked : Assembly} (isLinked : whole.link = .ok linked) :
    linked.code.size = whole.code.size := by
  rw [link] at isLinked
  split at isLinked
  · cases isLinked
  · cases mapped : whole.code.toList.mapM whole.linkInstruction with
    | error error =>
      rw [mapped] at isLinked
      cases isLinked
    | ok code =>
      rw [mapped] at isLinked
      rw [← Except.ok.inj isLinked, List.size_toArray, map_length mapped, Array.length_toList]

theorem fetched_longer {before whole : Assembly} (grows : before.code.toList <+: whole.code.toList) {place : Nat}
    {instruction : Instruction} (found : before.code[place]? = some instruction) :
    whole.code[place]? = some instruction := by
  obtain ⟨rest, appended⟩ := grows
  have below : place < before.code.toList.length := by
    simpa using (Array.getElem?_eq_some_iff.mp found).1
  rw [← Array.getElem?_toList, ← appended, List.getElem?_append_left below, Array.getElem?_toList]
  exact found

theorem found_below {assembly : Assembly} {place : Nat} {instruction : Instruction}
    (found : assembly.code[place]? = some instruction) : place < assembly.code.size :=
  (Array.getElem?_eq_some_iff.mp found).1

theorem emit_found {assembly : Assembly} {op : Op} {place : Nat} {instruction : Instruction}
    (found : (assembly.emit op).code[place]? = some instruction) :
    assembly.code[place]? = some instruction ∨ (place = assembly.code.size ∧ instruction = ⟨op, assembly.locus⟩) := by
  rw [emit, Array.getElem?_push] at found
  split at found
  · next isLast => exact .inr ⟨isLast, (Option.some.inj found).symm⟩
  · exact .inl found

theorem found_before {before after : Assembly} (grows : before.code.toList <+: after.code.toList) {place : Nat}
    {instruction : Instruction}
    (found : after.code[place]? = some instruction) (below : place < before.code.size) :
    before.code[place]? = some instruction := by
  have same : before.code[place]? = some before.code[place] := Array.getElem?_eq_getElem below
  rw [same, ← found, fetched_longer grows same]

theorem Grows.fetched {before whole : Assembly} (grows : before.Grows whole) {place : Nat}
    {instruction : Instruction} (found : before.code[place]? = some instruction) :
    whole.code[place]? = some instruction :=
  fetched_longer grows.code found

end Assembly

namespace Emit

variable {α β : Type} {whole : Assembly} {image : Image}

def Phrase (whole : Assembly) (emit : Emit α) (meaning : Assembly → α → Assembly → Prop) : Prop :=
  ∀ before result after, emit.run before = .ok (result, after) → after.Grows whole →
    before.Grows whole ∧ before.temporaries ≤ after.temporaries ∧ meaning before result after

theorem phrase_weaken {emit : Emit α} {meaning wider : Assembly → α → Assembly → Prop}
    (phrase : Phrase whole emit meaning)
    (view : ∀ before result after, before.temporaries ≤ after.temporaries → meaning before result after →
      wider before result after) : Phrase whole emit wider := by
  intro before result after ran grows
  obtain ⟨grown, more, said⟩ := phrase before result after ran grows
  exact ⟨grown, more, view before result after more said⟩

theorem phrase_seq {first : Emit α} {next : α → Emit β} {early : Assembly → α → Assembly → Prop}
    {late : α → Assembly → β → Assembly → Prop} (phraseFirst : Phrase whole first early)
    (phraseNext : ∀ middle, Phrase whole (next middle) (late middle)) :
    Phrase whole (first >>= next) fun before result after => ∃ middle between,
      early before middle between ∧ before.temporaries ≤ between.temporaries ∧
        late middle between result after := by
  intro before result after ran grows
  obtain ⟨middle, between, ranFirst, ranNext⟩ := run_seq ran
  obtain ⟨grownBetween, moreNext, saidNext⟩ := phraseNext middle _ _ _ ranNext grows
  obtain ⟨grown, more, said⟩ := phraseFirst _ _ _ ranFirst grownBetween
  exact ⟨grown, Nat.le_trans more moreNext, middle, between, said, more, saidNext⟩

structure Still (before after : Assembly) : Prop where
  size : after.code.size = before.code.size
  temporaries : after.temporaries = before.temporaries

theorem phrase_unit (result : α) :
    Phrase whole (pure result : Emit α) fun before found after => found = result ∧ after = before := by
  intro before found after ran grows
  cases ran
  exact ⟨grows, Nat.le_refl _, rfl, rfl⟩

theorem phrase_locus (locus : Locus) : Phrase whole (setLocus locus) fun before _ after => Still before after := by
  intro before result after ran grows
  cases ran
  exact ⟨{ grows with }, Nat.le_refl _, rfl, rfl⟩

theorem phrase_new_label : Phrase whole newLabel fun before _ after => Still before after := by
  intro before result after ran grows
  cases ran
  exact ⟨(Assembly.new_label_step before none).1.trans grows, Nat.le_refl _, rfl, rfl⟩

theorem phrase_place (id : Nat) :
    Phrase whole (place id) fun before _ after =>
      whole.placeOf? id = some before.code.size ∧ Still before after := by
  intro before result after ran grows
  have placed := run_place ran
  have grown := (Assembly.place_step placed).1.trans grows
  obtain ⟨label, found, -, rfl⟩ := Assembly.place_cases placed
  have inside : id < before.labels.size := (Array.getElem?_eq_some_iff.mp found).1
  refine ⟨grown, Nat.le_refl _, grows.place_kept ?_, rfl, rfl⟩
  simp [Assembly.placeOf?, inside]

variable (linked : whole.Linked image)

include linked

theorem phrase_linked (operation : Op) :
    Phrase whole (op operation) fun before _ after =>
      (∃ result, whole.linkInstruction ⟨operation, before.locus⟩ = .ok result ∧
        image.instructions[before.code.size]? = some result) ∧
      after.code.size = before.code.size + 1 := by
  intro before result after ran grows
  cases ran
  have grown := (Assembly.emit_step before operation).1.trans grows
  refine ⟨grown, Nat.le_refl _, linked _ _ (grows.fetched ?_), by simp [Assembly.emit]⟩
  simp [Assembly.emit]

theorem phrase_op (operation : Op) (plain : operation.labels = []) :
    Phrase whole (op operation) fun before _ after =>
      image.Fetches before.code.size operation ∧ after.code.size = before.code.size + 1 := by
  refine phrase_weaken (phrase_linked linked operation) fun before _ after _ said => ?_
  obtain ⟨⟨result, isLinked, found⟩, size⟩ := said
  rw [Assembly.link_plain whole plain] at isLinked
  rw [← Except.ok.inj isLinked] at found
  exact ⟨⟨before.locus, found⟩, size⟩

theorem phrase_jump (make : Target → Op) (id : Nat)
    (maps : ∀ code data target, (make target).mapTargets code data = do return make (← code target)) :
    Phrase whole (op (make (.label id))) fun before _ after =>
      (∃ place, whole.placeOf? id = some place ∧ image.Fetches before.code.size (make (.resolved place))) ∧
      after.code.size = before.code.size + 1 := by
  refine phrase_weaken (phrase_linked linked _) fun before _ after _ said => ?_
  obtain ⟨⟨result, isLinked, found⟩, size⟩ := said
  refine ⟨?_, size⟩
  rw [Assembly.linkInstruction, maps] at isLinked
  cases placed : whole.placeOf? id with
  | none =>
    rw [Assembly.placeOf?] at placed
    simp only [Assembly.resolve, placed] at isLinked
    cases isLinked
  | some place =>
    have isPlace := placed
    rw [Assembly.placeOf?] at isPlace
    simp only [Assembly.resolve, isPlace] at isLinked
    rw [← Except.ok.inj isLinked] at found
    exact ⟨place, rfl, before.locus, found⟩

end Emit

theorem Literal.value_scalar (literal : Literal) : literal.value.isScalar = true := by
  cases literal with
  | integer number | long number =>
    simp only [Literal.value, Value.ofWide]
    repeat' split
    all_goals rfl
  | _ => rfl

namespace Emit

variable {whole : Assembly} {image : Image} (linked : whole.Linked image)

include linked

def Pushes (image : Image) (evaluate : Environment → Except Fault (Value × Environment))
    (before after : Assembly) : Prop :=
  ∀ least stack environment made, Point.Follows image least
    ⟨before.code.size, stack, environment.beside made⟩ (.ofResult (evaluate environment))
    fun (value, changed) point => point = ⟨after.code.size, .value value :: stack, changed.beside made⟩

variable {table : SymbolTable} {registry : Registry} (context : EmitContext)

theorem phrase_value (expr : Expr) (scalar : expr.isScalar = true) (accepted : expr.Accepted table registry) :
    Phrase whole (value context expr) fun before _ after => Pushes image (expr.evaluate ·) before after := by
  -- Every operand leaves its value on top of what was on the stack, so that those of an operator are in order.
  cases expr with
  | literal literal info =>
    refine phrase_weaken (phrase_op linked _ rfl) fun before _ after _ said => ?_
    intro least stack environment made
    rw [said.2]
    simp only [Expr.evaluate]
    exact Point.follows_move (.constant said.1 literal.value_scalar) (Point.follows_unit rfl)
  | «variable» name info =>
    rw [value, Run.named_storage_plain (by simpa [Expr.isScalar] using scalar)]
    refine phrase_weaken (phrase_op linked (.pushValue name) rfl) fun before _ after _ said => ?_
    intro least stack environment made
    have moves : Point.Moves image ⟨before.code.size, stack, environment.beside made⟩ _ := .variable said.1
    rw [Environment.find_source accepted.1.not_made] at moves
    rw [said.2]
    exact Point.follows_move moves (Point.follows_unit rfl)
  | binary operator left right info =>
    have both : left.isScalar = true ∧ right.isScalar = true := by simpa [Expr.isScalar] using scalar
    refine phrase_weaken (phrase_seq (phrase_value left both.1 accepted.1) fun _ =>
      phrase_seq (phrase_value right both.2 accepted.2.1) fun _ => phrase_op linked _ rfl) ?_
    rintro before _ after - ⟨_, between, pushesLeft, -, _, last, pushesRight, -, fetches, size⟩
    intro least stack environment made
    simp only [Expr.evaluate]
    refine Point.follows_then (pushesLeft least stack environment made) ?_
    rintro ⟨leftValue, leftChanged⟩ _ rfl
    refine Point.follows_then (pushesRight least _ leftChanged made) ?_
    rintro ⟨rightValue, changed⟩ _ rfl
    rw [size]
    refine Point.follows_then (Point.follows_result (.binary fetches)) ?_
    rintro result _ rfl
    exact Point.follows_unit rfl
  | unary operator operand info =>
    have written : value context (.unary operator operand info) =
        value context operand >>= fun _ => op operator.op := by
      cases operator <;> rfl
    rw [written]
    refine phrase_weaken (phrase_seq (phrase_value operand scalar accepted.1) fun _ =>
      phrase_op linked _ (by cases operator <;> rfl)) ?_
    rintro before _ after - ⟨_, between, pushes, -, fetches, size⟩
    intro least stack environment made
    simp only [Expr.evaluate]
    refine Point.follows_then (pushes least stack environment made) ?_
    rintro ⟨found, changed⟩ _ rfl
    rw [size]
    refine Point.follows_then (Point.follows_result (.unary fetches)) ?_
    rintro result _ rfl
    exact Point.follows_unit rfl
  | grouped inner info =>
    refine phrase_weaken (phrase_value inner scalar accepted.1) fun before _ after _ said => ?_
    intro least stack environment made
    simp only [Expr.evaluate]
    exact said least stack environment made
  | apply name arguments callee info => cases scalar
  | member object name info => cases scalar

end Emit

end BasicLang
