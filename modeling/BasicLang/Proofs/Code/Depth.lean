import BasicLang.Proofs.Action.Convention
import BasicLang.Proofs.Code.Spans

set_option autoImplicit false

namespace BasicLang

def Builtin.stackUse (builtin : Builtin) (count : Nat) : Nat × Nat :=
  match builtin.passing with
  | .fixed => (builtin.arity, builtin.results)
  | .counted => (count + 1, builtin.results)
  | .variadic => (builtin.arity + count + 1, builtin.results)

namespace Op

def jumps : Op → List Target
  | .jump target => [target]
  | .jumpIfZero target => [target]
  | .jumpIfNonzero target => [target]
  | .gosub target => [target]
  | .forLoop target => [target]
  | _ => []

def aims : Op → List Target
  | .onEvent target => [target]
  | op => op.jumps

def fallsThrough : Op → Bool
  | .jump _ => false
  | .ret => false
  | .stop => false
  | _ => true

def passedCount : Op → Nat
  | .pushConst (.integer number) => number.toInt.toNat
  | _ => 0

def stackUse? (callee : Target → Option (Nat × Nat)) (count : Nat) : Op → Option (Nat × Nat)
  | .pushConst _ => some (0, 1)
  | .pushValue _ => some (0, 1)
  | .pushRef _ => some (0, 1)
  | .pushArray _ _ _ => some (0, 1)
  | .pop => some (1, 0)
  | .assign => some (2, 0)
  | .popParam _ _ => some (1, 0)
  | .dim _ _ => some (0, 0)
  | .dimArray _ _ rank => some (rank * 2, 0)
  | .redim _ _ rank _ => some (rank * 2, 0)
  | .setDefaultType _ _ _ => some (0, 0)
  | .binary _ => some (2, 1)
  | .negate => some (1, 1)
  | .complement => some (1, 1)
  | .jump _ => some (0, 0)
  | .jumpIfZero _ => some (1, 0)
  | .jumpIfNonzero _ => some (1, 0)
  | .call target => callee target
  | .gosub _ => some (0, 0)
  | .ret => some (0, 0)
  | .forLoop _ => some (3, 0)
  | .forStep => some (2, 0)
  | .stop => some (0, 0)
  | .arrayDeref rank _ => some (rank + 1, 1)
  | .memberDeref _ _ => some (1, 1)
  | .read => some (1, 0)
  | .restore _ => some (0, 0)
  | .syscall name => (Registry.standard.lookup? name).map fun builtin => builtin.stackUse count
  | .onEvent _ => some (1, 0)

section Linking

variable (code data : Target → Target) (op : Op)

theorem retarget_falls : (op.retarget code data).fallsThrough = op.fallsThrough := by cases op <;> rfl

theorem retarget_count : (op.retarget code data).passedCount = op.passedCount := by cases op <;> rfl

theorem retarget_jumps : (op.retarget code data).jumps = op.jumps.map code := by cases op <;> rfl

theorem retarget_aims : (op.retarget code data).aims = op.aims.map code := by cases op <;> rfl

theorem aims_address {target : Target} (isAim : target ∈ op.aims) : op.address? = some target := by
  cases op <;> simp_all [aims, jumps, address?]

theorem jumps_aims : op.jumps ⊆ op.aims := by cases op <;> simp [aims, jumps]

theorem straight_jumps {op : Op} (straight : op.aims = []) : op.jumps = [] :=
  List.eq_nil_of_subset_nil (straight ▸ op.jumps_aims)

end Linking

theorem uses_no_call {op : Op} {use : Nat × Nat} (uses : ∀ count, op.stackUse? (fun _ => none) count = some use)
    (target : Target) : op ≠ .call target := by
  rintro rfl
  cases uses 0

end Op

def ProcedureEntry.stackUse (entry : ProcedureEntry) : Nat × Nat :=
  (entry.params.length, if entry.kind = .function then 1 else 0)

structure Site where
  -- Its first instruction.
  start : Nat
  -- Labels that are older belong to other routines.
  bound : Nat
  names : List String
  -- Whether the items of its statements can be counted.
  small : Prop

namespace Assembly

variable {symbols : SymbolTable} {site : Site} {given : List Nat} {known : List (Nat × Nat)} {now : Nat}
  {assembly : Assembly}

def countAt (assembly : Assembly) : Nat → Nat
  | 0 => 0
  | previous + 1 => (assembly.code[previous]?.map fun instruction => instruction.op.passedCount).getD 0

def Uses (symbols : SymbolTable) (assembly : Assembly) (count : Nat) (op : Op) (use : Nat × Nat) : Prop :=
  match op with
  | .call target => ∃ name id entry, target = .label id ∧ assembly.entries.get? name = some id ∧
      symbols.procedure? name = some entry ∧ use = entry.stackUse
  | other => other.stackUse? (fun _ => none) count = some use

def Inner (assembly : Assembly) (id : Nat) : Prop :=
  id < assembly.labels.size ∧ ∀ name, assembly.entries.get? name ≠ some id

def Own (site : Site) (assembly : Assembly) (id : Nat) : Prop :=
  assembly.Inner id ∧
    (site.bound ≤ id ∧ (∀ name, assembly.named.get? name ≠ some id) ∨
      ∃ name ∈ site.names, assembly.named.get? name = some id)

def Aims (own : Nat → Prop) (assembly : Assembly) (op : Op) : Prop :=
  match op with
  | .call target => ∃ name id, target = .label id ∧ assembly.entries.get? name = some id
  | other => ∀ target ∈ other.aims, ∃ id, target = .label id ∧ own id

def Fits (symbols : SymbolTable) (depth : Nat → Nat) (assembly : Assembly) (place : Nat) (op : Op) : Prop :=
  ∃ takes leaves, assembly.Uses symbols (assembly.countAt place) op (takes, leaves) ∧ takes ≤ depth place ∧
    (op.fallsThrough = true → depth (place + 1) = depth place - takes + leaves) ∧
    ∀ target ∈ op.jumps, depth place - takes + leaves = 0 ∧ ∃ id, target = .label id ∧ assembly.Inner id

structure Stacked (symbols : SymbolTable) (depth : Nat → Nat) (assembly : Assembly) : Prop where
  fits : ∀ place instruction, assembly.code[place]? = some instruction →
    assembly.Fits symbols depth place instruction.op
  placed : ∀ id place, assembly.placeOf? id = some place → place ≤ assembly.code.size
  level : ∀ id place, assembly.placeOf? id = some place → (∀ name, assembly.entries.get? name ≠ some id) →
    depth place = 0
  entry : ∀ name id place entry, assembly.entries.get? name = some id → assembly.placeOf? id = some place →
    symbols.procedure? name = some entry → depth place = entry.params.length

/-- The code so far has depths, with those that are known among them, and its next one is `now`. -/
def Deep (symbols : SymbolTable) (known : List (Nat × Nat)) (now : Nat) (assembly : Assembly) : Prop :=
  ∃ depth, assembly.Stacked symbols depth ∧ depth assembly.code.size = now ∧
    ∀ mark ∈ known, mark.1 ≤ assembly.code.size ∧ depth mark.1 = mark.2

/-- The code of a routine so far. It jumps to labels of its routine, and the labels that are given are such. -/
structure Laid (symbols : SymbolTable) (site : Site) (given : List Nat) (known : List (Nat × Nat)) (now : Nat)
    (assembly : Assembly) : Prop where
  sound : assembly.Sound
  bound : site.bound ≤ assembly.labels.size
  own : ∀ id ∈ given, assembly.Own site id
  aims : ∀ place instruction, site.start ≤ place → assembly.code[place]? = some instruction →
    assembly.Aims (assembly.Own site) instruction.op
  deep : site.small → assembly.Deep symbols known now

section Growing

variable {depth : Nat → Nat} {before after : Assembly} {id : Nat}

theorem Inner.grows (inner : before.Inner id) (grows : Grows before after) : after.Inner id := by
  refine ⟨Nat.lt_of_lt_of_le inner.1 grows.size, fun name isEntry => ?_⟩
  rcases grows.newEntries name _ isEntry with old | new
  · exact inner.2 name old
  · exact absurd inner.1 (Nat.not_lt.mpr new)

theorem Own.grows (own : before.Own site id) (grows : Grows before after) : after.Own site id := by
  refine ⟨own.1.grows grows, ?_⟩
  rcases own.2 with ⟨young, unnamed⟩ | ⟨name, isName, found⟩
  · refine .inl ⟨young, fun name isNamed => ?_⟩
    rcases grows.newNamed name _ isNamed with old | new
    · exact unnamed name old
    · exact absurd own.1.1 (Nat.not_lt.mpr new)
  · exact .inr ⟨name, isName, grows.named name id found⟩

theorem Aims.grows {own other : Nat → Prop} {op : Op} (aims : before.Aims own op) (grows : Grows before after)
    (kept : ∀ id, own id → other id) : after.Aims other op := by
  cases op with
  | call target =>
    obtain ⟨name, id, isLabel, isEntry⟩ := aims
    exact ⟨name, id, isLabel, grows.entries name id isEntry⟩
  | _ =>
    intro target isAim
    obtain ⟨id, isLabel, isOwn⟩ := aims target isAim
    exact ⟨id, isLabel, kept id isOwn⟩

theorem Aims.at {own : Nat → Prop} {op : Op} {target : Target} (aims : assembly.Aims own op) (isAim : target ∈ op.aims) :
    ∃ id, target = .label id ∧ own id := by
  cases op with
  | call other => cases isAim
  | _ => exact aims target isAim

theorem aims_straight {own : Nat → Prop} {op : Op} (notCall : ∀ target, op ≠ .call target) (straight : op.aims = []) :
    assembly.Aims own op := by
  cases op with
  | call target => exact absurd rfl (notCall target)
  | _ => simp_all [Aims]

theorem Uses.grows {count : Nat} {op : Op} {use : Nat × Nat} (uses : before.Uses symbols count op use)
    (grows : Grows before after) : after.Uses symbols count op use := by
  cases op with
  | call target =>
    obtain ⟨name, id, entry, isLabel, isEntry, found, same⟩ := uses
    exact ⟨name, id, entry, isLabel, grows.entries name id isEntry, found, same⟩
  | _ => exact uses

theorem Grows.count_kept (grows : Grows before after) {place : Nat} (below : place ≤ before.code.size) :
    after.countAt place = before.countAt place := by
  cases place with
  | zero => rfl
  | succ previous =>
    have found : before.code[previous]? = some before.code[previous] := Array.getElem?_eq_getElem below
    rw [countAt, countAt, found, grows.fetched found]

theorem Fits.grows {place : Nat} {op : Op} {other : Nat → Nat} (fits : before.Fits symbols depth place op)
    (grows : Grows before after) (below : place < before.code.size)
    (same : ∀ place ≤ before.code.size, other place = depth place) : after.Fits symbols other place op := by
  obtain ⟨takes, leaves, uses, enough, falls, jumps⟩ := fits
  refine ⟨takes, leaves, ?_, ?_, fun goesOn => ?_, fun target isTarget => ?_⟩
  · rw [grows.count_kept (Nat.le_of_lt below)]
    exact uses.grows grows
  · rw [same place (Nat.le_of_lt below)]
    exact enough
  · rw [same place (Nat.le_of_lt below), same (place + 1) below]
    exact falls goesOn
  · obtain ⟨isEmpty, id, isLabel, inner⟩ := jumps target isTarget
    rw [same place (Nat.le_of_lt below)]
    exact ⟨isEmpty, id, isLabel, inner.grows grows⟩

-- One more instruction. The depth behind it is free where it does not fall through.
theorem Deep.emit (deep : assembly.Deep symbols known now) (op : Op) (takes leaves : Nat) {later : Nat}
    (uses : assembly.Uses symbols (assembly.countAt assembly.code.size) op (takes, leaves)) (enough : takes ≤ now)
    (falls : op.fallsThrough = true → later = now - takes + leaves)
    (jumps : ∀ target ∈ op.jumps, now - takes + leaves = 0 ∧ ∃ id, target = .label id ∧ assembly.Inner id) :
    (assembly.emit op).Deep symbols known later := by
  obtain ⟨depth, stacked, isNow, marks⟩ := deep
  have grows := (emit_step assembly op).1
  have size : (assembly.emit op).code.size = assembly.code.size + 1 := Array.size_push _
  obtain ⟨further, old, isLater⟩ : ∃ further : Nat → Nat,
      (∀ place ≤ assembly.code.size, further place = depth place) ∧ further (assembly.code.size + 1) = later := by
    refine ⟨fun place => if place ≤ assembly.code.size then depth place else later, fun place below => ?_, ?_⟩
    · simp [below]
    · exact if_neg (Nat.not_succ_le_self _)
  refine ⟨further, ⟨?_, ?_, ?_, ?_⟩, ?_, ?_⟩
  · intro place instruction found
    rw [Assembly.emit, Array.getElem?_push] at found
    split at found
    · next isLast =>
      cases found
      subst isLast
      refine ⟨takes, leaves, ?_, ?_, fun goesOn => ?_, fun target isTarget => ?_⟩
      · rw [grows.count_kept (Nat.le_refl _)]
        exact uses.grows grows
      · rw [old _ (Nat.le_refl _), isNow]
        exact enough
      · rw [isLater, old _ (Nat.le_refl _), isNow]
        exact falls goesOn
      · obtain ⟨isEmpty, id, isLabel, inner⟩ := jumps target isTarget
        rw [old _ (Nat.le_refl _), isNow]
        exact ⟨isEmpty, id, isLabel, inner.grows grows⟩
    · exact (stacked.fits place instruction found).grows grows (Array.getElem?_eq_some_iff.mp found).1 old
  · intro id place isPlace
    rw [size]
    exact Nat.le_succ_of_le (stacked.placed id place isPlace)
  · intro id place isPlace notEntry
    rw [old place (stacked.placed id place isPlace)]
    exact stacked.level id place isPlace notEntry
  · intro name id place entry isEntry isPlace found
    rw [old place (stacked.placed id place isPlace)]
    exact stacked.entry name id place entry isEntry isPlace found
  · rw [size, isLater]
  · intro mark isKnown
    obtain ⟨below, isDepth⟩ := marks mark isKnown
    rw [size, old mark.1 below]
    exact ⟨Nat.le_succ_of_le below, isDepth⟩

theorem Laid.emit (laid : assembly.Laid symbols site given known now) (op : Op) (takes leaves : Nat) {later : Nat}
    (uses : site.small → assembly.Uses symbols (assembly.countAt assembly.code.size) op (takes, leaves))
    (enough : takes ≤ now) (falls : op.fallsThrough = true → later = now - takes + leaves)
    (jumps : op.jumps ≠ [] → now - takes + leaves = 0) (aims : assembly.Aims (· ∈ given) op) :
    (assembly.emit op).Laid symbols site given known later := by
  obtain ⟨grows, sound⟩ := emit_step assembly op
  refine ⟨sound laid.sound, Nat.le_trans laid.bound grows.size, fun id isGiven => (laid.own id isGiven).grows grows, ?_,
    fun small => (laid.deep small).emit op takes leaves (uses small) enough falls fun target isTarget => ?_⟩
  · intro place instruction inside found
    rw [Assembly.emit, Array.getElem?_push] at found
    split at found
    · cases found
      exact aims.grows grows fun id isGiven => (laid.own id isGiven).grows grows
    · exact (laid.aims place instruction inside found).grows grows fun _ own => own.grows grows
  · obtain ⟨id, isLabel, isGiven⟩ := aims.at (op.jumps_aims isTarget)
    exact ⟨jumps (List.ne_nil_of_mem isTarget), id, isLabel, (laid.own id isGiven).1⟩

theorem Deep.grows (deep : before.Deep symbols known now) (grows : Grows before after)
    (code : after.code = before.code) (places : ∀ id, after.placeOf? id = before.placeOf? id) :
    after.Deep symbols known now := by
  obtain ⟨depth, stacked, isNow, marks⟩ := deep
  refine ⟨depth, ⟨?_, ?_, ?_, ?_⟩, ?_, ?_⟩
  · intro place instruction found
    rw [code] at found
    exact (stacked.fits place instruction found).grows grows (Array.getElem?_eq_some_iff.mp found).1 fun _ _ => rfl
  · intro id place isPlace
    rw [places] at isPlace
    rw [code]
    exact stacked.placed id place isPlace
  · intro id place isPlace notEntry
    rw [places] at isPlace
    exact stacked.level id place isPlace fun name isEntry => notEntry name (grows.entries name id isEntry)
  · intro name id place entry isEntry isPlace found
    rw [places] at isPlace
    rcases grows.newEntries name id isEntry with old | new
    · exact stacked.entry name id place entry old isPlace found
    -- A label that is newer is not placed yet.
    · rw [placeOf?, Array.getElem?_eq_none new] at isPlace
      cases isPlace
  · rw [code]
    exact isNow
  · rw [code]
    exact marks

theorem Laid.grows (laid : before.Laid symbols site given known now) (step : Step before after)
    (code : after.code = before.code) (places : ∀ id, after.placeOf? id = before.placeOf? id) :
    after.Laid symbols site given known now := by
  obtain ⟨grows, sound⟩ := step
  refine ⟨sound laid.sound, Nat.le_trans laid.bound grows.size, fun id isGiven => (laid.own id isGiven).grows grows, ?_,
    fun small => (laid.deep small).grows grows code places⟩
  intro place instruction inside found
  rw [code] at found
  exact (laid.aims place instruction inside found).grows grows fun _ own => own.grows grows

theorem Laid.weaken {fewer : List Nat} {less : List (Nat × Nat)} (laid : assembly.Laid symbols site given known now)
    (givenLess : fewer ⊆ given) (knownLess : less ⊆ known) : assembly.Laid symbols site fewer less now := by
  refine ⟨laid.sound, laid.bound, fun id isGiven => laid.own id (givenLess isGiven), laid.aims, fun small => ?_⟩
  obtain ⟨depth, stacked, isNow, marks⟩ := laid.deep small
  exact ⟨depth, stacked, isNow, fun mark isKnown => marks mark (knownLess isKnown)⟩

theorem Laid.mark (laid : assembly.Laid symbols site given known now) :
    assembly.Laid symbols site given ((assembly.code.size, now) :: known) now := by
  refine ⟨laid.sound, laid.bound, laid.own, laid.aims, fun small => ?_⟩
  obtain ⟨depth, stacked, isNow, marks⟩ := laid.deep small
  exact ⟨depth, stacked, isNow, List.forall_mem_cons.mpr ⟨⟨Nat.le_refl _, isNow⟩, marks⟩⟩

theorem Deep.place (deep : before.Deep symbols known now) (placed : before.place id = .ok after)
    (level : (∀ name, before.entries.get? name ≠ some id) → now = 0)
    (entry : ∀ name entry, before.entries.get? name = some id → symbols.procedure? name = some entry →
      now = entry.params.length) : after.Deep symbols known now := by
  obtain ⟨depth, stacked, isNow, marks⟩ := deep
  have grows := (place_step placed).1
  have places := place_of_placed placed
  obtain ⟨label, -, -, rfl⟩ := place_cases placed
  refine ⟨depth, ⟨?_, ?_, ?_, ?_⟩, isNow, marks⟩
  · intro place instruction found
    exact (stacked.fits place instruction found).grows grows (Array.getElem?_eq_some_iff.mp found).1 fun _ _ => rfl
  · intro other place isPlace
    rw [places] at isPlace
    split at isPlace
    · exact Nat.le_of_eq (Option.some.inj isPlace).symm
    · exact stacked.placed other place isPlace
  · intro other place isPlace notEntry
    rw [places] at isPlace
    split at isPlace
    · next isId =>
      subst isId
      rw [← Option.some.inj isPlace, isNow]
      exact level notEntry
    · exact stacked.level other place isPlace notEntry
  · intro name other place described isEntry isPlace found
    rw [places] at isPlace
    split at isPlace
    · next isId =>
      subst isId
      rw [← Option.some.inj isPlace, isNow]
      exact entry name described isEntry found
    · exact stacked.entry name other place described isEntry isPlace found

theorem Laid.place_any (laid : before.Laid symbols site given known now) (placed : before.place id = .ok after)
    (level : (∀ name, before.entries.get? name ≠ some id) → now = 0)
    (entry : ∀ name entry, before.entries.get? name = some id → symbols.procedure? name = some entry →
      now = entry.params.length) : after.Laid symbols site given known now := by
  obtain ⟨grows, sound⟩ := place_step placed
  refine ⟨sound laid.sound, Nat.le_trans laid.bound grows.size, fun id isGiven => (laid.own id isGiven).grows grows, ?_,
    fun small => (laid.deep small).place placed level entry⟩
  obtain ⟨label, -, -, rfl⟩ := place_cases placed
  intro place instruction inside found
  exact (laid.aims place instruction inside found).grows grows fun _ own => own.grows grows

theorem Laid.place (laid : before.Laid symbols site given known 0) (inner : before.Inner id)
    (placed : before.place id = .ok after) : after.Laid symbols site given known 0 :=
  laid.place_any placed (fun _ => rfl) fun name _ isEntry => absurd isEntry (inner.2 name)

end Growing

end Assembly

namespace Emit

variable {α β : Type}

section Lays

variable (symbols : SymbolTable) (site : Site)

def Lays (given : List Nat) (old : Nat) (emit : Emit α) (new : Nat) : Prop :=
  ∀ known, Reaches (Assembly.Laid symbols site given known old) emit
    fun _ => Assembly.Laid symbols site given known new

end Lays

section Rules

variable {symbols : SymbolTable} {site : Site} {given : List Nat} {old between new count : Nat}

theorem lays_unit (value : α) : Lays symbols site given old (pure value : Emit α) old := fun _ => reaches_unit value

theorem lays_error (error : CodeError) : Lays symbols site given old (throw error : Emit α) new :=
  fun _ => reaches_error error

theorem lays_seq {first : Emit α} {next : α → Emit β} (lays : Lays symbols site given old first between)
    (rest : ∀ value, Lays symbols site given between (next value) new) :
    Lays symbols site given old (first >>= next) new :=
  fun known => reaches_seq (lays known) fun value => rest value known

theorem lays_note {change : Assembly → α × Assembly} (step : ∀ assembly, Assembly.Step assembly (change assembly).2)
    (code : ∀ assembly, (change assembly).2.code = assembly.code)
    (places : ∀ assembly id, (change assembly).2.placeOf? id = assembly.placeOf? id) :
    Lays symbols site given old (modifyGet change : Emit α) old := by
  intro known assembly result later laid ran
  have same : (change assembly).2 = later := congrArg Prod.snd (Except.ok.inj ran)
  rw [← same]
  exact laid.grows (step assembly) (code assembly) (places assembly)

theorem lays_modify {change : Assembly → Assembly} (step : ∀ assembly, Assembly.Step assembly (change assembly))
    (code : ∀ assembly, (change assembly).code = assembly.code)
    (places : ∀ assembly id, (change assembly).placeOf? id = assembly.placeOf? id) :
    Lays symbols site given old (modify change : Emit Unit) old :=
  lays_note step code places

theorem lays_locus (locus : Locus) : Lays symbols site given old (setLocus locus) old :=
  lays_modify (fun assembly => ⟨{ Assembly.Grows.refl assembly with }, fun sound => { sound with }⟩)
    (fun _ => rfl) fun _ _ => rfl

theorem lays_temporary (stem : String) : Lays symbols site given old (temporary stem) old :=
  lays_note (fun assembly => ⟨{ Assembly.Grows.refl assembly with }, fun sound => { sound with }⟩)
    (fun _ => rfl) fun _ _ => rfl

theorem lays_data (values : List Value) : Lays symbols site given old
    (modify fun assembly => { assembly with data := assembly.data ++ values } : Emit Unit) old :=
  lays_modify (fun assembly => ⟨{ Assembly.Grows.refl assembly with }, fun sound => { sound with }⟩)
    (fun _ => rfl) fun _ _ => rfl

theorem lays_op (operation : Op) {takes leaves : Nat}
    (use : ∀ count, operation.stackUse? (fun _ => none) count = some (takes, leaves))
    (falls : operation.fallsThrough = true) (straight : operation.aims = []) :
    Lays symbols site given (old + takes) (op operation) (old + leaves) := by
  intro known assembly result later laid ran
  cases ran
  refine laid.emit operation takes leaves (fun _ => ?_) (Nat.le_add_left _ _) (fun _ => by omega)
    (fun jumps => absurd (Op.straight_jumps straight) jumps) (Assembly.aims_straight (Op.uses_no_call use) straight)
  cases operation <;> first | exact use _ | cases use 0

theorem lays_at (operation : Op) {takes leaves : Nat}
    (use : ∀ count, operation.stackUse? (fun _ => none) count = some (takes, leaves))
    (falls : operation.fallsThrough = true) (straight : operation.aims = []) (enough : takes ≤ old)
    (same : old - takes + leaves = new) : Lays symbols site given old (op operation) new := by
  have moved := (lays_op operation use falls straight : Lays symbols site given (old - takes + takes) _ _)
  rw [Nat.sub_add_cancel enough, same] at moved
  exact moved

theorem lays_push (operation : Op) (use : ∀ count, operation.stackUse? (fun _ => none) count = some (0, 1))
    (falls : operation.fallsThrough = true) (straight : operation.aims = []) :
    Lays symbols site given old (op operation) (old + 1) :=
  (lays_op operation use falls straight : Lays symbols site given (old + 0) _ _)

theorem lays_still (operation : Op) (use : ∀ count, operation.stackUse? (fun _ => none) count = some (0, 0))
    (falls : operation.fallsThrough = true) (straight : operation.aims = []) :
    Lays symbols site given old (op operation) old :=
  (lays_op operation use falls straight : Lays symbols site given (old + 0) _ (old + 0))

theorem lays_jump_op (operation : Op) {takes id : Nat} (isGiven : id ∈ given)
    (use : ∀ count, operation.stackUse? (fun _ => none) count = some (takes, 0))
    (target : operation.aims = [.label id]) : Lays symbols site given takes (op operation) 0 := by
  intro known assembly result later laid ran
  cases ran
  refine laid.emit operation takes 0 (fun _ => ?_) (Nat.le_refl _) (fun _ => by omega) (fun _ => by omega) ?_
  · cases operation <;> first | exact use _ | cases use 0
  · cases operation with
    | call other => cases use 0
    | _ =>
      intro other isTarget
      rw [target, List.mem_singleton] at isTarget
      exact ⟨id, isTarget, isGiven⟩

theorem lays_end (operation : Op) (use : ∀ count, operation.stackUse? (fun _ => none) count = some (0, 0))
    (ends : operation.fallsThrough = false) (straight : operation.aims = []) :
    Lays symbols site given old (op operation) new := by
  intro known assembly result later laid ran
  cases ran
  refine laid.emit operation 0 0 (fun _ => ?_) (Nat.zero_le _) (fun goesOn => ?_)
    (fun jumps => absurd (Op.straight_jumps straight) jumps) (Assembly.aims_straight (Op.uses_no_call use) straight)
  · cases operation <;> first | exact use _ | cases use 0
  · rw [ends] at goesOn
    cases goesOn

theorem lays_jump {id : Nat} (isGiven : id ∈ given) : Lays symbols site given 0 (jump id) 0 :=
  lays_jump_op _ isGiven (fun _ => rfl) rfl

theorem Assembly.Laid.new_label {known : List (Nat × Nat)} {assembly : Assembly}
    (laid : assembly.Laid symbols site given known old) :
    (assembly.newLabel none).2.Laid symbols site (assembly.labels.size :: given) known old := by
  have grown := laid.grows (Assembly.new_label_step assembly none) rfl fun id => Assembly.place_of_push _ _ _
  have sound := laid.sound
  refine { grown with own :=
    List.forall_mem_cons.mpr ⟨⟨⟨?_, fun name isEntry => ?_⟩, .inl ⟨laid.bound, fun name isNamed => ?_⟩⟩, grown.own⟩ }
  · simp [Assembly.newLabel]
  · exact absurd (sound.entries name _ isEntry) (Nat.lt_irrefl _)
  · exact absurd (sound.named name _ isNamed) (Nat.lt_irrefl _)

theorem lays_place {id : Nat} (isGiven : id ∈ given) : Lays symbols site given 0 (place id) 0 :=
  fun _ _ _ _ laid ran => laid.place (laid.own id isGiven).1 (run_place ran)

theorem lays_named (name : String) : Lays symbols site given old (namedLabel name) old :=
  lays_note (fun assembly => Assembly.named_label_step assembly name) (fun assembly => assembly.named_label_code name)
    fun assembly => Assembly.named_label_places assembly name

theorem named_label_inner {known : List (Nat × Nat)} {assembly : Assembly} (name : String)
    (laid : (assembly.namedLabel name).2.Laid symbols site given known old) :
    (assembly.namedLabel name).2.Inner (assembly.namedLabel name).1 := by
  have found := assembly.named_label_found name
  exact ⟨laid.sound.named name _ found, fun other => laid.sound.apart name other _ found⟩

theorem lays_own_named {name : String} (isOwn : name ∈ site.names) {next : Nat → Emit β}
    (rest : ∀ id, Lays symbols site (id :: given) old (next id) new) :
    Lays symbols site given old (namedLabel name >>= next) new := by
  intro known assembly result later laid ran
  have started : (namedLabel name).run assembly = .ok ((assembly.namedLabel name).1, (assembly.namedLabel name).2) := rfl
  have named := lays_named name known assembly _ _ laid started
  rw [run_ok started] at ran
  have own : (assembly.namedLabel name).2.Own site (assembly.namedLabel name).1 :=
    ⟨named_label_inner name named, .inr ⟨name, isOwn, assembly.named_label_found name⟩⟩
  have more : (assembly.namedLabel name).2.Laid symbols site ((assembly.namedLabel name).1 :: given) known old :=
    { named with own := List.forall_mem_cons.mpr ⟨own, named.own⟩ }
  have laidLast := rest _ known _ result later more ran
  exact laidLast.weaken (List.subset_cons_self _ _) (List.Subset.refl _)

theorem lays_label (name : String) : Lays symbols site given 0 (do place (← namedLabel name)) 0 := by
  intro known assembly result later laid ran
  have started : (namedLabel name).run assembly = .ok ((assembly.namedLabel name).1, (assembly.namedLabel name).2) := rfl
  have named := lays_named name known assembly _ _ laid started
  rw [run_ok started] at ran
  exact named.place (named_label_inner name named) (run_place ran)

theorem lays_entry (name : String) : Lays symbols site given old (entryLabel name) old :=
  lays_note (fun assembly => Assembly.entry_label_step assembly name) (fun assembly => assembly.entry_label_code name)
    fun assembly => Assembly.entry_label_places assembly name

theorem lays_call {name : String} {entry : ProcedureEntry} (found : symbols.procedure? name = some entry) :
    Lays symbols site given (old + entry.stackUse.1) (do op (.call (.label (← entryLabel name))))
      (old + entry.stackUse.2) := by
  intro known assembly result later laid ran
  have started : (entryLabel name).run assembly = .ok ((assembly.entryLabel name).1, (assembly.entryLabel name).2) := rfl
  have entered := lays_entry name known assembly _ _ laid started
  rw [run_ok started] at ran
  cases ran
  refine entered.emit _ entry.stackUse.1 entry.stackUse.2 (fun _ => ?_) (Nat.le_add_left _ _) (fun _ => by omega)
    (fun jumps => absurd rfl jumps) ⟨name, _, rfl, assembly.entry_label_found name⟩
  exact ⟨name, _, entry, rfl, assembly.entry_label_found name, found, rfl⟩

theorem syscall_use (builtin : Builtin) (count : Nat) :
    (Op.syscall builtin.name).stackUse? (fun _ => none) count = some (builtin.stackUse count) := by
  rw [Op.stackUse?, Registry.standard_lookup]
  rfl

theorem lays_syscall {builtin : Builtin} (isFixed : builtin.passing = .fixed) (enough : builtin.arity ≤ old)
    (same : old - builtin.arity + builtin.results = new) : Lays symbols site given old (syscall builtin) new := by
  refine lays_at _ (fun count => ?_) rfl rfl enough same
  rw [syscall_use, Builtin.stackUse, isFixed]

theorem lays_integer (number : Int16) : Lays symbols site given old (pushInteger number) (old + 1) :=
  lays_push _ (fun _ => rfl) rfl rfl

theorem count_behind (assembly : Assembly) (op : Op) :
    (assembly.emit op).countAt (assembly.emit op).code.size = op.passedCount := by
  have size : (assembly.emit op).code.size = assembly.code.size + 1 := Array.size_push _
  rw [size, Assembly.countAt, Assembly.emit, Array.getElem?_push_size]
  rfl

theorem passed_count (few : count ≤ 32767) :
    (Op.pushConst (.integer (Int16.ofNat (min count 32767)))).passedCount = count := by
  have small : (Int16.ofNat count).toInt = count := Int16.toInt_ofNat_of_lt (by omega)
  rw [Nat.min_eq_left few, Op.passedCount, small]
  rfl

theorem lays_counted {builtin : Builtin} {takes leaves : Nat} (few : site.small → count ≤ 32767)
    (use : builtin.stackUse count = (takes + 1, leaves)) :
    Lays symbols site given (old + takes) (do pushCount count; syscall builtin) (old + leaves) := by
  intro known assembly result later laid ran
  have started : (pushCount count).run assembly =
      .ok ((), assembly.emit (.pushConst (.integer (Int16.ofNat (min count 32767))))) := rfl
  have counted := lays_integer _ known assembly _ _ laid started
  rw [run_ok started] at ran
  cases ran
  refine counted.emit _ (takes + 1) leaves (fun small => ?_) (by omega) (fun _ => by omega)
    (fun jumps => absurd rfl jumps) fun _ isTarget => nomatch isTarget
  show (Op.syscall builtin.name).stackUse? (fun _ => none) _ = _
  rw [count_behind, passed_count (few small), syscall_use, use]

theorem lays_variadic {builtin : Builtin} (few : site.small → count ≤ 32767) (isVariadic : builtin.passing = .variadic)
    (enough : builtin.arity + count = old) (same : builtin.results = new) :
    Lays symbols site given old (do pushCount count; syscall builtin) new := by
  have counted := (lays_counted few (by rw [Builtin.stackUse, isVariadic]) :
    Lays symbols site given (0 + (builtin.arity + count)) (do pushCount count; syscall builtin) (0 + builtin.results))
  rwa [Nat.zero_add, enough, Nat.zero_add, same] at counted

theorem lays_restate {other : Nat} {emit : Emit α} (lays : Lays symbols site given old emit new) (same : new = other) :
    Lays symbols site given old emit other := same ▸ lays

theorem lays_each {items : List α} {emit : α → Emit Unit} (step : Nat)
    (each : ∀ item ∈ items, ∀ old, Lays symbols site given old (emit item) (old + step)) (old : Nat) :
    Lays symbols site given old (items.forM emit) (old + items.length * step) := by
  induction items generalizing old with
  | nil => exact lays_restate (lays_unit ()) (by simp)
  | cons head tail ih =>
    have rest := ih (fun item inside => each item (List.mem_cons_of_mem _ inside)) (old + step)
    refine lays_restate (lays_seq (each head List.mem_cons_self old) fun _ => rest) ?_
    rw [List.length_cons, Nat.add_mul]
    omega

end Rules

end Emit

section Builtins

variable {registry : Registry} {name : String} {builtin : Builtin}

theorem Builtin.few_arguments (builtin : Builtin) : builtin.signature.arguments.length ≤ 3 := by
  cases builtin <;> decide

-- Builtins with any number of arguments carry out statements, and have names that no source has.
theorem Builtin.variadic_name (isVariadic : builtin.passing = .variadic) :
    builtin.isFunction = false ∧ builtin.name.toList.head? = some '_' := by
  cases builtin <;> first | (cases isVariadic; done) | decide

theorem Builtin.passing_counts (notVariadic : builtin.passing ≠ .variadic) :
    builtin.passing = if builtin.signature.countsArguments then .counted else .fixed := by
  unfold Builtin.passing at notVariadic ⊢
  split
  · next isVariadic =>
    rw [if_pos isVariadic] at notVariadic
    exact absurd rfl notVariadic
  · rfl

theorem Registry.function_passing (found : registry.function? name = some builtin) :
    builtin.isFunction = true ∧ builtin.passing ≠ .variadic := by
  have isFunction : builtin.isFunction = true := by
    have both := List.find?_some found
    simp only [Bool.and_eq_true] at both
    exact both.1
  refine ⟨isFunction, fun isVariadic => ?_⟩
  rw [(Builtin.variadic_name isVariadic).1] at isFunction
  cases isFunction

theorem Registry.sub_letter (named : SourceName name) (found : registry.sub? name = some builtin) :
    builtin.isFunction = false ∧ builtin.name.toList.head? ≠ some '_' := by
  have both := List.find?_some found
  simp only [Bool.and_eq_true, Bool.not_eq_true', beq_iff_eq] at both
  refine ⟨both.1, fun head => ?_⟩
  obtain ⟨first, rest, isName, isLetter⟩ := named
  have upper : first.toUpper = '_' := by
    simpa [both.2, Text.upperAscii, String.toList_map, isName] using head
  have isLetterUpper := Reader.letter_upper isLetter
  rw [upper] at isLetterUpper
  cases isLetterUpper

theorem Registry.sub_passing (named : SourceName name) (found : registry.sub? name = some builtin) :
    builtin.isFunction = false ∧ builtin.passing ≠ .variadic := by
  obtain ⟨isSub, letter⟩ := Registry.sub_letter named found
  exact ⟨isSub, fun isVariadic => letter (Builtin.variadic_name isVariadic).2⟩

theorem Signature.takes_all {signature : Signature} {count : Nat} (takes : signature.Takes count)
    (countsNot : signature.countsArguments = false) : count = signature.arguments.length := by
  have all : signature.required = signature.arguments.length := by simpa [Signature.countsArguments] using countsNot
  have least := takes.1
  have most := takes.2
  omega

end Builtins

namespace Emit

section Expressions

variable {context : EmitContext} {site : Site} {given : List Nat} {old : Nat}

theorem lays_storage (name : String) (ty : Ty) (byRef : Bool) :
    Lays context.symbols site given old (namedStorage name ty byRef) (old + 1) := by
  unfold namedStorage
  split
  · exact lays_push _ (fun _ => rfl) rfl rfl
  · cases byRef <;> exact lays_push _ (fun _ => rfl) rfl rfl

theorem lays_array (name : String) (ty : Ty) : Lays context.symbols site given old (wholeArray name ty) (old + 1) := by
  unfold wholeArray
  split <;> exact lays_push _ (fun _ => rfl) rfl rfl

theorem lays_builtin_call {builtin : Builtin} {arguments : List Expr} (notVariadic : builtin.passing ≠ .variadic)
    (takes : builtin.signature.Takes arguments.length)
    (pushed : Lays context.symbols site given old
      (builtinArguments context builtin.signature.byReference arguments) (old + arguments.length)) :
    Lays context.symbols site given old (callBuiltin context builtin arguments) (old + builtin.results) := by
  have few : arguments.length ≤ 32767 := by
    have most := takes.2
    have least := builtin.few_arguments
    omega
  refine lays_seq pushed fun _ => ?_
  dsimp only
  by_cases counts : builtin.signature.countsArguments = true
  · rw [if_pos counts]
    refine lays_counted (fun _ => few) ?_
    rw [Builtin.stackUse, Builtin.passing_counts notVariadic, if_pos counts]
  · rw [if_neg counts, Signature.takes_all takes (by simpa using counts)]
    refine lays_syscall (by rw [Builtin.passing_counts notVariadic, if_neg counts]) (Nat.le_add_left _ _) ?_
    rw [Builtin.arity, Nat.add_sub_cancel]

theorem lays_procedure_call {name : String} {arguments : List Expr} {entry : ProcedureEntry}
    (found : context.symbols.procedure? name = some entry) (takes : entry.params.length = arguments.length)
    (pushed : Lays context.symbols site given old
      (procedureArguments context (entry.params.map Prod.snd) arguments) (old + arguments.length)) :
    Lays context.symbols site given old (callProcedure context entry name arguments) (old + entry.stackUse.2) := by
  rw [← takes] at pushed
  exact lays_seq pushed fun _ => lays_call found

mutual

theorem lays_value (expr : Expr) (accepted : expr.Accepted context.symbols context.registry) (old : Nat) :
    Lays context.symbols site given old (value context expr) (old + 1) := by
  cases expr with
  | literal literal info => exact lays_push _ (fun _ => rfl) rfl rfl
  | «variable» name info => exact lays_storage _ _ _
  | apply name arguments callee info =>
    obtain ⟨-, -, argumentsAccepted, refers⟩ := accepted
    cases callee with
    | unresolved => exact refers.elim
    | element =>
      have pushed := lays_values arguments argumentsAccepted (old + 1)
      cases arguments with
      | nil => exact lays_array _ _
      | cons first rest =>
        refine lays_seq (lays_push _ (fun _ => rfl) rfl rfl) fun _ => lays_seq pushed fun _ => ?_
        rw [Nat.add_assoc, Nat.add_comm 1]
        exact lays_op _ (fun _ => rfl) rfl rfl
    | function =>
      obtain ⟨entry, found, isFunction, takes⟩ := refers
      have called := lays_procedure_call found takes (lays_procedure_arguments _ arguments argumentsAccepted old)
      rw [value_function, found]
      exact lays_restate called (by rw [ProcedureEntry.stackUse, if_pos isFunction])
    | builtin =>
      obtain ⟨builtin, found, takes⟩ := refers
      obtain ⟨isFunction, notVariadic⟩ := Registry.function_passing found
      have called := lays_builtin_call notVariadic takes (lays_builtin_arguments _ arguments argumentsAccepted old)
      rw [value_builtin, found]
      exact lays_restate called (by rw [Builtin.results, if_pos isFunction])
  | member object name info =>
    rw [value]
    split
    · exact lays_seq (lays_reference object accepted.1 old) fun _ => lays_op _ (fun _ => rfl) rfl rfl
    · exact lays_seq (lays_value object accepted.1 old) fun _ => lays_op _ (fun _ => rfl) rfl rfl
  | binary operator left right info =>
    exact lays_seq (lays_value left accepted.1 old) fun _ => lays_seq (lays_value right accepted.2.1 (old + 1)) fun _ =>
      lays_at _ (fun _ => rfl) rfl rfl (Nat.le_add_left 2 old) (by omega)
  | unary operator operand info =>
    cases operator <;>
      exact lays_seq (lays_value operand accepted.1 old) fun _ => lays_op _ (fun _ => rfl) rfl rfl
  | grouped inner info => exact lays_value inner accepted.1 old

theorem lays_reference (expr : Expr) (accepted : expr.Accepted context.symbols context.registry) (old : Nat) :
    Lays context.symbols site given old (reference context expr) (old + 1) := by
  cases expr with
  | «variable» name info => exact lays_storage _ _ _
  | apply name arguments callee info =>
    obtain ⟨-, -, argumentsAccepted, -⟩ := accepted
    cases callee with
    | element =>
      have pushed := lays_values arguments argumentsAccepted (old + 1)
      cases arguments with
      | nil => exact lays_array _ _
      | cons first rest =>
        refine lays_seq (lays_push _ (fun _ => rfl) rfl rfl) fun _ => lays_seq pushed fun _ => ?_
        rw [Nat.add_assoc, Nat.add_comm 1]
        exact lays_op _ (fun _ => rfl) rfl rfl
    | _ => exact lays_error _
  | member object name info =>
    exact lays_seq (lays_reference object accepted.1 old) fun _ => lays_op _ (fun _ => rfl) rfl rfl
  | grouped inner info => exact lays_reference inner accepted.1 old
  | _ => exact lays_error _

theorem lays_procedure_arguments (params : List Ty) (arguments : List Expr)
    (accepted : Expr.AllAccepted context.symbols context.registry arguments) (old : Nat) :
    Lays context.symbols site given old (procedureArguments context params arguments) (old + arguments.length) := by
  cases arguments with
  | nil => exact lays_unit ()
  | cons first rest =>
    have others := lays_procedure_arguments params.tail rest accepted.2 (old + 1)
    rw [procedureArguments, List.length_cons, Nat.add_comm rest.length, ← Nat.add_assoc]
    split
    · exact lays_seq (lays_reference first accepted.1 old) fun _ => others
    · exact lays_seq (lays_value first accepted.1 old) fun _ => others

theorem lays_builtin_arguments (byRef : Bool) (arguments : List Expr)
    (accepted : Expr.AllAccepted context.symbols context.registry arguments) (old : Nat) :
    Lays context.symbols site given old (builtinArguments context byRef arguments) (old + arguments.length) := by
  cases arguments with
  | nil => exact lays_unit ()
  | cons first rest =>
    have others := lays_builtin_arguments byRef rest accepted.2 (old + 1)
    rw [builtinArguments, List.length_cons, Nat.add_comm rest.length, ← Nat.add_assoc]
    split
    · exact lays_seq (lays_reference first accepted.1 old) fun _ => others
    · exact lays_seq (lays_value first accepted.1 old) fun _ => others

theorem lays_values (exprs : List Expr) (accepted : Expr.AllAccepted context.symbols context.registry exprs)
    (old : Nat) : Lays context.symbols site given old (values context exprs) (old + exprs.length) := by
  cases exprs with
  | nil => exact lays_unit ()
  | cons first rest =>
    rw [List.length_cons, Nat.add_comm rest.length, ← Nat.add_assoc]
    exact lays_seq (lays_value first accepted.1 old) fun _ => lays_values rest accepted.2 (old + 1)

end

end Expressions

end Emit

end BasicLang
