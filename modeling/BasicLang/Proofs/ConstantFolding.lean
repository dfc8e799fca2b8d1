import BasicLang.Proofs.Code.ConstantCode

set_option autoImplicit false

namespace BasicLang

structure Constant where
  name : String
  value : Expr
  locus : Locus

namespace Constant

def block : List Constant → Block
  | [] => .nil
  | constant :: rest => .cons constant.locus (.const constant.name constant.value) (block rest)

theorem block_injective {constants others : List Constant} (same : block constants = block others) : constants = others := by
  induction constants generalizing others with
  | nil =>
    cases others with
    | nil => rfl
    | cons => cases same
  | cons constant rest ih =>
    cases others with
    | nil => cases same
    | cons other more =>
      obtain ⟨name, value, locus⟩ := constant
      obtain ⟨otherName, otherValue, otherLocus⟩ := other
      rw [block, block, Block.cons.injEq, Stmt.const.injEq] at same
      obtain ⟨rfl, ⟨rfl, rfl⟩, others⟩ := same
      rw [ih others]

def number? (known : String → Option Int) (constant : Constant) : Option Int := do
  (constantType constant.name constant.value).held? (← constant.value.whole? known)

def learn (known : String → Option Int) (constant : Constant) (number : Int) : String → Option Int :=
  fun name => if name = constant.name then some number else known name

/-- The numbers of constants, each of which may be made of those before it. -/
def numbers? (known : String → Option Int) : List Constant → Option (String → Option Int)
  | [] => some known
  | constant :: rest => do numbers? (constant.learn known (← constant.number? known)) rest

theorem learned_name {known numbers : String → Option Int} {constants : List Constant} {name : String} {number : Int}
    (are : numbers? known constants = some numbers) (isNumber : numbers name = some number) :
    known name = some number ∨ name ∈ constants.map (·.name) := by
  induction constants generalizing known with
  | nil =>
    cases are
    exact .inl isNumber
  | cons constant rest ih =>
    obtain ⟨first, -, others⟩ := Option.bind_eq_some_iff.mp are
    rcases ih others with before | among
    · by_cases same : name = constant.name
      · exact .inr (same ▸ List.mem_cons_self)
      · exact .inl ((if_neg same).symm.trans before)
    · exact .inr (List.mem_cons_of_mem _ among)

end Constant

namespace Check

variable {α : Type}

theorem follows_all {ι : Sort*} [Nonempty ι] {relation : ι → SymbolTable → α → SymbolTable → Prop} {check : Check α}
    (follows : ∀ index, Follows (relation index) check) :
    Follows (fun before result after => ∀ index, relation index before result after) check := by
  intro state
  exact ⟨(follows (Classical.arbitrary ι) state).1, fun quiet index => (follows index state).2 quiet⟩

end Check

structure Machine.Fits {σ : Type} (machine : Machine σ) (table : SymbolTable) (known : String → Option Int) : Prop where
  sound : machine.Sound
  holds : machine.environment.Holds table
  known : machine.environment.Knows table known

theorem Ty.holds_whole {ty : Ty} (isWhole : ty.IsWhole) (number : Int) : ty.Holds (ty.whole number) := by
  rcases isWhole with rfl | rfl <;> rfl

section Storing

variable {σ : Type} {machine stored : Machine σ} {table after : SymbolTable} {known numbers : String → Option Int}
  {checking : CheckContext} {constant : Constant} {number : Int}

theorem Machine.Fits.learn (fits : machine.Fits table known) (checked : constant.value.Checked table checking.registry)
    (isNumber : constant.number? known = some number)
    (declared : ∀ other, after.lookup? other = if other = constant.name then
      some ⟨constant.name, .constant, constantType constant.name constant.value, constant.locus,
        Check.fold table constant.value⟩
      else table.lookup? other)
    (gains : machine.Gains constant.name ((constantType constant.name constant.value).whole number) stored) :
    stored.Fits after (constant.learn known number) := by
  obtain ⟨whole, isWhole, held⟩ := Option.bind_eq_some_iff.mp isNumber
  obtain ⟨rfl, inRange⟩ := Ty.held_iff.mp held
  obtain ⟨folds, exprRange⟩ := Expr.folds_of_whole fits.known constant.value checked.accepted checked.bound isWhole
  obtain ⟨folded, isFolded, foldedWhole⟩ := folds.whole exprRange
  have own : after.lookup? constant.name = some ⟨constant.name, .constant, constantType constant.name constant.value,
      constant.locus, Check.fold table constant.value⟩ := (declared _).trans (if_pos rfl)
  refine ⟨gains.sound, fun name entry isEntry => ?_, fun name found isConstant => ?_⟩
  · rw [gains.same]
    by_cases same : name = constant.name
    · subst same
      obtain rfl := Option.some.inj (own.symm.trans isEntry)
      simp only [Environment.set, if_true]
      exact Ty.holds_whole inRange.is_whole whole
    · rw [declared, if_neg same] at isEntry
      simpa [Environment.set, same] using fits.holds name entry isEntry
  · rw [gains.same]
    by_cases same : name = constant.name
    · subst same
      obtain rfl : whole = found := Option.some.inj ((if_pos rfl).symm.trans isConstant)
      exact ⟨_, folded, own, isFolded, foldedWhole, inRange, if_pos rfl⟩
    · obtain ⟨entry, folded, isEntry, isFolded, isWhole, inRange, value⟩ :=
        fits.known name found ((if_neg same).symm.trans isConstant)
      exact ⟨entry, folded, (declared name).trans ((if_neg same).trans isEntry), isFolded, isWhole, inRange,
        (if_neg same).trans value⟩

theorem follows_block_constants (setup : Setup σ) (checking : CheckContext) (context : EmitContext) (sources : List Constant)
    (wellFormed : ∀ source ∈ sources, source.value.WellFormed) (distinct : (sources.map (·.name)).Nodup) :
    Check.Follows (fun before result after => ∃ constants, result = Constant.block constants ∧
      constants.map (·.name) = sources.map (·.name) ∧
      ∀ known numbers (machine : Machine σ), (∀ source ∈ sources, before.lookup? source.name = none) →
        machine.Fits before known → Constant.numbers? known constants = some numbers →
        ∃ ops, Emit.Adds ops (Emit.block context result) ∧ ∃ stored, (Run.straight setup ops).on machine = (.ok (), stored) ∧
          stored.stack = machine.stack ∧ stored.Fits after numbers)
      (Check.block checking (Constant.block sources)) := by
  induction sources with
  | nil =>
    refine Check.follows_weaken (Check.follows_unit _) ?_
    rintro before result after ⟨rfl, rfl⟩
    refine ⟨[], rfl, rfl, fun known numbers machine _ fits are => ?_⟩
    cases are
    exact ⟨[], fun _ => ⟨_, rfl, by simp⟩, machine, rfl, rfl, fits⟩
  | cons source rest ih =>
    obtain ⟨apart, restDistinct⟩ := List.nodup_cons.mp distinct
    obtain ⟨sourceFormed, restFormed⟩ := List.forall_mem_cons.mp wellFormed
    have checks := Check.follows_all fun known : String → Option Int =>
      @Check.follows_constant checking known source.name source.locus source.value sourceFormed
    have stmt : Check.stmt checking source.locus (.const source.name source.value) =
        (do return .const source.name (← Check.constant checking source.name source.value source.locus)) := rfl
    have unfolded : Check.block checking (Constant.block (source :: rest)) = (do
        let head ← Check.stmt checking source.locus (.const source.name source.value)
        return .cons source.locus head (← Check.block checking (Constant.block rest))) := rfl
    rw [unfolded, stmt]
    refine Check.follows_weaken (Check.follows_seq (Check.follows_seq checks fun _ => Check.follows_unit _) fun _ =>
      Check.follows_seq (ih restFormed restDistinct) fun _ => Check.follows_unit _) ?_
    rintro before _ after ⟨_, between, ⟨value, _, settles, rfl, rfl⟩, _, _, ⟨constants, rfl, names, stores⟩, rfl, rfl⟩
    refine ⟨⟨source.name, value, source.locus⟩ :: constants, rfl, congrArg (source.name :: ·) names, ?_⟩
    intro known numbers machine fresh fits are
    obtain ⟨absent, restFresh⟩ := List.forall_mem_cons.mp fresh
    obtain ⟨number, isNumber, others⟩ := Option.bind_eq_some_iff.mp are
    obtain ⟨whole, isWhole, held⟩ := Option.bind_eq_some_iff.mp isNumber
    obtain ⟨checked, declared⟩ := settles known fits.known.declares (isWhole ▸ rfl) absent
    obtain ⟨rfl, inRange⟩ := Ty.held_iff.mp held
    obtain ⟨ops, adds, stored, ran, gains⟩ :=
      Run.constant_code setup context source.locus checked isWhole inRange absent fits.sound fits.holds fits.known
    have learned := fits.learn checked isNumber declared gains
    have stillFresh : ∀ other ∈ rest, between.lookup? other.name = none := by
      intro other among
      have named : other.name ∈ rest.map (·.name) := List.mem_map_of_mem among
      have different : other.name ≠ source.name := by
        intro same
        rw [same] at named
        exact apart named
      rw [declared, if_neg different]
      exact restFresh other among
    obtain ⟨more, addsMore, last, ranMore, stack, lastFits⟩ := stores _ numbers stored stillFresh learned others
    refine ⟨[] ++ (ops ++ more), Emit.adds_seq (Emit.adds_locus _) (Emit.adds_seq adds addsMore), last, ?_,
      stack.trans gains.stack, lastFits⟩
    rw [List.nil_append, Run.straight_append, Run.on_seq ran]
    exact ranMore

end Storing

theorem Grid.slot_count_from_reversed (count : Nat) (bounds : List Bounds) :
    match slotCountFrom count bounds with
    | .ok _ => ¬∃ found ∈ bounds, found.IsReversed
    | .error .subscript => ∃ found ∈ bounds, found.IsReversed
    | .error .tooLarge => True := by
  induction bounds generalizing count with
  | nil => simp [slotCountFrom]
  | cons first rest ih =>
    rw [slotCountFrom]
    by_cases reversed : first.upper < first.lower
    · rw [if_pos reversed]
      exact ⟨first, List.mem_cons_self, reversed⟩
    · by_cases large : maxSlots < count * first.extent
      · rw [if_neg reversed, if_pos large]
        trivial
      · rw [if_neg reversed, if_neg large]
        have others : (∃ found ∈ first :: rest, found.IsReversed) ↔ ∃ found ∈ rest, found.IsReversed := by
          simp [Bounds.IsReversed, reversed]
        rw [others]
        exact ih _

namespace Run

variable {σ : Type} {machine : Machine σ} {table : SymbolTable} {known : String → Option Int} {checking : CheckContext}
  {state : CheckState} {diagnostics : List Diagnostic}

/-- The code of an expression leaves this whole number on the stack. -/
def Pushes (setup : Setup σ) (context : EmitContext) (machine : Machine σ) (expr : Expr) (number : Int) : Prop :=
  ∃ ops after value, Emit.Adds ops (Emit.value context expr) ∧ (straight setup ops).on machine = (.ok (), after) ∧
    after.stack = .value value :: machine.stack ∧ value.whole? = some number

def DeclarationFails (setup : Setup σ) (context : EmitContext) (machine : Machine σ) (decl : VarDecl) (code : Nat) : Prop :=
  ∃ ops error after, Emit.Adds ops (Emit.dimDecl context decl) ∧
    (straight setup ops).on machine = (.error error, after) ∧ error.code = code

theorem constant_expression (setup : Setup σ) (context : EmitContext) (fits : machine.Fits table known) {source expr : Expr}
    (wellFormed : source.WellFormed) (checked : (Check.expr checking source).run ⟨table, diagnostics⟩ = (expr, state))
    (quiet : state.diagnostics = diagnostics) {number : Int} (isNumber : expr.outermost? known = some number) :
    ∃ folded, Check.fold table expr = some folded ∧
      Pushes setup context machine expr ((nearestWhole number).bmod (2 ^ expr.ty.width)) ∧
      (Double.IsWhole folded ((nearestWhole number).bmod (2 ^ expr.ty.width)) ↔ expr.ty.InRange number) := by
  have settles := Check.settles_checked (Check.settles_expr checking known source)
    (fun table => @Check.ensures_expr table checking source wellFormed) fun final => @Check.binds_expr final checking source
  obtain ⟨-, -, isChecked⟩ := settles.of_run checked quiet ⟨fits.known.declares, isNumber ▸ rfl⟩
  have folds := Expr.folds_of_outermost fits.known expr isChecked.accepted isChecked.bound isNumber
  obtain ⟨folded, isFolded, -⟩ := folds.folded
  have isComputed := Value.whole_of_whole folds.isWhole (nearestWhole number)
  have codes : Codes setup table (Emit.value context expr) (expr.evaluate ·) Pushed :=
    value_codes expr folds.static isChecked.accepted isChecked.bound
  obtain ⟨ops, writes, code⟩ := codes
  have computes := code machine fits.sound fits.holds
  change Computes setup ops machine (expr.evaluate machine.environment) _ at computes
  rw [folds.evaluated] at computes
  obtain ⟨after, ran, -, -, -, top⟩ := computes
  exact ⟨folded, isFolded, ⟨ops, after, _, Emit.adds_of_writes writes, ran, top, isComputed⟩,
    folds.same_iff isFolded isComputed⟩

theorem adds_unique {ops others : List Op} {emit : Emit Unit} (adds : Emit.Adds ops emit) (alike : Emit.Adds others emit) :
    ops = others := by
  obtain ⟨after, ran, code⟩ := adds .empty
  obtain ⟨other, ranOther, codeOther⟩ := alike .empty
  obtain rfl : after = other := congrArg Prod.snd (Except.ok.inj (ran.symm.trans ranOther))
  exact List.append_cancel_left (code.symm.trans codeOther)

/-- A declaration with known bounds is said to have reversed ones if and only if its code stops because of them, unless the
array becomes too large before the first of them. -/
theorem constant_bounds (setup : Setup σ) (context : EmitContext) (shared : Bool) (fits : machine.Fits table known)
    {decl : VarDecl} {dims : List Dimension} {bounds : List Bounds} (isArray : decl.isArray = true)
    (wellFormed : ∀ dim ∈ decl.dimensions, dim.WellFormed)
    (checked : (decl.dimensions.mapM (Check.dimension checking)).run ⟨table, diagnostics⟩ = (dims, state))
    (quiet : state.diagnostics = diagnostics) (isWhole : dims.mapM (Dimension.whole? known) = some bounds)
    (resolves : ∀ spec ∈ decl.typeSpec, (context.symbols.resolve? spec).isSome = true) :
    (Check.Reports (Check.dimDecl checking shared decl) ⟨table, diagnostics⟩ ⟨.invalidBounds decl.name, decl.locus⟩ ↔
      DeclarationFails setup context machine ((Check.dimDecl checking shared decl).run ⟨table, diagnostics⟩).1 9) ↔
      ¬(Grid.slotCount bounds = .error .tooLarge ∧ ∃ found ∈ bounds, found.IsReversed) := by
  have follows := (@Check.follows_dimensions checking decl known _ wellFormed).of_run checked quiet
  obtain ⟨-, dimsChecked, runs⟩ := follows machine.environment bounds fits.known isWhole
  rw [Check.dim_decl_reports isArray runs, Check.dim_decl_result isArray runs]
  obtain ⟨ops, adds, outcome⟩ := @dim_code _ _ _ checking.registry _ _ setup context { decl with dimensions := dims }
    isArray fits.known dimsChecked isWhole resolves fits.sound fits.holds
  -- The declaration has one code only, so it fails as that code does.
  have fails (code : Nat) : DeclarationFails setup context machine { decl with dimensions := dims } code ↔
      ∃ error stopped, (straight setup ops).on machine = (.error error, stopped) ∧ error.code = code := by
    constructor
    · rintro ⟨others, error, stopped, alike, failed, isCode⟩
      rw [← adds_unique adds alike] at failed
      exact ⟨error, stopped, failed, isCode⟩
    · rintro ⟨error, stopped, failed, isCode⟩
      exact ⟨ops, error, stopped, adds, failed, isCode⟩
  have counted := Grid.slot_count_from_reversed 1 bounds
  rw [fails]
  change (match Grid.slotCount bounds with
    | .ok _ => _
    | .error .subscript => _
    | .error .tooLarge => _) at counted
  cases slots : Grid.slotCount bounds with
  | ok count =>
    rw [slots] at counted outcome
    obtain ⟨after, ran⟩ := outcome
    simp [counted, ran]
  | error fault =>
    rw [slots] at counted outcome
    obtain ⟨stopped, failed⟩ := outcome
    cases fault with
    | tooLarge =>
      have other : (RuntimeError.ofFault (.value (.ofGrid .tooLarge))).code ≠ 9 := by decide
      simp [failed, other]
    | subscript =>
      have same : (RuntimeError.ofFault (.value (.ofGrid .subscript))).code = 9 := rfl
      simp [counted, failed, same]

end Run

namespace Constant

variable {σ : Type}

structure Kept (constants : List Constant) (before : SymbolTable) (machine : Machine σ) (after : SymbolTable)
    (later : Machine σ) : Prop where
  declared : ∀ constant ∈ constants, after.lookup? constant.name = before.lookup? constant.name
  stored : ∀ constant ∈ constants, later.environment.value? constant.name = machine.environment.value? constant.name

theorem Kept.knows {constants sources : List Constant} {before after : SymbolTable} {machine later : Machine σ}
    {numbers : String → Option Int} (kept : Kept sources before machine after later)
    (names : constants.map (·.name) = sources.map (·.name)) (are : numbers? (fun _ => none) constants = some numbers)
    (known : machine.environment.Knows before numbers) : later.environment.Knows after numbers := by
  intro name number isNumber
  have among := (learned_name are isNumber).resolve_left (by simp)
  rw [names] at among
  obtain ⟨source, isSource, rfl⟩ := List.mem_map.mp among
  rw [kept.declared source isSource, kept.stored source isSource]
  exact known _ number isNumber

end Constant

/-- Constants are stored with the numbers that they are folded to. In what is made of them later, an operator that leaves the
range of its type is where folding and execution part. -/
theorem constants_fold_as_computed {σ : Type} (setup : Setup σ) (context : EmitContext) (checking : CheckContext)
    {sources constants : List Constant} (wellFormed : ∀ source ∈ sources, source.value.WellFormed)
    (distinct : (sources.map (·.name)).Nodup) {before after : CheckState}
    (checked : (Check.block checking (Constant.block sources)).run before = (Constant.block constants, after))
    (quiet : after.diagnostics = before.diagnostics) (fresh : ∀ source ∈ sources, before.symbols.lookup? source.name = none)
    {machine : Machine σ} (sound : machine.Sound) (holds : machine.environment.Holds before.symbols)
    {numbers : String → Option Int} (are : Constant.numbers? (fun _ => none) constants = some numbers) :
    ∃ ops stored, Emit.Adds ops (Emit.block context (Constant.block constants)) ∧
      (Run.straight setup ops).on machine = (.ok (), stored) ∧ stored.Sound ∧ stored.environment.Holds after.symbols ∧
      ∀ (further : CheckContext) (table : SymbolTable) (diagnostics : List Diagnostic) (state : CheckState)
        (later : Machine σ), Constant.Kept sources after.symbols stored table later → later.Sound →
        later.environment.Holds table →
        (∀ (source expr : Expr) (number : Int), source.WellFormed →
          (Check.expr further source).run ⟨table, diagnostics⟩ = (expr, state) → state.diagnostics = diagnostics →
          expr.outermost? numbers = some number →
          ∃ folded, Check.fold table expr = some folded ∧
            Run.Pushes setup context later expr ((nearestWhole number).bmod (2 ^ expr.ty.width)) ∧
            (Double.IsWhole folded ((nearestWhole number).bmod (2 ^ expr.ty.width)) ↔ expr.ty.InRange number)) ∧
        ∀ (shared : Bool) (decl : VarDecl) (dims : List Dimension) (bounds : List Bounds), decl.isArray = true →
          (∀ dim ∈ decl.dimensions, dim.WellFormed) →
          (decl.dimensions.mapM (Check.dimension further)).run ⟨table, diagnostics⟩ = (dims, state) →
          state.diagnostics = diagnostics → dims.mapM (Dimension.whole? numbers) = some bounds →
          (∀ spec ∈ decl.typeSpec, (context.symbols.resolve? spec).isSome = true) →
          ((Check.Reports (Check.dimDecl further shared decl) ⟨table, diagnostics⟩ ⟨.invalidBounds decl.name, decl.locus⟩ ↔
            Run.DeclarationFails setup context later
              ((Check.dimDecl further shared decl).run ⟨table, diagnostics⟩).1 9) ↔
            ¬(Grid.slotCount bounds = .error .tooLarge ∧ ∃ found ∈ bounds, found.IsReversed)) := by
  obtain ⟨found, same, names, stores⟩ :=
    (follows_block_constants setup checking context sources wellFormed distinct).of_run checked quiet
  obtain rfl := Constant.block_injective same
  have nothing : machine.environment.Knows before.symbols fun _ => none := fun _ _ impossible => nomatch impossible
  obtain ⟨ops, adds, stored, ran, -, fits⟩ := stores _ numbers machine fresh ⟨sound, holds, nothing⟩ are
  refine ⟨ops, stored, adds, ran, fits.sound, fits.holds,
    fun further table diagnostics state later kept laterSound laterHolds => ?_⟩
  have laterFits : later.Fits table numbers := ⟨laterSound, laterHolds, kept.knows names are fits.known⟩
  constructor
  · intro source expr number sourceFormed exprChecked exprQuiet isNumber
    exact Run.constant_expression setup context laterFits sourceFormed exprChecked exprQuiet isNumber
  · intro shared decl dims bounds isArray dimsFormed dimsChecked dimsQuiet isWhole resolves
    exact Run.constant_bounds setup context shared laterFits isArray dimsFormed dimsChecked dimsQuiet isWhole resolves

section Sample

def sampleConstant : Constant := ⟨"K", .literal (.integer 4) ⟨⟨1, 11⟩, none⟩, ⟨1, 1⟩⟩

def sampleTotal : Expr :=
  .binary .add (.variable "K" ⟨⟨2, 1⟩, none⟩) (.literal (.integer 1) ⟨⟨2, 5⟩, none⟩) ⟨⟨2, 3⟩, none⟩

def sampleReversed : VarDecl :=
  ⟨"A%", [⟨some (.variable "K" ⟨⟨3, 8⟩, none⟩), .literal (.integer 1) ⟨⟨3, 13⟩, none⟩⟩], true, none, ⟨3, 5⟩⟩

def sampleDeclared : CheckState := ((Check.block sampleContext (Constant.block [sampleConstant])).run ⟨.empty, []⟩).2

theorem sample_constant_folded : ∃ (machine : Machine Bench) (expr : Expr) (folded : Float),
    (Check.expr sampleContext sampleTotal).run sampleDeclared = (expr, sampleDeclared) ∧
      Check.fold sampleDeclared.symbols expr = some folded ∧ Double.IsWhole folded 5 ∧
      Run.Pushes (.ofDevices Bench.bare .standard) ⟨.empty, .standard, [], none⟩ machine expr 5 ∧
      Run.DeclarationFails (.ofDevices Bench.bare .standard) ⟨.empty, .standard, [], none⟩ machine
        ((Check.dimDecl sampleContext false sampleReversed).run sampleDeclared).1 9 := by
  have holds : (Machine.create Bench.empty).environment.Holds .empty :=
    Environment.holds_of_none (fun _ => rfl) (by simp [SymbolTable.empty])
  have formed : ∀ source ∈ [sampleConstant], source.value.WellFormed := by
    rintro source (_ | ⟨_, ⟨⟩⟩)
    exact ⟨by decide, by decide⟩
  obtain ⟨ops, stored, -, -, sound, typed, agree⟩ := @constants_fold_as_computed _ (.ofDevices Bench.bare .standard)
    ⟨.empty, .standard, [], none⟩ sampleContext [sampleConstant]
    [⟨"K", .literal (.integer 4) ⟨⟨1, 11⟩, some .integer⟩, ⟨1, 1⟩⟩] formed (by decide) ⟨.empty, []⟩ sampleDeclared
      rfl rfl (by decide)
    (Machine.create Bench.empty) (Machine.create_sound _) holds (fun name => if name = "K" then some 4 else none) rfl
  obtain ⟨agreeExpr, agreeBounds⟩ := agree sampleContext sampleDeclared.symbols [] sampleDeclared stored
    ⟨fun _ _ => rfl, fun _ _ => rfl⟩ sound typed
  have variableFormed (locus : Locus) (info : Option Ty) : (Expr.variable "K" ⟨locus, info⟩).WellFormed :=
    ⟨'K', [], by decide, rfl⟩
  obtain ⟨folded, isFolded, pushes, same⟩ := agreeExpr sampleTotal _ 5 ⟨variableFormed _ _, by decide, by decide⟩ rfl rfl rfl
  have wrapped : (nearestWhole 5).bmod (2 ^ 16) = 5 := by
    rw [nearest_small (by decide)]
    rfl
  have dimFormed : ∀ dim ∈ sampleReversed.dimensions, dim.WellFormed := by
    rintro dim (_ | ⟨_, ⟨⟩⟩)
    exact ⟨fun lower isLower => by cases isLower; exact variableFormed _ _, by decide, by decide⟩
  have failed := (agreeBounds false sampleReversed _ [⟨4, 1⟩] rfl dimFormed rfl rfl rfl (by decide)).mpr (by decide)
  have reported : ((Check.dimDecl sampleContext false sampleReversed).run sampleDeclared).2.diagnostics =
      [⟨.invalidBounds "A%", ⟨3, 5⟩⟩] := by decide +kernel
  refine ⟨stored, _, folded, rfl, isFolded, ?_, ?_, failed.mp ⟨[_], reported, List.mem_singleton_self _⟩⟩
  · exact wrapped ▸ same.mpr (by decide)
  · exact wrapped ▸ pushes

-- The sum is an `INTEGER` of the code, where it is out of range, and not one of the checker.
theorem sum_out_of_range_declared : ∃ image, compile "DIM A%(32767 + 1)" .standard = .ok image ∧
    ((Run.program (.ofDevices Bench.bare .standard) image 10).on (Machine.create Bench.empty)).1.mapError RuntimeError.code =
      .error 9 := by
  have found : ((compile "DIM A%(32767 + 1)" .standard).toOption.any fun image =>
      ((Run.program (.ofDevices Bench.bare .standard) image 10).on (Machine.create Bench.empty)).1.mapError RuntimeError.code =
        .error 9) = true := by decide +kernel
  cases compiled : compile "DIM A%(32767 + 1)" .standard with
  | error errors =>
    rw [compiled] at found
    cases found
  | ok image =>
    rw [compiled] at found
    exact ⟨image, rfl, of_decide_eq_true found⟩

end Sample

end BasicLang
