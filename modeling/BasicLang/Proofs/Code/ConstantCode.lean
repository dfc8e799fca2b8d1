import BasicLang.Proofs.Arrays
import BasicLang.Proofs.Code.ExprCode
import BasicLang.Proofs.Machine.Iteration
import BasicLang.Proofs.Typing.Constants

set_option autoImplicit false

namespace BasicLang

namespace Emit

def Adds (ops : List Op) (emit : Emit Unit) : Prop :=
  ∀ before, ∃ after, emit.run before = .ok ((), after) ∧
    after.code.toList.map (·.op) = before.code.toList.map (·.op) ++ ops

theorem emitted_ops (ops : List Op) (assembly : Assembly) :
    (ops.foldl Assembly.emit assembly).code.toList.map (·.op) = assembly.code.toList.map (·.op) ++ ops := by
  induction ops generalizing assembly with
  | nil => simp
  | cons op rest ih =>
    rw [List.foldl_cons, ih]
    simp [Assembly.emit]

theorem adds_of_writes {ops : List Op} {emit : Emit Unit} (writes : Writes ops emit) : Adds ops emit :=
  fun before => ⟨_, writes before, emitted_ops ops before⟩

theorem adds_seq {first second : List Op} {emit : Emit Unit} {next : Unit → Emit Unit} (adds : Adds first emit)
    (addsNext : Adds second (next ())) : Adds (first ++ second) (emit >>= next) := by
  intro before
  obtain ⟨between, ran, code⟩ := adds before
  obtain ⟨after, ranNext, codeNext⟩ := addsNext between
  refine ⟨after, ?_, by rw [codeNext, code, List.append_assoc]⟩
  rw [StateT.run_bind, ran]
  exact ranNext

theorem adds_locus (locus : Locus) : Adds [] (setLocus locus) := fun _ => ⟨_, rfl, by simp⟩

end Emit

namespace Machine

variable {σ : Type} {machine after : Machine σ} {name other : String} {cell : Cell} {value : Value}

structure Gains (machine : Machine σ) (name : String) (value : Value) (after : Machine σ) : Prop where
  sound : after.Sound
  same : after.environment = machine.environment.set name value
  stack : after.stack = machine.stack

theorem value_lookup : machine.environment.value? name = none ↔ machine.lookup? name = none := Option.map_eq_none_iff

theorem Extends.lookup (extends_ : machine.Extends after) (same : after.environment = machine.environment) (name : String) :
    after.lookup? name = machine.lookup? name := by
  cases found : machine.lookup? name with
  | none => rw [← value_lookup, same, value_lookup, found]
  | some cell =>
    have scope : after.scopeOf name = machine.scopeOf name := by rw [extends_.rest]; rfl
    rw [lookup?, scope]
    exact extends_.kept _ _ _ found

theorem Sound.gains {store : Store} {first : Value} {later : Machine σ} (sound : machine.Sound)
    (allocates : Store.Allocates machine.store [first] [cell] store) (scalar : value.isScalar = true)
    (extends_ : ({ machine with store }.bind name cell).Extends later) (soundLater : later.Sound)
    (same : later.environment = ({ machine with store }.bind name cell).environment) (stack : List StackItem) :
    ({ later with stack, store := later.store.write cell value } : Machine σ).Sound ∧
      ({ later with stack, store := later.store.write cell value } : Machine σ).environment =
        machine.environment.set name value := by
  have bound : later.lookup? name = some cell := by
    rw [extends_.lookup same, bind_lookup sound, if_pos rfl]
  have below := soundLater.cells _ _ _ bound
  have evolves := Store.write_evolves soundLater.closed cell value
  have grown : machine.store.Extends (later.store.write cell value) := by
    rw [Store.write_scalar scalar]
    exact (allocates.extends_.trans extends_.store).put _ (allocates.fresh cell List.mem_cons_self).1 below
  refine ⟨⟨evolves.closed, fun scope other held isThere => ?_, soundLater.scope⟩, ?_⟩
  · exact Nat.lt_of_lt_of_le (soundLater.cells scope other held isThere) evolves.size
  · have types : later.implicitType = machine.implicitType := congrArg Environment.implicitType same
    have named (other : String) : later.lookup? other = if other = name then some cell else machine.lookup? other := by
      rw [extends_.lookup same, bind_lookup sound]
    change (⟨fun other => (later.lookup? other).map (later.store.write cell value).read, later.implicitType⟩ : Environment) = _
    rw [types, Environment.set]
    congr 1
    funext other
    rw [named]
    by_cases isName : other = name
    · rw [if_pos isName, if_pos isName, Store.write_scalar scalar, Option.map_some, Store.read_put_same below]
    · rw [if_neg isName, if_neg isName]
      cases found : machine.lookup? other with
      | none => exact (value_lookup.mpr found).symm
      | some held =>
        rw [Option.map_some, grown.read sound.closed (sound.cells _ _ _ found)]
        simp [environment, found]

end Machine

namespace Environment

variable {environment : Environment} {table : SymbolTable} {constants : String → Option Int} {name : String}

theorem Knows.set (known : environment.Knows table constants) (unknown : constants name = none) (value : Value) :
    (environment.set name value).Knows table constants := by
  intro other number isConstant
  obtain ⟨entry, folded, declared, isFolded, isWhole, inRange, found⟩ := known other number isConstant
  have different : other ≠ name := by
    rintro rfl
    simp [unknown] at isConstant
  exact ⟨entry, folded, declared, isFolded, isWhole, inRange, (if_neg different).trans found⟩

theorem Knows.new (known : environment.Knows table constants) (absent : table.lookup? name = none) : constants name = none := by
  cases isConstant : constants name with
  | none => rfl
  | some number => simpa [absent] using known.declares name number isConstant

theorem Holds.set (holds : environment.Holds table) (absent : table.lookup? name = none) (value : Value) :
    (environment.set name value).Holds table := by
  intro other entry declared
  have different : other ≠ name := by
    rintro rfl
    simp [absent] at declared
  simpa [Environment.set, different] using holds other entry declared

end Environment

namespace Run

variable {σ : Type} {setup : Setup σ} {machine : Machine σ} {table : SymbolTable} {registry : Registry}
  {constants : String → Option Int} {name : String} {expr : Expr} {number : Int}

theorem constant_code (setup : Setup σ) (context : EmitContext) (locus : Locus) (checked : expr.Checked table registry)
    (isWhole : expr.whole? constants = some number) (inRange : (constantType name expr).InRange number)
    (absent : table.lookup? name = none) (sound : machine.Sound) (holds : machine.environment.Holds table)
    (known : machine.environment.Knows table constants) :
    ∃ ops, Emit.Adds ops (Emit.stmt context locus (.const name expr)) ∧ ∃ after,
      (straight setup ops).on machine = (.ok (), after) ∧
        machine.Gains name ((constantType name expr).whole number) after := by
  let ty := constantType name expr
  have allocates := Store.allocate_spec sound.closed ty.default
  let cell := (machine.store.allocate ty.default).1
  let declared := { machine with store := (machine.store.allocate ty.default).2 }.bind name cell
  have declaredSound : declared.Sound := Machine.bind_sound sound allocates
  have declaredSame : declared.environment = machine.environment.set name ty.default :=
    Machine.bind_environment sound allocates
  have bound : declared.lookup? name = some cell := by
    rw [Machine.bind_lookup sound, if_pos rfl]
  -- The expression does not use the name, so it has the value that it had before.
  have knownThere : declared.environment.Knows table constants := declaredSame ▸ known.set (known.new absent) _
  have holdsThere : declared.environment.Holds table := declaredSame ▸ holds.set absent _
  obtain ⟨folds, exprRange⟩ := Expr.folds_of_whole knownThere expr checked.accepted checked.bound isWhole
  have codes : Codes setup table (Emit.value context expr) (expr.evaluate ·) Pushed :=
    value_codes expr folds.static checked.accepted checked.bound
  obtain ⟨ops, writes, code⟩ := codes
  have computed := code { declared with stack := .reference cell :: declared.stack } (declaredSound.stack _) holdsThere
  have evaluated : expr.evaluate declared.environment = .ok (expr.ty.whole number, declared.environment) :=
    folds.value exprRange
  change Computes setup ops _ (expr.evaluate declared.environment) _ at computed
  rw [evaluated] at computed
  obtain ⟨later, ran, extends_, laterSound, laterSame, top⟩ := computed
  have fromDeclared : declared.Extends later := ⟨extends_.rest, extends_.store, extends_.kept⟩
  have below : cell < declared.store.size := declaredSound.cells _ _ _ bound
  have held : later.store.read cell = ty.default := by
    rw [extends_.store.read declaredSound.closed below]
    exact allocates.read
  have cellTy : later.store.ty cell = ty := by
    rw [← Store.read_ty, held]
    rcases inRange.is_whole with isTy | isTy <;> rw [show ty = _ from isTy] <;> rfl
  have converted : (later.store.ty cell).convert (expr.ty.whole number) = .ok (ty.whole number) := by
    rw [cellTy]
    exact Ty.convert_whole inRange (Ty.whole_number exprRange)
  have some : later.store.ty cell ≠ .null := by
    rw [cellTy]
    rcases inRange.is_whole with isTy | isTy <;> rw [show ty = _ from isTy] <;> simp
  have assigned := @on_assign_top _ setup _ _ _ _ _ top some converted
  have gained := sound.gains allocates (Ty.whole_scalar ty number) fromDeclared laterSound laterSame machine.stack
  refine ⟨.dim name ty :: .pushRef name :: (ops ++ [.assign]), ?_, _, ?_, gained.1, gained.2, rfl⟩
  · have written : Emit.Writes ([.dim name ty] ++ ([.pushRef name] ++ (ops ++ [.assign])))
      (Emit.stmt context locus (.const name expr)) :=
      Emit.writes_seq (Emit.writes_op _) (Emit.writes_seq (Emit.writes_op _) (Emit.writes_seq writes (Emit.writes_op _)))
    exact Emit.adds_of_writes written
  · have created : (execute setup (.dim name ty)).on machine = (.ok (), declared) := rfl
    have referred : (execute setup (.pushRef name)).on declared =
      (.ok (), { declared with stack := .reference cell :: declared.stack }) :=
      on_refer_bound bound
    change (execute setup (.dim name ty) >>= fun _ => execute setup (.pushRef name) >>= fun _ =>
      straight setup (ops ++ [.assign])).on machine = _
    rw [on_seq created, on_seq referred, straight_append, on_seq ran, straight_one]
    exact assigned

section Bounds

variable {environment : Environment} {dims : List Dimension} {bounds : List Bounds}

def zeroBound : Expr := .literal (.integer 0) ⟨⟨0, 0⟩, some .integer⟩

def boundExprs (dims : List Dimension) : List Expr := dims.flatMap fun dim => [dim.lower.getD zeroBound, dim.upper]

theorem bounds_values (context : EmitContext) (dims : List Dimension) :
    Emit.bounds context dims = Emit.values context (boundExprs dims) := by
  induction dims with
  | nil => rfl
  | cons dim rest ih =>
    have written : Emit.bounds context (dim :: rest) = (do
        Emit.value context (dim.lower.getD zeroBound)
        Emit.value context dim.upper
        Emit.bounds context rest) := by
      cases lower : dim.lower with
      | none => simp [Emit.bounds, lower, zeroBound, Emit.value, Emit.pushInteger, Literal.value]
      | some expr => simp [Emit.bounds, lower]
    rw [written, ih]
    rfl

theorem zero_checked : zeroBound.Checked table registry := ⟨⟨⟨by decide, by decide⟩, rfl⟩, trivial⟩

theorem bound_exprs_checked (checked : ∀ dim ∈ dims, dim.Checked table registry) :
    ∀ expr ∈ boundExprs dims, expr.Checked table registry := by
  intro expr among
  obtain ⟨dim, isDim, isBound⟩ := List.mem_flatMap.mp among
  have ofDim := checked dim isDim
  cases lower : dim.lower with
  | none =>
    rw [lower, Option.getD_none, List.mem_pair] at isBound
    rcases isBound with rfl | rfl
    · exact zero_checked
    · exact ofDim.upper
  | some first =>
    rw [lower, Option.getD_some, List.mem_pair] at isBound
    rcases isBound with rfl | rfl
    · exact ofDim.lower _ lower
    · exact ofDim.upper

theorem bound_exprs_whole (isWhole : dims.mapM (Dimension.whole? constants) = some bounds) :
    (boundExprs dims).mapM (Expr.whole? constants) = some (bounds.flatMap fun found => [found.lower, found.upper]) := by
  induction dims generalizing bounds with
  | nil =>
    cases isWhole
    rfl
  | cons dim rest ih =>
    obtain ⟨found, others, foundWhole, otherWhole, rfl⟩ := Dimension.whole_cons isWhole
    obtain ⟨least, lowerWhole, further⟩ := Option.bind_eq_some_iff.mp foundWhole
    obtain ⟨most, upperWhole, same⟩ := Option.bind_eq_some_iff.mp further
    cases same
    have lowest : (dim.lower.getD zeroBound).whole? constants = some least := by
      cases lower : dim.lower with
      | none =>
        rw [lower] at lowerWhole
        exact lowerWhole
      | some first =>
        rw [lower] at lowerWhole
        exact lowerWhole
    have split : boundExprs (dim :: rest) = dim.lower.getD zeroBound :: dim.upper :: boundExprs rest := rfl
    rw [split, List.mapM_cons, List.mapM_cons, lowest, upperWhole, ih otherWhole]
    rfl

theorem exprs_whole (known : environment.Knows table constants) {exprs : List Expr} {numbers : List Int}
    (checked : ∀ expr ∈ exprs, expr.Checked table registry) (isWhole : exprs.mapM (Expr.whole? constants) = some numbers) :
    Expr.AllStatic exprs ∧ Expr.AllAccepted table registry exprs ∧ Expr.AllBound table exprs ∧ ∃ values,
      Expr.evaluateAll environment exprs = .ok (values, environment) ∧ values.map Value.toInt? = numbers.map some := by
  induction exprs generalizing numbers with
  | nil =>
    cases isWhole
    exact ⟨trivial, trivial, trivial, [], rfl, rfl⟩
  | cons expr rest ih =>
    rw [List.mapM_cons] at isWhole
    obtain ⟨number, exprWhole, further⟩ := Option.bind_eq_some_iff.mp isWhole
    obtain ⟨others, otherWhole, same⟩ := Option.bind_eq_some_iff.mp further
    cases same
    obtain ⟨isChecked, restChecked⟩ := List.forall_mem_cons.mp checked
    obtain ⟨folds, inRange⟩ := Expr.folds_of_whole known expr isChecked.accepted isChecked.bound exprWhole
    obtain ⟨static, accepted, bound, values, evaluated, are⟩ := ih restChecked otherWhole
    refine ⟨⟨folds.static, static⟩, ⟨isChecked.accepted, accepted⟩, ⟨isChecked.bound, bound⟩,
      expr.ty.whole number :: values, ?_, ?_⟩
    · rw [Expr.evaluateAll, folds.value inRange]
      change (Expr.evaluateAll environment rest >>= _) = _
      rw [evaluated]
      rfl
    · have toInt : (expr.ty.whole number).toInt? = some number := by
        rw [Value.toInt?, Ty.whole_number inRange]
        exact congrArg some (Double.to_int_of_int inRange.exact)
      rw [List.map_cons, toInt, are]
      rfl

theorem pair_bounds (bounds : List Bounds) : pairBounds (bounds.flatMap fun found => [found.lower, found.upper]) = bounds := by
  induction bounds with
  | nil => rfl
  | cons found rest ih => exact congrArg (found :: ·) ih

theorem bounds_code (setup : Setup σ) (context : EmitContext) (checked : ∀ dim ∈ dims, dim.Checked table registry)
    (isWhole : dims.mapM (Dimension.whole? constants) = some bounds) (sound : machine.Sound)
    (holds : machine.environment.Holds table) (known : machine.environment.Knows table constants) :
    ∃ ops, Emit.Writes ops (Emit.bounds context dims) ∧ ∃ after, (straight setup ops).on machine = (.ok (), after) ∧
      after.environment = machine.environment ∧
      (popBounds dims.length).on after = (.ok bounds, { after with stack := machine.stack }) := by
  obtain ⟨static, accepted, bound, values, evaluated, are⟩ :=
    exprs_whole known (bound_exprs_checked checked) (bound_exprs_whole isWhole)
  have codes : Codes setup table (Emit.values context (boundExprs dims)) (Expr.evaluateAll · (boundExprs dims)) PushedAll :=
    values_codes (boundExprs dims) static accepted bound
  obtain ⟨ops, writes, code⟩ := codes
  have computed := code machine sound holds
  change Computes setup ops machine (Expr.evaluateAll machine.environment (boundExprs dims)) _ at computed
  rw [evaluated] at computed
  obtain ⟨after, ran, -, -, same, top⟩ := computed
  refine ⟨ops, bounds_values context dims ▸ writes, after, ran, same, ?_⟩
  have numbers : ∀ value ∈ values.reverse, value.toInt?.isSome = true := by
    intro value among
    have isNumber := List.mem_map_of_mem (f := Value.toInt?) (List.mem_reverse.mp among)
    rw [are] at isNumber
    obtain ⟨number, -, isInt⟩ := List.mem_map.mp isNumber
    rw [← isInt]
    rfl
  have found : values.filterMap Value.toInt? = bounds.flatMap fun found => [found.lower, found.upper] := by
    have all := congrArg (List.filterMap id) are
    rwa [List.filterMap_map, List.filterMap_map, Function.id_comp, Function.id_comp, List.filterMap_some] at all
  have count : values.reverse.length = dims.length * 2 := by
    rw [List.length_reverse, Expr.evaluate_all_length evaluated]
    simp [boundExprs, List.length_flatMap]
  have popped := on_pop_ints values.reverse [] numbers top
  rw [count, List.filterMap_reverse, List.reverse_reverse, List.append_nil, found] at popped
  rw [popBounds, popInts, on_seq popped, pair_bounds]
  rfl

theorem dim_code (setup : Setup σ) (context : EmitContext) {decl : VarDecl} (isArray : decl.isArray = true)
    (known : machine.environment.Knows table constants) (checked : ∀ dim ∈ decl.dimensions, dim.Checked table registry)
    (isWhole : decl.dimensions.mapM (Dimension.whole? constants) = some bounds)
    (resolves : ∀ spec ∈ decl.typeSpec, (context.symbols.resolve? spec).isSome = true)
    (sound : machine.Sound) (holds : machine.environment.Holds table) :
    ∃ ops, Emit.Adds ops (Emit.dimDecl context decl) ∧
      match Grid.slotCount bounds with
      | .error fault => ∃ stopped, (straight setup ops).on machine = (.error (.ofFault (.value (.ofGrid fault))), stopped)
      | .ok _ => ∃ after, (straight setup ops).on machine = (.ok (), after) := by
  obtain ⟨element, typed⟩ : ∃ element, Emit.elementType context decl = pure element := by
    unfold Emit.elementType
    cases spec : decl.typeSpec with
    | none => exact ⟨_, rfl⟩
    | some written =>
      obtain ⟨ty, isTy⟩ := Option.isSome_iff_exists.mp (resolves written spec)
      refine ⟨ty, ?_⟩
      simp only [Emit.typeOf, isTy]
  have written : Emit.dimDecl context decl = (do
      Emit.setLocus decl.locus
      if decl.dimensions.isEmpty then Emit.op (.dim decl.name (.array element 0))
      else
        Emit.bounds context decl.dimensions
        Emit.op (.dimArray decl.name element decl.dimensions.length)) := by
    rw [Emit.dimDecl, typed, isArray]
    rfl
  rw [written]
  cases dims : decl.dimensions with
  | nil =>
    rw [dims] at isWhole
    cases isWhole
    exact ⟨_, Emit.adds_seq (Emit.adds_locus _) (Emit.adds_of_writes (Emit.writes_op _)), _, rfl⟩
  | cons first rest =>
    rw [← dims, if_neg (by simp [dims])]
    obtain ⟨ops, writes, after, ran, -, popped⟩ := bounds_code setup context checked isWhole sound holds known
    refine ⟨_, Emit.adds_seq (Emit.adds_locus _) (Emit.adds_of_writes (Emit.writes_seq writes (Emit.writes_op _))), ?_⟩
    have runs : (straight setup ([] ++ (ops ++ [.dimArray decl.name element decl.dimensions.length]))).on machine =
        (declareArray decl.name element bounds).on { after with stack := machine.stack } := by
      rw [List.nil_append, straight_append, on_seq ran, straight_one, execute, on_seq popped]
    rw [runs]
    cases counted : Grid.slotCount bounds with
    | error fault => exact ⟨_, on_declare_refused decl.name element counted⟩
    | ok count =>
      rw [declareArray, counted]
      exact ⟨_, rfl⟩

end Bounds

end Run

end BasicLang
