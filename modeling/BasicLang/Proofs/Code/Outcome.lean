import BasicLang.Proofs.Code.Demand
import BasicLang.Proofs.Code.Effect
import BasicLang.Proofs.Typing.AcceptedProgram

set_option autoImplicit false

namespace BasicLang

namespace Emit

/-- From code that has come as far as the effect allows, emission succeeds if and only if the
condition of the effect holds, and the labels are then as the effect says. -/
def Emits {α : Type} (known : List String) (bound : Nat) (effect : Effect) (emit : Emit α) : Prop :=
  ∀ (progress : Progress) (assembly : Assembly), bound ≤ progress.bound →
    progress.Allows known effect → assembly.At known progress → assembly.Calls progress →
    (effect.can → ∃ result after, emit.run assembly = .ok (result, after) ∧
      after.At known (progress.after effect) ∧ after.Calls (progress.after effect)) ∧
    (¬effect.can → ∃ error, emit.run assembly = .error error)

variable {α β : Type} {known : List String} {bound : Nat} {effect : Effect}

theorem run_ok {first : Emit α} {next : α → Emit β} {before between : Assembly} {result : α}
    (ran : first.run before = .ok (result, between)) :
    (first >>= next).run before = (next result).run between := by
  rw [StateT.run_bind, ran]
  rfl

theorem run_error {first : Emit α} {next : α → Emit β} {before : Assembly} {error : CodeError}
    (failed : first.run before = .error error) : (first >>= next).run before = .error error := by
  rw [StateT.run_bind, failed]
  rfl

theorem emits_same {other : Effect} {emit : Emit α} (emits : Emits known bound other emit)
    (same : effect.Same other) : Emits known bound effect emit := by
  intro progress assembly enough allows here calls
  rw [progress.after_same same, same.can]
  exact emits progress assembly enough (Progress.allows_same same.symm allows) here calls

theorem emits_seq {early late : Effect} {first : Emit α} {next : α → Emit β}
    (emitsFirst : Emits known bound early first)
    (emitsNext : ∀ result, Emits known bound late (next result)) :
    Emits known bound (early.seq late) (first >>= next) := by
  intro progress assembly enough allows here calls
  obtain ⟨works, fails⟩ := emitsFirst progress assembly enough allows.first here calls
  rw [progress.after_seq]
  by_cases can : early.can
  · obtain ⟨result, between, ran, reached, called⟩ := works can
    obtain ⟨worksNext, failsNext⟩ :=
      emitsNext result (progress.after early) between enough allows.second reached called
    rw [run_ok ran]
    exact ⟨fun both => worksNext both.2, fun notBoth => failsNext fun canNext => notBoth ⟨can, canNext⟩⟩
  · obtain ⟨error, failed⟩ := fails can
    exact ⟨fun both => absurd both.1 can, fun _ => ⟨error, run_error failed⟩⟩

theorem emits_quiet {emit : Emit α}
    (run : ∀ assembly, ∃ result after, emit.run assembly = .ok (result, after) ∧
      Assembly.Grows assembly after ∧
      ∀ progress : Progress, bound ≤ progress.bound → assembly.At known progress →
        after.At known progress) :
    Emits known bound .nothing emit := by
  intro progress assembly enough allows here calls
  obtain ⟨result, after, ran, grows, keeps⟩ := run assembly
  have same : progress.after .nothing = progress := by
    simp [Progress.after, Effect.nothing]
  refine ⟨fun _ => ⟨result, after, ran, ?_, ?_⟩, fun impossible => absurd trivial impossible⟩
  · rw [same]
    exact keeps progress enough here
  · rw [same]
    exact calls.grows grows

theorem emits_unit (result : α) : Emits known bound .nothing (pure result : Emit α) :=
  emits_quiet fun assembly => ⟨result, assembly, rfl, .refl assembly, fun _ _ here => here⟩

theorem emits_op (operation : Op) (inside : ∀ id ∈ operation.labels, id < bound) :
    Emits known bound .nothing (op operation) :=
  emits_quiet fun assembly => ⟨(), assembly.emit operation, rfl, (Assembly.emit_step assembly _).1,
    fun _ enough here => here.emit operation fun id isTarget =>
      Nat.lt_of_lt_of_le (inside id isTarget) (Nat.le_trans enough here.bound)⟩

theorem emits_plain (operation : Op) (plain : operation.labels = []) :
    Emits known bound .nothing (op operation) :=
  emits_op operation fun id isTarget => by
    rw [plain] at isTarget
    cases isTarget

theorem emits_locus (locus : Locus) : Emits known bound .nothing (setLocus locus) :=
  emits_quiet fun assembly => ⟨(), { assembly with locus }, rfl,
    { Assembly.Grows.refl assembly with }, fun _ _ here => { here with sound := { here.sound with } }⟩

theorem emits_before {first : Emit α} {next : α → Emit β} (emits : Emits known bound .nothing first)
    (emitsNext : ∀ result, Emits known bound effect (next result)) :
    Emits known bound effect (first >>= next) :=
  emits_same (emits_seq emits emitsNext)
    ⟨rfl, rfl, .refl _, fun _ => .rfl, by simp [Effect.seq, Effect.nothing]⟩

theorem emits_behind {first : Emit α} {next : α → Emit β} (emits : Emits known bound effect first)
    (emitsNext : ∀ result, Emits known bound .nothing (next result)) :
    Emits known bound effect (first >>= next) :=
  emits_same (emits_seq emits emitsNext)
    ⟨by simp [Effect.seq, Effect.nothing], by simp [Effect.seq, Effect.nothing],
      by simp [Effect.seq, Effect.nothing], by simp [Effect.seq, Effect.nothing],
      by simp [Effect.seq, Effect.nothing]⟩

theorem emits_temporary (stem : String) : Emits known bound .nothing (temporary stem) :=
  emits_quiet fun assembly => ⟨_, _, rfl,
    { Assembly.Grows.refl assembly with }, fun _ _ here => { here with sound := { here.sound with } }⟩

theorem emits_data (values : List Value) :
    Emits known bound .nothing
      (modify fun assembly => { assembly with data := assembly.data ++ values } : Emit Unit) :=
  emits_quiet fun assembly => ⟨_, _, rfl,
    { Assembly.Grows.refl assembly with }, fun _ _ here => { here with sound := { here.sound with } }⟩

theorem emits_error (error : CodeError) (cannot : ¬effect.can) :
    Emits known bound effect (throw error : Emit α) :=
  fun _ _ _ _ _ _ => ⟨fun can => absurd can cannot, fun _ => ⟨error, rfl⟩⟩

theorem emits_new_label {next : Nat → Emit β}
    (emits : ∀ id, bound ≤ id →
      Emits known (id + 1) { effect with places := id :: effect.places } (next id)) :
    Emits known bound effect (newLabel >>= next) := by
  intro progress assembly enough allows here calls
  have ran : newLabel.run assembly = .ok (assembly.labels.size, (assembly.newLabel none).2) := rfl
  rw [run_ok ran]
  let opened : Progress :=
    { progress with
      bound := assembly.labels.size + 1
      pending := fun id => progress.pending id ∨ id = assembly.labels.size }
  have allowed : opened.Allows known { effect with places := assembly.labels.size :: effect.places } :=
    { allows with
      distinctPlaces := List.nodup_cons.mpr ⟨fun inside =>
        Nat.lt_irrefl _ (here.pending _ (allows.pending _ inside)).1, allows.distinctPlaces⟩
      pending := List.forall_mem_cons.mpr ⟨.inr rfl, fun id inside => .inl (allows.pending id inside)⟩ }
  have called : (assembly.newLabel none).2.Calls opened :=
    Assembly.Calls.grows calls (Assembly.new_label_step assembly none).1
  obtain ⟨works, fails⟩ := emits assembly.labels.size (Nat.le_trans enough here.bound) opened _
    (Nat.le_refl _) allowed (here.new_label none) called
  refine ⟨fun can => ?_, fails⟩
  obtain ⟨result, after, ranNext, reached, calledAfter⟩ := works can
  refine ⟨result, after, ranNext, reached.weaken ?_ ?_ rfl rfl rfl, calledAfter⟩
  · exact Nat.le_succ_of_le here.bound
  · intro id
    show progress.pending id ∧ id ∉ effect.places ↔
      (progress.pending id ∨ id = assembly.labels.size) ∧ id ∉ assembly.labels.size :: effect.places
    rw [List.mem_cons, not_or, ← and_assoc, ← here.pending_without id]

theorem run_place_ok {id : Nat} {assembly after : Assembly} (placed : assembly.place id = .ok after) :
    (place id).run assembly = .ok ((), after) := by
  rw [run_place_eq, placed]

theorem emits_place (id : Nat) :
    Emits known bound { Effect.nothing with places := [id] } (place id) := by
  intro progress assembly enough allows here calls
  have isPending := allows.pending id List.mem_cons_self
  obtain ⟨below, unplaced⟩ := here.pending id isPending
  obtain ⟨labels, placed, size, places⟩ := Assembly.place_succeeds below unplaced
  obtain ⟨grows, keeps⟩ := Assembly.place_step placed
  have reached := here.place_pending (keeps here.sound) size places isPending
  refine ⟨fun _ => ⟨(), _, run_place_ok placed, ?_, ?_⟩, fun impossible => absurd trivial impossible⟩
  · exact reached.weaken (Nat.le_refl _) (by simp [Progress.after]) (by simp [Progress.after, Effect.nothing])
      (by simp [Progress.after, Effect.nothing]) (by simp [Progress.after, Effect.nothing])
  · simpa [Assembly.Calls, Progress.after, Effect.nothing] using calls.grows grows

theorem emits_label (name : String) :
    Emits known bound { Effect.nothing with names := [name] } (do place (← namedLabel name)) := by
  intro progress assembly enough allows here calls
  obtain ⟨isKnown, isFresh⟩ := allows.fresh name List.mem_cons_self
  have found := assembly.named_label_found name
  have step := Assembly.named_label_step assembly name
  have named := here.named_label name isKnown
  have ran : (namedLabel name).run assembly =
      .ok ((assembly.namedLabel name).1, (assembly.namedLabel name).2) := rfl
  rw [run_ok ran]
  have below := named.sound.named name _ found
  have unplaced : (assembly.namedLabel name).2.placeOf? (assembly.namedLabel name).1 = none := by
    simpa [isFresh] using (named.named name _ found).2
  obtain ⟨labels, placed, size, places⟩ := Assembly.place_succeeds below unplaced
  obtain ⟨grows, keeps⟩ := Assembly.place_step placed
  have reached := named.place_name (keeps named.sound) size places found
  refine ⟨fun _ => ⟨(), _, run_place_ok placed, ?_, ?_⟩, fun impossible => absurd trivial impossible⟩
  · exact reached.weaken (Nat.le_refl _) (by simp [Progress.after, Effect.nothing]) rfl
      (by simp [Progress.after, Effect.nothing]) (by simp [Progress.after, Effect.nothing])
  · simpa [Assembly.Calls, Progress.after, Effect.nothing] using (calls.grows step.1).grows grows

theorem emits_named (name : String) (isKnown : name ∈ known) (operation : Nat → Op)
    (target : ∀ id, (operation id).labels = [id]) :
    Emits known bound .nothing (namedLabel name >>= fun id => op (operation id)) := by
  intro progress assembly enough allows here calls
  have found := assembly.named_label_found name
  have step := Assembly.named_label_step assembly name
  have named := here.named_label name isKnown
  have ran : (namedLabel name).run assembly =
      .ok ((assembly.namedLabel name).1, (assembly.namedLabel name).2) := rfl
  rw [run_ok ran]
  have reached := named.emit (operation (assembly.namedLabel name).1) (by
    simpa [target] using named.sound.named name _ found)
  have grows := (Assembly.emit_step (assembly.namedLabel name).2
    (operation (assembly.namedLabel name).1)).1
  refine ⟨fun _ => ⟨(), _, rfl, ?_, ?_⟩, fun impossible => absurd trivial impossible⟩
  · simpa [Progress.after, Effect.nothing] using reached
  · simpa [Progress.after, Effect.nothing] using (calls.grows step.1).grows grows

theorem emits_call (name : String) :
    Emits known bound { Effect.nothing with calls := [name] }
      (do op (.call (.label (← entryLabel name)))) := by
  intro progress assembly enough allows here calls
  have found := assembly.entry_label_found name
  have step := Assembly.entry_label_step assembly name
  have entered := here.entry_label name
  have ran : (entryLabel name).run assembly =
      .ok ((assembly.entryLabel name).1, (assembly.entryLabel name).2) := rfl
  rw [run_ok ran]
  have reached := entered.emit (.call (.label (assembly.entryLabel name).1)) (by
    simpa [Op.labels, Target.labels] using entered.sound.entries name _ found)
  have grows := (Assembly.emit_step (assembly.entryLabel name).2
    (.call (.label (assembly.entryLabel name).1))).1
  refine ⟨fun _ => ⟨(), _, rfl, ?_, ?_⟩, fun impossible => absurd trivial impossible⟩
  · simpa [Progress.after, Effect.nothing] using reached
  · intro key called
    rcases called with old | new
    · exact ((calls.grows step.1).grows grows) key old
    · rw [List.mem_singleton.mp new]
      exact ⟨_, found, _, Array.mem_push_self, rfl⟩

theorem emits_entry (name : String) :
    Emits known bound { Effect.nothing with entries := [name] } (do place (← entryLabel name)) := by
  intro progress assembly enough allows here calls
  have isFresh := allows.freshEntries name List.mem_cons_self
  have found := assembly.entry_label_found name
  have step := Assembly.entry_label_step assembly name
  have entered := here.entry_label name
  have ran : (entryLabel name).run assembly =
      .ok ((assembly.entryLabel name).1, (assembly.entryLabel name).2) := rfl
  rw [run_ok ran]
  have below := entered.sound.entries name _ found
  have unplaced : (assembly.entryLabel name).2.placeOf? (assembly.entryLabel name).1 = none := by
    simpa [isFresh] using (entered.entries name _ found).2
  obtain ⟨labels, placed, size, places⟩ := Assembly.place_succeeds below unplaced
  obtain ⟨grows, keeps⟩ := Assembly.place_step placed
  have reached := entered.place_entry (keeps entered.sound) size places found
  have forgotten := { reached with
    entries := fun key id isEntry => by
      obtain ⟨called, isPlaced⟩ := reached.entries key id isEntry
      refine ⟨?_, isPlaced⟩
      rcases called with (old | rfl) | new
      · exact (.inl old : progress.calls key ∨ key ∈ progress.entries ++ [name])
      · exact .inr (by simp)
      · exact .inr new : Assembly.At known { progress with entries := progress.entries ++ [name] } _ }
  refine ⟨fun _ => ⟨(), _, run_place_ok placed, ?_, ?_⟩, fun impossible => absurd trivial impossible⟩
  · simpa [Progress.after, Effect.nothing] using forgotten
  · simpa [Assembly.Calls, Progress.after, Effect.nothing] using (calls.grows step.1).grows grows

def effectOf (names calls : List String) (parts : List Expr) : Effect :=
  { Effect.nothing with names, calls, can := ∀ part ∈ parts, part.isStorage = true }

section Rules

variable {names laterNames calls laterCalls : List String} {parts laterParts : List Expr}

theorem emits_nothing {emit : Emit α} (emits : Emits known bound .nothing emit) :
    Emits known bound (effectOf [] [] []) emit :=
  emits_same emits ⟨rfl, rfl, .refl _, fun _ => .rfl, by simp [effectOf, Effect.nothing]⟩

theorem emits_then {first : Emit α} {next : α → Emit β}
    (emitsFirst : Emits known bound (effectOf names calls parts) first)
    (emitsNext : ∀ result, Emits known bound (effectOf laterNames laterCalls laterParts) (next result)) :
    Emits known bound (effectOf (names ++ laterNames) (calls ++ laterCalls) (parts ++ laterParts))
      (first >>= next) :=
  emits_same (emits_seq emitsFirst emitsNext)
    ⟨rfl, rfl, .refl _, fun _ => .rfl, List.forall_mem_append⟩

theorem emits_finish {first : Emit Unit} (operation : Op) (plain : operation.labels = [])
    (emits : Emits known bound (effectOf names calls parts) first) :
    Emits known bound (effectOf names calls parts) (do first; op operation) := by
  simpa using emits_then emits fun _ => emits_nothing (emits_plain operation plain)

theorem emits_start {next : Unit → Emit β} (operation : Op) (plain : operation.labels = [])
    (emits : ∀ result, Emits known bound (effectOf names calls parts) (next result)) :
    Emits known bound (effectOf names calls parts) (op operation >>= next) :=
  emits_then (emits_nothing (emits_plain operation plain)) emits

theorem emits_restate {emit : Emit α} (emits : Emits known bound (effectOf names calls parts) emit)
    (sameCalls : ∀ name, name ∈ laterCalls ↔ name ∈ calls)
    (sameParts : (∀ part ∈ laterParts, part.isStorage = true) ↔
      ∀ part ∈ parts, part.isStorage = true) :
    Emits known bound (effectOf names laterCalls laterParts) emit :=
  emits_same emits ⟨rfl, rfl, .refl _, sameCalls, sameParts⟩

end Rules

section Expressions

variable (context : EmitContext)

theorem emits_storage (name : String) (ty : Ty) (byRef : Bool) :
    Emits known bound (effectOf [] [] []) (namedStorage name ty byRef) := by
  unfold namedStorage
  split
  · exact emits_nothing (emits_plain _ rfl)
  · exact emits_nothing (emits_plain _ (by cases byRef <;> rfl))

theorem emits_array (name : String) (ty : Ty) :
    Emits known bound (effectOf [] [] []) (wholeArray name ty) := by
  unfold wholeArray
  split <;> exact emits_nothing (emits_plain _ rfl)

theorem emits_procedure_call (name : String) :
    Emits known bound (effectOf [] [name] []) (do op (.call (.label (← entryLabel name)))) :=
  emits_same (emits_call name)
    ⟨rfl, rfl, .refl _, fun _ => .rfl, by simp [effectOf, Effect.nothing]⟩

theorem emits_builtin_call {calls : List String} {parts : List Expr} (builtin : Builtin)
    (arguments : List Expr)
    (pushed : Emits known bound (effectOf [] calls parts)
      (builtinArguments context builtin.signature.byReference arguments)) :
    Emits known bound (effectOf [] calls parts) (callBuiltin context builtin arguments) := by
  have rest : Emits known bound (effectOf [] [] []) (do
      if builtin.signature.countsArguments then pushCount arguments.length
      syscall builtin) := by
    dsimp only
    split
    · exact emits_start _ rfl fun _ => emits_nothing (emits_plain _ rfl)
    · exact emits_nothing (emits_plain _ rfl)
  exact emits_restate (emits_then pushed fun _ => rest) (by simp) (by simp)

mutual

theorem emits_value (expr : Expr) (accepted : expr.Accepted context.symbols context.registry) :
    Emits known bound (effectOf [] expr.calls (expr.taken context.symbols context.registry))
      (value context expr) := by
  cases expr with
  | literal literal info => exact emits_nothing (emits_plain _ rfl)
  | «variable» name info => exact emits_storage _ _ _
  | apply name arguments callee info =>
    obtain ⟨-, -, argumentsAccepted, refers⟩ := accepted
    cases callee with
    | unresolved => exact refers.elim
    | element =>
      have pushed := emits_values arguments argumentsAccepted
      cases arguments with
      | nil => exact emits_array _ _
      | cons first rest =>
        refine emits_restate (emits_start _ rfl fun _ => emits_finish _ rfl pushed) ?_ ?_
        · simp [Expr.calls]
        · simp [Expr.taken, Expr.passedStorage]
    | function =>
      obtain ⟨entry, found, -⟩ := refers
      rw [value_function, found]
      refine emits_restate (emits_then (emits_procedure_arguments _ arguments argumentsAccepted)
        fun _ => emits_procedure_call name) ?_ ?_
      · simp [Expr.calls]
      · simp [Expr.taken, Expr.passedStorage, found]
    | builtin =>
      obtain ⟨builtin, found, -⟩ := refers
      rw [value_builtin, found]
      have pushed := emits_builtin_arguments builtin.signature.byReference arguments argumentsAccepted
      refine emits_restate (emits_builtin_call context builtin arguments pushed) ?_ ?_
      · simp [Expr.calls]
      · simp [Expr.taken, Expr.passedStorage, found, Expr.builtinStorage]
  | member object name info =>
    rw [value]
    split
    · next isStorage =>
      refine emits_restate (emits_finish _ rfl (emits_reference object accepted.1)) (by simp [Expr.calls]) ?_
      simp [Expr.taken, isStorage]
    · next isValue =>
      refine emits_restate (emits_finish _ rfl (emits_value object accepted.1)) (by simp [Expr.calls]) ?_
      simp [Expr.taken, isValue]
  | binary operator left right info =>
    exact emits_then (emits_value left accepted.1) fun _ =>
      emits_finish _ rfl (emits_value right accepted.2.1)
  | unary operator operand info =>
    cases operator <;> exact emits_finish _ rfl (emits_value operand accepted.1)
  | grouped inner info => exact emits_value inner accepted.1

theorem emits_reference (expr : Expr) (accepted : expr.Accepted context.symbols context.registry) :
    Emits known bound (effectOf [] expr.calls (expr :: expr.taken context.symbols context.registry))
      (reference context expr) := by
  have refused (isValue : expr.isStorage = false) (error : CodeError) :
      Emits known bound
        (effectOf [] expr.calls (expr :: expr.taken context.symbols context.registry))
        (throw error : Emit Unit) :=
    emits_error error fun can => by
      have isStorage := can expr List.mem_cons_self
      rw [isValue] at isStorage
      cases isStorage
  cases expr with
  | «variable» name info =>
    exact emits_restate (emits_storage _ _ _) (by simp [Expr.calls]) (by simp [Expr.taken, Expr.isStorage])
  | apply name arguments callee info =>
    obtain ⟨-, -, argumentsAccepted, refers⟩ := accepted
    cases callee with
    | element =>
      have pushed := emits_values arguments argumentsAccepted
      cases arguments with
      | nil =>
        refine emits_restate (emits_array _ _) (by simp [Expr.calls, Expr.callsOfAll]) ?_
        simp [Expr.taken, Expr.takenOfAll, Expr.passedStorage, Expr.isStorage]
      | cons first rest =>
        refine emits_restate (emits_start _ rfl fun _ => emits_finish _ rfl pushed) ?_ ?_
        · simp [Expr.calls]
        · simp [Expr.taken, Expr.passedStorage, Expr.isStorage]
    | unresolved => exact refused rfl _
    | function => exact refused rfl _
    | builtin => exact refused rfl _
  | member object name info =>
    refine emits_restate (emits_finish _ rfl (emits_reference object accepted.1)) (by simp [Expr.calls]) ?_
    cases isStorage : object.isLvalue <;> simp [Expr.taken, Expr.isStorage, isStorage]
  | grouped inner info =>
    refine emits_restate (emits_reference inner accepted.1) (by simp [Expr.calls]) ?_
    simp [Expr.taken, Expr.isStorage]
  | literal literal info => exact refused rfl _
  | binary operator left right info => exact refused rfl _
  | unary operator operand info => exact refused rfl _

theorem emits_procedure_arguments (params : List Ty) (arguments : List Expr)
    (accepted : Expr.AllAccepted context.symbols context.registry arguments) :
    Emits known bound (effectOf [] (Expr.callsOfAll arguments)
      (Expr.storageArguments params arguments ++
        Expr.takenOfAll context.symbols context.registry arguments))
      (procedureArguments context params arguments) := by
  cases arguments with
  | nil => exact emits_nothing (emits_unit ())
  | cons first rest =>
    have others := emits_procedure_arguments params.tail rest accepted.2
    rw [procedureArguments]
    split
    · next byReference =>
      refine emits_restate (emits_then (emits_reference first accepted.1) fun _ => others)
        (by simp [Expr.callsOfAll]) ?_
      simp only [Expr.storageArguments, byReference, Expr.takenOfAll, if_true, List.forall_mem_append,
        List.forall_mem_cons, List.mem_singleton, forall_eq]
      grind
    · next byValue =>
      refine emits_restate (emits_then (emits_value first accepted.1) fun _ => others)
        (by simp [Expr.callsOfAll]) ?_
      simp only [Expr.storageArguments, byValue, Expr.takenOfAll, List.forall_mem_append]
      grind

theorem emits_builtin_arguments (byRef : Bool) (arguments : List Expr)
    (accepted : Expr.AllAccepted context.symbols context.registry arguments) :
    Emits known bound (effectOf [] (Expr.callsOfAll arguments)
      (arguments.filter (fun argument => byRef && argument.isLvalue) ++
        Expr.takenOfAll context.symbols context.registry arguments))
      (builtinArguments context byRef arguments) := by
  cases arguments with
  | nil => exact emits_nothing (emits_unit ())
  | cons first rest =>
    have others := emits_builtin_arguments byRef rest accepted.2
    rw [builtinArguments]
    split
    · next byReference =>
      refine emits_restate (emits_then (emits_reference first accepted.1) fun _ => others)
        (by simp [Expr.callsOfAll]) ?_
      rw [List.filter_cons_of_pos (by simpa using byReference), Expr.takenOfAll]
      simp only [List.cons_append, List.forall_mem_append, List.forall_mem_cons]
      grind
    · next byValue =>
      refine emits_restate (emits_then (emits_value first accepted.1) fun _ => others)
        (by simp [Expr.callsOfAll]) ?_
      rw [List.filter_cons_of_neg (by simpa using byValue), Expr.takenOfAll]
      simp only [List.forall_mem_append]
      grind

theorem emits_values (exprs : List Expr)
    (accepted : Expr.AllAccepted context.symbols context.registry exprs) :
    Emits known bound (effectOf [] (Expr.callsOfAll exprs)
      (Expr.takenOfAll context.symbols context.registry exprs)) (values context exprs) := by
  cases exprs with
  | nil => exact emits_nothing (emits_unit ())
  | cons first rest =>
    exact emits_then (emits_value first accepted.1) fun _ => emits_values rest accepted.2

end

end Expressions

/-- Places the labels of names, pushes expressions, takes some as storage, and calls procedures. -/
def effectOn (context : EmitContext) (names : List String) (exprs targets : List Expr)
    (called : List String) : Effect :=
  effectOf names (exprs.flatMap Expr.calls ++ called)
    (targets ++ exprs.flatMap (Expr.taken context.symbols context.registry))

section Parts

variable {context : EmitContext} {names laterNames called laterCalled : List String}
  {exprs laterExprs targets laterTargets : List Expr}

theorem emits_still {emit : Emit α} (emits : Emits known bound .nothing emit) :
    Emits known bound (effectOn context [] [] [] []) emit := emits_nothing emits

theorem emits_join {first : Emit α} {next : α → Emit β}
    (emitsFirst : Emits known bound (effectOn context names exprs targets called) first)
    (emitsNext : ∀ result, Emits known bound
      (effectOn context laterNames laterExprs laterTargets laterCalled) (next result)) :
    Emits known bound (effectOn context (names ++ laterNames) (exprs ++ laterExprs)
      (targets ++ laterTargets) (called ++ laterCalled)) (first >>= next) := by
  refine emits_restate (emits_then emitsFirst emitsNext) (fun name => ?_) ?_
  · simp only [List.flatMap_append, List.mem_append]
    grind
  · simp only [List.flatMap_append, List.forall_mem_append]
    grind

def placing (places : List Nat) (effect : Effect) : Effect := { effect with places }

theorem emits_join_placing {places : List Nat} {first : Emit α} {next : α → Emit β}
    (emitsFirst : Emits known bound (effectOn context names exprs targets called) first)
    (emitsNext : ∀ result, Emits known bound
      (placing places (effectOn context laterNames laterExprs laterTargets laterCalled)) (next result)) :
    Emits known bound (placing places (effectOn context (names ++ laterNames) (exprs ++ laterExprs)
      (targets ++ laterTargets) (called ++ laterCalled))) (first >>= next) := by
  refine emits_same (emits_seq emitsFirst emitsNext) ⟨rfl, rfl, .refl _, fun name => ?_, ?_⟩
  · simp only [placing, effectOn, effectOf, Effect.seq, List.flatMap_append, List.mem_append]
    grind
  · simp only [placing, effectOn, effectOf, Effect.seq, List.flatMap_append, List.forall_mem_append]
    grind

theorem emits_place_last (id : Nat) :
    Emits known bound (placing [id] (effectOn context [] [] [] [])) (place id) :=
  emits_same (emits_place id) ⟨rfl, rfl, .refl _, fun _ => .rfl, by
    simp [placing, effectOn, effectOf, Effect.nothing]⟩

theorem emits_place_first (id : Nat) {places : List Nat} {next : Unit → Emit β}
    (emitsNext : ∀ result, Emits known bound
      (placing places (effectOn context names exprs targets called)) (next result)) :
    Emits known bound (placing (id :: places) (effectOn context names exprs targets called))
      (place id >>= next) :=
  emits_same (emits_seq (emits_place id) emitsNext)
    ⟨rfl, rfl, .refl _, fun _ => .rfl, by simp [placing, Effect.seq, Effect.nothing]⟩

theorem emits_reorder {places : List Nat} {emit : Emit α} (others : List Nat)
    (emits : Emits known bound (placing others effect) emit) (same : places.Perm others) :
    Emits known bound (placing places effect) emit :=
  emits_same emits ⟨rfl, rfl, same, fun _ => .rfl, .rfl⟩

theorem emits_expr (expr : Expr) (accepted : expr.Accepted context.symbols context.registry) :
    Emits known bound (effectOn context [] [expr] [] []) (value context expr) :=
  emits_restate (emits_value context expr accepted) (by simp) (by simp)

theorem emits_target (expr : Expr) (accepted : expr.Accepted context.symbols context.registry) :
    Emits known bound (effectOn context [] [expr] [expr] []) (reference context expr) :=
  emits_restate (emits_reference context expr accepted) (by simp) (by simp)

theorem emits_list {items : List α} {emit : α → Emit Unit} (exprsOf targetsOf : α → List Expr)
    (each : ∀ item ∈ items,
      Emits known bound (effectOn context [] (exprsOf item) (targetsOf item) []) (emit item)) :
    Emits known bound (effectOn context [] (items.flatMap exprsOf) (items.flatMap targetsOf) [])
      (items.forM emit) := by
  induction items with
  | nil => exact emits_still (emits_unit ())
  | cons head tail ih =>
    have rest := ih fun item inside => each item (List.mem_cons_of_mem _ inside)
    exact emits_join (each head List.mem_cons_self) fun _ => rest

theorem emits_each {items : List α} {emit : α → Emit Unit} (exprsOf : α → List Expr)
    (each : ∀ item ∈ items, Emits known bound (effectOn context [] (exprsOf item) [] []) (emit item)) :
    Emits known bound (effectOn context [] (items.flatMap exprsOf) [] []) (items.forM emit) := by
  have none : items.flatMap (fun _ => ([] : List Expr)) = [] := by simp
  have all := emits_list exprsOf (fun _ => []) each
  rwa [none] at all

theorem emits_references (targets : List Expr)
    (accepted : ∀ target ∈ targets, target.Stored context.symbols context.registry) :
    Emits known bound (effectOn context [] targets targets []) (references context targets) := by
  have each (target : Expr) (inside : target ∈ targets) :
      Emits known bound (effectOn context [] [target] [target] []) (reference context target) :=
    emits_target target (accepted target inside).1
  have all := emits_list (fun target => [target]) (fun target => [target]) each
  rwa [List.flatMap_singleton'] at all

theorem emits_expr_values (exprs : List Expr)
    (accepted : ∀ expr ∈ exprs, expr.Accepted context.symbols context.registry) :
    Emits known bound (effectOn context [] exprs [] []) (values context exprs) := by
  have all := (Expr.all_accepted_iff _ _ _).mpr accepted
  exact emits_restate (emits_values context exprs all) (by simp [Expr.calls_of_all])
    (by simp [Expr.taken_of_all])

theorem emits_sub_arguments (params : List Ty) (arguments : List Expr)
    (accepted : ∀ expr ∈ arguments, expr.Accepted context.symbols context.registry) :
    Emits known bound
      (effectOn context [] arguments (Expr.storageArguments params arguments) [])
      (procedureArguments context params arguments) := by
  have all := (Expr.all_accepted_iff _ _ _).mpr accepted
  exact emits_restate (emits_procedure_arguments context params arguments all)
    (by simp [Expr.calls_of_all]) (by simp [Expr.taken_of_all])

theorem emits_builtin_sub (builtin : Builtin) (arguments : List Expr)
    (accepted : ∀ expr ∈ arguments, expr.Accepted context.symbols context.registry) :
    Emits known bound
      (effectOn context [] arguments (Expr.builtinStorage builtin arguments) [])
      (callBuiltin context builtin arguments) := by
  have all := (Expr.all_accepted_iff _ _ _).mpr accepted
  exact emits_restate
    (emits_builtin_call context builtin arguments (emits_builtin_arguments context _ arguments all))
    (by simp [Expr.calls_of_all]) (by simp [Expr.taken_of_all, Expr.builtinStorage])

end Parts

end Emit

end BasicLang
