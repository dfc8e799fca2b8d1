import BasicLang.Device.Bench
import BasicLang.Machine.Schedule
import BasicLang.Proofs.Code.Generation
import BasicLang.Proofs.Machine.Running
import BasicLang.Proofs.Typing.ScopesProgram

set_option autoImplicit false

namespace BasicLang

inductive Home where
  | own
  | shared
deriving Repr, DecidableEq

namespace SymbolTable

def home? (table : SymbolTable) (name : String) : Option Home :=
  if table.Owns name then some .own
  else if table.Shares name then some .shared
  else none

theorem lookup_at_home (table : SymbolTable) (name : String) :
    table.lookup? name =
      match table.home? name with
      | some .own => (table.locals.headD []).get? name
      | some .shared => table.shared.get? name
      | none => none := by
  have own : table.locals.head?.bind (·.get? name) = (table.locals.headD []).get? name := by
    cases table.locals <;> rfl
  rw [lookup?, own, home?]
  by_cases isOwn : table.Owns name
  · obtain ⟨entry, found⟩ := Option.isSome_iff_exists.mp isOwn
    rw [if_pos isOwn, found]
    rfl
  · have absent : (table.locals.headD []).get? name = none := by simpa [Owns] using isOwn
    rw [if_neg isOwn, absent]
    by_cases isShared : table.Shares name
    · rw [if_pos isShared]
      rfl
    · rw [if_neg isShared]
      simpa [Shares] using isShared

end SymbolTable

namespace Machine

variable {σ : Type}

def scopeAt (machine : Machine σ) : Home → Nat
  | .own => machine.scope
  | .shared => 0

structure Resolves (machine : Machine σ) (name : String) (scope : Nat) : Prop where
  reads : machine.lookup? name = (machine.scopes.getD scope []).get? name
  binds : ∀ cell, machine.bind name cell = machine.bindIn scope name cell

/-- The frame that runs has variables of its own, unless the routine is the main one. -/
def Activates (machine : Machine σ) (routine : Routine) : Prop := machine.scope = 0 ↔ routine.kind = .main

theorem resolves_scope_of (machine : Machine σ) (name : String) :
    machine.Resolves name (machine.scopeOf name) := ⟨rfl, fun _ => rfl⟩

theorem scope_of_shared {machine : Machine σ} {name : String} (isShared : name ∈ machine.image.shared) :
    machine.scopeOf name = 0 := by simp [scopeOf, isShared]

theorem scope_of_own {machine : Machine σ} {name : String} (notShared : name ∉ machine.image.shared) :
    machine.scopeOf name = machine.scope := by simp [scopeOf, notShared]

def inProcedure (image : Image) (name : String) : Machine Unit :=
  { create () with
    image, frames := [{ kind := .call, returnTo := 0, scope := 1 }, mainFrame], scopes := #[[(name, 0)], []] }

theorem shared_not_own {image : Image} {name : String} (isShared : name ∈ image.shared) :
    ¬(inProcedure image name).Resolves name 1 := by
  intro resolves
  have inMain : (inProcedure image name).scopeOf name = 0 := scope_of_shared isShared
  have reads := resolves.reads
  rw [lookup?, inMain] at reads
  simp [inProcedure, Table.get_cons, Table.get_nil] at reads

end Machine

theorem Table.mem_names_iff {α : Type} (table : Table α) (name : String) :
    name ∈ table.names ↔ (table.get? name).isSome = true := by
  induction table with
  | nil => simp [Table.names, Table.get_nil]
  | cons entry rest ih =>
    obtain ⟨key, value⟩ := entry
    rw [Table.get_cons, Table.names, List.map_cons, List.mem_cons, ← Table.names, ih]
    split
    · next same => simp [same]
    · next different => simp [different]

theorem SymbolTable.home_cases {table : SymbolTable} {name : String} {home : Home}
    (found : table.home? name = some home) :
    (home = .own ∧ table.Owns name) ∨ (home = .shared ∧ table.Shares name) := by
  unfold home? at found
  grind

theorem SymbolTable.home_own {table : SymbolTable} {name : String} (isOwn : table.Owns name) :
    table.home? name = some .own := if_pos isOwn

/-- While a routine of a compiled program is checked, names are found where the machine finds them in
an activation of the routine, if and only if no parameter, result or constant of the routine is
named like something shared. The tables that checking comes by are all within the last. -/
theorem names_found_alike_iff (source : String) (registry : Registry) (program : Program) (image : Image)
    (parsed : parse (tokenize source).1 = .ok program) (compiled : compile source registry = .ok image)
    (done rest : List Routine) (routine : Routine) (split : program.routines = done ++ routine :: rest) :
    (∀ held : SymbolTable, held.Within (program.scopesAt registry done routine) →
        ∀ name home, held.home? name = some home →
          ∀ (σ : Type) (machine : Machine σ), machine.image = image → machine.Activates routine →
            machine.Resolves name (machine.scopeAt home)) ↔
      ∀ name ∈ routine.ownNames, name ∉ program.sharedNames := by
  obtain ⟨quiet, coded⟩ := compile_inversion compiled parsed
  obtain ⟨-, -, -, -, -, -, sameShared⟩ := Program.image_inversion coded
  have wellFormed := parse_well_formed (tokenize_lexed source) parsed
  have scopes := Program.check_scopes wellFormed quiet split
  have shared (name : String) : name ∈ image.shared ↔ name ∈ program.sharedNames := by
    rw [sameShared, Table.mem_names_iff]
    exact scopes.final name
  have resolves {σ : Type} {machine : Machine σ} {name : String} {scope : Nat}
      (same : machine.scopeOf name = scope) : machine.Resolves name scope := same ▸ machine.resolves_scope_of name
  by_cases isMain : routine.kind = .main
  · -- The main routine has no scope but that of the shared names.
    have inside : routine ∈ program.routines := split ▸ List.mem_append_right _ List.mem_cons_self
    obtain rfl := (Program.mem_routines_cases wellFormed inside).resolve_right fun other => other.2 isMain
    refine iff_of_true (fun held _ name home _ σ machine _ activates => resolves ?_) (by simp [Routine.own_names_main])
    have inMain := activates.mpr isMain
    cases home <;> simp [Machine.scopeOf, Machine.scopeAt, inMain]
  · constructor
    · -- A name that is both: the table of the whole routine finds it at home, the machine in frame 0.
      intro alike name isOwn isShared
      have ownHome := SymbolTable.home_own (scopes.owns isMain name isOwn)
      refine Machine.shared_not_own ((shared name).mpr isShared) ?_
      exact alike _ ⟨fun _ => id, fun _ => id⟩ name .own ownHome Unit (.inProcedure image name) rfl
        (iff_of_false Nat.one_ne_zero isMain)
    · intro apart held within name home found σ machine sameImage _
      refine resolves ?_
      -- Names of the table at hand are names of the last one, and that has its own names apart.
      rcases SymbolTable.home_cases found with ⟨rfl, isOwn⟩ | ⟨rfl, isShared⟩
      · have notShared : name ∉ program.sharedNames :=
          (scopes.fresh isMain name (within.owns name isOwn)).elim (apart name) id
        exact Machine.scope_of_own (sameImage ▸ notShared ∘ (shared name).mp)
      · have nameShared := (scopes.shares name).mp (within.shares name isShared)
        exact Machine.scope_of_shared (sameImage ▸ (shared name).mpr nameShared)

def sampleShared : String := "DIM SHARED X\nCALL S(3)\nSUB S(Y)\nZ = Y\nX = Z\nEND SUB\n"

theorem sample_names_found_alike : ∃ program image routine,
    parse (tokenize sampleShared).1 = .ok program ∧ compile sampleShared .standard = .ok image ∧
      program.routines = [.main program.main, routine] ∧
      ∀ (σ : Type) (machine : Machine σ), machine.image = image → machine.Activates routine →
        machine.Resolves "Y" machine.scope ∧ machine.Resolves "Z" machine.scope ∧ machine.Resolves "X" 0 := by
  obtain ⟨program, parsed, hasCode, one, known⟩ := exists_parsed sampleShared
    (fun program => (compile sampleShared .standard).toOption.isSome = true ∧ program.procedures.length = 1 ∧
      ∀ routine ∈ program.procedures, (∀ name ∈ routine.ownNames, name ∉ program.sharedNames) ∧
        let table := program.scopesAt .standard [.main program.main] routine
        table.home? "Y" = some .own ∧ table.home? "Z" = some .own ∧ table.home? "X" = some .shared)
    (by decide +kernel)
  obtain ⟨routine, only⟩ := List.length_eq_one_iff.mp one
  obtain ⟨apart, param, implicit, shared⟩ := known routine (only ▸ List.mem_singleton_self routine)
  cases compiled : compile sampleShared .standard with
  | error errors =>
    rw [compiled] at hasCode
    cases hasCode
  | ok image =>
    have routines : program.routines = [.main program.main, routine] := by rw [Program.routines, only]
    refine ⟨program, image, routine, parsed, rfl, routines, fun σ machine sameImage activates => ?_⟩
    have alike := (names_found_alike_iff sampleShared .standard program image parsed compiled
      [.main program.main] [] routine routines).mpr apart _ ⟨fun _ => id, fun _ => id⟩
    exact ⟨alike "Y" .own param σ machine sameImage activates,
      alike "Z" .own implicit σ machine sameImage activates,
      alike "X" .shared shared σ machine sameImage activates⟩

def sampleShadow : String := "DIM SHARED X\nX = 5\nCALL S(3)\nPRINT X\nSUB S(X)\nPRINT X\nX = 7\nEND SUB\n"

/-- The parameter is a name of the procedure, and yet the shared variable is printed and set. -/
theorem shared_parameter_read_in_main : ∃ program image routine,
    parse (tokenize sampleShadow).1 = .ok program ∧ compile sampleShadow .standard = .ok image ∧
      program.routines = [.main program.main, routine] ∧
      (program.scopesAt .standard [.main program.main] routine).home? "X" = some .own ∧
      (∃ machine : Machine Unit, machine.image = image ∧ machine.Activates routine ∧
        ¬machine.Resolves "X" (machine.scopeAt .own)) ∧
      ((Run.program (.ofDevices Bench.bare .standard) image 30).on
        (Machine.create Bench.empty)).2.world.output = "5\n7\n" := by
  obtain ⟨program, parsed, one, known, runs⟩ := exists_parsed sampleShadow
    (fun program => program.procedures.length = 1 ∧
      (∀ routine ∈ program.procedures, routine.kind ≠ .main ∧
        (program.scopesAt .standard [.main program.main] routine).home? "X" = some .own) ∧
      (compile sampleShadow .standard).toOption.any (fun image => image.shared.contains "X" &&
        ((Run.program (.ofDevices Bench.bare .standard) image 30).on
          (Machine.create Bench.empty)).2.world.output == "5\n7\n") = true)
    (by decide +kernel)
  obtain ⟨routine, only⟩ := List.length_eq_one_iff.mp one
  obtain ⟨isProcedure, param⟩ := known routine (only ▸ List.mem_singleton_self routine)
  cases compiled : compile sampleShadow .standard with
  | error errors =>
    rw [compiled] at runs
    cases runs
  | ok image =>
    rw [compiled] at runs
    obtain ⟨isShared, printed⟩ := Bool.and_eq_true_iff.mp runs
    refine ⟨program, image, routine, parsed, rfl, by rw [Program.routines, only], param, ?_, eq_of_beq printed⟩
    exact ⟨.inProcedure image "X", rfl, iff_of_false Nat.one_ne_zero isProcedure,
      Machine.shared_not_own (List.contains_iff_mem.mp isShared)⟩

end BasicLang
