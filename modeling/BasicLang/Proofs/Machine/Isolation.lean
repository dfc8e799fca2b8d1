import BasicLang.Proofs.Machine.FrameStack

set_option autoImplicit false

namespace BasicLang

namespace Machine

variable {σ : Type} {setup : Setup σ} {here after : Machine σ} {cell : Cell} {scope : Nat}

/-- A cell of a shared name, of a reference on the stack or of a name in the scope of the routine. -/
def Exposes (here : Machine σ) (cell : Cell) : Prop :=
  (∃ name ∈ here.image.shared, (here.scopes.getD 0 []).get? name = some cell) ∨ .reference cell ∈ here.stack ∨
    ∃ name, (here.scopes.getD here.scope []).get? name = some cell

structure Isolates (here after : Machine σ) : Prop where
  tables : ∀ scope < here.scopes.size, scope ≠ here.scope → ∀ name, (scope = 0 → name ∉ here.image.shared) →
    (after.scopes.getD scope []).get? name = (here.scopes.getD scope []).get? name
  -- Shared names may be new or have another cell, but they are not lost.
  named : ∀ name, ((here.scopes.getD 0 []).get? name).isSome = true → ((after.scopes.getD 0 []).get? name).isSome = true
  cells : ∀ cell < here.store.size, after.store.content cell ≠ here.store.content cell → here.Exposes cell
  values : ∀ cell < here.store.size, after.store.read cell ≠ here.store.read cell →
    ∃ part, here.store.Holds cell part ∧ here.Exposes part

theorem Opens.exposed (isOpen : here.Opens cell) : here.Exposes cell := by
  rcases isOpen with inside | ⟨name, found⟩
  · exact .inr (.inl inside)
  · rw [lookup?] at found
    rcases here.ours_scope_of name with own | ⟨isMain, isShared⟩
    · exact .inr (.inr ⟨name, own ▸ found⟩)
    · exact .inl ⟨name, isShared, isMain ▸ found⟩

section Scopes

theorem pushed_scope (scopes : Array (Table Cell)) (below : scope < scopes.size) :
    (scopes.push []).getD scope [] = scopes.getD scope [] := by
  rw [Array.getD_eq_getD_getElem?, Array.getD_eq_getD_getElem?, Array.getElem?_push_lt below, Array.getElem?_eq_getElem below]

theorem popped_scope (scopes : Array (Table Cell)) (below : scope < scopes.size - 1) :
    scopes.pop.getD scope [] = scopes.getD scope [] := by
  rw [Array.getD_eq_getD_getElem?, Array.getD_eq_getD_getElem?, Array.getElem?_pop, if_pos below]

theorem left_scope {frame : Frame} {rest : List Frame} (stacked : Stacked here.frames here.scopes.size)
    (frames : here.frames = frame :: rest) (below : scope < here.scopes.size)
    (other : frame.kind = .call → scope ≠ here.scope) :
    (if frame.kind = .call then here.scopes.pop else here.scopes).getD scope [] = here.scopes.getD scope [] := by
  by_cases isCall : frame.kind = .call
  · have own : here.scope = frame.scope := by simp [Machine.scope, frames]
    have different := own ▸ other isCall
    rw [if_pos isCall]
    apply popped_scope
    rw [frames] at stacked
    generalize here.scopes.size = count at stacked below
    cases stacked with
    | main => cases isCall
    | call returnTo stacked =>
      simp only at different
      omega
    | gosub _ _ => cases isCall
    | event _ _ _ => cases isCall
  · rw [if_neg isCall]

end Scopes

section Stepping

variable {most : Nat}

theorem Framed.tables (framed : here.Framed most) (reshapes : Run.Reshapes setup here after)
    (below : scope < here.scopes.size) (other : scope ≠ here.scope) (name : String)
    (unshared : scope = 0 → name ∉ here.image.shared) :
    (after.scopes.getD scope []).get? name = (here.scopes.getD scope []).get? name := by
  cases reshapes with
  | works worked => exact worked.affects.tables scope name other unshared
  | calls _ _ _ scopes _ _ => rw [scopes, pushed_scope here.scopes below]
  | gosubs _ _ _ scopes _ _ => rw [scopes]
  | returns frame outer rest entered _ scopes _ _ => rw [scopes, left_scope framed.stacked entered below fun _ => other]

theorem Framed.named (framed : here.Framed most) (reshapes : Run.Reshapes setup here after) (name : String)
    (found : ((here.scopes.getD 0 []).get? name).isSome = true) : ((after.scopes.getD 0 []).get? name).isSome = true := by
  have hasMain : 0 < here.scopes.size := framed.stacked.has_scopes
  cases reshapes with
  | works worked => exact worked.affects.named 0 name found
  | calls _ _ _ scopes _ _ => rwa [scopes, pushed_scope here.scopes hasMain]
  | gosubs _ _ _ scopes _ _ => rwa [scopes]
  | returns frame outer rest entered _ scopes _ _ =>
    -- The scope of a call is not that of the main routine.
    rw [scopes, left_scope framed.stacked entered hasMain]
    · exact found
    · intro isCall
      have stacked := entered ▸ framed.stacked
      simpa [scope, entered] using Nat.ne_of_lt (stacked.call_scope isCall).1

theorem Framed.isolates (framed : here.Framed most) (reshapes : Run.Reshapes setup here after) : here.Isolates after := by
  have develops := reshapes.develops framed.rooted
  refine ⟨fun scope below other => framed.tables reshapes below other, framed.named reshapes, ?_, ?_⟩
  · intro cell below changed
    apply Classical.byContradiction
    intro hidden
    exact changed (develops.same cell below fun isOpen => hidden isOpen.exposed)
  · intro cell below changed
    apply Classical.byContradiction
    intro hidden
    apply changed
    apply develops.read framed.rooted.forest below
    intro part held isOpen
    exact hidden ⟨part, held, isOpen.exposed⟩

end Stepping

end Machine

/-- Whatever a host has done, the next instruction leaves the variables of all scopes but its own alone, except that
shared names of the main routine may be new or get another cell. A cell that was there changes only if it is that of a
shared name, of a reference on the stack or of a name in the scope of the routine, and a container only if it holds such
a cell. All frames below a call have other scopes than the call. What was entered by `GOSUB` finds and binds names where
the frame below does. What a reply changes was named by the instruction that waits, or is referred to on the stack. -/
theorem calls_keep_to_their_variables {σ : Type} (setup : Setup σ) (world : σ) (calls : List HostCall) :
    let machine := (Machine.create world).afterAll setup calls
    let here := Run.ready setup machine
    let after := ((Run.step setup).on machine).2
    (here.stack = machine.stack ∧ here.scopes = machine.scopes ∧ here.store = machine.store) ∧
      (machine.phase = .idle ∨ machine.phase = .running → here.Isolates after ∧
        ∀ pending, after.pending = some pending → ∀ cell ∈ pending.completion.targets, here.Exposes cell) ∧
      (∀ above frame below, here.frames = above ++ frame :: below → frame.kind = .call → frame.scope = here.scope →
        ∀ other ∈ below, other.scope ≠ here.scope) ∧
      (∀ frame outer rest, here.frames = frame :: outer :: rest → frame.kind = .gosub →
        let caller := { here with frames := outer :: rest }
        here.scope = caller.scope ∧ ∀ name, here.lookup? name = caller.lookup? name ∧
          ∀ cell, (here.bind name cell).scopes = (caller.bind name cell).scopes) ∧
      ∀ pending reply, machine.pending = some pending →
        let answered := ((Run.resume reply).on machine).2
        answered.frames = machine.frames ∧ answered.scopes = machine.scopes ∧
          ∀ cell < machine.store.size, answered.store.content cell ≠ machine.store.content cell →
            cell ∈ pending.completion.targets ∨ .reference cell ∈ machine.stack := by
  intro machine here after
  have framed : machine.Framed setup.maxDepth := Machine.after_all_framed setup (Machine.create_framed setup world) calls
  have started : here.Framed setup.maxDepth := Run.ready_framed setup framed
  refine ⟨Run.ready_cells setup machine, fun goes => ?_, ?_, ?_, ?_⟩
  · have reshapes : Run.Reshapes setup here after := Run.step_shapes framed.rooted goes
    refine ⟨started.isolates reshapes, fun pending waits cell isTarget => ?_⟩
    rcases reshapes.waits waits with waited | isOpen
    · have orderly : machine.Orderly :=
        Machine.after_all_orderly setup (Machine.orderly_nothing rfl (by simp [Machine.create])) calls
      have suspended : machine.phase = .suspended := by
        apply orderly.mp
        rw [← (Run.ready_waits setup machine).2.1]
        exact Option.isSome_iff_exists.mpr ⟨pending, waited⟩
      simp [suspended] at goes
    · exact (isOpen cell isTarget).exposed
  · intro above frame below frames isCall own other inside
    have stacked := frames ▸ started.stacked
    obtain ⟨fewer, left⟩ := stacked.left
    exact own ▸ Nat.ne_of_lt ((left.call_scope isCall).2 other inside)
  · intro frame outer rest frames isGosub caller
    have stacked := frames ▸ started.stacked
    have shares : here.scope = caller.scope := by
      rw [Machine.scope, frames]
      exact stacked.gosub_scope isGosub
    have found (name : String) : here.scopeOf name = caller.scopeOf name := by
      rw [Machine.scopeOf, Machine.scopeOf, shares]
    refine ⟨shares, fun name => ⟨?_, fun cell => ?_⟩⟩
    · rw [Machine.lookup?, Machine.lookup?, found name]
    · rw [Machine.bind, Machine.bind, found name]
      rfl
  · intro pending reply waits answered
    have answers : Run.Answers _ _ answered := Run.resume_answers framed.rooted waits reply
    refine ⟨answers.frames, answers.scopes, fun cell below changed => ?_⟩
    apply Classical.byContradiction
    intro hidden
    exact changed (answers.develops.same cell below hidden)

def sampleReference : String := "DIM SHARED T\nA = 1\nCALL S(A)\nSUB S(X)\nX = 2\nT = 3\nEND SUB\n"

def referring (image : Image) : Machine Bench :=
  (Machine.create Bench.empty).afterAll (.ofDevices Bench.bare .standard) [.load image, .slice 9]

theorem sample_calls_keep_to_their_variables : ∃ image, compile sampleReference .standard = .ok image ∧
    let setup := Setup.ofDevices Bench.bare .standard
    let here := Run.ready setup (referring image)
    let after := ((Run.step setup).on (referring image)).2
    (referring image).phase = .running ∧ here.frames.map Frame.kind = [.call, .main] ∧ here.scope = 1 ∧
      ((here.scopes.getD 0 []).get? "A").map (fun cell => (here.store.read cell).text) = some "1" ∧
      ((after.scopes.getD 0 []).get? "A").map (fun cell => (after.store.read cell).text) = some "2" ∧
      here.Isolates after := by
  obtain ⟨image, compiled, running, kinds, own, before, behind⟩ := exists_compiled sampleReference
    (fun image =>
      let setup := Setup.ofDevices Bench.bare .standard
      let here := Run.ready setup (referring image)
      let after := ((Run.step setup).on (referring image)).2
      (referring image).phase = .running ∧ here.frames.map Frame.kind = [.call, .main] ∧ here.scope = 1 ∧
        ((here.scopes.getD 0 []).get? "A").map (fun cell => (here.store.read cell).text) = some "1" ∧
        ((after.scopes.getD 0 []).get? "A").map (fun cell => (after.store.read cell).text) = some "2")
    (by decide +kernel)
  have kept := calls_keep_to_their_variables (.ofDevices Bench.bare .standard) Bench.empty [.load image, .slice 9]
  exact ⟨image, compiled, running, kinds, own, before, behind, (kept.2.1 (.inr running)).1⟩

end BasicLang
