import BasicLang.Proofs.Code.Effect

set_option autoImplicit false

namespace BasicLang

namespace Op

def retarget (code data : Target → Target) : Op → Op
  | .jump target => .jump (code target)
  | .jumpIfZero target => .jumpIfZero (code target)
  | .jumpIfNonzero target => .jumpIfNonzero (code target)
  | .call target => .call (code target)
  | .gosub target => .gosub (code target)
  | .forLoop target => .forLoop (code target)
  | .onEvent target => .onEvent (code target)
  | .restore target => .restore (data target)
  | op => op

variable (code data : Target → Target) (op : Op)

theorem retarget_address : (op.retarget code data).address? = op.address?.map code := by cases op <;> rfl

theorem retarget_data : (op.retarget code data).dataPlace? = op.dataPlace?.map data := by cases op <;> rfl

end Op

namespace Assembly

variable {assembly : Assembly}

def Resolves (assembly : Assembly) (op : Op) : Prop :=
  ∀ id ∈ op.labels, (assembly.placeOf? id).isSome = true

theorem data_placed (sound : assembly.Sound) (id : Nat) :
    (assembly.labels[id]?.bind LabelPlace.data).isSome = (assembly.placeOf? id).isSome := by
  rw [placeOf?]
  cases found : assembly.labels[id]? with
  | none => rfl
  | some label => exact (sound.whole id label found).symm

theorem resolve_label (view : LabelPlace → Option Nat) (locus : Locus) (id : Nat) :
    (∃ target, assembly.resolve view locus (.label id) = .ok target) ↔
      (assembly.labels[id]?.bind view).isSome = true := by
  cases found : assembly.labels[id]?.bind view with
  | none => simp [resolve, found]
  | some place => simp [resolve, found]

theorem resolve_code (locus : Locus) (target : Target) :
    (∃ resolved, assembly.resolve LabelPlace.code locus target = .ok resolved) ↔
      ∀ id ∈ target.labels, (assembly.placeOf? id).isSome = true := by
  cases target with
  | resolved place => simp [resolve, Target.labels]
  | label id => simp [resolve_label, Target.labels, placeOf?]

theorem resolve_data (sound : assembly.Sound) (locus : Locus) (target : Target) :
    (∃ resolved, assembly.resolve LabelPlace.data locus target = .ok resolved) ↔
      ∀ id ∈ target.labels, (assembly.placeOf? id).isSome = true := by
  cases target with
  | resolved place => simp [resolve, Target.labels]
  | label id => simp [resolve_label, Target.labels, data_placed sound]

theorem except_map_ok {α β : Type} (result : Except CodeError α) (change : α → β) :
    (∃ changed, (do return change (← result)) = Except.ok changed) ↔ ∃ value, result = .ok value := by
  cases result with
  | error error => exact ⟨fun ⟨_, found⟩ => (nomatch found), fun ⟨_, found⟩ => (nomatch found)⟩
  | ok value => exact ⟨fun _ => ⟨value, rfl⟩, fun _ => ⟨change value, rfl⟩⟩

theorem link_instruction_ok (sound : assembly.Sound) (instruction : Instruction) :
    (∃ linked, assembly.linkInstruction instruction = .ok linked) ↔
      assembly.Resolves instruction.op := by
  obtain ⟨op, locus⟩ := instruction
  rw [linkInstruction, except_map_ok]
  cases op with
  | jump target => exact (except_map_ok _ Op.jump).trans (resolve_code locus target)
  | jumpIfZero target => exact (except_map_ok _ Op.jumpIfZero).trans (resolve_code locus target)
  | jumpIfNonzero target => exact (except_map_ok _ Op.jumpIfNonzero).trans (resolve_code locus target)
  | call target => exact (except_map_ok _ Op.call).trans (resolve_code locus target)
  | gosub target => exact (except_map_ok _ Op.gosub).trans (resolve_code locus target)
  | forLoop target => exact (except_map_ok _ Op.forLoop).trans (resolve_code locus target)
  | onEvent target => exact (except_map_ok _ Op.onEvent).trans (resolve_code locus target)
  | restore target => exact (except_map_ok _ Op.restore).trans (resolve_data sound locus target)
  | _ => exact iff_of_true ⟨_, rfl⟩ fun _ inside => nomatch inside

theorem map_ok {α β : Type} (step : α → Except CodeError β) (items : List α) :
    (∃ results, items.mapM step = .ok results) ↔ ∀ item ∈ items, ∃ result, step item = .ok result := by
  induction items with
  | nil => simp [pure, Except.pure]
  | cons head tail ih =>
    rw [List.mapM_cons, List.forall_mem_cons, ← ih]
    cases step head with
    | error error =>
      exact ⟨fun ⟨_, found⟩ => (nomatch found), fun ⟨⟨_, found⟩, _⟩ => (nomatch found)⟩
    | ok first =>
      cases tail.mapM step with
      | error error =>
        exact ⟨fun ⟨_, found⟩ => (nomatch found), fun ⟨_, _, found⟩ => (nomatch found)⟩
      | ok rest => exact ⟨fun _ => ⟨⟨_, rfl⟩, _, rfl⟩, fun _ => ⟨_, rfl⟩⟩

theorem link_ok (sound : assembly.Sound) (unlinked : assembly.isLinked = false) :
    (∃ linked, assembly.link = .ok linked) ↔
      ∀ instruction ∈ assembly.code, assembly.Resolves instruction.op := by
  have each : (∃ results, assembly.code.toList.mapM assembly.linkInstruction = .ok results) ↔
      ∀ instruction ∈ assembly.code, assembly.Resolves instruction.op := by
    rw [map_ok]
    simp only [link_instruction_ok sound, Array.mem_toList_iff]
  rw [← each, link, unlinked]
  cases assembly.code.toList.mapM assembly.linkInstruction <;> simp

section Cases

variable {whole : Assembly} {op : Op} {locus : Locus} {linked : Instruction}

theorem resolve_label_place {view : LabelPlace → Option Nat} {id : Nat} {target : Target}
    (resolved : whole.resolve view locus (.label id) = .ok target) :
    ∃ place, whole.labels[id]?.bind view = some place ∧ target = .resolved place := by
  rw [resolve] at resolved
  split at resolved
  · next place found => exact ⟨place, found, (Except.ok.inj resolved).symm⟩
  · cases resolved

theorem link_cases (isLinked : whole.linkInstruction ⟨op, locus⟩ = .ok linked) :
    ∃ code data, linked = ⟨op.retarget code data, locus⟩ ∧
      (∀ target, op.address? = some target → whole.resolve LabelPlace.code locus target = .ok (code target)) ∧
      ∀ target, op.dataPlace? = some target → whole.resolve LabelPlace.data locus target = .ok (data target) := by
  cases op with
  | jump source | jumpIfZero source | jumpIfNonzero source | gosub source | forLoop source | call source
  | onEvent source =>
    cases resolved : whole.resolve LabelPlace.code locus source with
    | error error =>
      rw [linkInstruction, Op.mapTargets, resolved] at isLinked
      cases isLinked
    | ok target =>
      rw [linkInstruction, Op.mapTargets, resolved] at isLinked
      cases isLinked
      refine ⟨fun _ => target, id, rfl, fun other isTarget => ?_, fun _ isData => nomatch isData⟩
      rw [← Option.some.inj isTarget, resolved]
  | restore source =>
    cases resolved : whole.resolve LabelPlace.data locus source with
    | error error =>
      rw [linkInstruction, Op.mapTargets, resolved] at isLinked
      cases isLinked
    | ok target =>
      rw [linkInstruction, Op.mapTargets, resolved] at isLinked
      cases isLinked
      refine ⟨id, fun _ => target, rfl, fun _ isTarget => (nomatch isTarget), fun other isData => ?_⟩
      rw [← Option.some.inj isData, resolved]
  | _ =>
    cases isLinked
    exact ⟨id, id, rfl, fun _ isTarget => (nomatch isTarget), fun _ isData => nomatch isData⟩

end Cases

end Assembly

end BasicLang
