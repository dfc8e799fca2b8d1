import BasicLang.Proofs.Code.Containment
import BasicLang.Proofs.Machine.Constancy
import Mathlib.Data.List.Chain

set_option autoImplicit false

namespace BasicLang

namespace Assembly

variable {before after start bound : Assembly}

def Headed (assembly : Assembly) : Prop :=
  (assembly.code.toList.map Instruction.op).IsChain fun first second =>
    second.bindsParameter = true → first.bindsParameter = true ∨ first.fallsThrough = false

theorem Headed.adds (headed : before.Headed) (adds : before.Adds (fun op => !op.bindsParameter) after) :
    after.Headed := by
  obtain ⟨⟨rest, same⟩, unbound⟩ := adds
  have free : ∀ op ∈ rest.map Instruction.op, op.bindsParameter = false := by
    intro op isOp
    obtain ⟨instruction, inside, rfl⟩ := List.mem_map.mp isOp
    obtain ⟨place, found⟩ := List.getElem?_of_mem inside
    have isNew : after.code[before.code.size + place]? = some instruction := by
      rw [← Array.getElem?_toList, ← same, List.getElem?_append_right (by simp)]
      simpa using found
    simpa using unbound _ _ (Nat.le_add_right _ _) isNew
  rw [Headed, ← same, List.map_append]
  refine List.IsChain.append headed ?_ fun _ _ second isHead binds => ?_
  · rw [List.isChain_iff_getElem]
    intro place below binds
    rw [free _ (List.getElem_mem _)] at binds
    cases binds
  · rw [free second (List.mem_of_mem_head? isHead)] at binds
    cases binds

theorem Headed.parameters {params : List (String × Ty)} (headed : start.Headed)
    (jumps : ∀ op ∈ (start.code.toList.map Instruction.op).getLast?, op.fallsThrough = false)
    (ran : (params.forM fun (name, ty) => Emit.op (.popParam name ty)).run start = .ok ((), bound)) : bound.Headed := by
  rw [Headed, (Emit.run_parameters ran).1]
  refine List.IsChain.append headed ?_ fun first isLast _ _ _ => .inr (jumps first isLast)
  rw [List.isChain_iff_getElem]
  intro place below _
  left
  rw [List.getElem_map]
  rfl

end Assembly

namespace Emit

variable {context : EmitContext} {before after whole : Assembly} {routine : Routine} {span : Span}

theorem head_jumps {start : Assembly} {skip : Nat} (ran : (procedureHead routine).run before = .ok (skip, start)) :
    ∀ op ∈ (start.code.toList.map Instruction.op).getLast?, op.fallsThrough = false := by
  obtain ⟨-, placed⟩ := procedure_head_cases ran
  obtain ⟨label, -, -, rfl⟩ := Assembly.place_cases placed
  rw [skipping]
  simp only [Assembly.entry_label_code]
  simp [Assembly.emit, Assembly.newLabel, Op.fallsThrough]

def Receives (context : EmitContext) (span : Span) (assembly : Assembly) : Prop :=
  span.routine.kind ≠ .main → ∃ entry, context.symbols.procedure? span.routine.name = some entry ∧
    ∀ offset name ty, entry.params.reverse[offset]? = some (name, ty) →
      ∃ locus, assembly.code[span.first + offset]? = some ⟨.popParam name ty, locus⟩

theorem Receives.grows (receives : Receives context span before) (grows : before.Grows after) :
    Receives context span after := by
  intro isProcedure
  obtain ⟨entry, found, binds⟩ := receives isProcedure
  refine ⟨entry, found, fun offset name ty isParam => ?_⟩
  obtain ⟨locus, there⟩ := binds offset name ty isParam
  exact ⟨locus, grows.fetched there⟩

theorem received_procedure (ran : (procedureSpan context routine).run before = .ok (span, after))
    (headed : before.Headed) :
    after.Headed ∧ Receives context span after := by
  obtain ⟨entry, skip, start, places, last, closed, found, head, body, tail, placed, rfl⟩ := procedure_span_cases ran
  obtain ⟨bound, params, inner⟩ := procedure_body_cases body
  have rest : Assembly.Adds (fun op => !op.bindsParameter) bound after :=
    Assembly.adds_trans (keeps_procedure_inner keeps_unbound context entry routine bound places last inner)
      (Assembly.adds_trans (keeps_procedure_tail keeps_unbound.quiet routine last () closed tail)
        (keeps_unbound.place skip closed () after (run_place_ok placed)))
  have started := headed.adds (keeps_procedure_head keeps_unbound.quiet routine before skip start head)
  refine ⟨(started.parameters (head_jumps head) params).adds rest, fun _ => ⟨entry, found, fun offset name ty isParam => ?_⟩⟩
  have isOp : (bound.code.toList.map Instruction.op)[start.code.size + offset]? = some (.popParam name ty) := by
    rw [(run_parameters params).1, List.getElem?_append_right (by simp), List.length_map, Array.length_toList,
      Nat.add_sub_cancel_left, List.getElem?_map, isParam]
    rfl
  rw [List.getElem?_map, Option.map_eq_some_iff] at isOp
  obtain ⟨⟨op, locus⟩, there, rfl⟩ := isOp
  exact ⟨locus, Assembly.fetched_longer rest.1 (by simpa using there)⟩

theorem received_main {main : Block} (ran : (mainSpan context main).run .empty = .ok (span, after)) :
    after.Headed ∧ Receives context span after := by
  obtain ⟨start, places, last, letters, body, rfl, rfl⟩ := main_span_cases ran
  have unbound : Assembly.Adds (fun op => !op.bindsParameter) .empty (last.emit .stop) :=
    Assembly.adds_trans (keeps_letters keeps_unbound.quiet (fun _ _ _ => keeps_sets_unbound) context main .empty ()
      start letters)
      (Assembly.adds_trans (keeps_block_places keeps_unbound context main start places last body) (Assembly.adds_emit rfl))
  have empty : Assembly.empty.Headed := by simp [Assembly.Headed, Assembly.empty]
  exact ⟨empty.adds unbound, fun isProcedure => absurd rfl isProcedure⟩

theorem received_layout {program : Program} {spans : List Span}
    (ran : (layout context program).run .empty = .ok (spans, whole)) :
    whole.Headed ∧ ∀ span ∈ spans, Receives context span whole := by
  obtain ⟨main, others, between, last, ranMain, ranOthers, rfl, rfl⟩ := layout_cases ran
  obtain ⟨headed, receives⟩ := received_main ranMain
  have each : ∀ routine ∈ program.procedures, ∀ done,
      Reaches (fun assembly => assembly.Headed ∧ ∀ span ∈ done, Receives context span assembly) (procedureSpan context routine)
        fun span assembly => assembly.Headed ∧ ∀ other ∈ done ++ [span], Receives context other assembly := by
    rintro routine - done before span after ⟨headed, received⟩ ran
    have grows := (keeps_procedure_span keeps_step.body keeps_step.parameter context routine before span after ran).1
    obtain ⟨later, receives⟩ := received_procedure ran headed
    refine ⟨later, List.forall_mem_append.mpr ⟨fun other isDone => ?_, List.forall_mem_singleton.mpr receives⟩⟩
    exact (received other isDone).grows grows
  have all := reaches_map each [main] between others last ⟨headed, List.forall_mem_singleton.mpr receives⟩ ranOthers
  split
  · exact all
  · exact ⟨all.1.adds (Assembly.adds_emit rfl), fun span isSpan => (all.2 span isSpan).grows (Assembly.emit_step last _).1⟩

end Emit

namespace Image

def Binds (image : Image) (place : Nat) : Prop := ∃ name ty, image.Fetches place (.popParam name ty)

structure Receives (image : Image) (symbols : SymbolTable) (spans : List Span) : Prop where
  entry : ∀ span ∈ spans, span.routine.kind ≠ .main → ∃ entry, symbols.procedure? span.routine.name = some entry ∧
    image.Embeds span.first (entry.params.reverse.map fun (name, ty) => .popParam name ty)
  aims : ∀ span ∈ spans, ∀ place instruction, span.Has place → image.instructions[place]? = some instruction →
    ∀ next, .resolved next ∈ instruction.op.aims → ¬image.Binds next
  follows : ∀ place instruction, image.instructions[place]? = some instruction → instruction.op.fallsThrough = true →
    image.Binds (place + 1) → instruction.op.bindsParameter = true

end Image

theorem Op.retarget_binds (op : Op) (code data : Target → Target) :
    (op.retarget code data).bindsParameter = op.bindsParameter := by
  cases op <;> rfl

theorem Assembly.Linked.binds {whole : Assembly} {image : Image} (links : whole.Linked image)
    (size : image.instructions.size = whole.code.size) {place : Nat} (binds : image.Binds place) :
    ∃ instruction, whole.code[place]? = some instruction ∧ instruction.op.bindsParameter = true := by
  obtain ⟨name, ty, locus, found⟩ := binds
  obtain ⟨unlinked, isSource, isResult⟩ := links.source size found
  obtain ⟨code, data, linked, -⟩ := Assembly.link_cases isResult
  refine ⟨unlinked, isSource, ?_⟩
  rw [← Op.retarget_binds _ code data, ← (Instruction.mk.inj linked).1]
  rfl

theorem Program.Accepted.receives {program : Program} {symbols : SymbolTable} {registry : Registry} {image : Image}
    {spans : List Span} (accepted : program.Accepted symbols registry) (coded : program.image symbols registry = .ok image)
    (isLayout : program.layout? symbols registry = some spans) : image.Receives symbols spans := by
  obtain ⟨whole, -, ranLayout, links, size, -⟩ := laid_out coded isLayout
  obtain ⟨headed, received⟩ := Emit.received_layout ranLayout
  have contains := Emit.contained_layout accepted ranLayout
  have source {place : Nat} (binds : image.Binds place) := links.binds size binds
  refine ⟨fun span isSpan isProcedure => ?_, ?_, ?_⟩
  · obtain ⟨entry, found, binds⟩ := received span isSpan isProcedure
    refine ⟨entry, found, fun offset op isOp => ?_⟩
    rw [List.getElem?_map, Option.map_eq_some_iff] at isOp
    obtain ⟨⟨name, ty⟩, isParam, rfl⟩ := isOp
    obtain ⟨locus, there⟩ := binds offset name ty isParam
    obtain ⟨result, isResult, there⟩ := links _ _ there
    cases isResult
    exact ⟨locus, there⟩
  · intro span isSpan place instruction inside found next isAim binds
    obtain ⟨⟨op, locus⟩, isSource, isResult⟩ := links.source size found
    obtain ⟨code, data, rfl, resolves, -⟩ := Assembly.link_cases isResult
    rw [Op.retarget_aims] at isAim
    obtain ⟨label, isLabel, isNext⟩ := List.mem_map.mp isAim
    obtain ⟨id, rfl, there, placed, -, target, isTarget, unbound⟩ := (contains span isSpan place _ inside isSource).at isLabel
    obtain ⟨other, isPlace, isOther⟩ := Assembly.resolve_label_place (resolves _ (Op.aims_address _ isLabel))
    obtain rfl : other = there := Option.some.inj (isPlace.symm.trans placed)
    obtain rfl : other = next := Target.resolved.inj (isOther.symm.trans isNext)
    obtain ⟨bound, isBound, binds⟩ := source binds
    rw [Option.some.inj (isBound.symm.trans isTarget), unbound] at binds
    cases binds
  · intro place instruction found falls binds
    obtain ⟨⟨op, locus⟩, isSource, isResult⟩ := links.source size found
    obtain ⟨code, data, rfl, -⟩ := Assembly.link_cases isResult
    obtain ⟨second, isSecond, binds⟩ := source binds
    rw [Op.retarget_falls] at falls
    rw [Op.retarget_binds]
    rw [Assembly.Headed, List.isChain_iff_getElem] at headed
    have below : place + 1 < (whole.code.toList.map Instruction.op).length := by
      simpa using (Array.getElem?_eq_some_iff.mp isSecond).1
    have both := headed place below
    simp only [List.getElem_map, Array.getElem_toList] at both
    rw [(Array.getElem?_eq_some_iff.mp isSecond).2, (Array.getElem?_eq_some_iff.mp isSource).2] at both
    exact (both binds).resolve_right (by simp [falls])

end BasicLang
