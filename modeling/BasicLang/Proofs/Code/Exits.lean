import BasicLang.Proofs.Code.Containment
import BasicLang.Proofs.Machine.Points

set_option autoImplicit false

namespace BasicLang

def Span.exit (span : Span) : Nat := span.stop - 1 - span.routine.results

def ExitTarget.leaves : ExitTarget → Bool
  | .sub | .function => true
  | _ => false

namespace Emit

variable {context : EmitContext} {before after start last closed : Assembly} {routine : Routine} {span : Span}

structure Housed (context : EmitContext) (span : Span) (exit : Option Nat) (assembly : Assembly) : Prop where
  statements : CodesAt { context with exit } span.places assembly
  ends : span.routine.kind ≠ .main → ∃ id, exit = some id ∧ assembly.placeOf? id = some span.exit
  inside : span.routine.kind ≠ .main → span.first ≤ span.exit ∧ span.stop = span.exit + span.routine.results + 1
  result : span.routine.kind = .function →
    ∃ locus, assembly.code[span.exit]? = some ⟨.pushValue span.routine.name, locus⟩

theorem Housed.grows {exit : Option Nat} (housed : Housed context span exit before)
    (grows : Assembly.Grows before after) : Housed context span exit after where
  statements := housed.statements.grows grows
  ends := fun isProcedure => by
    obtain ⟨id, isExit, placed⟩ := housed.ends isProcedure
    exact ⟨id, isExit, grows.place_kept placed⟩
  inside := housed.inside
  result := fun isFunction => by
    obtain ⟨locus, found⟩ := housed.result isFunction
    exact ⟨locus, grows.fetched found⟩

theorem tail_size (ran : (procedureTail routine).run last = .ok ((), closed)) :
    closed.code.size = last.code.size + routine.results + 1 ∧
      (routine.kind = .function → ∃ locus, closed.code[last.code.size]? = some ⟨.pushValue routine.name, locus⟩) := by
  rw [procedure_tail_cases ran, Routine.results]
  by_cases isFunction : routine.kind = .function
  · simp only [if_pos isFunction, Assembly.emit, Array.size_push]
    refine ⟨trivial, fun _ => ⟨last.locus, ?_⟩⟩
    rw [Array.getElem?_push_lt (by simp), Array.getElem_push_eq]
  · simp only [if_neg isFunction, Assembly.emit, Array.size_push]
    exact ⟨trivial, fun isOther => absurd isOther isFunction⟩

theorem housed_procedure (ran : (procedureSpan context routine).run before = .ok (span, after)) :
    ∃ exit, Housed context span exit after := by
  obtain ⟨entry, skip, start, places, last, closed, -, head, body, tail, placed, rfl⟩ := procedure_span_cases ran
  obtain ⟨exit, isPlaced, codes, -⟩ := body_codes body
  have bodyGrows := (keeps_procedure_body keeps_step.body keeps_step.parameter context entry routine start places last body).1
  have tailGrows := (keeps_procedure_tail keeps_step.plain routine last () closed tail).1
  have placeGrows := (Assembly.place_step placed).1
  obtain ⟨size, pushes⟩ := tail_size tail
  have isExit : closed.code.size - 1 - routine.results = last.code.size := by omega
  refine ⟨some exit, codes.grows (tailGrows.trans placeGrows), fun _ => ⟨exit, rfl, ?_⟩, fun _ => ?_, fun isFunction => ?_⟩
  · rw [Span.exit, isExit]
    exact (tailGrows.trans placeGrows).place_kept isPlaced
  · rw [Span.exit, isExit]
    exact ⟨bodyGrows.longer, size⟩
  · obtain ⟨locus, found⟩ := pushes isFunction
    rw [Span.exit, isExit]
    exact ⟨locus, placeGrows.fetched found⟩

theorem housed_main {main : Block} (ran : (mainSpan context main).run before = .ok (span, after)) :
    ∃ exit, Housed context span exit after := by
  obtain ⟨start, places, last, -, body, rfl, rfl⟩ := main_span_cases ran
  obtain ⟨codes, -⟩ := codes_block body
  refine ⟨context.exit, codes.grows (Assembly.emit_step last _).1, ?_, ?_, ?_⟩
  · exact fun isProcedure => absurd rfl isProcedure
  · exact fun isProcedure => absurd rfl isProcedure
  · intro isFunction
    cases isFunction

theorem housed_layout {program : Program} {spans : List Span} {whole : Assembly}
    (ran : (layout context program).run before = .ok (spans, whole)) :
    ∀ span ∈ spans, ∃ exit, Housed context span exit whole := by
  obtain ⟨main, others, between, last, ranMain, ranOthers, rfl, rfl⟩ := layout_cases ran
  have each : ∀ routine ∈ program.procedures, ∀ done,
      Reaches (fun assembly => ∀ span ∈ done, ∃ exit, Housed context span exit assembly) (procedureSpan context routine)
        fun span assembly => ∀ other ∈ done ++ [span], ∃ exit, Housed context other exit assembly := by
    intro routine _ done before span after housed ran
    have grows := (keeps_procedure_span keeps_step.body keeps_step.parameter context routine before span after ran).1
    refine List.forall_mem_append.mpr ⟨fun other isDone => ?_, List.forall_mem_singleton.mpr (housed_procedure ran)⟩
    obtain ⟨exit, house⟩ := housed other isDone
    exact ⟨exit, house.grows grows⟩
  have all := reaches_map each [main] between others last (List.forall_mem_singleton.mpr (housed_main ranMain)) ranOthers
  intro span isSpan
  obtain ⟨exit, house⟩ := all span isSpan
  split
  · exact ⟨exit, house⟩
  · exact ⟨exit, house.grows (Assembly.emit_step last _).1⟩

theorem CodeAt.exit {whole : Assembly} {place : Nat} {target : ExitTarget} (leaves : target.leaves = true)
    (code : CodeAt context whole place (.exit target)) :
    ∃ id locus, context.exit = some id ∧ whole.code[place]? = some ⟨.jump (.label id), locus⟩ := by
  obtain ⟨loops, locus, before, places, after, rfl, grows, ran⟩ := code
  obtain ⟨⟨⟩, jumped, ran, rest⟩ := run_seq ran
  cases rest
  have isLabel : EmitContext.exitLabel? { context with loops } target = context.exit := by
    cases target <;> first | rfl | cases leaves
  rw [stmt, isLabel] at ran
  cases isExit : context.exit with
  | none =>
    rw [isExit] at ran
    cases ran
  | some id =>
    rw [isExit] at ran
    cases ran
    exact ⟨id, before.locus, rfl, grows.fetched (by simp [Assembly.emit])⟩

end Emit

structure Image.Exits (image : Image) (span : Span) : Prop where
  first : span.first ≤ span.exit
  stop : span.stop = span.exit + span.routine.results + 1
  result : span.routine.kind = .function → image.Fetches span.exit (.pushValue span.routine.name)
  returns : image.Fetches (span.stop - 1) .ret
  jumps : ∀ place target, (place, Stmt.exit target) ∈ span.places → target.leaves = true →
    image.Fetches place (.jump (.resolved span.exit))

theorem Program.image_exits {program : Program} {symbols : SymbolTable} {registry : Registry} {image : Image}
    {spans : List Span} (coded : program.image symbols registry = .ok image)
    (isLayout : program.layout? symbols registry = some spans) :
    ∀ span ∈ spans, span.routine.kind ≠ .main → image.Exits span := by
  obtain ⟨whole, -, ranLayout, links, -⟩ := laid_out coded isLayout
  intro span isSpan isProcedure
  obtain ⟨exit, housed⟩ := Emit.housed_layout ranLayout span isSpan
  obtain ⟨-, locus, returns⟩ := ((Emit.spread_layout ranLayout).1.each span isSpan).procedure isProcedure
  obtain ⟨first, stop⟩ := housed.inside isProcedure
  refine ⟨first, stop, fun isFunction => ?_, ?_, fun place target isExit leaves => ?_⟩
  · obtain ⟨locus, found⟩ := housed.result isFunction
    obtain ⟨result, isResult, there⟩ := links _ _ found
    cases isResult
    exact ⟨locus, there⟩
  · obtain ⟨result, isResult, there⟩ := links _ _ returns
    cases isResult
    exact ⟨locus, there⟩
  · obtain ⟨id, locus, isId, found⟩ := (housed.statements place (.exit target) isExit).exit leaves
    obtain ⟨other, isOther, placed⟩ := housed.ends isProcedure
    obtain rfl : id = other := Option.some.inj (isId.symm.trans isOther)
    obtain ⟨result, isResult, there⟩ := links _ _ found
    obtain ⟨code, _, rfl, resolves, -⟩ := Assembly.link_cases isResult
    obtain ⟨goal, isPlace, isTarget⟩ := Assembly.resolve_label_place (resolves _ rfl)
    obtain rfl : goal = span.exit := Option.some.inj (isPlace.symm.trans placed)
    rw [Op.retarget, isTarget] at there
    exact ⟨locus, there⟩

end BasicLang
