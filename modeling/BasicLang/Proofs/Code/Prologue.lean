import BasicLang.Proofs.Code.Containment
import BasicLang.Proofs.Typing.Letters

set_option autoImplicit false

namespace BasicLang

def LetterRange.op (range : LetterRange) : Op := .setDefaultType range.first range.last range.ty

namespace Assembly

variable {before after : Assembly}

def Sets (ranges : List LetterRange) (before after : Assembly) : Prop :=
  after.code.toList.map Instruction.op = before.code.toList.map Instruction.op ++ ranges.map LetterRange.op ∧
    after.labels = before.labels

end Assembly

namespace Emit

variable {context : EmitContext} {before after whole : Assembly}

theorem keeps_types : Growing Op.isBody (Assembly.Adds fun op => !op.setsLetters) :=
  keeps_adds fun _ body => (Bool.and_eq_true_iff.mp body).1

theorem types_parameter (name : String) (ty : Ty) :
    Keeps (Assembly.Adds fun op => !op.setsLetters) Unit (op (.popParam name ty)) := by
  intro before _ after ran
  cases ran
  exact Assembly.adds_emit rfl

theorem sets_ranges {ranges : List (Char × Char)} {ty : Ty}
    (ran : (ranges.forM fun (first, last) => op (.setDefaultType first last ty)).run before = .ok ((), after)) :
    before.Sets (ranges.map fun range => ⟨range.1, range.2, ty⟩) after := by
  induction ranges generalizing before with
  | nil =>
    cases ran
    exact ⟨by simp, rfl⟩
  | cons range rest ih =>
    obtain ⟨⟨⟩, between, first, others⟩ := run_seq ran
    cases first
    obtain ⟨code, labels⟩ := ih others
    refine ⟨?_, labels⟩
    rw [code]
    simp [Assembly.emit, LetterRange.op]

theorem sets_letter_types {stmt : Stmt} {locus : Locus} {routine : CheckContext}
    (accepted : stmt.Accepted context.symbols routine)
    (ran : (letterTypes context locus stmt).run before = .ok ((), after)) : before.Sets stmt.letterRanges after := by
  cases stmt with
  | defType spec ranges =>
    obtain ⟨⟨⟩, located, isLocated, ran⟩ := run_seq ran
    cases isLocated
    obtain ⟨ty, found, resolves, ran⟩ := run_seq ran
    unfold typeOf at resolves
    rw [TypeSpec.IsBasic.resolves accepted] at resolves
    cases resolves
    exact ⟨(sets_ranges ran).1, (sets_ranges ran).2⟩
  | _ =>
    cases ran
    exact ⟨by simp [Stmt.letterRanges], rfl⟩

theorem sets_block {block : Block} {routine : CheckContext} {before after : Assembly}
    (accepted : block.Accepted context.symbols routine)
    (ran : (block.toList.forM fun (locus, stmt) => letterTypes context locus stmt).run before = .ok ((), after)) :
    before.Sets block.letterRanges after := by
  cases block with
  | nil =>
    cases ran
    exact ⟨by simp [Block.letterRanges, Block.toList], rfl⟩
  | cons locus head tail =>
    obtain ⟨⟨⟩, between, first, others⟩ := run_seq ran
    obtain ⟨early, labels⟩ := sets_letter_types accepted.1 first
    obtain ⟨late, same⟩ := sets_block accepted.2 others
    refine ⟨?_, same.trans labels⟩
    rw [late, early]
    simp [Block.letterRanges, Block.toList]

theorem program_cases {program : Program} {routine : CheckContext}
    (accepted : program.main.Accepted context.symbols routine)
    (ran : (Emit.program context program).run .empty = .ok ((), whole)) :
    ∃ start : Assembly, start.code.toList.map Instruction.op = program.main.letterRanges.map LetterRange.op ∧
      start.Adds (fun op => !op.setsLetters) whole ∧ start.code.size < whole.code.size ∧
        ∀ id place, whole.placeOf? id = some place → start.code.size ≤ place := by
  obtain ⟨⟨⟩, start, letters, ran⟩ := run_seq ran
  obtain ⟨code, labels⟩ := sets_block accepted letters
  obtain ⟨⟨⟩, last, main, ran⟩ := run_seq ran
  obtain ⟨⟨⟩, stopped, stop, ran⟩ := run_seq ran
  cases stop
  have routines {relation : Assembly → Assembly → Prop} (growing : Growing Op.isBody relation)
      (parameter : ∀ name ty, Keeps relation Unit (op (.popParam name ty))) : relation start whole := by
    have body := keeps_block growing context _ start () last main
    have rest := keeps_procedures growing parameter context program _ () whole ran
    exact growing.trans _ _ _ (growing.trans _ _ _ body (growing.op .stop rfl last () _ rfl)) rest
  have later := routines keeps_later.body keeps_later.parameter
  refine ⟨start, code, routines keeps_types types_parameter, ?_, ?_⟩
  · have body := (keeps_block keeps_later.body context _ start () last main).1
    have rest := (keeps_procedures keeps_later.body keeps_later.parameter context program _ () whole ran).1
    calc
      start.code.size < last.code.size + 1 := Nat.lt_succ_of_le body
      _ = (last.emit .stop).code.size := by simp [Assembly.emit]
      _ ≤ whole.code.size := rest
  · intro id place placed
    refine (later.2 id place placed).resolve_left fun isOld => ?_
    rw [Assembly.placeOf?, labels] at isOld
    cases isOld

end Emit

/-- The first instructions set the types of letters. Others come behind them, do not set any, and do not go back. -/
structure Image.Opens (image : Image) (ranges : List LetterRange) : Prop where
  sets : ∀ (place : Nat) (range : LetterRange), ranges[place]? = some range →
    ∃ locus, image.instructions[place]? = some ⟨range.op, locus⟩
  goesOn : ranges.length < image.instructions.size
  rest : ∀ place instruction, ranges.length ≤ place → image.instructions[place]? = some instruction →
    instruction.op.setsLetters = false
  aims : ∀ instruction ∈ image.instructions, ∀ place, instruction.op.address? = some (.resolved place) →
    ranges.length ≤ place
  default : image.defaultType = .single

namespace Program

variable {program : Program} {symbols : SymbolTable} {registry : Registry} {image : Image}

theorem Accepted.opens (accepted : program.Accepted symbols registry)
    (coded : program.image symbols registry = .ok image) : image.Opens program.main.letterRanges := by
  obtain ⟨whole, linked, ran, isLinked, same, default, -⟩ := image_inversion coded
  have size : image.instructions.size = whole.code.size := by rw [same, Assembly.link_size isLinked]
  have links := Assembly.link_linked isLinked same
  obtain ⟨start, code, types, longer, labels⟩ := Emit.program_cases (accepted.bodies _ List.mem_cons_self) ran
  have length : start.code.size = program.main.letterRanges.length := by
    simpa using congrArg List.length code
  have targets : ∀ instruction ∈ whole.code, instruction.op.isUnlinked = true := by
    obtain ⟨spans, ranLayout⟩ := Emit.run_remember (Emit.forget_layout _ program) ran
    obtain ⟨last, within, rfl⟩ := Emit.layout_ends ranLayout
    exact (within.emit (rfl : Op.isUnlinked .stop = true)).targets
  refine ⟨fun place range isRange => ?_, ?_, fun place instruction behind found => ?_,
    fun instruction inside place isTarget => ?_, default⟩
  · have isOp : (start.code.toList.map Instruction.op)[place]? = some range.op := by
      rw [code, List.getElem?_map, isRange]
      rfl
    rw [List.getElem?_map, Option.map_eq_some_iff] at isOp
    obtain ⟨⟨op, locus⟩, found, rfl⟩ := isOp
    rw [Array.getElem?_toList] at found
    obtain ⟨result, isResult, linkedPlace⟩ := links _ _ (Assembly.fetched_longer types.1 found)
    cases isResult
    exact ⟨locus, linkedPlace⟩
  · rw [← length, size]
    exact longer
  · obtain ⟨⟨op, locus⟩, source, isResult⟩ := links.source size found
    obtain ⟨codeOf, dataOf, rfl, -, -⟩ := Assembly.link_cases isResult
    have sets : (op.retarget codeOf dataOf).setsLetters = op.setsLetters := by cases op <;> rfl
    rw [sets]
    simpa using types.2 place _ (length ▸ behind) source
  · obtain ⟨source, isPlace⟩ := Array.getElem?_of_mem inside
    obtain ⟨⟨op, locus⟩, found, isResult⟩ := links.source size isPlace
    obtain ⟨codeOf, dataOf, rfl, resolves, -⟩ := Assembly.link_cases isResult
    rw [Op.retarget_address, Option.map_eq_some_iff] at isTarget
    obtain ⟨target, isTarget, isNext⟩ := isTarget
    have unlinked := targets _ (Array.mem_of_getElem? found)
    cases target with
    | resolved next => simp [Op.isUnlinked, isTarget] at unlinked
    | label id =>
      obtain ⟨next, placed, isPlace⟩ := Assembly.resolve_label_place (resolves _ isTarget)
      obtain rfl : next = place := Target.resolved.inj (isPlace.symm.trans isNext)
      exact length ▸ labels id next placed

end Program

end BasicLang
