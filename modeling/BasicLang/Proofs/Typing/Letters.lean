import BasicLang.Proofs.Syntax.Reader
import BasicLang.Proofs.Typing.Implicit

set_option autoImplicit false

namespace BasicLang

structure LetterRange where
  first : Char
  last : Char
  ty : Ty

def LetterTypes.setAll (types : LetterTypes) (ranges : List LetterRange) : LetterTypes :=
  ranges.foldl (fun types range => types.setRange range.first range.last range.ty) types

def TypeSpec.basicType : TypeSpec → Ty
  | .integer => .integer
  | .long => .long
  | .single => .single
  | .double => .double
  | .string => .string
  | .json => .json
  | .any | .record _ => .any

def Stmt.letterRanges : Stmt → List LetterRange
  | .defType spec ranges => ranges.map fun range => ⟨range.1, range.2, spec.basicType⟩
  | _ => []

def Block.letterRanges (block : Block) : List LetterRange :=
  block.toList.flatMap fun item => item.2.letterRanges

theorem LetterTypes.set_all_append (types : LetterTypes) (early late : List LetterRange) :
    types.setAll (early ++ late) = (types.setAll early).setAll late := List.foldl_append ..

theorem TypeSpec.IsBasic.resolves {spec : TypeSpec} (basic : spec.IsBasic) (table : SymbolTable) :
    table.resolve? spec = some spec.basicType := by
  cases spec with
  | record name => exact basic.elim
  | _ => rfl

theorem alpha_upper {char : Char} (isAlpha : char.isAlpha = true) : 'A'.toNat ≤ char.toUpper.toNat := by
  have letter : Lexeme.isLetter char = true := by
    refine Bool.or_eq_true_iff.mpr ((Bool.or_eq_true_iff.mp isAlpha).imp (fun isUpper => ?_) fun isLower => isLower)
    exact Bool.and_eq_true_iff.mpr ((of_decide_eq_true isUpper).imp decide_eq_true decide_eq_true)
  have upper := Reader.letter_upper letter
  simp only [Lexeme.isLetter, Bool.or_eq_true, Bool.and_eq_true, decide_eq_true_eq, Char.le_def,
    UInt32.le_iff_toNat_le] at upper
  obtain ⟨above, -⟩ | ⟨above, -⟩ := upper
  · exact above
  · exact Nat.le_trans (by decide) above

theorem Block.WellFormed.each {block : Block} (wellFormed : block.WellFormed) :
    ∀ item ∈ block.toList, item.2.WellFormed := by
  cases block with
  | nil => exact fun _ inside => nomatch inside
  | cons locus head tail => exact List.forall_mem_cons.mpr ⟨wellFormed.1, each wellFormed.2⟩

namespace SymbolTable

theorem set_letter_type (table : SymbolTable) (first : Char) {last : Char} (isAlpha : last.isAlpha = true) (ty : Ty) :
    (table.setLetterType first last ty).letters = table.letters.setRange first last ty := by
  have behind := alpha_upper isAlpha
  have same (index : Nat) :
      (first.toUpper.toNat - 'A'.toNat ≤ index ∧ index ≤ last.toUpper.toNat - 'A'.toNat) ↔
        first.toUpper.toNat ≤ 'A'.toNat + index ∧ 'A'.toNat + index ≤ last.toUpper.toNat := by
    omega
  simp only [setLetterType, LetterTypes.set, LetterTypes.setRange, same]

theorem set_letter_types (table : SymbolTable) {ranges : List (Char × Char)}
    (letters : ∀ range ∈ ranges, range.2.isAlpha = true) (ty : Ty) :
    (ranges.foldl (fun table (first, last) => table.setLetterType first last ty) table).letters =
      table.letters.setAll (ranges.map fun range => ⟨range.1, range.2, ty⟩) := by
  induction ranges generalizing table with
  | nil => rfl
  | cons range rest ih =>
    obtain ⟨isLetter, others⟩ := List.forall_mem_cons.mp letters
    rw [List.foldl_cons, ih _ others, set_letter_type table range.1 isLetter]
    rfl

end SymbolTable

namespace Check

variable {registry : Registry} {program : Program}

theorem follows_letter_types (locus : Locus) {stmt : Stmt} (wellFormed : stmt.WellFormed) :
    Follows (fun before _ after => after.letters = before.letters.setAll stmt.letterRanges)
      (declareTypes locus stmt) := by
  cases stmt with
  | defType spec ranges =>
    refine follows_read fun found => ?_
    dsimp only
    rw [wellFormed.1.resolves found]
    refine follows_weaken (follows_modify fun symbols =>
      ranges.foldl (fun table (first, last) => table.setLetterType first last spec.basicType) symbols) ?_
    rintro before _ _ rfl _
    exact before.set_letter_types (fun range inside => (wellFormed.2 range inside).2) _
  | typeDef name members =>
    have resolved (member : TypeMember) : Keeps SymbolTable.letters (do
        return (member.name, ← resolve member.typeSpec member.locus)) :=
      keeps_seq (keeps_still (still_resolve _ _)) fun _ => keeps_unit _
    refine keeps_seq (keeps_map resolved) fun members => follows_read fun table => ?_
    split
    · next after defined =>
      refine keeps_set ?_
      unfold SymbolTable.defineType at defined
      grind
    · exact follows_report _ _
  | _ => exact keeps_unit ()

theorem steps_set_letters {items : List (Locus × Stmt)} {before after : SymbolTable}
    (steps : Steps (fun item before after => after.letters = before.letters.setAll item.2.letterRanges) items before
      after) :
    after.letters = before.letters.setAll (items.flatMap fun item => item.2.letterRanges) := by
  induction items generalizing before with
  | nil =>
    obtain rfl := steps
    rfl
  | cons item rest ih =>
    obtain ⟨between, first, others⟩ := steps
    rw [List.flatMap_cons, LetterTypes.set_all_append, ← first]
    exact ih others

theorem follows_letters (wellFormed : program.main.WellFormed) :
    Follows (fun before _ after => after.letters = before.letters.setAll program.main.letterRanges)
      (declarations program) := by
  have types : Follows (fun before _ after => after.letters = before.letters.setAll program.main.letterRanges)
      (program.main.toList.forM fun item => declareTypes item.1 item.2) := by
    refine follows_weaken (follows_steps fun item inside => ?_) fun _ _ _ => steps_set_letters
    exact follows_letter_types item.1 (wellFormed.each item inside)
  have overlooks : Overlooks SymbolTable.letters := fun _ _ _ same => same
  have others : Keeps SymbolTable.letters (do
      program.procedures.forM declareRoutine
      program.main.toList.forM fun item => declareProcedure item.1 item.2
      program.routines.forM fun routine => blockLabels routine.name routine.body) :=
    keeps_seq (keeps_each fun routine _ => keeps_routine overlooks routine) fun _ =>
      keeps_seq (keeps_each fun item _ => keeps_procedure overlooks item.1 item.2) fun _ =>
        keeps_each fun routine _ => keeps_labels overlooks routine.name routine.body
  refine follows_weaken (follows_seq types fun _ => others) ?_
  rintro before _ after ⟨_, between, early, late⟩
  exact late.trans early

def Sets (ranges : List LetterRange) (check : Check Stmt) : Prop :=
  ∀ state, (check.run state).1.letterRanges = ranges

theorem sets_seq {α : Type} {ranges : List LetterRange} {first : Check α} {next : α → Check Stmt}
    (sets : ∀ value, Sets ranges (next value)) : Sets ranges (first >>= next) := fun _ => sets _ _

theorem sets_unit (stmt : Stmt) : Sets stmt.letterRanges (pure stmt) := fun _ => rfl

theorem sets_branch {condition : Prop} [Decidable condition] {ranges : List LetterRange} {accepted refused : Check Stmt}
    (sets : Sets ranges accepted) (otherwise : Sets ranges refused) :
    Sets ranges (if condition then accepted else refused) := by
  split
  · exact sets
  · exact otherwise

theorem sets_stmt (context : CheckContext) (locus : Locus) (stmt : Stmt) :
    Sets stmt.letterRanges (Check.stmt context locus stmt) := by
  cases stmt with
  | assign target value =>
    refine sets_seq fun _ => sets_seq fun _ => ?_
    exact sets_branch (sets_seq fun _ => sets_unit (.assign _ _)) (sets_unit (.assign _ _))
  | dim shared decls =>
    exact sets_branch (sets_seq fun _ => sets_seq fun _ => sets_unit (.dim _ _)) (sets_seq fun _ => sets_unit (.dim _ _))
  | forLoop counter first last step body next =>
    refine sets_seq fun _ => sets_seq fun _ => sets_seq fun _ => sets_seq fun _ => sets_seq fun _ => ?_
    cases next with
    | none => exact sets_unit (.forLoop _ _ _ _ _ _)
    | some found =>
      exact sets_branch (sets_seq fun _ => sets_unit (.forLoop _ _ _ _ _ _)) (sets_unit (.forLoop _ _ _ _ _ _))
  | exit target => exact sets_branch (sets_seq fun _ => sets_unit (.exit _)) (sets_unit (.exit _))
  | restore label =>
    cases label with
    | none => exact sets_unit (.restore _)
    | some name =>
      refine sets_seq fun _ => ?_
      exact sets_branch (sets_seq fun _ => sets_unit (.restore _)) (sets_unit (.restore _))
  | _ => exact fun _ => rfl

theorem checked_ranges (context : CheckContext) (block : Block) (state : CheckState) :
    ((Check.block context block).run state).1.letterRanges = block.letterRanges := by
  cases block with
  | nil => rfl
  | cons locus head tail =>
    have first := sets_stmt context locus head state
    have rest := checked_ranges context tail ((Check.stmt context locus head).run state).2
    calc
      _ = ((Check.stmt context locus head).run state).1.letterRanges ++
          ((Check.block context tail).run ((Check.stmt context locus head).run state).2).1.letterRanges := rfl
      _ = _ := by rw [first, rest]; rfl

end Check

namespace Program

variable {program : Program} {registry : Registry}

theorem checked_ranges (program : Program) (registry : Registry) :
    (program.check registry).program.main.letterRanges = program.main.letterRanges := by
  have isMain : (program.check registry).program.main =
      ((Check.upTo registry program [] (.main program.main)).run ⟨.empty, []⟩).1 :=
    Check.program_main registry program ⟨.empty, []⟩
  obtain ⟨later, same⟩ := Check.headed_result registry (.main program.main)
    ⟨((Check.declarations program).run ⟨.empty, []⟩).2.symbols.enterScope,
      ((Check.declarations program).run ⟨.empty, []⟩).2.diagnostics⟩
  rw [isMain]
  exact (congrArg Block.letterRanges same).trans (Check.checked_ranges _ program.main later)

theorem check_letters (wellFormed : program.WellFormed) (quiet : (program.check registry).diagnostics = []) :
    (program.check registry).symbols.letters =
      (LetterTypes.uniform .single).setAll (program.check registry).program.main.letterRanges := by
  have bodies (table : SymbolTable) : Check.Ensures table (fun _ => True) (do
      let main ← Check.routine registry (.main program.main)
      let procedures ← program.procedures.mapM (Check.routine registry)
      return ({ main := main.body, procedures } : Program)) :=
    Check.ensures_seq (Check.ensures_routine registry (.main program.main) wellFormed.main) fun _ =>
      Check.ensures_seq (Check.ensures_routines registry _ fun routine inside =>
        (wellFormed.procedures routine inside).body) fun _ => Check.ensures_unit fun _ _ => trivial
  have follows := Check.follows_seq (Check.follows_letters wellFormed.main) fun _ => Check.follows_of_ensures bodies
  obtain ⟨_, declared, types, agrees, -⟩ := (follows ⟨.empty, []⟩).2
    (List.reverse_eq_nil_iff.mp (Diagnostic.of_sort_nil quiet))
  rw [checked_ranges]
  exact agrees.letters.trans types

end Program

end BasicLang
