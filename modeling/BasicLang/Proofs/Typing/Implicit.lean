import BasicLang.Proofs.Interpretation
import BasicLang.Proofs.Typing.ScopesProgram

set_option autoImplicit false

namespace BasicLang

def Ty.implicit (name : String) : Ty := (Ty.ofSigil? name).getD .single

theorem Ty.implicit_scalar (name : String) : (Ty.implicit name).IsScalar := by
  unfold Ty.implicit Ty.ofSigil?
  split <;> first | exact .inl rfl | exact .inr rfl

def Expr.Implicit : Expr → Prop
  | .variable name info => (info.ty.getD .any).isArray = true ∨ info.ty = some (.implicit name)
  | .binary _ left right _ => left.Implicit ∧ right.Implicit
  | .unary _ operand _ => operand.Implicit
  | .grouped inner _ => inner.Implicit
  | _ => True

def Expr.Counts (expr : Expr) : Prop := expr.Implicit ∧ Check.isNumber expr.ty = true

def CaseMatch.Suits (test : Ty) : CaseMatch → Prop
  | .single value => value.Implicit ∧ (BinaryOperator.equal.resultType? test value.ty).isSome = true
  | .range first last =>
    (first.Implicit ∧ (BinaryOperator.equal.resultType? test first.ty).isSome = true) ∧
      last.Implicit ∧ (BinaryOperator.equal.resultType? test last.ty).isSome = true
  | .comparison operator value =>
    operator.isComparison = true ∧ value.Implicit ∧
      (BinaryOperator.equal.resultType? test value.ty).isSome = true

mutual

def Stmt.Suits : Stmt → Prop
  | .assign (.variable name _) value =>
    value.Implicit ∧ (Ty.implicit name).isCompatible value.ty = true
  | .cond arms => arms.Suits
  | .select test cases => test.Implicit ∧ cases.Suits test.ty
  | .forLoop counter first last step body _ =>
    (Ty.implicit counter).isNumeric = true ∧ first.Counts ∧ last.Counts ∧ (∀ expr ∈ step, expr.Counts) ∧
      body.Suits
  | .whileLoop condition body => condition.Implicit ∧ body.Suits
  | .doLoop before body after =>
    (∀ loop ∈ before, loop.condition.Implicit) ∧ body.Suits ∧ ∀ loop ∈ after, loop.condition.Implicit
  | _ => True

def Block.Suits : Block → Prop
  | .nil => True
  | .cons _ head tail => head.Suits ∧ tail.Suits

def Arms.Suits : Arms → Prop
  | .none => True
  | .otherwise body => body.Suits
  | .arm condition body rest => condition.Implicit ∧ body.Suits ∧ rest.Suits

def Cases.Suits (test : Ty) : Cases → Prop
  | .none => True
  | .otherwise body => body.Suits
  | .clause _ patterns body rest => (∀ pattern ∈ patterns, pattern.Suits test) ∧ body.Suits ∧ rest.Suits test

end

namespace SymbolTable

structure Plain (table : SymbolTable) : Prop where
  letters : table.letters = .uniform .single
  types : ∀ name entry, SourceName name → table.lookup? name = some entry →
    entry.ty.isArray = true ∨ entry.ty = .implicit name

variable {table : SymbolTable}

theorem Plain.implicit_type (plain : table.Plain) (name : String) : table.implicitType name = .implicit name := by
  have letter : table.letterType name = .single := by
    rw [letterType, plain.letters]
    cases name.toList.head? with
    | none => rfl
    | some char => exact LetterTypes.get_uniform .single char
  rw [implicitType, letter, Ty.implicit]

theorem define_other {entry : SymbolEntry} {isShared : Bool} {after : SymbolTable}
    (defined : table.define entry isShared = .ok after) {name : String} (different : name ≠ entry.name) :
    after.lookup? name = table.lookup? name := by
  unfold define at defined
  unfold lookup?
  cases scopes : table.locals <;> grind [Table.get_set_other]

theorem Plain.define (plain : table.Plain) (entry : SymbolEntry) (absent : table.lookup? entry.name = none)
    (typed : entry.ty = .implicit entry.name) {after : SymbolTable}
    (defined : table.define entry false = .ok after) : after.Plain := by
  obtain ⟨found, again, lookups⟩ := define_lookup table entry absent
  obtain rfl := Except.ok.inj (again.symm.trans defined)
  refine ⟨(define_agrees defined).letters.trans plain.letters, fun name other named found => ?_⟩
  rw [lookups] at found
  split at found
  · next same =>
    rw [← Option.some.inj found, same]
    exact .inr typed
  · exact plain.types name other named found

end SymbolTable

namespace Check

variable {α β : Type} {needs : Prop} {fits : α → Bool} {gives : α → Prop}

/-- A check that reports nothing has a result that fits only if something needed holds. Then plain
names stay plain, and more is known of the result. -/
def Infers (needs : Prop) (fits : α → Bool) (gives : α → Prop) (check : Check α) : Prop :=
  Follows (fun before result after => fits result = true →
    needs ∧ (before.Plain → after.Plain ∧ gives result)) check

section Rules

theorem infers_fitting {result : α} (known : fits result = true → needs ∧ gives result) :
    Infers needs fits gives (pure result) := by
  refine follows_weaken (follows_unit result) ?_
  rintro before _ _ ⟨rfl, rfl⟩ isFit
  exact ⟨(known isFit).1, fun plain => ⟨plain, (known isFit).2⟩⟩

theorem infers_unit {result : α} (needed : fits result = true → needs) (given : gives result) :
    Infers needs fits gives (pure result) := infers_fitting fun isFit => ⟨needed isFit, given⟩

theorem infers_seq {first : Check α} {next : α → Check β} {fitsLast : β → Bool} {givesLast : β → Prop}
    (infersFirst : Infers True fits gives first)
    (infersNext : ∀ value, Infers (needs ∧ fits value = true) fitsLast
      (fun result => gives value → givesLast result) (next value)) :
    Infers needs fitsLast givesLast (first >>= next) := by
  refine follows_weaken (follows_seq infersFirst infersNext) ?_
  rintro before result after ⟨value, between, early, late⟩ isFit
  obtain ⟨⟨needed, valueFits⟩, keeps⟩ := late isFit
  refine ⟨needed, fun plain => ?_⟩
  obtain ⟨stillPlain, given⟩ := (early valueFits).2 plain
  exact ⟨(keeps stillPlain).1, (keeps stillPlain).2 given⟩

theorem infers_never {check : Check α} {relation : SymbolTable → α → SymbolTable → Prop}
    (follows : Follows relation check) (never : ∀ state, fits (check.run state).1 = false) :
    Infers needs fits gives check := fun state => by
  refine ⟨(follows state).1, fun _ isFit => ?_⟩
  rw [never] at isFit
  cases isFit

theorem infers_weaken {check : Check α} {weaker : α → Prop} (infers : Infers needs fits gives check)
    (weaken : ∀ result, gives result → weaker result) : Infers needs fits weaker check := by
  refine follows_weaken infers fun before result after known isFit => ?_
  obtain ⟨needed, keeps⟩ := known isFit
  exact ⟨needed, fun plain => ⟨(keeps plain).1, weaken result (keeps plain).2⟩⟩

theorem infers_unless {condition : Prop} [Decidable condition] {next : Unit → Check α} {kind : DiagnosticKind}
    {locus : Locus} (infers : Infers needs fits (fun result => ¬condition → gives result) (next ())) :
    Infers needs fits gives (if condition then report kind locus >>= next else next ()) := by
  split
  · have reported : Follows (fun _ (_ : Unit) _ => False) (report kind locus) := follows_report kind locus
    refine follows_weaken (follows_seq reported fun _ => infers) ?_
    rintro before result after ⟨_, between, impossible, -⟩
    exact impossible.elim
  · next no => exact infers_weaken infers fun _ known => known no

theorem infers_map {items : List α} {check : α → Check β} {fits : β → Bool} {gives : β → Prop}
    (each : ∀ item ∈ items, Infers True fits gives (check item)) :
    Infers True (fun found => found.all fits) (fun found => ∀ value ∈ found, gives value) (items.mapM check) := by
  induction items with
  | nil => exact infers_unit (fun _ => trivial) fun _ inside => nomatch inside
  | cons head tail ih =>
    rw [List.mapM_cons]
    refine infers_seq (each head List.mem_cons_self) fun first =>
      infers_seq (ih fun item inside => each item (List.mem_cons_of_mem _ inside)) fun rest =>
        infers_unit (fun both => ?_) fun restGives firstGives => List.forall_mem_cons.mpr ⟨firstGives, restGives⟩
    rw [List.all_cons, Bool.and_eq_true] at both
    exact ⟨⟨trivial, both.1⟩, both.2⟩

theorem infers_option {item : Option α} {check : α → Check β} {fits : β → Bool} {gives : β → Prop}
    (each : ∀ value ∈ item, Infers True fits gives (check value)) :
    Infers True (fun found => found.all fits) (fun found => ∀ value ∈ found, gives value) (option check item) := by
  cases item with
  | none => exact infers_unit (fun _ => trivial) fun _ inside => nomatch inside
  | some value =>
    exact infers_seq (each value rfl) fun found => infers_unit (fun isFit => ⟨trivial, isFit⟩) fun given => by
      simpa using given

end Rules

section Expressions

theorem plain_declare_new {table : SymbolTable} (name : String) (ty : Ty) (locus : Locus)
    (absent : table.lookup? name = none) :
    Follows (fun before _ after => table = before → before.Plain → ty = .implicit name → after.Plain)
      (declareImplicit name ty locus) := by
  refine follows_read fun found => ?_
  split
  · next changed defined =>
    refine follows_weaken (follows_set changed) ?_
    rintro before _ _ rfl rfl rfl plain typed
    exact plain.define _ absent typed defined
  · refine follows_weaken (follows_unit ()) ?_
    rintro before _ _ ⟨-, rfl⟩ _ _ plain -
    exact plain

theorem infers_variable_type (name : String) (named : SourceName name) (locus : Locus) :
    Infers True (fun _ => true) (fun ty => ty.isArray = true ∨ ty = .implicit name) (variableType name locus) := by
  refine follows_read fun table => ?_
  split
  · next entry declared =>
    refine follows_weaken (follows_unit entry.ty) ?_
    rintro before _ _ ⟨rfl, rfl⟩ rfl -
    exact ⟨trivial, fun plain => ⟨plain, plain.types name entry named declared⟩⟩
  · next absent =>
    refine follows_read fun again => ?_
    refine follows_weaken (follows_seq (plain_declare_new name _ locus absent) fun _ => follows_unit _) ?_
    rintro before _ _ ⟨_, between, keeps, rfl, rfl⟩ rfl rfl -
    refine ⟨trivial, fun plain => ?_⟩
    exact ⟨keeps rfl plain (plain.implicit_type name), .inr (plain.implicit_type name)⟩

theorem infers_known (result : α) : Infers True (fun _ => true) (fun _ : α => True) (pure result) :=
  infers_unit (fun _ => trivial) trivial

theorem infers_reporting (kind : DiagnosticKind) (locus : Locus) (result : α) :
    Infers needs fits gives (do report kind locus; return result) := by
  have reported : Follows (fun _ (_ : Unit) _ => False) (report kind locus) := follows_report kind locus
  refine follows_weaken (follows_seq reported fun _ => follows_unit result) ?_
  rintro before _ after ⟨_, between, impossible, -⟩
  exact impossible.elim

theorem infers_binary_type (operator : BinaryOperator) (left right : Ty) (locus : Locus) :
    Infers True (fun _ => true) (fun _ => True) (binaryType operator left right locus) := by
  unfold binaryType
  split
  · exact infers_known _
  · exact infers_reporting _ _ _

theorem infers_unary_type (operator : UnaryOperator) (operand : Ty) (locus : Locus) :
    Infers True (fun _ => true) (fun _ => True) (unaryType operator operand locus) := by
  unfold unaryType
  split
  · exact infers_known _
  · split
    · exact infers_reporting _ _ _
    · cases operator <;> exact infers_known _

theorem infers_expr (context : CheckContext) (expr : Expr) (wellFormed : expr.WellFormed) :
    Infers True Expr.isScalar Expr.Implicit (Check.expr context expr) := by
  -- Calls, elements and members are no scalars, so that nothing has to be said of the names in them.
  cases expr with
  | literal value info => exact infers_unit (fun _ => trivial) trivial
  | «variable» name info =>
    refine follows_read fun table => ?_
    split
    · -- A call does not fit.
      refine follows_weaken (?_ : Infers True Expr.isScalar Expr.Implicit _) fun _ _ _ known _ => known
      exact infers_never (declares_apply_demand context.registry table name 0 info.locus fun _ _ =>
        declares_result (declares_apply_result _ _ _ _ _)) fun _ => rfl
    · refine follows_weaken (infers_seq (infers_variable_type name wellFormed info.locus) fun ty =>
        infers_unit (fun _ => ⟨trivial, rfl⟩) fun typed => ?_) fun _ _ _ known _ => known
      exact typed.imp_right fun same => congrArg some same
  | apply name arguments callee info =>
    exact infers_never (declares_expr context _) fun _ => rfl
  | member object name info => exact infers_never (declares_expr context _) fun _ => rfl
  | binary operator left right info =>
    refine infers_seq (infers_expr context left wellFormed.1) fun checkedLeft =>
      infers_seq (infers_expr context right wellFormed.2) fun checkedRight =>
        infers_seq (infers_binary_type operator _ _ _) fun ty => infers_unit (fun scalar => ?_)
          fun _ implicitRight implicitLeft => ⟨implicitLeft, implicitRight⟩
    rw [Expr.isScalar, Bool.and_eq_true] at scalar
    exact ⟨⟨⟨trivial, scalar.1⟩, scalar.2⟩, rfl⟩
  | unary operator operand info =>
    exact infers_seq (infers_expr context operand wellFormed) fun checked =>
      infers_seq (infers_unary_type operator _ _) fun ty =>
        infers_unit (fun scalar => ⟨⟨trivial, scalar⟩, rfl⟩) fun _ implicit => implicit
  | grouped inner info =>
    exact infers_seq (infers_expr context inner wellFormed) fun checked =>
      infers_unit (fun scalar => ⟨trivial, scalar⟩) fun implicit => implicit

section Expectations

variable (context : CheckContext) (expr : Expr) (wellFormed : expr.WellFormed)

include wellFormed

theorem infers_numeric : Infers True Expr.isScalar Expr.Counts (expectNumeric context expr) :=
  infers_seq (infers_expr context expr wellFormed) fun _ => infers_unless
    (infers_unit (fun scalar => ⟨trivial, scalar⟩) fun number implicit => ⟨implicit, by simpa using number⟩)

theorem infers_condition : Infers True Expr.isScalar Expr.Implicit (expectCondition context expr) :=
  infers_seq (infers_expr context expr wellFormed) fun _ => infers_unless
    (infers_unit (fun scalar => ⟨trivial, scalar⟩) fun _ implicit => implicit)

theorem infers_case_value (test : Ty) :
    Infers True Expr.isScalar (fun value => value.Implicit ∧
      (BinaryOperator.equal.resultType? test value.ty).isSome = true) (caseValue context test expr) :=
  infers_seq (infers_expr context expr wellFormed) fun _ => infers_unless
    (infers_unit (fun scalar => ⟨trivial, scalar⟩) fun comparable implicit =>
      ⟨implicit, Option.isSome_iff_ne_none.mpr (by simpa using comparable)⟩)

theorem infers_target :
    Infers True (fun found => found.1.isScalar) (fun found => found.1.Implicit ∧ found.2 = found.1.ty)
      (target context expr) := by
  have storage : Infers True (fun found => found.1.isScalar)
      (fun found => found.1.Implicit ∧ found.2 = found.1.ty) (do
      let checked ← Check.expr context expr
      if !checked.isLvalue || checked.ty.isArray then
        report .notAssignable checked.locus
        return (checked, .any)
      else return (checked, checked.ty)) := by
    refine infers_seq (infers_expr context expr wellFormed) fun checked => ?_
    split
    · exact infers_reporting _ _ _
    · exact infers_unit (fun scalar => ⟨trivial, scalar⟩) fun implicit => ⟨implicit, rfl⟩
  refine follows_read fun table => ?_
  dsimp only
  split
  · refine follows_weaken (?_ : Infers True (fun found : Expr × Ty => found.1.isScalar)
      (fun found => found.1.Implicit ∧ found.2 = found.1.ty) _) fun _ _ _ known _ => known
    exact infers_reporting _ _ _
  · exact follows_weaken storage fun _ _ _ known _ => known

end Expectations

theorem infers_loop_condition (context : CheckContext) (loop : LoopCondition)
    (wellFormed : loop.condition.WellFormed) :
    Infers True (fun found => found.condition.isScalar) (fun found => found.condition.Implicit)
      (loopCondition context loop) :=
  infers_seq (infers_condition context _ wellFormed) fun _ =>
    infers_unit (fun scalar => ⟨trivial, scalar⟩) fun implicit => implicit

theorem infers_case_match (context : CheckContext) (test : Ty) (pattern : CaseMatch)
    (wellFormed : pattern.WellFormed) :
    Infers True CaseMatch.isScalar (CaseMatch.Suits test) (caseMatch context test pattern) := by
  cases pattern with
  | single value =>
    exact infers_seq (infers_case_value context value wellFormed test) fun _ =>
      infers_unit (fun scalar => ⟨trivial, scalar⟩) fun suits => suits
  | range first last =>
    refine infers_seq (infers_case_value context first wellFormed.1 test) fun _ =>
      infers_seq (infers_case_value context last wellFormed.2 test) fun _ =>
        infers_unit (fun scalar => ?_) fun lastSuits firstSuits => ⟨firstSuits, lastSuits⟩
    rw [CaseMatch.isScalar, Bool.and_eq_true] at scalar
    exact ⟨⟨trivial, scalar.1⟩, scalar.2⟩
  | comparison operator value =>
    exact infers_seq (infers_case_value context value wellFormed.2 test) fun _ =>
      infers_unit (fun scalar => ⟨trivial, scalar⟩) fun suits => ⟨wellFormed.1, suits⟩

theorem infers_counter (name : String) (named : SourceName name) (locus : Locus) :
    Infers True (fun _ => true) (fun _ => (Ty.implicit name).isNumeric = true) (counter name locus) := by
  -- A number is no array, and the type of a name is never `ANY`.
  have numeric (ty : Ty) (number : isNumber ty = true) (typed : ty.isArray = true ∨ ty = .implicit name) :
      (Ty.implicit name).isNumeric = true := by
    rcases typed with isArray | rfl
    · cases ty with
      | array element rank => simp [isNumber, Ty.isNumeric, Ty.numericRank?] at number
      | _ => cases isArray
    · rcases Ty.implicit_scalar name with numeric | isText
      · exact numeric
      · rw [isText] at number
        cases number
  refine follows_read fun table => ?_
  split
  · next entry declared =>
    split
    · exact follows_report _ _
    · split
      · exact follows_report _ _
      · next number =>
        refine follows_weaken (follows_unit ()) ?_
        rintro before _ _ ⟨-, rfl⟩ rfl -
        refine ⟨trivial, fun plain => ⟨plain, ?_⟩⟩
        exact numeric entry.ty (by simpa using number) (plain.types name entry named declared)
  · refine follows_weaken (?_ : Infers True (fun _ => true)
      (fun _ => (Ty.implicit name).isNumeric = true) _) fun _ _ _ known _ => known
    refine infers_seq (infers_variable_type name named locus) fun ty => ?_
    split
    · exact follows_report _ _
    · next number => exact infers_unit (fun _ => ⟨trivial, rfl⟩) (numeric ty (by simpa using number))

end Expressions

theorem infers_unstructured (context : CheckContext) (locus : Locus) (stmt : Stmt)
    (never : ∀ state, ((Check.stmt context locus stmt).run state).1.isStructured = false) :
    Infers True Stmt.isStructured Stmt.Suits (Check.stmt context locus stmt) :=
  infers_never (declares_stmt context locus stmt) never

mutual

theorem infers_stmt (context : CheckContext) (locus : Locus) (stmt : Stmt) (wellFormed : stmt.WellFormed) :
    Infers True Stmt.isStructured Stmt.Suits (Check.stmt context locus stmt) := by
  cases stmt with
  | assign target value =>
    refine infers_seq (infers_target context target wellFormed.1) fun found =>
      infers_seq (infers_expr context value wellFormed.2) fun checked =>
        infers_unless (infers_fitting fun structured => ?_)
    obtain ⟨storage, ty⟩ := found
    -- A structured assignment is to a variable that is no array: its type is that of its name.
    cases storage with
    | «variable» name info =>
      rw [Stmt.isStructured, Bool.and_eq_true, Bool.not_eq_true'] at structured
      refine ⟨⟨⟨trivial, by simpa [Expr.isScalar] using structured.1⟩, structured.2⟩, ?_⟩
      rintro compatible implicit ⟨isArray | typed, sameType⟩
      · rw [structured.1] at isArray
        cases isArray
      · have same : ty = .implicit name := sameType.trans (congrArg (·.getD .any) typed)
        exact ⟨implicit, by simpa [same] using compatible⟩
    | _ => cases structured
  | cond branches =>
    exact infers_seq (infers_arms context branches wellFormed) fun _ =>
      infers_unit (fun structured => ⟨trivial, structured⟩) fun suits => suits
  | select test clauses =>
    refine infers_seq (infers_expr context test wellFormed.1) fun checked =>
      infers_seq (infers_cases context checked.ty clauses wellFormed.2) fun _ =>
        infers_unit (fun structured => ?_) fun casesSuit implicit => ⟨implicit, casesSuit⟩
    rw [Stmt.isStructured, Bool.and_eq_true] at structured
    exact ⟨⟨trivial, structured.1⟩, structured.2⟩
  | forLoop counter first last step body next =>
    obtain ⟨named, firstFormed, lastFormed, stepFormed, bodyFormed⟩ := wellFormed
    refine infers_seq (infers_counter counter named locus) fun _ =>
      infers_seq (infers_numeric context first firstFormed) fun checkedFirst =>
        infers_seq (infers_numeric context last lastFormed) fun checkedLast =>
          infers_seq (infers_option fun expr inside =>
              infers_numeric context expr (stepFormed expr inside)) fun checkedStep =>
            infers_seq (infers_block (context.inLoop .forLoop) body bodyFormed) fun checkedBody => ?_
    have made : Infers (((((True ∧ true = true) ∧ checkedFirst.isScalar = true) ∧ checkedLast.isScalar = true) ∧
        checkedStep.all Expr.isScalar = true) ∧ checkedBody.isStructured = true) Stmt.isStructured
        (fun result => checkedBody.Suits → (∀ expr ∈ checkedStep, expr.Counts) → checkedLast.Counts →
          checkedFirst.Counts → (Ty.implicit counter).isNumeric = true → result.Suits)
        (pure (.forLoop counter checkedFirst checkedLast checkedStep checkedBody next)) := by
      refine infers_unit (fun structured => ?_) fun bodySuits stepCounts lastCounts firstCounts numeric =>
        ⟨numeric, firstCounts, lastCounts, stepCounts, bodySuits⟩
      simp only [Stmt.isStructured, Bool.and_eq_true] at structured
      exact ⟨⟨⟨⟨⟨trivial, rfl⟩, structured.1.1.1⟩, structured.1.1.2⟩, structured.1.2⟩, structured.2⟩
    -- A `NEXT` that names another counter adds a diagnostic and nothing else.
    cases next with
    | none => exact made
    | some found => exact infers_unless (infers_weaken made fun _ known _ => known)
  | whileLoop condition body =>
    refine infers_seq (infers_condition context condition wellFormed.1) fun _ =>
      infers_seq (infers_block (context.inLoop .whileLoop) body wellFormed.2) fun _ =>
        infers_unit (fun structured => ?_) fun bodySuits implicit => ⟨implicit, bodySuits⟩
    rw [Stmt.isStructured, Bool.and_eq_true] at structured
    exact ⟨⟨trivial, structured.1⟩, structured.2⟩
  | doLoop before body after =>
    obtain ⟨beforeFormed, bodyFormed, afterFormed⟩ := wellFormed
    refine infers_seq (infers_option fun loop inside =>
        infers_loop_condition context loop (beforeFormed loop inside)) fun _ =>
      infers_seq (infers_block (context.inLoop .doLoop) body bodyFormed) fun _ =>
        infers_seq (infers_option fun loop inside =>
          infers_loop_condition context loop (afterFormed loop inside)) fun _ =>
            infers_unit (fun structured => ?_) fun afterSuits bodySuits beforeSuits =>
              ⟨beforeSuits, bodySuits, afterSuits⟩
    simp only [Stmt.isStructured, Bool.and_eq_true] at structured
    exact ⟨⟨⟨trivial, structured.1.1⟩, structured.1.2⟩, structured.2⟩
  | exit target =>
    rw [Check.stmt]
    exact infers_unless (infers_unit (fun _ => trivial) fun _ => trivial)
  | comment text => exact infers_unit (fun _ => trivial) trivial
  | dim isShared decls =>
    refine infers_unstructured context locus _ fun state => ?_
    rw [Check.stmt]
    split <;> rfl
  | restore label =>
    cases label with
    | none => exact infers_unstructured context locus _ fun _ => rfl
    | some name =>
      refine follows_read fun table => ?_
      refine follows_weaken (?_ : Infers True Stmt.isStructured Stmt.Suits _) fun _ _ _ known _ => known
      exact infers_unless (infers_unit (fun structured => nomatch structured) fun _ => trivial)
  | _ => exact infers_unstructured context locus _ fun _ => rfl

theorem infers_block (context : CheckContext) (block : Block) (wellFormed : block.WellFormed) :
    Infers True Block.isStructured Block.Suits (Check.block context block) := by
  cases block with
  | nil => exact infers_unit (fun _ => trivial) trivial
  | cons locus head tail =>
    refine infers_seq (infers_stmt context locus head wellFormed.1) fun _ =>
      infers_seq (infers_block context tail wellFormed.2) fun _ =>
        infers_unit (fun structured => ?_) fun tailSuits headSuits => ⟨headSuits, tailSuits⟩
    rw [Block.isStructured, Bool.and_eq_true] at structured
    exact ⟨⟨trivial, structured.1⟩, structured.2⟩

theorem infers_arms (context : CheckContext) (branches : Arms) (wellFormed : branches.WellFormed) :
    Infers True Arms.isStructured Arms.Suits (Check.arms context branches) := by
  cases branches with
  | none => exact infers_unit (fun _ => trivial) trivial
  | otherwise body =>
    exact infers_seq (infers_block context.nested body wellFormed) fun _ =>
      infers_unit (fun structured => ⟨trivial, structured⟩) fun suits => suits
  | arm condition body rest =>
    refine infers_seq (infers_condition context condition wellFormed.1) fun _ =>
      infers_seq (infers_block context.nested body wellFormed.2.1) fun _ =>
        infers_seq (infers_arms context rest wellFormed.2.2) fun _ =>
          infers_unit (fun structured => ?_) fun restSuits bodySuits implicit => ⟨implicit, bodySuits, restSuits⟩
    simp only [Arms.isStructured, Bool.and_eq_true] at structured
    exact ⟨⟨⟨trivial, structured.1.1⟩, structured.1.2⟩, structured.2⟩

theorem infers_cases (context : CheckContext) (test : Ty) (clauses : Cases) (wellFormed : clauses.WellFormed) :
    Infers True Cases.isStructured (Cases.Suits test) (Check.cases context test clauses) := by
  cases clauses with
  | none => exact infers_unit (fun _ => trivial) trivial
  | otherwise body =>
    exact infers_seq (infers_block context.nested body wellFormed) fun _ =>
      infers_unit (fun structured => ⟨trivial, structured⟩) fun suits => suits
  | clause locus patterns body rest =>
    refine infers_seq (infers_map fun pattern inside =>
        infers_case_match context test pattern (wellFormed.1 pattern inside)) fun _ =>
      infers_seq (infers_block context.nested body wellFormed.2.1) fun _ =>
        infers_seq (infers_cases context test rest wellFormed.2.2) fun _ =>
          infers_unit (fun structured => ?_) fun restSuits bodySuits patternsSuit =>
            ⟨patternsSuit, bodySuits, restSuits⟩
    simp only [Cases.isStructured, Bool.and_eq_true] at structured
    exact ⟨⟨⟨trivial, structured.1.1⟩, structured.1.2⟩, structured.2⟩

end

theorem structured_types (context : CheckContext) (block : Block) (state : CheckState)
    (structured : ((Check.block context block).run state).1.isStructured = true) :
    ∀ item ∈ block.toList, declareTypes item.1 item.2 = pure () := by
  cases block with
  | nil => exact fun _ inside => nomatch inside
  | cons locus head tail =>
    have both : (((Check.stmt context locus head).run state).1.isStructured &&
        ((Check.block context tail).run ((Check.stmt context locus head).run state).2).1.isStructured) = true :=
      structured
    rw [Bool.and_eq_true] at both
    refine List.forall_mem_cons.mpr ⟨?_, structured_types context tail _ both.2⟩
    -- Only `DEFtype` and `TYPE` statements give types to letters or names.
    cases head with
    | defType spec ranges => cases both.1
    | typeDef name members => cases both.1
    | _ => rfl

theorem main_not_source : ¬SourceName mainName := by
  rintro ⟨first, rest, spelled, letter⟩
  have isFirst : some '_' = some first := congrArg List.head? spelled
  rw [← Option.some.inj isFirst] at letter
  cases letter

theorem infers_unnamed (name : String) (unnamed : ¬SourceName name) (kind : SymbolKind) (ty : Ty) (locus : Locus) :
    Infers True (fun _ => true) (fun _ => True) (declareLocal name kind ty locus) := by
  refine follows_read fun table => ?_
  split
  · next changed defined =>
    refine follows_weaken (follows_set changed) ?_
    rintro before _ _ rfl rfl -
    refine ⟨trivial, fun plain => ⟨⟨?_, fun other entry named found => ?_⟩, trivial⟩⟩
    · exact (SymbolTable.define_agrees defined).letters.trans plain.letters
    · have different : other ≠ name := fun same => unnamed (same ▸ named)
      rw [SymbolTable.define_other defined different] at found
      exact plain.types other entry named found
  · exact follows_report _ _

theorem infers_headed (registry : Registry) (body : Block) (wellFormed : body.WellFormed) :
    Infers True Block.isStructured Block.Suits (headed registry (.main body)) := by
  have rest := infers_block ((Routine.main body).context registry) body wellFormed
  refine follows_read fun table => ?_
  refine follows_weaken (?_ : Infers True Block.isStructured Block.Suits _) fun _ _ _ known _ => known
  cases table.procedure? (Routine.main body).name with
  | none => exact rest
  | some entry =>
    -- There are no parameters, and no name of the source is that of the main routine.
    cases isResult : entry.returns with
    | none => simpa [Routine.main, isResult] using rest
    | some ty =>
      have both : Infers True Block.isStructured Block.Suits (do
          declareLocal mainName .variable ty .start
          block ((Routine.main body).context registry) body) := by
        refine infers_seq (infers_unnamed mainName main_not_source .variable ty .start) fun _ => ?_
        refine follows_weaken rest fun _ _ _ known structured => ?_
        refine ⟨⟨trivial, rfl⟩, fun plain => ?_⟩
        exact ((known structured).2 plain).imp_right fun suits _ => suits
      simpa [Routine.main, isResult] using both

theorem run_headed (registry : Registry) (routine : Routine) (state : CheckState) :
    (headed registry routine).run state = ((do
      match state.symbols.procedure? routine.name with
      | some entry =>
        (routine.params.zip entry.params).forM fun (param, _, ty) =>
          declareLocal param.name .parameter ty param.locus
        match entry.returns with
        | some ty => declareLocal routine.name .variable ty routine.locus
        | none => pure ()
      | none => pure ()
      block (routine.context registry) routine.body : Check Block)).run state := rfl

theorem headed_result (registry : Registry) (routine : Routine) (state : CheckState) :
    ∃ later, ((headed registry routine).run state).1 =
      ((block (routine.context registry) routine.body).run later).1 := by
  rw [run_headed]
  cases state.symbols.procedure? routine.name with
  | none => exact ⟨_, rfl⟩
  | some entry =>
    dsimp only
    cases entry.returns with
    | none => exact ⟨_, rfl⟩
    | some ty => exact ⟨_, rfl⟩

theorem follows_structured_main (registry : Registry) {program : Program} (wellFormed : program.WellFormed)
    (types : ∀ item ∈ program.main.toList, declareTypes item.1 item.2 = pure ()) :
    Follows (fun before body _ => before.shared = [] → before.letters = .uniform .single →
      body.isStructured = true → body.Suits) (upTo registry program [] (.main program.main)) := by
  have letters : Keeps SymbolTable.letters (declarations program) :=
    keeps_declarations (fun _ _ _ same => same) fun item inside => types item inside ▸ keeps_unit ()
  refine follows_weaken (follows_seq (follows_both (keeps_shared_declarations program) letters) fun _ =>
    follows_seq (follows_unit []) fun _ => follows_seq (follows_modify SymbolTable.enterScope) fun _ =>
      infers_headed registry program.main wellFormed.main) ?_
  rintro before body after ⟨_, _, ⟨sameShared, sameLetters⟩, _, declared, ⟨-, rfl⟩, _, _, rfl, infers⟩
    noneShared uniform structured
  -- No letter has got a type and nothing is shared, so that the new scope starts without any names.
  have plain : declared.enterScope.Plain := by
    refine ⟨sameLetters.trans uniform, fun name entry _ found => ?_⟩
    have absent : declared.enterScope.lookup? name = none := by
      rw [SymbolTable.absent_iff, SymbolTable.Shares, SymbolTable.enterScope, sameShared, noneShared]
      simp [SymbolTable.Owns, Table.get_nil]
    rw [absent] at found
    cases found
  exact ((infers structured).2 plain).2

end Check

theorem Program.main_suits {program : Program} {registry : Registry} (wellFormed : program.WellFormed)
    (quiet : (program.check registry).diagnostics = [])
    (structured : (program.check registry).program.main.isStructured = true) :
    (program.check registry).program.main.Suits := by
  have isMain : (program.check registry).program.main =
      ((Check.upTo registry program [] (.main program.main)).run ⟨.empty, []⟩).1 :=
    Check.program_main registry program ⟨.empty, []⟩
  rw [isMain] at structured ⊢
  -- The declarations come first, but what they say of types is known from the structured body.
  have types : ∀ item ∈ program.main.toList, Check.declareTypes item.1 item.2 = pure () := by
    obtain ⟨later, same⟩ := Check.headed_result registry (.main program.main)
      ⟨((Check.declarations program).run ⟨.empty, []⟩).2.symbols.enterScope,
        ((Check.declarations program).run ⟨.empty, []⟩).2.diagnostics⟩
    exact Check.structured_types _ _ later (same ▸ structured)
  exact (Check.follows_structured_main registry wellFormed types ⟨.empty, []⟩).2
    (Program.quiet_up_to quiet (List.nil_append program.routines).symm).1 rfl rfl structured

end BasicLang
