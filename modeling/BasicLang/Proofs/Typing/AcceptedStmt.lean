import BasicLang.Proofs.Typing.Accepted

set_option autoImplicit false

namespace BasicLang

def TypeSpec.Known (symbols : SymbolTable) (spec : TypeSpec) : Prop := (symbols.resolve? spec).isSome

def Dimension.Accepted (symbols : SymbolTable) (registry : Registry) (dimension : Dimension) : Prop :=
  (∀ lower ∈ dimension.lower, lower.Accepted symbols registry) ∧
    dimension.upper.Accepted symbols registry

def VarDecl.Accepted (symbols : SymbolTable) (registry : Registry) (decl : VarDecl) : Prop :=
  SourceName decl.name ∧ (∀ spec ∈ decl.typeSpec, spec.Known symbols) ∧
    (decl.isArray = true → ∀ dimension ∈ decl.dimensions, dimension.Accepted symbols registry)

def VarDecl.Resized (symbols : SymbolTable) (registry : Registry) (decl : VarDecl) : Prop :=
  SourceName decl.name ∧ (∀ spec ∈ decl.typeSpec, spec.Known symbols) ∧
    ∀ dimension ∈ decl.dimensions, dimension.Accepted symbols registry

def CaseMatch.Accepted (symbols : SymbolTable) (registry : Registry) : CaseMatch → Prop
  | .single value => value.Accepted symbols registry
  | .range first last => first.Accepted symbols registry ∧ last.Accepted symbols registry
  | .comparison _ value => value.Accepted symbols registry

def SymbolTable.HasLabel (symbols : SymbolTable) (routine name : String) : Prop :=
  ∃ label, symbols.label? name = some label ∧ label.routine = routine

/-- What a `CALL` may call: a defined `SUB`, or else a builtin, with this number of arguments. -/
def SymbolTable.Callable (symbols : SymbolTable) (registry : Registry) (name : String)
    (arguments : List Expr) : Prop :=
  (∃ entry, symbols.procedure? name = some entry ∧ entry.kind ≠ .function ∧
    entry.isDefined = true ∧ entry.params.length = arguments.length) ∨
  (symbols.procedure? name = none ∧ ∃ builtin, registry.sub? name = some builtin ∧
    builtin.signature.Takes arguments.length ∧
    (builtin.signature.byReference = true → ∀ argument ∈ arguments, argument.isLvalue = true))

mutual

def Stmt.Accepted (symbols : SymbolTable) (context : CheckContext) : Stmt → Prop
  | .print file format items _ =>
    (∀ expr ∈ file, expr.Accepted symbols context.registry) ∧
      (∀ expr ∈ format, expr.Accepted symbols context.registry) ∧
      ∀ item ∈ items, item.expr.Accepted symbols context.registry
  | .assign target value =>
    target.Stored symbols context.registry ∧ value.Accepted symbols context.registry
  | .dim _ decls => ∀ decl ∈ decls, decl.Accepted symbols context.registry
  | .redim _ decls => ∀ decl ∈ decls, decl.Resized symbols context.registry
  | .const name value => SourceName name ∧ value.Accepted symbols context.registry
  | .cond arms => arms.Accepted symbols context
  | .select test cases =>
    test.Accepted symbols context.registry ∧ cases.Accepted symbols context
  | .forLoop counter first last step body _ =>
    SourceName counter ∧ first.Accepted symbols context.registry ∧
      last.Accepted symbols context.registry ∧
      (∀ expr ∈ step, expr.Accepted symbols context.registry) ∧
      body.Accepted symbols (context.inLoop .forLoop)
  | .whileLoop condition body =>
    condition.Accepted symbols context.registry ∧ body.Accepted symbols (context.inLoop .whileLoop)
  | .doLoop before body after =>
    (∀ loop ∈ before, loop.condition.Accepted symbols context.registry) ∧
      body.Accepted symbols (context.inLoop .doLoop) ∧
      ∀ loop ∈ after, loop.condition.Accepted symbols context.registry
  | .goto target => symbols.HasLabel context.routine target
  | .gosub target => symbols.HasLabel context.routine target
  | .exit target => context.allowsExit target = true
  | .onEvent key target =>
    key.Accepted symbols context.registry ∧ symbols.HasLabel context.routine target
  | .restore label => ∀ name ∈ label, (symbols.label? name).isSome
  | .call name arguments =>
    SourceName name ∧ (∀ expr ∈ arguments, expr.Accepted symbols context.registry) ∧
      symbols.Callable context.registry name arguments
  | .input _ _ targets => ∀ target ∈ targets, target.Stored symbols context.registry
  | .lineInput _ target => target.Stored symbols context.registry
  | .fileInput file targets line =>
    file.Accepted symbols context.registry ∧
      (∀ target ∈ targets, target.Stored symbols context.registry) ∧
      (line = true → targets.length = 1)
  | .openFile path _ file =>
    path.Accepted symbols context.registry ∧ file.Accepted symbols context.registry
  | .close files => ∀ file ∈ files, file.Accepted symbols context.registry
  | .write file values =>
    (∀ expr ∈ file, expr.Accepted symbols context.registry) ∧
      ∀ value ∈ values, value.Accepted symbols context.registry
  | .read targets => ∀ target ∈ targets, target.Stored symbols context.registry
  | .defType spec _ => spec.IsBasic
  | .ret => True
  | .stop => True
  | .label _ => True
  | .declare _ _ _ _ => True
  | .data _ => True
  | .typeDef _ _ => True
  | .comment _ => True

def Block.Accepted (symbols : SymbolTable) (context : CheckContext) : Block → Prop
  | .nil => True
  | .cons _ head tail => head.Accepted symbols context ∧ tail.Accepted symbols context

def Arms.Accepted (symbols : SymbolTable) (context : CheckContext) : Arms → Prop
  | .none => True
  | .otherwise body => body.Accepted symbols context.nested
  | .arm condition body rest =>
    condition.Accepted symbols context.registry ∧ body.Accepted symbols context.nested ∧
      rest.Accepted symbols context

def Cases.Accepted (symbols : SymbolTable) (context : CheckContext) : Cases → Prop
  | .none => True
  | .otherwise body => body.Accepted symbols context.nested
  | .clause _ patterns body rest =>
    (∀ pattern ∈ patterns, pattern.Accepted symbols context.registry) ∧
      body.Accepted symbols context.nested ∧ rest.Accepted symbols context

end

mutual

def Stmt.labels : Stmt → List String
  | .label name => [name]
  | .cond arms => arms.labels
  | .select _ cases => cases.labels
  | .forLoop _ _ _ _ body _ => body.labels
  | .whileLoop _ body => body.labels
  | .doLoop _ body _ => body.labels
  | _ => []

def Block.labels : Block → List String
  | .nil => []
  | .cons _ head tail => head.labels ++ tail.labels

def Arms.labels : Arms → List String
  | .none => []
  | .otherwise body => body.labels
  | .arm _ body rest => body.labels ++ rest.labels

def Cases.labels : Cases → List String
  | .none => []
  | .otherwise body => body.labels
  | .clause _ _ body rest => body.labels ++ rest.labels

end

namespace Check

variable {table : SymbolTable}

theorem ensures_then_report {holds : Expr → Prop} {check : Check Expr}
    (ensures : Ensures table holds check) (condition : Expr → Bool)
    (kind : Expr → DiagnosticKind) :
    Ensures table holds (do
      let checked ← check
      if condition checked then report (kind checked) checked.locus
      return checked) :=
  ensures_seq ensures fun _ => ensures_unless (ensures_unit fun _ accepted => accepted)

section Expectations

variable (context : CheckContext) (expr : Expr) (wellFormed : expr.WellFormed)

include wellFormed

theorem ensures_numeric :
    Ensures table (Expr.Accepted table context.registry) (expectNumeric context expr) :=
  ensures_then_report (ensures_expr context expr wellFormed) _ _

theorem ensures_string :
    Ensures table (Expr.Accepted table context.registry) (expectString context expr) :=
  ensures_then_report (ensures_expr context expr wellFormed) _ _

theorem ensures_condition :
    Ensures table (Expr.Accepted table context.registry) (expectCondition context expr) :=
  ensures_then_report (ensures_expr context expr wellFormed) _ _

theorem ensures_bound :
    Ensures table (Expr.Accepted table context.registry) (bound context expr) :=
  ensures_then_report (ensures_expr context expr wellFormed) _ _

theorem ensures_case_value (test : Ty) :
    Ensures table (Expr.Accepted table context.registry) (caseValue context test expr) :=
  ensures_then_report (ensures_expr context expr wellFormed) _ _

theorem ensures_printable :
    Ensures table (Expr.Accepted table context.registry) (expectPrintable context expr) := by
  refine ensures_seq (ensures_expr context expr wellFormed) fun checked => ?_
  split
  · exact ensures_reporting _ _ _
  · exact ensures_reporting _ _ _
  · exact ensures_unit id

theorem ensures_target :
    Ensures table (fun found => found.1.Stored table context.registry) (target context expr) := by
  refine ensures_seq ensures_symbols fun symbols => ?_
  have storage : Ensures table (fun found => found.1.Stored table context.registry) (do
      let checked ← Check.expr context expr
      if !checked.isLvalue || checked.ty.isArray then
        report .notAssignable checked.locus
        return (checked, .any)
      else return (checked, checked.ty)) := by
    refine ensures_seq (ensures_expr context expr wellFormed) fun checked => ?_
    split
    · exact ensures_reporting _ _ _
    · next isStorage => exact ensures_unit fun accepted => ⟨accepted, by simp_all⟩
  have kept := ensures_weaken storage fun _ stored (_ : symbols.Agrees table) => stored
  dsimp only
  split
  · exact ensures_reporting _ _ _
  · exact kept

theorem ensures_scalar_target :
    Ensures table (Expr.Stored table context.registry) (scalarTarget context expr) :=
  ensures_seq (ensures_target context expr wellFormed) fun _ =>
    ensures_unless (ensures_unit fun _ stored => stored)

theorem ensures_string_target :
    Ensures table (Expr.Stored table context.registry) (stringTarget context expr) :=
  ensures_seq (ensures_target context expr wellFormed) fun _ =>
    ensures_unless (ensures_unit fun _ stored => stored)

end Expectations

theorem ensures_case_match (context : CheckContext) (test : Ty) (pattern : CaseMatch)
    (wellFormed : pattern.WellFormed) :
    Ensures table (CaseMatch.Accepted table context.registry) (caseMatch context test pattern) := by
  cases pattern with
  | single value =>
    exact ensures_seq (ensures_case_value context value wellFormed test) fun _ =>
      ensures_unit fun accepted => accepted
  | range first last =>
    exact ensures_seq (ensures_case_value context first wellFormed.1 test) fun _ =>
      ensures_seq (ensures_case_value context last wellFormed.2 test) fun _ =>
        ensures_unit fun lastAccepted firstAccepted => ⟨firstAccepted, lastAccepted⟩
  | comparison operator value =>
    exact ensures_seq (ensures_case_value context value wellFormed.2 test) fun _ =>
      ensures_unit fun accepted => accepted

theorem ensures_loop_condition (context : CheckContext) (loop : LoopCondition)
    (wellFormed : loop.condition.WellFormed) :
    Ensures table (fun found => found.condition.Accepted table context.registry)
      (loopCondition context loop) :=
  ensures_seq (ensures_condition context _ wellFormed) fun _ => ensures_unit fun accepted => accepted

theorem ensures_dimension (context : CheckContext) (dim : Dimension) (wellFormed : dim.WellFormed) :
    Ensures table (Dimension.Accepted table context.registry) (dimension context dim) :=
  ensures_seq (ensures_option fun lower found => ensures_bound context lower (wellFormed.1 lower found))
    fun _ => ensures_seq (ensures_bound context _ wellFormed.2) fun _ =>
      ensures_unit fun upperAccepted lowerAccepted => ⟨lowerAccepted, upperAccepted⟩

theorem ensures_declared_dimension (context : CheckContext) (decl : VarDecl) (dim : Dimension)
    (wellFormed : dim.WellFormed) :
    Ensures table (Dimension.Accepted table context.registry)
      (declaredDimension context decl dim) := by
  refine ensures_seq
    (ensures_option fun lower found => ensures_bound context lower (wellFormed.1 lower found)) fun lower =>
      ensures_seq ensures_symbols fun before =>
        ensures_seq (ensures_bound context _ wellFormed.2) fun upper =>
          ensures_seq ensures_symbols fun after => ?_
  have made : Ensures table (fun found : Dimension => after.Agrees table →
      upper.Accepted table context.registry → before.Agrees table →
      (∀ value ∈ lower, value.Accepted table context.registry) →
      found.Accepted table context.registry) (pure { lower, upper }) :=
    ensures_unit fun _ upperAccepted _ lowerAccepted => ⟨lowerAccepted, upperAccepted⟩
  dsimp only
  split
  · exact ensures_unless (ensures_weaken made fun _ found _ => found)
  · exact made

theorem ensures_resolve (spec : TypeSpec) (locus : Locus) :
    Ensures table (fun _ => spec.Known table) (resolve spec locus) := by
  refine ensures_seq ensures_symbols fun symbols => ?_
  split
  · next ty found =>
    refine ensures_unit fun agrees => ?_
    rw [TypeSpec.Known, ← agrees.resolve spec, found]
    rfl
  · next unknown =>
    cases spec with
    | record name => exact ensures_reporting _ _ _
    | _ => cases unknown

theorem ensures_resolve_or (spec : Option TypeSpec) (name : String) (locus : Locus) :
    Ensures table (fun _ => ∀ written ∈ spec, written.Known table) (resolveOr spec name locus) := by
  cases spec with
  | none =>
    exact ensures_seq ensures_symbols fun _ => ensures_unit fun _ _ inside => nomatch inside
  | some written => exact ensures_weaken (ensures_resolve written locus) fun _ known => by simpa using known

theorem ensures_dim_variable (context : CheckContext) (shared : Bool) (decl : VarDecl)
    (named : SourceName decl.name) (dimensions : List Dimension) (ty : Ty) :
    Ensures table (fun found : VarDecl =>
      (decl.isArray = true → ∀ dimension ∈ dimensions, dimension.Accepted table context.registry) →
      (∀ written ∈ decl.typeSpec, written.Known table) → found.Accepted table context.registry) (do
    match (← symbols).lookupShared? decl.name with
    | some existing =>
      if context.inMain then report (.duplicateVariable decl.name existing.locus) decl.locus
      else report (.sharedRedeclared decl.name) decl.locus
    | none =>
      declare { name := decl.name, kind := .variable, ty, locus := decl.locus, constant := none }
        shared
    return { decl with dimensions }) := by
  refine ensures_seq ensures_symbols fun symbols => ?_
  have made : Ensures table (fun found : VarDecl => symbols.Agrees table →
      (decl.isArray = true → ∀ dimension ∈ dimensions, dimension.Accepted table context.registry) →
      (∀ written ∈ decl.typeSpec, written.Known table) → found.Accepted table context.registry)
      (pure { decl with dimensions }) :=
    ensures_unit fun _ accepted known => ⟨named, known, accepted⟩
  split
  · split
    · exact ensures_refused _ _ made
    · exact ensures_refused _ _ made
  · exact ensures_seq (ensures_declare _ _) fun _ => ensures_weaken made fun _ found _ => found

theorem ensures_dim_decl (context : CheckContext) (shared : Bool) (decl : VarDecl)
    (wellFormed : decl.WellFormed) :
    Ensures table (VarDecl.Accepted table context.registry) (dimDecl context shared decl) := by
  refine ensures_seq (ensures_resolve_or _ _ _) fun element => ?_
  dsimp only
  split
  · refine ensures_seq (ensures_map fun dim inside =>
      ensures_declared_dimension context decl dim (wellFormed.2 dim inside)) fun dimensions => ?_
    exact ensures_weaken (ensures_dim_variable context shared decl wellFormed.1 dimensions _) fun _ found accepted =>
      found fun _ => accepted.2
  · next notArray =>
    exact ensures_weaken (ensures_dim_variable context shared decl wellFormed.1 _ _) fun _ found => found fun isArray =>
      absurd isArray notArray

theorem ensures_retype (name : String) (ty : Ty) :
    Ensures table (fun _ => True)
      (modify fun state => { state with symbols := state.symbols.retype name ty } : Check Unit) := by
  refine follows_weaken (follows_modify (·.retype name ty)) ?_
  rintro before _ _ rfl agrees
  exact ⟨(before.retype_agrees name ty).trans agrees, trivial⟩

theorem ensures_redim_decl (context : CheckContext) (decl : VarDecl)
    (wellFormed : decl.WellFormed) :
    Ensures table (VarDecl.Resized table context.registry) (redimDecl context decl) := by
  obtain ⟨name, written, isArray, typeSpec, locus⟩ := decl
  refine ensures_seq (ensures_map fun dim inside =>
    ensures_dimension context dim (wellFormed.2 dim inside)) fun dimensions =>
      ensures_seq ensures_symbols fun symbols => ?_
  have made : Ensures table (fun found : VarDecl =>
      (∀ spec ∈ typeSpec, spec.Known table) → symbols.Agrees table →
      dimensions.length = written.length ∧
        (∀ dimension ∈ dimensions, dimension.Accepted table context.registry) →
      found.Resized table context.registry)
      (pure { name, dimensions, isArray, typeSpec, locus }) :=
    ensures_unit fun known _ accepted => ⟨wellFormed.1, known, accepted.2⟩
  split
  · split
    · next element dims _ =>
      have resized : Ensures table (fun found : VarDecl =>
          (∀ spec ∈ typeSpec, spec.Known table) → symbols.Agrees table →
          dimensions.length = written.length ∧
            (∀ dimension ∈ dimensions, dimension.Accepted table context.registry) →
          found.Resized table context.registry) (do
            if dims = 0 then modify fun state =>
              { state with symbols := state.symbols.retype name (.array element written.length) }
            return { name, dimensions, isArray, typeSpec, locus }) := by
        dsimp only
        split
        · exact ensures_seq (ensures_retype _ _) fun _ => ensures_weaken made fun _ found _ => found
        · exact made
      refine ensures_unless ?_
      cases typeSpec with
      | some spec =>
        refine ensures_seq (ensures_resolve spec _) fun declared => ensures_unless ?_
        exact ensures_weaken resized fun _ found _ known _ => found (by simpa using known)
      | none => exact ensures_weaken resized fun _ found _ => found fun _ inside => nomatch inside
    · exact ensures_refused _ _ made
  · refine ensures_seq (ensures_resolve_or _ _ _) fun element => ?_
    exact ensures_define _ false made fun _ => made

theorem ensures_constant (context : CheckContext) (name : String) (value : Expr) (locus : Locus)
    (wellFormed : value.WellFormed) :
    Ensures table (Expr.Accepted table context.registry) (constant context name value locus) :=
  ensures_seq (ensures_expr context value wellFormed) fun _ =>
    ensures_seq ensures_symbols fun _ => ensures_unless (ensures_unless
      (ensures_seq (ensures_declare _ _) fun _ => ensures_unit fun _ _ _ _ accepted => accepted))

theorem ensures_counter (name : String) (locus : Locus) :
    Ensures table (fun _ => True) (counter name locus) := by
  refine ensures_seq ensures_symbols fun symbols => ?_
  split
  · split
    · exact ensures_weaken (ensures_report _ _) fun _ impossible => impossible.elim
    · exact ensures_weaken (ensures_report_if _ _ _) fun _ _ _ => trivial
  · refine ensures_seq (ensures_variable_type _ _) fun ty => ?_
    exact ensures_weaken (ensures_report_if _ _ _) fun _ _ _ _ => trivial

theorem ensures_jump (context : CheckContext) (name : String) (locus : Locus) :
    Ensures table (fun _ => table.HasLabel context.routine name) (jump context name locus) := by
  refine ensures_seq ensures_symbols fun symbols => ?_
  split
  · exact ensures_weaken (ensures_report _ _) fun _ impossible => impossible.elim
  · next label found =>
    refine ensures_weaken (ensures_report_if _ _ _) fun _ sameRoutine agrees => ?_
    exact ⟨label, (agrees.label name).symm.trans found, Decidable.not_not.mp sameRoutine⟩

theorem ensures_reference_arguments (arguments : List Expr) :
    Ensures table (fun _ => ∀ argument ∈ arguments, argument.isLvalue = true)
      (referenceArguments arguments) := by
  cases arguments with
  | nil => exact ensures_unit fun _ inside => nomatch inside
  | cons first rest =>
    refine ensures_each fun argument inside => ?_
    split
    · exact ensures_weaken (ensures_report _ _) fun _ impossible => impossible.elim
    · next isStorage =>
      refine ensures_weaken (ensures_report_if _ _ _) fun _ _ => by simpa using isStorage

theorem ensures_call_arguments (context : CheckContext) (name : String) (arguments : List Expr)
    (locus : Locus) (wellFormed : ∀ expr ∈ arguments, expr.WellFormed) :
    Ensures table (fun found => (∀ expr ∈ found, expr.Accepted table context.registry) ∧
      table.Callable context.registry name found)
      (callArguments context name arguments locus) := by
  have formed := (Expr.all_well_formed_iff arguments).mpr wellFormed
  have checked (demand : Demand) (mild : demand.Mild table) :=
    ensures_checked_each context demand mild 0 arguments formed
  have refused {final : List Expr → Prop} (kind : DiagnosticKind) : Ensures table final (do
      let checked ← each context noDemand 0 arguments
      report kind locus
      return checked) :=
    ensures_seq (checked _ no_demand_mild) fun _ => ensures_reporting _ _ _
  refine ensures_seq ensures_symbols fun symbols => ?_
  split
  · next entry found =>
    split
    · exact refused _
    · next isSub =>
      split
      · exact refused _
      · next isDefined =>
        refine ensures_call_demand _ _ _ _ fun demand mild =>
          ensures_weaken (checked demand mild) fun found accepted takes agrees => ?_
        refine ⟨(Expr.all_accepted_iff _ _ _).mp accepted.2, .inl ?_⟩
        exact ⟨entry, (agrees.procedure name).symm.trans ‹_›, isSub, by simpa using isDefined,
          takes.trans accepted.1.symm⟩
  · next absent =>
    split
    · next builtin found =>
      refine ensures_builtin_demand _ _ _ fun demand mild =>
        ensures_seq (checked demand mild) fun result => ?_
      have callable (stored : builtin.signature.byReference = true →
            ∀ argument ∈ result, argument.isLvalue = true)
          (accepted : result.length = arguments.length ∧
            Expr.AllAccepted table context.registry result)
          (takes : builtin.signature.Takes arguments.length) (agrees : symbols.Agrees table) :
          (∀ expr ∈ result, expr.Accepted table context.registry) ∧
            table.Callable context.registry name result := by
        refine ⟨(Expr.all_accepted_iff _ _ _).mp accepted.2, .inr ?_⟩
        exact ⟨(agrees.procedure name).symm.trans absent, builtin, found, accepted.1 ▸ takes, stored⟩
      dsimp only
      split
      · exact ensures_seq (ensures_reference_arguments result) fun _ => ensures_unit fun stored =>
          callable fun _ => stored
      · next byValue => exact ensures_unit (callable fun byReference => absurd byReference byValue)
    · split
      · exact refused _
      · exact refused _

theorem ensures_stored (context : CheckContext) (targets : List Expr)
    (wellFormed : ∀ target ∈ targets, target.WellFormed) :
    Ensures table (fun found => found.length = targets.length ∧
      ∀ target ∈ found, target.Stored table context.registry)
      (targets.mapM (scalarTarget context)) :=
  ensures_map fun target inside => ensures_scalar_target context target (wellFormed target inside)

def EnsuresStmt (table : SymbolTable) (context : CheckContext) (stmt : Stmt) (check : Check Stmt) : Prop :=
  Ensures table (fun found => found.Accepted table context ∧ found.labels = stmt.labels) check

section Statements

variable {context : CheckContext} {locus : Locus}

theorem ensures_print {file format : Option Expr} {items : List PrintItem} {newline : Bool}
    (wellFormed : (Stmt.print file format items newline).WellFormed) :
    EnsuresStmt table context (.print file format items newline)
      (Check.stmt context locus (.print file format items newline)) := by
  obtain ⟨fileFormed, formatFormed, itemsFormed⟩ := wellFormed
  have each (item : PrintItem) (inside : item ∈ items) :
      Ensures table (fun found : PrintItem => found.expr.Accepted table context.registry) (do
        return { item with expr := ← expectPrintable context item.expr }) :=
    ensures_seq (ensures_printable context item.expr (itemsFormed item inside)) fun _ =>
      ensures_unit fun accepted => accepted
  refine ensures_seq (ensures_option fun expr inside => ensures_numeric context expr (fileFormed expr inside)) fun _ => ?_
  refine ensures_seq (ensures_option fun expr inside => ensures_string context expr (formatFormed expr inside)) fun _ => ?_
  exact ensures_seq (ensures_map each) fun _ => ensures_unit
    fun itemsAccepted formatAccepted fileAccepted => ⟨⟨fileAccepted, formatAccepted, itemsAccepted.2⟩, rfl⟩

theorem ensures_assign {target value : Expr} (wellFormed : (Stmt.assign target value).WellFormed) :
    EnsuresStmt table context (.assign target value) (Check.stmt context locus (.assign target value)) :=
  ensures_seq (ensures_target context target wellFormed.1) fun _ =>
    ensures_seq (ensures_expr context value wellFormed.2) fun _ => ensures_unless
      (ensures_unit fun _ valueAccepted stored => ⟨⟨stored, valueAccepted⟩, rfl⟩)

theorem ensures_dim {shared : Bool} {decls : List VarDecl} (wellFormed : (Stmt.dim shared decls).WellFormed) :
    EnsuresStmt table context (.dim shared decls) (Check.stmt context locus (.dim shared decls)) := by
  rw [EnsuresStmt, Check.stmt]
  refine ensures_unless ?_
  exact ensures_seq (ensures_map fun decl inside => ensures_dim_decl context _ decl (wellFormed decl inside)) fun _ =>
    ensures_unit fun accepted _ => ⟨accepted.2, rfl⟩

theorem ensures_for_loop {counter : String} {first last : Expr} {step : Option Expr} {body : Block}
    {next : Option (String × Locus)} (wellFormed : (Stmt.forLoop counter first last step body next).WellFormed)
    (bodyAccepted : Ensures table (fun found => found.Accepted table (context.inLoop .forLoop) ∧ found.labels = body.labels)
      (Check.block (context.inLoop .forLoop) body)) :
    EnsuresStmt table context (.forLoop counter first last step body next)
      (Check.stmt context locus (.forLoop counter first last step body next)) := by
  obtain ⟨named, firstFormed, lastFormed, stepFormed, -⟩ := wellFormed
  refine ensures_seq (ensures_counter _ _) fun _ => ?_
  refine ensures_seq (ensures_numeric context first firstFormed) fun checkedFirst => ?_
  refine ensures_seq (ensures_numeric context last lastFormed) fun checkedLast => ?_
  refine ensures_seq (ensures_option fun expr inside => ensures_numeric context expr (stepFormed expr inside))
    fun checkedStep => ?_
  refine ensures_seq bodyAccepted fun checkedBody => ?_
  have made : Ensures table (fun found : Stmt =>
      checkedBody.Accepted table (context.inLoop .forLoop) ∧ checkedBody.labels = body.labels →
      (∀ expr ∈ checkedStep, expr.Accepted table context.registry) →
      checkedLast.Accepted table context.registry →
      checkedFirst.Accepted table context.registry → True →
      found.Accepted table context ∧ found.labels = body.labels)
      (pure (.forLoop counter checkedFirst checkedLast checkedStep checkedBody next)) :=
    ensures_unit fun bodyAccepted stepAccepted lastAccepted firstAccepted _ =>
      ⟨⟨named, firstAccepted, lastAccepted, stepAccepted, bodyAccepted.1⟩, bodyAccepted.2⟩
  cases next with
  | some found => exact ensures_unless (ensures_weaken made fun _ accepted _ => accepted)
  | none => exact made

theorem ensures_do_loop {before after : Option LoopCondition} {body : Block}
    (wellFormed : (Stmt.doLoop before body after).WellFormed)
    (bodyAccepted : Ensures table (fun found => found.Accepted table (context.inLoop .doLoop) ∧ found.labels = body.labels)
      (Check.block (context.inLoop .doLoop) body)) :
    EnsuresStmt table context (.doLoop before body after) (Check.stmt context locus (.doLoop before body after)) := by
  obtain ⟨beforeFormed, -, afterFormed⟩ := wellFormed
  refine ensures_seq (ensures_option fun loop inside =>
    ensures_loop_condition context loop (beforeFormed loop inside)) fun _ => ?_
  refine ensures_seq bodyAccepted fun _ => ?_
  refine ensures_seq (ensures_option fun loop inside =>
    ensures_loop_condition context loop (afterFormed loop inside)) fun _ => ?_
  exact ensures_unit fun afterAccepted bodyAccepted beforeAccepted =>
    ⟨⟨beforeAccepted, bodyAccepted.1, afterAccepted⟩, bodyAccepted.2⟩

theorem ensures_exit (target : ExitTarget) :
    EnsuresStmt table context (.exit target) (Check.stmt context locus (.exit target)) := by
  rw [EnsuresStmt, Check.stmt]
  refine ensures_unless (ensures_unit fun allowed => ⟨?_, rfl⟩)
  rw [Stmt.Accepted]
  simpa using allowed

theorem ensures_on_event {key : Expr} {target : String} (wellFormed : (Stmt.onEvent key target).WellFormed) :
    EnsuresStmt table context (.onEvent key target) (Check.stmt context locus (.onEvent key target)) :=
  ensures_seq (ensures_string context key wellFormed) fun _ => ensures_seq (ensures_jump context target locus) fun _ =>
    ensures_unit fun found accepted => ⟨⟨accepted, found⟩, rfl⟩

theorem ensures_restore (label : Option String) :
    EnsuresStmt table context (.restore label) (Check.stmt context locus (.restore label)) := by
  cases label with
  | none => exact ensures_unit ⟨fun _ inside => (nomatch inside), rfl⟩
  | some name =>
    refine ensures_seq ensures_symbols fun symbols => ensures_unless (ensures_unit ?_)
    refine fun found agrees => ⟨fun other inside => ?_, rfl⟩
    rw [← Option.some.inj inside, ← agrees.label]
    simpa [← Option.isSome_iff_ne_none] using found

theorem ensures_file_input {file : Expr} {targets : List Expr} {line : Bool}
    (wellFormed : (Stmt.fileInput file targets line).WellFormed) :
    EnsuresStmt table context (.fileInput file targets line) (Check.stmt context locus (.fileInput file targets line)) := by
  obtain ⟨fileFormed, targetsFormed, oneTarget⟩ := wellFormed
  refine ensures_seq (ensures_numeric context file fileFormed) fun _ => ?_
  cases line with
  | true =>
    refine ensures_seq (ensures_map fun target inside =>
      ensures_string_target context target (targetsFormed target inside)) fun _ => ?_
    exact ensures_unit fun stored accepted => ⟨⟨accepted, stored.2, fun isLine => stored.1.trans (oneTarget isLine)⟩, rfl⟩
  | false =>
    refine ensures_seq (ensures_stored context targets targetsFormed) fun _ => ?_
    exact ensures_unit fun stored accepted => ⟨⟨accepted, stored.2, fun isLine => nomatch isLine⟩, rfl⟩

theorem ensures_open_file {path file : Expr} {mode : FileMode} (wellFormed : (Stmt.openFile path mode file).WellFormed) :
    EnsuresStmt table context (.openFile path mode file) (Check.stmt context locus (.openFile path mode file)) :=
  ensures_seq (ensures_string context path wellFormed.1) fun _ =>
    ensures_seq (ensures_numeric context file wellFormed.2) fun _ =>
      ensures_unit fun fileAccepted pathAccepted => ⟨⟨pathAccepted, fileAccepted⟩, rfl⟩

theorem ensures_write {file : Option Expr} {values : List Expr} (wellFormed : (Stmt.write file values).WellFormed) :
    EnsuresStmt table context (.write file values) (Check.stmt context locus (.write file values)) := by
  refine ensures_seq (ensures_option fun expr inside => ensures_numeric context expr (wellFormed.1 expr inside)) fun _ => ?_
  refine ensures_seq (ensures_map fun value inside =>
    ensures_printable context value (wellFormed.2 value inside)) fun _ => ?_
  exact ensures_unit fun valuesAccepted fileAccepted => ⟨⟨fileAccepted, valuesAccepted.2⟩, rfl⟩

end Statements

mutual

theorem ensures_stmt (context : CheckContext) (locus : Locus) (stmt : Stmt)
    (wellFormed : stmt.WellFormed) :
    Ensures table (fun found => found.Accepted table context ∧ found.labels = stmt.labels)
      (Check.stmt context locus stmt) := by
  cases stmt with
  | print file format items newline => exact ensures_print wellFormed
  | assign target value => exact ensures_assign wellFormed
  | dim shared decls => exact ensures_dim wellFormed
  | redim preserve decls =>
    exact ensures_seq (ensures_map fun decl inside => ensures_redim_decl context decl (wellFormed decl inside)) fun _ =>
      ensures_unit fun accepted => ⟨accepted.2, rfl⟩
  | const name value =>
    exact ensures_seq (ensures_constant context name value locus wellFormed.2) fun _ =>
      ensures_unit fun accepted => ⟨⟨wellFormed.1, accepted⟩, rfl⟩
  | cond branches =>
    exact ensures_seq (ensures_arms context branches wellFormed) fun _ => ensures_unit fun accepted => accepted
  | select test clauses =>
    exact ensures_seq (ensures_expr context test wellFormed.1) fun checked =>
      ensures_seq (ensures_cases context checked.ty clauses wellFormed.2) fun _ =>
        ensures_unit fun casesAccepted testAccepted => ⟨⟨testAccepted, casesAccepted.1⟩, casesAccepted.2⟩
  | forLoop counter first last step body next =>
    exact ensures_for_loop wellFormed (ensures_block _ body wellFormed.2.2.2.2)
  | whileLoop condition body =>
    exact ensures_seq (ensures_condition context condition wellFormed.1) fun _ =>
      ensures_seq (ensures_block (context.inLoop .whileLoop) body wellFormed.2) fun _ =>
        ensures_unit fun bodyAccepted conditionAccepted => ⟨⟨conditionAccepted, bodyAccepted.1⟩, bodyAccepted.2⟩
  | doLoop before body after => exact ensures_do_loop wellFormed (ensures_block _ body wellFormed.2.1)
  | goto target | gosub target =>
    exact ensures_seq (ensures_jump context target locus) fun _ => ensures_unit fun found => ⟨found, rfl⟩
  | exit target => exact ensures_exit target
  | onEvent key target => exact ensures_on_event wellFormed
  | restore label => exact ensures_restore label
  | declare | typeDef => exact ensures_seq (ensures_report_if _ _ _) fun _ => ensures_unit fun _ => ⟨trivial, rfl⟩
  | defType spec ranges =>
    exact ensures_seq (ensures_report_if _ _ _) fun _ => ensures_unit fun _ => ⟨wellFormed.1, rfl⟩
  | call name arguments =>
    exact ensures_seq (ensures_call_arguments context name arguments locus wellFormed.2) fun _ =>
      ensures_unit fun accepted => ⟨⟨wellFormed.1, accepted⟩, rfl⟩
  | input _ _ targets | read targets =>
    exact ensures_seq (ensures_stored context targets wellFormed) fun _ => ensures_unit fun stored => ⟨stored.2, rfl⟩
  | lineInput prompt target =>
    exact ensures_seq (ensures_string_target context target wellFormed) fun _ => ensures_unit fun stored => ⟨stored, rfl⟩
  | fileInput file targets line => exact ensures_file_input wellFormed
  | openFile path mode file => exact ensures_open_file wellFormed
  | close files =>
    exact ensures_seq (ensures_map fun file inside => ensures_numeric context file (wellFormed file inside)) fun _ =>
      ensures_unit fun accepted => ⟨accepted.2, rfl⟩
  | write file values => exact ensures_write wellFormed
  | data | label | ret | stop | comment => exact ensures_unit ⟨trivial, rfl⟩

theorem ensures_block (context : CheckContext) (block : Block) (wellFormed : block.WellFormed) :
    Ensures table (fun found => found.Accepted table context ∧ found.labels = block.labels)
      (Check.block context block) := by
  cases block with
  | nil => exact ensures_unit ⟨trivial, rfl⟩
  | cons locus head tail =>
    exact ensures_seq (ensures_stmt context locus head wellFormed.1) fun _ =>
      ensures_seq (ensures_block context tail wellFormed.2) fun _ =>
        ensures_unit fun tailAccepted headAccepted => ⟨⟨headAccepted.1, tailAccepted.1⟩, by
          rw [Block.labels, headAccepted.2, tailAccepted.2, Block.labels]⟩

theorem ensures_arms (context : CheckContext) (branches : Arms) (wellFormed : branches.WellFormed) :
    Ensures table (fun found => found.Accepted table context ∧ found.labels = branches.labels)
      (Check.arms context branches) := by
  cases branches with
  | none => exact ensures_unit ⟨trivial, rfl⟩
  | otherwise body =>
    exact ensures_seq (ensures_block context.nested body wellFormed) fun _ =>
      ensures_unit fun accepted => accepted
  | arm condition body rest =>
    exact ensures_seq (ensures_condition context condition wellFormed.1) fun _ =>
      ensures_seq (ensures_block context.nested body wellFormed.2.1) fun _ =>
        ensures_seq (ensures_arms context rest wellFormed.2.2) fun _ =>
          ensures_unit fun restAccepted bodyAccepted conditionAccepted =>
            ⟨⟨conditionAccepted, bodyAccepted.1, restAccepted.1⟩, by
              rw [Arms.labels, bodyAccepted.2, restAccepted.2, Arms.labels]⟩

theorem ensures_cases (context : CheckContext) (test : Ty) (clauses : Cases)
    (wellFormed : clauses.WellFormed) :
    Ensures table (fun found => found.Accepted table context ∧ found.labels = clauses.labels)
      (Check.cases context test clauses) := by
  cases clauses with
  | none => exact ensures_unit ⟨trivial, rfl⟩
  | otherwise body =>
    exact ensures_seq (ensures_block context.nested body wellFormed) fun _ =>
      ensures_unit fun accepted => accepted
  | clause locus patterns body rest =>
    exact ensures_seq (ensures_map fun pattern inside =>
      ensures_case_match context test pattern (wellFormed.1 pattern inside)) fun _ =>
        ensures_seq (ensures_block context.nested body wellFormed.2.1) fun _ =>
          ensures_seq (ensures_cases context test rest wellFormed.2.2) fun _ =>
            ensures_unit fun restAccepted bodyAccepted patternsAccepted =>
              ⟨⟨patternsAccepted.2, bodyAccepted.1, restAccepted.1⟩, by
                rw [Cases.labels, bodyAccepted.2, restAccepted.2, Cases.labels]⟩

end

end Check

end BasicLang
