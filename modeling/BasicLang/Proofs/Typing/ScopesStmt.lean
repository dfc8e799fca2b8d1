import BasicLang.Proofs.Typing.Scopes

set_option autoImplicit false

namespace BasicLang

mutual

def Stmt.collect (pick : Stmt → List String) : Stmt → List String
  | .cond arms => arms.collect pick
  | .select _ cases => cases.collect pick
  | .forLoop _ _ _ _ body _ => body.collect pick
  | .whileLoop _ body => body.collect pick
  | .doLoop _ body _ => body.collect pick
  | stmt => pick stmt

def Block.collect (pick : Stmt → List String) : Block → List String
  | .nil => []
  | .cons _ head tail => head.collect pick ++ tail.collect pick

def Arms.collect (pick : Stmt → List String) : Arms → List String
  | .none => []
  | .otherwise body => body.collect pick
  | .arm _ body rest => body.collect pick ++ rest.collect pick

def Cases.collect (pick : Stmt → List String) : Cases → List String
  | .none => []
  | .otherwise body => body.collect pick
  | .clause _ _ body rest => body.collect pick ++ rest.collect pick

end

mutual

theorem Stmt.collect_nothing {pick : Stmt → List String} (nothing : ∀ stmt, pick stmt = []) (stmt : Stmt) :
    stmt.collect pick = [] := by
  cases stmt with
  | cond arms => exact Arms.collect_nothing nothing arms
  | select test cases => exact Cases.collect_nothing nothing cases
  | forLoop counter first last step body next => exact Block.collect_nothing nothing body
  | whileLoop condition body => exact Block.collect_nothing nothing body
  | doLoop before body after => exact Block.collect_nothing nothing body
  | _ => exact nothing _

theorem Block.collect_nothing {pick : Stmt → List String} (nothing : ∀ stmt, pick stmt = []) (block : Block) :
    block.collect pick = [] := by
  cases block with
  | nil => rfl
  | cons locus head tail =>
    rw [Block.collect, Stmt.collect_nothing nothing head, Block.collect_nothing nothing tail, List.append_nil]

theorem Arms.collect_nothing {pick : Stmt → List String} (nothing : ∀ stmt, pick stmt = []) (arms : Arms) :
    arms.collect pick = [] := by
  cases arms with
  | none => rfl
  | otherwise body => exact Block.collect_nothing nothing body
  | arm condition body rest =>
    rw [Arms.collect, Block.collect_nothing nothing body, Arms.collect_nothing nothing rest, List.append_nil]

theorem Cases.collect_nothing {pick : Stmt → List String} (nothing : ∀ stmt, pick stmt = []) (cases : Cases) :
    cases.collect pick = [] := by
  cases cases with
  | none => rfl
  | otherwise body => exact Block.collect_nothing nothing body
  | clause locus patterns body rest =>
    rw [Cases.collect, Block.collect_nothing nothing body, Cases.collect_nothing nothing rest, List.append_nil]

end

def Stmt.shares (inMain : Bool) : Stmt → List String
  | .dim isShared decls => if isShared && inMain then decls.map VarDecl.name else []
  | .const name _ => if inMain then [name] else []
  | _ => []

def Stmt.owns (inMain : Bool) : Stmt → List String
  | .const name _ => if inMain then [] else [name]
  | _ => []

theorem Stmt.shares_nothing (stmt : Stmt) : stmt.shares false = [] := by
  cases stmt <;> simp [Stmt.shares]

theorem Stmt.owns_nothing (stmt : Stmt) : stmt.owns true = [] := by
  cases stmt <;> rfl

namespace Check

variable {α β : Type} {shared own : List String}

theorem declares_still {check : Check α} (still : Follows (fun before _ after => after = before) check) :
    Declares [] [] check :=
  follows_weaken still fun _ _ _ same entered => by
    rw [same]
    exact .refl entered

theorem still_resolve (spec : TypeSpec) (locus : Locus) :
    Follows (fun before _ after => after = before) (resolve spec locus) := by
  refine follows_read fun table => ?_
  have unchanged (ty : Ty) : Follows (fun before _ after => table = before → after = before)
      (pure ty : Check Ty) := follows_weaken (follows_unit ty) fun _ _ _ same _ => same.2
  split
  · exact unchanged _
  · cases spec with
    | record name =>
      have reported : Follows (fun _ (_ : Unit) _ => False) (report (.unknownType name) locus) :=
        follows_report _ _
      refine follows_weaken (follows_seq reported fun _ => unchanged _) ?_
      rintro before result after ⟨_, between, impossible, -⟩
      exact impossible.elim
    | _ => exact unchanged _

theorem still_resolve_or (spec : Option TypeSpec) (name : String) (locus : Locus) :
    Follows (fun before _ after => after = before) (resolveOr spec name locus) := by
  cases spec with
  | none =>
    exact follows_read fun table => follows_weaken (follows_unit _) fun _ _ _ same _ => same.2
  | some written => exact still_resolve written locus

section Declarations

theorem declares_declare (entry : SymbolEntry) (isShared : Bool) :
    Declares (if isShared then [entry.name] else []) (if isShared then [] else [entry.name])
      (declare entry isShared) := by
  refine declares_read fun table => ?_
  cases defined : table.define entry isShared with
  | ok after =>
    refine follows_weaken (follows_set after) ?_
    rintro before _ _ rfl rfl entered
    cases isShared with
    | true => exact .of_shared entered defined
    | false => exact .of_own entered defined
  | error existing => exact declares_from (declares_report _ _)

theorem declares_declare_new {table : SymbolTable} {entry : SymbolEntry} (isShared : Bool)
    (absent : ¬table.Shares entry.name) :
    DeclaresFrom table (if isShared then [entry.name] else []) [] (declare entry isShared) := by
  cases isShared with
  | true => exact declares_from (declares_declare entry true)
  | false =>
    exact declares_define_new absent (declares_unit ()) fun _ => declares_report _ _

variable (context : CheckContext)

theorem declares_dimension (dim : Dimension) : Declares [] [] (dimension context dim) :=
  declares_after (declares_option (declares_bound context)) fun _ =>
    declares_result (declares_bound context _)

theorem declares_declared_dimension (decl : VarDecl) (dim : Dimension) :
    Declares [] [] (declaredDimension context decl dim) := by
  refine declares_after (declares_option (declares_bound context)) fun lower =>
    declares_reading fun before => declares_after (declares_bound context _) fun upper =>
      declares_reading fun after => ?_
  dsimp only
  split
  · exact declares_unless (declares_unit _)
  · exact declares_unit _

theorem declares_dim_variable (isShared : Bool) (decl : VarDecl) (dimensions : List Dimension) (ty : Ty) :
    Declares (if isShared then [decl.name] else []) [] (do
      match (← symbols).lookupShared? decl.name with
      | some existing =>
        if context.inMain then report (.duplicateVariable decl.name existing.locus) decl.locus
        else report (.sharedRedeclared decl.name) decl.locus
      | none =>
        declare { name := decl.name, kind := .variable, ty, locus := decl.locus, constant := none }
          isShared
      return { decl with dimensions } : Check VarDecl) := by
  generalize added : (if isShared then [decl.name] else []) = names
  refine declares_read fun table => ?_
  cases missing : table.lookupShared? decl.name with
  | some existing =>
    cases context.inMain <;> exact declares_from (declares_reporting _ _ _)
  | none =>
    -- A `DIM` refuses every shared name, and so it hides none.
    have absent : ¬table.Shares decl.name := by
      rw [SymbolTable.lookupShared?] at missing
      simp [SymbolTable.Shares, missing]
    rw [← added]
    exact declares_from_result (declares_declare_new isShared absent)

theorem declares_dim_decl (isShared : Bool) (decl : VarDecl) :
    Declares (if isShared then [decl.name] else []) [] (dimDecl context isShared decl) := by
  refine declares_after (declares_still (still_resolve_or _ _ _)) fun element => ?_
  have rest := declares_dim_variable context isShared decl
  generalize (if isShared then [decl.name] else []) = names at rest ⊢
  dsimp only
  split
  · exact declares_after (declares_map fun dim _ => declares_declared_dimension context decl dim) fun _ => rest _ _
  · exact rest _ _

theorem declares_dim_decls (isShared : Bool) (decls : List VarDecl) :
    Declares (if isShared then decls.map VarDecl.name else []) [] (decls.mapM (dimDecl context isShared)) := by
  have all := declares_gather _ (fun _ => []) fun decl (_ : decl ∈ decls) =>
    declares_dim_decl context isShared decl
  have none : decls.flatMap (fun _ => ([] : List String)) = [] := List.flatMap_eq_nil_iff.mpr fun _ _ => rfl
  cases isShared with
  | true => simpa [none, List.map_eq_flatMap] using all
  | false => simpa [none] using all

theorem declares_retype (name : String) (ty : Ty) :
    Declares [] [] (modify fun state => { state with symbols := state.symbols.retype name ty } : Check Unit) := by
  refine follows_weaken (follows_modify (·.retype name ty)) ?_
  rintro before _ _ rfl entered
  obtain ⟨stillEntered, shares, owns⟩ := SymbolTable.retype_scopes before name ty entered
  refine ⟨stillEntered, (SymbolTable.retype_agrees before name ty).procedures, by simpa using shares,
    by simp [owns], ?_⟩
  exact fun other isOwn => .inl ((owns other).mp isOwn)

theorem declares_redim_decl (decl : VarDecl) : Declares [] [] (redimDecl context decl) := by
  obtain ⟨name, written, isArray, typeSpec, locus⟩ := decl
  refine declares_after (declares_map fun dim _ => declares_dimension context dim) fun dimensions =>
    declares_read fun table => ?_
  have made : Declares [] [] (pure { name, dimensions, isArray, typeSpec, locus } : Check VarDecl) :=
    declares_unit _
  split
  · refine declares_from ?_
    split
    · next element dims _ =>
      have resized : Declares [] [] (do
          if dims = 0 then modify fun state =>
            { state with symbols := state.symbols.retype name (.array element written.length) }
          return { name, dimensions, isArray, typeSpec, locus } : Check VarDecl) := by
        dsimp only
        split
        · exact declares_after (declares_retype _ _) fun _ => made
        · exact made
      refine declares_unless ?_
      cases typeSpec with
      | some spec =>
        exact declares_after (declares_still (still_resolve spec locus)) fun _ => declares_unless resized
      | none => exact resized
    · exact declares_refused _ _ made
  · next absent =>
    -- Resolving the type changes no names, so that the name is still absent when it is declared.
    refine follows_weaken (follows_seq (still_resolve_or typeSpec name locus) fun element =>
      declares_define_new ((SymbolTable.absent_iff _ _).mp absent).2 made fun _ => made) ?_
    rintro before _ after ⟨_, _, rfl, gains⟩ rfl
    exact gains rfl

theorem declares_constant (name : String) (value : Expr) (locus : Locus) :
    Declares (if context.inMain then [name] else []) (if context.inMain then [] else [name])
      (constant context name value locus) := by
  refine declares_after (declares_expr context value) fun checked =>
    declares_reading fun table => declares_unless (declares_unless ?_)
  exact declares_result (declares_declare _ context.inMain)

end Declarations

section Statements

variable (context : CheckContext)

theorem declares_case_match (test : Ty) (pattern : CaseMatch) :
    Declares [] [] (caseMatch context test pattern) := by
  cases pattern with
  | single value => exact declares_result (declares_case_value context value test)
  | range first last =>
    exact declares_after (declares_case_value context first test) fun _ =>
      declares_result (declares_case_value context last test)
  | comparison operator value => exact declares_result (declares_case_value context value test)

theorem declares_counter (name : String) (locus : Locus) : Declares [] [] (counter name locus) := by
  refine declares_reading fun table => ?_
  split
  · split
    · exact declares_report _ _
    · exact declares_report_if _ _ _
  · exact declares_after (declares_variable_type _ _) fun _ => declares_report_if _ _ _

theorem declares_jump (name : String) (locus : Locus) : Declares [] [] (jump context name locus) := by
  refine declares_reading fun table => ?_
  split
  · exact declares_report _ _
  · exact declares_report_if _ _ _

theorem declares_loop_condition (loop : LoopCondition) : Declares [] [] (loopCondition context loop) :=
  declares_result (declares_condition context _)

theorem declares_reference_arguments (arguments : List Expr) :
    Declares [] [] (referenceArguments arguments) := by
  cases arguments with
  | nil => exact declares_unit ()
  | cons first rest =>
    have each (argument : Expr) : Declares [] [] (do
        if !argument.isLvalue then report .notAssignable argument.locus
        else if first.ty.name ≠ argument.ty.name ∧ !(first.ty.isNumeric && argument.ty.isNumeric) then
          report (.typeMismatch first.ty.name argument.ty.name) argument.locus : Check Unit) := by
      split
      · exact declares_report _ _
      · exact declares_report_if _ _ _
    have none : (first :: rest).flatMap (fun _ => ([] : List String)) = [] :=
      List.flatMap_eq_nil_iff.mpr fun _ _ => rfl
    have all := declares_each (fun _ => []) fun argument (_ : argument ∈ first :: rest) => each argument
    rwa [none] at all

theorem declares_call_arguments (name : String) (arguments : List Expr) (locus : Locus) :
    Declares [] [] (callArguments context name arguments locus) := by
  have refused (kind : DiagnosticKind) : Declares [] [] (do
      let checked ← each context noDemand 0 arguments
      report kind locus
      return checked : Check (List Expr)) :=
    declares_after (declares_exprs context _ no_demand_plain 0 arguments) fun _ => declares_reporting _ _ _
  refine declares_reading fun table => ?_
  split
  · split
    · exact refused _
    · split
      · exact refused _
      · exact declares_call_demand _ _ _ _ fun demand plain => declares_exprs context demand plain 0 arguments
  · split
    · refine declares_builtin_demand _ _ _ fun demand plain =>
        declares_after (declares_exprs context demand plain 0 arguments) fun checked => ?_
      dsimp only
      split
      · exact declares_result (declares_reference_arguments checked)
      · exact declares_unit _
    · split
      · exact refused _
      · exact refused _

end Statements

mutual

theorem declares_stmt (context : CheckContext) (locus : Locus) (stmt : Stmt) :
    Declares (stmt.collect (Stmt.shares context.inMain)) (stmt.collect (Stmt.owns context.inMain))
      (Check.stmt context locus stmt) := by
  cases stmt with
  | dim isShared decls =>
    rw [Check.stmt]
    refine declares_unless (declares_result ?_)
    exact declares_dim_decls context (isShared && context.inMain) decls
  | const name value =>
    exact declares_result (declares_constant context name value locus)
  | cond branches => exact declares_result (declares_arms context branches)
  | select test clauses =>
    exact declares_after (declares_expr context test) fun checked =>
      declares_result (declares_cases context checked.ty clauses)
  | forLoop name first last step body next =>
    refine declares_after (declares_counter name locus) fun _ =>
      declares_after (declares_numeric context first) fun _ =>
        declares_after (declares_numeric context last) fun _ =>
          declares_after (declares_option (declares_numeric context)) fun _ => ?_
    refine declares_then (declares_block (context.inLoop .forLoop) body) fun _ => ?_
    cases next with
    | none => exact declares_unit _
    | some found => exact declares_unless (declares_unit _)
  | whileLoop condition body =>
    exact declares_after (declares_condition context condition) fun _ =>
      declares_result (declares_block (context.inLoop .whileLoop) body)
  | doLoop before body after =>
    exact declares_after (declares_option (declares_loop_condition context)) fun _ =>
      declares_then (declares_block (context.inLoop .doLoop) body) fun _ =>
        declares_result (declares_option (declares_loop_condition context))
  | print file format items newline =>
    exact declares_after (declares_option (declares_numeric context)) fun _ =>
      declares_after (declares_option (declares_string context)) fun _ =>
        declares_result (declares_map fun item _ => declares_result (declares_printable context item.expr))
  | assign target value =>
    exact declares_after (declares_target context target) fun _ =>
      declares_after (declares_expr context value) fun _ => declares_unless (declares_unit _)
  | redim preserve decls =>
    exact declares_result (declares_map fun decl _ => declares_redim_decl context decl)
  | goto target => exact declares_result (declares_jump context target locus)
  | gosub target => exact declares_result (declares_jump context target locus)
  | exit target =>
    rw [Check.stmt]
    exact declares_unless (declares_unit _)
  | onEvent key target =>
    exact declares_after (declares_string context key) fun _ =>
      declares_result (declares_jump context target locus)
  | restore label =>
    cases label with
    | none => exact declares_unit _
    | some name => exact declares_reading fun _ => declares_unless (declares_unit _)
  | declare kind name params returns => exact declares_result (declares_report_if _ _ _)
  | typeDef name members => exact declares_result (declares_report_if _ _ _)
  | defType spec ranges => exact declares_result (declares_report_if _ _ _)
  | call name arguments => exact declares_result (declares_call_arguments context name arguments locus)
  | input prompt question targets =>
    exact declares_result (declares_map fun target _ => declares_scalar_target context target)
  | lineInput prompt target => exact declares_result (declares_string_target context target)
  | fileInput file targets line =>
    refine declares_after (declares_numeric context file) fun _ => ?_
    cases line with
    | true => exact declares_result (declares_map fun target _ => declares_string_target context target)
    | false => exact declares_result (declares_map fun target _ => declares_scalar_target context target)
  | openFile path mode file =>
    exact declares_after (declares_string context path) fun _ => declares_result (declares_numeric context file)
  | close files => exact declares_result (declares_map fun file _ => declares_numeric context file)
  | write file values =>
    exact declares_after (declares_option (declares_numeric context)) fun _ =>
      declares_result (declares_map fun value _ => declares_printable context value)
  | read targets =>
    exact declares_result (declares_map fun target _ => declares_scalar_target context target)
  | data items => exact declares_unit _
  | label name => exact declares_unit _
  | ret => exact declares_unit _
  | stop => exact declares_unit _
  | comment text => exact declares_unit _

theorem declares_block (context : CheckContext) (block : Block) :
    Declares (block.collect (Stmt.shares context.inMain)) (block.collect (Stmt.owns context.inMain))
      (Check.block context block) := by
  cases block with
  | nil => exact declares_unit _
  | cons locus head tail =>
    exact declares_seq (declares_stmt context locus head) fun _ =>
      declares_result (declares_block context tail)

theorem declares_arms (context : CheckContext) (branches : Arms) :
    Declares (branches.collect (Stmt.shares context.inMain)) (branches.collect (Stmt.owns context.inMain))
      (Check.arms context branches) := by
  cases branches with
  | none => exact declares_unit _
  | otherwise body => exact declares_result (declares_block context.nested body)
  | arm condition body rest =>
    exact declares_after (declares_condition context condition) fun _ =>
      declares_seq (declares_block context.nested body) fun _ =>
        declares_result (declares_arms context rest)

theorem declares_cases (context : CheckContext) (test : Ty) (clauses : Cases) :
    Declares (clauses.collect (Stmt.shares context.inMain)) (clauses.collect (Stmt.owns context.inMain))
      (Check.cases context test clauses) := by
  cases clauses with
  | none => exact declares_unit _
  | otherwise body => exact declares_result (declares_block context.nested body)
  | clause locus patterns body rest =>
    exact declares_after (declares_map fun pattern _ => declares_case_match context test pattern) fun _ =>
      declares_seq (declares_block context.nested body) fun _ =>
        declares_result (declares_cases context test rest)

end

end Check

end BasicLang
