import BasicLang.Proofs.Code.Outcome

set_option autoImplicit false

namespace BasicLang

def LoopKind.exit : LoopKind → ExitTarget
  | .forLoop => .forLoop
  | .whileLoop => .whileLoop
  | .doLoop => .doLoop

structure EmitContext.Serves (context : EmitContext) (checked : CheckContext) (bound : Nat) : Prop where
  registry : checked.registry = context.registry
  exits : ∀ target, checked.allowsExit target = true →
    ∃ id, context.exitLabel? target = some id ∧ id < bound

namespace EmitContext.Serves

variable {context : EmitContext} {checked : CheckContext} {bound : Nat}

theorem nested (serves : context.Serves checked bound) : context.Serves checked.nested bound :=
  ⟨serves.registry, fun target allowed => serves.exits target (by cases target <;> exact allowed)⟩

theorem higher {upper : Nat} (serves : context.Serves checked bound) (above : bound ≤ upper) :
    context.Serves checked upper :=
  ⟨serves.registry, fun target allowed =>
    (serves.exits target allowed).imp fun _ found => ⟨found.1, Nat.lt_of_lt_of_le found.2 above⟩⟩

theorem in_loop (serves : context.Serves checked bound) (loop : LoopKind) {exit : Nat}
    (below : exit < bound) :
    (context.inLoop loop.exit exit).Serves (checked.inLoop loop) bound := by
  refine ⟨serves.registry, fun target allowed => ?_⟩
  by_cases same : target = loop.exit
  · refine ⟨exit, ?_, below⟩
    subst same
    cases loop <;> rfl
  · have old : checked.allowsExit target = true := by
      cases target <;> cases loop <;>
        simp_all [CheckContext.allowsExit, CheckContext.inLoop, CheckContext.nested, LoopKind.exit]
    obtain ⟨id, found, inside⟩ := serves.exits target old
    refine ⟨id, ?_, inside⟩
    have different : (target == loop.exit) = false := by simpa using same
    cases target <;>
      simpa [EmitContext.exitLabel?, EmitContext.inLoop, List.lookup_cons, different] using found

end EmitContext.Serves

namespace Emit

variable {known : List String} {bound : Nat} {context : EmitContext}

theorem emits_dimension (dimension : Dimension) (accepted : dimension.Accepted context.symbols context.registry) :
    Emits known bound (effectOn context [] dimension.exprs [] []) (do
      match dimension.lower with
      | some lower => value context lower
      | none => pushInteger 0
      value context dimension.upper) := by
  obtain ⟨lowerAccepted, upperAccepted⟩ := accepted
  obtain ⟨lower, upper⟩ := dimension
  cases lower with
  | some lower =>
    exact emits_join (emits_expr lower (lowerAccepted lower rfl)) fun _ =>
      emits_expr upper upperAccepted
  | none => exact emits_before (emits_plain _ rfl) fun _ => emits_expr upper upperAccepted

theorem emits_bounds (dimensions : List Dimension)
    (accepted : ∀ dimension ∈ dimensions, dimension.Accepted context.symbols context.registry) :
    Emits known bound (effectOn context [] (dimensions.flatMap Dimension.exprs) [] [])
      (bounds context dimensions) :=
  emits_each Dimension.exprs fun dimension inside => emits_dimension dimension (accepted dimension inside)

theorem emits_type (spec : TypeSpec) (locus : Locus) (isKnown : spec.Known context.symbols) :
    Emits known bound .nothing (typeOf context spec locus) := by
  unfold typeOf
  split
  · exact emits_unit _
  · next unknown =>
    rw [TypeSpec.Known, unknown] at isKnown
    cases isKnown

theorem emits_element_type (decl : VarDecl)
    (isKnown : ∀ spec ∈ decl.typeSpec, spec.Known context.symbols) :
    Emits known bound .nothing (elementType context decl) := by
  unfold elementType
  split
  · next spec written => exact emits_type spec _ (isKnown spec written)
  · exact emits_unit _

theorem emits_dim_decl (decl : VarDecl) (accepted : decl.Accepted context.symbols context.registry) :
    Emits known bound (effectOn context []
      (if decl.isArray then decl.dimensions.flatMap Dimension.exprs else []) [] [])
      (dimDecl context decl) := by
  refine emits_before (emits_locus _) fun _ =>
    emits_before (emits_element_type decl accepted.2.1) fun element => ?_
  cases isArray : decl.isArray with
  | false => exact emits_still (emits_plain _ rfl)
  | true =>
    cases dimensions : decl.dimensions with
    | nil => exact emits_still (emits_plain _ rfl)
    | cons first rest =>
      exact emits_behind (emits_bounds _ (dimensions ▸ accepted.2.2 isArray)) fun _ => emits_plain _ rfl

theorem emits_redim_decl (preserve : Bool) (decl : VarDecl)
    (accepted : decl.Resized context.symbols context.registry) :
    Emits known bound (effectOn context [] (decl.dimensions.flatMap Dimension.exprs) [] [])
      (redimDecl context preserve decl) :=
  emits_before (emits_locus _) fun _ =>
    emits_behind (emits_bounds _ accepted.2.2) fun _ =>
      emits_before (emits_element_type decl accepted.2.1) fun _ => emits_plain _ rfl

theorem emits_assign_new {exprs : List Expr} {push : Emit Unit} (name : String) (ty : Ty)
    (pushed : Emits known bound (effectOn context [] exprs [] []) push) :
    Emits known bound (effectOn context [] exprs [] []) (assignNew name ty push) :=
  emits_before (emits_plain _ rfl) fun _ => emits_before (emits_plain _ rfl) fun _ =>
    emits_behind pushed fun _ => emits_plain _ rfl

theorem emits_compare (tested : String) (operator : BinaryOperator) (wanted : Expr)
    (accepted : wanted.Accepted context.symbols context.registry) :
    Emits known bound (effectOn context [] [wanted] [] [])
      (caseMatch.compare context tested operator wanted) :=
  emits_before (emits_plain _ rfl) fun _ =>
    emits_behind (emits_expr wanted accepted) fun _ => emits_plain _ rfl

theorem emits_case_match (tested : String) (pattern : CaseMatch)
    (accepted : pattern.Accepted context.symbols context.registry) :
    Emits known bound (effectOn context [] pattern.exprs [] []) (caseMatch context tested pattern) := by
  cases pattern with
  | single wanted => exact emits_compare _ _ _ accepted
  | range first last =>
    exact emits_join (emits_compare _ _ _ accepted.1) fun _ =>
      emits_behind (emits_compare _ _ _ accepted.2) fun _ => emits_plain _ rfl
  | comparison operator wanted => exact emits_compare _ _ _ accepted

theorem emits_case_patterns (tested : String) (body : Nat) (below : body < bound)
    (patterns : List CaseMatch)
    (accepted : ∀ pattern ∈ patterns, pattern.Accepted context.symbols context.registry) :
    Emits known bound (effectOn context [] (patterns.flatMap CaseMatch.exprs) [] [])
      (casePatterns context tested body patterns) :=
  emits_each CaseMatch.exprs fun pattern inside =>
    emits_behind (emits_case_match tested pattern (accepted pattern inside)) fun _ =>
      emits_op _ (by simpa [Op.labels, Target.labels] using below)

theorem emits_redirected {exprs : List Expr} {write : Emit Unit} (file : Option Expr)
    (accepted : ∀ expr ∈ file, expr.Accepted context.symbols context.registry)
    (written : Emits known bound (effectOn context [] exprs [] []) write) :
    Emits known bound (effectOn context [] (file.toList ++ exprs) [] [])
      (redirected context file write) := by
  cases file with
  | none => exact written
  | some file =>
    have selected : Emits known bound (effectOn context [] [file] [] []) (selectOutput context file) :=
      emits_behind (emits_expr file (accepted file rfl)) fun _ => emits_plain _ rfl
    exact emits_join selected fun _ => emits_behind written fun _ =>
      emits_before (emits_plain _ rfl) fun _ => emits_plain _ rfl

theorem emits_print_items (format : Option Expr) (items : List PrintItem) (newline : Bool)
    (formatAccepted : ∀ expr ∈ format, expr.Accepted context.symbols context.registry)
    (accepted : ∀ item ∈ items, item.expr.Accepted context.symbols context.registry) :
    Emits known bound (effectOn context [] (format.toList ++ items.map PrintItem.expr) [] [])
      (printItems context format items newline) := by
  have ending : Emits known bound .nothing
      (if newline then syscall .printNewline else pure () : Emit Unit) := by
    split
    · exact emits_plain _ rfl
    · exact emits_unit ()
  have eachAccepted : ∀ expr ∈ items.map PrintItem.expr,
      expr.Accepted context.symbols context.registry := by
    simpa using accepted
  cases format with
  | some template =>
    exact emits_join (emits_expr template (formatAccepted template rfl)) fun _ =>
      emits_behind (emits_expr_values _ eachAccepted) fun _ =>
        emits_before (emits_plain _ rfl) fun _ => emits_before (emits_plain _ rfl) fun _ => ending
  | none =>
    have each (item : PrintItem) (inside : item ∈ items) :
        Emits known bound (effectOn context [] [item.expr] [] []) (printItem context item) := by
      refine emits_behind (emits_expr item.expr (accepted item inside)) fun _ =>
        emits_before (emits_plain _ rfl) fun _ => ?_
      split
      · exact emits_plain _ rfl
      · exact emits_unit ()
    have all := emits_each (fun item : PrintItem => [item.expr]) each
    rw [← List.map_eq_flatMap] at all
    exact emits_behind all fun _ => ending

theorem emits_close_files (files : List Expr)
    (accepted : ∀ file ∈ files, file.Accepted context.symbols context.registry) :
    Emits known bound (effectOn context [] files [] []) (closeFiles context files) := by
  cases files with
  | nil => exact emits_still (emits_before (emits_plain _ rfl) fun _ => emits_plain _ rfl)
  | cons first rest =>
    have each (file : Expr) (inside : file ∈ first :: rest) :
        Emits known bound (effectOn context [] [file] [] []) (do
          value context file
          pushCount 1
          syscall .closeFile) :=
      emits_behind (emits_expr file (accepted file inside)) fun _ =>
        emits_before (emits_plain _ rfl) fun _ => emits_plain _ rfl
    have all := emits_each (fun file => [file]) each
    rw [List.flatMap_singleton'] at all
    exact all

theorem emits_leave (loop : LoopCondition) (exit : Nat) (below : exit < bound)
    (accepted : loop.condition.Accepted context.symbols context.registry) :
    Emits known bound (effectOn context [] [loop.condition] [] []) (leaveUnless context loop exit) := by
  refine emits_behind (emits_expr loop.condition accepted) fun _ => emits_op _ ?_
  split <;> simpa [Op.labels, Target.labels] using below

theorem emits_repeat (loop : LoopCondition) (top : Nat) (below : top < bound)
    (accepted : loop.condition.Accepted context.symbols context.registry) :
    Emits known bound (effectOn context [] [loop.condition] [] []) (repeatIf context loop top) := by
  refine emits_behind (emits_expr loop.condition accepted) fun _ => emits_op _ ?_
  split <;> simpa [Op.labels, Target.labels] using below

theorem emits_call_stmt (name : String) (arguments : List Expr) (locus : Locus)
    (accepted : ∀ expr ∈ arguments, expr.Accepted context.symbols context.registry)
    (callable : context.symbols.Callable context.registry name arguments) :
    Emits known bound (effectOn context [] arguments
      (context.symbols.calledStorage context.registry name arguments)
      (if (context.symbols.procedure? name).isSome then [name] else []))
      (call context name arguments locus) := by
  unfold call SymbolTable.calledStorage
  rcases callable with ⟨entry, found, isSub, -⟩ | ⟨absent, builtin, found, -⟩
  · rw [found]
    have called : Emits known bound (effectOn context [] [] [] [name])
        (do op (.call (.label (← entryLabel name)))) :=
      emits_restate (emits_procedure_call name) (by simp) (by simp)
    have whole := emits_join (emits_sub_arguments (entry.params.map Prod.snd) arguments accepted)
      fun _ => called
    simp only [List.append_nil, List.nil_append] at whole
    refine emits_behind whole fun _ => ?_
    rw [if_neg isSub]
    exact emits_unit ()
  · rw [absent, found]
    exact emits_builtin_sub builtin arguments accepted

def stmtEffect (context : EmitContext) (stmt : Stmt) : Effect :=
  effectOn context stmt.labels stmt.exprs (stmt.targets context.symbols context.registry)
    (stmt.called context.symbols)

def blockEffect (context : EmitContext) (block : Block) : Effect :=
  effectOn context block.labels block.exprs (block.targets context.symbols context.registry)
    (block.called context.symbols)

def armsEffect (context : EmitContext) (branches : Arms) : Effect :=
  effectOn context branches.labels branches.exprs
    (branches.targets context.symbols context.registry) (branches.called context.symbols)

def casesEffect (context : EmitContext) (clauses : Cases) : Effect :=
  effectOn context clauses.labels clauses.exprs
    (clauses.targets context.symbols context.registry) (clauses.called context.symbols)

def Knows (context : EmitContext) (known : List String) : Prop :=
  ∀ name, (context.symbols.label? name).isSome → name ∈ known

theorem knows_label {routine name : String} (knows : Knows context known)
    (found : context.symbols.HasLabel routine name) : name ∈ known := by
  obtain ⟨label, isLabel, -⟩ := found
  exact knows name (by rw [isLabel]; rfl)

theorem emits_jump {id : Nat} (below : id < bound) : Emits known bound .nothing (jump id) :=
  emits_op _ (by simpa [Op.labels, Target.labels] using below)

section Statements

variable {checked : CheckContext} {locus : Locus}

theorem emits_print {file format : Option Expr} {items : List PrintItem} {newline : Bool}
    (registry : checked.registry = context.registry)
    (accepted : (Stmt.print file format items newline).Accepted context.symbols checked) :
    Emits known bound (stmtEffect context (.print file format items newline))
      (Emit.stmt context locus (.print file format items newline)) := by
  simp only [Stmt.Accepted, registry] at accepted
  obtain ⟨fileAccepted, formatAccepted, itemsAccepted⟩ := accepted
  rw [stmtEffect, Stmt.exprs, List.append_assoc]
  exact emits_redirected file fileAccepted (emits_print_items format items newline formatAccepted itemsAccepted)

def EmitsBody (known : List String) (context : EmitContext) (loop : ExitTarget) (bound : Nat) (body : Block) : Prop :=
  ∀ exit, bound ≤ exit → Emits known (exit + 1) (blockEffect (context.inLoop loop exit) body)
    (Emit.block (context.inLoop loop exit) body)

theorem emits_for_loop {counter : String} {first last : Expr} {step : Option Expr} {body : Block}
    {next : Option (String × Locus)} (registry : checked.registry = context.registry)
    (accepted : (Stmt.forLoop counter first last step body next).Accepted context.symbols checked)
    (repeated : EmitsBody known context .forLoop bound body) :
    Emits known bound (stmtEffect context (.forLoop counter first last step body next))
      (Emit.stmt context locus (.forLoop counter first last step body next)) := by
  simp only [Stmt.Accepted, registry] at accepted
  obtain ⟨-, firstAccepted, lastAccepted, stepAccepted, -⟩ := accepted
  have stepped : Emits known bound (effectOn context [] step.toList [] [])
      (match step with
        | some step => value context step
        | none => pushInteger 1) := by
    cases step with
    | some step => exact emits_expr step (stepAccepted step rfl)
    | none => exact emits_still (emits_plain _ rfl)
  refine emits_before (emits_plain _ rfl) fun _ => ?_
  refine emits_join (emits_expr first firstAccepted) fun _ => emits_before (emits_plain _ rfl) fun _ => ?_
  refine emits_before (emits_temporary _) fun lastName => emits_before (emits_temporary _) fun stepName => ?_
  refine emits_join (emits_assign_new lastName .double (emits_expr last lastAccepted)) fun _ => ?_
  refine emits_join (emits_assign_new stepName .double stepped) fun _ => ?_
  refine emits_new_label fun top above => emits_new_label fun exit aboveTop => ?_
  have topBelow : top < exit + 1 := Nat.lt_succ_of_lt aboveTop
  have whole := emits_join_placing (repeated exit (by omega)) fun _ =>
    emits_before (emits_plain (.pushRef counter) rfl) fun _ =>
      emits_before (emits_plain (.pushValue stepName) rfl) fun _ =>
        emits_before (emits_plain .forStep rfl) fun _ =>
          emits_before (emits_jump topBelow) fun _ => emits_place_last exit
  simp only [List.append_nil] at whole
  refine emits_reorder [top, exit] ?_ (.swap _ _ _)
  refine emits_place_first _ fun _ => emits_before (emits_plain _ rfl) fun _ => ?_
  refine emits_before (emits_plain _ rfl) fun _ => emits_before (emits_plain _ rfl) fun _ => ?_
  exact emits_before (emits_op _ (by simp [Op.labels, Target.labels])) fun _ => whole

theorem emits_while_loop {condition : Expr} {body : Block} (registry : checked.registry = context.registry)
    (accepted : (Stmt.whileLoop condition body).Accepted context.symbols checked)
    (repeated : EmitsBody known context .whileLoop bound body) :
    Emits known bound (stmtEffect context (.whileLoop condition body))
      (Emit.stmt context locus (.whileLoop condition body)) := by
  simp only [Stmt.Accepted, registry] at accepted
  refine emits_new_label fun top above => emits_new_label fun exit aboveTop => ?_
  have topBelow : top < exit + 1 := Nat.lt_succ_of_lt aboveTop
  have whole := emits_join_placing (repeated exit (by omega)) fun _ =>
    emits_before (emits_jump topBelow) fun _ => emits_place_last exit
  simp only [List.append_nil] at whole
  refine emits_reorder [top, exit] ?_ (.swap _ _ _)
  refine emits_place_first _ fun _ => emits_join_placing (emits_expr condition accepted.1) fun _ => ?_
  exact emits_before (emits_op _ (by simp [Op.labels, Target.labels])) fun _ => whole

theorem emits_loop_end (context : EmitContext) {after : Option LoopCondition} {top : Nat} (exit : Nat) (below : top < exit + 1)
    (accepted : ∀ loop ∈ after, loop.condition.Accepted context.symbols context.registry) :
    Emits known (exit + 1) (placing [exit] (effectOn context [] (after.toList.map LoopCondition.condition) [] []))
      (do
        match after with
        | some condition => repeatIf context condition top
        | none => jump top
        place exit) := by
  cases after with
  | some loop =>
    exact emits_join_placing (emits_repeat loop top below (accepted loop rfl)) fun _ => emits_place_last exit
  | none => exact emits_before (emits_jump below) fun _ => emits_place_last exit

theorem emits_do_loop {before after : Option LoopCondition} {body : Block}
    (registry : checked.registry = context.registry)
    (accepted : (Stmt.doLoop before body after).Accepted context.symbols checked)
    (repeated : EmitsBody known context .doLoop bound body) :
    Emits known bound (stmtEffect context (.doLoop before body after))
      (Emit.stmt context locus (.doLoop before body after)) := by
  simp only [Stmt.Accepted, registry] at accepted
  obtain ⟨beforeAccepted, -, afterAccepted⟩ := accepted
  refine emits_new_label fun top above => emits_new_label fun exit aboveTop => ?_
  have topBelow : top < exit + 1 := Nat.lt_succ_of_lt aboveTop
  have rest := emits_join_placing (repeated exit (by omega)) fun _ =>
    emits_loop_end context exit topBelow afterAccepted
  simp only [List.append_nil] at rest
  refine emits_reorder [top, exit] ?_ (.swap _ _ _)
  refine emits_place_first _ fun _ => ?_
  cases before with
  | some loop =>
    exact emits_join_placing (emits_leave loop exit (Nat.lt_succ_self exit) (beforeAccepted loop rfl)) fun _ => rest
  | none => exact rest

theorem emits_file_input {file : Expr} {targets : List Expr} {line : Bool}
    (registry : checked.registry = context.registry)
    (accepted : (Stmt.fileInput file targets line).Accepted context.symbols checked) :
    Emits known bound (stmtEffect context (.fileInput file targets line))
      (Emit.stmt context locus (.fileInput file targets line)) := by
  simp only [Stmt.Accepted, registry] at accepted
  obtain ⟨fileAccepted, targetsAccepted, oneTarget⟩ := accepted
  refine emits_join (emits_expr file fileAccepted) fun _ => ?_
  cases line with
  | true =>
    have first : targets.take 1 = targets := List.take_of_length_le (Nat.le_of_eq (oneTarget rfl))
    rw [if_pos rfl, first]
    exact emits_behind (emits_references targets targetsAccepted) fun _ => emits_plain _ rfl
  | false =>
    exact emits_behind (emits_references targets targetsAccepted) fun _ =>
      emits_before (emits_plain _ rfl) fun _ => emits_plain _ rfl

theorem emits_read {targets : List Expr} (registry : checked.registry = context.registry)
    (accepted : (Stmt.read targets).Accepted context.symbols checked) :
    Emits known bound (stmtEffect context (.read targets)) (Emit.stmt context locus (.read targets)) := by
  simp only [Stmt.Accepted, registry] at accepted
  have each (target : Expr) (inside : target ∈ targets) :
      Emits known bound (effectOn context [] [target] [target] []) (do
        reference context target
        op .read) :=
    emits_behind (emits_target target (accepted target inside).1) fun _ => emits_plain _ rfl
  have all := emits_list (fun target => [target]) (fun target => [target]) each
  rwa [List.flatMap_singleton'] at all

theorem emits_restore {label : Option String} (knows : Knows context known)
    (accepted : (Stmt.restore label).Accepted context.symbols checked) :
    Emits known bound (stmtEffect context (.restore label)) (Emit.stmt context locus (.restore label)) := by
  cases label with
  | some name => exact emits_still (emits_named name (knows name (accepted name rfl)) _ fun _ => rfl)
  | none => exact emits_still (emits_plain _ rfl)

end Statements

mutual

theorem emits_stmt (context : EmitContext) (checked : CheckContext) (locus : Locus) (stmt : Stmt)
    (knows : Knows context known) (bound : Nat) (serves : context.Serves checked bound)
    (accepted : stmt.Accepted context.symbols checked) :
    Emits known bound (stmtEffect context stmt) (Emit.stmt context locus stmt) := by
  have registry := serves.registry
  cases stmt with
  | print file format items newline => exact emits_print registry accepted
  | assign target source =>
    simp only [Stmt.Accepted, registry] at accepted
    exact emits_join (emits_target target accepted.1.1) fun _ =>
      emits_behind (emits_expr source accepted.2) fun _ => emits_plain _ rfl
  | dim shared decls =>
    simp only [Stmt.Accepted, registry] at accepted
    exact emits_each (fun decl : VarDecl => if decl.isArray then decl.dimensions.flatMap Dimension.exprs else [])
      fun decl inside => emits_dim_decl decl (accepted decl inside)
  | redim preserve decls =>
    simp only [Stmt.Accepted, registry] at accepted
    exact emits_each (fun decl : VarDecl => decl.dimensions.flatMap Dimension.exprs)
      fun decl inside => emits_redim_decl preserve decl (accepted decl inside)
  | const name source =>
    simp only [Stmt.Accepted, registry] at accepted
    exact emits_assign_new _ _ (emits_expr source accepted.2)
  | cond branches =>
    refine emits_new_label fun done above => ?_
    have chosen := emits_arms context checked done branches knows (done + 1) (serves.higher (Nat.le_succ_of_le above))
      (Nat.lt_succ_self done) accepted
    have whole := emits_join_placing chosen fun _ => emits_place_last done
    simp only [List.append_nil] at whole
    exact whole
  | select test clauses =>
    simp only [Stmt.Accepted, registry] at accepted
    refine emits_before (emits_temporary _) fun tested => ?_
    refine emits_join (emits_assign_new tested .any (emits_expr test accepted.1)) fun _ => ?_
    refine emits_new_label fun done above => ?_
    have chosen := emits_cases context checked tested done clauses knows (done + 1)
      (serves.higher (Nat.le_succ_of_le above)) (Nat.lt_succ_self done) accepted.2
    have whole := emits_join_placing chosen fun _ => emits_place_last done
    simp only [List.append_nil] at whole
    exact whole
  | forLoop counter first last step body next =>
    refine emits_for_loop registry accepted fun exit above => ?_
    exact emits_block (context.inLoop .forLoop exit) (checked.inLoop .forLoop) body knows (exit + 1)
      ((serves.higher (Nat.le_succ_of_le above)).in_loop .forLoop (Nat.lt_succ_self exit)) accepted.2.2.2.2
  | whileLoop condition body =>
    refine emits_while_loop registry accepted fun exit above => ?_
    exact emits_block (context.inLoop .whileLoop exit) (checked.inLoop .whileLoop) body knows (exit + 1)
      ((serves.higher (Nat.le_succ_of_le above)).in_loop .whileLoop (Nat.lt_succ_self exit)) accepted.2
  | doLoop before body after =>
    refine emits_do_loop registry accepted fun exit above => ?_
    exact emits_block (context.inLoop .doLoop exit) (checked.inLoop .doLoop) body knows (exit + 1)
      ((serves.higher (Nat.le_succ_of_le above)).in_loop .doLoop (Nat.lt_succ_self exit)) accepted.2.1
  | goto target | gosub target =>
    exact emits_still (emits_named target (knows_label knows accepted) _ fun _ => rfl)
  | exit target =>
    obtain ⟨id, found, below⟩ := serves.exits target accepted
    rw [Emit.stmt, found]
    exact emits_still (emits_jump below)
  | label name =>
    exact emits_same (emits_label name) ⟨rfl, rfl, .refl _, fun _ => .rfl, by
      simp [stmtEffect, effectOn, effectOf, Effect.nothing, Stmt.exprs, Stmt.targets]⟩
  | call name arguments =>
    simp only [Stmt.Accepted, registry] at accepted
    exact emits_call_stmt name arguments locus accepted.2.1 accepted.2.2
  | input prompt question targets =>
    simp only [Stmt.Accepted, registry] at accepted
    exact emits_before (emits_plain _ rfl) fun _ => emits_behind (emits_references targets accepted) fun _ =>
      emits_before (emits_plain _ rfl) fun _ => emits_plain _ rfl
  | lineInput prompt target =>
    simp only [Stmt.Accepted, registry] at accepted
    exact emits_before (emits_plain _ rfl) fun _ =>
      emits_behind (emits_target target accepted.1) fun _ => emits_plain _ rfl
  | fileInput file targets line => exact emits_file_input registry accepted
  | openFile path mode file =>
    simp only [Stmt.Accepted, registry] at accepted
    exact emits_join (emits_expr path accepted.1) fun _ => emits_before (emits_plain _ rfl) fun _ =>
      emits_behind (emits_expr file accepted.2) fun _ => emits_plain _ rfl
  | close files =>
    simp only [Stmt.Accepted, registry] at accepted
    exact emits_close_files files accepted
  | write file sources =>
    simp only [Stmt.Accepted, registry] at accepted
    exact emits_redirected file accepted.1 (emits_behind (emits_expr_values sources accepted.2)
      fun _ => emits_before (emits_plain _ rfl) fun _ => emits_plain _ rfl)
  | data items => exact emits_still (emits_data _)
  | read targets => exact emits_read registry accepted
  | restore label => exact emits_restore knows accepted
  | onEvent key target =>
    simp only [Stmt.Accepted, registry] at accepted
    exact emits_behind (emits_expr key accepted.1) fun _ =>
      emits_named target (knows_label knows accepted.2) _ fun _ => rfl
  | ret | stop => exact emits_still (emits_plain _ rfl)
  | defType | declare | typeDef | comment => exact emits_still (emits_unit ())

theorem emits_block (context : EmitContext) (checked : CheckContext) (block : Block)
    (knows : Knows context known) (bound : Nat) (serves : context.Serves checked bound)
    (accepted : block.Accepted context.symbols checked) :
    Emits known bound (blockEffect context block) (Emit.block context block) := by
  cases block with
  | nil => exact emits_still (emits_unit ())
  | cons locus head tail =>
    exact emits_before (emits_locus _) fun _ =>
      emits_join (emits_stmt context checked locus head knows bound serves accepted.1) fun _ =>
        emits_block context checked tail knows bound serves accepted.2

theorem emits_arms (context : EmitContext) (checked : CheckContext) (done : Nat) (branches : Arms)
    (knows : Knows context known) (bound : Nat) (serves : context.Serves checked bound)
    (below : done < bound) (accepted : branches.Accepted context.symbols checked) :
    Emits known bound (armsEffect context branches) (Emit.arms context done branches) := by
  cases branches with
  | none => exact emits_still (emits_unit ())
  | otherwise body => exact emits_block context checked.nested body knows bound serves.nested accepted
  | arm condition body rest =>
    simp only [Arms.Accepted, serves.registry] at accepted
    obtain ⟨conditionAccepted, bodyAccepted, restAccepted⟩ := accepted
    refine emits_new_label fun next above => ?_
    have higher := serves.higher (Nat.le_succ_of_le above)
    have doneBelow : done < next + 1 := by omega
    have taken := emits_block context checked.nested body knows (next + 1) higher.nested bodyAccepted
    have others := emits_arms context checked done rest knows (next + 1) higher doneBelow restAccepted
    exact emits_join_placing (emits_expr condition conditionAccepted) fun _ =>
      emits_before (emits_op _ (by simp [Op.labels, Target.labels])) fun _ =>
        emits_join_placing taken fun _ =>
          emits_before (emits_jump doneBelow) fun _ => emits_place_first _ fun _ => others

theorem emits_cases (context : EmitContext) (checked : CheckContext) (tested : String) (done : Nat)
    (clauses : Cases) (knows : Knows context known) (bound : Nat)
    (serves : context.Serves checked bound) (below : done < bound)
    (accepted : clauses.Accepted context.symbols checked) :
    Emits known bound (casesEffect context clauses) (Emit.cases context tested done clauses) := by
  cases clauses with
  | none => exact emits_still (emits_unit ())
  | otherwise body => exact emits_block context checked.nested body knows bound serves.nested accepted
  | clause locus patterns body rest =>
    simp only [Cases.Accepted, serves.registry] at accepted
    obtain ⟨patternsAccepted, bodyAccepted, restAccepted⟩ := accepted
    refine emits_before (emits_locus _) fun _ =>
      emits_new_label fun start above => emits_new_label fun next aboveStart => ?_
    have enough : bound ≤ next + 1 := by omega
    have startBelow : start < next + 1 := Nat.lt_succ_of_lt aboveStart
    have doneBelow : done < next + 1 := by omega
    have higher := serves.higher enough
    have taken := emits_block context checked.nested body knows (next + 1) higher.nested bodyAccepted
    have others :=
      emits_cases context checked tested done rest knows (next + 1) higher doneBelow restAccepted
    refine emits_reorder [start, next] ?_ (.swap _ _ _)
    have whole := emits_join_placing (emits_case_patterns tested start startBelow patterns patternsAccepted)
      fun _ => emits_before (emits_jump (Nat.lt_succ_self next)) fun _ =>
        emits_place_first start fun _ => emits_join_placing taken fun _ =>
          emits_before (emits_jump doneBelow) fun _ => emits_place_first next fun _ => others
    simp only [← List.append_assoc, List.nil_append] at whole
    exact whole

end

end Emit

end BasicLang
