import BasicLang.Proofs.Code.Depth

set_option autoImplicit false

namespace BasicLang

mutual

def Stmt.itemCounts : Stmt → List Nat
  | .print _ format items _ => if format.isSome then [items.length] else []
  | .write _ sources => [sources.length]
  | .input _ _ targets => [targets.length]
  | .fileInput _ targets _ => [targets.length]
  | .cond arms => arms.itemCounts
  | .select _ cases => cases.itemCounts
  | .forLoop _ _ _ _ body _ => body.itemCounts
  | .whileLoop _ body => body.itemCounts
  | .doLoop _ body _ => body.itemCounts
  | _ => []

def Block.itemCounts : Block → List Nat
  | .nil => []
  | .cons _ head tail => head.itemCounts ++ tail.itemCounts

def Arms.itemCounts : Arms → List Nat
  | .none => []
  | .otherwise body => body.itemCounts
  | .arm _ body rest => body.itemCounts ++ rest.itemCounts

def Cases.itemCounts : Cases → List Nat
  | .none => []
  | .otherwise body => body.itemCounts
  | .clause _ _ body rest => body.itemCounts ++ rest.itemCounts

end

def Program.itemCounts (program : Program) : List Nat :=
  program.routines.flatMap fun routine => routine.body.itemCounts

def mostItems : Nat := 32767

structure EmitContext.Stays (context : EmitContext) (checked : CheckContext) (site : Site) (given : List Nat) :
    Prop where
  registry : checked.registry = context.registry
  exits : ∀ target id, context.exitLabel? target = some id → id ∈ given
  names : ∀ name, context.symbols.HasLabel checked.routine name → name ∈ site.names

namespace EmitContext.Stays

variable {context : EmitContext} {checked : CheckContext} {site : Site} {given more : List Nat}

theorem nested (stays : context.Stays checked site given) : context.Stays checked.nested site given :=
  ⟨stays.registry, stays.exits, stays.names⟩

theorem extend (stays : context.Stays checked site given) (less : given ⊆ more) : context.Stays checked site more :=
  ⟨stays.registry, fun target id found => less (stays.exits target id found), stays.names⟩

theorem in_loop (stays : context.Stays checked site given) (loop : LoopKind) {exit : Nat} (isGiven : exit ∈ given) :
    (context.inLoop loop.exit exit).Stays (checked.inLoop loop) site given := by
  refine ⟨stays.registry, fun target id found => ?_, stays.names⟩
  by_cases same : target = loop.exit
  · have isExit : id = exit := by
      subst same
      cases loop <;> exact (Option.some.inj found).symm
    rw [isExit]
    exact isGiven
  · refine stays.exits target id ?_
    have different : (target == loop.exit) = false := by simpa using same
    cases target <;>
      simpa [EmitContext.exitLabel?, EmitContext.inLoop, List.lookup_cons, different] using found

end EmitContext.Stays

namespace Emit

section Simple

variable {context : EmitContext} {site : Site} {given : List Nat} {old : Nat}

theorem lays_all_values (exprs : List Expr)
    (accepted : ∀ expr ∈ exprs, expr.Accepted context.symbols context.registry) (old : Nat) :
    Lays context.symbols site given old (values context exprs) (old + exprs.length) :=
  lays_values exprs ((Expr.all_accepted_iff _ _ _).mpr accepted) old

theorem lays_references (targets : List Expr)
    (accepted : ∀ target ∈ targets, target.Stored context.symbols context.registry) (old : Nat) :
    Lays context.symbols site given old (references context targets) (old + targets.length) := by
  have each := lays_each 1 (fun target (inside : target ∈ targets) old =>
    (lays_reference target (accepted target inside).1 old : Lays context.symbols site given old _ _)) old
  rwa [Nat.mul_one] at each

theorem lays_bounds (dimensions : List Dimension)
    (accepted : ∀ dimension ∈ dimensions, dimension.Accepted context.symbols context.registry) (old : Nat) :
    Lays context.symbols site given old (bounds context dimensions) (old + dimensions.length * 2) := by
  refine lays_each 2 (fun dimension inside old => ?_) old
  obtain ⟨lowerAccepted, upperAccepted⟩ := accepted dimension inside
  obtain ⟨lower, upper⟩ := dimension
  cases lower with
  | some lower =>
    exact lays_seq (lays_value lower (lowerAccepted lower rfl) old) fun _ => lays_value upper upperAccepted (old + 1)
  | none => exact lays_seq (lays_integer 0) fun _ => lays_value upper upperAccepted (old + 1)

theorem lays_type (spec : TypeSpec) (locus : Locus) :
    Lays context.symbols site given old (typeOf context spec locus) old := by
  unfold typeOf
  split
  · exact lays_unit _
  · split <;> exact lays_error _

theorem lays_element_type (decl : VarDecl) :
    Lays context.symbols site given old (elementType context decl) old := by
  unfold elementType
  split
  · exact lays_type _ _
  · exact lays_unit _

theorem lays_dim_decl (decl : VarDecl) (accepted : decl.Accepted context.symbols context.registry) :
    Lays context.symbols site given 0 (dimDecl context decl) 0 := by
  refine lays_seq (lays_locus _) fun _ => lays_seq (lays_element_type decl) fun element => ?_
  cases isArray : decl.isArray with
  | false => exact lays_still _ (fun _ => rfl) rfl rfl
  | true =>
    cases dimensions : decl.dimensions with
    | nil => exact lays_still _ (fun _ => rfl) rfl rfl
    | cons first rest =>
      refine lays_seq (lays_bounds _ (dimensions ▸ accepted.2.2 isArray) 0) fun _ => ?_
      exact lays_at _ (fun _ => rfl) rfl rfl (by simp) (by simp)

theorem lays_redim_decl (preserve : Bool) (decl : VarDecl)
    (accepted : decl.Resized context.symbols context.registry) :
    Lays context.symbols site given 0 (redimDecl context preserve decl) 0 := by
  refine lays_seq (lays_locus _) fun _ => lays_seq (lays_bounds _ accepted.2.2 0) fun _ => ?_
  refine lays_seq (lays_element_type decl) fun element => ?_
  exact lays_at _ (fun _ => rfl) rfl rfl (by simp) (by simp)

theorem lays_assign_new {push : Emit Unit} (name : String) (ty : Ty)
    (pushed : Lays context.symbols site given 1 push 2) :
    Lays context.symbols site given 0 (assignNew name ty push) 0 := by
  refine lays_seq (lays_still _ (fun _ => rfl) rfl rfl) fun _ => lays_seq (lays_push _ (fun _ => rfl) rfl rfl) fun _ => ?_
  exact lays_seq pushed fun _ => lays_at _ (fun _ => rfl) rfl rfl (by decide) rfl

theorem lays_compare (tested : String) (operator : BinaryOperator) (wanted : Expr)
    (accepted : wanted.Accepted context.symbols context.registry) (old : Nat) :
    Lays context.symbols site given old (caseMatch.compare context tested operator wanted) (old + 1) :=
  lays_seq (lays_push _ (fun _ => rfl) rfl rfl) fun _ => lays_seq (lays_value wanted accepted (old + 1)) fun _ =>
    lays_at _ (fun _ => rfl) rfl rfl (Nat.le_add_left 2 old) (by omega)

theorem lays_case_match (tested : String) (pattern : CaseMatch)
    (accepted : pattern.Accepted context.symbols context.registry) :
    Lays context.symbols site given 0 (caseMatch context tested pattern) 1 := by
  cases pattern with
  | single wanted => exact lays_compare _ _ _ accepted 0
  | range first last =>
    exact lays_seq (lays_compare _ _ _ accepted.1 0) fun _ => lays_seq (lays_compare _ _ _ accepted.2 1) fun _ =>
      lays_at _ (fun _ => rfl) rfl rfl (by decide) rfl
  | comparison operator wanted => exact lays_compare _ _ _ accepted 0

theorem lays_all {α : Type} {items : List α} {emit : α → Emit Unit}
    (each : ∀ item ∈ items, Lays context.symbols site given 0 (emit item) 0) :
    Lays context.symbols site given 0 (items.forM emit) 0 := by
  induction items with
  | nil => exact lays_unit ()
  | cons head tail ih =>
    exact lays_seq (each head List.mem_cons_self) fun _ => ih fun item inside => each item (List.mem_cons_of_mem _ inside)

theorem lays_case_patterns (tested : String) {body : Nat} (isGiven : body ∈ given) (patterns : List CaseMatch)
    (accepted : ∀ pattern ∈ patterns, pattern.Accepted context.symbols context.registry) :
    Lays context.symbols site given 0 (casePatterns context tested body patterns) 0 :=
  lays_all fun pattern inside => lays_seq (lays_case_match tested pattern (accepted pattern inside)) fun _ =>
    lays_jump_op _ isGiven (fun _ => rfl) rfl

theorem lays_redirected {write : Emit Unit} (file : Option Expr)
    (accepted : ∀ expr ∈ file, expr.Accepted context.symbols context.registry)
    (written : Lays context.symbols site given 0 write 0) :
    Lays context.symbols site given 0 (redirected context file write) 0 := by
  have select : Lays context.symbols site given 1 (syscall .selectOutput) 0 := lays_syscall rfl (by decide) rfl
  cases file with
  | none => exact written
  | some file =>
    exact lays_seq (lays_seq (lays_value file (accepted file rfl) 0) fun _ => select) fun _ =>
      lays_seq written fun _ => lays_seq (lays_integer 0) fun _ => select

theorem lays_print_items (format : Option Expr) (items : List PrintItem) (newline : Bool)
    (few : site.small → format.isSome = true → items.length ≤ mostItems)
    (formatAccepted : ∀ expr ∈ format, expr.Accepted context.symbols context.registry)
    (accepted : ∀ item ∈ items, item.expr.Accepted context.symbols context.registry) :
    Lays context.symbols site given 0 (printItems context format items newline) 0 := by
  have ending : Lays context.symbols site given 0 (if newline then syscall .printNewline else pure () : Emit Unit) 0 := by
    split
    · exact lays_syscall rfl (by decide) rfl
    · exact lays_unit ()
  cases format with
  | some template =>
    have eachAccepted : ∀ expr ∈ items.map PrintItem.expr, expr.Accepted context.symbols context.registry := by
      simpa using accepted
    have counted : Lays context.symbols site given (1 + (items.map PrintItem.expr).length)
        (do pushCount items.length; syscall .printUsing) 0 :=
      lays_variadic (fun small => few small rfl) rfl (by simp [Builtin.arity, Builtin.signature, Signature.sub]) rfl
    refine lays_seq (lays_value template (formatAccepted template rfl) 0) fun _ => ?_
    refine lays_seq (lays_all_values _ eachAccepted 1) fun _ => ?_
    have whole := lays_seq counted fun _ => ending
    rw [bind_assoc] at whole
    exact whole
  | none =>
    refine lays_seq (lays_all fun item inside => ?_) fun _ => ending
    refine lays_seq (lays_value item.expr (accepted item inside) 0) fun _ => ?_
    refine lays_seq (lays_syscall rfl (by decide) rfl) fun _ => ?_
    split
    · exact lays_syscall rfl (by decide) rfl
    · exact lays_unit ()

theorem lays_close_files (files : List Expr)
    (accepted : ∀ file ∈ files, file.Accepted context.symbols context.registry) :
    Lays context.symbols site given 0 (closeFiles context files) 0 := by
  have closes (count : Nat) (few : count ≤ 32767) :
      Lays context.symbols site given count (do pushCount count; syscall .closeFile) 0 := by
    have counted := (lays_counted (fun _ => few) rfl : Lays context.symbols site given (0 + count)
      (do pushCount count; syscall .closeFile) (0 + 0))
    rwa [Nat.zero_add] at counted
  cases files with
  | nil => exact closes 0 (by decide)
  | cons first rest =>
    exact lays_all fun file inside => lays_seq (lays_value file (accepted file inside) 0) fun _ => closes 1 (by decide)

theorem lays_leave (loop : LoopCondition) {exit : Nat} (isGiven : exit ∈ given)
    (accepted : loop.condition.Accepted context.symbols context.registry) :
    Lays context.symbols site given 0 (leaveUnless context loop exit) 0 := by
  refine lays_seq (lays_value loop.condition accepted 0) fun _ => ?_
  split <;> exact lays_jump_op _ isGiven (fun _ => rfl) rfl

theorem lays_repeat (loop : LoopCondition) {top : Nat} (isGiven : top ∈ given)
    (accepted : loop.condition.Accepted context.symbols context.registry) :
    Lays context.symbols site given 0 (repeatIf context loop top) 0 := by
  refine lays_seq (lays_value loop.condition accepted 0) fun _ => ?_
  split <;> exact lays_jump_op _ isGiven (fun _ => rfl) rfl

theorem lays_call_stmt {name : String} {arguments : List Expr} (locus : Locus) (named : SourceName name)
    (accepted : ∀ expr ∈ arguments, expr.Accepted context.symbols context.registry)
    (callable : context.symbols.Callable context.registry name arguments) :
    Lays context.symbols site given 0 (call context name arguments locus) 0 := by
  have all := (Expr.all_accepted_iff _ _ _).mpr accepted
  unfold call
  rcases callable with ⟨entry, found, isSub, -, takes⟩ | ⟨absent, builtin, found, takes, -⟩
  · rw [found]
    refine lays_seq (lays_procedure_call found takes (lays_procedure_arguments _ arguments all 0)) fun _ => ?_
    rw [if_neg isSub, ProcedureEntry.stackUse, if_neg isSub]
    exact lays_unit ()
  · obtain ⟨isSub, notVariadic⟩ := Registry.sub_passing named found
    rw [absent, found]
    refine lays_restate (lays_builtin_call notVariadic takes (lays_builtin_arguments _ arguments all 0)) ?_
    simp [Builtin.results, isSub]

theorem lays_input {builtin : Builtin} {first : Emit Unit} {targets : List Expr} (few : site.small → targets.length ≤ mostItems)
    (isVariadic : builtin.passing = .variadic) (one : builtin.arity = 1) (isSub : builtin.results = 0)
    (lays : Lays context.symbols site given 0 first 1)
    (accepted : ∀ target ∈ targets, target.Stored context.symbols context.registry) :
    Lays context.symbols site given 0 (do
      first
      references context targets
      pushCount targets.length
      syscall builtin) 0 := by
  refine lays_seq lays fun _ => lays_seq (lays_references targets accepted 1) fun _ => ?_
  exact lays_variadic few isVariadic (by rw [one]) isSub

theorem lays_read {targets : List Expr}
    (accepted : ∀ target ∈ targets, target.Stored context.symbols context.registry) :
    Lays context.symbols site given 0 (targets.forM fun target => do
      reference context target
      op .read) 0 :=
  lays_all fun target inside => lays_seq (lays_reference target (accepted target inside).1 0) fun _ =>
    lays_at _ (fun _ => rfl) rfl rfl (by decide) rfl

theorem lays_file_input {file : Expr} {targets : List Expr} (line : Bool) (few : site.small → targets.length ≤ mostItems)
    (fileAccepted : file.Accepted context.symbols context.registry)
    (accepted : ∀ target ∈ targets, target.Stored context.symbols context.registry)
    (single : line = true → targets.length = 1) (locus : Locus) :
    Lays context.symbols site given 0 (Emit.stmt context locus (.fileInput file targets line)) 0 := by
  cases line with
  | false => exact lays_input few rfl rfl rfl (lays_value file fileAccepted 0) accepted
  | true =>
    refine lays_seq (lays_value file fileAccepted 0) fun _ => ?_
    refine lays_seq (lays_references (targets.take 1) (fun target inside => ?_) 1) fun _ => ?_
    · exact accepted target (List.mem_of_mem_take inside)
    · rw [List.take_of_length_le (Nat.le_of_eq (single rfl)), single rfl]
      exact lays_syscall rfl (by decide) rfl

theorem lays_on_event {key : Expr} (accepted : key.Accepted context.symbols context.registry) {target : String}
    (isOwn : target ∈ site.names) :
    Lays context.symbols site given 0 (do
      value context key
      op (.onEvent (.label (← namedLabel target)))) 0 :=
  lays_seq (lays_value key accepted 0) fun _ => lays_own_named isOwn fun _ =>
    lays_jump_op _ List.mem_cons_self (fun _ => rfl) rfl

theorem lays_restore (label : Option String) (locus : Locus) :
    Lays context.symbols site given 0 (Emit.stmt context locus (.restore label)) 0 := by
  cases label with
  | none => exact lays_still _ (fun _ => rfl) rfl rfl
  | some name => exact lays_seq (lays_named name) fun _ => lays_still _ (fun _ => rfl) rfl rfl

theorem lays_write {file : Option Expr} {sources : List Expr} (few : site.small → sources.length ≤ mostItems)
    (fileAccepted : ∀ expr ∈ file, expr.Accepted context.symbols context.registry)
    (accepted : ∀ source ∈ sources, source.Accepted context.symbols context.registry) :
    Lays context.symbols site given 0 (redirected context file do
      values context sources
      pushCount sources.length
      syscall .write) 0 := by
  refine lays_redirected file fileAccepted (lays_seq (lays_all_values sources accepted 0) fun _ => ?_)
  exact lays_variadic few rfl rfl rfl

end Simple

section Places

variable {symbols : SymbolTable} {site : Site} {given : List Nat} {noted : List (Nat × Stmt)} {old between : Nat}
  {α : Type}

def emptyAt (places : List (Nat × Stmt)) : List (Nat × Nat) := places.map fun place => (place.1, 0)

def Notes (symbols : SymbolTable) (site : Site) (given : List Nat) (noted : List (Nat × Stmt)) (old : Nat)
    (emit : Emit (List (Nat × Stmt))) : Prop :=
  ∀ known, Reaches (Assembly.Laid symbols site given (emptyAt noted ++ known) old) emit
    fun places => Assembly.Laid symbols site given (emptyAt places ++ known) 0

theorem notes_return {places : List (Nat × Stmt)} (less : places ⊆ noted) :
    Notes symbols site given noted 0 (pure places) := by
  intro known assembly result later laid ran
  cases ran
  refine laid.weaken (List.Subset.refl _) fun mark inside => ?_
  rcases List.mem_append.mp inside with isPlace | isKnown
  · exact List.mem_append_left _ (List.map_subset _ less isPlace)
  · exact List.mem_append_right _ isKnown

theorem notes_seq {first : Emit α} {next : α → Emit (List (Nat × Stmt))}
    (lays : Lays symbols site given old first between)
    (rest : ∀ value, Notes symbols site given noted between (next value)) :
    Notes symbols site given noted old (first >>= next) :=
  fun known => reaches_seq (lays _) fun value => rest value known

theorem notes_simple {emit : Emit Unit} (lays : Lays symbols site given old emit 0) :
    Notes symbols site given [] old (do emit; return []) :=
  notes_seq lays fun _ => notes_return (List.Subset.refl _)

theorem notes_inner {inner : Emit (List (Nat × Stmt))} {next : List (Nat × Stmt) → Emit (List (Nat × Stmt))}
    (notes : Notes symbols site given [] old inner)
    (rest : ∀ places, Notes symbols site given (noted ++ places) 0 (next places)) :
    Notes symbols site given noted old (inner >>= next) := by
  refine fun known => reaches_seq (notes (emptyAt noted ++ known)) fun places =>
    reaches_weaken (rest places known) (fun assembly laid => ?_)
    fun _ _ laid => laid
  refine laid.weaken (List.Subset.refl _) fun mark inside => ?_
  simp only [emptyAt, List.map_append, List.mem_append] at inside ⊢
  grind

theorem notes_size (stmt : Stmt) {next : Nat → Emit (List (Nat × Stmt))}
    (rest : ∀ start, Notes symbols site given ((start, stmt) :: noted) 0 (next start)) :
    Notes symbols site given noted 0 (size >>= next) := by
  intro known assembly result later laid ran
  exact rest _ known assembly result later laid.mark ran

theorem notes_new_label {next : Nat → Emit (List (Nat × Stmt))}
    (rest : ∀ id, Notes symbols site (id :: given) noted old (next id)) :
    Notes symbols site given noted old (newLabel >>= next) := by
  intro known assembly result later laid ran
  have started : newLabel.run assembly = .ok (assembly.labels.size, (assembly.newLabel none).2) := rfl
  rw [run_ok started] at ran
  have laidLast := rest assembly.labels.size known _ result later (Assembly.Laid.new_label laid) ran
  exact laidLast.weaken (List.subset_cons_self _ _) (List.Subset.refl _)

end Places

section Statements

variable {site : Site} {context : EmitContext} {checked : CheckContext} {given : List Nat}

theorem lays_print {file format : Option Expr} {items : List PrintItem} {newline : Bool} (locus : Locus)
    (registry : checked.registry = context.registry)
    (few : site.small → ∀ count ∈ (Stmt.print file format items newline).itemCounts, count ≤ mostItems)
    (accepted : (Stmt.print file format items newline).Accepted context.symbols checked) :
    Lays context.symbols site given 0 (Emit.stmt context locus (.print file format items newline)) 0 := by
  obtain ⟨fileAccepted, formatAccepted, itemsAccepted⟩ := accepted
  rw [registry] at fileAccepted formatAccepted itemsAccepted
  refine lays_redirected file fileAccepted ?_
  refine lays_print_items format items newline (fun small isUsing => few small _ ?_) formatAccepted itemsAccepted
  simp [Stmt.itemCounts, isUsing]

theorem lays_assign {target source : Expr} (locus : Locus) (registry : checked.registry = context.registry)
    (accepted : (Stmt.assign target source).Accepted context.symbols checked) :
    Lays context.symbols site given 0 (Emit.stmt context locus (.assign target source)) 0 := by
  obtain ⟨targetAccepted, sourceAccepted⟩ := accepted
  rw [registry] at targetAccepted sourceAccepted
  refine lays_seq (lays_reference target targetAccepted.1 0) fun _ => ?_
  exact lays_seq (lays_value source sourceAccepted 1) fun _ => lays_at _ (fun _ => rfl) rfl rfl (by decide) rfl

theorem lays_open_file {path file : Expr} {mode : FileMode} (locus : Locus)
    (registry : checked.registry = context.registry)
    (accepted : (Stmt.openFile path mode file).Accepted context.symbols checked) :
    Lays context.symbols site given 0 (Emit.stmt context locus (.openFile path mode file)) 0 := by
  obtain ⟨pathAccepted, fileAccepted⟩ := accepted
  rw [registry] at pathAccepted fileAccepted
  refine lays_seq (lays_value path pathAccepted 0) fun _ => lays_seq (lays_integer _) fun _ => ?_
  exact lays_seq (lays_value file fileAccepted 2) fun _ => lays_syscall rfl (by decide) rfl

theorem lays_exit (target : ExitTarget) (locus : Locus) (stays : context.Stays checked site given) :
    Lays context.symbols site given 0 (Emit.stmt context locus (.exit target)) 0 := by
  rw [Emit.stmt]
  split
  · next id isExit => exact lays_jump (stays.exits target id isExit)
  · exact lays_error _

theorem lays_leaf {stmt : Stmt} (locus : Locus) (leaf : stmt.isCompound = false)
    (stays : context.Stays checked site given) (few : site.small → ∀ count ∈ stmt.itemCounts, count ≤ mostItems)
    (accepted : stmt.Accepted context.symbols checked) :
    Lays context.symbols site given 0 (Emit.stmt context locus stmt) 0 := by
  have registry := stays.registry
  cases stmt with
  | print file format items newline => exact lays_print locus registry few accepted
  | assign target source => exact lays_assign locus registry accepted
  | dim shared decls => exact lays_all fun decl inside => lays_dim_decl decl (registry ▸ accepted decl inside)
  | redim preserve decls =>
    exact lays_all fun decl inside => lays_redim_decl preserve decl (registry ▸ accepted decl inside)
  | const name source => exact lays_assign_new name _ (lays_value source (registry ▸ accepted.2) 1)
  | goto target => exact lays_own_named (stays.names target accepted) fun _ => lays_jump List.mem_cons_self
  | gosub target =>
    exact lays_own_named (stays.names target accepted) fun id =>
      lays_jump_op (.gosub (.label id)) List.mem_cons_self (fun _ => rfl) rfl
  | ret | stop => exact lays_end _ (fun _ => rfl) rfl rfl
  | exit target => exact lays_exit target locus stays
  | label name => exact lays_label name
  | call name arguments =>
    obtain ⟨named, argumentsAccepted, callable⟩ := accepted
    rw [registry] at argumentsAccepted callable
    exact lays_call_stmt locus named argumentsAccepted callable
  | input prompt question targets =>
    refine lays_input (fun small => few small _ List.mem_cons_self) rfl rfl rfl (lays_push _ (fun _ => rfl) rfl rfl) ?_
    exact registry ▸ accepted
  | lineInput prompt target =>
    refine lays_seq (lays_push _ (fun _ => rfl) rfl rfl) fun _ => ?_
    exact lays_seq (lays_reference target (registry ▸ accepted.1) 1) fun _ => lays_syscall rfl (by decide) rfl
  | fileInput file targets line =>
    obtain ⟨fileAccepted, targetsAccepted, single⟩ := accepted
    rw [registry] at fileAccepted targetsAccepted
    exact lays_file_input line (fun small => few small _ List.mem_cons_self) fileAccepted targetsAccepted single locus
  | openFile path mode file => exact lays_open_file locus registry accepted
  | close files => exact lays_close_files files (registry ▸ accepted)
  | write file sources =>
    obtain ⟨fileAccepted, sourcesAccepted⟩ := accepted
    rw [registry] at fileAccepted sourcesAccepted
    exact lays_write (fun small => few small _ List.mem_cons_self) fileAccepted sourcesAccepted
  | data items => exact lays_data _
  | read targets => exact lays_read (registry ▸ accepted)
  | restore label => exact lays_restore label locus
  | onEvent key target => exact lays_on_event (registry ▸ accepted.1) (stays.names target accepted.2)
  | defType | declare | typeDef | comment => exact lays_unit ()
  | cond | select | forLoop | whileLoop | doLoop => cases leaf

theorem leaf_places_nothing {stmt : Stmt} (locus : Locus) (leaf : stmt.isCompound = false) :
    stmtPlaces context locus stmt = (do Emit.stmt context locus stmt; return []) := by
  cases stmt <;> first | rfl | cases leaf

def NotesBody (site : Site) (context : EmitContext) (loop : ExitTarget) (given : List Nat) (body : Block) : Prop :=
  ∀ top exit, Notes context.symbols site (exit :: top :: given) [] 0 (blockPlaces (context.inLoop loop exit) body)

theorem notes_end {places : List (Nat × Stmt)} {id : Nat} (isGiven : id ∈ given) :
    Notes context.symbols site given places 0 (do place id; return places) :=
  notes_seq (lays_place isGiven) fun _ => notes_return (List.Subset.refl _)

theorem notes_for_loop {counter : String} {first last : Expr} {step : Option Expr} {body : Block}
    {next : Option (String × Locus)} (locus : Locus) (registry : checked.registry = context.registry)
    (accepted : (Stmt.forLoop counter first last step body next).Accepted context.symbols checked)
    (inner : NotesBody site context .forLoop given body) :
    Notes context.symbols site given [] 0 (stmtPlaces context locus (.forLoop counter first last step body next)) := by
  obtain ⟨-, firstAccepted, lastAccepted, stepAccepted, -⟩ := accepted
  rw [registry] at firstAccepted lastAccepted stepAccepted
  refine notes_seq (lays_push _ (fun _ => rfl) rfl rfl) fun _ => ?_
  refine notes_seq (lays_value first firstAccepted 1) fun _ => ?_
  refine notes_seq (lays_at _ (fun _ => rfl) rfl rfl (by decide) rfl) fun _ => ?_
  refine notes_seq (lays_temporary _) fun lastName => notes_seq (lays_temporary _) fun stepName => ?_
  refine notes_seq (lays_assign_new lastName .double (lays_value last lastAccepted 1)) fun _ => ?_
  refine notes_seq (lays_assign_new stepName .double (?_ : Lays _ _ _ 1 _ 2)) fun _ => ?_
  · cases step with
    | some step => exact lays_value step (stepAccepted step rfl) 1
    | none => exact lays_integer 1
  refine notes_new_label fun top => notes_new_label fun exit => ?_
  have isTop : top ∈ exit :: top :: given := List.mem_cons_of_mem _ List.mem_cons_self
  refine notes_seq (lays_place isTop) fun _ => ?_
  refine notes_seq (lays_push _ (fun _ => rfl) rfl rfl) fun _ => ?_
  refine notes_seq (lays_push _ (fun _ => rfl) rfl rfl) fun _ => ?_
  refine notes_seq (lays_push _ (fun _ => rfl) rfl rfl) fun _ => ?_
  refine notes_seq (lays_jump_op _ List.mem_cons_self (fun _ => rfl) rfl) fun _ => ?_
  refine notes_inner (inner top exit) fun places => ?_
  refine notes_seq (lays_push _ (fun _ => rfl) rfl rfl) fun _ => ?_
  refine notes_seq (lays_push _ (fun _ => rfl) rfl rfl) fun _ => ?_
  refine notes_seq (lays_at _ (fun _ => rfl) rfl rfl (by decide) rfl) fun _ => ?_
  exact notes_seq (lays_jump isTop) fun _ => notes_end List.mem_cons_self

theorem notes_while_loop {condition : Expr} {body : Block} (locus : Locus)
    (registry : checked.registry = context.registry)
    (accepted : (Stmt.whileLoop condition body).Accepted context.symbols checked)
    (inner : NotesBody site context .whileLoop given body) :
    Notes context.symbols site given [] 0 (stmtPlaces context locus (.whileLoop condition body)) := by
  obtain ⟨conditionAccepted, -⟩ := accepted
  rw [registry] at conditionAccepted
  refine notes_new_label fun top => notes_new_label fun exit => ?_
  have isTop : top ∈ exit :: top :: given := List.mem_cons_of_mem _ List.mem_cons_self
  refine notes_seq (lays_place isTop) fun _ => ?_
  refine notes_seq (lays_value condition conditionAccepted 0) fun _ => ?_
  refine notes_seq (lays_jump_op _ List.mem_cons_self (fun _ => rfl) rfl) fun _ => ?_
  refine notes_inner (inner top exit) fun places => ?_
  exact notes_seq (lays_jump isTop) fun _ => notes_end List.mem_cons_self

theorem notes_loop_end (context : EmitContext) {after : Option LoopCondition} {top exit : Nat}
    {inner : Emit (List (Nat × Stmt))} (notes : Notes context.symbols site given [] 0 inner) (isExit : exit ∈ given)
    (isTop : top ∈ given) (accepted : ∀ loop ∈ after, loop.condition.Accepted context.symbols context.registry) :
    Notes context.symbols site given [] 0 (do
      let places ← inner
      match after with
      | some condition => repeatIf context condition top
      | none => jump top
      place exit
      return places) := by
  refine notes_inner notes fun places => ?_
  cases after with
  | some condition => exact notes_seq (lays_repeat condition isTop (accepted condition rfl)) fun _ => notes_end isExit
  | none => exact notes_seq (lays_jump isTop) fun _ => notes_end isExit

theorem notes_do_loop {before after : Option LoopCondition} {body : Block} (locus : Locus)
    (registry : checked.registry = context.registry)
    (accepted : (Stmt.doLoop before body after).Accepted context.symbols checked)
    (inner : NotesBody site context .doLoop given body) :
    Notes context.symbols site given [] 0 (stmtPlaces context locus (.doLoop before body after)) := by
  obtain ⟨beforeAccepted, -, afterAccepted⟩ := accepted
  rw [registry] at beforeAccepted afterAccepted
  refine notes_new_label fun top => notes_new_label fun exit => ?_
  have isTop : top ∈ exit :: top :: given := List.mem_cons_of_mem _ List.mem_cons_self
  have rest := notes_loop_end context (inner top exit) List.mem_cons_self isTop afterAccepted
  refine notes_seq (lays_place isTop) fun _ => ?_
  cases before with
  | some condition => exact notes_seq (lays_leave condition List.mem_cons_self (beforeAccepted condition rfl)) fun _ => rest
  | none => exact rest

mutual

theorem notes_stmt (context : EmitContext) (checked : CheckContext) (given : List Nat) (locus : Locus) (stmt : Stmt)
    (stays : context.Stays checked site given) (few : site.small → ∀ count ∈ stmt.itemCounts, count ≤ mostItems)
    (accepted : stmt.Accepted context.symbols checked) :
    Notes context.symbols site given [] 0 (stmtPlaces context locus stmt) := by
  have registry := stays.registry
  have more (top exit : Nat) : given ⊆ exit :: top :: given :=
    fun _ inside => List.mem_cons_of_mem _ (List.mem_cons_of_mem _ inside)
  cases stmt with
  | cond branches =>
    refine notes_new_label fun done => ?_
    have inner := notes_arms context checked (done :: given) done branches (stays.extend (List.subset_cons_self _ _))
      List.mem_cons_self few accepted
    exact notes_inner inner fun places => notes_end List.mem_cons_self
  | select test clauses =>
    obtain ⟨testAccepted, clausesAccepted⟩ := accepted
    rw [registry] at testAccepted
    refine notes_seq (lays_temporary _) fun tested => ?_
    refine notes_seq (lays_assign_new tested .any (lays_value test testAccepted 1)) fun _ => ?_
    refine notes_new_label fun done => ?_
    have inner := notes_cases context checked (done :: given) tested done clauses
      (stays.extend (List.subset_cons_self _ _)) List.mem_cons_self few clausesAccepted
    exact notes_inner inner fun places => notes_end List.mem_cons_self
  | forLoop counter first last step body next =>
    refine notes_for_loop locus registry accepted fun top exit => ?_
    exact notes_block (context.inLoop .forLoop exit) (checked.inLoop .forLoop) (exit :: top :: given) body
      ((stays.extend (more top exit)).in_loop .forLoop List.mem_cons_self) few accepted.2.2.2.2
  | whileLoop condition body =>
    refine notes_while_loop locus registry accepted fun top exit => ?_
    exact notes_block (context.inLoop .whileLoop exit) (checked.inLoop .whileLoop) (exit :: top :: given) body
      ((stays.extend (more top exit)).in_loop .whileLoop List.mem_cons_self) few accepted.2
  | doLoop before body after =>
    refine notes_do_loop locus registry accepted fun top exit => ?_
    exact notes_block (context.inLoop .doLoop exit) (checked.inLoop .doLoop) (exit :: top :: given) body
      ((stays.extend (more top exit)).in_loop .doLoop List.mem_cons_self) few accepted.2.1
  | _ =>
    rw [leaf_places_nothing locus rfl]
    exact notes_simple (lays_leaf locus rfl stays few accepted)

theorem notes_block (context : EmitContext) (checked : CheckContext) (given : List Nat) (block : Block)
    (stays : context.Stays checked site given) (few : site.small → ∀ count ∈ block.itemCounts, count ≤ mostItems)
    (accepted : block.Accepted context.symbols checked) :
    Notes context.symbols site given [] 0 (blockPlaces context block) := by
  cases block with
  | nil => exact notes_return (List.Subset.refl _)
  | cons locus head tail =>
    have headFew := fun small => (List.forall_mem_append.mp (few small)).1
    have tailFew := fun small => (List.forall_mem_append.mp (few small)).2
    have first := notes_stmt context checked given locus head stays headFew accepted.1
    have rest := notes_block context checked given tail stays tailFew accepted.2
    refine notes_seq (lays_locus locus) fun _ => notes_size head fun start => ?_
    exact notes_inner first fun inner => notes_inner rest fun others => notes_return (List.Subset.refl _)

theorem notes_arms (context : EmitContext) (checked : CheckContext) (given : List Nat) (done : Nat) (branches : Arms)
    (stays : context.Stays checked site given) (isGiven : done ∈ given)
    (few : site.small → ∀ count ∈ branches.itemCounts, count ≤ mostItems)
    (accepted : branches.Accepted context.symbols checked) :
    Notes context.symbols site given [] 0 (armsPlaces context done branches) := by
  cases branches with
  | none => exact notes_return (List.Subset.refl _)
  | otherwise body => exact notes_block context checked.nested given body stays.nested few accepted
  | arm condition body rest =>
    have bodyFew := fun small => (List.forall_mem_append.mp (few small)).1
    have restFew := fun small => (List.forall_mem_append.mp (few small)).2
    obtain ⟨conditionAccepted, bodyAccepted, restAccepted⟩ := accepted
    rw [stays.registry] at conditionAccepted
    refine notes_new_label fun next => ?_
    have stays := stays.extend (List.subset_cons_self next given)
    have isDone : done ∈ next :: given := List.mem_cons_of_mem _ isGiven
    have inner := notes_block context checked.nested _ body stays.nested bodyFew bodyAccepted
    have others := notes_arms context checked _ done rest stays isDone restFew restAccepted
    refine notes_seq (lays_value condition conditionAccepted 0) fun _ => ?_
    refine notes_seq (lays_jump_op _ List.mem_cons_self (fun _ => rfl) rfl) fun _ => ?_
    refine notes_inner inner fun places => ?_
    refine notes_seq (lays_jump isDone) fun _ => notes_seq (lays_place List.mem_cons_self) fun _ => ?_
    exact notes_inner others fun _ => notes_return (List.Subset.refl _)

theorem notes_cases (context : EmitContext) (checked : CheckContext) (given : List Nat) (tested : String) (done : Nat)
    (clauses : Cases) (stays : context.Stays checked site given) (isGiven : done ∈ given)
    (few : site.small → ∀ count ∈ clauses.itemCounts, count ≤ mostItems) (accepted : clauses.Accepted context.symbols checked) :
    Notes context.symbols site given [] 0 (casesPlaces context tested done clauses) := by
  cases clauses with
  | none => exact notes_return (List.Subset.refl _)
  | otherwise body => exact notes_block context checked.nested given body stays.nested few accepted
  | clause locus patterns body rest =>
    have bodyFew := fun small => (List.forall_mem_append.mp (few small)).1
    have restFew := fun small => (List.forall_mem_append.mp (few small)).2
    obtain ⟨patternsAccepted, bodyAccepted, restAccepted⟩ := accepted
    rw [stays.registry] at patternsAccepted
    refine notes_seq (lays_locus locus) fun _ => notes_new_label fun start => notes_new_label fun next => ?_
    have more : given ⊆ next :: start :: given := fun _ inside => List.mem_cons_of_mem _ (List.mem_cons_of_mem _ inside)
    have isStart : start ∈ next :: start :: given := List.mem_cons_of_mem _ List.mem_cons_self
    have stays := stays.extend more
    have inner := notes_block context checked.nested _ body stays.nested bodyFew bodyAccepted
    have others := notes_cases context checked _ tested done rest stays (more isGiven) restFew restAccepted
    refine notes_seq (lays_case_patterns tested isStart patterns patternsAccepted) fun _ => ?_
    refine notes_seq (lays_jump List.mem_cons_self) fun _ => notes_seq (lays_place isStart) fun _ => ?_
    refine notes_inner inner fun places => ?_
    refine notes_seq (lays_jump (more isGiven)) fun _ => notes_seq (lays_place List.mem_cons_self) fun _ => ?_
    exact notes_inner others fun _ => notes_return (List.Subset.refl _)

end

end Statements

end Emit

end BasicLang
