import BasicLang.Proofs.Code.Demand

set_option autoImplicit false

namespace BasicLang

/-- Whether the target of an operation, if it has one, is a label. Only the first value of `DATA` needs none. -/
def Op.isUnlinked (op : Op) : Bool :=
  match op.address?, op.dataPlace? with
  | some (.resolved _), _ => false
  | _, some (.resolved place) => place == 0
  | _, _ => true

namespace Builtin

def texts : List Builtin := [.print, .printZone, .printNewline, .printUsing, .write]

/-- Whether a builtin is neither one that prints items nor the one that selects what is printed to. -/
def isQuiet (builtin : Builtin) : Bool := !(selectOutput :: texts).contains builtin

theorem upper_name (builtin : Builtin) : Text.upperAscii builtin.name = builtin.name := by
  cases builtin <;> decide +kernel

theorem function_quiet {builtin : Builtin} (isFunction : builtin.isFunction = true) : builtin.isQuiet = true := by
  cases builtin <;> first | (cases isFunction; done) | rfl

end Builtin

namespace Op

def runsAny (builtins : List Builtin) : Op → Bool
  | .syscall name => builtins.any (·.name == Text.upperAscii name)
  | _ => false

def isText (op : Op) : Bool := op.runsAny Builtin.texts

def isSelection (op : Op) : Bool := op.runsAny [.selectOutput]

def isInner (op : Op) : Bool :=
  match op with
  | .pushConst _ | .pushValue _ | .pushRef _ | .pushArray _ _ _ => true
  | .binary _ | .negate | .complement | .arrayDeref _ _ | .memberDeref _ _ | .call _ => true
  | .syscall _ => !op.isText && !op.isSelection
  | _ => false

def changed? : Op → Option String
  | .pushRef name | .popParam name _ | .dim name _ | .dimArray name _ _ | .redim name _ _ _ => some name
  | _ => none

/-- Whether an operation is one of these, and the variable that it changes, if there is one, is allowed. -/
def heeds (admits : Op → Bool) (allows : String → Bool) (op : Op) : Bool := admits op && op.changed?.all allows

def setsLetters : Op → Bool
  | .setDefaultType _ _ _ => true
  | _ => false

def bindsParameter : Op → Bool
  | .popParam _ _ => true
  | _ => false

def isStraight (op : Op) : Bool := op.isInner && op.isUnlinked

def isPrinting (op : Op) : Bool := (op.isInner || op.isText) && op.isUnlinked

def isBody (op : Op) : Bool := !op.setsLetters && (!op.bindsParameter && op.isUnlinked)

def isPlain (op : Op) : Bool := (!op.isText && !op.isSelection) && op.isBody

theorem heeds_still {admits : Op → Bool} {allows : String → Bool} {op : Op} (admitted : admits op = true)
    (still : op.changed? = none) : op.heeds admits allows = true := by
  rw [heeds, admitted, still]
  rfl

theorem heeds_named {admits : Op → Bool} {allows : String → Bool} {op : Op} {name : String}
    (admitted : admits op = true)
    (changed : op.changed? = some name) (allowed : allows name = true) : op.heeds admits allows = true := by
  rw [heeds, admitted, changed, Option.all_some, allowed]
  rfl

theorem heeds_weaken {narrow wide : Op → Bool} {allows : String → Bool}
    (view : ∀ op : Op, narrow op = true → wide op = true) (op : Op) (heeds : op.heeds narrow allows = true) :
    op.heeds wide allows = true := by
  obtain ⟨admitted, allowed⟩ := Bool.and_eq_true_iff.mp heeds
  exact Bool.and_eq_true_iff.mpr ⟨view op admitted, allowed⟩

theorem inner_quiet {op : Op} (inner : op.isInner = true) : (!op.isText && !op.isSelection) = true := by
  cases op with
  | syscall name => exact inner
  | _ => rfl

theorem inner_letters {op : Op} (inner : op.isInner = true) : (!op.setsLetters) = true := by
  cases op with
  | setDefaultType first last ty => cases inner
  | _ => rfl

theorem inner_parameter {op : Op} (inner : op.isInner = true) : (!op.bindsParameter) = true := by
  cases op with
  | popParam name ty => cases inner
  | _ => rfl

theorem straight_plain {op : Op} (straight : op.isStraight = true) : op.isPlain = true := by
  obtain ⟨inner, unlinked⟩ := Bool.and_eq_true_iff.mp straight
  rw [isPlain, isBody, inner_quiet inner, inner_letters inner, inner_parameter inner, unlinked]
  rfl

theorem straight_printing {op : Op} (straight : op.isStraight = true) : op.isPrinting = true := by
  obtain ⟨inner, unlinked⟩ := Bool.and_eq_true_iff.mp straight
  rw [isPrinting, inner, unlinked]
  rfl

theorem text_letters {op : Op} (text : op.isText = true) : (!op.setsLetters) = true := by
  cases op with
  | setDefaultType first last ty => cases text
  | _ => rfl

theorem text_parameter {op : Op} (text : op.isText = true) : (!op.bindsParameter) = true := by
  cases op with
  | popParam name ty => cases text
  | _ => rfl

theorem printing_body {op : Op} (printing : op.isPrinting = true) : op.isBody = true := by
  obtain ⟨prints, unlinked⟩ := Bool.and_eq_true_iff.mp printing
  have either := Bool.or_eq_true_iff.mp prints
  rw [isBody, either.elim inner_letters text_letters, either.elim inner_parameter text_parameter, unlinked]
  rfl

theorem plain_body {op : Op} (plain : op.isPlain = true) : op.isBody = true := (Bool.and_eq_true_iff.mp plain).2

theorem body_unlinked {op : Op} (body : op.isBody = true) : op.isUnlinked = true :=
  (Bool.and_eq_true_iff.mp (Bool.and_eq_true_iff.mp body).2).2

theorem body_unbound {op : Op} (body : op.isBody = true) : (!op.bindsParameter) = true :=
  (Bool.and_eq_true_iff.mp (Bool.and_eq_true_iff.mp body).2).1

theorem straight_builtin {builtin : Builtin} (quiet : builtin.isQuiet = true) :
    (Op.syscall builtin.name).isStraight = true := by
  have quietly : ((Builtin.selectOutput :: Builtin.texts).any fun other => other.name == builtin.name) = false := by
    cases builtin <;> first | (cases quiet; done) | decide +kernel
  simp only [List.any_cons, Bool.or_eq_false_iff] at quietly
  simp [isStraight, isInner, isText, isSelection, runsAny, builtin.upper_name, quietly, isUnlinked, address?, dataPlace?]

theorem text_builtin {builtin : Builtin} (text : builtin ∈ Builtin.texts) : (Op.syscall builtin.name).isText = true :=
  List.any_eq_true.mpr ⟨builtin, text, by rw [builtin.upper_name, beq_self_eq_true]⟩

theorem text_selects_not {op : Op} (text : op.isText = true) : op.isSelection = false := by
  cases op with
  | syscall name =>
    obtain ⟨builtin, isText, isName⟩ := List.any_eq_true.mp text
    have other : ∀ builtin ∈ Builtin.texts, Builtin.selectOutput.name ≠ builtin.name := by decide +kernel
    rw [isSelection, runsAny, ← eq_of_beq isName, List.any_cons, List.any_nil, Bool.or_false, beq_eq_false_iff_ne]
    exact other builtin isText
  | _ => rfl

theorem printing_selects_not {op : Op} (printing : op.isPrinting = true) : op.isSelection = false := by
  obtain inner | text := Bool.or_eq_true_iff.mp (Bool.and_eq_true_iff.mp printing).1
  · simpa using (Bool.and_eq_true_iff.mp (inner_quiet inner)).2
  · exact text_selects_not text

theorem selection_builtin : (Op.syscall Builtin.selectOutput.name).isSelection = true := by decide +kernel

theorem printing_builtin {builtin : Builtin} (text : builtin ∈ Builtin.texts) :
    (Op.syscall builtin.name).isPrinting = true := by
  rw [isPrinting, text_builtin text, Bool.or_true]
  rfl

end Op

def Stmt.isMark : Stmt → Bool
  | .label _ | .data _ => true
  | _ => false

def Stmt.isSimple : Stmt → Bool
  | .print _ _ _ _ | .write _ _ | .call _ _ => false
  | .cond _ | .select _ _ | .forLoop _ _ _ _ _ _ | .whileLoop _ _ | .doLoop _ _ _ => false
  | _ => true

namespace Emit

theorem value_function (context : EmitContext) (name : String) (arguments : List Expr)
    (info : ExprInfo) :
    value context (.apply name arguments .function info) =
      match context.symbols.procedure? name with
      | some entry => callProcedure context entry name arguments
      | none => throw (.located (.unresolved name) info.locus) := rfl

theorem value_builtin (context : EmitContext) (name : String) (arguments : List Expr)
    (info : ExprInfo) :
    value context (.apply name arguments .builtin info) =
      match context.registry.function? name with
      | some builtin => callBuiltin context builtin arguments
      | none => throw (.located (.unresolved name) info.locus) := rfl

structure Straight (admits : Op → Bool) (holds : (α : Type) → Emit α → Prop) : Prop where
  unit : ∀ {α : Type} (result : α), holds α (pure result)
  seq : ∀ {α β : Type} (first : Emit α) (next : α → Emit β),
    holds α first → (∀ result, holds β (next result)) → holds β (first >>= next)
  error : ∀ {α : Type} (error : CodeError), holds α (throw error)
  op : ∀ operation, admits operation = true → holds Unit (op operation)
  setLocus : ∀ locus, holds Unit (setLocus locus)
  newLabel : holds Nat newLabel
  namedLabel : ∀ name, holds Nat (namedLabel name)
  entryLabel : ∀ name, holds Nat (entryLabel name)
  temporary : ∀ stem, holds String (temporary stem)

structure Closed (admits : Op → Bool) (holds : (α : Type) → Emit α → Prop) : Prop extends Straight admits holds where
  data : ∀ items : List Value,
    holds Unit (modify fun assembly => { assembly with data := assembly.data ++ items })
  place : ∀ id, holds Unit (place id)

section

variable {holds : (α : Type) → Emit α → Prop} {admits narrow wide : Op → Bool} {allows : String → Bool}

theorem Straight.restrict (straight : Straight wide holds) (view : ∀ op : Op, narrow op = true → wide op = true) :
    Straight narrow holds :=
  { straight with op := fun _ admitted => straight.op _ (view _ admitted) }

theorem Closed.restrict (closed : Closed wide holds) (view : ∀ op : Op, narrow op = true → wide op = true) :
    Closed narrow holds :=
  { closed with op := fun _ admitted => closed.op _ (view _ admitted) }

theorem Straight.any (straight : Straight admits holds) : Straight (Op.heeds admits fun _ => true) holds :=
  straight.restrict fun _ heeds => (Bool.and_eq_true_iff.mp heeds).1

theorem Closed.any (closed : Closed admits holds) : Closed (Op.heeds admits fun _ => true) holds :=
  closed.restrict fun _ heeds => (Bool.and_eq_true_iff.mp heeds).1

theorem Straight.quiet (straight : Straight (Op.heeds Op.isPlain allows) holds) :
    Straight (Op.heeds Op.isStraight allows) holds := straight.restrict (Op.heeds_weaken fun _ => Op.straight_plain)

theorem Straight.inner (straight : Straight (Op.heeds Op.isPrinting allows) holds) :
    Straight (Op.heeds Op.isStraight allows) holds := straight.restrict (Op.heeds_weaken fun _ => Op.straight_printing)

theorem closed_each (closed : Straight admits holds) {α : Type} {items : List α} {emit : α → Emit Unit}
    (each : ∀ item ∈ items, holds Unit (emit item)) : holds Unit (items.forM emit) := by
  induction items with
  | nil => exact closed.unit ()
  | cons head tail ih =>
    exact closed.seq _ _ (each head List.mem_cons_self) fun _ =>
      ih fun item inside => each item (List.mem_cons_of_mem _ inside)

section Expressions

variable {context : EmitContext} (closed : Straight (Op.heeds Op.isStraight allows) holds)

include closed

theorem closed_named_storage (name : String) (ty : Ty) (byRef : Bool) (allowed : byRef = true → allows name = true) :
    holds Unit (namedStorage name ty byRef) := by
  unfold namedStorage
  split
  · exact closed.op _ rfl
  · cases byRef with
    | false => exact closed.op _ rfl
    | true => exact closed.op _ (Op.heeds_named rfl rfl (allowed rfl))

theorem closed_whole_array (name : String) (ty : Ty) : holds Unit (wholeArray name ty) := by
  unfold wholeArray
  split <;> exact closed.op _ rfl

theorem closed_count (count : Nat) : holds Unit (pushCount count) := closed.op _ rfl

theorem closed_syscall {builtin : Builtin} (quiet : builtin.isQuiet = true) : holds Unit (syscall builtin) :=
  closed.op _ (Op.heeds_still (Op.straight_builtin quiet) rfl)

mutual

theorem closed_value (expr : Expr) (heeds : expr.Heeds context.symbols context.registry allows) :
    holds Unit (value context expr) := by
  cases expr with
  | literal literal info => exact closed.op _ rfl
  | «variable» name info => exact closed_named_storage closed _ _ _ nofun
  | apply name arguments callee info =>
    obtain ⟨passed, further⟩ := Expr.rooted_append.mp heeds
    cases callee with
    | element =>
      have pushed := closed_values arguments further
      cases arguments with
      | nil => exact closed_whole_array closed _ _
      | cons first rest =>
        exact closed.seq _ _ (closed.op _ rfl) fun _ => closed.seq _ _ pushed fun _ => closed.op _ rfl
    | function =>
      rw [value_function]
      split
      · next entry found =>
        rw [Expr.passedStorage, found] at passed
        exact closed.seq _ _ (closed_procedure_arguments _ arguments passed further) fun _ =>
          closed.seq _ _ (closed.entryLabel _) fun _ => closed.op _ rfl
      · exact closed.error _
    | builtin =>
      rw [value_builtin]
      split
      · next builtin found =>
        rw [Expr.passedStorage, found] at passed
        have both := List.find?_some found
        have isFunction : builtin.isFunction = true := (Bool.and_eq_true_iff.mp both).1
        have runs := closed_syscall closed (Builtin.function_quiet isFunction)
        refine closed.seq _ _ (closed_builtin_arguments _ arguments passed further) fun _ => ?_
        split
        · exact closed.seq _ _ (closed_count closed _) fun _ => runs
        · exact runs
      · exact closed.error _
    | unresolved => exact closed.error _
  | member object name info =>
    obtain ⟨stored, further⟩ := Expr.rooted_append.mp heeds
    rw [value]
    split
    · next isLvalue =>
      rw [if_pos isLvalue] at stored
      exact closed.seq _ _ (closed_reference object (stored object (List.mem_singleton_self _)) further) fun _ =>
        closed.op _ rfl
    · exact closed.seq _ _ (closed_value object further) fun _ => closed.op _ rfl
  | binary operator left right info =>
    obtain ⟨leftHeeds, rightHeeds⟩ := Expr.rooted_append.mp heeds
    exact closed.seq _ _ (closed_value left leftHeeds) fun _ =>
      closed.seq _ _ (closed_value right rightHeeds) fun _ => closed.op _ rfl
  | unary operator operand info =>
    refine closed.seq _ _ (closed_value operand heeds) fun _ => ?_
    cases operator <;> exact closed.op _ rfl
  | grouped inner info => exact closed_value inner heeds

theorem closed_reference (expr : Expr) (root : expr.rootVariable?.all allows = true)
    (heeds : expr.Heeds context.symbols context.registry allows) : holds Unit (reference context expr) := by
  cases expr with
  | «variable» name info => exact closed_named_storage closed _ _ _ fun _ => root
  | apply name arguments callee info =>
    obtain ⟨-, further⟩ := Expr.rooted_append.mp heeds
    cases callee with
    | element =>
      have pushed := closed_values arguments further
      cases arguments with
      | nil => exact closed_whole_array closed _ _
      | cons first rest =>
        exact closed.seq _ _ (closed.op _ rfl) fun _ => closed.seq _ _ pushed fun _ => closed.op _ rfl
    | _ => exact closed.error _
  | member object name info =>
    obtain ⟨-, further⟩ := Expr.rooted_append.mp heeds
    exact closed.seq _ _ (closed_reference object root further) fun _ => closed.op _ rfl
  | grouped inner info => exact closed_reference inner root heeds
  | _ => exact closed.error _

theorem closed_values (exprs : List Expr)
    (heed : Expr.RootedIn allows (Expr.takenOfAll context.symbols context.registry exprs)) :
    holds Unit (values context exprs) := by
  cases exprs with
  | nil => exact closed.unit ()
  | cons first rest =>
    obtain ⟨firstHeeds, restHeed⟩ := Expr.rooted_append.mp heed
    exact closed.seq _ _ (closed_value first firstHeeds) fun _ => closed_values rest restHeed

theorem closed_procedure_arguments (params : List Ty) (arguments : List Expr)
    (passed : Expr.RootedIn allows (Expr.storageArguments params arguments))
    (heed : Expr.RootedIn allows (Expr.takenOfAll context.symbols context.registry arguments)) :
    holds Unit (procedureArguments context params arguments) := by
  cases arguments with
  | nil => exact closed.unit ()
  | cons first rest =>
    obtain ⟨stored, passedRest⟩ := Expr.rooted_append.mp passed
    obtain ⟨firstHeeds, restHeed⟩ := Expr.rooted_append.mp heed
    have others := closed_procedure_arguments params.tail rest passedRest restHeed
    rw [procedureArguments]
    split
    · next byReference =>
      rw [if_pos byReference] at stored
      exact closed.seq _ _ (closed_reference first (stored first (List.mem_singleton_self _)) firstHeeds) fun _ => others
    · exact closed.seq _ _ (closed_value first firstHeeds) fun _ => others

theorem closed_builtin_arguments (byRef : Bool) (arguments : List Expr)
    (passed : Expr.RootedIn allows (arguments.filter fun argument => byRef && argument.isLvalue))
    (heed : Expr.RootedIn allows (Expr.takenOfAll context.symbols context.registry arguments)) :
    holds Unit (builtinArguments context byRef arguments) := by
  cases arguments with
  | nil => exact closed.unit ()
  | cons first rest =>
    obtain ⟨firstHeeds, restHeed⟩ := Expr.rooted_append.mp heed
    have others := closed_builtin_arguments byRef rest
      (fun stored inside => passed stored ((List.sublist_cons_self first rest).filter _ |>.subset inside)) restHeed
    rw [builtinArguments]
    split
    · next isStored =>
      have root := passed first (List.mem_filter.mpr ⟨List.mem_cons_self, isStored⟩)
      exact closed.seq _ _ (closed_reference first root firstHeeds) fun _ => others
    · exact closed.seq _ _ (closed_value first firstHeeds) fun _ => others

end

theorem closed_references {targets : List Expr} (roots : Expr.RootedIn allows targets)
    (heed : ∀ target ∈ targets, target.Heeds context.symbols context.registry allows) :
    holds Unit (references context targets) :=
  closed_each closed fun target inside => closed_reference closed target (roots target inside) (heed target inside)

theorem closed_call_procedure {entry : ProcedureEntry} (name : String) {arguments : List Expr}
    (passed : Expr.RootedIn allows (Expr.storageArguments (entry.params.map Prod.snd) arguments))
    (heed : Expr.RootedIn allows (Expr.takenOfAll context.symbols context.registry arguments)) :
    holds Unit (callProcedure context entry name arguments) :=
  closed.seq _ _ (closed_procedure_arguments closed _ _ passed heed) fun _ =>
    closed.seq _ _ (closed.entryLabel _) fun _ => closed.op _ rfl

theorem closed_call_builtin {builtin : Builtin} {arguments : List Expr} (runs : holds Unit (syscall builtin))
    (passed : Expr.RootedIn allows (Expr.builtinStorage builtin arguments))
    (heed : Expr.RootedIn allows (Expr.takenOfAll context.symbols context.registry arguments)) :
    holds Unit (callBuiltin context builtin arguments) := by
  refine closed.seq _ _ (closed_builtin_arguments closed _ _ passed heed) fun _ => ?_
  split
  · exact closed.seq _ _ (closed_count closed _) fun _ => runs
  · exact runs

omit closed in
theorem closed_type_of (closed : Straight admits holds) (context : EmitContext) (spec : TypeSpec) (locus : Locus) :
    holds Ty (typeOf context spec locus) := by
  unfold typeOf
  split
  · exact closed.unit _
  · split <;> exact closed.error _

theorem closed_element_type (decl : VarDecl) : holds Ty (elementType context decl) := by
  unfold elementType
  split
  · exact closed_type_of closed _ _ _
  · exact closed.unit _

end Expressions

section Statements

variable {context : EmitContext} (straight : Straight (Op.heeds Op.isPlain allows) holds)

include straight

theorem closed_bounds {dimensions : List Dimension}
    (heed : ∀ expr ∈ dimensions.flatMap Dimension.exprs, expr.Heeds context.symbols context.registry allows) :
    holds Unit (bounds context dimensions) := by
  refine closed_each straight fun dimension inside => ?_
  have heeds (expr : Expr) (isBound : expr ∈ dimension.exprs) : holds Unit (value context expr) :=
    closed_value straight.quiet _ (heed expr (List.mem_flatMap.mpr ⟨dimension, inside, isBound⟩))
  have last := heeds dimension.upper (by simp [Dimension.exprs])
  cases given : dimension.lower with
  | some low => exact straight.seq _ _ (heeds low (by simp [Dimension.exprs, given])) fun _ => last
  | none => exact straight.seq _ _ (straight.op _ rfl) fun _ => last

theorem closed_dim_decl {decl : VarDecl} (allowed : allows decl.name = true)
    (heed : ∀ expr ∈ if decl.isArray then decl.dimensions.flatMap Dimension.exprs else [],
      expr.Heeds context.symbols context.registry allows) : holds Unit (dimDecl context decl) := by
  refine straight.seq _ _ (straight.setLocus _) fun _ =>
    straight.seq _ _ (closed_element_type straight.quiet _) fun element => ?_
  split
  · exact straight.op _ (Op.heeds_named rfl rfl allowed)
  · next isArray =>
    rw [if_pos (by simpa using isArray)] at heed
    split
    · exact straight.op _ (Op.heeds_named rfl rfl allowed)
    · exact straight.seq _ _ (closed_bounds straight heed) fun _ => straight.op _ (Op.heeds_named rfl rfl allowed)

theorem closed_redim_decl {preserve : Bool} {decl : VarDecl} (allowed : allows decl.name = true)
    (heed : ∀ expr ∈ decl.dimensions.flatMap Dimension.exprs, expr.Heeds context.symbols context.registry allows) :
    holds Unit (redimDecl context preserve decl) :=
  straight.seq _ _ (straight.setLocus _) fun _ => straight.seq _ _ (closed_bounds straight heed) fun _ =>
    straight.seq _ _ (closed_element_type straight.quiet _) fun _ => straight.op _ (Op.heeds_named rfl rfl allowed)

theorem closed_assign_new {name : String} {ty : Ty} {push : Emit Unit} (allowed : allows name = true)
    (pushes : holds Unit push) : holds Unit (assignNew name ty push) :=
  straight.seq _ _ (straight.op _ (Op.heeds_named rfl rfl allowed)) fun _ =>
    straight.seq _ _ (straight.op _ (Op.heeds_named rfl rfl allowed)) fun _ =>
    straight.seq _ _ pushes fun _ => straight.op _ rfl

theorem closed_case_match {tested : String} {pattern : CaseMatch}
    (heed : ∀ expr ∈ pattern.exprs, expr.Heeds context.symbols context.registry allows) :
    holds Unit (caseMatch context tested pattern) := by
  have compares (operator : BinaryOperator) (wanted : Expr) (inside : wanted ∈ pattern.exprs) :
      holds Unit (caseMatch.compare context tested operator wanted) :=
    straight.seq _ _ (straight.op _ rfl) fun _ =>
      straight.seq _ _ (closed_value straight.quiet wanted (heed wanted inside)) fun _ => straight.op _ rfl
  cases pattern with
  | single wanted => exact compares _ wanted (by simp [CaseMatch.exprs])
  | range first last =>
    exact straight.seq _ _ (compares _ first (by simp [CaseMatch.exprs])) fun _ =>
      straight.seq _ _ (compares _ last (by simp [CaseMatch.exprs])) fun _ => straight.op _ rfl
  | comparison operator wanted => exact compares _ wanted (by simp [CaseMatch.exprs])

theorem closed_case_patterns (tested : String) (body : Nat) {patterns : List CaseMatch}
    (heed : ∀ expr ∈ patterns.flatMap CaseMatch.exprs, expr.Heeds context.symbols context.registry allows) :
    holds Unit (casePatterns context tested body patterns) :=
  closed_each straight fun pattern inside => straight.seq _ _
    (closed_case_match straight fun expr isWanted => heed expr (List.mem_flatMap.mpr ⟨pattern, inside, isWanted⟩))
    fun _ => straight.op _ rfl

theorem closed_close_files {files : List Expr}
    (heed : ∀ file ∈ files, file.Heeds context.symbols context.registry allows) :
    holds Unit (closeFiles context files) := by
  unfold closeFiles
  split
  · exact straight.seq _ _ (closed_count straight.quiet _) fun _ => closed_syscall straight.quiet rfl
  · exact closed_each straight fun file inside =>
      straight.seq _ _ (closed_value straight.quiet file (heed file inside)) fun _ =>
        straight.seq _ _ (closed_count straight.quiet _) fun _ => closed_syscall straight.quiet rfl

theorem closed_leave_unless {condition : LoopCondition} (exit : Nat)
    (heeds : condition.condition.Heeds context.symbols context.registry allows) :
    holds Unit (leaveUnless context condition exit) := by
  refine straight.seq _ _ (closed_value straight.quiet _ heeds) fun _ => ?_
  cases condition.isWhile <;> exact straight.op _ rfl

theorem closed_repeat_if {condition : LoopCondition} (top : Nat)
    (heeds : condition.condition.Heeds context.symbols context.registry allows) :
    holds Unit (repeatIf context condition top) := by
  refine straight.seq _ _ (closed_value straight.quiet _ heeds) fun _ => ?_
  cases condition.isWhile <;> exact straight.op _ rfl

theorem closed_call {name : String} {arguments : List Expr} {locus : Locus}
    (heeds : (Stmt.call name arguments).Heeds context.symbols context.registry allows)
    (runs : ∀ builtin, context.registry.sub? name = some builtin → holds Unit (syscall builtin)) :
    holds Unit (call context name arguments locus) := by
  obtain ⟨passed, heed, -⟩ := heeds
  simp only [Stmt.targets, SymbolTable.calledStorage] at passed
  have further := Expr.all_heed heed
  unfold call
  split
  · next entry found =>
    simp only [found] at passed
    refine straight.seq _ _ (closed_call_procedure straight.quiet name passed further) fun _ => ?_
    split
    · exact straight.op _ rfl
    · exact straight.unit ()
  · next absent =>
    simp only [absent] at passed
    split
    · next builtin found =>
      simp only [found] at passed
      exact closed_call_builtin straight.quiet (runs builtin found) passed further
    · exact straight.error _

theorem straight_simple (locus : Locus) (stmt : Stmt) (simple : stmt.isSimple = true) (unmarked : stmt.isMark = false)
    (heeds : stmt.Heeds context.symbols context.registry allows)
    (constant : ∀ name source, stmt = .const name source → allows name = true) :
    holds Unit (Emit.stmt context locus stmt) := by
  obtain ⟨roots, heed, names⟩ := heeds
  have pushes (expr : Expr) (inside : expr ∈ stmt.exprs) : holds Unit (value context expr) :=
    closed_value straight.quiet expr (heed expr inside)
  cases stmt with
  | data _ | label _ => cases unmarked
  | print _ _ _ _ | write _ _ | call _ _ => cases simple
  | cond _ | select _ _ | forLoop _ _ _ _ _ _ | whileLoop _ _ | doLoop _ _ _ => cases simple
  | assign target source =>
    exact straight.seq _ _ (closed_reference straight.quiet target (roots target List.mem_cons_self)
      (heed target List.mem_cons_self)) fun _ => straight.seq _ _ (pushes source (by simp [Stmt.exprs])) fun _ =>
      straight.op _ rfl
  | dim shared decls =>
    exact closed_each straight fun decl inside => closed_dim_decl straight (names _ (List.mem_map_of_mem inside))
      fun expr isBound => heed expr (List.mem_flatMap.mpr ⟨decl, inside, isBound⟩)
  | redim preserve decls =>
    exact closed_each straight fun decl inside => closed_redim_decl straight (names _ (List.mem_map_of_mem inside))
      fun expr isBound => heed expr (List.mem_flatMap.mpr ⟨decl, inside, isBound⟩)
  | const name source => exact closed_assign_new straight (constant name source rfl) (pushes source List.mem_cons_self)
  | goto target => exact straight.seq _ _ (straight.namedLabel _) fun _ => straight.op _ rfl
  | gosub target => exact straight.seq _ _ (straight.namedLabel _) fun _ => straight.op _ rfl
  | ret => exact straight.op _ rfl
  | exit target =>
    rw [Emit.stmt]
    split
    · exact straight.op _ rfl
    · exact straight.error _
  | stop => exact straight.op _ rfl
  | declare kind name params returns => exact straight.unit ()
  | input prompt question targets =>
    exact straight.seq _ _ (straight.op _ rfl) fun _ => straight.seq _ _ (closed_references straight.quiet roots heed)
      fun _ => straight.seq _ _ (closed_count straight.quiet _) fun _ => closed_syscall straight.quiet rfl
  | lineInput prompt target =>
    exact straight.seq _ _ (straight.op _ rfl) fun _ => straight.seq _ _ (closed_reference straight.quiet target
      (roots target List.mem_cons_self) (heed target List.mem_cons_self)) fun _ => closed_syscall straight.quiet rfl
  | fileInput file targets line =>
    have read (listed : List Expr) (less : listed ⊆ targets) : holds Unit (references context listed) :=
      closed_references straight.quiet (fun target inside => roots target (less inside))
        fun target inside => heed target (List.mem_cons_of_mem _ (less inside))
    rw [Emit.stmt]
    refine straight.seq _ _ (pushes file List.mem_cons_self) fun _ => ?_
    split
    · exact straight.seq _ _ (read _ (List.take_subset _ _)) fun _ => closed_syscall straight.quiet rfl
    · exact straight.seq _ _ (read _ (List.Subset.refl _)) fun _ =>
        straight.seq _ _ (closed_count straight.quiet _) fun _ => closed_syscall straight.quiet rfl
  | openFile path mode file =>
    exact straight.seq _ _ (pushes path List.mem_cons_self) fun _ => straight.seq _ _ (straight.op _ rfl) fun _ =>
      straight.seq _ _ (pushes file (by simp [Stmt.exprs])) fun _ => closed_syscall straight.quiet rfl
  | close files => exact closed_close_files straight heed
  | read targets =>
    exact closed_each straight fun target inside => straight.seq _ _
      (closed_reference straight.quiet target (roots target inside) (heed target inside)) fun _ => straight.op _ rfl
  | restore label =>
    cases label with
    | none => exact straight.op _ rfl
    | some name => exact straight.seq _ _ (straight.namedLabel _) fun _ => straight.op _ rfl
  | typeDef name members => exact straight.unit ()
  | defType spec ranges => exact straight.unit ()
  | onEvent key target =>
    exact straight.seq _ _ (pushes key List.mem_cons_self) fun _ =>
      straight.seq _ _ (straight.namedLabel _) fun _ => straight.op _ rfl
  | comment text => exact straight.unit ()

end Statements

theorem closed_simple {context : EmitContext} (closed : Closed (Op.heeds Op.isPlain allows) holds) (locus : Locus)
    (stmt : Stmt) (simple : stmt.isSimple = true) (heeds : stmt.Heeds context.symbols context.registry allows)
    (constant : ∀ name source, stmt = .const name source → allows name = true) :
    holds Unit (Emit.stmt context locus stmt) := by
  cases unmarked : stmt.isMark with
  | false => exact straight_simple closed.toStraight locus stmt simple unmarked heeds constant
  | true =>
    cases stmt with
    | data items => exact closed.data _
    | label name => exact closed.seq _ _ (closed.namedLabel _) fun _ => closed.place _
    | _ => cases unmarked

section Printing

variable {context : EmitContext} (straight : Straight (Op.heeds Op.isPrinting allows) holds)

include straight

theorem closed_text {builtin : Builtin} (text : builtin ∈ Builtin.texts) : holds Unit (syscall builtin) :=
  straight.op _ (Op.heeds_still (Op.printing_builtin text) rfl)

theorem closed_print_items {file format : Option Expr} {items : List PrintItem} {newline : Bool}
    (heeds : (Stmt.print file format items newline).Heeds context.symbols context.registry allows) :
    holds Unit (printItems context format items newline) := by
  obtain ⟨-, heed, -⟩ := heeds
  have pushes (expr : Expr) (inside : expr ∈ format.toList ++ items.map PrintItem.expr) : holds Unit (value context expr) :=
    closed_value straight.inner expr (heed expr (by rw [Stmt.exprs, List.append_assoc]; exact List.mem_append_right _ inside))
  have last : holds Unit (if newline then syscall .printNewline else pure ()) := by
    split
    · exact closed_text straight (by decide)
    · exact straight.unit ()
  cases format with
  | none =>
    refine straight.seq _ _ (closed_each straight fun item inside => ?_) fun _ => last
    refine straight.seq _ _ (pushes item.expr (List.mem_map_of_mem inside)) fun _ =>
      straight.seq _ _ (closed_text straight (by decide)) fun _ => ?_
    split
    · exact closed_text straight (by decide)
    · exact straight.unit ()
  | some template =>
    have listed : holds Unit (values context (items.map PrintItem.expr)) :=
      closed_values straight.inner _ (Expr.all_heed fun expr inside => heed expr (List.mem_append_right _ inside))
    exact straight.seq _ _ (pushes template List.mem_cons_self) fun _ => straight.seq _ _ listed fun _ =>
      straight.seq _ _ (closed_count straight.inner _) fun _ =>
        straight.seq _ _ (closed_text straight (by decide)) fun _ => last

theorem closed_write_items {file : Option Expr} {sources : List Expr}
    (heeds : (Stmt.write file sources).Heeds context.symbols context.registry allows) :
    holds Unit (do
      values context sources
      pushCount sources.length
      syscall .write) :=
  straight.seq _ _ (closed_values straight.inner _
    (Expr.all_heed fun expr inside => heeds.exprs expr (List.mem_append_right _ inside))) fun _ =>
    straight.seq _ _ (closed_count straight.inner _) fun _ => closed_text straight (by decide)

end Printing

theorem closed_redirected {context : EmitContext} {file : Option Expr} {write : Emit Unit}
    (straight : Straight (Op.heeds Op.isBody allows) holds)
    (heed : ∀ expr ∈ file, expr.Heeds context.symbols context.registry allows) (writes : holds Unit write) :
    holds Unit (redirected context file write) := by
  have quiet : Straight (Op.heeds Op.isPlain allows) holds := straight.restrict (Op.heeds_weaken fun _ => Op.plain_body)
  cases file with
  | none => exact writes
  | some file =>
    exact straight.seq _ _ (straight.seq _ _ (closed_value quiet.quiet file (heed file rfl)) fun _ => straight.op _ rfl)
      fun _ => straight.seq _ _ writes fun _ => straight.seq _ _ (straight.op _ rfl) fun _ => straight.op _ rfl

end

end Emit

end BasicLang
