import BasicLang.Code.Program

set_option autoImplicit false

namespace BasicLang

namespace Expr

/-- Storage that has a place: a variable, an element, or a member of such storage. -/
def isStorage : Expr → Bool
  | .variable _ _ => true
  | .apply _ _ callee _ => callee == .element
  | .member object _ _ => object.isStorage
  | .grouped inner _ => inner.isStorage
  | _ => false

def rootVariable? : Expr → Option String
  | .variable name _ => some name
  | .member object _ _ => object.rootVariable?
  | .grouped inner _ => inner.rootVariable?
  | _ => none

def RootedIn (allows : String → Bool) (exprs : List Expr) : Prop :=
  ∀ expr ∈ exprs, expr.rootVariable?.all allows = true

instance (allows : String → Bool) (exprs : List Expr) : Decidable (RootedIn allows exprs) :=
  inferInstanceAs (Decidable (∀ expr ∈ exprs, _))

mutual

def calls : Expr → List String
  | .apply name arguments callee _ =>
    callsOfAll arguments ++ if callee = .function then [name] else []
  | .member object _ _ => object.calls
  | .binary _ left right _ => left.calls ++ right.calls
  | .unary _ operand _ => operand.calls
  | .grouped inner _ => inner.calls
  | .literal _ _ => []
  | .variable _ _ => []

def callsOfAll : List Expr → List String
  | [] => []
  | first :: rest => first.calls ++ callsOfAll rest

end

def storageArguments : List Ty → List Expr → List Expr
  | _, [] => []
  | params, first :: rest =>
    (if first.isPassedByReference params.head? then [first] else []) ++
      storageArguments params.tail rest

def builtinStorage (builtin : Builtin) (arguments : List Expr) : List Expr :=
  arguments.filter fun argument => builtin.signature.byReference && argument.isLvalue

def passedStorage (symbols : SymbolTable) (registry : Registry) (name : String)
    (arguments : List Expr) : Callee → List Expr
  | .function =>
    match symbols.procedure? name with
    | some entry => storageArguments (entry.params.map Prod.snd) arguments
    | none => []
  | .builtin =>
    match registry.function? name with
    | some builtin => builtinStorage builtin arguments
    | none => []
  | _ => []

mutual

/-- The parts of an expression that are taken as storage when its value is pushed. -/
def taken (symbols : SymbolTable) (registry : Registry) : Expr → List Expr
  | .apply name arguments callee _ =>
    passedStorage symbols registry name arguments callee ++ takenOfAll symbols registry arguments
  | .member object _ _ =>
    (if object.isLvalue then [object] else []) ++ object.taken symbols registry
  | .binary _ left right _ => left.taken symbols registry ++ right.taken symbols registry
  | .unary _ operand _ => operand.taken symbols registry
  | .grouped inner _ => inner.taken symbols registry
  | .literal _ _ => []
  | .variable _ _ => []

def takenOfAll (symbols : SymbolTable) (registry : Registry) : List Expr → List Expr
  | [] => []
  | first :: rest => first.taken symbols registry ++ takenOfAll symbols registry rest

end

theorem calls_of_all (exprs : List Expr) : callsOfAll exprs = exprs.flatMap calls := by
  induction exprs with
  | nil => rfl
  | cons first rest ih => rw [callsOfAll, ih, List.flatMap_cons]

theorem taken_of_all (symbols : SymbolTable) (registry : Registry) (exprs : List Expr) :
    takenOfAll symbols registry exprs = exprs.flatMap (taken symbols registry) := by
  induction exprs with
  | nil => rfl
  | cons first rest ih => rw [takenOfAll, ih, List.flatMap_cons]

def Heeds (symbols : SymbolTable) (registry : Registry) (allows : String → Bool) (expr : Expr) : Prop :=
  RootedIn allows (expr.taken symbols registry)

section Roots

variable {symbols : SymbolTable} {registry : Registry} {allows : String → Bool}

theorem rooted_nil : RootedIn allows [] := fun _ inside => absurd inside List.not_mem_nil

theorem rooted_append {left right : List Expr} :
    RootedIn allows (left ++ right) ↔ RootedIn allows left ∧ RootedIn allows right := List.forall_mem_append

theorem rooted_anywhere (exprs : List Expr) : RootedIn (fun _ => true) exprs := by
  intro expr _
  cases expr.rootVariable? <;> rfl

theorem all_heed {exprs : List Expr} (heed : ∀ expr ∈ exprs, expr.Heeds symbols registry allows) :
    RootedIn allows (takenOfAll symbols registry exprs) := by
  rw [taken_of_all]
  intro expr inside
  obtain ⟨source, isSource, isTaken⟩ := List.mem_flatMap.mp inside
  exact heed source isSource expr isTaken

end Roots

end Expr

def Dimension.exprs (dimension : Dimension) : List Expr :=
  dimension.lower.toList ++ [dimension.upper]

def CaseMatch.exprs : CaseMatch → List Expr
  | .single value => [value]
  | .range first last => [first, last]
  | .comparison _ value => [value]

mutual

def Stmt.exprs : Stmt → List Expr
  | .print file format items _ => file.toList ++ format.toList ++ items.map PrintItem.expr
  | .assign target value => [target, value]
  | .dim _ decls =>
    decls.flatMap fun decl => if decl.isArray then decl.dimensions.flatMap Dimension.exprs else []
  | .redim _ decls => decls.flatMap fun decl => decl.dimensions.flatMap Dimension.exprs
  | .const _ value => [value]
  | .cond arms => arms.exprs
  | .select test cases => test :: cases.exprs
  | .forLoop _ first last step body _ => first :: last :: (step.toList ++ body.exprs)
  | .whileLoop condition body => condition :: body.exprs
  | .doLoop before body after =>
    before.toList.map LoopCondition.condition ++ body.exprs ++
      after.toList.map LoopCondition.condition
  | .call _ arguments => arguments
  | .input _ _ targets => targets
  | .lineInput _ target => [target]
  | .fileInput file targets _ => file :: targets
  | .openFile path _ file => [path, file]
  | .close files => files
  | .write file values => file.toList ++ values
  | .read targets => targets
  | .onEvent key _ => [key]
  | _ => []

def Block.exprs : Block → List Expr
  | .nil => []
  | .cons _ head tail => head.exprs ++ tail.exprs

def Arms.exprs : Arms → List Expr
  | .none => []
  | .otherwise body => body.exprs
  | .arm condition body rest => condition :: (body.exprs ++ rest.exprs)

def Cases.exprs : Cases → List Expr
  | .none => []
  | .otherwise body => body.exprs
  | .clause _ patterns body rest => patterns.flatMap CaseMatch.exprs ++ body.exprs ++ rest.exprs

end

def SymbolTable.calledStorage (symbols : SymbolTable) (registry : Registry) (name : String)
    (arguments : List Expr) : List Expr :=
  match symbols.procedure? name with
  | some entry => Expr.storageArguments (entry.params.map Prod.snd) arguments
  | none =>
    match registry.sub? name with
    | some builtin => Expr.builtinStorage builtin arguments
    | none => []

mutual

/-- The expressions that a statement takes as storage itself: it assigns to them, reads into them or
passes them on. -/
def Stmt.targets (symbols : SymbolTable) (registry : Registry) : Stmt → List Expr
  | .assign target _ => [target]
  | .call name arguments => symbols.calledStorage registry name arguments
  | .input _ _ targets => targets
  | .lineInput _ target => [target]
  | .fileInput _ targets _ => targets
  | .read targets => targets
  | .cond arms => arms.targets symbols registry
  | .select _ cases => cases.targets symbols registry
  | .forLoop _ _ _ _ body _ => body.targets symbols registry
  | .whileLoop _ body => body.targets symbols registry
  | .doLoop _ body _ => body.targets symbols registry
  | _ => []

def Block.targets (symbols : SymbolTable) (registry : Registry) : Block → List Expr
  | .nil => []
  | .cons _ head tail => head.targets symbols registry ++ tail.targets symbols registry

def Arms.targets (symbols : SymbolTable) (registry : Registry) : Arms → List Expr
  | .none => []
  | .otherwise body => body.targets symbols registry
  | .arm _ body rest => body.targets symbols registry ++ rest.targets symbols registry

def Cases.targets (symbols : SymbolTable) (registry : Registry) : Cases → List Expr
  | .none => []
  | .otherwise body => body.targets symbols registry
  | .clause _ _ body rest => body.targets symbols registry ++ rest.targets symbols registry

end

mutual

/-- The names that a statement declares, sizes or counts with. Those of constants are not among them. -/
def Stmt.introduced : Stmt → List String
  | .dim _ decls => decls.map VarDecl.name
  | .redim _ decls => decls.map VarDecl.name
  | .cond arms => arms.introduced
  | .select _ cases => cases.introduced
  | .forLoop counter _ _ _ body _ => counter :: body.introduced
  | .whileLoop _ body => body.introduced
  | .doLoop _ body _ => body.introduced
  | _ => []

def Block.introduced : Block → List String
  | .nil => []
  | .cons _ head tail => head.introduced ++ tail.introduced

def Arms.introduced : Arms → List String
  | .none => []
  | .otherwise body => body.introduced
  | .arm _ body rest => body.introduced ++ rest.introduced

def Cases.introduced : Cases → List String
  | .none => []
  | .otherwise body => body.introduced
  | .clause _ _ body rest => body.introduced ++ rest.introduced

end

/-- The storage, the expressions and the names of a part of a program have to do with allowed variables only. -/
structure Heeds (symbols : SymbolTable) (registry : Registry) (allows : String → Bool) (targets exprs : List Expr)
    (names : List String) : Prop where
  targets : Expr.RootedIn allows targets
  exprs : ∀ expr ∈ exprs, expr.Heeds symbols registry allows
  names : ∀ name ∈ names, allows name = true

section Heeds

variable {symbols : SymbolTable} {registry : Registry} {allows : String → Bool} {targets exprs : List Expr}
  {names : List String}

theorem heeds_anything : Heeds symbols registry (fun _ => true) targets exprs names where
  targets := Expr.rooted_anywhere targets
  exprs _ _ := Expr.rooted_anywhere _
  names _ _ := rfl

theorem heeds_append {others more : List Expr} {further : List String} :
    Heeds symbols registry allows (targets ++ others) (exprs ++ more) (names ++ further) ↔
      Heeds symbols registry allows targets exprs names ∧ Heeds symbols registry allows others more further := by
  constructor
  · rintro ⟨stores, computes, named⟩
    obtain ⟨storesFirst, storesLast⟩ := Expr.rooted_append.mp stores
    obtain ⟨computesFirst, computesLast⟩ := List.forall_mem_append.mp computes
    obtain ⟨namedFirst, namedLast⟩ := List.forall_mem_append.mp named
    exact ⟨⟨storesFirst, computesFirst, namedFirst⟩, ⟨storesLast, computesLast, namedLast⟩⟩
  · rintro ⟨first, last⟩
    exact ⟨Expr.rooted_append.mpr ⟨first.targets, last.targets⟩, List.forall_mem_append.mpr ⟨first.exprs, last.exprs⟩,
      List.forall_mem_append.mpr ⟨first.names, last.names⟩⟩

theorem heeds_exprs {more : List Expr} : Heeds symbols registry allows targets (more ++ exprs) names ↔
    (∀ expr ∈ more, expr.Heeds symbols registry allows) ∧ Heeds symbols registry allows targets exprs names := by
  constructor
  · rintro ⟨stores, computes, named⟩
    obtain ⟨computesFirst, computesLast⟩ := List.forall_mem_append.mp computes
    exact ⟨computesFirst, stores, computesLast, named⟩
  · rintro ⟨first, last⟩
    exact ⟨last.targets, List.forall_mem_append.mpr ⟨first, last.exprs⟩, last.names⟩

theorem heeds_expr {expr : Expr} : Heeds symbols registry allows targets (expr :: exprs) names ↔
    expr.Heeds symbols registry allows ∧ Heeds symbols registry allows targets exprs names := by
  rw [← List.singleton_append, heeds_exprs, List.forall_mem_singleton]

end Heeds

def Stmt.Heeds (symbols : SymbolTable) (registry : Registry) (allows : String → Bool) (stmt : Stmt) : Prop :=
  BasicLang.Heeds symbols registry allows (stmt.targets symbols registry) stmt.exprs stmt.introduced

def Block.Heeds (symbols : SymbolTable) (registry : Registry) (allows : String → Bool) (block : Block) : Prop :=
  BasicLang.Heeds symbols registry allows (block.targets symbols registry) block.exprs block.introduced

def Arms.Heeds (symbols : SymbolTable) (registry : Registry) (allows : String → Bool) (arms : Arms) : Prop :=
  BasicLang.Heeds symbols registry allows (arms.targets symbols registry) arms.exprs arms.introduced

def Cases.Heeds (symbols : SymbolTable) (registry : Registry) (allows : String → Bool) (cases : Cases) : Prop :=
  BasicLang.Heeds symbols registry allows (cases.targets symbols registry) cases.exprs cases.introduced

theorem Stmt.heeds_anything (stmt : Stmt) (symbols : SymbolTable) (registry : Registry) :
    stmt.Heeds symbols registry fun _ => true := BasicLang.heeds_anything

mutual

def Stmt.called (symbols : SymbolTable) : Stmt → List String
  | .call name _ => if (symbols.procedure? name).isSome then [name] else []
  | .cond arms => arms.called symbols
  | .select _ cases => cases.called symbols
  | .forLoop _ _ _ _ body _ => body.called symbols
  | .whileLoop _ body => body.called symbols
  | .doLoop _ body _ => body.called symbols
  | _ => []

def Block.called (symbols : SymbolTable) : Block → List String
  | .nil => []
  | .cons _ head tail => head.called symbols ++ tail.called symbols

def Arms.called (symbols : SymbolTable) : Arms → List String
  | .none => []
  | .otherwise body => body.called symbols
  | .arm _ body rest => body.called symbols ++ rest.called symbols

def Cases.called (symbols : SymbolTable) : Cases → List String
  | .none => []
  | .otherwise body => body.called symbols
  | .clause _ _ body rest => body.called symbols ++ rest.called symbols

end

namespace Program

def calls (program : Program) : List String :=
  program.routines.flatMap fun routine => routine.body.exprs.flatMap Expr.calls

def taken (program : Program) (symbols : SymbolTable) (registry : Registry) : List Expr :=
  program.routines.flatMap fun routine =>
    routine.body.targets symbols registry ++
      routine.body.exprs.flatMap (Expr.taken symbols registry)

end Program

end BasicLang
