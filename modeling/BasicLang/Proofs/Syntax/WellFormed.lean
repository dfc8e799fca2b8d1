import BasicLang.Lexer
import BasicLang.Syntax.Stmt

set_option autoImplicit false

namespace BasicLang

def SourceName (name : String) : Prop :=
  ∃ first rest, name.toList = first :: rest ∧ Lexeme.isLetter first = true

def Literal.InRange : Literal → Prop
  | .integer value => -32768 ≤ value ∧ value ≤ 32767
  | .long value => -2147483648 ≤ value ∧ value ≤ 2147483647
  | _ => True

mutual

def Expr.WellFormed : Expr → Prop
  | .literal value _ => value.InRange
  | .variable name _ => SourceName name
  | .apply name arguments _ _ => SourceName name ∧ Expr.AllWellFormed arguments
  | .member object _ _ => object.WellFormed
  | .binary _ left right _ => left.WellFormed ∧ right.WellFormed
  | .unary _ operand _ => operand.WellFormed
  | .grouped inner _ => inner.WellFormed

def Expr.AllWellFormed : List Expr → Prop
  | [] => True
  | first :: rest => first.WellFormed ∧ Expr.AllWellFormed rest

end

theorem Expr.all_well_formed_iff (exprs : List Expr) :
    Expr.AllWellFormed exprs ↔ ∀ expr ∈ exprs, expr.WellFormed := by
  induction exprs with
  | nil => simp [Expr.AllWellFormed]
  | cons first rest ih => simp [Expr.AllWellFormed, ih]

def Dimension.WellFormed (dimension : Dimension) : Prop :=
  (∀ lower ∈ dimension.lower, lower.WellFormed) ∧ dimension.upper.WellFormed

def VarDecl.WellFormed (decl : VarDecl) : Prop :=
  SourceName decl.name ∧ ∀ dimension ∈ decl.dimensions, dimension.WellFormed

def CaseMatch.WellFormed : CaseMatch → Prop
  | .single value => value.WellFormed
  | .range first last => first.WellFormed ∧ last.WellFormed
  | .comparison operator value => operator.isComparison = true ∧ value.WellFormed

def TypeSpec.IsBasic : TypeSpec → Prop
  | .record _ => False
  | _ => True

mutual

def Stmt.WellFormed : Stmt → Prop
  | .print file format items _ =>
    (∀ expr ∈ file, expr.WellFormed) ∧ (∀ expr ∈ format, expr.WellFormed) ∧
      ∀ item ∈ items, item.expr.WellFormed
  | .assign target value => target.WellFormed ∧ value.WellFormed
  | .dim _ decls => ∀ decl ∈ decls, decl.WellFormed
  | .redim _ decls => ∀ decl ∈ decls, decl.WellFormed
  | .const name value => SourceName name ∧ value.WellFormed
  | .cond arms => arms.WellFormed
  | .select test cases => test.WellFormed ∧ cases.WellFormed
  | .forLoop counter first last step body _ =>
    SourceName counter ∧ first.WellFormed ∧ last.WellFormed ∧ (∀ expr ∈ step, expr.WellFormed) ∧
      body.WellFormed
  | .whileLoop condition body => condition.WellFormed ∧ body.WellFormed
  | .doLoop before body after =>
    (∀ loop ∈ before, loop.condition.WellFormed) ∧ body.WellFormed ∧
      ∀ loop ∈ after, loop.condition.WellFormed
  | .call name arguments => SourceName name ∧ ∀ expr ∈ arguments, expr.WellFormed
  | .input _ _ targets => ∀ target ∈ targets, target.WellFormed
  | .lineInput _ target => target.WellFormed
  | .fileInput file targets line =>
    file.WellFormed ∧ (∀ target ∈ targets, target.WellFormed) ∧ (line = true → targets.length = 1)
  | .openFile path _ file => path.WellFormed ∧ file.WellFormed
  | .close files => ∀ file ∈ files, file.WellFormed
  | .write file values => (∀ expr ∈ file, expr.WellFormed) ∧ ∀ value ∈ values, value.WellFormed
  | .read targets => ∀ target ∈ targets, target.WellFormed
  | .defType spec ranges => spec.IsBasic ∧ ∀ range ∈ ranges, range.1.isAlpha = true ∧ range.2.isAlpha = true
  | .onEvent key _ => key.WellFormed
  | .goto _ => True
  | .gosub _ => True
  | .ret => True
  | .exit _ => True
  | .stop => True
  | .label _ => True
  | .declare _ _ _ _ => True
  | .data _ => True
  | .restore _ => True
  | .typeDef _ _ => True
  | .comment _ => True

def Block.WellFormed : Block → Prop
  | .nil => True
  | .cons _ head tail => head.WellFormed ∧ tail.WellFormed

def Arms.WellFormed : Arms → Prop
  | .none => True
  | .otherwise body => body.WellFormed
  | .arm condition body rest => condition.WellFormed ∧ body.WellFormed ∧ rest.WellFormed

def Cases.WellFormed : Cases → Prop
  | .none => True
  | .otherwise body => body.WellFormed
  | .clause _ patterns body rest =>
    (∀ pattern ∈ patterns, pattern.WellFormed) ∧ body.WellFormed ∧ rest.WellFormed

end

theorem Block.of_list_well_formed (stmts : List (Locus × Stmt))
    (each : ∀ item ∈ stmts, item.2.WellFormed) : (Block.ofList stmts).WellFormed := by
  induction stmts with
  | nil => trivial
  | cons head tail ih =>
    exact ⟨each head List.mem_cons_self, ih fun item inside => each item (List.mem_cons_of_mem _ inside)⟩

structure Routine.WellFormed (routine : Routine) : Prop where
  kind : routine.kind ≠ .main
  name : SourceName routine.name
  params : ∀ param ∈ routine.params, SourceName param.name
  body : routine.body.WellFormed

structure Program.WellFormed (program : Program) : Prop where
  main : program.main.WellFormed
  procedures : ∀ routine ∈ program.procedures, routine.WellFormed

end BasicLang
