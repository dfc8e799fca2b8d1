import BasicLang.Proofs.Progress.Reader
import BasicLang.Syntax.ExprGrammar

set_option autoImplicit false

namespace BasicLang

section Trees

def UnaryOperator.precedence : UnaryOperator → Nat
  | .negate => Precedence.negation
  | .not => Precedence.complement

def Precedence.primary : Nat := 14

def Expr.precedence : Expr → Nat
  | .binary operator _ _ _ => operator.precedence
  | .unary operator _ _ => operator.precedence
  | _ => Precedence.primary

def Expr.isReference : Expr → Bool
  | .variable _ _ => true
  | .apply _ _ _ _ => true
  | .member _ _ _ => true
  | _ => false

def Expr.IsAbove (least : Nat) (expr : Expr) : Prop :=
  ∀ operator left right info, expr = .binary operator left right info → least < operator.precedence

mutual

def Expr.IsNormal : Expr → Prop
  | .literal _ _ => True
  | .variable _ _ => True
  | .apply _ arguments _ _ => Expr.AllNormal arguments
  | .member object _ _ => object.IsNormal
  | .binary operator left right _ =>
    left.IsNormal ∧ right.IsNormal ∧ operator.precedence ≤ left.precedence ∧ operator.precedence < right.precedence
  | .unary operator operand _ => operand.IsNormal ∧ operator.precedence ≤ operand.precedence
  | .grouped inner _ => inner.IsNormal

def Expr.AllNormal : List Expr → Prop
  | [] => True
  | first :: rest => first.IsNormal ∧ Expr.AllNormal rest

end

mutual

def Expr.unplaced : Expr → Expr
  | .literal value info => .literal value ⟨.start, info.ty⟩
  | .variable name info => .variable name ⟨.start, info.ty⟩
  | .apply name arguments callee info => .apply name (Expr.allUnplaced arguments) callee ⟨.start, info.ty⟩
  | .member object name info => .member object.unplaced name ⟨.start, info.ty⟩
  | .binary operator left right info => .binary operator left.unplaced right.unplaced ⟨.start, info.ty⟩
  | .unary operator operand info => .unary operator operand.unplaced ⟨.start, info.ty⟩
  | .grouped inner info => .grouped inner.unplaced ⟨.start, info.ty⟩

def Expr.allUnplaced : List Expr → List Expr
  | [] => []
  | first :: rest => first.unplaced :: Expr.allUnplaced rest

end

def BinaryOperator.spellings : BinaryOperator → List TokenKind
  | .power => [.symbol .caret]
  | .multiply => [.symbol .star]
  | .divide => [.symbol .slash]
  | .intDivide => [.symbol .backslash]
  | .modulo => [.keyword .MOD]
  | .add => [.symbol .plus]
  | .subtract => [.symbol .minus]
  | .equal => [.symbol .equals]
  | .notEqual => [.symbol .notEquals, .symbol .notEqualsLegacy]
  | .less => [.symbol .lessThan]
  | .lessEqual => [.symbol .lessEquals, .symbol .lessEqualsLegacy]
  | .greater => [.symbol .greaterThan]
  | .greaterEqual => [.symbol .greaterEquals, .symbol .greaterEqualsLegacy]
  | .and => [.keyword .AND]
  | .or => [.keyword .OR]
  | .xor => [.keyword .XOR]
  | .eqv => [.keyword .EQV]
  | .imp => [.keyword .IMP]

def UnaryOperator.spelling : UnaryOperator → TokenKind
  | .negate => .symbol .minus
  | .not => .keyword .NOT

theorem BinaryOperator.of_spelling {operator : BinaryOperator} {kind : TokenKind} (spells : kind ∈ operator.spellings) :
    BinaryOperator.ofKind? kind = some operator := by
  cases operator <;> simp only [spellings, List.mem_cons, List.not_mem_nil, or_false] at spells
  case notEqual | lessEqual | greaterEqual => rcases spells with rfl | rfl <;> rfl
  all_goals
    subst spells
    rfl

theorem BinaryOperator.spells_no_reference {operator : BinaryOperator} {kind : TokenKind}
    (spells : kind ∈ operator.spellings) : kind ≠ .symbol .leftParen ∧ kind ≠ .symbol .dot := by
  constructor <;> rintro rfl <;> cases operator <;> simp [spellings] at spells

theorem UnaryOperator.spelling_closes_not (operator : UnaryOperator) : operator.spelling ≠ .symbol .rightParen := by
  cases operator <;> simp [spelling]

theorem BinaryOperator.precedence_pos (operator : BinaryOperator) : Precedence.lowest < operator.precedence := by
  cases operator <;> decide

theorem BinaryOperator.precedence_differs (operator : BinaryOperator) (before : UnaryOperator) :
    operator.precedence ≠ before.precedence := by
  cases operator <;> cases before <;> decide

end Trees

mutual

/-- The tokens that an expression is written with, before it is checked. A member is that of a reference. -/
inductive Spelled : Expr → List Token → Prop where
  | literal {value : Literal} {token : Token} (locus : Locus) (denotes : Literal.ofToken? token = some (.ok value)) :
      Spelled (.literal value ⟨locus, none⟩) [token]
  | variable {name : Token} (locus : Locus) (isName : name.kind = .identifier) :
      Spelled (.variable (Text.upperAscii name.text) ⟨locus, none⟩) [name]
  | apply {name opening closing : Token} {arguments : List Expr} {tokens : List Token} (locus : Locus)
      (isName : name.kind = .identifier) (opens : opening.kind = .symbol .leftParen)
      (spelled : SpelledArguments arguments tokens) (closes : closing.kind = .symbol .rightParen) :
      Spelled (.apply (Text.upperAscii name.text) arguments .unresolved ⟨locus, none⟩)
        (name :: opening :: tokens ++ [closing])
  | member {object : Expr} {tokens : List Token} {dot name : Token} (locus : Locus) (spelled : Spelled object tokens)
      (isReference : object.isReference = true) (isDot : dot.kind = .symbol .dot) (isName : name.kind = .identifier) :
      Spelled (.member object (Text.upperAscii name.text) ⟨locus, none⟩) (tokens ++ [dot, name])
  | binary {operator : BinaryOperator} {left right : Expr} {early late : List Token} {sign : Token} (locus : Locus)
      (spelledLeft : Spelled left early) (spells : sign.kind ∈ operator.spellings) (spelledRight : Spelled right late) :
      Spelled (.binary operator left right ⟨locus, none⟩) (early ++ sign :: late)
  | unary {operator : UnaryOperator} {operand : Expr} {tokens : List Token} {sign : Token} (locus : Locus)
      (spells : sign.kind = operator.spelling) (spelled : Spelled operand tokens) :
      Spelled (.unary operator operand ⟨locus, none⟩) (sign :: tokens)
  | grouped {inner : Expr} {tokens : List Token} {opening closing : Token} (locus : Locus)
      (opens : opening.kind = .symbol .leftParen) (spelled : Spelled inner tokens)
      (closes : closing.kind = .symbol .rightParen) :
      Spelled (.grouped inner ⟨locus, none⟩) (opening :: tokens ++ [closing])

inductive SpelledArguments : List Expr → List Token → Prop where
  | none : SpelledArguments [] []
  | some {first : Expr} {others : List Expr} {early late : List Token} (spelled : Spelled first early)
      (further : SpelledFurther others late) : SpelledArguments (first :: others) (early ++ late)

inductive SpelledFurther : List Expr → List Token → Prop where
  | none : SpelledFurther [] []
  | some {first : Expr} {others : List Expr} {comma : Token} {early late : List Token}
      (separates : comma.kind = .symbol .comma) (spelled : Spelled first early)
      (further : SpelledFurther others late) : SpelledFurther (first :: others) (comma :: early ++ late)

end

def EndsAbove (bound : Nat) (tokens : List Token) : Prop :=
  ∀ next ∈ tokens.head?, next.kind ≠ .symbol .leftParen ∧ next.kind ≠ .symbol .dot ∧
    ∀ operator, BinaryOperator.ofKind? next.kind = some operator → operator.precedence ≤ bound

theorem EndsAbove.weaken {bound higher : Nat} {tokens : List Token} (ends : EndsAbove bound tokens)
    (above : bound ≤ higher) : EndsAbove higher tokens := by
  intro next isNext
  obtain ⟨opensNot, dotNot, looser⟩ := ends next isNext
  exact ⟨opensNot, dotNot, fun operator isOperator => Nat.le_trans (looser operator isOperator) above⟩

theorem ends_at {bound : Nat} {token : Token} {tokens : List Token}
    (isEnd : token.kind = .symbol .rightParen ∨ token.kind = .symbol .comma) : EndsAbove bound (token :: tokens) := by
  intro next isNext
  obtain rfl := Option.some.inj isNext
  rcases isEnd with same | same <;> simp [same, BinaryOperator.ofKind?]

namespace Reader

def Finds {α : Type} (reader : Reader α) (tokens : List Token) (value : α) (tail : List Token) : Prop :=
  ∀ cursor : Cursor, cursor.rest = tokens →
    ∃ after, (reader.run).run cursor = (some value, after) ∧ after.rest = tail ∧ after.errors = cursor.errors

section Rules

variable {α β : Type} {value : α} {final : β} {tokens middle tail : List Token}

theorem finds_unit : Finds (pure value : Reader α) tail value tail := fun cursor isRest => ⟨cursor, rfl, isRest, rfl⟩

theorem finds_seq {first : Reader α} {next : α → Reader β} (finds : Finds first tokens value middle)
    (findsNext : Finds (next value) middle final tail) : Finds (first >>= next) tokens final tail := by
  intro cursor isRest
  obtain ⟨between, ran, isMiddle, errors⟩ := finds cursor isRest
  obtain ⟨after, further, isTail, moreErrors⟩ := findsNext between isMiddle
  refine ⟨after, ?_, isTail, moreErrors.trans errors⟩
  rw [run_seq, ran]
  exact further

theorem finds_get {next : Cursor → Reader β} (findsNext : ∀ cursor, cursor.rest = tokens →
    Finds (next cursor) tokens final tail) : Finds (get >>= next) tokens final tail :=
  fun cursor isRest => findsNext cursor isRest cursor isRest

theorem finds_advance {token : Token} : Finds advance (token :: tail) () tail :=
  fun cursor isRest => ⟨cursor.advance, rfl, by simp [isRest], cursor.advance_errors⟩

theorem finds_accept {kind : TokenKind} {token : Token} (isKind : token.kind = kind) :
    Finds (accept kind) (token :: tail) true tail := by
  intro cursor isRest
  have isAt : cursor.isAt kind = true := by simp [Cursor.isAt, Cursor.kind?, isRest, isKind]
  exact ⟨cursor.advance, by rw [run_accept, if_pos isAt], by simp [isRest], cursor.advance_errors⟩

theorem finds_no_accept {kind : TokenKind} (other : ∀ token ∈ tokens.head?, token.kind ≠ kind) :
    Finds (accept kind) tokens false tokens := by
  intro cursor isRest
  have notAt : ¬cursor.isAt kind = true := by
    simpa [Cursor.isAt, Cursor.kind?, isRest] using other
  exact ⟨cursor, by rw [run_accept, if_neg notAt], isRest, rfl⟩

theorem finds_expect {kind : TokenKind} {description : String} {token : Token} (isKind : token.kind = kind) :
    Finds (expect kind description) (token :: tail) token tail := by
  refine finds_get fun cursor isRest => ?_
  rw [isRest]
  dsimp only
  rw [if_pos isKind]
  exact finds_seq finds_advance finds_unit

theorem finds_expect_symbol {symbol : Symbol} {description : String} {token : Token}
    (isSymbol : token.kind = .symbol symbol) : Finds (expectSymbol symbol description) (token :: tail) () tail :=
  finds_seq (finds_expect isSymbol) finds_unit

theorem finds_expect_name {description : String} {token : Token} (isName : token.kind = .identifier) :
    Finds (expectName description) (token :: tail) (Text.upperAscii token.text, token.locus) tail :=
  finds_seq (finds_expect isName) finds_unit

theorem finds_members {object : Expr} (fuel : Nat) (noDot : ∀ token ∈ tail.head?, token.kind ≠ .symbol .dot) :
    Finds (members object (fuel + 1)) tail object tail :=
  finds_seq (finds_no_accept noDot) finds_unit

theorem finds_operators {least : Nat} {left : Expr} (fuel : Nat) (ends : EndsAbove least tail) :
    Finds (operators least left (fuel + 1)) tail left tail := by
  refine finds_get fun cursor isRest => ?_
  split
  · next operator isOperator =>
    cases tail with
    | nil => simp [Cursor.kind?, isRest] at isOperator
    | cons next further =>
      have looser := (ends next rfl).2.2 operator (by simpa [Cursor.kind?, isRest] using isOperator)
      rw [if_neg (Nat.not_lt_of_le looser)]
      exact finds_unit
  · exact finds_unit

theorem finds_fuel : Finds exprFuel tokens (4 * tokens.length + 4) tokens :=
  finds_get fun _ isRest => isRest ▸ finds_unit

end Rules

section Operands

theorem no_literal {token : Token} (isKind : token.kind = .identifier ∨ (∃ symbol, token.kind = .symbol symbol) ∨
    ∃ keyword, token.kind = .keyword keyword) : Literal.ofToken? token = none := by
  rcases isKind with same | ⟨symbol, same⟩ | ⟨keyword, same⟩ <;> simp [Literal.ofToken?, same]

theorem spelled_starts {expr : Expr} {tokens : List Token} (spelled : Spelled expr tokens) :
    ∃ first rest, tokens = first :: rest ∧ first.kind ≠ .symbol .rightParen := by
  match spelled with
  | .literal locus denotes =>
    refine ⟨_, [], rfl, fun same => ?_⟩
    rw [no_literal (.inr (.inl ⟨_, same⟩))] at denotes
    cases denotes
  | .variable locus isName => exact ⟨_, [], rfl, by simp [isName]⟩
  | .apply locus isName _ _ _ => exact ⟨_, _, rfl, by simp [isName]⟩
  | .member locus spelled _ _ _ =>
    obtain ⟨first, rest, rfl, other⟩ := spelled_starts spelled
    exact ⟨first, _, rfl, other⟩
  | .binary locus spelledLeft _ _ =>
    obtain ⟨first, rest, rfl, other⟩ := spelled_starts spelledLeft
    exact ⟨first, _, rfl, other⟩
  | .unary locus spells _ =>
    refine ⟨_, _, rfl, ?_⟩
    rw [spells]
    exact UnaryOperator.spelling_closes_not _
  | .grouped locus opens _ _ => exact ⟨_, _, rfl, by simp [opens]⟩

theorem reference_starts {expr : Expr} {tokens : List Token} (spelled : Spelled expr tokens)
    (isReference : expr.isReference = true) : ∃ name rest, tokens = name :: rest ∧ name.kind = .identifier := by
  match spelled with
  | .literal _ _ | .binary _ _ _ _ | .unary _ _ _ | .grouped _ _ _ _ => cases isReference
  | .variable _ isName => exact ⟨_, [], rfl, isName⟩
  | .apply _ isName _ _ _ => exact ⟨_, _, rfl, isName⟩
  | .member _ spelledObject isObject _ _ =>
    obtain ⟨name, rest, rfl, isName⟩ := reference_starts spelledObject isObject
    exact ⟨name, _, rfl, isName⟩

variable {fuel : Nat} {token : Token} {tokens tail : List Token}

theorem finds_operand_literal {value : Literal} (denotes : Literal.ofToken? token = some (.ok value)) :
    Finds (operand (fuel + 1)) (token :: tail) (.literal value ⟨token.locus, none⟩) tail := by
  refine finds_get fun cursor isRest => ?_
  rw [isRest]
  dsimp only
  rw [denotes]
  exact finds_seq finds_advance finds_unit

theorem finds_operand_reference {read : Expr} (isName : token.kind = .identifier)
    (finds : Finds (referenceAt fuel) (token :: tokens) read tail) :
    Finds (operand (fuel + 1)) (token :: tokens) read tail := by
  refine finds_get fun cursor isRest => ?_
  rw [isRest]
  dsimp only
  rw [no_literal (.inl isName), isName]
  exact finds

theorem finds_operand_grouped {read : Expr} {closing : Token} (opens : token.kind = .symbol .leftParen)
    (closes : closing.kind = .symbol .rightParen)
    (finds : Finds (exprAbove Precedence.lowest fuel) tokens read (closing :: tail)) :
    Finds (operand (fuel + 1)) (token :: tokens) (.grouped read ⟨token.locus, none⟩) tail := by
  refine finds_get fun cursor isRest => ?_
  rw [isRest]
  dsimp only
  rw [no_literal (.inr (.inl ⟨_, opens⟩)), opens]
  exact finds_seq finds_advance (finds_seq finds (finds_seq (finds_expect_symbol closes) finds_unit))

theorem finds_operand_unary {read : Expr} {operator : UnaryOperator} (spells : token.kind = operator.spelling)
    (finds : Finds (exprAbove operator.precedence fuel) tokens read tail) :
    Finds (operand (fuel + 1)) (token :: tokens) (.unary operator read ⟨token.locus, none⟩) tail := by
  refine finds_get fun cursor isRest => ?_
  rw [isRest]
  cases operator with
  | negate =>
    have isMinus : token.kind = .symbol .minus := spells
    dsimp only
    rw [no_literal (.inr (.inl ⟨_, isMinus⟩)), isMinus]
    exact finds_seq finds_advance (finds_seq finds finds_unit)
  | not =>
    have isNot : token.kind = .keyword .NOT := spells
    dsimp only
    rw [no_literal (.inr (.inr ⟨_, isNot⟩)), isNot]
    exact finds_seq finds_advance (finds_seq finds finds_unit)

end Operands

section Expressions

variable {expr : Expr} {tokens : List Token}

-- In what follows `left` is what is left of the steps when the loop goes on.

def Readable (expr : Expr) (tokens : List Token) : Prop :=
  ∀ (least : Nat) (tail : List Token) (fuel : Nat), expr.IsAbove least → EndsAbove expr.precedence tail →
    4 * tokens.length ≤ fuel →
    ∃ read left, read.unplaced = expr.unplaced ∧ fuel < left + tokens.length ∧ ∀ value rest,
      Finds (operators least read left) tail value rest → Finds (exprAbove least (fuel + 1)) (tokens ++ tail) value rest

def ReadableReference (expr : Expr) (tokens : List Token) : Prop :=
  ∀ (tail : List Token) (fuel : Nat), (∀ next ∈ tail.head?, next.kind ≠ .symbol .leftParen) →
    4 * tokens.length ≤ fuel + 1 →
    ∃ read left, read.unplaced = expr.unplaced ∧ fuel < left + tokens.length ∧ ∀ value rest,
      Finds (members read left) tail value rest → Finds (referenceAt fuel) (tokens ++ tail) value rest

def ReadableArguments (arguments : List Expr) (tokens : List Token) : Prop :=
  ∀ (closing : Token) (tail : List Token) (fuel : Nat), closing.kind = .symbol .rightParen →
    4 * tokens.length + 2 ≤ fuel → ∃ read, Expr.allUnplaced read = Expr.allUnplaced arguments ∧
      Finds (argumentsAt fuel) (tokens ++ closing :: tail) read (closing :: tail)

def ReadableFurther (arguments : List Expr) (tokens : List Token) : Prop :=
  ∀ (closing : Token) (tail : List Token) (fuel : Nat), closing.kind = .symbol .rightParen →
    4 * tokens.length + 1 ≤ fuel → ∃ read, Expr.allUnplaced read = Expr.allUnplaced arguments ∧
      Finds (furtherArguments fuel) (tokens ++ closing :: tail) read (closing :: tail)

theorem Readable.whole {least fuel : Nat} {tail : List Token} (readable : Readable expr tokens)
    (isAbove : expr.IsAbove least) (holds : least ≤ expr.precedence) (ends : EndsAbove least tail)
    (enough : 4 * tokens.length + 1 ≤ fuel) :
    ∃ read, read.unplaced = expr.unplaced ∧ Finds (exprAbove least fuel) (tokens ++ tail) read tail := by
  obtain ⟨fuel, rfl⟩ := Nat.exists_eq_add_of_le' (Nat.le_of_add_left_le enough)
  obtain ⟨read, left, same, bound, goesOn⟩ := readable least tail fuel isAbove (ends.weaken holds) (by omega)
  obtain ⟨left, rfl⟩ : ∃ more, left = more + 1 := Nat.exists_eq_add_one_of_ne_zero (by omega)
  exact ⟨read, same, goesOn read tail (finds_operators left ends)⟩

theorem Readable.alone {fuel : Nat} {tail : List Token} (readable : Readable expr tokens)
    (ends : EndsAbove Precedence.lowest tail) (enough : 4 * tokens.length + 1 ≤ fuel) :
    ∃ read, read.unplaced = expr.unplaced ∧
      Finds (exprAbove Precedence.lowest fuel) (tokens ++ tail) read tail :=
  readable.whole (fun operator _ _ _ _ => operator.precedence_pos) (Nat.zero_le _) ends enough

theorem readable_of_operand (finds : ∀ (tail : List Token) (fuel : Nat), EndsAbove expr.precedence tail →
    4 * tokens.length ≤ fuel → ∃ read, read.unplaced = expr.unplaced ∧
      Finds (operand fuel) (tokens ++ tail) read tail) (some : tokens ≠ []) : Readable expr tokens := by
  intro least tail fuel _ ends enough
  obtain ⟨read, same, reads⟩ := finds tail fuel ends enough
  have positive := List.length_pos_iff.mpr some
  exact ⟨read, fuel, same, by omega, fun value rest further => finds_seq reads further⟩

theorem readable_literal {value : Literal} {token : Token} (locus : Locus)
    (denotes : Literal.ofToken? token = some (.ok value)) : Readable (.literal value ⟨locus, none⟩) [token] := by
  refine readable_of_operand (fun tail fuel _ enough => ?_) (List.cons_ne_nil _ _)
  obtain ⟨fuel, rfl⟩ : ∃ more, fuel = more + 1 := Nat.exists_eq_add_one_of_ne_zero (by simp at enough; omega)
  exact ⟨.literal value ⟨token.locus, none⟩, rfl, finds_operand_literal denotes⟩

theorem readable_reference (isReference : expr.isReference = true) (spelled : Spelled expr tokens)
    (readable : ReadableReference expr tokens) : Readable expr tokens := by
  obtain ⟨name, others, isTokens, isName⟩ := reference_starts spelled isReference
  refine readable_of_operand (fun tail fuel ends enough => ?_) (isTokens ▸ List.cons_ne_nil _ _)
  have length : tokens.length = others.length + 1 := congrArg List.length isTokens
  obtain ⟨fuel, rfl⟩ : ∃ more, fuel = more + 1 := Nat.exists_eq_add_one_of_ne_zero (by omega)
  obtain ⟨read, left, same, bound, goesOn⟩ :=
    readable tail fuel (fun next isNext => (ends next isNext).1) enough
  obtain ⟨left, rfl⟩ : ∃ more, left = more + 1 := Nat.exists_eq_add_one_of_ne_zero (by omega)
  have reads := goesOn read tail (finds_members left fun next isNext => (ends next isNext).2.1)
  refine ⟨read, same, ?_⟩
  rw [isTokens] at reads ⊢
  exact finds_operand_reference isName reads

theorem readable_both (spelled : Spelled expr tokens) (isReference : expr.isReference = true)
    (readable : ReadableReference expr tokens) :
    Readable expr tokens ∧ (expr.isReference = true → ReadableReference expr tokens) :=
  ⟨readable_reference isReference spelled readable, fun _ => readable⟩

theorem readable_variable {name : Token} (locus : Locus) (isName : name.kind = .identifier) :
    ReadableReference (.variable (Text.upperAscii name.text) ⟨locus, none⟩) [name] := by
  intro tail fuel opensNot enough
  obtain ⟨fuel, rfl⟩ : ∃ more, fuel = more + 1 := Nat.exists_eq_add_one_of_ne_zero (by simp at enough; omega)
  refine ⟨.variable (Text.upperAscii name.text) ⟨name.locus, none⟩, fuel + 1, rfl, by simp, fun value rest further => ?_⟩
  exact finds_seq (finds_expect_name isName) (finds_seq (finds_no_accept opensNot) further)

theorem readable_apply {name opening closing : Token} {arguments : List Expr} (locus : Locus)
    (isName : name.kind = .identifier) (opens : opening.kind = .symbol .leftParen)
    (closes : closing.kind = .symbol .rightParen) (readable : ReadableArguments arguments tokens) :
    ReadableReference (.apply (Text.upperAscii name.text) arguments .unresolved ⟨locus, none⟩)
      (name :: opening :: tokens ++ [closing]) := by
  intro tail fuel _ enough
  simp only [List.length_append, List.length_cons, List.length_nil] at enough
  obtain ⟨fuel, rfl⟩ : ∃ more, fuel = more + 1 := Nat.exists_eq_add_one_of_ne_zero (by omega)
  obtain ⟨read, same, reads⟩ := readable closing tail fuel closes (by omega)
  refine ⟨.apply (Text.upperAscii name.text) read .unresolved ⟨name.locus, none⟩, fuel + 1, ?_, ?_,
    fun value rest further => ?_⟩
  · rw [Expr.unplaced, Expr.unplaced, same]
  · simp only [List.length_append, List.length_cons, List.length_nil]
    omega
  · rw [List.append_assoc]
    exact finds_seq (finds_expect_name isName) (finds_seq (finds_accept opens)
      (finds_seq reads (finds_seq (finds_expect_symbol closes) further)))

theorem readable_member {object : Expr} {dot name : Token} (locus : Locus) (isDot : dot.kind = .symbol .dot)
    (isName : name.kind = .identifier) (readable : ReadableReference object tokens) :
    ReadableReference (.member object (Text.upperAscii name.text) ⟨locus, none⟩) (tokens ++ [dot, name]) := by
  intro tail fuel _ enough
  simp only [List.length_append, List.length_cons, List.length_nil] at enough
  obtain ⟨read, left, same, bound, goesOn⟩ := readable (dot :: name :: tail) fuel
    (by
      intro next isNext
      obtain rfl := Option.some.inj isNext
      simp [isDot]) (by omega)
  obtain ⟨left, rfl⟩ : ∃ more, left = more + 1 := Nat.exists_eq_add_one_of_ne_zero (by omega)
  refine ⟨.member read (Text.upperAscii name.text) ⟨read.locus, none⟩, left, ?_, ?_, fun value rest further => ?_⟩
  · rw [Expr.unplaced, Expr.unplaced, same]
  · simp only [List.length_append, List.length_cons, List.length_nil]
    omega
  · rw [List.append_assoc]
    exact goesOn value rest (finds_seq (finds_accept isDot) (finds_seq (finds_expect_name isName) further))

theorem readable_grouped {opening closing : Token} (locus : Locus) (opens : opening.kind = .symbol .leftParen)
    (closes : closing.kind = .symbol .rightParen) (readable : Readable expr tokens) :
    Readable (.grouped expr ⟨locus, none⟩) (opening :: tokens ++ [closing]) := by
  refine readable_of_operand (fun tail fuel _ enough => ?_) (List.cons_ne_nil _ _)
  simp only [List.length_append, List.length_cons, List.length_nil] at enough
  obtain ⟨fuel, rfl⟩ : ∃ more, fuel = more + 1 := Nat.exists_eq_add_one_of_ne_zero (by omega)
  have ends : EndsAbove Precedence.lowest (closing :: tail) := ends_at (.inl closes)
  have less : 4 * tokens.length + 1 ≤ fuel := by omega
  obtain ⟨read, same, reads⟩ := readable.alone ends less
  refine ⟨.grouped read ⟨opening.locus, none⟩, ?_, ?_⟩
  · rw [Expr.unplaced, Expr.unplaced, same]
  · rw [List.append_assoc]
    exact finds_operand_grouped opens closes reads

theorem readable_unary {operator : UnaryOperator} {sign : Token} (locus : Locus) (spells : sign.kind = operator.spelling)
    (holds : operator.precedence ≤ expr.precedence) (readable : Readable expr tokens) :
    Readable (.unary operator expr ⟨locus, none⟩) (sign :: tokens) := by
  refine readable_of_operand (fun tail fuel ends enough => ?_) (List.cons_ne_nil _ _)
  rw [List.length_cons] at enough
  obtain ⟨fuel, rfl⟩ : ∃ more, fuel = more + 1 := Nat.exists_eq_add_one_of_ne_zero (by omega)
  have isAbove : expr.IsAbove operator.precedence := by
    rintro other left right info rfl
    exact Nat.lt_of_le_of_ne holds (other.precedence_differs operator).symm
  have less : 4 * tokens.length + 1 ≤ fuel := by omega
  obtain ⟨read, same, reads⟩ := readable.whole isAbove holds ends less
  refine ⟨.unary operator read ⟨sign.locus, none⟩, ?_, finds_operand_unary spells reads⟩
  rw [Expr.unplaced, Expr.unplaced, same]

theorem readable_binary {operator : BinaryOperator} {left right : Expr} {early late : List Token} {sign : Token}
    (locus : Locus) (spells : sign.kind ∈ operator.spellings) (holds : operator.precedence ≤ left.precedence)
    (tighter : operator.precedence < right.precedence) (readableLeft : Readable left early)
    (readableRight : Readable right late) :
    Readable (.binary operator left right ⟨locus, none⟩) (early ++ sign :: late) := by
  intro least tail fuel isAbove ends enough
  simp only [List.length_append, List.length_cons] at enough
  have above : least < operator.precedence := isAbove operator left right _ rfl
  have leftAbove : left.IsAbove least := by
    rintro other first second info rfl
    exact Nat.lt_of_lt_of_le above holds
  have rightAbove : right.IsAbove operator.precedence := by
    rintro other first second info rfl
    exact tighter
  have leftEnds : EndsAbove left.precedence (sign :: (late ++ tail)) := by
    intro next isNext
    obtain rfl := Option.some.inj isNext
    refine ⟨(BinaryOperator.spells_no_reference spells).1, (BinaryOperator.spells_no_reference spells).2, ?_⟩
    intro other isOther
    obtain rfl := Option.some.inj ((BinaryOperator.of_spelling spells).symm.trans isOther)
    exact holds
  obtain ⟨readLeft, steps, sameLeft, bound, goesOn⟩ :=
    readableLeft least (sign :: (late ++ tail)) fuel leftAbove leftEnds (by omega)
  obtain ⟨steps, rfl⟩ : ∃ more, steps = more + 1 := Nat.exists_eq_add_one_of_ne_zero (by omega)
  have less : 4 * late.length + 1 ≤ steps := by omega
  obtain ⟨readRight, sameRight, reads⟩ := readableRight.whole rightAbove (Nat.le_of_lt tighter) ends less
  refine ⟨.binary operator readLeft readRight ⟨readLeft.locus, none⟩, steps, ?_, ?_, fun value rest further => ?_⟩
  · rw [Expr.unplaced, Expr.unplaced, sameLeft, sameRight]
  · simp only [List.length_append, List.length_cons]
    omega
  · rw [List.append_assoc]
    refine goesOn value rest (finds_get fun cursor isRest => ?_)
    have isOperator : cursor.kind? >>= BinaryOperator.ofKind? = some operator := by
      rw [Cursor.kind?, isRest]
      exact BinaryOperator.of_spelling spells
    rw [isOperator]
    dsimp only
    rw [if_pos above]
    exact finds_seq finds_advance (finds_seq reads further)

theorem readable_no_arguments : ReadableArguments [] [] := by
  intro closing tail fuel closes enough
  obtain ⟨fuel, rfl⟩ : ∃ more, fuel = more + 1 := Nat.exists_eq_add_one_of_ne_zero (by simp at enough; omega)
  refine ⟨[], rfl, finds_get fun cursor isRest => ?_⟩
  have atEnd : cursor.isAtSymbol .rightParen = true := by
    simp [Cursor.isAtSymbol, Cursor.isAt, Cursor.kind?, isRest, closes]
  refine (if_pos atEnd).symm ▸ ?_
  exact finds_unit

theorem readable_no_further : ReadableFurther [] [] := by
  intro closing tail fuel closes enough
  obtain ⟨fuel, rfl⟩ : ∃ more, fuel = more + 1 := Nat.exists_eq_add_one_of_ne_zero (by simp at enough; omega)
  have noComma : ∀ token ∈ (closing :: tail).head?, token.kind ≠ .symbol .comma := by
    intro token isToken
    obtain rfl := Option.some.inj isToken
    simp [closes]
  exact ⟨[], rfl, finds_seq (finds_no_accept noComma) finds_unit⟩

theorem further_ends {others : List Expr} {late : List Token} {closing : Token} (tail : List Token)
    (spelled : SpelledFurther others late) (closes : closing.kind = .symbol .rightParen) :
    EndsAbove Precedence.lowest (late ++ closing :: tail) := by
  cases spelled with
  | none => exact ends_at (.inl closes)
  | some separates _ _ => exact ends_at (.inr separates)

theorem readable_some {first : Expr} {others : List Expr} {early late : List Token} {closing : Token} {fuel : Nat}
    (tail : List Token) (readable : Readable first early) (spelled : SpelledFurther others late)
    (further : ReadableFurther others late) (closes : closing.kind = .symbol .rightParen)
    (enough : 4 * (early ++ late).length + 1 ≤ fuel) :
    ∃ read, Expr.allUnplaced read = Expr.allUnplaced (first :: others) ∧
      Finds (do
        let first ← exprAbove Precedence.lowest fuel
        let others ← furtherArguments fuel
        return first :: others) ((early ++ late) ++ closing :: tail) read (closing :: tail) := by
  rw [List.length_append] at enough
  have less : 4 * early.length + 1 ≤ fuel := by omega
  obtain ⟨read, same, reads⟩ := readable.alone (further_ends tail spelled closes) less
  obtain ⟨more, sameMore, readsMore⟩ := further closing tail fuel closes (by omega)
  refine ⟨read :: more, ?_, ?_⟩
  · rw [Expr.allUnplaced, Expr.allUnplaced, same, sameMore]
  · rw [List.append_assoc]
    exact finds_seq reads (finds_seq readsMore finds_unit)

theorem readable_arguments {first : Expr} {others : List Expr} {early late : List Token} (starts : Spelled first early)
    (readable : Readable first early) (spelled : SpelledFurther others late) (further : ReadableFurther others late) :
    ReadableArguments (first :: others) (early ++ late) := by
  intro closing tail fuel closes enough
  obtain ⟨fuel, rfl⟩ : ∃ more, fuel = more + 1 := Nat.exists_eq_add_one_of_ne_zero (by omega)
  have less : 4 * (early ++ late).length + 1 ≤ fuel := by omega
  obtain ⟨read, same, reads⟩ := readable_some tail readable spelled further closes less
  refine ⟨read, same, finds_get fun cursor isRest => ?_⟩
  obtain ⟨token, rest, rfl, other⟩ := spelled_starts starts
  have goesOn : ¬cursor.isAtSymbol .rightParen = true := by
    simpa [Cursor.isAtSymbol, Cursor.isAt, Cursor.kind?, isRest] using other
  refine (if_neg goesOn).symm ▸ ?_
  exact reads

theorem readable_further {first : Expr} {others : List Expr} {comma : Token} {early late : List Token}
    (separates : comma.kind = .symbol .comma) (readable : Readable first early) (spelled : SpelledFurther others late)
    (further : ReadableFurther others late) : ReadableFurther (first :: others) (comma :: early ++ late) := by
  intro closing tail fuel closes enough
  rw [List.cons_append, List.length_cons] at enough
  obtain ⟨fuel, rfl⟩ : ∃ more, fuel = more + 1 := Nat.exists_eq_add_one_of_ne_zero (by omega)
  have less : 4 * (early ++ late).length + 1 ≤ fuel := by omega
  obtain ⟨read, same, reads⟩ := readable_some tail readable spelled further closes less
  exact ⟨read, same, finds_seq (finds_accept separates) reads⟩

end Expressions

section Whole

mutual

theorem reads_spelled {expr : Expr} {tokens : List Token} (spelled : Spelled expr tokens) (isNormal : expr.IsNormal) :
    Readable expr tokens ∧ (expr.isReference = true → ReadableReference expr tokens) := by
  match spelled with
  | .literal locus denotes => exact ⟨readable_literal locus denotes, nofun⟩
  | .variable locus isName => exact readable_both (.variable locus isName) rfl (readable_variable locus isName)
  | .apply locus isName opens spelledArguments closes =>
    exact readable_both (.apply locus isName opens spelledArguments closes) rfl
      (readable_apply locus isName opens closes (reads_arguments spelledArguments isNormal))
  | .member locus spelledObject isReference isDot isName =>
    exact readable_both (.member locus spelledObject isReference isDot isName) rfl
      (readable_member locus isDot isName ((reads_spelled spelledObject isNormal).2 isReference))
  | .binary locus spelledLeft spells spelledRight =>
    obtain ⟨normalLeft, normalRight, holds, tighter⟩ := isNormal
    exact ⟨readable_binary locus spells holds tighter (reads_spelled spelledLeft normalLeft).1
      (reads_spelled spelledRight normalRight).1, nofun⟩
  | .unary locus spells spelledOperand =>
    obtain ⟨normalOperand, holds⟩ := isNormal
    exact ⟨readable_unary locus spells holds (reads_spelled spelledOperand normalOperand).1, nofun⟩
  | .grouped locus opens spelledInner closes =>
    exact ⟨readable_grouped locus opens closes (reads_spelled spelledInner isNormal).1, nofun⟩

theorem reads_arguments {arguments : List Expr} {tokens : List Token} (spelled : SpelledArguments arguments tokens)
    (areNormal : Expr.AllNormal arguments) : ReadableArguments arguments tokens := by
  match spelled with
  | .none => exact readable_no_arguments
  | .some spelledFirst further =>
    exact readable_arguments spelledFirst (reads_spelled spelledFirst areNormal.1).1 further
      (reads_further further areNormal.2)

theorem reads_further {arguments : List Expr} {tokens : List Token} (spelled : SpelledFurther arguments tokens)
    (areNormal : Expr.AllNormal arguments) : ReadableFurther arguments tokens := by
  match spelled with
  | .none => exact readable_no_further
  | .some separates spelledFirst further =>
    exact readable_further separates (reads_spelled spelledFirst areNormal.1).1 further (reads_further further areNormal.2)

end

end Whole

end Reader

/-- An expression whose parentheses are where its operators need them is read back from what it is written with,
whatever follows, if it is not an operator and does not go on with a reference. -/
theorem written_expression_is_read {expr : Expr} {tokens tail : List Token} (isNormal : expr.IsNormal)
    (spelled : Spelled expr tokens)
    (stops : ∀ next ∈ tail.head?, BinaryOperator.ofKind? next.kind = none ∧ next.kind ≠ .symbol .leftParen ∧
      next.kind ≠ .symbol .dot)
    (cursor : Cursor) (isRest : cursor.rest = tokens ++ tail) :
    ∃ read after, (Reader.expr.run).run cursor = (some read, after) ∧ read.unplaced = expr.unplaced ∧
      after.rest = tail ∧ after.errors = cursor.errors := by
  have ends : EndsAbove Precedence.lowest tail := by
    intro next isNext
    obtain ⟨noOperator, opensNot, dotNot⟩ := stops next isNext
    exact ⟨opensNot, dotNot, fun operator isOperator => nomatch noOperator.symm.trans isOperator⟩
  have enough : 4 * tokens.length + 1 ≤ 4 * (tokens ++ tail).length + 4 := by
    rw [List.length_append]
    omega
  obtain ⟨read, same, finds⟩ := (Reader.reads_spelled spelled isNormal).1.alone ends enough
  obtain ⟨after, ran, isTail, errors⟩ := Reader.finds_seq Reader.finds_fuel finds cursor isRest
  exact ⟨read, after, ran, same, isTail, errors⟩

theorem upper_of_chars {text upper : String} (same : text.toList.map Char.toUpper = upper.toList) :
    Text.upperAscii text = upper := by
  rw [Text.upperAscii, ← String.toList_inj, String.toList_map, same]

/-- The sign holds for the power and the complement for the comparison. -/
theorem complement_of_comparison_is_read :
    let token (kind : TokenKind) (text : String) : Token := ⟨kind, text, 0, 0, .start⟩
    let cursor := Cursor.ofTokens [token (.keyword .NOT) "NOT", token .identifier "a", token (.symbol .dot) ".",
      token .identifier "x", token (.symbol .lessEqualsLegacy) "=<", token (.symbol .minus) "-", token .identifier "b",
      token (.symbol .caret) "^", token .identifier "b", token (.keyword .THEN) "THEN"]
    let info : ExprInfo := ⟨.start, none⟩
    ∃ read after, (Reader.expr.run).run cursor = (some read, after) ∧
      read.unplaced = .unary .not (.binary .lessEqual (.member (.variable "A" info) "X" info)
        (.unary .negate (.binary .power (.variable "B" info) (.variable "B" info) info) info) info) info ∧
      after.rest = [token (.keyword .THEN) "THEN"] ∧ after.errors = [] := by
  intro token cursor info
  have upperA : Text.upperAscii (token .identifier "a").text = "A" :=
    upper_of_chars (show "a".toList.map Char.toUpper = "A".toList by rfl)
  have upperB : Text.upperAscii (token .identifier "b").text = "B" :=
    upper_of_chars (show "b".toList.map Char.toUpper = "B".toList by rfl)
  have upperX : Text.upperAscii (token .identifier "x").text = "X" :=
    upper_of_chars (show "x".toList.map Char.toUpper = "X".toList by rfl)
  have spelledA : Spelled (.variable "A" info) [token .identifier "a"] := upperA ▸ .variable .start rfl
  have spelledB : Spelled (.variable "B" info) [token .identifier "b"] := upperB ▸ .variable .start rfl
  have spelledMember : Spelled (.member (.variable "A" info) "X" info)
      [token .identifier "a", token (.symbol .dot) ".", token .identifier "x"] :=
    upperX ▸ .member .start spelledA rfl rfl rfl
  have spelledPower : Spelled (.binary .power (.variable "B" info) (.variable "B" info) info)
      [token .identifier "b", token (.symbol .caret) "^", token .identifier "b"] :=
    .binary .start spelledB (List.mem_singleton.mpr rfl) spelledB
  have spelledSign : Spelled (.unary .negate _ info) (token (.symbol .minus) "-" :: _) :=
    .unary .start rfl spelledPower
  have spelledComparison : Spelled (.binary .lessEqual _ _ info) (_ ++ token (.symbol .lessEqualsLegacy) "=<" :: _) :=
    .binary .start spelledMember (List.mem_cons_of_mem _ (List.mem_singleton.mpr rfl)) spelledSign
  have spelledWhole : Spelled (.unary .not _ info) (token (.keyword .NOT) "NOT" :: _) :=
    .unary .start rfl spelledComparison
  exact written_expression_is_read (by simp [Expr.IsNormal, Expr.precedence]; decide) spelledWhole
    (by simp [token, BinaryOperator.ofKind?]) cursor rfl

end BasicLang
