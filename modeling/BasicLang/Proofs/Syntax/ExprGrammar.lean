import BasicLang.Proofs.Syntax.Reader
import BasicLang.Syntax.ExprGrammar

set_option autoImplicit false

namespace BasicLang

namespace Reader

theorem of_integer_in_range {text : String} {literal : Literal}
    (read : Literal.ofInteger text = .ok literal) : literal.InRange := by
  unfold Literal.ofInteger at read
  simp only at read
  split at read
  · rw [← Except.ok.inj read]
    trivial
  · split at read
    · split at read
      · cases read
      · rw [← Except.ok.inj read]
        constructor <;> omega
    · split at read
      · cases read
      · rw [← Except.ok.inj read]
        constructor <;> omega
    · split at read
      · rw [← Except.ok.inj read]
        constructor <;> omega
      · split at read
        · rw [← Except.ok.inj read]
          constructor <;> omega
        · rw [← Except.ok.inj read]
          trivial

theorem of_radix_in_range {radix : Nat} {text : String} {literal : Literal}
    (read : Literal.ofRadix radix text = .ok literal) : literal.InRange := by
  unfold Literal.ofRadix at read
  simp only at read
  split at read
  · cases read
  · split at read
    · rw [← Except.ok.inj read]
      exact ⟨Int16.le_toInt _, by
        have := Int16.toInt_lt (Int16.ofNat (ofDigits radix ((splitSigil ['&'] text).1.drop 2)))
        omega⟩
    · split at read
      · rw [← Except.ok.inj read]
        exact ⟨Int32.le_toInt _, by
          have := Int32.toInt_lt (Int32.ofNat (ofDigits radix ((splitSigil ['&'] text).1.drop 2)))
          omega⟩
      · cases read

theorem of_token_in_range {token : Token} {literal : Literal}
    (read : Literal.ofToken? token = some (.ok literal)) : literal.InRange := by
  unfold Literal.ofToken? at read
  split at read
  · exact of_integer_in_range (Option.some.inj read)
  · rw [← Except.ok.inj (Option.some.inj read), Literal.ofFloat]
    simp only
    split <;> trivial
  · exact of_radix_in_range (Option.some.inj read)
  · exact of_radix_in_range (Option.some.inj read)
  · exact of_radix_in_range (Option.some.inj read)
  · rw [← Except.ok.inj (Option.some.inj read)]
    trivial
  · cases read

theorem yields_members (object : Expr) (wellFormed : object.WellFormed) (fuel : Nat) :
    Yields Expr.WellFormed (members object fuel) := by
  induction fuel generalizing object with
  | zero => exact yields_out_of_steps
  | succ fuel ih =>
    refine yields_seq (yields_accept _) fun accepted _ => ?_
    split
    · exact yields_seq (yields_expect_name _) fun _ _ => ih _ wellFormed
    · exact yields_unit wellFormed

theorem yields_fail_operand {α : Type} {result : α → Prop} : Yields result (failOperand : Reader α) := by
  refine yields_seq (yields_modify (record_expected_lexed _)) fun _ _ =>
    yields_seq yields_get fun cursor _ => ?_
  split
  · exact yields_seq yields_advance fun _ _ => yields_nothing
  · exact yields_nothing

mutual

theorem yields_expr_above (least fuel : Nat) : Yields Expr.WellFormed (exprAbove least fuel) := by
  cases fuel with
  | zero => exact yields_out_of_steps
  | succ fuel =>
    exact yields_seq (yields_operand fuel) fun left wellFormed => yields_operators least left wellFormed fuel

theorem yields_operators (least : Nat) (left : Expr) (wellFormed : left.WellFormed) (fuel : Nat) :
    Yields Expr.WellFormed (operators least left fuel) := by
  cases fuel with
  | zero => exact yields_out_of_steps
  | succ fuel =>
    unfold operators
    refine yields_seq yields_get fun cursor _ => ?_
    split
    · split
      · exact yields_seq yields_advance fun _ _ =>
          yields_seq (yields_expr_above _ fuel) fun right rightFormed =>
            yields_operators least _ (by exact ⟨wellFormed, rightFormed⟩) fuel
      · exact yields_unit wellFormed
    · exact yields_unit wellFormed

theorem yields_operand (fuel : Nat) : Yields Expr.WellFormed (operand fuel) := by
  cases fuel with
  | zero => exact yields_out_of_steps
  | succ fuel =>
    unfold operand
    refine yields_seq yields_get fun cursor _ => ?_
    split
    · exact yields_fail_expected _
    · split
      · next literal read =>
        exact yields_seq yields_advance fun _ _ => yields_unit (of_token_in_range read)
      · exact yields_seq yields_advance fun _ _ => yields_fail _ _
      · split
        · exact yields_reference_at fuel
        · exact yields_seq yields_advance fun _ _ =>
            yields_seq (yields_expr_above _ fuel) fun inner wellFormed =>
              yields_seq (yields_expect_symbol _ _) fun _ _ => yields_unit wellFormed
        · exact yields_seq yields_advance fun _ _ =>
            yields_seq (yields_expr_above _ fuel) fun inner wellFormed => yields_unit wellFormed
        · exact yields_seq yields_advance fun _ _ => yields_expr_above _ fuel
        · exact yields_seq yields_advance fun _ _ =>
            yields_seq (yields_expr_above _ fuel) fun inner wellFormed => yields_unit wellFormed
        · exact yields_fail_operand

theorem yields_reference_at (fuel : Nat) : Yields Expr.WellFormed (referenceAt fuel) := by
  cases fuel with
  | zero => exact yields_out_of_steps
  | succ fuel =>
    unfold referenceAt
    refine yields_seq (yields_expect_name _) fun found named => ?_
    obtain ⟨name, locus⟩ := found
    refine yields_seq (yields_accept _) fun accepted _ => ?_
    split
    · exact yields_seq (yields_arguments_at fuel) fun arguments wellFormed =>
        yields_seq (yields_expect_symbol _ _) fun _ _ =>
          yields_members _ (by exact ⟨named, wellFormed⟩) _
    · exact yields_members _ (by exact named) _

theorem yields_arguments_at (fuel : Nat) : Yields Expr.AllWellFormed (argumentsAt fuel) := by
  cases fuel with
  | zero => exact yields_out_of_steps
  | succ fuel =>
    unfold argumentsAt
    refine yields_seq (yields_is_at_symbol _) fun closes _ => ?_
    split
    · exact yields_unit trivial
    · exact yields_seq (yields_expr_above _ fuel) fun first wellFormed =>
        yields_seq (yields_further_arguments fuel) fun others othersFormed =>
          yields_unit ⟨wellFormed, othersFormed⟩

theorem yields_further_arguments (fuel : Nat) :
    Yields Expr.AllWellFormed (furtherArguments fuel) := by
  cases fuel with
  | zero => exact yields_out_of_steps
  | succ fuel =>
    unfold furtherArguments
    refine yields_seq (yields_accept _) fun accepted _ => ?_
    split
    · exact yields_seq (yields_expr_above _ fuel) fun first wellFormed =>
        yields_seq (yields_further_arguments fuel) fun others othersFormed =>
          yields_unit ⟨wellFormed, othersFormed⟩
    · exact yields_unit trivial

end

theorem yields_fuel : Yields (fun _ => True) exprFuel :=
  yields_seq yields_get fun _ _ => yields_unit trivial

theorem yields_expr : Yields Expr.WellFormed expr :=
  yields_seq yields_fuel fun _ _ => yields_expr_above _ _

theorem yields_reference : Yields Expr.WellFormed reference :=
  yields_seq yields_fuel fun _ _ => yields_reference_at _

theorem yields_arguments : Yields (fun found => ∀ expr ∈ found, expr.WellFormed) arguments :=
  yields_seq yields_fuel fun _ _ =>
    yields_weaken (yields_arguments_at _) fun found => (Expr.all_well_formed_iff found).mp

theorem yields_after_commas {α : Type} {result : α → Prop} {reader : Reader α}
    (yields : Yields result reader) (fuel : Nat) :
    Yields (fun found => ∀ item ∈ found, result item) (afterCommas reader fuel) := by
  induction fuel with
  | zero => exact yields_out_of_steps
  | succ fuel ih =>
    refine yields_seq (yields_accept _) fun accepted _ => ?_
    split
    · exact yields_seq yields fun first holds => yields_seq ih fun others othersHold =>
        yields_unit (List.forall_mem_cons.mpr ⟨holds, othersHold⟩)
    · exact yields_unit fun _ inside => nomatch inside

theorem yields_comma_list {α : Type} {result : α → Prop} {reader : Reader α}
    (yields : Yields result reader) :
    Yields (fun found => ∀ item ∈ found, result item) (commaList reader) :=
  yields_seq yields fun _ holds => yields_seq yields_get fun _ _ =>
    yields_seq (yields_after_commas yields _) fun _ othersHold =>
      yields_unit (List.forall_mem_cons.mpr ⟨holds, othersHold⟩)

theorem yields_keyword (keyword : Keyword) : Yields (fun _ => True) (acceptKeyword keyword) :=
  yields_accept _

theorem yields_symbol (symbol : Symbol) : Yields (fun _ => True) (acceptSymbol symbol) :=
  yields_accept _

end Reader

end BasicLang
