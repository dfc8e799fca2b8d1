import BasicLang.Machine.Execute
import BasicLang.Proofs.Machine.Points
import BasicLang.Proofs.Number.WholeValues

set_option autoImplicit false

namespace BasicLang

theorem Ty.whole_scalar (ty : Ty) (number : Int) : (ty.whole number).isScalar = true := by
  cases ty <;> rfl

theorem Run.fits_whole {ty : Ty} {number : Int} (isWhole : ty = .integer ∨ ty = .long) (small : number.natAbs < 2 ^ 53) :
    Run.fits ty (Double.roundToEven (Double.ofInt number)) = true ↔ ty.InRange number := by
  have exact {limit : Int} (inRange : Ty.long.InRange limit) : limit.natAbs < 2 ^ 53 := inRange.exact
  rw [Double.round_of_int small]
  rcases isWhole with rfl | rfl
  · rw [Run.fits, least_integer, most_integer]
    rw [Bool.and_eq_true, decide_eq_true_eq, decide_eq_true_eq, Double.of_int_le (exact (by decide)) small,
      Double.of_int_le small (exact (by decide))]
    rfl
  · rw [Run.fits, least_long, most_long]
    rw [Bool.and_eq_true, decide_eq_true_eq, decide_eq_true_eq, Double.of_int_le (exact (by decide)) small,
      Double.of_int_le small (exact (by decide))]
    rfl

structure Count where
  ty : Ty
  first : Int
  last : Int
  step : Int

namespace Count

variable {count : Count} {round : Nat}

def value (count : Count) (round : Nat) : Int := count.first + round * count.step

def rounds (count : Count) : Nat := ((count.last - count.first).fdiv count.step + 1).toNat

structure Proper (count : Count) : Prop where
  first : count.ty.InRange count.first
  last : Ty.long.InRange count.last
  step : Ty.long.InRange count.step
  moves : count.step ≠ 0

theorem Proper.is_whole (proper : count.Proper) : count.ty = .integer ∨ count.ty = .long := by
  have first := proper.first
  cases ty : count.ty with
  | integer => exact .inl rfl
  | long => exact .inr rfl
  | _ =>
    rw [ty] at first
    exact first.elim

theorem value_zero (count : Count) : count.value 0 = count.first := by simp [value]

theorem value_succ (count : Count) (round : Nat) : count.value round + count.step = count.value (round + 1) := by
  rw [value, value, Nat.cast_succ, Int.add_mul, Int.one_mul, Int.add_assoc]

def values (count : Count) (rounds : Nat) : List Value := (List.range rounds).map fun round => count.ty.whole (count.value round)

theorem length_values (count : Count) (rounds : Nat) : (count.values rounds).length = rounds := by simp [values]

theorem values_succ (count : Count) (rounds : Nat) :
    count.values (rounds + 1) = count.values rounds ++ [count.ty.whole (count.value rounds)] := by
  simp [values, List.range_succ]

def Within (count : Count) (round : Nat) : Prop :=
  if 0 ≤ count.step then count.value round ≤ count.last else count.last ≤ count.value round

theorem Proper.lt_rounds (proper : count.Proper) : round < count.rounds ↔ count.Within round := by
  have below : round < count.rounds ↔ (round : Int) ≤ (count.last - count.first).fdiv count.step := by
    rw [rounds]
    omega
  rw [below, Within, value]
  by_cases upwards : 0 ≤ count.step
  · have positive : 0 < count.step := lt_of_le_of_ne upwards proper.moves.symm
    rw [if_pos upwards, Int.fdiv_eq_ediv_of_nonneg _ upwards, Int.le_ediv_iff_mul_le positive]
    omega
  · have positive : 0 < -count.step := by omega
    rw [if_neg upwards, ← Int.neg_fdiv_neg, Int.fdiv_eq_ediv_of_nonneg _ (Int.le_of_lt positive),
      Int.le_ediv_iff_mul_le positive, Int.mul_neg]
    omega

theorem Proper.next_exact (proper : count.Proper) (inRange : count.ty.InRange (count.value round)) :
    (count.value (round + 1)).natAbs < 2 ^ 53 := by
  have value := inRange.bounds
  have step := proper.step.bounds
  rw [← value_succ]
  omega

theorem Proper.next (proper : count.Proper) (inRange : count.ty.InRange (count.value round)) :
    Double.ofInt (count.value round) + Double.ofInt count.step = Double.ofInt (count.value (round + 1)) := by
  have exact := proper.next_exact inRange
  rw [← value_succ] at exact ⊢
  exact Double.of_int_add inRange.exact proper.step.exact exact

theorem Proper.past (proper : count.Proper) (inRange : count.ty.InRange (count.value round)) :
    (if 0 ≤ Double.ofInt count.step then Double.ofInt count.last < Double.ofInt (count.value round)
      else Double.ofInt (count.value round) < Double.ofInt count.last) ↔ ¬count.Within round := by
  have upwards : 0 ≤ Double.ofInt count.step ↔ 0 ≤ count.step := by
    rw [zero_of_int, Double.of_int_le (by decide) proper.step.exact]
  rw [Within]
  by_cases isUpwards : 0 ≤ count.step
  · rw [if_pos (upwards.mpr isUpwards), if_pos isUpwards, Double.of_int_lt proper.last.exact inRange.exact, Int.not_le]
  · rw [if_neg (mt upwards.mp isUpwards), if_neg isUpwards, Double.of_int_lt inRange.exact proper.last.exact, Int.not_le]

end Count

end BasicLang
