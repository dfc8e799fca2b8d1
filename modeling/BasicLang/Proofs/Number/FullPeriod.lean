import BasicLang.Number.Random
import Mathlib.Dynamics.PeriodicPts.Lemmas
import Mathlib.Data.Nat.ModEq
import Mathlib.Data.Set.Card
import Mathlib.Tactic.Ring

set_option autoImplicit false

namespace BasicLang

namespace Generator

/-- What is done with a generator: a number is drawn from it, or it is seeded. -/
inductive Use where
  | draw
  | seed (seed : Float)

def afterUse (generator : Generator) : Use → Generator
  | .draw => generator.next.2
  | .seed seed => generator.randomize seed

def afterUses (generator : Generator) (uses : List Use) : Generator := uses.foldl afterUse generator

def drawn (count : Nat) (generator : Generator) : Generator := (fun generator => generator.next.2)^[count] generator

def InRange (generator : Generator) : Prop := generator.state < modulus

theorem InRange.lt {generator : Generator} (inRange : generator.InRange) : generator.state < modulus := inRange

theorem initial_in_range : initial.InRange := by
  unfold InRange
  decide

theorem next_in_range (generator : Generator) : generator.next.2.InRange := Nat.mod_lt _ (by decide)

theorem randomize_in_range (generator : Generator) (seed : Float) : (generator.randomize seed).InRange := by
  have low : generator.state % 0x100 < 0x100 := Nat.mod_lt _ (by decide)
  have high : (seed.toBits.toNat / 0x1000000000000 ^^^ seed.toBits.toNat / 0x100000000) % 0x10000 < 0x10000 :=
    Nat.mod_lt _ (by decide)
  dsimp only [InRange, randomize, modulus]
  omega

theorem after_use_in_range (generator : Generator) (use : Use) : (generator.afterUse use).InRange := by
  cases use with
  | draw => exact next_in_range generator
  | seed seed => exact randomize_in_range generator seed

theorem after_uses_in_range {generator : Generator} (inRange : generator.InRange) (uses : List Use) :
    (generator.afterUses uses).InRange := by
  induction uses generalizing generator with
  | nil => exact inRange
  | cons use uses ih => exact ih (after_use_in_range generator use)

theorem drawn_add (first second : Nat) (generator : Generator) :
    drawn (first + second) generator = drawn first (drawn second generator) :=
  Function.iterate_add_apply _ first second generator

theorem drawn_same_iff (count : Nat) (generator : Generator) : drawn count generator = generator ↔
    Function.IsPeriodicPt (fun generator : Generator => generator.next.2) count generator := Iff.rfl

theorem drawn_in_range {generator : Generator} (inRange : generator.InRange) (count : Nat) :
    (drawn count generator).InRange := by
  induction count generalizing generator with
  | zero => exact inRange
  | succ count ih =>
    rw [drawn_add]
    exact ih (next_in_range generator)

theorem eq_of_congruent {generator other : Generator} (inRange : generator.InRange) (otherInRange : other.InRange)
    (congruent : generator.state ≡ other.state [MOD modulus]) : generator = other := by
  have same : generator.state = other.state := Nat.ModEq.eq_of_lt_of_lt congruent inRange.lt otherInRange.lt
  cases generator
  cases other
  exact congrArg mk same

theorem draws_are_affine (power : Nat) : ∃ scale shift, ∀ generator, (drawn (2 ^ power) generator).state ≡
    generator.state * (1 + 2 ^ (power + 2) * scale) + 2 ^ power * (2 * shift + 1) [MOD modulus] := by
  induction power with
  | zero =>
    have scaled : multiplier = 1 + 2 ^ (0 + 2) * (multiplier / 4) := by decide
    have shifted : increment = 2 ^ 0 * (2 * (increment / 2) + 1) := by decide
    refine ⟨multiplier / 4, increment / 2, fun generator => ?_⟩
    rw [← scaled, ← shifted]
    exact Nat.mod_modEq _ modulus
  | succ power ih =>
    obtain ⟨scale, shift, once⟩ := ih
    refine ⟨scale + 2 ^ (power + 1) * scale * scale, shift + 2 ^ power * scale * (2 * shift + 1), fun generator => ?_⟩
    have twice := (once (drawn (2 ^ power) generator)).trans
      (((once generator).mul_right (1 + 2 ^ (power + 2) * scale)).add_right (2 ^ power * (2 * shift + 1)))
    rw [← drawn_add, ← Nat.mul_two, ← Nat.pow_succ] at twice
    refine twice.trans (congrArg (· % modulus) ?_)
    ring

theorem returns_after_modulus {generator : Generator} (inRange : generator.InRange) :
    drawn (2 ^ 24) generator = generator := by
  obtain ⟨scale, shift, moves⟩ := draws_are_affine 24
  have whole : generator.state * (1 + 2 ^ (24 + 2) * scale) + 2 ^ 24 * (2 * shift + 1) =
      generator.state + modulus * (4 * generator.state * scale + (2 * shift + 1)) := by
    rw [show modulus = 2 ^ 24 from rfl]
    ring
  have congruent := moves generator
  rw [whole] at congruent
  exact eq_of_congruent (drawn_in_range inRange _) inRange (congruent.trans (by simp))

theorem differs_at_half (generator : Generator) : drawn (2 ^ 23) generator ≠ generator := by
  obtain ⟨scale, shift, moves⟩ := draws_are_affine 23
  intro same
  have half : generator.state * (1 + 2 ^ (23 + 2) * scale) + 2 ^ 23 * (2 * shift + 1) =
      generator.state + 2 ^ 23 + modulus * (2 * generator.state * scale + shift) := by
    rw [show modulus = 2 ^ 24 from rfl]
    ring
  have stays := moves generator
  rw [same, half] at stays
  have cancelled : 0 ≡ 2 ^ 23 + modulus * (2 * generator.state * scale + shift) [MOD modulus] :=
    Nat.ModEq.add_left_cancel' generator.state (by rwa [Nat.add_zero, ← Nat.add_assoc])
  simp [Nat.ModEq, modulus] at cancelled

theorem period_of_draws {generator : Generator} (inRange : generator.InRange) :
    Function.minimalPeriod (fun generator => generator.next.2) generator = 2 ^ 24 :=
  haveI : Fact (Nat.Prime 2) := ⟨Nat.prime_two⟩
  Function.minimalPeriod_eq_prime_pow (k := 23) (mt (drawn_same_iff _ _).mpr (differs_at_half generator))
    ((drawn_same_iff _ _).mp (returns_after_modulus inRange))

theorem draws_visit_once {generator : Generator} (inRange : generator.InRange) :
    Set.BijOn (fun count => (drawn count generator).state) (Set.Iio (2 ^ 24)) (Set.Iio (2 ^ 24)) := by
  have inside : Set.MapsTo (fun count => (drawn count generator).state) (Set.Iio (2 ^ 24)) (Set.Iio (2 ^ 24)) :=
    fun count _ => drawn_in_range inRange count
  have distinct := Function.iterate_injOn_Iio_minimalPeriod (f := fun generator : Generator => generator.next.2)
    (x := generator)
  rw [period_of_draws inRange] at distinct
  refine ((Set.finite_Iio _).injOn_iff_bijOn_of_mapsTo inside).mp fun count isCount other isOther same => ?_
  exact distinct isCount isOther (congrArg mk same)

/-- From every state that draws and seeds lead to, the draws that follow visit each state of 24 bits once and then start
over, and no sum or product needs more than 64 bits. -/
theorem every_state_recurs (uses : List Use) :
    let generator := initial.afterUses uses
    generator.state < 2 ^ 24 ∧
      Set.BijOn (fun count => (drawn count generator).state) (Set.Iio (2 ^ 24)) (Set.Iio (2 ^ 24)) ∧
      drawn (2 ^ 24) generator = generator ∧
      Function.minimalPeriod (fun generator => generator.next.2) generator = 2 ^ 24 ∧
      ∀ count, (drawn count generator).state * multiplier + increment < 2 ^ 64 := by
  intro generator
  have inRange : generator.InRange := after_uses_in_range initial_in_range uses
  refine ⟨inRange, draws_visit_once inRange, returns_after_modulus inRange, period_of_draws inRange, fun count => ?_⟩
  have bound : (drawn count generator).state < modulus := drawn_in_range inRange count
  simp only [modulus, multiplier, increment] at bound ⊢
  omega

end Generator

end BasicLang
