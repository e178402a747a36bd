/-
This file treats a decimal as an integer coefficient over a power of ten. Cancelling the
common factors of ten gives a normal form, and two decimals have the same value exactly
when they have the same normal form.
-/

import Mathlib.Algebra.Order.Ring.Int
import Mathlib.Algebra.Order.Field.Rat
import Mathlib.Data.Rat.Cast.Order
import Mathlib.Order.Bounds.Basic
import Mathlib.RingTheory.Coprime.Lemmas
import Mathlib.Tactic.FieldSimp
import Mathlib.Tactic.Ring

namespace Foundation.Decimal

/-- Cancels the factors of ten that a coefficient shares with its power of ten. -/
def normalForm (coefficient : Int) : Nat → Int × Nat
  | 0 => (coefficient, 0)
  | scale + 1 =>
    if 10 ∣ coefficient then normalForm (coefficient / 10) scale else (coefficient, scale + 1)

/-- Whether `coefficient / 10 ^ scale` and `coefficient' / 10 ^ scale'` are the same
number. -/
def SameValue (coefficient : Int) (scale : Nat) (coefficient' : Int) (scale' : Nat) : Prop :=
  coefficient * 10 ^ scale' = coefficient' * 10 ^ scale

theorem normalForm_mul_ten (coefficient : Int) (scale : Nat) :
    normalForm (coefficient * 10) (scale + 1) = normalForm coefficient scale := by
  rw [normalForm, if_pos (Dvd.intro_left _ rfl), Int.mul_ediv_cancel _ (by decide)]

theorem normalForm_zero : ∀ scale : Nat, normalForm 0 scale = (0, 0)
  | 0 => rfl
  | scale + 1 => (normalForm_mul_ten 0 scale).trans (normalForm_zero scale)

theorem normalForm_mul_pow (coefficient : Int) (scale : Nat) : ∀ extra : Nat,
    normalForm (coefficient * 10 ^ extra) (scale + extra) = normalForm coefficient scale
  | 0 => by rw [pow_zero, mul_one, Nat.add_zero]
  | extra + 1 => by
    rw [pow_succ, ← mul_assoc, ← Nat.add_assoc, normalForm_mul_ten,
      normalForm_mul_pow coefficient scale extra]

/-- The normal form has the value it is the form of. -/
theorem normalForm_spec (coefficient : Int) : ∀ scale : Nat,
    (normalForm coefficient scale).2 ≤ scale ∧
      (normalForm coefficient scale).1 * 10 ^ (scale - (normalForm coefficient scale).2) =
        coefficient
  | 0 => by simp [normalForm]
  | scale + 1 => by
    unfold normalForm
    split
    · rename_i divides
      obtain ⟨smaller, value⟩ := normalForm_spec (coefficient / 10) scale
      refine ⟨Nat.le_succ_of_le smaller, ?_⟩
      rw [Nat.succ_sub smaller, pow_succ, ← mul_assoc, value, Int.ediv_mul_cancel divides]
    · simp

theorem normalForm_le (coefficient : Int) (scale : Nat) :
    (normalForm coefficient scale).2 ≤ scale := (normalForm_spec coefficient scale).1

/-- A range around zero that holds a coefficient holds its normal form. -/
theorem normalForm_bounds {coefficient lower upper : Int} (scale : Nat) (below : lower ≤ 0)
    (above : 0 ≤ upper) (bounds : lower ≤ coefficient ∧ coefficient ≤ upper) :
    lower ≤ (normalForm coefficient scale).1 ∧ (normalForm coefficient scale).1 ≤ upper := by
  induction scale generalizing coefficient with
  | zero => exact bounds
  | succ scale inductionHypothesis =>
    unfold normalForm
    split
    · exact inductionHypothesis (by omega)
    · exact bounds

theorem sameValue_normalForm (coefficient : Int) (scale : Nat) :
    SameValue coefficient scale (normalForm coefficient scale).1
      (normalForm coefficient scale).2 := by
  obtain ⟨smaller, value⟩ := normalForm_spec coefficient scale
  generalize normalForm coefficient scale = form at smaller value ⊢
  rw [SameValue, ← value, mul_assoc, ← pow_add, Nat.sub_add_cancel smaller]

/-- Two decimals have the same value exactly when they have the same normal form. -/
theorem normalForm_eq_iff {coefficient coefficient' : Int} {scale scale' : Nat} :
    normalForm coefficient scale = normalForm coefficient' scale' ↔
      SameValue coefficient scale coefficient' scale' := by
  constructor
  · intro same
    obtain ⟨smaller, value⟩ := normalForm_spec coefficient scale
    obtain ⟨smaller', value'⟩ := normalForm_spec coefficient' scale'
    rw [← same] at smaller' value'
    rw [SameValue, ← value, ← value', mul_assoc, mul_assoc, ← pow_add, ← pow_add]
    congr 2
    omega
  · intro same
    rw [← normalForm_mul_pow coefficient scale scale', same, Nat.add_comm,
      normalForm_mul_pow coefficient' scale' scale]

/-! ### Ratios -/

/-- A ratio that is a decimal of a number of places. -/
def HasPlaces (ratio : ℚ) (places : Nat) : Prop :=
  ∃ coefficient : Int, ratio = coefficient / 10 ^ places

theorem ten_pow_ne_zero (places : Nat) : (10 : ℚ) ^ places ≠ 0 := pow_ne_zero _ (by norm_num)

theorem HasPlaces.mono {ratio : ℚ} {fewer more : Nat} (has : HasPlaces ratio fewer)
    (le : fewer ≤ more) : HasPlaces ratio more := by
  obtain ⟨coefficient, rfl⟩ := has
  refine ⟨coefficient * 10 ^ (more - fewer), ?_⟩
  have split : (10 : ℚ) ^ more = 10 ^ fewer * 10 ^ (more - fewer) := by
    rw [← pow_add, Nat.add_sub_cancel' le]
  push_cast
  rw [split]
  field_simp

/-- A fraction in lowest terms is a decimal exactly when its denominator divides the power
of ten. -/
theorem hasPlaces_div_iff {numerator : Int} {denominator places : Nat} (positive : 0 < denominator)
    (lowest : numerator.natAbs.Coprime denominator) :
    HasPlaces ((numerator : ℚ) / denominator) places ↔ denominator ∣ 10 ^ places := by
  have nonzero : (denominator : ℚ) ≠ 0 := by exact_mod_cast positive.ne'
  constructor
  · rintro ⟨coefficient, equal⟩
    have cross : numerator * 10 ^ places = coefficient * denominator := by
      rw [div_eq_div_iff nonzero (ten_pow_ne_zero places)] at equal
      exact_mod_cast equal
    have divides : denominator ∣ numerator.natAbs * 10 ^ places := by
      have magnitudes := congrArg Int.natAbs cross
      rw [Int.natAbs_mul, Int.natAbs_mul, Int.natAbs_pow, Int.natAbs_natCast] at magnitudes
      exact Dvd.intro_left _ magnitudes.symm
    exact lowest.symm.dvd_of_dvd_mul_left divides
  · rintro ⟨factor, equal⟩
    refine ⟨numerator * factor, ?_⟩
    have power : (10 : ℚ) ^ places = denominator * factor := by exact_mod_cast equal
    have factorNonzero : (factor : ℚ) ≠ 0 := by
      rintro zero
      rw [zero, mul_zero] at power
      exact ten_pow_ne_zero places power
    push_cast
    rw [power]
    field_simp

/-- The normal form is the decimal with the fewest places. -/
theorem isLeast_normalForm (coefficient : Int) (scale : Nat) :
    IsLeast {places | HasPlaces ((coefficient : ℚ) / 10 ^ scale) places}
      (normalForm coefficient scale).2 := by
  have same : ∀ {other : Int} {places : Nat},
      (coefficient : ℚ) / 10 ^ scale = other / 10 ^ places ↔
        SameValue coefficient scale other places := by
    intro other places
    rw [div_eq_div_iff (ten_pow_ne_zero _) (ten_pow_ne_zero _), SameValue]
    norm_cast
  refine ⟨⟨_, same.mpr (sameValue_normalForm coefficient scale)⟩, ?_⟩
  rintro places ⟨other, equal⟩
  rw [normalForm_eq_iff.mpr (same.mp equal)]
  exact normalForm_le other places

theorem normalForm_ratio (coefficient : Int) (scale : Nat) :
    (coefficient : ℚ) / 10 ^ scale =
      (normalForm coefficient scale).1 / 10 ^ (normalForm coefficient scale).2 := by
  have same := sameValue_normalForm coefficient scale
  rw [SameValue] at same
  rw [div_eq_div_iff (ten_pow_ne_zero _) (ten_pow_ne_zero _)]
  exact_mod_cast same

end Foundation.Decimal
