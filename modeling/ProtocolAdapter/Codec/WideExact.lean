/-
This file says what the 256-bit arithmetic of the decimal conversion is worth as a whole:
each operation answers with the number that integer arithmetic gives, and refuses exactly
when eight words cannot hold that number.
-/

import ProtocolAdapter.Codec.Wide

namespace ProtocolAdapter.Codec

open Foundation

/-! ### Unsigned numbers -/

/-- A result of eight words is a number: it is the words of that number, and it is missing
exactly when there are none. -/
structure ExactWide (result : Option Wide) (number : Nat) : Prop where
  value : ∀ wide, result = some wide ↔ wide.value = number
  answers : result.isSome = true ↔ number < 2 ^ 256

/-- A result that has a value whenever the number fits, and never has another one, is the
number. -/
theorem exactWide_of_sound {result : Option Wide} {number : Nat}
    (sound : ∀ wide, result = some wide → wide.value = number)
    (complete : number < 2 ^ 256 → ∃ wide, result = some wide) : ExactWide result number := by
  refine ⟨fun wide => ⟨sound wide, fun equal => ?_⟩, fun some => ?_, fun fits => ?_⟩
  · obtain ⟨other, run⟩ := complete (equal ▸ wide.value_lt)
    rw [run, Wide.eq_of_value ((sound other run).trans equal.symm)]
  · obtain ⟨wide, run⟩ := Option.isSome_iff_exists.mp some
    exact sound wide run ▸ wide.value_lt
  · exact Option.isSome_iff_exists.mpr (complete fits)

/-- A sum that is answered left no carry behind. -/
theorem Wide.value_of_add {left right sum : Wide} (run : left.add right = some sum) :
    sum.value = left.value + right.value := by
  have value := Limbs.addWords_value 0 (left.sized_eq right)
  unfold Wide.add at run
  simp only at run
  split at run
  · cases run
  · rename_i carry
    rw [Option.some.injEq] at run
    rw [not_not.mp carry, Nat.mul_zero, Nat.add_zero, Nat.add_zero] at value
    rw [← run]
    exact value

theorem Wide.add_exact (left right : Wide) :
    ExactWide (left.add right) (left.value + right.value) := by
  refine exactWide_of_sound (fun sum => value_of_add) fun fits => ?_
  obtain ⟨sum, run, -⟩ := add_eq fits
  exact ⟨sum, run⟩

/-- The difference is exact whenever there is one. -/
theorem Wide.subtract_exact (left right : Wide) :
    (left.subtract right).value + right.value = left.value ↔ right.value ≤ left.value := by
  constructor
  · intro exact
    omega
  · intro ordered
    rw [value_subtract ordered, Nat.sub_add_cancel ordered]

/-- A product that is answered has no upper half. -/
theorem Wide.value_of_multiply {left right product : Wide}
    (run : left.multiply right = some product) :
    product.value = left.value * right.value := by
  obtain ⟨length, value⟩ := left.product_spec right
  rw [← List.take_append_drop decimalCoefficientWordCount (left.product right),
    Limbs.value_append] at value
  unfold Wide.multiply at run
  simp only at run
  split at run
  · cases run
  · rename_i upper
    rw [any_ne_zero_iff, not_not] at upper
    rw [Option.some.injEq] at run
    rw [upper, Nat.mul_zero, Nat.add_zero] at value
    rw [← run]
    exact value

theorem Wide.multiply_exact (left right : Wide) :
    ExactWide (left.multiply right) (left.value * right.value) := by
  refine exactWide_of_sound (fun product => value_of_multiply) fun fits => ?_
  obtain ⟨product, run, -⟩ := multiply_eq fits
  exact ⟨product, run⟩

/-- The division answers with the only quotient and remainder there are, and with none for
the divisor zero. -/
theorem Wide.divide_exact (numerator denominator quotient remainder : Wide) :
    numerator.divide denominator = some (quotient, remainder) ↔
      quotient.value * denominator.value + remainder.value = numerator.value ∧
        remainder.value < denominator.value := by
  rcases Nat.eq_zero_or_pos denominator.value with zero | positive
  · rw [divide, dif_pos (denominator.isZero_iff.mpr zero), zero]
    refine ⟨(fun wrong => by cases wrong), ?_⟩
    rintro ⟨-, below⟩
    exact absurd below (Nat.not_lt_zero _)
  obtain ⟨answer, rest, run, answerValue, restValue⟩ := divide_eq numerator positive
  rw [run, Option.some.injEq, Prod.mk.injEq]
  constructor
  · rintro ⟨rfl, rfl⟩
    rw [answerValue, restValue]
    exact ⟨Nat.div_add_mod' _ _, Nat.mod_lt _ positive⟩
  · rintro ⟨exact, below⟩
    rw [← exact, Nat.add_comm, Nat.add_mul_div_right _ _ positive, Nat.div_eq_of_lt below,
      Nat.zero_add] at answerValue
    rw [← exact, Nat.add_comm, Nat.add_mul_mod_self_right, Nat.mod_eq_of_lt below] at restValue
    exact ⟨eq_of_value answerValue, eq_of_value restValue⟩

theorem Wide.divide_isSome (numerator denominator : Wide) :
    (numerator.divide denominator).isSome = true ↔ 0 < denominator.value := by
  constructor
  · intro answered
    obtain ⟨⟨quotient, remainder⟩, run⟩ := Option.isSome_iff_exists.mp answered
    exact Nat.zero_lt_of_lt ((divide_exact _ _ _ _).mp run).2
  · intro positive
    obtain ⟨quotient, remainder, run, -⟩ := divide_eq numerator positive
    rw [run]
    rfl

/-! ### Signed numbers -/

/-- A signed number is not the negative zero. -/
def SignedWide.HasPlainZero (number : SignedWide) : Prop :=
  number.magnitude.value = 0 → number.negative = false

/-- A signed result is an integer: it is the only form of that integer without a negative
zero, and it is missing exactly when the magnitude needs more than eight words. -/
structure ExactSigned (result : Option SignedWide) (number : Int) : Prop where
  value : ∀ signed, result = some signed ↔ signed.HasPlainZero ∧ signed.value = number
  answers : result.isSome = true ↔ number.natAbs < 2 ^ 256

theorem SignedWide.natAbs_value_lt (number : SignedWide) : number.value.natAbs < 2 ^ 256 := by
  rw [natAbs_value]
  exact number.magnitude.value_lt

theorem SignedWide.hasPlainZero_canonical (number : SignedWide) :
    number.canonical.HasPlainZero := by
  intro zero
  rw [negative_canonical, decide_eq_false_iff_not, ← value_canonical]
  have none := natAbs_value number.canonical
  omega

/-- Without a negative zero the sign of a number is that of its integer. -/
theorem SignedWide.negative_eq {number : SignedWide} (plain : number.HasPlainZero) :
    number.negative = decide (number.value < 0) := by
  unfold SignedWide.value
  cases sign : number.negative with
  | false => simp
  | true =>
    have nonzero : number.magnitude.value ≠ 0 := fun zero => by
      rw [plain zero] at sign
      cases sign
    simp
    omega

/-- Signed numbers without a negative zero are determined by their integer. -/
theorem SignedWide.eq_of_value {left right : SignedWide} (leftPlain : left.HasPlainZero)
    (rightPlain : right.HasPlainZero) (same : left.value = right.value) : left = right := by
  have magnitudes : left.magnitude = right.magnitude := by
    refine Wide.eq_of_value ?_
    rw [← natAbs_value, ← natAbs_value, same]
  have signs : left.negative = right.negative := by
    rw [negative_eq leftPlain, negative_eq rightPlain, same]
  obtain ⟨leftMagnitude, leftNegative⟩ := left
  obtain ⟨rightMagnitude, rightNegative⟩ := right
  simp only at magnitudes signs
  rw [magnitudes, signs]

theorem exactSigned_of_sound {result : Option SignedWide} {number : Int}
    (sound : ∀ signed, result = some signed → signed.HasPlainZero ∧ signed.value = number)
    (complete : number.natAbs < 2 ^ 256 → ∃ signed, result = some signed) :
    ExactSigned result number := by
  refine ⟨fun signed => ⟨sound signed, fun ⟨plain, equal⟩ => ?_⟩, fun some => ?_, fun fits => ?_⟩
  · obtain ⟨other, run⟩ := complete (equal ▸ signed.natAbs_value_lt)
    obtain ⟨otherPlain, otherEqual⟩ := sound other run
    rw [run, SignedWide.eq_of_value otherPlain plain (otherEqual.trans equal.symm)]
  · obtain ⟨signed, run⟩ := Option.isSome_iff_exists.mp some
    exact (sound signed run).2 ▸ signed.natAbs_value_lt
  · exact Option.isSome_iff_exists.mpr (complete fits)

/-- Every signed result of an operation is in its canonical form. -/
theorem SignedWide.hasPlainZero_of_add {left right sum : SignedWide}
    (run : left.add right = some sum) : sum.HasPlainZero := by
  unfold SignedWide.add at run
  split at run
  · obtain ⟨magnitude, -, equal⟩ := Option.bind_eq_some_iff.mp run
    rw [← Option.some.inj equal]
    exact hasPlainZero_canonical _
  · split at run <;>
      · rw [← Option.some.inj run]
        exact hasPlainZero_canonical _

theorem SignedWide.hasPlainZero_of_multiply {left right product : SignedWide}
    (run : left.multiply right = some product) : product.HasPlainZero := by
  obtain ⟨magnitude, -, equal⟩ := Option.bind_eq_some_iff.mp run
  rw [← Option.some.inj equal]
  exact hasPlainZero_canonical _

/-- Magnitudes under one sign add up to the magnitude of the sum. -/
theorem SignedWide.natAbs_add_alike {left right : SignedWide}
    (same : left.negative = right.negative) :
    (left.value + right.value).natAbs = left.magnitude.value + right.magnitude.value := by
  unfold SignedWide.value
  rw [same]
  cases right.negative <;> simp <;> omega

theorem SignedWide.add_exact (left right : SignedWide) :
    ExactSigned (left.add right) (left.value + right.value) := by
  by_cases same : left.negative = right.negative
  · have magnitudes := natAbs_add_alike same
    refine exactSigned_of_sound (fun sum run => ⟨hasPlainZero_of_add run, ?_⟩) fun fits => ?_
    · have added := run
      rw [add, if_pos same] at added
      obtain ⟨magnitude, magnitudeRun, -⟩ := Option.bind_eq_some_iff.mp added
      have fits := magnitude.value_lt
      rw [Wide.value_of_add magnitudeRun] at fits
      obtain ⟨other, otherRun, value⟩ := add_alike same fits
      rw [run, Option.some.injEq] at otherRun
      rw [otherRun, value]
    · obtain ⟨sum, run, -⟩ := add_alike same (magnitudes ▸ fits)
      exact ⟨sum, run⟩
  · obtain ⟨sum, run, value⟩ := add_opposite same
    refine exactSigned_of_sound (fun other otherRun => ⟨hasPlainZero_of_add otherRun, ?_⟩)
      fun _ => ⟨sum, run⟩
    rw [run, Option.some.injEq] at otherRun
    rw [← otherRun, value]

theorem SignedWide.multiply_exact (left right : SignedWide) :
    ExactSigned (left.multiply right) (left.value * right.value) := by
  have absolute : (left.value * right.value).natAbs =
      left.magnitude.value * right.magnitude.value := by
    rw [Int.natAbs_mul, natAbs_value, natAbs_value]
  refine exactSigned_of_sound (fun product run => ⟨hasPlainZero_of_multiply run, ?_⟩) fun fits => ?_
  · obtain ⟨magnitude, multiplied, -⟩ := Option.bind_eq_some_iff.mp run
    have fits := magnitude.value_lt
    rw [Wide.value_of_multiply multiplied, ← absolute, Int.natAbs_mul] at fits
    obtain ⟨other, otherRun, value⟩ := multiply_eq fits
    rw [run, Option.some.injEq] at otherRun
    rw [otherRun, value]
  · rw [Int.natAbs_mul] at fits
    obtain ⟨product, run, -⟩ := multiply_eq fits
    exact ⟨product, run⟩

/-- A number is a 64-bit integer exactly when its integer is one. -/
theorem SignedWide.toSigned_exact (number : SignedWide) (integer : Int64) :
    number.toSigned = some integer ↔ integer.toInt = number.value := by
  rw [toSigned_eq]
  constructor
  · intro run
    split at run
    · rename_i fits
      rw [← Option.some.inj run]
      exact Int64.toInt_ofInt_of_le fits.1 fits.2
    · cases run
  · intro equal
    rw [← equal, if_pos (fitsInt64_toInt integer), Int64.ofInt_toInt]

theorem SignedWide.toSigned_isSome (number : SignedWide) :
    number.toSigned.isSome = true ↔ FitsInt64 number.value := by
  rw [toSigned_eq]
  split <;> simp_all

/-! ### The arithmetic as a whole -/

/-- Unsigned sums and products are exact and refuse only what eight words cannot hold, a
difference is exact whenever there is one, and the division answers every positive divisor
with the quotient and the remainder. Signed sums and products are those of the integers,
in the one form without a negative zero, and a number is a 64-bit integer exactly when its
integer is one. -/
theorem wide_arithmetic_exact :
    (∀ left right : Wide,
      ExactWide (left.add right) (left.value + right.value) ∧
      ExactWide (left.multiply right) (left.value * right.value) ∧
      ((left.subtract right).value + right.value = left.value ↔ right.value ≤ left.value)) ∧
    (∀ numerator denominator : Wide,
      ((numerator.divide denominator).isSome = true ↔ 0 < denominator.value) ∧
      ∀ quotient remainder, numerator.divide denominator = some (quotient, remainder) ↔
        quotient.value * denominator.value + remainder.value = numerator.value ∧
          remainder.value < denominator.value) ∧
    (∀ left right : SignedWide,
      ExactSigned (left.add right) (left.value + right.value) ∧
      ExactSigned (left.multiply right) (left.value * right.value)) ∧
    ∀ number : SignedWide,
      (number.toSigned.isSome = true ↔ FitsInt64 number.value) ∧
      ∀ integer, number.toSigned = some integer ↔ integer.toInt = number.value :=
  ⟨fun left right => ⟨left.add_exact right, left.multiply_exact right, left.subtract_exact right⟩,
    fun numerator denominator =>
      ⟨numerator.divide_isSome denominator, numerator.divide_exact denominator⟩,
    fun left right => ⟨left.add_exact right, left.multiply_exact right⟩,
    fun number => ⟨number.toSigned_isSome, number.toSigned_exact⟩⟩

end ProtocolAdapter.Codec
