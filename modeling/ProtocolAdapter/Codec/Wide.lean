/-
This file models the 256-bit arithmetic of the decimal conversion: eight words of 32
bits with a sign beside them. Every operation is exact or refuses; the lemmas say so
in terms of the numbers the words stand for.
-/

import ProtocolAdapter.Foundation.Limbs
import ProtocolAdapter.Plan.Conversion
import Mathlib.Tactic.Ring

namespace ProtocolAdapter.Codec

open Foundation

/-! ### Unsigned numbers -/

/-- An unsigned number of eight words, the least significant first. -/
structure Wide where
  words : List UInt32
  sized : words.length = decimalCoefficientWordCount

/-- The number the words stand for. -/
def Wide.value (wide : Wide) : Nat := Limbs.value wide.words

/-- A 64-bit number. -/
def Wide.from64 (number : Nat) : Wide :=
  ⟨UInt32.ofNat number :: UInt32.ofNat (number / 2 ^ 32) :: List.replicate 6 0, rfl⟩

/-- The number zero. -/
def Wide.zero : Wide := ⟨List.replicate decimalCoefficientWordCount 0, rfl⟩

def Wide.compare (left right : Wide) : Ordering := Limbs.compareWords left.words right.words

def Wide.isZero (wide : Wide) : Bool := wide.compare .zero == .eq

theorem Wide.sized_eq (left right : Wide) : left.words.length = right.words.length :=
  left.sized.trans right.sized.symm

/-- The sum, unless a carry leaves the last word. -/
def Wide.add (left right : Wide) : Option Wide :=
  let sum := Limbs.addWords left.words right.words 0
  if sum.2 ≠ 0 then none
  else some ⟨sum.1, (Limbs.addWords_length 0 (left.sized_eq right)).trans left.sized⟩

/-- The difference modulo the words. -/
def Wide.subtract (left right : Wide) : Wide :=
  ⟨Limbs.subtractWords left.words right.words 0,
    (Limbs.subtractWords_length 0 (left.sized_eq right)).trans left.sized⟩

/-- The words of a product, twice as many as those of its factors. -/
def Wide.product (left right : Wide) : List UInt32 :=
  Limbs.multiplyWords left.words right.words
    (List.replicate right.words.length 0 ++ List.replicate left.words.length 0)

theorem Wide.product_spec (left right : Wide) :
    (left.product right).length = decimalCoefficientWordCount + decimalCoefficientWordCount ∧
      Limbs.value (left.product right) = left.value * right.value := by
  obtain ⟨length, value⟩ := Limbs.multiplyWords_spec left.words right.words
    (List.replicate right.words.length 0) List.length_replicate
  refine ⟨length.trans (by rw [right.sized, left.sized]), ?_⟩
  rw [Wide.product, value, Limbs.value_replicate_zero, Nat.add_zero]
  rfl

/-- The product, unless its upper half is not zero. -/
def Wide.multiply (left right : Wide) : Option Wide :=
  let product := left.product right
  if (product.drop decimalCoefficientWordCount).any (· ≠ 0) then none
  else some ⟨product.take decimalCoefficientWordCount, by
    rw [List.length_take, (left.product_spec right).1]; rfl⟩

/-- The words of a quotient and a remainder. -/
def Wide.divideWords (numerator denominator : Wide) : List UInt32 × List UInt32 :=
  Limbs.divideFrom numerator.words denominator.words (32 * numerator.words.length)
    (List.replicate numerator.words.length 0, List.replicate denominator.words.length 0)

theorem Wide.isZero_iff (wide : Wide) : wide.isZero = true ↔ wide.value = 0 := by
  rw [Wide.isZero, Wide.compare, beq_iff_eq, Limbs.compareWords_eq (wide.sized_eq .zero),
    Nat.compare_eq_eq, Wide.zero, Limbs.value_replicate_zero]
  rfl

theorem Wide.divideWords_spec (numerator : Wide) {denominator : Wide}
    (nonzero : ¬denominator.isZero = true) :
    (numerator.divideWords denominator).1.length = decimalCoefficientWordCount ∧
      (numerator.divideWords denominator).2.length = decimalCoefficientWordCount ∧
      Limbs.value (numerator.divideWords denominator).1 = numerator.value / denominator.value ∧
      Limbs.value (numerator.divideWords denominator).2 =
        numerator.value % denominator.value := by
  rw [denominator.isZero_iff] at nonzero
  obtain ⟨quotientLength, remainderLength, quotient, remainder⟩ :=
    @Limbs.divideFrom_spec numerator.words denominator.words (Nat.pos_of_ne_zero nonzero)
  exact ⟨quotientLength.trans numerator.sized, remainderLength.trans denominator.sized,
    quotient, remainder⟩

/-- The quotient and the remainder, unless the denominator is zero. -/
def Wide.divide (numerator denominator : Wide) : Option (Wide × Wide) :=
  if zero : denominator.isZero = true then none
  else
    let words := numerator.divideWords denominator
    have spec := numerator.divideWords_spec zero
    some (⟨words.1, spec.1⟩, ⟨words.2, spec.2.1⟩)

/-- The number as 64 bits, unless a higher word is not zero. -/
def Wide.to64 (wide : Wide) : Option Nat :=
  if (wide.words.drop 2).any (· ≠ 0) then none
  else some (((wide.words.getD 1 0).toNat <<< 32) ||| (wide.words.getD 0 0).toNat)

/-! ### Unsigned operations are exact -/

theorem any_ne_zero_iff : ∀ words : List UInt32,
    words.any (· ≠ 0) = true ↔ Limbs.value words ≠ 0
  | [] => by simp
  | word :: rest => by
    have inductionHypothesis := any_ne_zero_iff rest
    have zero : word = 0 ↔ word.toNat = 0 := by rw [← UInt32.toNat_inj]; rfl
    rw [List.any_cons, Bool.or_eq_true, inductionHypothesis, Limbs.value_cons, decide_eq_true_eq,
      ne_eq, zero]
    omega

theorem Wide.value_lt (wide : Wide) : wide.value < 2 ^ 256 := by
  have bound := Limbs.value_lt wide.words
  rw [wide.sized] at bound
  exact bound

theorem Wide.eq_of_value {left right : Wide} (same : left.value = right.value) : left = right := by
  obtain ⟨leftWords, leftSized⟩ := left
  obtain ⟨rightWords, rightSized⟩ := right
  obtain rfl : leftWords = rightWords :=
    Limbs.value_inj (leftSized.trans rightSized.symm) same
  rfl

@[simp] theorem Wide.value_from64 {number : Nat} (small : number < 2 ^ 64) :
    (Wide.from64 number).value = number := by
  have words : 2 ^ 64 = 0x100000000 * 0x100000000 := rfl
  rw [words] at small
  simp only [Wide.value, Wide.from64, Limbs.value_cons, Limbs.value_replicate_zero,
    Limbs.toNat_ofNat, Limbs.two_pow_32]
  omega

theorem Wide.compare_eq (left right : Wide) :
    left.compare right = Ord.compare left.value right.value :=
  Limbs.compareWords_eq (left.sized_eq right)

theorem Wide.add_eq {left right : Wide} (fits : left.value + right.value < 2 ^ 256) :
    ∃ sum, left.add right = some sum ∧ sum.value = left.value + right.value := by
  have value := Limbs.addWords_value 0 (left.sized_eq right)
  rw [left.sized, Nat.add_zero] at value
  have carry : (Limbs.addWords left.words right.words 0).2 = 0 := by
    by_contra nonzero
    have above : 2 ^ 256 ≤ 0x100000000 ^ decimalCoefficientWordCount *
        (Limbs.addWords left.words right.words 0).2 :=
      Nat.le_mul_of_pos_right _ (Nat.pos_of_ne_zero nonzero)
    unfold Wide.value at fits
    omega
  refine ⟨⟨_, _⟩, by rw [Wide.add, if_neg (not_not.mpr carry)], ?_⟩
  rw [carry, Nat.mul_zero, Nat.add_zero] at value
  exact value

theorem Wide.value_subtract {left right : Wide} (ordered : right.value ≤ left.value) :
    (left.subtract right).value = left.value - right.value := by
  obtain ⟨out, -, value⟩ :=
    Limbs.subtractWords_value 0 (Nat.zero_le 1) (left.sized_eq right)
  rw [Nat.add_zero, left.sized] at value
  have bound := (left.subtract right).value_lt
  have within := left.value_lt
  change (left.subtract right).value + right.value = left.value + 2 ^ 256 * out at value
  have none : out = 0 := by
    by_contra nonzero
    have above : 2 ^ 256 ≤ 2 ^ 256 * out := Nat.le_mul_of_pos_right _ (Nat.pos_of_ne_zero nonzero)
    omega
  rw [none] at value
  omega

theorem Wide.multiply_eq {left right : Wide} (fits : left.value * right.value < 2 ^ 256) :
    ∃ product, left.multiply right = some product ∧
      product.value = left.value * right.value := by
  obtain ⟨length, value⟩ := left.product_spec right
  rw [← List.take_append_drop decimalCoefficientWordCount (left.product right),
    Limbs.value_append, List.length_take, length] at value
  have power : 0x100000000 ^ min decimalCoefficientWordCount
      (decimalCoefficientWordCount + decimalCoefficientWordCount) = 2 ^ 256 := rfl
  rw [power] at value
  have upper : Limbs.value ((left.product right).drop decimalCoefficientWordCount) = 0 := by
    by_contra nonzero
    have above : 2 ^ 256 ≤
        2 ^ 256 * Limbs.value ((left.product right).drop decimalCoefficientWordCount) :=
      Nat.le_mul_of_pos_right _ (Nat.pos_of_ne_zero nonzero)
    omega
  refine ⟨⟨_, _⟩, by rw [Wide.multiply, if_neg (by rw [any_ne_zero_iff, not_not]; exact upper)], ?_⟩
  rw [upper, Nat.mul_zero, Nat.add_zero] at value
  exact value

theorem Wide.divide_eq (numerator : Wide) {denominator : Wide} (positive : 0 < denominator.value) :
    ∃ quotient remainder, numerator.divide denominator = some (quotient, remainder) ∧
      quotient.value = numerator.value / denominator.value ∧
      remainder.value = numerator.value % denominator.value := by
  have nonzero : ¬denominator.isZero = true := by
    rw [denominator.isZero_iff]
    omega
  obtain ⟨-, -, quotient, remainder⟩ := numerator.divideWords_spec nonzero
  exact ⟨⟨_, _⟩, ⟨_, _⟩, by rw [Wide.divide, dif_neg nonzero], quotient, remainder⟩

theorem Wide.to64_eq (wide : Wide) :
    wide.to64 = if wide.value < 2 ^ 64 then some wide.value else none := by
  obtain ⟨words, sized⟩ := wide
  match words, sized with
  | low :: high :: rest, sized =>
    have lowSmall := Limbs.toNat_lt low
    have highSmall := Limbs.toNat_lt high
    have upper := any_ne_zero_iff rest
    have value : Wide.value ⟨low :: high :: rest, sized⟩ =
        low.toNat + 0x100000000 * (high.toNat + 0x100000000 * Limbs.value rest) := rfl
    change (if rest.any (· ≠ 0) then none else some ((high.toNat <<< 32) ||| low.toNat)) = _
    rw [value]
    by_cases zero : Limbs.value rest = 0
    · rw [if_neg (by rw [upper, not_not]; exact zero), if_pos (by rw [zero]; omega), zero,
        ← Nat.shiftLeft_add_eq_or_of_lt (by omega), Nat.shiftLeft_eq]
      congr 1
      omega
    · rw [if_pos (upper.mpr zero), if_neg (by omega)]

/-! ### Signed numbers -/

/-- A magnitude with its sign. -/
structure SignedWide where
  magnitude : Wide
  negative : Bool

/-- The integer a signed number stands for. -/
def SignedWide.value (number : SignedWide) : Int :=
  if number.negative then -(number.magnitude.value : Int) else number.magnitude.value

/-- A number whose zero has no sign. -/
def SignedWide.canonical (number : SignedWide) : SignedWide :=
  if number.magnitude.isZero then { number with negative := false } else number

/-- The magnitude of a 64-bit integer. -/
def magnitude (number : Int64) : Nat :=
  if number < 0 then (0 - number.toUInt64).toNat else number.toUInt64.toNat

def SignedWide.fromSigned (number : Int64) : SignedWide :=
  { magnitude := .from64 (Codec.magnitude number), negative := number < 0 }

def SignedWide.fromDescriptor (coefficient : SignedCoefficient256) : SignedWide :=
  SignedWide.canonical
    { magnitude := ⟨coefficient.words.toList, by simp⟩, negative := coefficient.negative }

/-- Whether a 64-bit integer can hold a number. -/
def FitsInt64 (number : Int) : Prop := -2 ^ 63 ≤ number ∧ number < 2 ^ 63

instance (number : Int) : Decidable (FitsInt64 number) := inferInstanceAs (Decidable (_ ∧ _))

theorem fitsInt64_toInt (number : Int64) : FitsInt64 number.toInt :=
  ⟨number.le_toInt, number.toInt_lt⟩

/-- The sum: magnitudes add up under one sign and cancel under two. -/
def SignedWide.add (left right : SignedWide) : Option SignedWide :=
  if left.negative = right.negative then do
    let sum ← left.magnitude.add right.magnitude
    some (canonical { magnitude := sum, negative := left.negative })
  else if left.magnitude.compare right.magnitude ≠ .lt then
    some (canonical
      { magnitude := left.magnitude.subtract right.magnitude, negative := left.negative })
  else
    some (canonical
      { magnitude := right.magnitude.subtract left.magnitude, negative := right.negative })

def SignedWide.multiply (left right : SignedWide) : Option SignedWide := do
  let product ← left.magnitude.multiply right.magnitude
  some (canonical { magnitude := product, negative := left.negative != right.negative })

def SignedWide.negate (number : SignedWide) : SignedWide :=
  { number with negative := !number.negative }

/-- The number as a 64-bit integer, when it is one. -/
def SignedWide.toSigned (number : SignedWide) : Option Int64 := do
  let magnitude ← number.magnitude.to64
  failIf (magnitude > if number.negative then 2 ^ 63 else 2 ^ 63 - 1)
  some <|
    if number.negative then
      if magnitude = 2 ^ 63 then Int64.minValue else -Int64.ofNat magnitude
    else Int64.ofNat magnitude

/-! ### Signed operations are exact -/

/-- A nonnegative number stands for its magnitude, a negative one for less. -/
theorem SignedWide.value_eq (magnitude : Wide) (negative : Bool) :
    SignedWide.value ⟨magnitude, negative⟩ =
      if negative then -(magnitude.value : Int) else magnitude.value := rfl

theorem SignedWide.natAbs_value (number : SignedWide) :
    number.value.natAbs = number.magnitude.value := by
  unfold SignedWide.value
  split <;> simp

@[simp] theorem SignedWide.value_canonical (number : SignedWide) :
    number.canonical.value = number.value := by
  unfold canonical
  split
  · rename_i zero
    rw [Wide.isZero_iff] at zero
    simp [SignedWide.value, zero]
  · rfl

@[simp] theorem SignedWide.value_negate (number : SignedWide) :
    number.negate.value = -number.value := by
  unfold negate SignedWide.value
  cases number.negative <;> simp

/-- The sign of a canonical number is that of its integer. -/
theorem SignedWide.negative_canonical (number : SignedWide) :
    number.canonical.negative = decide (number.value < 0) := by
  unfold canonical
  have zero := number.magnitude.isZero_iff
  split
  · rename_i isZero
    have none := zero.mp isZero
    simp [SignedWide.value, none]
  · rename_i nonzero
    rw [zero] at nonzero
    unfold SignedWide.value
    cases number.negative
    · simp
    · simp
      omega

theorem magnitude_eq (number : Int64) : magnitude number = number.toInt.natAbs := by
  have wrap : number.toInt = if 2 * number.toUInt64.toNat < 2 ^ 64 then
      (number.toUInt64.toNat : Int) else number.toUInt64.toNat - (2 ^ 64 : Nat) :=
    BitVec.toInt_eq_toNat_cond number.toBitVec
  have small := number.toUInt64.toNat_lt
  have zero : (0 : Int64).toInt = 0 := rfl
  have sign := @Int64.lt_iff_toInt_lt number 0
  rw [zero] at sign
  unfold magnitude
  by_cases negative : number < 0
  · rw [if_pos negative, UInt64.toNat_sub]
    rw [sign] at negative
    split at wrap
    · omega
    · rw [UInt64.toNat_zero]
      omega
  · rw [if_neg negative]
    rw [sign] at negative
    split at wrap <;> omega

theorem SignedWide.value_fromSigned (number : Int64) :
    (SignedWide.fromSigned number).value = number.toInt := by
  have small : Codec.magnitude number < 2 ^ 64 := by
    rw [magnitude_eq]
    have := natAbs_toInt_le number
    omega
  rw [fromSigned, SignedWide.value_eq, Wide.value_from64 small, magnitude_eq]
  have sign := @Int64.lt_iff_toInt_lt number 0
  have zero : (0 : Int64).toInt = 0 := rfl
  rw [zero] at sign
  split <;> rename_i order <;> simp only [decide_eq_true_eq, sign] at order <;> omega

theorem SignedWide.value_fromDescriptor (coefficient : SignedCoefficient256) :
    (SignedWide.fromDescriptor coefficient).value = coefficient.denotes := by
  rw [fromDescriptor, SignedWide.value_canonical]
  rfl

/-- Under one sign the magnitudes add up. -/
theorem SignedWide.add_alike {left right : SignedWide} (same : left.negative = right.negative)
    (fits : left.magnitude.value + right.magnitude.value < 2 ^ 256) :
    ∃ sum, left.add right = some sum ∧ sum.value = left.value + right.value := by
  obtain ⟨left, negative⟩ := left
  obtain ⟨right, rightNegative⟩ := right
  obtain rfl : negative = rightNegative := same
  obtain ⟨sum, run, value⟩ := Wide.add_eq fits
  refine ⟨_, by rw [SignedWide.add, if_pos rfl, run]; rfl, ?_⟩
  rw [value_canonical, value_eq, value_eq, value_eq, value]
  split <;> push_cast <;> ring

/-- Under two signs the magnitudes cancel, so there always is a sum. -/
theorem SignedWide.add_opposite {left right : SignedWide}
    (opposite : left.negative ≠ right.negative) :
    ∃ sum, left.add right = some sum ∧ sum.value = left.value + right.value := by
  obtain ⟨left, leftNegative⟩ := left
  obtain ⟨right, rightNegative⟩ := right
  have flipped : rightNegative = !leftNegative := by
    cases leftNegative <;> cases rightNegative <;> simp at opposite ⊢
  unfold SignedWide.add
  rw [if_neg opposite]
  simp only [Wide.compare_eq]
  by_cases ordered : right.value ≤ left.value
  · have order : Ord.compare left.value right.value ≠ .lt := by
      rw [ne_eq, Nat.compare_eq_lt]
      omega
    refine ⟨_, by rw [if_pos order], ?_⟩
    rw [value_canonical, value_eq, value_eq, value_eq, Wide.value_subtract ordered, flipped]
    cases leftNegative <;> simp <;> omega
  · have order : ¬Ord.compare left.value right.value ≠ .lt := by
      rw [not_not, Nat.compare_eq_lt]
      omega
    refine ⟨_, by rw [if_neg order], ?_⟩
    rw [value_canonical, value_eq, value_eq, value_eq, Wide.value_subtract (by omega), flipped]
    cases leftNegative <;> simp <;> omega

theorem SignedWide.add_eq {left right : SignedWide}
    (fits : left.value.natAbs + right.value.natAbs < 2 ^ 256) :
    ∃ sum, left.add right = some sum ∧ sum.value = left.value + right.value := by
  rw [natAbs_value, natAbs_value] at fits
  by_cases same : left.negative = right.negative
  · exact add_alike same fits
  · exact add_opposite same

theorem SignedWide.multiply_eq {left right : SignedWide}
    (fits : left.value.natAbs * right.value.natAbs < 2 ^ 256) :
    ∃ product, left.multiply right = some product ∧
      product.value = left.value * right.value := by
  rw [natAbs_value, natAbs_value] at fits
  obtain ⟨product, run, value⟩ := Wide.multiply_eq fits
  refine ⟨_, by rw [multiply, run]; rfl, ?_⟩
  rw [value_canonical, value_eq, value]
  unfold SignedWide.value
  cases left.negative <;> cases right.negative <;> simp

theorem SignedWide.toSigned_eq (number : SignedWide) : number.toSigned =
    if FitsInt64 number.value then some (Int64.ofInt number.value) else none := by
  obtain ⟨wide, negative⟩ := number
  have bound : (if negative then 2 ^ 63 else 2 ^ 63 - 1) < 2 ^ 64 := by
    split <;> decide
  have within : FitsInt64 (SignedWide.value ⟨wide, negative⟩) ↔
      wide.value ≤ if negative then 2 ^ 63 else 2 ^ 63 - 1 := by
    rw [value_eq, FitsInt64]
    cases negative <;> simp <;> omega
  unfold toSigned
  rw [Wide.to64_eq]
  by_cases fits : wide.value ≤ if negative then 2 ^ 63 else 2 ^ 63 - 1
  · rw [if_pos (lt_of_le_of_lt fits bound), if_pos (within.mpr fits)]
    have admitted : ¬(wide.value > if negative then 2 ^ 63 else 2 ^ 63 - 1) := by omega
    simp only [Option.bind_eq_bind, Option.bind_some, failIf_of_not admitted]
    congr 1
    rw [← Int64.toInt_inj, Int64.toInt_ofInt_of_le (within.mpr fits).1 (within.mpr fits).2,
      value_eq]
    cases negative
    · exact Int64.toInt_ofNat_of_lt (by simp at fits; omega)
    · simp only [if_true] at fits ⊢
      split
      · rename_i lowest
        rw [lowest]
        rfl
      · exact Int64.toInt_neg_ofNat_of_le fits
  · rw [if_neg (mt within.mp fits)]
    split
    · simp only [Option.bind_eq_bind, Option.bind_some, failIf_of (Nat.lt_of_not_le fits)]
      rfl
    · rfl

end ProtocolAdapter.Codec
