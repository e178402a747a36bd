/-
This file models the derivation of a linear conversion. An author states a scale and
a bias as fractions; the derivation reduces them, finds the decimal places they
need, and stores both as coefficients over one power of ten. The file then states
what an accepted descriptor guarantees the codec: a nonzero scale coefficient, and
coefficients small enough that no product of the codec leaves its words.
-/

import ProtocolAdapter.Foundation.Limbs
import ProtocolAdapter.Foundation.Validation
import ProtocolAdapter.Plan.Bundle
import Mathlib.Tactic.LinearCombination
import Mathlib.Tactic.Ring

namespace ProtocolAdapter

open Foundation

/-! ### The derivation -/

/-- The largest denominator an author may state. -/
def maximumAuthorDenominator : Nat := 1000000000000000000

/-- Why a conversion cannot be derived. -/
inductive DecimalDescriptorError where
  | zeroScale
  | denominatorOutOfRange
  | nonTerminatingScale
  | nonTerminatingBias
  | arithmeticOverflow
  deriving DecidableEq

/-- Divides a fraction by the greatest common divisor of its members. -/
def reduce (numerator : Int) (denominator : Nat) : Int × Nat :=
  if numerator = 0 then (0, 1)
  else
    let divisor := Nat.gcd numerator.natAbs denominator
    (numerator.sign * (numerator.natAbs / divisor : Nat), denominator / divisor)

/-- Divides a factor out of a denominator as often as it goes and counts the divisions.
A 64-bit denominator runs out of factors within `fuel = 64` divisions. -/
def stripFactor (factor : Nat) : Nat → Nat → Nat → Nat × Nat
  | 0, denominator, count => (denominator, count)
  | fuel + 1, denominator, count =>
    if denominator % factor = 0 then stripFactor factor fuel (denominator / factor) (count + 1)
    else (denominator, count)

/-- The decimal places of a reduced fraction, when its expansion ends within 18. -/
def decimalPlaces (denominator : Nat) : Option Nat :=
  let (withoutTwos, twos) := stripFactor 2 64 denominator 0
  let (rest, fives) := stripFactor 5 64 withoutTwos 0
  let places := max twos fives
  if rest = 1 ∧ places ≤ 18 then some places else none

/-- Adds a carry to words; fails when it leaves the last of them. -/
def propagateCarry : List UInt32 → Nat → Option (List UInt32)
  | words, 0 => some words
  | [], _ + 1 => none
  | word :: rest, carry + 1 =>
    let sum := word.toNat + (carry + 1)
    do
      let rest ← propagateCarry rest (sum / 2 ^ 32)
      some (UInt32.ofNat sum :: rest)

/-- Adds the product of one word and the two words of the multiplier to the accumulated
words from its position on. -/
def multiplyWord (word low high : UInt32) : List UInt32 → Option (List UInt32)
  | [] => some []
  | first :: rest =>
    let lowProduct := word.toNat * low.toNat + first.toNat
    let carry := lowProduct / 2 ^ 32
    match rest with
    | [] =>
      if word ≠ 0 ∧ high ≠ 0 then none
      else if carry ≠ 0 then none
      else some [UInt32.ofNat lowProduct]
    | second :: rest =>
      let highProduct := word.toNat * high.toNat + second.toNat + carry
      do
        let rest ← propagateCarry rest (highProduct / 2 ^ 32)
        some (UInt32.ofNat lowProduct :: UInt32.ofNat highProduct :: rest)

/-- Multiplies words by a two-word multiplier into accumulated words of one length; fails
when the product does not fit. -/
def multiplyCoefficient (low high : UInt32) : List UInt32 → List UInt32 → Option (List UInt32)
  | word :: words, accumulated => do
    match ← multiplyWord word low high accumulated with
    | [] => some []
    | first :: rest =>
      let rest ← multiplyCoefficient low high words rest
      some (first :: rest)
  | [], accumulated => some accumulated

/-- The product of a coefficient and a 64-bit multiplier, when it fits. -/
def multiply (words : List UInt32) (multiplier : Nat) : Option (List UInt32) :=
  multiplyCoefficient (UInt32.ofNat multiplier) (UInt32.ofNat (multiplier / 2 ^ 32)) words
    (List.replicate words.length 0)

/-- The words of a coefficient from a list of as many. -/
def coefficientWords (words : List UInt32) : Vector UInt32 decimalCoefficientWordCount :=
  Vector.ofFn fun index => words.getD index 0

/-- A fraction as a coefficient over the common power of ten. -/
def makeCoefficient (numerator : Int) (denominator ownPlaces commonPlaces : Nat) :
    Option SignedCoefficient256 := do
  let magnitude := numerator.natAbs
  let words := UInt32.ofNat magnitude :: UInt32.ofNat (magnitude / 2 ^ 32) ::
    List.replicate (decimalCoefficientWordCount - 2) 0
  let words ← multiply words (10 ^ ownPlaces / denominator)
  let words ← multiply words (10 ^ (commonPlaces - ownPlaces))
  some { words := coefficientWords words, negative := numerator < 0 }

/-- The two coefficients of a conversion over their common decimal places. -/
def deriveCoefficients (scale bias : Int × Nat) (scalePlaces biasPlaces : Nat) :
    Option (SignedCoefficient256 × SignedCoefficient256) := do
  let places := max scalePlaces biasPlaces
  let scaleCoefficient ← makeCoefficient scale.1 scale.2 scalePlaces places
  let biasCoefficient ← makeCoefficient bias.1 bias.2 biasPlaces places
  some (scaleCoefficient, biasCoefficient)

/-- Derives the descriptor of a conversion from the fractions the author stated. -/
def deriveLinearConversion (rawValueType : ValueType) (scaleNumerator : Int64)
    (scaleDenominator : UInt64) (biasNumerator : Int64) (biasDenominator : UInt64) :
    Except DecimalDescriptorError LinearConversionDescriptor := do
  rejectIf (scaleNumerator = 0) .zeroScale
  rejectIf (scaleDenominator = 0 ∨ biasDenominator = 0 ∨
    scaleDenominator.toNat > maximumAuthorDenominator ∨
    biasDenominator.toNat > maximumAuthorDenominator) .denominatorOutOfRange
  let scale := reduce scaleNumerator.toInt scaleDenominator.toNat
  let bias := reduce biasNumerator.toInt biasDenominator.toNat
  match decimalPlaces scale.2 with
  | none => .error .nonTerminatingScale
  | some scalePlaces =>
    match decimalPlaces bias.2 with
    | none => .error .nonTerminatingBias
    | some biasPlaces =>
      match deriveCoefficients scale bias scalePlaces biasPlaces with
      | none => .error .arithmeticOverflow
      | some (scaleCoefficient, biasCoefficient) =>
        .ok {
          rawValueType := rawValueType
          scaleNumerator := Int64.ofInt scale.1
          scaleDenominator := UInt64.ofNat scale.2
          biasNumerator := Int64.ofInt bias.1
          biasDenominator := UInt64.ofNat bias.2
          decimalPlaces := max scalePlaces biasPlaces
          scaleCoefficient := scaleCoefficient
          biasCoefficient := biasCoefficient }

/-! ### Multiplication is exact -/

theorem propagateCarry_value : ∀ {words out : List UInt32} {carry : Nat},
    propagateCarry words carry = some out →
      out.length = words.length ∧ Limbs.value out = Limbs.value words + carry := by
  intro words
  induction words with
  | nil =>
    intro out carry run
    cases carry with
    | zero => simp [propagateCarry] at run; simp [← run]
    | succ carry => simp [propagateCarry] at run
  | cons word rest inductionHypothesis =>
    intro out carry run
    cases carry with
    | zero => simp [propagateCarry] at run; simp [← run]
    | succ carry =>
      simp only [propagateCarry, Option.bind_eq_bind, Option.bind_eq_some_iff,
        Option.some.injEq] at run
      obtain ⟨tail, tailRun, rfl⟩ := run
      obtain ⟨sized, valued⟩ := inductionHypothesis tailRun
      refine ⟨by simp [sized], ?_⟩
      simp only [Limbs.value_cons, valued, Limbs.toNat_ofNat]
      omega

theorem multiplyWord_value {word low high : UInt32} {accumulated out : List UInt32}
    (nonempty : accumulated ≠ []) (run : multiplyWord word low high accumulated = some out) :
    out.length = accumulated.length ∧ Limbs.value out =
      Limbs.value accumulated + word.toNat * (low.toNat + 0x100000000 * high.toNat) := by
  have expand : word.toNat * (low.toNat + 0x100000000 * high.toNat) =
      word.toNat * low.toNat + 0x100000000 * (word.toNat * high.toNat) := by ring
  rw [expand]
  match accumulated, nonempty with
  | [first], _ =>
    simp only [multiplyWord] at run
    split at run
    · cases run
    · split at run
      · cases run
      · rename_i zero carry
        have product : word.toNat * high.toNat = 0 := by
          by_cases word0 : word = 0
          · simp [word0]
          · simp [not_not.mp (fun nonzero => zero ⟨word0, nonzero⟩)]
        obtain rfl := Option.some.inj run
        simp only [Limbs.value_cons, Limbs.value_nil, Limbs.toNat_ofNat, List.length_singleton,
          true_and, product]
        omega
  | first :: second :: rest, _ =>
    simp only [multiplyWord, Option.bind_eq_bind, Option.bind_eq_some_iff,
      Option.some.injEq] at run
    obtain ⟨tail, tailRun, rfl⟩ := run
    obtain ⟨sized, valued⟩ := propagateCarry_value tailRun
    refine ⟨by simp [sized], ?_⟩
    simp only [Limbs.value_cons, valued, Limbs.toNat_ofNat]
    omega

theorem multiplyCoefficient_value {low high : UInt32} :
    ∀ {words accumulated out : List UInt32}, words.length = accumulated.length →
      multiplyCoefficient low high words accumulated = some out →
      out.length = accumulated.length ∧ Limbs.value out = Limbs.value accumulated +
        Limbs.value words * (low.toNat + 0x100000000 * high.toNat) := by
  intro words
  induction words with
  | nil =>
    intro accumulated out _ run
    obtain rfl := Option.some.inj run
    simp
  | cons word words inductionHypothesis =>
    intro accumulated out sized run
    simp only [multiplyCoefficient, Option.bind_eq_bind, Option.bind_eq_some_iff] at run
    obtain ⟨row, rowRun, run⟩ := run
    have nonempty : accumulated ≠ [] := by rintro rfl; simp at sized
    obtain ⟨rowSized, rowValued⟩ := multiplyWord_value nonempty rowRun
    match row, run with
    | [], _ => exact absurd (List.length_eq_zero_iff.mp rowSized.symm) nonempty
    | first :: rest, run =>
      simp only [Option.bind_eq_some_iff, Option.some.injEq] at run
      obtain ⟨tail, tailRun, rfl⟩ := run
      have aligned : words.length = rest.length := by simp at sized rowSized; omega
      obtain ⟨tailSized, tailValued⟩ := inductionHypothesis aligned tailRun
      refine ⟨by simp at rowSized ⊢; omega, ?_⟩
      simp only [Limbs.value_cons, tailValued] at rowValued ⊢
      linear_combination rowValued

/-- A product that fits is exact. -/
theorem multiply_value {words out : List UInt32} {multiplier : Nat}
    (small : multiplier < 0x10000000000000000) (run : multiply words multiplier = some out) :
    out.length = words.length ∧ Limbs.value out = Limbs.value words * multiplier := by
  obtain ⟨sized, valued⟩ := multiplyCoefficient_value (by simp) run
  refine ⟨by simpa using sized, ?_⟩
  rw [valued, Limbs.value_replicate_zero, Nat.zero_add]
  congr 1
  simp only [Limbs.toNat_ofNat, Limbs.two_pow_32]
  omega

/-! ### What a derived conversion guarantees -/

/-- The natural number a coefficient has as its magnitude. -/
def SignedCoefficient256.magnitude (coefficient : SignedCoefficient256) : Nat :=
  Limbs.value coefficient.words.toList

/-- The integer a coefficient denotes. -/
def SignedCoefficient256.denotes (coefficient : SignedCoefficient256) : Int :=
  if coefficient.negative then -(coefficient.magnitude : Int) else coefficient.magnitude

theorem coefficientWords_toList {words : List UInt32}
    (sized : words.length = decimalCoefficientWordCount) :
    (coefficientWords words).toList = words := by
  refine List.ext_getElem (by simp [sized]) fun index within bound => ?_
  simp [coefficientWords, List.getD_eq_getElem?_getD, bound]

theorem stripFactor_spec {factor : Nat} (positive : 0 < factor) :
    ∀ (fuel denominator count : Nat),
      count ≤ (stripFactor factor fuel denominator count).2 ∧
      denominator = (stripFactor factor fuel denominator count).1 *
        factor ^ ((stripFactor factor fuel denominator count).2 - count)
  | 0, denominator, count => by simp [stripFactor]
  | fuel + 1, denominator, count => by
    unfold stripFactor
    split
    · rename_i divides
      obtain ⟨grows, product⟩ := stripFactor_spec positive fuel (denominator / factor) (count + 1)
      refine ⟨by omega, ?_⟩
      have restore := Nat.div_mul_cancel (Nat.dvd_of_mod_eq_zero divides)
      have exponent : (stripFactor factor fuel (denominator / factor) (count + 1)).2 - count =
          (stripFactor factor fuel (denominator / factor) (count + 1)).2 - (count + 1) + 1 := by
        omega
      rw [exponent, pow_succ, ← mul_assoc, ← product, restore]
    · simp

/-- The places of an accepted fraction make its denominator divide their power of ten. -/
theorem decimalPlaces_spec {denominator places : Nat}
    (accepted : decimalPlaces denominator = some places) :
    places ≤ 18 ∧ denominator ∣ 10 ^ places := by
  unfold decimalPlaces at accepted
  obtain ⟨-, twos⟩ := stripFactor_spec Nat.two_pos 64 denominator 0
  have five : 0 < 5 := by decide
  obtain ⟨-, fives⟩ := stripFactor_spec five 64 (stripFactor 2 64 denominator 0).1 0
  simp only [Nat.sub_zero] at twos fives accepted
  split at accepted
  · rename_i bounds
    obtain rfl := Option.some.inj accepted
    have product : denominator = 5 ^ (stripFactor 5 64 (stripFactor 2 64 denominator 0).1 0).2 *
        2 ^ (stripFactor 2 64 denominator 0).2 := by
      rw [bounds.1, one_mul] at fives
      conv_lhs => rw [twos, fives]
    refine ⟨bounds.2, (dvd_of_eq product).trans ?_⟩
    rw [show (10 : Nat) = 5 * 2 from rfl, mul_pow]
    exact mul_dvd_mul (pow_dvd_pow 5 (le_max_right _ _)) (pow_dvd_pow 2 (le_max_left _ _))
  · cases accepted

/-- Reduction keeps a numerator's zero and does not grow its magnitude. -/
theorem reduce_numerator {numerator : Int} {denominator : Nat} (positive : 0 < denominator) :
    (reduce numerator denominator).1.natAbs ≤ numerator.natAbs ∧
      (numerator ≠ 0 → (reduce numerator denominator).1 ≠ 0) := by
  unfold reduce
  split
  · simp_all
  · rename_i nonzero
    have divides := Nat.gcd_dvd_left numerator.natAbs denominator
    have quotient : numerator.natAbs / numerator.natAbs.gcd denominator ≠ 0 :=
      (Nat.div_pos (Nat.le_of_dvd (by omega) divides)
        (Nat.gcd_pos_of_pos_right _ positive)).ne'
    have sign : numerator.sign.natAbs = 1 := by
      rcases Int.lt_or_gt_of_ne nonzero with negative | positive
      · rw [Int.sign_eq_neg_one_of_neg negative]; rfl
      · rw [Int.sign_eq_one_of_pos positive]; rfl
    refine ⟨?_, fun _ => mul_ne_zero (by omega) (by exact_mod_cast quotient)⟩
    rw [Int.natAbs_mul, sign, one_mul, Int.natAbs_natCast]
    exact Nat.div_le_self _ _

/-- A coefficient is the numerator over the common power of ten. -/
theorem makeCoefficient_spec {numerator : Int} {denominator ownPlaces commonPlaces : Nat}
    {coefficient : SignedCoefficient256} (small : numerator.natAbs < 0x10000000000000000)
    (own : ownPlaces ≤ 18) (common : commonPlaces ≤ 18)
    (made : makeCoefficient numerator denominator ownPlaces commonPlaces = some coefficient) :
    coefficient.negative = decide (numerator < 0) ∧ coefficient.magnitude =
      numerator.natAbs * (10 ^ ownPlaces / denominator) * 10 ^ (commonPlaces - ownPlaces) := by
  have power : ∀ {places : Nat}, places ≤ 18 → 10 ^ places < 0x10000000000000000 := fun bound =>
    lt_of_le_of_lt (Nat.pow_le_pow_right (by decide) bound) (by decide)
  unfold makeCoefficient at made
  simp only [Option.bind_eq_bind, Option.bind_eq_some_iff, Option.some.injEq] at made
  obtain ⟨first, firstRun, second, secondRun, rfl⟩ := made
  obtain ⟨firstSized, firstValued⟩ :=
    multiply_value (lt_of_le_of_lt (Nat.div_le_self _ _) (power own)) firstRun
  obtain ⟨secondSized, secondValued⟩ :=
    multiply_value (power (le_trans (Nat.sub_le commonPlaces ownPlaces) common)) secondRun
  have sized : second.length = decimalCoefficientWordCount := by
    rw [secondSized, firstSized]; rfl
  refine ⟨rfl, ?_⟩
  simp only [SignedCoefficient256.magnitude, coefficientWords_toList sized, secondValued,
    firstValued]
  congr 2
  simp only [Limbs.value_cons, Limbs.value_replicate_zero, Limbs.toNat_ofNat, Limbs.two_pow_32]
  omega

/-- What the codec relies on in a descriptor. -/
structure LinearConversionDescriptor.Valid (conversion : LinearConversionDescriptor) : Prop where
  places_le : conversion.decimalPlaces ≤ 18
  scale_pos : 0 < conversion.scaleCoefficient.magnitude
  scale_le : conversion.scaleCoefficient.magnitude ≤ 2 ^ 63 * 10 ^ 18
  bias_le : conversion.biasCoefficient.magnitude ≤ 2 ^ 63 * 10 ^ 18

theorem coefficient_le {magnitude denominator ownPlaces commonPlaces : Nat}
    (small : magnitude ≤ 2 ^ 63) (ordered : ownPlaces ≤ commonPlaces) (common : commonPlaces ≤ 18) :
    magnitude * (10 ^ ownPlaces / denominator) * 10 ^ (commonPlaces - ownPlaces) ≤
      2 ^ 63 * 10 ^ 18 := by
  calc magnitude * (10 ^ ownPlaces / denominator) * 10 ^ (commonPlaces - ownPlaces)
      ≤ 2 ^ 63 * 10 ^ ownPlaces * 10 ^ (commonPlaces - ownPlaces) :=
        Nat.mul_le_mul_right _ (Nat.mul_le_mul small (Nat.div_le_self _ _))
    _ = 2 ^ 63 * 10 ^ commonPlaces := by
        rw [mul_assoc, ← pow_add, Nat.add_sub_cancel' ordered]
    _ ≤ 2 ^ 63 * 10 ^ 18 :=
        Nat.mul_le_mul_left _ (Nat.pow_le_pow_right (by decide) common)

theorem natAbs_toInt_le (value : Int64) : value.toInt.natAbs ≤ 2 ^ 63 := by
  have lower := value.minValue_le_toInt
  have upper := value.toInt_lt
  have minimum : Int64.minValue.toInt = -2 ^ 63 := by decide
  omega

/-- A derived conversion is valid and has the raw type it was derived for. -/
theorem valid_of_deriveLinearConversion {rawValueType : ValueType}
    {scaleNumerator biasNumerator : Int64} {scaleDenominator biasDenominator : UInt64}
    {conversion : LinearConversionDescriptor}
    (derived : deriveLinearConversion rawValueType scaleNumerator scaleDenominator biasNumerator
      biasDenominator = .ok conversion) :
    conversion.Valid ∧ conversion.rawValueType = rawValueType := by
  unfold deriveLinearConversion at derived
  simp only [rejectIf_bind_eq_ok, not_or] at derived
  obtain ⟨nonzero, ⟨scaleDenominator_ne, biasDenominator_ne, -, -⟩, derived⟩ := derived
  have positive : ∀ {value : UInt64}, value ≠ 0 → 0 < value.toNat := fun {value} different =>
    Nat.pos_of_ne_zero fun zero => different (UInt64.toNat_inj.mp zero)
  split at derived
  · cases derived
  rename_i scalePlaces scaleAccepted
  split at derived
  · cases derived
  rename_i biasPlaces biasAccepted
  split at derived
  · cases derived
  rename_i scaleCoefficient biasCoefficient coefficients
  obtain rfl := Except.ok.inj derived
  simp only [deriveCoefficients, Option.bind_eq_bind, Option.bind_eq_some_iff, Option.some.injEq,
    Prod.mk.injEq] at coefficients
  obtain ⟨_, scaleMade, _, biasMade, rfl, rfl⟩ := coefficients
  obtain ⟨scaleBound, scaleDivides⟩ := decimalPlaces_spec scaleAccepted
  obtain ⟨biasBound, -⟩ := decimalPlaces_spec biasAccepted
  have common : max scalePlaces biasPlaces ≤ 18 := max_le scaleBound biasBound
  obtain ⟨scaleSmall, scaleNonzero⟩ :=
    @reduce_numerator scaleNumerator.toInt _ (positive scaleDenominator_ne)
  obtain ⟨biasSmall, -⟩ := @reduce_numerator biasNumerator.toInt _ (positive biasDenominator_ne)
  have scaleLe := scaleSmall.trans (natAbs_toInt_le _)
  have biasLe := biasSmall.trans (natAbs_toInt_le _)
  obtain ⟨-, scaleMagnitude⟩ := makeCoefficient_spec (by omega) scaleBound common scaleMade
  obtain ⟨-, biasMagnitude⟩ := makeCoefficient_spec (by omega) biasBound common biasMade
  refine ⟨⟨common, ?_, ?_, ?_⟩, rfl⟩
  · have numerator := scaleNonzero fun zero => nonzero (Int64.toInt_inj.mp zero)
    have factor : 0 < 10 ^ scalePlaces / (reduce scaleNumerator.toInt scaleDenominator.toNat).2 :=
      Nat.div_pos (Nat.le_of_dvd (by positivity) scaleDivides)
        (Nat.pos_of_dvd_of_pos scaleDivides (by positivity))
    simp only [scaleMagnitude]
    positivity
  · simp only [scaleMagnitude]
    exact coefficient_le scaleLe (le_max_left _ _) common
  · simp only [biasMagnitude]
    exact coefficient_le biasLe (le_max_right _ _) common

end ProtocolAdapter
