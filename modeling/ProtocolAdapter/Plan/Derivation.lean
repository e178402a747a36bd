/-
This file proves that the derivation of a conversion accepts exactly the fractions that are
decimals of at most 18 places. The reduced fractions are in lowest terms, the stored places
are the fewest that both decimals need, no coefficient overflows its words, and the reduced
fractions derive the same descriptor again.
-/

import ProtocolAdapter.Builder.Requirements
import ProtocolAdapter.Foundation.Decimal
import ProtocolAdapter.Plan.Conversion
import Mathlib.Data.Nat.Prime.Basic

namespace ProtocolAdapter

open Foundation

/-! ### Multiplication does not fail -/

theorem propagateCarry_total : ∀ {words : List UInt32} {carry : Nat},
    Limbs.value words + carry < 0x100000000 ^ words.length →
      ∃ out, propagateCarry words carry = some out := by
  intro words
  induction words with
  | nil =>
    intro carry fits
    obtain rfl : carry = 0 := by simpa using fits
    exact ⟨[], rfl⟩
  | cons word rest inductionHypothesis =>
    intro carry fits
    cases carry with
    | zero => exact ⟨word :: rest, by simp [propagateCarry]⟩
    | succ carry =>
      rw [Limbs.value_cons, List.length_cons, pow_succ] at fits
      obtain ⟨tail, run⟩ := @inductionHypothesis ((word.toNat + (carry + 1)) / 2 ^ 32) (by
        rw [Limbs.two_pow_32]
        omega)
      refine ⟨UInt32.ofNat (word.toNat + (carry + 1)) :: tail, ?_⟩
      simp only [propagateCarry, run, Option.bind_eq_bind, Option.bind_some]

theorem multiplyWord_total {word low high : UInt32} : ∀ {accumulated : List UInt32},
    accumulated ≠ [] →
    Limbs.value accumulated + word.toNat * (low.toNat + 0x100000000 * high.toNat) <
        0x100000000 ^ accumulated.length →
      ∃ out, multiplyWord word low high accumulated = some out := by
  intro accumulated nonempty fits
  have expand : word.toNat * (low.toNat + 0x100000000 * high.toNat) =
      word.toNat * low.toNat + 0x100000000 * (word.toNat * high.toNat) := by ring
  rw [expand] at fits
  match accumulated, nonempty with
  | [first], _ =>
    simp only [Limbs.value_cons, Limbs.value_nil, List.length_singleton, pow_one] at fits
    have product : word.toNat * high.toNat = 0 := by omega
    have vanishes : ¬(word ≠ 0 ∧ high ≠ 0) := by
      rintro ⟨wordNonzero, highNonzero⟩
      rcases Nat.mul_eq_zero.mp product with zero | zero
      · exact wordNonzero (UInt32.toNat_inj.mp zero)
      · exact highNonzero (UInt32.toNat_inj.mp zero)
    have carry : (word.toNat * low.toNat + first.toNat) / 2 ^ 32 = 0 := by
      rw [Limbs.two_pow_32]
      omega
    refine ⟨[UInt32.ofNat (word.toNat * low.toNat + first.toNat)], ?_⟩
    rw [multiplyWord]
    simp only [vanishes, carry, if_false, ne_eq, not_true_eq_false]
  | first :: second :: rest, _ =>
    simp only [Limbs.value_cons, List.length_cons, pow_succ] at fits
    obtain ⟨tail, run⟩ := @propagateCarry_total rest
      ((word.toNat * high.toNat + second.toNat +
        (word.toNat * low.toNat + first.toNat) / 2 ^ 32) / 2 ^ 32) (by
          rw [Limbs.two_pow_32]
          omega)
    refine ⟨UInt32.ofNat (word.toNat * low.toNat + first.toNat) ::
      UInt32.ofNat (word.toNat * high.toNat + second.toNat +
        (word.toNat * low.toNat + first.toNat) / 2 ^ 32) :: tail, ?_⟩
    simp only [multiplyWord, run, Option.bind_eq_bind, Option.bind_some]

theorem multiplyCoefficient_total {low high : UInt32} :
    ∀ {words accumulated : List UInt32}, words.length = accumulated.length →
      Limbs.value accumulated + Limbs.value words * (low.toNat + 0x100000000 * high.toNat) <
        0x100000000 ^ accumulated.length →
      ∃ out, multiplyCoefficient low high words accumulated = some out := by
  intro words
  induction words with
  | nil => intro accumulated _ _; exact ⟨accumulated, rfl⟩
  | cons word words inductionHypothesis =>
    intro accumulated sized fits
    have nonempty : accumulated ≠ [] := by rintro rfl; simp at sized
    have expand : Limbs.value (word :: words) * (low.toNat + 0x100000000 * high.toNat) =
        word.toNat * (low.toNat + 0x100000000 * high.toNat) +
          0x100000000 * (Limbs.value words * (low.toNat + 0x100000000 * high.toNat)) := by
      rw [Limbs.value_cons]
      ring
    rw [expand] at fits
    obtain ⟨row, rowRun⟩ := @multiplyWord_total word low high accumulated nonempty (by omega)
    obtain ⟨rowSized, rowValued⟩ := multiplyWord_value nonempty rowRun
    match row, rowSized, rowValued, rowRun with
    | [], rowSized, _, _ =>
      exact absurd (List.length_eq_zero_iff.mp rowSized.symm) nonempty
    | first :: rest, rowSized, rowValued, rowRun =>
      rw [← rowSized, List.length_cons, pow_succ] at fits
      rw [Limbs.value_cons] at rowValued
      obtain ⟨tail, tailRun⟩ := @inductionHypothesis rest
        (by simp only [List.length_cons] at sized rowSized; omega) (by omega)
      refine ⟨first :: tail, ?_⟩
      simp only [multiplyCoefficient, rowRun, tailRun, Option.bind_eq_bind, Option.bind_some]

/-- A product that fits is computed. -/
theorem multiply_total {words : List UInt32} {multiplier : Nat}
    (small : multiplier < 0x10000000000000000)
    (fits : Limbs.value words * multiplier < 0x100000000 ^ words.length) :
    ∃ out, multiply words multiplier = some out := by
  refine multiplyCoefficient_total (by simp) ?_
  have whole : (UInt32.ofNat multiplier).toNat +
      0x100000000 * (UInt32.ofNat (multiplier / 2 ^ 32)).toNat = multiplier := by
    simp only [Limbs.toNat_ofNat, Limbs.two_pow_32]
    omega
  rw [whole, Limbs.value_replicate_zero, Nat.zero_add, List.length_replicate]
  exact fits

/-- No coefficient of a derived conversion overflows. -/
theorem makeCoefficient_total {numerator : Int} {denominator ownPlaces commonPlaces : Nat}
    (small : numerator.natAbs ≤ 2 ^ 63) (own : ownPlaces ≤ 18) (common : commonPlaces ≤ 18) :
    ∃ coefficient, makeCoefficient numerator denominator ownPlaces commonPlaces =
      some coefficient := by
  have room : 2 ^ 63 * 10 ^ 18 * 10 ^ 18 < 0x100000000 ^ 8 := by decide
  have start : Limbs.value (UInt32.ofNat numerator.natAbs ::
      UInt32.ofNat (numerator.natAbs / 2 ^ 32) ::
        List.replicate (decimalCoefficientWordCount - 2) 0) = numerator.natAbs := by
    simp only [Limbs.value_cons, Limbs.value_replicate_zero, Limbs.toNat_ofNat, Limbs.two_pow_32]
    omega
  have factor : 10 ^ ownPlaces / denominator ≤ 10 ^ 18 :=
    (Nat.div_le_self _ _).trans (Nat.pow_le_pow_right (by decide) own)
  have shift : 10 ^ (commonPlaces - ownPlaces) ≤ 10 ^ 18 :=
    Nat.pow_le_pow_right (by decide) (le_trans (Nat.sub_le _ _) common)
  have firstProduct := Nat.mul_le_mul small factor
  obtain ⟨first, firstRun⟩ := @multiply_total (UInt32.ofNat numerator.natAbs ::
      UInt32.ofNat (numerator.natAbs / 2 ^ 32) ::
        List.replicate (decimalCoefficientWordCount - 2) 0) (10 ^ ownPlaces / denominator)
    (lt_of_le_of_lt factor (by decide)) (by
      rw [start]
      exact lt_of_le_of_lt (firstProduct.trans (Nat.le_mul_of_pos_right _ (by decide))) room)
  obtain ⟨sized, valued⟩ := multiply_value (lt_of_le_of_lt factor (by decide)) firstRun
  rw [start] at valued
  have secondProduct := Nat.mul_le_mul firstProduct shift
  obtain ⟨second, secondRun⟩ := @multiply_total first (10 ^ (commonPlaces - ownPlaces))
    (lt_of_le_of_lt shift (by decide)) (by
      rw [valued, sized]
      exact lt_of_le_of_lt secondProduct room)
  refine ⟨{ words := coefficientWords second, negative := numerator < 0 }, ?_⟩
  simp only [makeCoefficient, firstRun, secondRun, Option.bind_eq_bind, Option.bind_some]

/-! ### Decimal places -/

/-- Enough fuel divides a factor out completely. -/
theorem stripFactor_complete {factor : Nat} (large : 2 ≤ factor) :
    ∀ (fuel denominator count : Nat), 0 < denominator → denominator < 2 ^ fuel →
      ¬factor ∣ (stripFactor factor fuel denominator count).1
  | 0, denominator, count => by
    intro positive below
    omega
  | fuel + 1, denominator, count => by
    intro positive below
    unfold stripFactor
    split
    · rename_i divides
      refine stripFactor_complete large fuel _ _ ?_ ?_
      · exact Nat.div_pos (Nat.le_of_dvd positive (Nat.dvd_of_mod_eq_zero divides)) (by omega)
      · rw [pow_succ] at below
        exact lt_of_le_of_lt (Nat.div_le_div_left large Nat.two_pos) (by omega)
    · rename_i remains
      rwa [Nat.dvd_iff_mod_eq_zero]

/-- The parts of a denominator: its twos, its fives, and the rest. -/
theorem stripFactors_spec {denominator : Nat} (positive : 0 < denominator)
    (below : denominator < 2 ^ 64) :
    let twos := (stripFactor 2 64 denominator 0).2
    let fives := (stripFactor 5 64 (stripFactor 2 64 denominator 0).1 0).2
    let rest := (stripFactor 5 64 (stripFactor 2 64 denominator 0).1 0).1
    denominator = rest * 5 ^ fives * 2 ^ twos ∧ ¬2 ∣ rest ∧ ¬5 ∣ rest := by
  intro twos fives rest
  obtain ⟨-, first⟩ := stripFactor_spec Nat.two_pos 64 denominator 0
  have five : 0 < 5 := by decide
  obtain ⟨-, second⟩ := stripFactor_spec five 64 (stripFactor 2 64 denominator 0).1 0
  rw [Nat.sub_zero] at first second
  have odd := stripFactor_complete (Nat.le_refl 2) 64 denominator 0 positive below
  have middlePositive : 0 < (stripFactor 2 64 denominator 0).1 :=
    Nat.pos_of_ne_zero fun zero => by rw [zero, Nat.zero_mul] at first; omega
  have middleBelow : (stripFactor 2 64 denominator 0).1 < 2 ^ 64 := by
    refine lt_of_le_of_lt ?_ below
    conv_rhs => rw [first]
    exact Nat.le_mul_of_pos_right _ (by positivity)
  have clean := stripFactor_complete (show 2 ≤ 5 by decide) 64 _ 0 middlePositive middleBelow
  refine ⟨?_, fun divides => odd ?_, clean⟩
  · conv_lhs => rw [first, second]
  · rw [second]
    exact Dvd.dvd.mul_right divides _

/-- The places of an accepted denominator are the fewest whose power of ten it divides, and a
denominator that divides a power of up to 18 places is accepted. -/
theorem decimalPlaces_eq_some_iff {denominator places : Nat} (positive : 0 < denominator)
    (below : denominator < 2 ^ 64) : decimalPlaces denominator = some places ↔
      places ≤ 18 ∧ IsLeast {places | denominator ∣ 10 ^ places} places := by
  obtain ⟨whole, oddRest, cleanRest⟩ := stripFactors_spec positive below
  rcases strippedTwos : stripFactor 2 64 denominator 0 with ⟨odds, twos⟩
  rw [strippedTwos] at whole oddRest cleanRest
  rcases strippedFives : stripFactor 5 64 odds 0 with ⟨rest, fives⟩
  simp only [strippedFives] at whole oddRest cleanRest
  have divides_iff : ∀ exponent, denominator ∣ 10 ^ exponent ↔
      rest = 1 ∧ max twos fives ≤ exponent := by
    intro exponent
    have ten : 10 ^ exponent = 5 ^ exponent * 2 ^ exponent := by
      rw [show (10 : Nat) = 5 * 2 from rfl, mul_pow]
    constructor
    · intro divides
      rw [ten, whole] at divides
      have restDivides : rest ∣ 5 ^ exponent * 2 ^ exponent :=
        (Dvd.intro _ (mul_assoc rest _ _).symm).trans divides
      have restCoprime : rest.Coprime (5 ^ exponent * 2 ^ exponent) :=
        Nat.Coprime.mul_right
          (((Nat.prime_five.coprime_iff_not_dvd).mpr cleanRest).symm.pow_right exponent)
          (((Nat.prime_two.coprime_iff_not_dvd).mpr oddRest).symm.pow_right exponent)
      obtain rfl := Nat.Coprime.eq_one_of_dvd restCoprime restDivides
      rw [one_mul] at divides
      have apart : ∀ left right, Nat.Coprime (5 ^ left) (2 ^ right) := fun left right =>
        Nat.Coprime.pow left right (by decide)
      have fiveDivides : 5 ^ fives ∣ 5 ^ exponent :=
        (apart fives exponent).dvd_of_dvd_mul_right ((Dvd.intro _ rfl).trans divides)
      have twoDivides : 2 ^ twos ∣ 2 ^ exponent :=
        (apart exponent twos).symm.dvd_of_dvd_mul_left ((Dvd.intro_left _ rfl).trans divides)
      exact ⟨rfl, max_le ((Nat.pow_dvd_pow_iff_le_right (by decide)).mp twoDivides)
        ((Nat.pow_dvd_pow_iff_le_right (by decide)).mp fiveDivides)⟩
    · rintro ⟨rfl, bound⟩
      rw [ten, whole, one_mul]
      exact mul_dvd_mul (pow_dvd_pow 5 ((le_max_right _ _).trans bound))
        (pow_dvd_pow 2 ((le_max_left _ _).trans bound))
  have least : ∀ exponent, IsLeast {places | denominator ∣ 10 ^ places} exponent ↔
      rest = 1 ∧ exponent = max twos fives := by
    intro exponent
    constructor
    · rintro ⟨divides, lower⟩
      obtain ⟨one, reached⟩ := (divides_iff exponent).mp divides
      exact ⟨one, Nat.le_antisymm (lower ((divides_iff _).mpr ⟨one, le_rfl⟩)) reached⟩
    · rintro ⟨one, rfl⟩
      exact ⟨(divides_iff _).mpr ⟨one, le_rfl⟩, fun other divides =>
        ((divides_iff other).mp divides).2⟩
  rw [least, decimalPlaces, strippedTwos]
  simp only [strippedFives]
  constructor
  · intro accepted
    split at accepted
    · rename_i bounds
      obtain rfl := Option.some.inj accepted
      exact ⟨bounds.2, bounds.1, rfl⟩
    · cases accepted
  · rintro ⟨bound, one, rfl⟩
    rw [if_pos ⟨one, bound⟩]

/-! ### Reduction -/

/-- The fraction of an author, in lowest terms. -/
structure Reduced (numerator : Int) (denominator : Nat) (reduced : Int × Nat) : Prop where
  lowest : reduced.1.natAbs.Coprime reduced.2
  positive : 0 < reduced.2
  smaller : reduced.2 ≤ denominator
  sign : reduced.1.sign = numerator.sign
  magnitude : reduced.1.natAbs ≤ numerator.natAbs
  ratio : (reduced.1 : ℚ) / reduced.2 = numerator / denominator
  again : reduce reduced.1 reduced.2 = reduced

theorem reduce_of_coprime {numerator : Int} {denominator : Nat} (nonzero : numerator ≠ 0)
    (lowest : numerator.natAbs.Coprime denominator) :
    reduce numerator denominator = (numerator, denominator) := by
  rw [reduce, if_neg nonzero]
  simp only [lowest.gcd_eq_one, Nat.div_one, Int.sign_mul_natAbs]

theorem reduce_spec (numerator : Int) {denominator : Nat} (positive : 0 < denominator) :
    Reduced numerator denominator (reduce numerator denominator) := by
  by_cases zero : numerator = 0
  · subst zero
    have none : reduce 0 denominator = (0, 1) := if_pos rfl
    rw [none]
    exact ⟨rfl, Nat.one_pos, positive, rfl, le_rfl, by simp, if_pos rfl⟩
  have divisorPositive : 0 < numerator.natAbs.gcd denominator := Nat.gcd_pos_of_pos_right _ positive
  obtain ⟨numeratorPart, numeratorWhole⟩ := Nat.gcd_dvd_left numerator.natAbs denominator
  obtain ⟨denominatorPart, denominatorWhole⟩ := Nat.gcd_dvd_right numerator.natAbs denominator
  have lowest : numeratorPart.Coprime denominatorPart := by
    have quotients := Nat.coprime_div_gcd_div_gcd divisorPositive
    rwa [Nat.div_eq_of_eq_mul_right divisorPositive numeratorWhole,
      Nat.div_eq_of_eq_mul_right divisorPositive denominatorWhole] at quotients
  have result : reduce numerator denominator =
      (numerator.sign * (numeratorPart : Int), denominatorPart) := by
    rw [reduce, if_neg zero]
    simp only [Nat.div_eq_of_eq_mul_right divisorPositive numeratorWhole,
      Nat.div_eq_of_eq_mul_right divisorPositive denominatorWhole]
  have partPositive : 0 < numeratorPart := by
    refine Nat.pos_of_ne_zero fun none => zero ?_
    rw [none, mul_zero] at numeratorWhole
    exact Int.natAbs_eq_zero.mp numeratorWhole
  have signOne : numerator.sign.natAbs = 1 := Int.natAbs_sign_of_ne_zero zero
  have magnitude : (numerator.sign * (numeratorPart : Int)).natAbs = numeratorPart := by
    rw [Int.natAbs_mul, signOne, one_mul, Int.natAbs_natCast]
  rw [result]
  refine ⟨by rwa [magnitude], ?_, ?_, ?_, ?_, ?_, reduce_of_coprime ?_ (by rwa [magnitude])⟩
  · refine Nat.pos_of_ne_zero fun none => ?_
    have vanishes : denominatorPart = 0 := none
    rw [vanishes, mul_zero] at denominatorWhole
    omega
  · conv_rhs => rw [denominatorWhole]
    exact Nat.le_mul_of_pos_left _ divisorPositive
  · rw [Int.sign_mul, Int.sign_sign, Int.sign_natCast_of_ne_zero partPositive.ne', mul_one]
  · simp only [magnitude]
    conv_rhs => rw [numeratorWhole]
    exact Nat.le_mul_of_pos_left _ divisorPositive
  · have wholeNumerator : (numerator : ℚ) = numerator.sign *
        ((numerator.natAbs.gcd denominator : Nat) * (numeratorPart : Nat)) := by
      have integers : numerator = numerator.sign * (numerator.natAbs : Int) :=
        (Int.sign_mul_natAbs numerator).symm
      rw [numeratorWhole] at integers
      exact_mod_cast integers
    have wholeDenominator : (denominator : ℚ) =
        (numerator.natAbs.gcd denominator : Nat) * (denominatorPart : Nat) := by
      exact_mod_cast denominatorWhole
    have divisorNonzero : ((numerator.natAbs.gcd denominator : Nat) : ℚ) ≠ 0 := by
      exact_mod_cast divisorPositive.ne'
    simp only
    conv_rhs => rw [wholeNumerator, wholeDenominator]
    rw [mul_left_comm, mul_div_mul_left _ _ divisorNonzero]
    push_cast
    rfl
  · intro none
    have vanishes : numerator.sign * (numeratorPart : Int) = 0 := none
    rw [vanishes] at magnitude
    exact partPositive.ne magnitude

/-- A reduced fraction is a decimal exactly when its denominator divides the power of ten. -/
theorem Reduced.hasPlaces_iff {numerator : Int} {denominator : Nat} {reduced : Int × Nat}
    (reduces : Reduced numerator denominator reduced) {places : Nat} :
    Decimal.HasPlaces ((numerator : ℚ) / denominator) places ↔ reduced.2 ∣ 10 ^ places := by
  rw [← reduces.ratio]
  exact Decimal.hasPlaces_div_iff reduces.positive reduces.lowest

/-! ### The derivation -/

/-- The fraction an author states. -/
def fraction (numerator : Int64) (denominator : UInt64) : ℚ :=
  (numerator.toInt : ℚ) / denominator.toNat

/-- A coefficient over a power of ten. -/
def SignedCoefficient256.over (coefficient : SignedCoefficient256) (places : Nat) : ℚ :=
  (coefficient.denotes : ℚ) / 10 ^ places

/-- A coefficient that is not a negative zero. -/
def SignedCoefficient256.IsCanonical (coefficient : SignedCoefficient256) : Prop :=
  coefficient.negative = true → coefficient.magnitude ≠ 0

/-- What a fraction is stored as: in lowest terms with its own sign, and as a coefficient over
the common power of ten. -/
structure Stored (numerator : Int64) (denominator : UInt64) (storedNumerator : Int64)
    (storedDenominator : UInt64) (coefficient : SignedCoefficient256) (places : Nat) : Prop where
  ratio : fraction storedNumerator storedDenominator = fraction numerator denominator
  lowest : storedNumerator.toInt.natAbs.Coprime storedDenominator.toNat
  positive : 0 < storedDenominator.toNat
  sign : storedNumerator.toInt.sign = numerator.toInt.sign
  value : coefficient.over places = fraction numerator denominator
  canonical : coefficient.IsCanonical

theorem denotes_of_parts {coefficient : SignedCoefficient256} {numerator : Int} {factor : Nat}
    (negative : coefficient.negative = decide (numerator < 0))
    (magnitude : coefficient.magnitude = numerator.natAbs * factor) :
    coefficient.denotes = numerator * factor := by
  unfold SignedCoefficient256.denotes
  rw [negative, magnitude]
  by_cases below : numerator < 0
  · simp only [below, decide_true, if_true]
    rw [Nat.cast_mul, Int.ofNat_natAbs_of_nonpos below.le, Int.neg_mul, Int.neg_neg]
  · simp only [below, decide_false, Bool.false_eq_true, if_false]
    rw [Nat.cast_mul, Int.natAbs_of_nonneg (not_lt.mp below)]

/-- The coefficient of a reduced fraction over the common power of ten is the fraction. -/
theorem coefficient_spec {numerator : Int} {denominator : Nat} {reduced : Int × Nat}
    (reduces : Reduced numerator denominator reduced) (small : reduced.1.natAbs ≤ 2 ^ 63)
    {ownPlaces commonPlaces : Nat} (divides : reduced.2 ∣ 10 ^ ownPlaces)
    (ordered : ownPlaces ≤ commonPlaces) (common : commonPlaces ≤ 18)
    {coefficient : SignedCoefficient256}
    (made : makeCoefficient reduced.1 reduced.2 ownPlaces commonPlaces = some coefficient) :
    coefficient.over commonPlaces = (numerator : ℚ) / denominator ∧ coefficient.IsCanonical := by
  obtain ⟨negative, magnitude⟩ :=
    makeCoefficient_spec (lt_of_le_of_lt small (by decide)) (ordered.trans common) common made
  rw [mul_assoc] at magnitude
  have denotes := denotes_of_parts negative magnitude
  obtain ⟨factor, power⟩ := divides
  have quotient : 10 ^ ownPlaces / reduced.2 = factor := by
    rw [power, Nat.mul_div_cancel_left _ reduces.positive]
  refine ⟨?_, fun below zero => ?_⟩
  · have split : (10 : ℚ) ^ commonPlaces =
        reduced.2 * factor * 10 ^ (commonPlaces - ownPlaces) := by
      have powers : (10 : ℚ) ^ ownPlaces = reduced.2 * factor := by exact_mod_cast power
      rw [← powers, ← pow_add, Nat.add_sub_cancel' ordered]
    have nonzero : (factor * 10 ^ (commonPlaces - ownPlaces) : ℚ) ≠ 0 := by
      have whole := Decimal.ten_pow_ne_zero commonPlaces
      rw [split, mul_assoc] at whole
      exact right_ne_zero_of_mul whole
    rw [SignedCoefficient256.over, denotes, quotient, split, ← reduces.ratio]
    push_cast
    rw [mul_assoc, mul_div_mul_right _ _ nonzero]
  · rw [negative, decide_eq_true_eq] at below
    have factorPositive : 0 < 10 ^ ownPlaces / reduced.2 :=
      Nat.div_pos (Nat.le_of_dvd (by positivity) ⟨factor, power⟩) reduces.positive
    rw [zero] at magnitude
    have product : 0 < reduced.1.natAbs * (10 ^ ownPlaces / reduced.2 *
        10 ^ (commonPlaces - ownPlaces)) :=
      Nat.mul_pos (by omega) (Nat.mul_pos factorPositive (by positivity))
    omega

theorem hasPlaces_18_iff {numerator : Int} {denominator : Nat} {reduced : Int × Nat}
    (reduces : Reduced numerator denominator reduced) (below : denominator < 2 ^ 64) :
    (∃ places, decimalPlaces reduced.2 = some places) ↔
      Decimal.HasPlaces ((numerator : ℚ) / denominator) 18 := by
  have small := lt_of_le_of_lt reduces.smaller below
  rw [reduces.hasPlaces_iff]
  constructor
  · rintro ⟨places, accepted⟩
    obtain ⟨bound, divides⟩ := decimalPlaces_spec accepted
    exact divides.trans (pow_dvd_pow 10 bound)
  · intro divides
    have exists_places : ∃ places, reduced.2 ∣ 10 ^ places := ⟨18, divides⟩
    classical
    refine ⟨Nat.find exists_places, (decimalPlaces_eq_some_iff reduces.positive small).mpr
      ⟨Nat.find_min' exists_places divides, Nat.find_spec exists_places, fun other holds => ?_⟩⟩
    exact Nat.find_min' exists_places holds

/-- The fractions a derivation accepts. -/
def Derivable (scaleNumerator : Int64) (scaleDenominator : UInt64) (biasNumerator : Int64)
    (biasDenominator : UInt64) : Prop :=
  scaleNumerator ≠ 0 ∧ (0 < scaleDenominator.toNat ∧ scaleDenominator.toNat ≤ 10 ^ 18) ∧
    (0 < biasDenominator.toNat ∧ biasDenominator.toNat ≤ 10 ^ 18) ∧
    Decimal.HasPlaces (fraction scaleNumerator scaleDenominator) 18 ∧
    Decimal.HasPlaces (fraction biasNumerator biasDenominator) 18

/-- What a derivation stores of the fractions it accepts. -/
structure Derives (rawValueType : ValueType) (scaleNumerator : Int64) (scaleDenominator : UInt64)
    (biasNumerator : Int64) (biasDenominator : UInt64)
    (conversion : LinearConversionDescriptor) : Prop where
  rawValueType : conversion.rawValueType = rawValueType
  places : IsLeast {places | Decimal.HasPlaces (fraction scaleNumerator scaleDenominator) places ∧
    Decimal.HasPlaces (fraction biasNumerator biasDenominator) places} conversion.decimalPlaces
  scale : Stored scaleNumerator scaleDenominator conversion.scaleNumerator
    conversion.scaleDenominator conversion.scaleCoefficient conversion.decimalPlaces
  bias : Stored biasNumerator biasDenominator conversion.biasNumerator
    conversion.biasDenominator conversion.biasCoefficient conversion.decimalPlaces
  again : deriveLinearConversion conversion.rawValueType conversion.scaleNumerator
    conversion.scaleDenominator conversion.biasNumerator conversion.biasDenominator =
      .ok conversion

/-- The members of a reduced fraction fit the words they are stored in. -/
theorem toInt_of_reduced {numerator : Int64} {denominator : UInt64} {reduced : Int × Nat}
    (reduces : Reduced numerator.toInt denominator.toNat reduced) :
    (Int64.ofInt reduced.1).toInt = reduced.1 ∧ (UInt64.ofNat reduced.2).toNat = reduced.2 := by
  have lower := numerator.minValue_le_toInt
  have upper := numerator.toInt_lt
  have minimum : Int64.minValue.toInt = -2 ^ 63 := by decide
  have sign := reduces.sign
  have magnitude := reduces.magnitude
  have bound := lt_of_le_of_lt reduces.smaller denominator.toNat_lt
  refine ⟨Int64.toInt_ofInt_of_le ?_ ?_, UInt64.toNat_ofNat_of_lt bound⟩
  · omega
  · rcases lt_trichotomy numerator.toInt 0 with negative | zero | positive
    · rw [Int.sign_eq_neg_one_of_neg negative, Int.sign_eq_neg_one_iff_neg] at sign
      omega
    · rw [zero, Int.sign_zero, Int.sign_eq_zero_iff_zero] at sign
      omega
    · omega

/-- What is stored of one fraction. -/
theorem stored_of_reduced {numerator : Int64} {denominator : UInt64} {reduced : Int × Nat}
    (reduces : Reduced numerator.toInt denominator.toNat reduced) {ownPlaces commonPlaces : Nat}
    (divides : reduced.2 ∣ 10 ^ ownPlaces) (ordered : ownPlaces ≤ commonPlaces)
    (common : commonPlaces ≤ 18) {coefficient : SignedCoefficient256}
    (made : makeCoefficient reduced.1 reduced.2 ownPlaces commonPlaces = some coefficient) :
    Stored numerator denominator (Int64.ofInt reduced.1) (UInt64.ofNat reduced.2) coefficient
      commonPlaces := by
  obtain ⟨numeratorFits, denominatorFits⟩ := toInt_of_reduced reduces
  obtain ⟨value, canonical⟩ := coefficient_spec reduces
    (reduces.magnitude.trans (natAbs_toInt_le numerator)) divides ordered common made
  refine ⟨?_, ?_, ?_, ?_, value, canonical⟩
  · rw [fraction, fraction, numeratorFits, denominatorFits, reduces.ratio]
  · rw [numeratorFits, denominatorFits]
    exact reduces.lowest
  · rw [denominatorFits]
    exact reduces.positive
  · rw [numeratorFits]
    exact reduces.sign

/-- The descriptor of reduced fractions, their places and their coefficients. -/
def storedConversion (rawValueType : ValueType) (scale bias : Int × Nat)
    (scalePlaces biasPlaces : Nat) (scaleCoefficient biasCoefficient : SignedCoefficient256) :
    LinearConversionDescriptor where
  rawValueType := rawValueType
  scaleNumerator := Int64.ofInt scale.1
  scaleDenominator := UInt64.ofNat scale.2
  biasNumerator := Int64.ofInt bias.1
  biasDenominator := UInt64.ofNat bias.2
  decimalPlaces := max scalePlaces biasPlaces
  scaleCoefficient := scaleCoefficient
  biasCoefficient := biasCoefficient

/-- The derivation of fractions in range, with the reduction and the places named. -/
theorem deriveLinearConversion_of_range {rawValueType : ValueType} {scaleNumerator : Int64}
    {scaleDenominator : UInt64} {biasNumerator : Int64} {biasDenominator : UInt64}
    (nonzero : scaleNumerator ≠ 0)
    (scaleRange : 0 < scaleDenominator.toNat ∧ scaleDenominator.toNat ≤ 10 ^ 18)
    (biasRange : 0 < biasDenominator.toNat ∧ biasDenominator.toNat ≤ 10 ^ 18)
    {scalePlaces biasPlaces : Nat}
    (scaleAccepted :
      decimalPlaces (reduce scaleNumerator.toInt scaleDenominator.toNat).2 = some scalePlaces)
    (biasAccepted :
      decimalPlaces (reduce biasNumerator.toInt biasDenominator.toNat).2 = some biasPlaces) :
    ∃ conversion, deriveLinearConversion rawValueType scaleNumerator scaleDenominator biasNumerator
      biasDenominator = .ok conversion := by
  have scaleReduces := reduce_spec scaleNumerator.toInt scaleRange.1
  have biasReduces := reduce_spec biasNumerator.toInt biasRange.1
  have scaleBound := (decimalPlaces_spec scaleAccepted).1
  have biasBound := (decimalPlaces_spec biasAccepted).1
  obtain ⟨scaleCoefficient, scaleMade⟩ := @makeCoefficient_total
    (reduce scaleNumerator.toInt scaleDenominator.toNat).1
    (reduce scaleNumerator.toInt scaleDenominator.toNat).2 scalePlaces (max scalePlaces biasPlaces)
    (scaleReduces.magnitude.trans (natAbs_toInt_le _)) scaleBound (max_le scaleBound biasBound)
  obtain ⟨biasCoefficient, biasMade⟩ := @makeCoefficient_total
    (reduce biasNumerator.toInt biasDenominator.toNat).1
    (reduce biasNumerator.toInt biasDenominator.toNat).2 biasPlaces (max scalePlaces biasPlaces)
    (biasReduces.magnitude.trans (natAbs_toInt_le _)) biasBound (max_le scaleBound biasBound)
  have inRange : ¬(scaleDenominator = 0 ∨ biasDenominator = 0 ∨
      scaleDenominator.toNat > maximumAuthorDenominator ∨
      biasDenominator.toNat > maximumAuthorDenominator) := by
    unfold maximumAuthorDenominator
    rintro (zero | zero | large | large)
    · rw [zero] at scaleRange
      exact absurd scaleRange.1 (by decide)
    · rw [zero] at biasRange
      exact absurd biasRange.1 (by decide)
    · omega
    · omega
  refine ⟨storedConversion rawValueType (reduce scaleNumerator.toInt scaleDenominator.toNat)
    (reduce biasNumerator.toInt biasDenominator.toNat) scalePlaces biasPlaces scaleCoefficient
    biasCoefficient, ?_⟩
  rw [deriveLinearConversion, rejectIf, if_neg nonzero, rejectIf, if_neg inRange]
  simp only [scaleAccepted, biasAccepted, deriveCoefficients, scaleMade, biasMade,
    Option.bind_eq_bind, Option.bind_some]
  rfl

/-- A derivation succeeds exactly on the fractions it should accept, and never overflows. -/
theorem deriveLinearConversion_iff {rawValueType : ValueType} {scaleNumerator : Int64}
    {scaleDenominator : UInt64} {biasNumerator : Int64} {biasDenominator : UInt64} :
    ((∃ conversion, deriveLinearConversion rawValueType scaleNumerator scaleDenominator
        biasNumerator biasDenominator = .ok conversion) ↔
      Derivable scaleNumerator scaleDenominator biasNumerator biasDenominator) ∧
    deriveLinearConversion rawValueType scaleNumerator scaleDenominator biasNumerator
      biasDenominator ≠ .error .arithmeticOverflow := by
  by_cases nonzero : scaleNumerator = 0
  · have run : deriveLinearConversion rawValueType scaleNumerator scaleDenominator biasNumerator
        biasDenominator = .error .zeroScale := by
      rw [deriveLinearConversion, rejectIf, if_pos nonzero]
      rfl
    rw [run]
    exact ⟨⟨(by rintro ⟨_, accepted⟩; cases accepted), fun derivable => absurd nonzero derivable.1⟩,
      by simp⟩
  by_cases outside : scaleDenominator = 0 ∨ biasDenominator = 0 ∨
      scaleDenominator.toNat > maximumAuthorDenominator ∨
      biasDenominator.toNat > maximumAuthorDenominator
  · have run : deriveLinearConversion rawValueType scaleNumerator scaleDenominator biasNumerator
        biasDenominator = .error .denominatorOutOfRange := by
      rw [deriveLinearConversion, rejectIf, if_neg nonzero, rejectIf, if_pos outside]
      rfl
    rw [run]
    refine ⟨⟨(by rintro ⟨_, accepted⟩; cases accepted), fun derivable => ?_⟩, by simp⟩
    obtain ⟨-, scaleRange, biasRange, -⟩ := derivable
    unfold maximumAuthorDenominator at outside
    rcases outside with zero | zero | large | large
    · rw [zero] at scaleRange
      exact absurd scaleRange.1 (by decide)
    · rw [zero] at biasRange
      exact absurd biasRange.1 (by decide)
    · omega
    · omega
  have positive : ∀ {value : UInt64}, value ≠ 0 → 0 < value.toNat := fun {value} different =>
    Nat.pos_of_ne_zero fun zero => different (UInt64.toNat_inj.mp zero)
  obtain ⟨scalePositive, biasPositive, scaleSmall, biasSmall⟩ : 0 < scaleDenominator.toNat ∧
      0 < biasDenominator.toNat ∧ scaleDenominator.toNat ≤ 10 ^ 18 ∧
        biasDenominator.toNat ≤ 10 ^ 18 := by
    simp only [not_or, gt_iff_lt, not_lt] at outside
    exact ⟨positive outside.1, positive outside.2.1, outside.2.2.1, outside.2.2.2⟩
  have scaleIff := hasPlaces_18_iff (reduce_spec scaleNumerator.toInt scalePositive)
    scaleDenominator.toNat_lt
  have biasIff := hasPlaces_18_iff (reduce_spec biasNumerator.toInt biasPositive)
    biasDenominator.toNat_lt
  cases scaleAccepted : decimalPlaces (reduce scaleNumerator.toInt scaleDenominator.toNat).2 with
  | none =>
    have run : deriveLinearConversion rawValueType scaleNumerator scaleDenominator biasNumerator
        biasDenominator = .error .nonTerminatingScale := by
      rw [deriveLinearConversion, rejectIf, if_neg nonzero, rejectIf, if_neg outside]
      simp only [scaleAccepted]
      rfl
    rw [scaleAccepted] at scaleIff
    rw [run]
    refine ⟨⟨(by rintro ⟨_, accepted⟩; cases accepted), fun derivable => ?_⟩, by rintro ⟨⟩⟩
    obtain ⟨_, accepted⟩ := scaleIff.mpr derivable.2.2.2.1
    cases accepted
  | some scalePlaces =>
    cases biasAccepted : decimalPlaces (reduce biasNumerator.toInt biasDenominator.toNat).2 with
    | none =>
      have run : deriveLinearConversion rawValueType scaleNumerator scaleDenominator biasNumerator
          biasDenominator = .error .nonTerminatingBias := by
        rw [deriveLinearConversion, rejectIf, if_neg nonzero, rejectIf, if_neg outside]
        simp only [scaleAccepted, biasAccepted]
        rfl
      rw [run]
      refine ⟨⟨(by rintro ⟨_, accepted⟩; cases accepted), fun derivable => ?_⟩, by rintro ⟨⟩⟩
      obtain ⟨_, accepted⟩ := biasIff.mpr derivable.2.2.2.2
      rw [biasAccepted] at accepted
      cases accepted
    | some biasPlaces =>
      obtain ⟨conversion, accepted⟩ := @deriveLinearConversion_of_range rawValueType _ _ _ _ nonzero
        ⟨scalePositive, scaleSmall⟩ ⟨biasPositive, biasSmall⟩ _ _ scaleAccepted biasAccepted
      rw [accepted]
      exact ⟨⟨fun _ => ⟨nonzero, ⟨scalePositive, scaleSmall⟩, ⟨biasPositive, biasSmall⟩,
        scaleIff.mp ⟨_, scaleAccepted⟩, biasIff.mp ⟨_, biasAccepted⟩⟩,
        fun _ => ⟨conversion, rfl⟩⟩, by simp⟩

/-- The parts of an accepted derivation. -/
theorem deriveLinearConversion_parts {rawValueType : ValueType} {scaleNumerator : Int64}
    {scaleDenominator : UInt64} {biasNumerator : Int64} {biasDenominator : UInt64}
    {conversion : LinearConversionDescriptor}
    (derived : deriveLinearConversion rawValueType scaleNumerator scaleDenominator biasNumerator
      biasDenominator = .ok conversion) :
    0 < scaleDenominator.toNat ∧ 0 < biasDenominator.toNat ∧
      ∃ scalePlaces biasPlaces scaleCoefficient biasCoefficient,
        decimalPlaces (reduce scaleNumerator.toInt scaleDenominator.toNat).2 = some scalePlaces ∧
        decimalPlaces (reduce biasNumerator.toInt biasDenominator.toNat).2 = some biasPlaces ∧
        deriveCoefficients (reduce scaleNumerator.toInt scaleDenominator.toNat)
          (reduce biasNumerator.toInt biasDenominator.toNat) scalePlaces biasPlaces =
            some (scaleCoefficient, biasCoefficient) ∧
        conversion = storedConversion rawValueType
          (reduce scaleNumerator.toInt scaleDenominator.toNat)
          (reduce biasNumerator.toInt biasDenominator.toNat) scalePlaces biasPlaces scaleCoefficient
          biasCoefficient := by
  obtain ⟨-, ⟨scalePositive, -⟩, ⟨biasPositive, -⟩, -⟩ :=
    deriveLinearConversion_iff.1.mp ⟨conversion, derived⟩
  unfold deriveLinearConversion at derived
  simp only [rejectIf_bind_eq_ok] at derived
  obtain ⟨-, -, derived⟩ := derived
  split at derived
  · cases derived
  rename_i scalePlaces scaleAccepted
  split at derived
  · cases derived
  rename_i biasPlaces biasAccepted
  split at derived
  · cases derived
  rename_i scaleCoefficient biasCoefficient coefficients
  exact ⟨scalePositive, biasPositive, scalePlaces, biasPlaces, scaleCoefficient, biasCoefficient,
    scaleAccepted, biasAccepted, coefficients, (Except.ok.inj derived).symm⟩

/-- The reduced fractions derive the descriptor that stores them. -/
theorem deriveLinearConversion_again {rawValueType : ValueType} {scaleNumerator : Int64}
    {scaleDenominator : UInt64} {biasNumerator : Int64} {biasDenominator : UInt64}
    {conversion : LinearConversionDescriptor}
    (derived : deriveLinearConversion rawValueType scaleNumerator scaleDenominator biasNumerator
      biasDenominator = .ok conversion) :
    deriveLinearConversion conversion.rawValueType conversion.scaleNumerator
      conversion.scaleDenominator conversion.biasNumerator conversion.biasDenominator =
        .ok conversion := by
  obtain ⟨nonzero, ⟨-, scaleSmall⟩, ⟨-, biasSmall⟩, -⟩ :=
    deriveLinearConversion_iff.1.mp ⟨conversion, derived⟩
  obtain ⟨scalePositive, biasPositive, scalePlaces, biasPlaces, scaleCoefficient, biasCoefficient,
    scaleAccepted, biasAccepted, coefficients, rfl⟩ := deriveLinearConversion_parts derived
  have scaleReduces := reduce_spec scaleNumerator.toInt scalePositive
  have biasReduces := reduce_spec biasNumerator.toInt biasPositive
  obtain ⟨scaleFits, scaleDenominatorFits⟩ := toInt_of_reduced scaleReduces
  obtain ⟨biasFits, biasDenominatorFits⟩ := toInt_of_reduced biasReduces
  have kept : ¬Int64.ofInt (reduce scaleNumerator.toInt scaleDenominator.toNat).1 = 0 := by
    intro zero
    have value := congrArg Int64.toInt zero
    rw [scaleFits] at value
    have sign := scaleReduces.sign
    rw [value] at sign
    have original : scaleNumerator.toInt = 0 :=
      Int.sign_eq_zero_iff_zero.mp (sign.symm.trans Int.sign_zero)
    exact nonzero (Int64.toInt_inj.mp original)
  have inRange : ¬(UInt64.ofNat (reduce scaleNumerator.toInt scaleDenominator.toNat).2 = 0 ∨
      UInt64.ofNat (reduce biasNumerator.toInt biasDenominator.toNat).2 = 0 ∨
      (UInt64.ofNat (reduce scaleNumerator.toInt scaleDenominator.toNat).2).toNat >
        maximumAuthorDenominator ∨
      (UInt64.ofNat (reduce biasNumerator.toInt biasDenominator.toNat).2).toNat >
        maximumAuthorDenominator) := by
    have scaleLe := scaleReduces.smaller.trans scaleSmall
    have biasLe := biasReduces.smaller.trans biasSmall
    rw [scaleDenominatorFits, biasDenominatorFits]
    unfold maximumAuthorDenominator
    rintro (zero | zero | large | large)
    · have value := congrArg UInt64.toNat zero
      rw [scaleDenominatorFits] at value
      exact scaleReduces.positive.ne' value
    · have value := congrArg UInt64.toNat zero
      rw [biasDenominatorFits] at value
      exact biasReduces.positive.ne' value
    · omega
    · omega
  simp only [storedConversion]
  rw [deriveLinearConversion, rejectIf, if_neg kept, rejectIf, if_neg inRange]
  simp only [scaleFits, scaleDenominatorFits, biasFits, biasDenominatorFits, scaleReduces.again,
    biasReduces.again, scaleAccepted, biasAccepted, coefficients]
  rfl

/-- What a derivation stores. -/
theorem derives_of_deriveLinearConversion {rawValueType : ValueType} {scaleNumerator : Int64}
    {scaleDenominator : UInt64} {biasNumerator : Int64} {biasDenominator : UInt64}
    {conversion : LinearConversionDescriptor}
    (derived : deriveLinearConversion rawValueType scaleNumerator scaleDenominator biasNumerator
      biasDenominator = .ok conversion) :
    Derives rawValueType scaleNumerator scaleDenominator biasNumerator biasDenominator
      conversion := by
  have again := deriveLinearConversion_again derived
  obtain ⟨scalePositive, biasPositive, scalePlaces, biasPlaces, scaleCoefficient, biasCoefficient,
    scaleAccepted, biasAccepted, coefficients, rfl⟩ := deriveLinearConversion_parts derived
  have scaleReduces := reduce_spec scaleNumerator.toInt scalePositive
  have biasReduces := reduce_spec biasNumerator.toInt biasPositive
  obtain ⟨scaleBound, scaleLeast⟩ := (decimalPlaces_eq_some_iff scaleReduces.positive
    (lt_of_le_of_lt scaleReduces.smaller scaleDenominator.toNat_lt)).mp scaleAccepted
  obtain ⟨biasBound, biasLeast⟩ := (decimalPlaces_eq_some_iff biasReduces.positive
    (lt_of_le_of_lt biasReduces.smaller biasDenominator.toNat_lt)).mp biasAccepted
  simp only [deriveCoefficients, Option.bind_eq_bind, Option.bind_eq_some_iff, Option.some.injEq,
    Prod.mk.injEq] at coefficients
  obtain ⟨_, scaleMade, _, biasMade, rfl, rfl⟩ := coefficients
  have common : max scalePlaces biasPlaces ≤ 18 := max_le scaleBound biasBound
  refine ⟨rfl, ⟨⟨?_, ?_⟩, ?_⟩,
    stored_of_reduced scaleReduces scaleLeast.1 (le_max_left _ _) common scaleMade,
    stored_of_reduced biasReduces biasLeast.1 (le_max_right _ _) common biasMade, again⟩
  · exact scaleReduces.hasPlaces_iff.mpr (scaleLeast.1.trans (pow_dvd_pow 10 (le_max_left _ _)))
  · exact biasReduces.hasPlaces_iff.mpr (biasLeast.1.trans (pow_dvd_pow 10 (le_max_right _ _)))
  · rintro places ⟨scaleHas, biasHas⟩
    exact max_le (scaleLeast.2 (scaleReduces.hasPlaces_iff.mp scaleHas))
      (biasLeast.2 (biasReduces.hasPlaces_iff.mp biasHas))

/-- The derivation accepts exactly the fractions that are short decimals, never overflows, stores
them exactly over the fewest places, and the builder accepts what it stores. -/
theorem deriveLinearConversion_exact (rawValueType : ValueType) (scaleNumerator : Int64)
    (scaleDenominator : UInt64) (biasNumerator : Int64) (biasDenominator : UInt64) :
    ((∃ conversion, deriveLinearConversion rawValueType scaleNumerator scaleDenominator
        biasNumerator biasDenominator = .ok conversion) ↔
      Derivable scaleNumerator scaleDenominator biasNumerator biasDenominator) ∧
    deriveLinearConversion rawValueType scaleNumerator scaleDenominator biasNumerator
      biasDenominator ≠ .error .arithmeticOverflow ∧
    ∀ conversion, deriveLinearConversion rawValueType scaleNumerator scaleDenominator
        biasNumerator biasDenominator = .ok conversion →
      Derives rawValueType scaleNumerator scaleDenominator biasNumerator biasDenominator
        conversion ∧
      ((rawValueType = .uint64 ∨ rawValueType = .int64) →
        ∀ schemaVersion ∈ conversionSchemaVersions,
          conversionInvalid schemaVersion conversion = false) := by
  obtain ⟨accepts, overflows⟩ := @deriveLinearConversion_iff rawValueType scaleNumerator
    scaleDenominator biasNumerator biasDenominator
  refine ⟨accepts, overflows, fun conversion derived => ?_⟩
  have derives := derives_of_deriveLinearConversion derived
  refine ⟨derives, fun rawType schemaVersion member => ?_⟩
  rw [conversionInvalid, derives.again, derives.rawValueType]
  rcases rawType with rfl | rfl <;> simp [member]

theorem deriveLinearConversion_exact_sample : ∃ conversion,
    deriveLinearConversion .int64 (-2) 4 3 8 = .ok conversion ∧
      Derives .int64 (-2) 4 3 8 conversion ∧ conversionInvalid "0.5" conversion = false := by
  have accepted : (deriveLinearConversion .int64 (-2) 4 3 8).isOk = true := by decide +kernel
  obtain ⟨-, -, stores⟩ := deriveLinearConversion_exact .int64 (-2) 4 3 8
  cases run : deriveLinearConversion .int64 (-2) 4 3 8 with
  | error failure =>
    rw [run] at accepted
    cases accepted
  | ok conversion =>
    obtain ⟨derives, valid⟩ := stores conversion run
    exact ⟨conversion, rfl, derives, valid (.inr rfl) "0.5" (by decide)⟩

end ProtocolAdapter
