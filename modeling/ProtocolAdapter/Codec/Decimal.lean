/-
This file models the conversion between raw integers and decimals: a record carries a raw
integer, the caller sees `(raw * A + B) / 10 ^ t`. Within the bounds of an accepted
descriptor neither direction overflows, so both compute exactly what the formula says,
and each undoes the other.
-/

import ProtocolAdapter.Codec.Wide
import ProtocolAdapter.Codec.Wire
import ProtocolAdapter.Foundation.Decimal

namespace ProtocolAdapter.Codec

open Foundation

/-! ### The conversion -/

/-- Why a conversion fails. -/
inductive DecimalArithmeticStatus where
  | decimalScaleOutOfRange
  | rawNotIntegral
  | rawOutOfRange
  | logicalOutOfRange
  | internalError
  deriving DecidableEq

/-- A power of ten in 64 bits. -/
def power10 : Nat → Nat
  | 0 => 1
  | exponent + 1 => power10 exponent * 10 % 2 ^ 64

/-- Whether a raw integer has the type and the width of its field. -/
def fitsRaw (raw : SignedWide) (type : ValueType) (width : Nat) : Bool :=
  if width = 0 ∨ width > 8 then false
  else
    match raw.magnitude.to64 with
    | none => false
    | some magnitude =>
      if type = .uint64 then !raw.negative && (width == 8 || magnitude < 2 ^ (width * 8))
      else if type ≠ .int64 then false
      else magnitude ≤ if raw.negative then 2 ^ (width * 8 - 1) else 2 ^ (width * 8 - 1) - 1

/-- Cancels factors of ten while the scale lasts; fails when the division does. -/
def cancelTens (magnitude : Wide) : Nat → Option (Wide × Nat)
  | 0 => some (magnitude, 0)
  | scale + 1 => do
    let (quotient, remainder) ← magnitude.divide (.from64 10)
    if remainder.isZero then cancelTens quotient scale else some (magnitude, scale + 1)

/-- The normal form of a number over a power of ten. -/
def normalize (coefficient : SignedWide) (scale : Nat) :
    Except DecimalArithmeticStatus Decimal64 :=
  if coefficient.magnitude.isZero then .ok {}
  else
    match cancelTens coefficient.magnitude scale with
    | none => .error .internalError
    | some (magnitude, scale) =>
      match { coefficient with magnitude := magnitude : SignedWide }.toSigned with
      | none => .error .logicalOutOfRange
      | some value => .ok { coefficient := value, scale := Int32.ofNat scale }

/-- The number that the bits of a raw integer stand for. -/
def rawSigned (rawBits : Nat) (type : ValueType) (width : Nat) : SignedWide :=
  if type = .uint64 then { magnitude := .from64 rawBits, negative := false }
  else if rawBits &&& 2 ^ (width * 8 - 1) = 0 then
    { magnitude := .from64 rawBits, negative := false }
  else
    SignedWide.canonical
      { magnitude := .from64 ((((maxUint64 ^^^ rawBits) &&& (2 ^ (width * 8) - 1)) + 1) % 2 ^ 64)
        negative := true }

/-- The value of a linear conversion before it is normalized. -/
def convertRaw (conversion : LinearConversionDescriptor) (raw : SignedWide) :
    Option SignedWide := do
  let value ← raw.multiply (.fromDescriptor conversion.scaleCoefficient)
  value.add (.fromDescriptor conversion.biasCoefficient)

def decodeDecimal (conversion : LinearConversionDescriptor) (rawBits width : Nat) :
    Except DecimalArithmeticStatus Decimal64 :=
  let raw := rawSigned rawBits conversion.rawValueType width
  if fitsRaw raw conversion.rawValueType width = false then .error .rawOutOfRange
  else
    match convertRaw conversion raw with
    | none => .error .internalError
    | some value => normalize value conversion.decimalPlaces

/-- The numerator and the denominator of the raw integer of a decimal, over one power of
ten. -/
def invertConversion (conversion : LinearConversionDescriptor) (logical : Decimal64)
    (logicalScale : Nat) : Option (SignedWide × SignedWide) := do
  let commonScale := max logicalScale conversion.decimalPlaces
  let power := fun scale : Nat =>
    ({ magnitude := .from64 (power10 (commonScale - scale)), negative := false } : SignedWide)
  let logicalValue ← (SignedWide.fromSigned logical.coefficient).multiply (power logicalScale)
  let bias ← (SignedWide.fromDescriptor conversion.biasCoefficient).multiply
    (power conversion.decimalPlaces)
  let denominator ← (SignedWide.fromDescriptor conversion.scaleCoefficient).multiply
    (power conversion.decimalPlaces)
  let numerator ← logicalValue.add bias.negate
  some (numerator, denominator)

def encodeDecimal (conversion : LinearConversionDescriptor) (logical : Decimal64) (width : Nat) :
    Except DecimalArithmeticStatus Nat :=
  if logical.scale < 0 ∨ logical.scale > 18 then .error .decimalScaleOutOfRange
  else
    match invertConversion conversion logical logical.scale.toInt.toNat with
    | none => .error .internalError
    | some (numerator, denominator) =>
      match numerator.magnitude.divide denominator.magnitude with
      | none => .error .internalError
      | some (quotient, remainder) =>
        if remainder.isZero = false then .error .rawNotIntegral
        else
          let raw := SignedWide.canonical
            { magnitude := quotient, negative := numerator.negative != denominator.negative }
          if fitsRaw raw conversion.rawValueType width = false then .error .rawOutOfRange
          else
            match raw.magnitude.to64 with
            | none => .error .internalError
            | some magnitude =>
              let rawBits := if raw.negative then (2 ^ 64 - magnitude) % 2 ^ 64 else magnitude
              .ok (if width < 8 then rawBits &&& (2 ^ (width * 8) - 1) else rawBits)

/-- Whether two decimals have the same value. -/
def decimalEqual (left right : Decimal64) : Bool :=
  if left.scale < 0 ∨ left.scale > 18 ∨ right.scale < 0 ∨ right.scale > 18 then false
  else
    match normalize (.fromSigned left.coefficient) left.scale.toInt.toNat,
      normalize (.fromSigned right.coefficient) right.scale.toInt.toNat with
    | .ok normalizedLeft, .ok normalizedRight =>
      normalizedLeft.coefficient == normalizedRight.coefficient &&
        normalizedLeft.scale == normalizedRight.scale
    | _, _ => false

/-! ### What the conversion computes -/

/-- The integer that the bits of a raw integer stand for. -/
def rawInteger (rawBits : Nat) (type : ValueType) (width : Nat) : Int :=
  if type = .uint64 then rawBits else (interpretSigned rawBits width).getD 0

/-- The integers a raw field of a type and a width can hold. -/
def RawRange (type : ValueType) (width : Nat) (value : Int) : Prop :=
  match type with
  | .uint64 => 0 ≤ value ∧ value < 2 ^ (8 * width)
  | .int64 => fitsSignedWidth value width = true
  | _ => False

instance : (type : ValueType) → (width : Nat) → (value : Int) →
    Decidable (RawRange type width value)
  | .uint64, width, value => inferInstanceAs (Decidable (0 ≤ value ∧ value < 2 ^ (8 * width)))
  | .int64, width, value => inferInstanceAs (Decidable (fitsSignedWidth value width = true))
  | .bytes, _, _ | .enum, _, _ | .bool, _, _ =>
    inferInstanceAs (Decidable False)

/-- A sign that agrees with the integer: zero is not negative. -/
def SignedWide.IsCanonical (number : SignedWide) : Prop :=
  number.negative = decide (number.value < 0)

theorem SignedWide.isCanonical_canonical (number : SignedWide) :
    number.canonical.IsCanonical := by
  rw [IsCanonical, SignedWide.value_canonical, SignedWide.negative_canonical]

theorem power10_eq : ∀ {exponent : Nat}, exponent ≤ 18 → power10 exponent = 10 ^ exponent
  | 0, _ => rfl
  | exponent + 1, bound => by
    have small : 10 ^ (exponent + 1) < 2 ^ 64 :=
      lt_of_le_of_lt (Nat.pow_le_pow_right (by decide) bound) (by decide)
    rw [power10, power10_eq (by omega), ← pow_succ, Nat.mod_eq_of_lt small]

theorem pow_eight_le {width : Nat} (bounded : width ≤ 8) : 2 ^ (8 * width) ≤ 2 ^ 64 :=
  Nat.pow_le_pow_right (by decide) (by omega)

/-- A raw integer is read as what its bits stand for. -/
theorem rawSigned_spec {rawBits width : Nat} (type : ValueType) (positive : 0 < width)
    (bounded : width ≤ 8) (small : rawBits < 2 ^ (8 * width)) :
    (rawSigned rawBits type width).value = rawInteger rawBits type width ∧
      (rawSigned rawBits type width).IsCanonical := by
  have wide := lt_of_lt_of_le small (pow_eight_le bounded)
  have plain : SignedWide.value ⟨.from64 rawBits, false⟩ = rawBits ∧
      SignedWide.IsCanonical ⟨.from64 rawBits, false⟩ := by
    have value : SignedWide.value ⟨.from64 rawBits, false⟩ = rawBits :=
      congrArg Nat.cast (Wide.value_from64 wide)
    refine ⟨value, ?_⟩
    rw [SignedWide.IsCanonical, value]
    simp
  unfold rawSigned rawInteger
  rw [mul_comm width 8]
  by_cases unsigned : type = .uint64
  · rw [if_pos unsigned, if_pos unsigned]
    exact plain
  · have interpreted : interpretSigned rawBits width =
        if rawBits &&& 2 ^ (8 * width - 1) = 0 then some (rawBits : Int)
        else some (-(((maxUint64 ^^^ rawBits) &&& (2 ^ (8 * width) - 1)) + 1 : Nat)) :=
      if_neg (by omega)
    rw [if_neg unsigned, if_neg unsigned, interpreted]
    by_cases clear : rawBits &&& 2 ^ (8 * width - 1) = 0
    · rw [if_pos clear, if_pos clear]
      exact plain
    · rw [if_neg clear, if_neg clear]
      refine ⟨?_, SignedWide.isCanonical_canonical _⟩
      have half : 0 < rawBits := by
        by_contra zero
        simp [show rawBits = 0 by omega] at clear
      have room : (((maxUint64 ^^^ rawBits) &&& (2 ^ (8 * width) - 1)) + 1) < 2 ^ 64 := by
        have widest := pow_eight_le bounded
        rw [complement_eq (by omega) small]
        omega
      rw [SignedWide.value_canonical, SignedWide.value_eq, Nat.mod_eq_of_lt room,
        Wide.value_from64 room]
      rfl

/-- The range check is exact on canonical numbers. -/
theorem fitsRaw_iff {raw : SignedWide} {type : ValueType} {width : Nat}
    (canonical : raw.IsCanonical) (positive : 0 < width) (bounded : width ≤ 8) :
    fitsRaw raw type width = true ↔ RawRange type width raw.value := by
  have widest := pow_eight_le bounded
  have split : 2 ^ (8 * width) = 2 ^ (8 * width - 1) + 2 ^ (8 * width - 1) := by
    exact_mod_cast two_pow_split positive
  have magnitude := raw.natAbs_value
  unfold SignedWide.IsCanonical at canonical
  have rejected : ¬(width = 0 ∨ width > 8) := by omega
  unfold fitsRaw RawRange
  rw [if_neg rejected, Wide.to64_eq, canonical, mul_comm width 8, ← magnitude]
  have signed : (2 : Int) ^ (8 * width - 1) = (2 ^ (8 * width - 1) : Nat) := by push_cast; rfl
  have whole : (2 : Int) ^ (8 * width) = (2 ^ (8 * width) : Nat) := by push_cast; rfl
  rw [fitsSignedWidth_iff, signed, whole]
  by_cases fits : raw.value.natAbs < 2 ^ 64
  · rw [if_pos fits]
    cases type
    case uint64 =>
      have full : width = 8 → 2 ^ (8 * width) = 2 ^ 64 := fun eight => by rw [eight]
      simp only [if_true, Bool.and_eq_true, Bool.or_eq_true, Bool.not_eq_true',
        decide_eq_false_iff_not, beq_iff_eq, decide_eq_true_eq]
      omega
    case int64 =>
      simp only [reduceCtorEq, if_false, ne_eq, not_true_eq_false, decide_eq_true_eq]
      have half := Nat.two_pow_pos (8 * width - 1)
      split <;> omega
    all_goals simp
  · rw [if_neg fits]
    cases type <;> simp only [Bool.false_eq_true, false_iff] <;> omega

/-! ### Normal forms -/

/-- Cancelling tens of the magnitude is cancelling tens of the number. -/
theorem cancelTens_spec : ∀ (scale : Nat) (magnitude : Wide),
    ∃ cancelled rest, cancelTens magnitude scale = some (cancelled, rest) ∧
      ∀ negative, Decimal.normalForm (SignedWide.value ⟨magnitude, negative⟩) scale =
        (SignedWide.value ⟨cancelled, negative⟩, rest)
  | 0, magnitude => ⟨magnitude, 0, rfl, fun _ => rfl⟩
  | scale + 1, magnitude => by
    have ten : (Wide.from64 10).value = 10 := Wide.value_from64 (by decide)
    obtain ⟨quotient, remainder, divided, quotientValue, remainderValue⟩ :=
      magnitude.divide_eq (show 0 < (Wide.from64 10).value by omega)
    rw [ten] at quotientValue remainderValue
    have exact := remainder.isZero_iff
    have divides : ∀ negative, 10 ∣ SignedWide.value ⟨magnitude, negative⟩ ↔
        remainder.isZero = true := by
      intro negative
      rw [exact, SignedWide.value_eq]
      split <;> omega
    by_cases zero : remainder.isZero = true
    · obtain ⟨cancelled, rest, run, form⟩ := cancelTens_spec scale quotient
      refine ⟨cancelled, rest, by simp [cancelTens, divided, zero, run], fun negative => ?_⟩
      have tenth : SignedWide.value ⟨magnitude, negative⟩ / 10 =
          SignedWide.value ⟨quotient, negative⟩ := by
        rw [exact] at zero
        rw [SignedWide.value_eq, SignedWide.value_eq]
        split <;> omega
      rw [Decimal.normalForm, if_pos ((divides negative).mpr zero), tenth, form negative]
    · refine ⟨magnitude, scale + 1, by simp [cancelTens, divided, zero], fun negative => ?_⟩
      rw [Decimal.normalForm, if_neg (mt (divides negative).mp zero)]

/-- Normalizing computes the normal form, when a 64-bit coefficient can hold it. -/
theorem normalize_eq (coefficient : SignedWide) (scale : Nat) :
    let form := Decimal.normalForm coefficient.value scale
    normalize coefficient scale =
      if FitsInt64 form.1 then
        .ok { coefficient := Int64.ofInt form.1, scale := Int32.ofNat form.2 }
      else .error .logicalOutOfRange := by
  intro form
  unfold normalize
  have magnitude := coefficient.natAbs_value
  by_cases zero : coefficient.magnitude.isZero = true
  · rw [if_pos zero]
    rw [Wide.isZero_iff] at zero
    have nothing : form = (0, 0) := by
      change Decimal.normalForm coefficient.value scale = (0, 0)
      rw [show coefficient.value = 0 by omega]
      exact Decimal.normalForm_zero scale
    rw [nothing]
    rfl
  · rw [if_neg zero]
    obtain ⟨cancelled, rest, run, forms⟩ := cancelTens_spec scale coefficient.magnitude
    have same : form = (SignedWide.value ⟨cancelled, coefficient.negative⟩, rest) :=
      forms coefficient.negative
    rw [same, run]
    have narrowed := SignedWide.toSigned_eq ⟨cancelled, coefficient.negative⟩
    by_cases fits : FitsInt64 (SignedWide.value ⟨cancelled, coefficient.negative⟩)
    · rw [if_pos fits] at narrowed
      simp only [narrowed, if_pos fits]
    · rw [if_neg fits] at narrowed
      simp only [narrowed, if_neg fits]

/-- The places of a decimal after the point. -/
def Decimal64.places (decimal : Decimal64) : Nat := decimal.scale.toInt.toNat

/-- A decimal whose scale the codec accepts. -/
def Decimal64.ScaleInRange (decimal : Decimal64) : Prop :=
  ¬(decimal.scale < 0 ∨ decimal.scale > 18)

instance (decimal : Decimal64) : Decidable decimal.ScaleInRange :=
  inferInstanceAs (Decidable (¬_))

theorem Decimal64.places_le {decimal : Decimal64} (inRange : decimal.ScaleInRange) :
    decimal.places ≤ 18 := by
  have bound : (18 : Int32).toInt = 18 := rfl
  rw [ScaleInRange, not_or, gt_iff_lt, @Int32.lt_iff_toInt_lt 18, bound] at inRange
  unfold places
  omega

/-- The decimal of a coefficient and a number of places. -/
theorem decimal_spec {coefficient : Int} {places : Nat} (fits : FitsInt64 coefficient)
    (bound : places ≤ 18) :
    let decimal : Decimal64 :=
      { coefficient := Int64.ofInt coefficient, scale := Int32.ofNat places }
    decimal.coefficient.toInt = coefficient ∧ decimal.places = places ∧ decimal.ScaleInRange := by
  intro decimal
  have scale : decimal.scale.toInt = places := Int32.toInt_ofNat_of_lt (by omega)
  have lower : (0 : Int32).toInt = 0 := rfl
  have upper : (18 : Int32).toInt = 18 := rfl
  refine ⟨Int64.toInt_ofInt_of_le fits.1 fits.2, by rw [Decimal64.places, scale]; simp, ?_⟩
  rw [Decimal64.ScaleInRange, not_or, gt_iff_lt, Int32.lt_iff_toInt_lt, Int32.lt_iff_toInt_lt,
    scale, lower, upper]
  omega

/-- The normal form of a decimal is a decimal. -/
theorem fitsInt64_normalForm (decimal : Decimal64) :
    FitsInt64 (Decimal.normalForm decimal.coefficient.toInt decimal.places).1 := by
  have bounds := fitsInt64_toInt decimal.coefficient
  obtain ⟨lower, upper⟩ := @Decimal.normalForm_bounds decimal.coefficient.toInt (-2 ^ 63)
    (2 ^ 63 - 1) decimal.places (by decide) (by decide) ⟨bounds.1, Int.le_sub_one_of_lt bounds.2⟩
  exact ⟨lower, Int.lt_of_le_sub_one upper⟩

/-- Two decimals are found equal exactly when their scales are in range and they have the
same value. -/
theorem decimalEqual_iff {left right : Decimal64} : decimalEqual left right = true ↔
    left.ScaleInRange ∧ right.ScaleInRange ∧ Decimal.SameValue left.coefficient.toInt left.places
      right.coefficient.toInt right.places := by
  have normalized : ∀ decimal : Decimal64, decimal.ScaleInRange →
      let form := Decimal.normalForm decimal.coefficient.toInt decimal.places
      normalize (.fromSigned decimal.coefficient) decimal.scale.toInt.toNat =
          .ok { coefficient := Int64.ofInt form.1, scale := Int32.ofNat form.2 } ∧
        (Int64.ofInt form.1).toInt = form.1 ∧ (Int32.ofNat form.2).toInt = form.2 := by
    intro decimal inRange form
    have fits : FitsInt64 form.1 := fitsInt64_normalForm decimal
    have places : form.2 ≤ 18 :=
      (Decimal.normalForm_le _ _).trans (Decimal64.places_le inRange)
    refine ⟨?_, Int64.toInt_ofInt_of_le fits.1 fits.2, Int32.toInt_ofNat_of_lt (by omega)⟩
    have run := normalize_eq (.fromSigned decimal.coefficient) decimal.places
    rw [SignedWide.value_fromSigned] at run
    exact run.trans (if_pos fits)
  unfold decimalEqual
  by_cases inRange : left.ScaleInRange ∧ right.ScaleInRange
  · obtain ⟨leftRun, leftCoefficient, leftScale⟩ := normalized left inRange.1
    obtain ⟨rightRun, rightCoefficient, rightScale⟩ := normalized right inRange.2
    have admitted : ¬(left.scale < 0 ∨ left.scale > 18 ∨ right.scale < 0 ∨ right.scale > 18) := by
      rintro (bad | bad | bad | bad)
      · exact inRange.1 (Or.inl bad)
      · exact inRange.1 (Or.inr bad)
      · exact inRange.2 (Or.inl bad)
      · exact inRange.2 (Or.inr bad)
    rw [if_neg admitted, leftRun, rightRun, ← Decimal.normalForm_eq_iff, Prod.ext_iff]
    simp only [Bool.and_eq_true, beq_iff_eq, ← Int64.toInt_inj, ← Int32.toInt_inj, leftCoefficient,
      rightCoefficient, leftScale, rightScale, Int.natCast_inj, inRange.1, inRange.2, true_and]
  · have rejected : left.scale < 0 ∨ left.scale > 18 ∨ right.scale < 0 ∨ right.scale > 18 := by
      by_contra admitted
      simp only [not_or] at admitted
      exact inRange ⟨not_or.mpr ⟨admitted.1, admitted.2.1⟩, not_or.mpr admitted.2.2⟩
    rw [if_pos rejected]
    simp only [Bool.false_eq_true, false_iff]
    exact fun found => inRange ⟨found.1, found.2.1⟩

/-! ### Both directions are exact -/

/-- The types a raw integer can have. -/
def IsRawType (type : ValueType) : Prop := type = .uint64 ∨ type = .int64

theorem SignedCoefficient256.natAbs_denotes (coefficient : SignedCoefficient256) :
    coefficient.denotes.natAbs = coefficient.magnitude := by
  unfold SignedCoefficient256.denotes
  split <;> simp

/-- The bits of a raw field stand for an integer in its range. -/
theorem rawInteger_range {rawBits width : Nat} {type : ValueType} (rawType : IsRawType type)
    (positive : 0 < width) (bounded : width ≤ 8) (small : rawBits < 2 ^ (8 * width)) :
    RawRange type width (rawInteger rawBits type width) ∧
      signedBits (rawInteger rawBits type width) width = rawBits := by
  have wide : (rawBits : Int) < 2 ^ (8 * width) := by exact_mod_cast small
  rcases rawType with rfl | rfl
  · refine ⟨⟨Int.natCast_nonneg _, wide⟩, ?_⟩
    have bits := @signedBits_eq rawBits width bounded
    rw [Int.emod_eq_of_lt (Int.natCast_nonneg _) wide] at bits
    exact_mod_cast bits
  · have interpreted := interpretSigned_eq positive bounded small
    obtain ⟨bits, fits⟩ := signedBits_of_interpretSigned positive bounded small interpreted
    rw [rawInteger, if_neg (by decide), interpreted]
    exact ⟨fits, bits⟩

/-- The bits of an integer in the range of a raw field stand for it. -/
theorem rawInteger_signedBits {value : Int} {width : Nat} {type : ValueType} (bounded : width ≤ 8)
    (range : RawRange type width value) :
    rawInteger (signedBits value width) type width = value := by
  match type, range with
  | .uint64, range =>
    rw [rawInteger, if_pos rfl, signedBits_eq bounded, Int.emod_eq_of_lt range.1 range.2]
  | .int64, range =>
    rw [rawInteger, if_neg (by decide), interpretSigned_signedBits range]
    rfl

theorem natAbs_lt_of_rawRange {value : Int} {width : Nat} {type : ValueType}
    (bounded : width ≤ 8) (range : RawRange type width value) : value.natAbs < 2 ^ 64 := by
  have widest : (2 : Int) ^ (8 * width) ≤ 2 ^ 64 := by exact_mod_cast pow_eight_le bounded
  match type, range with
  | .uint64, range =>
    obtain ⟨lower, upper⟩ := range
    omega
  | .int64, range =>
    obtain ⟨positive, -, lower, upper⟩ := fitsSignedWidth_iff.mp range
    have split := two_pow_split positive
    omega

/-- Decoding computes `(raw * A + B) / 10 ^ t` in normal form. -/
theorem decodeDecimal_eq {conversion : LinearConversionDescriptor} {rawBits width : Nat}
    (valid : conversion.Valid) (rawType : IsRawType conversion.rawValueType)
    (positive : 0 < width) (bounded : width ≤ 8) (small : rawBits < 2 ^ (8 * width)) :
    let raw := rawInteger rawBits conversion.rawValueType width
    let form := Decimal.normalForm
      (raw * conversion.scaleCoefficient.denotes + conversion.biasCoefficient.denotes)
      conversion.decimalPlaces
    decodeDecimal conversion rawBits width =
      if FitsInt64 form.1 then
        .ok { coefficient := Int64.ofInt form.1, scale := Int32.ofNat form.2 }
      else .error .logicalOutOfRange := by
  intro raw form
  obtain ⟨value, canonical⟩ := rawSigned_spec conversion.rawValueType positive bounded small
  obtain ⟨range, -⟩ := rawInteger_range rawType positive bounded small
  have fits := (fitsRaw_iff canonical positive bounded).mpr (value ▸ range)
  have rawSmall := natAbs_lt_of_rawRange bounded range
  have scaleLe := valid.scale_le
  have biasLe := valid.bias_le
  rw [← SignedCoefficient256.natAbs_denotes] at scaleLe biasLe
  have productLe := Nat.mul_le_mul (Nat.le_of_lt rawSmall) scaleLe
  obtain ⟨product, productRun, productValue⟩ :=
    @SignedWide.multiply_eq (rawSigned rawBits conversion.rawValueType width)
      (.fromDescriptor conversion.scaleCoefficient)
      (by rw [value, SignedWide.value_fromDescriptor]; omega)
  rw [value, SignedWide.value_fromDescriptor] at productValue
  obtain ⟨sum, sumRun, sumValue⟩ :=
    @SignedWide.add_eq product (.fromDescriptor conversion.biasCoefficient)
      (by rw [productValue, SignedWide.value_fromDescriptor, Int.natAbs_mul]; omega)
  rw [productValue, SignedWide.value_fromDescriptor] at sumValue
  have converted : convertRaw conversion (rawSigned rawBits conversion.rawValueType width) =
      some sum := by
    rw [convertRaw, productRun]
    exact sumRun
  unfold decodeDecimal
  simp only [fits, Bool.true_eq_false, if_false, converted, normalize_eq, sumValue]
  rfl

/-- The numerator of the raw integer of a decimal. -/
def rawNumerator (conversion : LinearConversionDescriptor) (logical : Decimal64) : Int :=
  let commonScale := max logical.places conversion.decimalPlaces
  logical.coefficient.toInt * 10 ^ (commonScale - logical.places) -
    conversion.biasCoefficient.denotes * 10 ^ (commonScale - conversion.decimalPlaces)

/-- The denominator of the raw integer of a decimal. -/
def rawDenominator (conversion : LinearConversionDescriptor) (logical : Decimal64) : Int :=
  let commonScale := max logical.places conversion.decimalPlaces
  conversion.scaleCoefficient.denotes * 10 ^ (commonScale - conversion.decimalPlaces)

/-- Nothing in the inversion of a conversion overflows. -/
theorem invertConversion_eq {conversion : LinearConversionDescriptor} {logical : Decimal64}
    (valid : conversion.Valid) (inRange : logical.ScaleInRange) :
    ∃ numerator denominator,
      invertConversion conversion logical logical.places = some (numerator, denominator) ∧
      numerator.value = rawNumerator conversion logical ∧
      denominator.value = rawDenominator conversion logical := by
  have placesLe := Decimal64.places_le inRange
  have conversionLe := valid.places_le
  have power : ∀ scale, (SignedWide.mk (.from64 (power10
      (max logical.places conversion.decimalPlaces - scale))) false).value =
        10 ^ (max logical.places conversion.decimalPlaces - scale) := by
    intro scale
    have small : max logical.places conversion.decimalPlaces - scale ≤ 18 := by omega
    have fits : 10 ^ (max logical.places conversion.decimalPlaces - scale) < 2 ^ 64 :=
      lt_of_le_of_lt (Nat.pow_le_pow_right (by decide) small) (by decide)
    rw [power10_eq small, SignedWide.value_eq, Wide.value_from64 fits]
    simp
  have powerLe : ∀ scale, ((10 : Int) ^ (max logical.places conversion.decimalPlaces -
      scale)).natAbs ≤ 10 ^ 18 := by
    intro scale
    rw [Int.natAbs_pow]
    exact Nat.pow_le_pow_right (by decide) (by omega)
  have scaleLe := valid.scale_le
  have biasLe := valid.bias_le
  have logicalLe := natAbs_toInt_le logical.coefficient
  rw [← SignedCoefficient256.natAbs_denotes] at scaleLe biasLe
  have logicalProduct := Nat.mul_le_mul logicalLe (powerLe logical.places)
  have biasProduct := Nat.mul_le_mul biasLe (powerLe conversion.decimalPlaces)
  have scaleProduct := Nat.mul_le_mul scaleLe (powerLe conversion.decimalPlaces)
  obtain ⟨logicalValue, logicalRun, logicalExact⟩ :=
    @SignedWide.multiply_eq (.fromSigned logical.coefficient) ⟨.from64 (power10
      (max logical.places conversion.decimalPlaces - logical.places)), false⟩
      (by rw [SignedWide.value_fromSigned, power]; omega)
  obtain ⟨bias, biasRun, biasExact⟩ :=
    @SignedWide.multiply_eq (.fromDescriptor conversion.biasCoefficient) ⟨.from64 (power10
      (max logical.places conversion.decimalPlaces - conversion.decimalPlaces)), false⟩
      (by rw [SignedWide.value_fromDescriptor, power]; omega)
  obtain ⟨denominator, denominatorRun, denominatorExact⟩ :=
    @SignedWide.multiply_eq (.fromDescriptor conversion.scaleCoefficient) ⟨.from64 (power10
      (max logical.places conversion.decimalPlaces - conversion.decimalPlaces)), false⟩
      (by rw [SignedWide.value_fromDescriptor, power]; omega)
  rw [SignedWide.value_fromSigned, power] at logicalExact
  rw [SignedWide.value_fromDescriptor, power] at biasExact denominatorExact
  obtain ⟨numerator, numeratorRun, numeratorExact⟩ := @SignedWide.add_eq logicalValue bias.negate
    (by
      rw [SignedWide.value_negate, logicalExact, biasExact, Int.natAbs_neg, Int.natAbs_mul,
        Int.natAbs_mul]
      omega)
  rw [SignedWide.value_negate, logicalExact, biasExact] at numeratorExact
  refine ⟨numerator, denominator, ?_, by rw [numeratorExact]; rfl, denominatorExact⟩
  unfold invertConversion
  simp only [Option.bind_eq_bind, logicalRun, biasRun, denominatorRun, numeratorRun,
    Option.bind_some]

theorem rawDenominator_ne_zero {conversion : LinearConversionDescriptor} (logical : Decimal64)
    (valid : conversion.Valid) : rawDenominator conversion logical ≠ 0 := by
  have scalePos := valid.scale_pos
  rw [← SignedCoefficient256.natAbs_denotes] at scalePos
  exact mul_ne_zero (by omega) (pow_ne_zero _ (by decide))

/-- Dividing magnitudes and comparing signs divides the numbers, when nothing remains. -/
theorem value_quotient {numerator denominator : SignedWide} {quotient : Wide}
    (value : quotient.value = numerator.magnitude.value / denominator.magnitude.value)
    (divides : denominator.value ∣ numerator.value) :
    SignedWide.value ⟨quotient, numerator.negative != denominator.negative⟩ =
      numerator.value / denominator.value := by
  obtain ⟨numerator, numeratorNegative⟩ := numerator
  obtain ⟨denominator, denominatorNegative⟩ := denominator
  have exact : (denominator.value : Int) ∣ numerator.value := by
    have magnitudes := Int.natAbs_dvd_natAbs.mpr divides
    rw [SignedWide.natAbs_value, SignedWide.natAbs_value] at magnitudes
    exact_mod_cast magnitudes
  simp only [SignedWide.value_eq, value]
  cases numeratorNegative <;> cases denominatorNegative <;>
    simp [Int.neg_ediv_of_dvd exact, Int.ediv_neg]

/-- The bits of a raw integer from its magnitude and its sign. -/
theorem signedBits_of_magnitude {raw : SignedWide} {width : Nat}
    (canonical : raw.IsCanonical) (small : raw.value.natAbs < 2 ^ 64) :
    (if width < 8 then
        (if raw.negative then (2 ^ 64 - raw.value.natAbs) % 2 ^ 64 else raw.value.natAbs) &&&
          (2 ^ (width * 8) - 1)
      else if raw.negative then (2 ^ 64 - raw.value.natAbs) % 2 ^ 64 else raw.value.natAbs) =
      signedBits raw.value width := by
  have pattern : (if raw.negative then (2 ^ 64 - raw.value.natAbs) % 2 ^ 64
      else raw.value.natAbs) = (raw.value % 2 ^ 64).toNat := by
    rw [canonical]
    split <;> rename_i sign <;> simp only [decide_eq_true_eq] at sign <;> omega
  rw [pattern, mul_comm width 8]
  rfl

/-- Encoding solves `(raw * A + B) / 10 ^ t = logical` for an integer in the range. -/
theorem encodeDecimal_eq {conversion : LinearConversionDescriptor} {logical : Decimal64}
    {width : Nat} (valid : conversion.Valid) (positive : 0 < width) (bounded : width ≤ 8) :
    let numerator := rawNumerator conversion logical
    let denominator := rawDenominator conversion logical
    encodeDecimal conversion logical width =
      if ¬logical.ScaleInRange then .error .decimalScaleOutOfRange
      else if ¬denominator ∣ numerator then .error .rawNotIntegral
      else if RawRange conversion.rawValueType width (numerator / denominator) then
        .ok (signedBits (numerator / denominator) width)
      else .error .rawOutOfRange := by
  intro wholeNumerator wholeDenominator
  unfold encodeDecimal
  by_cases inRange : logical.ScaleInRange
  swap
  · rw [if_pos inRange, if_pos (not_not.mp inRange)]
  obtain ⟨numerator, denominator, run, numeratorValue, denominatorValue⟩ :=
    invertConversion_eq valid inRange
  have nonzero : 0 < denominator.magnitude.value := by
    rw [← SignedWide.natAbs_value, denominatorValue]
    exact Int.natAbs_pos.mpr (rawDenominator_ne_zero logical valid)
  obtain ⟨quotient, remainder, divided, quotientValue, remainderValue⟩ :=
    numerator.magnitude.divide_eq nonzero
  have divides : remainder.isZero = true ↔ wholeDenominator ∣ wholeNumerator := by
    rw [Wide.isZero_iff, remainderValue, ← Nat.dvd_iff_mod_eq_zero, ← SignedWide.natAbs_value,
      ← SignedWide.natAbs_value, Int.natAbs_dvd_natAbs, numeratorValue, denominatorValue]
  rw [if_neg (not_not.mpr inRange), if_neg inRange]
  change (match invertConversion conversion logical logical.places with
    | none => _ | some (numerator, denominator) => _) = _
  simp only [run, divided]
  by_cases exact : wholeDenominator ∣ wholeNumerator
  swap
  · rw [if_pos exact, if_pos (Bool.eq_false_iff.mpr (mt divides.mp exact))]
  rw [if_neg (not_not.mpr exact), if_neg (by rw [divides.mpr exact]; decide)]
  have value : (SignedWide.canonical
      ⟨quotient, numerator.negative != denominator.negative⟩).value =
        wholeNumerator / wholeDenominator := by
    rw [SignedWide.value_canonical,
      value_quotient quotientValue (by rw [numeratorValue, denominatorValue]; exact exact),
      numeratorValue, denominatorValue]
  have canonical := SignedWide.isCanonical_canonical
    ⟨quotient, numerator.negative != denominator.negative⟩
  have fits := @fitsRaw_iff _ conversion.rawValueType width canonical positive bounded
  rw [value] at fits
  by_cases range : RawRange conversion.rawValueType width (wholeNumerator / wholeDenominator)
  · have small := natAbs_lt_of_rawRange bounded range
    rw [if_pos range, if_neg (by rw [fits.mpr range]; decide), Wide.to64_eq,
      ← SignedWide.natAbs_value, value, if_pos small]
    have bits := @signedBits_of_magnitude _ width canonical (value ▸ small)
    rw [value] at bits
    exact congrArg _ bits
  · rw [if_neg range, if_pos (Bool.eq_false_iff.mpr (mt fits.mp range))]

/-! ### The directions undo each other -/

/-- An encoded decimal decodes to a decimal of the same value. -/
theorem decodeDecimal_of_encodeDecimal {conversion : LinearConversionDescriptor}
    {logical : Decimal64} {rawBits width : Nat} (valid : conversion.Valid)
    (positive : 0 < width) (bounded : width ≤ 8) (rawType : IsRawType conversion.rawValueType)
    (encoded : encodeDecimal conversion logical width = .ok rawBits) :
    rawBits < 2 ^ (8 * width) ∧ ∃ decoded, decodeDecimal conversion rawBits width = .ok decoded ∧
      decimalEqual logical decoded = true := by
  rw [encodeDecimal_eq valid positive bounded] at encoded
  by_cases inRange : logical.ScaleInRange
  swap
  · rw [if_pos inRange] at encoded
    cases encoded
  rw [if_neg (not_not.mpr inRange)] at encoded
  by_cases divides : rawDenominator conversion logical ∣ rawNumerator conversion logical
  swap
  · rw [if_pos divides] at encoded
    cases encoded
  rw [if_neg (not_not.mpr divides)] at encoded
  split at encoded
  swap
  · cases encoded
  rename_i range
  obtain rfl := Except.ok.inj encoded
  have small := @signedBits_lt (rawNumerator conversion logical /
    rawDenominator conversion logical) width bounded
  refine ⟨small, ?_⟩
  have run := decodeDecimal_eq valid rawType positive bounded small
  rw [rawInteger_signedBits bounded range] at run
  obtain ⟨quotient, exact⟩ := divides
  rw [exact, Int.mul_ediv_cancel_left _ (rawDenominator_ne_zero logical valid)] at run
  rw [exact, Int.mul_ediv_cancel_left _ (rawDenominator_ne_zero logical valid)]
  -- Over the common power of ten both decimals have the same coefficient.
  have aligned : logical.coefficient.toInt *
        10 ^ (max logical.places conversion.decimalPlaces - logical.places) =
      (quotient * conversion.scaleCoefficient.denotes + conversion.biasCoefficient.denotes) *
        10 ^ (max logical.places conversion.decimalPlaces - conversion.decimalPlaces) := by
    unfold rawNumerator rawDenominator at exact
    linear_combination exact
  have form : Decimal.normalForm
      (quotient * conversion.scaleCoefficient.denotes + conversion.biasCoefficient.denotes)
      conversion.decimalPlaces =
        Decimal.normalForm logical.coefficient.toInt logical.places := by
    rw [← Decimal.normalForm_mul_pow logical.coefficient.toInt logical.places
        (max logical.places conversion.decimalPlaces - logical.places), aligned,
      Nat.add_sub_cancel' (le_max_left _ _),
      ← Nat.add_sub_cancel' (le_max_right logical.places conversion.decimalPlaces),
      Nat.add_sub_cancel' (le_max_right logical.places conversion.decimalPlaces),
      ← Decimal.normalForm_mul_pow _ conversion.decimalPlaces
        (max logical.places conversion.decimalPlaces - conversion.decimalPlaces),
      Nat.add_sub_cancel' (le_max_right _ _)]
  have fits := fitsInt64_normalForm logical
  have smaller := Decimal.normalForm_le logical.coefficient.toInt logical.places
  simp only [form] at run
  rw [if_pos fits] at run
  refine ⟨_, run, ?_⟩
  obtain ⟨coefficient, places, decodedInRange⟩ :=
    decimal_spec fits (smaller.trans (Decimal64.places_le inRange))
  rw [decimalEqual_iff, coefficient, places]
  exact ⟨inRange, decodedInRange, Decimal.sameValue_normalForm _ _⟩

/-- A decoded decimal encodes to the bits it was decoded from. -/
theorem encodeDecimal_of_decodeDecimal {conversion : LinearConversionDescriptor}
    {decoded : Decimal64} {rawBits width : Nat} (valid : conversion.Valid)
    (positive : 0 < width) (bounded : width ≤ 8) (rawType : IsRawType conversion.rawValueType)
    (small : rawBits < 2 ^ (8 * width))
    (decoding : decodeDecimal conversion rawBits width = .ok decoded) :
    encodeDecimal conversion decoded width = .ok rawBits := by
  rw [decodeDecimal_eq valid rawType positive bounded small] at decoding
  split at decoding
  swap
  · cases decoding
  rename_i fits
  obtain ⟨range, bits⟩ := rawInteger_range rawType positive bounded small
  obtain ⟨smaller, value⟩ := Decimal.normalForm_spec
    (rawInteger rawBits conversion.rawValueType width * conversion.scaleCoefficient.denotes +
      conversion.biasCoefficient.denotes) conversion.decimalPlaces
  obtain ⟨coefficient, places, inRange⟩ := decimal_spec fits (smaller.trans valid.places_le)
  rw [Except.ok.inj decoding] at coefficient places inRange
  have common : max decoded.places conversion.decimalPlaces = conversion.decimalPlaces :=
    max_eq_right (places ▸ smaller)
  have denominator : rawDenominator conversion decoded =
      conversion.scaleCoefficient.denotes := by
    simp only [rawDenominator, common, Nat.sub_self, pow_zero, mul_one]
  have numerator : rawNumerator conversion decoded =
      rawInteger rawBits conversion.rawValueType width *
        conversion.scaleCoefficient.denotes := by
    simp only [rawNumerator, common, Nat.sub_self, pow_zero, mul_one]
    rw [coefficient, places, value]
    ring
  have nonzero := rawDenominator_ne_zero decoded valid
  rw [denominator] at nonzero
  rw [encodeDecimal_eq valid positive bounded, if_neg (not_not.mpr inRange), denominator,
    numerator, if_neg (not_not.mpr (Dvd.intro_left _ rfl)), Int.mul_ediv_cancel _ nonzero,
    if_pos range, bits]

end ProtocolAdapter.Codec
