/-
This file proves that the conversion of a field is exact rational arithmetic. Decoding
computes `raw * a / b + c / d` as the decimal of fewest places, and encoding solves that
equation for the raw integer; both fail exactly when there is no such value.
-/

import ProtocolAdapter.Codec.Decimal
import ProtocolAdapter.Plan.Derivation

namespace ProtocolAdapter.Codec

open Foundation

/-! ### Values -/

/-- The integers a raw field of a type and a width represents. -/
def Represents (type : ValueType) (width : Nat) (value : Int) : Prop :=
  match type with
  | .uint64 => 0 ≤ value ∧ value < 2 ^ (8 * width)
  | .int64 => -2 ^ (8 * width - 1) ≤ value ∧ value < 2 ^ (8 * width - 1)
  | _ => False

/-- The number a decimal stands for. -/
def Decimal64.value (decimal : Decimal64) : ℚ :=
  (decimal.coefficient.toInt : ℚ) / 10 ^ decimal.places

/-- A raw integer whose converted value is a number. -/
def Solves (scale bias value : ℚ) (raw : Int) : Prop := (raw : ℚ) * scale + bias = value

theorem rawRange_iff {type : ValueType} {width : Nat} {value : Int} (positive : 0 < width)
    (bounded : width ≤ 8) : RawRange type width value ↔ Represents type width value := by
  unfold RawRange Represents
  cases type
  case int64 =>
    simp only [fitsSignedWidth_iff]
    constructor
    · rintro ⟨-, -, lower, upper⟩
      exact ⟨lower, upper⟩
    · rintro ⟨lower, upper⟩
      exact ⟨positive, bounded, lower, upper⟩
  all_goals exact Iff.rfl

section

variable {conversion : LinearConversionDescriptor} {rawValueType : ValueType}
  {scaleNumerator : Int64} {scaleDenominator : UInt64} {biasNumerator : Int64}
  {biasDenominator : UInt64}

/-- A derived conversion computes over its power of ten what its fractions say. -/
theorem converted_eq (derives : Derives rawValueType scaleNumerator scaleDenominator biasNumerator
      biasDenominator conversion) (raw : Int) :
    (raw : ℚ) * fraction scaleNumerator scaleDenominator + fraction biasNumerator biasDenominator =
      ((raw * conversion.scaleCoefficient.denotes + conversion.biasCoefficient.denotes : Int) : ℚ) /
        10 ^ conversion.decimalPlaces := by
  have nonzero := Decimal.ten_pow_ne_zero conversion.decimalPlaces
  rw [← derives.scale.value, ← derives.bias.value, SignedCoefficient256.over,
    SignedCoefficient256.over]
  push_cast
  field_simp

/-- Solving the conversion for a raw integer is an exact division. -/
theorem solves_iff (derives : Derives rawValueType scaleNumerator scaleDenominator biasNumerator
      biasDenominator conversion) (logical : Decimal64) (raw : Int) :
    Solves (fraction scaleNumerator scaleDenominator) (fraction biasNumerator biasDenominator)
        logical.value raw ↔
      raw * rawDenominator conversion logical = rawNumerator conversion logical := by
  have cancelled : logical.places = max logical.places conversion.decimalPlaces -
      conversion.decimalPlaces + min logical.places conversion.decimalPlaces ∧
      conversion.decimalPlaces = max logical.places conversion.decimalPlaces - logical.places +
        min logical.places conversion.decimalPlaces := by
    omega
  have common : (10 : Int) ^ min logical.places conversion.decimalPlaces ≠ 0 :=
    pow_ne_zero _ (by decide)
  -- Both sides compare over the common power of ten; what they share cancels.
  have same : Solves (fraction scaleNumerator scaleDenominator)
      (fraction biasNumerator biasDenominator) logical.value raw ↔
      (raw * conversion.scaleCoefficient.denotes + conversion.biasCoefficient.denotes) *
          10 ^ (max logical.places conversion.decimalPlaces - conversion.decimalPlaces) =
        logical.coefficient.toInt *
          10 ^ (max logical.places conversion.decimalPlaces - logical.places) := by
    rw [Solves, converted_eq derives, Decimal64.value,
      div_eq_div_iff (Decimal.ten_pow_ne_zero _) (Decimal.ten_pow_ne_zero _)]
    have leftPower : (10 : Int) ^ logical.places = 10 ^ (max logical.places
        conversion.decimalPlaces - conversion.decimalPlaces) *
          10 ^ min logical.places conversion.decimalPlaces := by
      rw [← pow_add, ← cancelled.1]
    have rightPower : (10 : Int) ^ conversion.decimalPlaces = 10 ^ (max logical.places
        conversion.decimalPlaces - logical.places) *
          10 ^ min logical.places conversion.decimalPlaces := by
      rw [← pow_add, ← cancelled.2]
    have integers : ((raw * conversion.scaleCoefficient.denotes +
        conversion.biasCoefficient.denotes : Int) : ℚ) * 10 ^ logical.places =
          (logical.coefficient.toInt : ℚ) * 10 ^ conversion.decimalPlaces ↔
        (raw * conversion.scaleCoefficient.denotes + conversion.biasCoefficient.denotes) *
            10 ^ logical.places =
          logical.coefficient.toInt * 10 ^ conversion.decimalPlaces := by
      norm_cast
    rw [integers, leftPower, rightPower, ← mul_assoc, ← mul_assoc]
    exact mul_left_inj' common
  rw [same, rawDenominator, rawNumerator]
  constructor
  · intro equal
    linear_combination equal
  · intro equal
    linear_combination equal

end

/-! ### Both directions -/

section

variable (conversion : LinearConversionDescriptor) (scale bias : ℚ) (type : ValueType)
  (width : Nat)

/-- Decoding gives the decimal of fewest places for the value of each raw integer, unless its
coefficient does not fit. -/
def DecodesExactly : Prop :=
  ∀ rawBits : Nat, rawBits < 2 ^ (8 * width) → ∃ raw, Represents type width raw ∧
    (rawBits : Int) = raw % 2 ^ (8 * width) ∧
    ∃ (coefficient : Int) (places : Nat),
      IsLeast {places | Decimal.HasPlaces (raw * scale + bias) places} places ∧ places ≤ 18 ∧
      (raw : ℚ) * scale + bias = coefficient / 10 ^ places ∧
      decodeDecimal conversion rawBits width =
        if FitsInt64 coefficient then
          .ok { coefficient := Int64.ofInt coefficient, scale := Int32.ofNat places }
        else .error .logicalOutOfRange

/-- Encoding gives the bits of the raw integer that solves the conversion, and names the reason
when there is none or it does not fit. -/
structure EncodesExactly (logical : Decimal64) : Prop where
  scaleOutOfRange : encodeDecimal conversion logical width = .error .decimalScaleOutOfRange ↔
    logical.scale < 0 ∨ 18 < logical.scale
  succeeds : logical.ScaleInRange → ∀ rawBits, encodeDecimal conversion logical width =
      .ok rawBits ↔ ∃ raw, Solves scale bias logical.value raw ∧ Represents type width raw ∧
        (rawBits : Int) = raw % 2 ^ (8 * width)
  notIntegral : logical.ScaleInRange → (encodeDecimal conversion logical width =
    .error .rawNotIntegral ↔ ¬∃ raw, Solves scale bias logical.value raw)
  outOfRange : logical.ScaleInRange → (encodeDecimal conversion logical width =
    .error .rawOutOfRange ↔ ∃ raw, Solves scale bias logical.value raw ∧
      ¬Represents type width raw)
  noOther : encodeDecimal conversion logical width ≠ .error .internalError ∧
    encodeDecimal conversion logical width ≠ .error .logicalOutOfRange

end

section

variable {conversion : LinearConversionDescriptor} {rawValueType : ValueType}
  {scaleNumerator : Int64} {scaleDenominator : UInt64} {biasNumerator : Int64}
  {biasDenominator : UInt64} {width : Nat}

theorem decodesExactly (valid : conversion.Valid)
    (derives : Derives rawValueType scaleNumerator scaleDenominator biasNumerator biasDenominator
      conversion) (rawType : IsRawType rawValueType) (positive : 0 < width) (bounded : width ≤ 8) :
    DecodesExactly conversion (fraction scaleNumerator scaleDenominator)
      (fraction biasNumerator biasDenominator) rawValueType width := by
  intro rawBits small
  rw [← derives.rawValueType] at rawType
  obtain ⟨range, bits⟩ := rawInteger_range rawType positive bounded small
  have run := decodeDecimal_eq valid rawType positive bounded small
  rw [derives.rawValueType] at range bits run
  refine ⟨rawInteger rawBits rawValueType width, (rawRange_iff positive bounded).mp range, ?_, _, _,
    ?_, ?_, ?_, run⟩
  · rw [← signedBits_eq bounded, bits]
  · rw [converted_eq derives]
    exact Decimal.isLeast_normalForm _ _
  · exact (Decimal.normalForm_le _ _).trans valid.places_le
  · rw [converted_eq derives]
    exact Decimal.normalForm_ratio _ _

theorem encodesExactly (valid : conversion.Valid)
    (derives : Derives rawValueType scaleNumerator scaleDenominator biasNumerator biasDenominator
      conversion) (positive : 0 < width) (bounded : width ≤ 8) (logical : Decimal64) :
    EncodesExactly conversion (fraction scaleNumerator scaleDenominator)
      (fraction biasNumerator biasDenominator) rawValueType width logical := by
  have run := @encodeDecimal_eq conversion logical width valid positive bounded
  simp only at run
  have nonzero := rawDenominator_ne_zero logical valid
  have solves := solves_iff derives logical
  have solvable : (∃ raw, Solves (fraction scaleNumerator scaleDenominator)
      (fraction biasNumerator biasDenominator) logical.value raw) ↔
        rawDenominator conversion logical ∣ rawNumerator conversion logical := by
    constructor
    · rintro ⟨raw, solved⟩
      exact Dvd.intro_left _ ((solves raw).mp solved)
    · rintro ⟨raw, product⟩
      exact ⟨raw, (solves raw).mpr (by rw [product, mul_comm])⟩
  have quotient : ∀ {raw}, Solves (fraction scaleNumerator scaleDenominator)
      (fraction biasNumerator biasDenominator) logical.value raw →
        rawNumerator conversion logical / rawDenominator conversion logical = raw := by
    intro raw solved
    rw [← (solves raw).mp solved, Int.mul_ediv_cancel _ nonzero]
  have fits : ∀ value, RawRange conversion.rawValueType width value ↔
      Represents rawValueType width value := by
    intro value
    rw [derives.rawValueType]
    exact rawRange_iff positive bounded
  by_cases inRange : logical.ScaleInRange
  swap
  · rw [if_pos inRange] at run
    exact ⟨⟨fun _ => not_not.mp inRange, fun _ => run⟩, fun holds => absurd holds inRange,
      fun holds => absurd holds inRange, fun holds => absurd holds inRange, by simp [run]⟩
  rw [if_neg (not_not.mpr inRange)] at run
  by_cases divides : rawDenominator conversion logical ∣ rawNumerator conversion logical
  swap
  · rw [if_pos divides] at run
    have none := mt solvable.mp divides
    refine ⟨⟨fun scaled => by simp [run] at scaled, fun outside => absurd outside inRange⟩,
      fun _ rawBits => ⟨fun encoded => by simp [run] at encoded, ?_⟩, fun _ => ⟨fun _ => none,
      fun _ => run⟩, fun _ => ⟨fun encoded => by simp [run] at encoded, ?_⟩, by simp [run]⟩
    · rintro ⟨raw, solved, -⟩
      exact absurd ⟨raw, solved⟩ none
    · rintro ⟨raw, solved, -⟩
      exact absurd ⟨raw, solved⟩ none
  rw [if_neg (not_not.mpr divides)] at run
  obtain ⟨raw, solved⟩ := solvable.mpr divides
  have only := quotient solved
  by_cases range : Represents rawValueType width
      (rawNumerator conversion logical / rawDenominator conversion logical)
  · rw [if_pos ((fits _).mpr range)] at run
    refine ⟨⟨fun scaled => by simp [run] at scaled, fun outside => absurd outside inRange⟩,
      fun _ rawBits => ⟨fun encoded => ?_, ?_⟩, fun _ => ⟨fun encoded => by simp [run] at encoded,
      fun none => absurd ⟨raw, solved⟩ none⟩,
      fun _ => ⟨fun encoded => by simp [run] at encoded, ?_⟩, by simp [run]⟩
    · obtain rfl := Except.ok.inj (run.symm.trans encoded)
      exact ⟨raw, solved, only ▸ range, by rw [signedBits_eq bounded, only]⟩
    · rintro ⟨other, otherSolved, -, bits⟩
      rw [run, quotient otherSolved]
      refine congrArg _ ?_
      have exact := @signedBits_eq other width bounded
      rw [← bits] at exact
      exact_mod_cast exact
    · rintro ⟨other, otherSolved, outside⟩
      exact absurd (quotient otherSolved ▸ range) outside
  · rw [if_neg (mt (fits _).mp range)] at run
    refine ⟨⟨fun scaled => by simp [run] at scaled, fun outside => absurd outside inRange⟩,
      fun _ rawBits => ⟨fun encoded => by simp [run] at encoded, ?_⟩,
      fun _ => ⟨fun encoded => by simp [run] at encoded, fun none => absurd ⟨raw, solved⟩ none⟩,
      fun _ => ⟨fun _ => ⟨raw, solved, only ▸ range⟩, fun _ => run⟩, by simp [run]⟩
    rintro ⟨other, otherSolved, inside, -⟩
    exact absurd (quotient otherSolved ▸ inside) range

end

/-- A derived conversion is exact in both directions, for every raw value and every decimal. -/
theorem derivedConversion_exact {conversion : LinearConversionDescriptor}
    {rawValueType : ValueType} {scaleNumerator : Int64} {scaleDenominator : UInt64}
    {biasNumerator : Int64} {biasDenominator : UInt64} {width : Nat}
    (derived : deriveLinearConversion rawValueType scaleNumerator scaleDenominator biasNumerator
      biasDenominator = .ok conversion)
    (rawType : IsRawType rawValueType) (positive : 0 < width) (bounded : width ≤ 8) :
    DecodesExactly conversion (fraction scaleNumerator scaleDenominator)
        (fraction biasNumerator biasDenominator) rawValueType width ∧
      ∀ logical, EncodesExactly conversion (fraction scaleNumerator scaleDenominator)
        (fraction biasNumerator biasDenominator) rawValueType width logical := by
  have valid := (valid_of_deriveLinearConversion derived).1
  have derives := derives_of_deriveLinearConversion derived
  exact ⟨decodesExactly valid derives rawType positive bounded,
    encodesExactly valid derives positive bounded⟩

theorem derivedConversion_exact_sample : ∃ conversion,
    deriveLinearConversion .int64 (-2) 4 3 8 = .ok conversion ∧
      DecodesExactly conversion (fraction (-2) 4) (fraction 3 8) .int64 2 ∧
      ∀ logical, EncodesExactly conversion (fraction (-2) 4) (fraction 3 8) .int64 2 logical := by
  have accepted : (deriveLinearConversion .int64 (-2) 4 3 8).isOk = true := by decide +kernel
  cases run : deriveLinearConversion .int64 (-2) 4 3 8 with
  | error failure =>
    rw [run] at accepted
    cases accepted
  | ok conversion =>
    exact ⟨conversion, rfl, derivedConversion_exact run (.inr rfl) (by decide) (by decide)⟩

end ProtocolAdapter.Codec
