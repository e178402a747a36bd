/-
This file models the exact value texts of the protocol lab: unsigned and signed integers of 64
bits in decimal, and bytes in uppercase hexadecimal. The integer readers accept exactly the
decimal digits of the integers they return.
-/

import ProtocolAdapter.Foundation.ByteText
import ProtocolAdapter.Foundation.Validation

namespace ProtocolAdapter.ProtocolLab

open Foundation Foundation.ByteText

/-! ### The readers -/

/-- Reads decimal digits up to a limit. -/
def readMagnitude (limit : Nat) : List UInt8 → Nat → Option Nat
  | [], value => some value
  | character :: rest, value => do
    failIf (¬IsDigit character)
    let digit := character.toNat - 0x30
    failIf (value > (limit - digit) / 10)
    readMagnitude limit rest (value * 10 + digit)

def parseCanonicalUint64Text (text : List UInt8) : Option UInt64 := do
  failIf (text = [] ∨ (text.length > 1 ∧ text.head? = some 0x30))
  let value ← readMagnitude (2 ^ 64 - 1) text 0
  pure (UInt64.ofNat value)

def parseCanonicalInt64Text (text : List UInt8) : Option Int64 := do
  failIf (text = [] ∨ text.head? = some 0x2b ∨ text = [0x2d, 0x30])
  let negative := text.head? = some 0x2d
  let digits := if negative then text.tail else text
  failIf (digits = [] ∨ (digits.length > 1 ∧ digits.head? = some 0x30))
  let limit := if negative then 2 ^ 63 else 2 ^ 63 - 1
  let magnitude ← readMagnitude limit digits 0
  pure (if negative then Int64.ofInt (-(magnitude : Int)) else Int64.ofInt magnitude)

/-! ### What they accept -/

/-- The magnitude reader accepts digits whose value does not exceed the limit. -/
theorem readMagnitude_eq_some {limit : Nat} (room : 9 ≤ limit) :
    ∀ (digits : List UInt8) (start value : Nat),
      readMagnitude limit digits start = some value ↔
        (∀ byte ∈ digits, IsDigit byte) ∧ (digits = [] ∨ value ≤ limit) ∧
          value = valueFrom start digits := by
  intro digits
  induction digits with
  | nil => simp [readMagnitude, eq_comm]
  | cons byte rest inductionHypothesis =>
    intro start value
    rw [readMagnitude]
    simp only [Option.bind_eq_bind, Option.bind_eq_some_iff, failIf_eq_some, exists_const,
      not_not, List.forall_mem_cons, valueFrom_cons, inductionHypothesis, List.cons_ne_nil,
      false_or, and_assoc]
    refine and_congr_right fun digit => ?_
    have least := le_valueFrom rest (start * 10 + (byte.toNat - 0x30))
    have small := (digitByte_of_isDigit digit).1
    constructor
    · rintro ⟨fits, digits, bounded, same⟩
      refine ⟨digits, ?_, same⟩
      rcases bounded with rfl | bounded
      · rw [valueFrom_nil] at same
        omega
      · exact bounded
    · rintro ⟨digits, bounded, same⟩
      refine ⟨?_, digits, .inr bounded, same⟩
      omega

/-- Reading a magnitude from the start, when the digits are not empty. -/
theorem readMagnitude_zero {limit : Nat} (room : 9 ≤ limit) {digits : List UInt8} {value : Nat}
    (nonempty : digits ≠ []) (canonical : digits.length = 1 ∨ digits.head? ≠ some 0x30) :
    readMagnitude limit digits 0 = some value ↔ value ≤ limit ∧ digits = decimal value := by
  rw [readMagnitude_eq_some room]
  constructor
  · rintro ⟨all, bounded, same⟩
    exact ⟨bounded.resolve_left nonempty,
      (same.symm ▸ decimal_valueOf nonempty all canonical : decimal value = digits).symm⟩
  · rintro ⟨bounded, rfl⟩
    exact ⟨decimal_digits value, .inr bounded, (valueOf_decimal value).symm⟩

theorem decimal_canonical (number : Nat) :
    (decimal number).length = 1 ∨ (decimal number).head? ≠ some 0x30 := by
  by_cases zero : number = 0
  · subst zero
    exact .inl rfl
  · exact .inr fun leading => zero (decimal_head number leading)

/-- The check of a leading zero. -/
theorem canonical_iff {digits : List UInt8} (nonempty : digits ≠ []) :
    ¬(digits.length > 1 ∧ digits.head? = some 0x30) ↔
      digits.length = 1 ∨ digits.head? ≠ some 0x30 := by
  have positive := List.length_pos_iff.mpr nonempty
  by_cases single : digits.length = 1
  · simp [single]
  · have longer : digits.length > 1 := by omega
    simp [single, longer]

/-- The texts read as unsigned integers are the decimal digits of those integers. -/
theorem parseCanonicalUint64Text_eq_some {text : List UInt8} {value : UInt64} :
    parseCanonicalUint64Text text = some value ↔ text = decimal value.toNat := by
  simp only [parseCanonicalUint64Text, Option.bind_eq_bind, Option.bind_eq_some_iff,
    failIf_eq_some, exists_const, not_or, Option.pure_def, Option.some_inj]
  constructor
  · rintro ⟨⟨nonempty, leading⟩, magnitude, read, rfl⟩
    obtain ⟨bounded, rfl⟩ := (readMagnitude_zero (by decide) nonempty
      ((canonical_iff nonempty).mp leading)).mp read
    rw [UInt64.toNat_ofNat_of_lt' (Nat.lt_of_le_pred (by decide) bounded)]
  · rintro rfl
    have nonempty := decimal_ne_nil value.toNat
    have canonical := decimal_canonical value.toNat
    refine ⟨⟨nonempty, (canonical_iff nonempty).mpr canonical⟩, value.toNat, ?_, ?_⟩
    · exact (readMagnitude_zero (by decide) nonempty canonical).mpr
        ⟨Nat.le_sub_one_of_lt value.toNat_lt, rfl⟩
    · exact UInt64.ofNat_toNat

/-! ### Signed texts -/

theorem signedDecimal_neg {number : Nat} (positive : 0 < number) :
    signedDecimal (-(number : Int)) = 0x2d :: decimal number := by
  obtain ⟨smaller, rfl⟩ := Nat.exists_eq_succ_of_ne_zero (Nat.ne_of_gt positive)
  rfl

/-- The digits of a number start with no sign. -/
theorem decimal_unsigned (number : Nat) {sign : UInt8} (apart : ¬IsDigit sign) :
    (decimal number).head? ≠ some sign := by
  intro same
  exact apart (decimal_digits number sign (List.mem_of_mem_head? same))

/-- The texts read as signed integers are the decimal digits of those integers. -/
theorem parseCanonicalInt64Text_eq_some {text : List UInt8} {value : Int64} :
    parseCanonicalInt64Text text = some value ↔ text = signedDecimal value.toInt := by
  simp only [parseCanonicalInt64Text, Option.bind_eq_bind, Option.bind_eq_some_iff,
    failIf_eq_some, exists_const, not_or, Option.pure_def, Option.some_inj]
  constructor
  · rintro ⟨⟨_, _, notMinusZero⟩, ⟨nonempty, leading⟩, magnitude, read, rfl⟩
    by_cases negative : text.head? = some 0x2d
    · simp only [if_pos negative] at nonempty leading read ⊢
      obtain ⟨bounded, digits⟩ := (readMagnitude_zero (by decide) nonempty
        ((canonical_iff nonempty).mp leading)).mp read
      obtain ⟨tail, rfl⟩ := List.head?_eq_some_iff.mp negative
      have positive : 0 < magnitude := by
        refine Nat.pos_of_ne_zero fun zero => notMinusZero ?_
        rw [List.tail_cons, zero] at digits
        rw [digits]
        rfl
      rw [Int64.toInt_ofInt_of_le (by omega) (by omega), signedDecimal_neg positive, ← digits]
      rfl
    · simp only [if_neg negative] at nonempty leading read ⊢
      obtain ⟨bounded, digits⟩ := (readMagnitude_zero (by decide) nonempty
        ((canonical_iff nonempty).mp leading)).mp read
      rw [Int64.toInt_ofInt_of_le (by omega) (by omega), digits]
      rfl
  · rintro rfl
    have low := value.le_toInt
    have high := value.toInt_lt
    generalize same : value.toInt = integer at low high
    have back : value = Int64.ofInt integer := by rw [← same, Int64.ofInt_toInt]
    cases integer with
    | ofNat number =>
      have unsigned := @decimal_unsigned number 0x2d (by decide)
      have nonempty := decimal_ne_nil number
      have canonical := decimal_canonical number
      rw [show signedDecimal (Int.ofNat number) = decimal number from rfl]
      simp only [if_neg unsigned]
      refine ⟨⟨nonempty, @decimal_unsigned number 0x2b (by decide), ?_⟩,
        ⟨nonempty, (canonical_iff nonempty).mpr canonical⟩, number, ?_, back.symm⟩
      · exact fun minusZero => unsigned (congrArg List.head? minusZero)
      · have bounded : (number : Int) < 2 ^ 63 := high
        exact (readMagnitude_zero (by decide) nonempty canonical).mpr ⟨by omega, rfl⟩
    | negSucc number =>
      have nonempty := decimal_ne_nil (number + 1)
      have canonical := decimal_canonical (number + 1)
      rw [show signedDecimal (Int.negSucc number) = 0x2d :: decimal (number + 1) from rfl]
      simp only [List.head?_cons, if_true, List.tail_cons]
      refine ⟨⟨List.cons_ne_nil _ _, by decide, ?_⟩,
        ⟨nonempty, (canonical_iff nonempty).mpr canonical⟩, number + 1, ?_, back.symm⟩
      · intro minusZero
        have zero := decimal_head (number + 1) (by rw [(List.cons.inj minusZero).2]; rfl)
        exact Nat.succ_ne_zero number zero
      · exact (readMagnitude_zero (by decide) nonempty canonical).mpr ⟨by omega, rfl⟩

end ProtocolAdapter.ProtocolLab
