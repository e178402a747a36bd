/-
This file models bytes as text in uppercase hexadecimal: how they are written, and how they are
read back. The reader accepts exactly what is written for bytes that are not empty.
-/

import ProtocolAdapter.Foundation.Validation
import ProtocolAdapter.ProtocolLab.ResultDocument

namespace ProtocolAdapter.ProtocolLab

open Foundation

/-! ### Writing and reading -/

/-- Two digits for each byte. -/
def hexUpper (bytes : List UInt8) : List UInt8 :=
  bytes.flatMap fun (byte : UInt8) => [hexUpperDigit (byte >>> 4), hexUpperDigit (byte &&& 0x0f)]

/-- The value of a hexadecimal digit in uppercase. -/
def nibble (value : UInt8) : Option UInt8 :=
  if 0x30 ≤ value ∧ value ≤ 0x39 then some (value - 0x30)
  else if 0x41 ≤ value ∧ value ≤ 0x46 then some (value - 0x41 + 10)
  else none

/-- Reads digits in pairs. -/
def parseHexPairs : List UInt8 → Option (List UInt8)
  | [] => some []
  | [_] => none
  | first :: second :: rest => do
    let high ← nibble first
    let low ← nibble second
    let bytes ← parseHexPairs rest
    pure ((high <<< 4 ||| low) :: bytes)

def parseCanonicalUpperHexText (text : List UInt8) : Option (List UInt8) := do
  failIf (text = [] ∨ text.length % 2 ≠ 0)
  parseHexPairs text

/-! ### What is read back -/

/-- The digits are those of the values below sixteen. -/
theorem nibble_eq_some {value number : UInt8} :
    nibble value = some number ↔ number < 16 ∧ value = hexUpperDigit number := by
  unfold nibble hexUpperDigit
  grind

theorem toNat_joined {high low : UInt8} (highSmall : high < 16) (lowSmall : low < 16) :
    (high <<< 4 ||| low).toNat = 16 * high.toNat + low.toNat := by
  have small : low.toNat < 2 ^ 4 := lowSmall
  have bound : high.toNat < 16 := highSmall
  have shifted : (high <<< 4).toNat = 16 * high.toNat := by
    rw [UInt8.toNat_shiftLeft, Nat.shiftLeft_eq, Nat.mul_comm]
    exact Nat.mod_eq_of_lt (by simp; omega)
  rw [UInt8.toNat_or, shifted]
  exact (Nat.two_pow_add_eq_or_of_lt small _).symm

/-- A byte and its two halves. -/
theorem halves {high low : UInt8} (highSmall : high < 16) (lowSmall : low < 16) :
    (high <<< 4 ||| low) >>> 4 = high ∧ (high <<< 4 ||| low) &&& 0x0f = low := by
  have small : low.toNat < 16 := lowSmall
  constructor
  · rw [← UInt8.toNat_inj, toNat_high, toNat_joined highSmall lowSmall]
    omega
  · rw [← UInt8.toNat_inj, toNat_low, toNat_joined highSmall lowSmall]
    omega

theorem of_halves (byte : UInt8) :
    byte >>> 4 < 16 ∧ byte &&& 0x0f < 16 ∧ (byte >>> 4) <<< 4 ||| (byte &&& 0x0f) = byte := by
  refine ⟨high_lt byte, low_lt byte, ?_⟩
  rw [← UInt8.toNat_inj, toNat_joined (high_lt byte) (low_lt byte), toNat_high, toNat_low,
    Nat.div_add_mod]

theorem parseHexPairs_eq_some : ∀ {text bytes : List UInt8},
    parseHexPairs text = some bytes ↔ text = hexUpper bytes
  | [], bytes => by
    rw [parseHexPairs, Option.some_inj]
    constructor
    · rintro rfl
      rfl
    · intro same
      cases bytes with
      | nil => rfl
      | cons byte rest => cases same
  | [single], bytes => by
    refine ⟨nofun, fun same => ?_⟩
    cases bytes with
    | nil => cases same
    | cons byte rest => cases same
  | first :: second :: rest, bytes => by
    simp only [parseHexPairs, Option.bind_eq_bind, Option.bind_eq_some_iff, nibble_eq_some,
      parseHexPairs_eq_some, Option.pure_def, Option.some_inj]
    constructor
    · rintro ⟨high, ⟨highSmall, rfl⟩, low, ⟨lowSmall, rfl⟩, others, rfl, rfl⟩
      obtain ⟨upper, lower⟩ := halves highSmall lowSmall
      simp only [hexUpper, List.flatMap_cons, upper, lower, List.cons_append, List.nil_append]
    · intro same
      cases bytes with
      | nil => cases same
      | cons byte others =>
        obtain ⟨highSmall, lowSmall, whole⟩ := of_halves byte
        obtain ⟨rfl, rfl, rfl⟩ : first = hexUpperDigit (byte >>> 4) ∧
            second = hexUpperDigit (byte &&& 0x0f) ∧ rest = hexUpper others := by
          simpa [hexUpper] using same
        exact ⟨_, ⟨highSmall, rfl⟩, _, ⟨lowSmall, rfl⟩, others, rfl, by rw [whole]⟩

theorem length_hexUpper (bytes : List UInt8) : (hexUpper bytes).length = 2 * bytes.length := by
  induction bytes with
  | nil => rfl
  | cons byte rest inductionHypothesis =>
    rw [hexUpper, List.flatMap_cons, List.length_append]
    rw [hexUpper] at inductionHypothesis
    rw [inductionHypothesis, List.length_cons]
    exact Nat.add_comm 2 _

/-- The texts read as bytes are the hexadecimal digits of those bytes, when there are any. -/
theorem parseCanonicalUpperHexText_eq_some {text bytes : List UInt8} :
    parseCanonicalUpperHexText text = some bytes ↔ bytes ≠ [] ∧ text = hexUpper bytes := by
  simp only [parseCanonicalUpperHexText, Option.bind_eq_bind, Option.bind_eq_some_iff,
    failIf_eq_some, exists_const, not_or, not_not, parseHexPairs_eq_some]
  constructor
  · rintro ⟨⟨nonempty, -⟩, rfl⟩
    exact ⟨fun nothing => nonempty (by rw [nothing]; rfl), rfl⟩
  · rintro ⟨nonempty, rfl⟩
    refine ⟨⟨fun nothing => nonempty ?_, ?_⟩, rfl⟩
    · have length := length_hexUpper bytes
      rw [nothing] at length
      exact List.length_eq_zero_iff.mp (by simpa using length.symm)
    · rw [length_hexUpper, Nat.mul_mod_right]

end ProtocolAdapter.ProtocolLab
