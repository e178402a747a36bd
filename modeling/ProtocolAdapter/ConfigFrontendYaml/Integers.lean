/-
This file models which scalars the YAML front end takes for integers, and the accumulators of
all integer readers in words of 64 bits. The front end lets through the decimal digits of the
integers of 64 bits, unsigned or signed, and the compiler reads each of them back as the same
number. No accumulator leaves its range.
-/

import Mathlib.Data.List.TakeWhile
import ProtocolAdapter.ConfigCompiler.Integers
import ProtocolAdapter.ProtocolLab.ExactText
import ProtocolAdapter.ProtocolLab.HexText

namespace ProtocolAdapter.ConfigFrontendYaml

open Foundation Foundation.ByteText

open ConfigCompiler (IsDigits readExactUint64 readExactInt64 readExactUint64_eq_ok
  readExactInt64_eq_ok readDigits isDigit CompileDiagnostic isDigit_iff encodeChar_digit)

open ProtocolLab (readMagnitude parseCanonicalUint64Text parseCanonicalInt64Text
  parseCanonicalUpperHexText hexUpper parseCanonicalUint64Text_eq_some
  parseCanonicalInt64Text_eq_some parseCanonicalUpperHexText_eq_some signedDecimal_neg
  decimal_unsigned)

/-! ### The scalars taken for integers -/

/-- Whether a byte is a digit. -/
def digitAt (byte : UInt8) : Bool := decide (IsDigit byte)

/-- The unsigned number that the digits at the front of a text stand for, and the rest of the
text, as the standard library reads it. There is none without digits, or out of range. -/
def fromChars (maximum : Nat) (text : List UInt8) : Option (Nat × List UInt8) :=
  let digits := text.takeWhile digitAt
  if digits = [] ∨ valueOf digits > maximum then none
  else some (valueOf digits, text.dropWhile digitAt)

/-- The same for a signed number, which may start with a minus sign. -/
def fromCharsSigned (text : List UInt8) : Option (Int × List UInt8) :=
  match text with
  | 0x2d :: rest => (fromChars (2 ^ 63) rest).map fun (number, rest) => (-(number : Int), rest)
  | _ => (fromChars (2 ^ 63 - 1) text).map fun (number, rest) => ((number : Int), rest)

/-- Whether a scalar is taken for an integer. -/
def canonicalInteger (value : List UInt8) : Bool :=
  let start := value.head? = some 0x2d
  match if start then value.tail else value with
  | [] => false
  | first :: rest =>
    if first = 0x30 then ¬start ∧ value.length = 1
    else if first < 0x31 ∨ first > 0x39 then false
    else if rest.all digitAt = false then false
    else if start then (fromCharsSigned value).any fun parsed => parsed.2 = []
    else (fromChars maxUint64 value).any fun parsed => parsed.2 = []

/-! ### What is let through -/

/-- All of a text of digits is read, when the number is in range. -/
theorem fromChars_digits {maximum : Nat} {digits : List UInt8} (proper : IsDigits digits) :
    ((fromChars maximum digits).any fun parsed => parsed.2 = []) = true ↔
      valueOf digits ≤ maximum := by
  have all : ∀ byte ∈ digits, digitAt byte = true := fun byte member =>
    decide_eq_true (proper.2 byte member)
  rw [fromChars, List.takeWhile_eq_self_iff.mpr all, List.dropWhile_eq_nil_iff.mpr all]
  by_cases fits : valueOf digits > maximum
  · simp [fits]
  · simp [proper.1, fits, Nat.le_of_not_lt fits]

theorem isDigits_decimal (number : Nat) : IsDigits (decimal number) :=
  ⟨decimal_ne_nil number, decimal_digits number⟩

/-- A byte other than the digit zero starts digits when it passes the range check. -/
theorem isDigits_cons {first : UInt8} {rest : List UInt8} (nonzero : first ≠ 0x30) :
    (¬(first < 0x31 ∨ first > 0x39) ∧ ¬rest.all digitAt = false) ↔ IsDigits (first :: rest) := by
  have apart : first.toNat ≠ 0x30 := fun same => nonzero (UInt8.toNat_inj.mp same)
  have digit : ¬(first < 0x31 ∨ first > 0x39) ↔ IsDigit first := by
    change ¬(first.toNat < 0x31 ∨ 0x39 < first.toNat) ↔
      0x30 ≤ first.toNat ∧ first.toNat ≤ 0x39
    omega
  have others : ¬rest.all digitAt = false ↔ ∀ byte ∈ rest, IsDigit byte := by
    rw [Bool.not_eq_false, List.all_eq_true]
    exact forall₂_congr fun byte _ => decide_eq_true_iff
  rw [digit, others, IsDigits, List.forall_mem_cons]
  exact ⟨fun all => ⟨List.cons_ne_nil _ _, all⟩, And.right⟩

/-- A scalar without a sign is let through when it is zero, or digits in range without a leading
zero. -/
theorem canonicalInteger_unsigned {first : UInt8} {rest : List UInt8} (sign : first ≠ 0x2d) :
    canonicalInteger (first :: rest) = true ↔
      (first = 0x30 ∧ rest = []) ∨
        (first ≠ 0x30 ∧ IsDigits (first :: rest) ∧ valueOf (first :: rest) ≤ maxUint64) := by
  have unsigned : ¬(first :: rest).head? = some 0x2d := by simpa using sign
  rw [canonicalInteger]
  simp only [unsigned, if_false]
  by_cases zero : first = 0x30
  · simp [zero]
  · rw [if_neg zero]
    have proper := @isDigits_cons first rest zero
    by_cases range : first < 0x31 ∨ first > 0x39
    · have improper : ¬IsDigits (first :: rest) := fun digits => (proper.mpr digits).1 range
      simp [zero, range, improper]
    by_cases others : rest.all digitAt = false
    · have improper : ¬IsDigits (first :: rest) := fun digits => (proper.mpr digits).2 others
      simp only [range, others, if_false, if_true, zero, improper, false_and, and_false, or_self,
        Bool.false_eq_true]
    · have digits := proper.mp ⟨range, others⟩
      rw [if_neg range, if_neg others, fromChars_digits digits]
      simp [zero, digits]

/-- A scalar with a minus sign is let through when digits in range without a leading zero
follow. -/
theorem canonicalInteger_signed {digits : List UInt8} :
    canonicalInteger (0x2d :: digits) = true ↔
      digits.head? ≠ some 0x30 ∧ IsDigits digits ∧ valueOf digits ≤ 2 ^ 63 := by
  rw [canonicalInteger]
  simp only [List.head?_cons, if_true, List.tail_cons, not_true_eq_false, false_and, decide_false]
  cases digits with
  | nil => simp [IsDigits]
  | cons first rest =>
    have head : (first :: rest).head? ≠ some 0x30 ↔ first ≠ 0x30 := by simp
    rw [head]
    by_cases zero : first = 0x30
    · simp [zero]
    · dsimp only
      rw [if_neg zero]
      have proper := @isDigits_cons first rest zero
      by_cases range : first < 0x31 ∨ first > 0x39
      · have improper : ¬IsDigits (first :: rest) := fun digits => (proper.mpr digits).1 range
        simp [range, improper]
      by_cases others : rest.all digitAt = false
      · have improper : ¬IsDigits (first :: rest) := fun digits => (proper.mpr digits).2 others
        simp only [range, others, if_false, if_true, improper, false_and, and_false,
          Bool.false_eq_true]
      · have digits := proper.mp ⟨range, others⟩
        have read := @fromChars_digits (2 ^ 63) _ digits
        rw [if_neg range, if_neg others, fromCharsSigned, Option.any_map]
        refine (Iff.of_eq (congrArg (· = true) rfl)).trans (read.trans ?_)
        simp [zero, digits]

/-- Digits without a leading zero are those of their number. -/
theorem decimal_of_isDigits {digits : List UInt8} (proper : IsDigits digits)
    (leading : digits.head? ≠ some 0x30) :
    digits = decimal (valueOf digits) ∧ 0 < valueOf digits := by
  have same := decimal_valueOf proper.1 proper.2 (.inr leading)
  refine ⟨same.symm, Nat.pos_of_ne_zero fun zero => leading ?_⟩
  rw [← same, zero]
  rfl

/-- The decimal digits of a positive number have no leading zero. -/
theorem decimal_leading {number : Nat} (positive : 0 < number) :
    (decimal number).head? ≠ some 0x30 :=
  fun zero => absurd (decimal_head number zero) (Nat.ne_of_gt positive)

/-- The decimal digits of an unsigned number are let through. -/
theorem canonicalInteger_decimal {number : Nat} (small : number ≤ maxUint64) :
    canonicalInteger (decimal number) = true := by
  rcases Nat.eq_zero_or_pos number with rfl | positive
  · exact canonicalInteger_unsigned (by decide) |>.mpr (.inl ⟨rfl, rfl⟩)
  · have proper := isDigits_decimal number
    have leading := decimal_leading positive
    have value := valueOf_decimal number
    have sign := @decimal_unsigned number 0x2d (by decide)
    obtain ⟨first, rest, same⟩ := List.exists_cons_of_ne_nil proper.1
    rw [same] at proper leading value sign ⊢
    refine (canonicalInteger_unsigned (by simpa using sign)).mpr (.inr ⟨?_, proper, ?_⟩)
    · simpa using leading
    · rwa [value]

/-- The scalars let through are the decimal digits of the integers of 64 bits. -/
theorem canonicalInteger_iff {text : List UInt8} :
    canonicalInteger text = true ↔
      (∃ value : UInt64, text = decimal value.toNat) ∨
        ∃ value : Int64, text = signedDecimal value.toInt := by
  constructor
  · intro through
    cases text with
    | nil => cases through
    | cons first rest =>
      by_cases sign : first = 0x2d
      · subst sign
        obtain ⟨leading, proper, bounded⟩ := canonicalInteger_signed.mp through
        obtain ⟨same, positive⟩ := decimal_of_isDigits proper leading
        refine .inr ⟨Int64.ofInt (-(valueOf rest : Int)), ?_⟩
        rw [Int64.toInt_ofInt_of_le (by omega) (by omega), signedDecimal_neg positive, ← same]
      · rcases (canonicalInteger_unsigned sign).mp through with
          ⟨rfl, rfl⟩ | ⟨nonzero, proper, bounded⟩
        · exact .inl ⟨0, rfl⟩
        · obtain ⟨same, -⟩ := decimal_of_isDigits proper (by simpa using nonzero)
          refine .inl ⟨UInt64.ofNat (valueOf (first :: rest)), ?_⟩
          rwa [UInt64.toNat_ofNat_of_lt' (Nat.lt_succ_of_le bounded)]
  · rintro (⟨value, rfl⟩ | ⟨value, rfl⟩)
    · exact canonicalInteger_decimal (Nat.le_of_lt_succ value.toNat_lt)
    · have low := value.le_toInt
      have high := value.toInt_lt
      generalize value.toInt = integer at low high
      cases integer with
      | ofNat number =>
        have small : (number : Int) < 2 ^ 63 := high
        exact canonicalInteger_decimal (by unfold maxUint64; omega)
      | negSucc number =>
        refine canonicalInteger_signed.mpr ⟨decimal_leading (Nat.succ_pos number),
          isDigits_decimal _, ?_⟩
        rw [valueOf_decimal]
        omega

/-- A scalar that is let through is read back as the number it spells. -/
theorem read_back {token : String} (through : canonicalInteger (utf8 token) = true)
    (pointer : String) :
    ∃ number : Int, utf8 token = signedDecimal number ∧
      ((0 ≤ number ∧ readExactUint64 (.raw token) pointer = .ok number.toNat) ∨
        readExactInt64 (.raw token) pointer = .ok number) := by
  rcases canonicalInteger_iff.mp through with ⟨value, same⟩ | ⟨value, same⟩
  · refine ⟨(value.toNat : Int), same, .inl ⟨Int.natCast_nonneg _, ?_⟩⟩
    refine readExactUint64_eq_ok.mpr ⟨?_, ?_, Nat.le_of_lt_succ value.toNat_lt⟩
    · rw [same]
      exact isDigits_decimal _
    · rw [same, valueOf_decimal]
      rfl
  · have low := value.le_toInt
    have high := value.toInt_lt
    refine ⟨value.toInt, same, .inr (readExactInt64_eq_ok.mpr ?_)⟩
    generalize value.toInt = integer at low high same
    cases integer with
    | ofNat number =>
      refine .inl ⟨same ▸ isDigits_decimal number, ?_, high⟩
      rw [same]
      exact congrArg Int.ofNat (valueOf_decimal number).symm
    | negSucc number =>
      refine .inr ⟨decimal (number + 1), same, isDigits_decimal _, ?_, low⟩
      rw [valueOf_decimal]
      rfl

/-! ### Words -/

/-- Accumulates digits in a word of 64 bits, up to a limit. -/
def readWord (limit : UInt64) : List UInt8 → UInt64 → Option UInt64
  | [], value => some value
  | character :: rest, value =>
    let digit := (character - 0x30).toUInt64
    if value > (limit - digit) / 10 then none else readWord limit rest (value * 10 + digit)

/-- The signed word of a magnitude. -/
def signedWord (negative : Bool) (magnitude : UInt64) : Int64 :=
  if negative = false ∨ magnitude = 0 then magnitude.toInt64
  else if magnitude = 0x8000000000000000 then Int64.minValue
  else -magnitude.toInt64

/-- Accumulating a digit in a word does not wrap around. -/
theorem readWord_cons {limit start : UInt64} {byte : UInt8} (rest : List UInt8)
    (room : 9 ≤ limit.toNat) (digit : IsDigit byte) :
    ∃ next : UInt64,
      readWord limit (byte :: rest) start =
        (if start.toNat > (limit.toNat - (byte.toNat - 0x30)) / 10 then none
        else readWord limit rest next) ∧
      (¬start.toNat > (limit.toNat - (byte.toNat - 0x30)) / 10 →
        next.toNat = start.toNat * 10 + (byte.toNat - 0x30)) := by
  have low : 0x30 ≤ byte.toNat := digit.1
  have high : byte.toNat ≤ 0x39 := digit.2
  have value : (byte - 0x30).toUInt64.toNat = byte.toNat - 0x30 := by
    rw [UInt8.toNat_toUInt64, UInt8.toNat_sub_of_le _ _ digit.1]
    rfl
  have quotient : ((limit - (byte - 0x30).toUInt64) / 10).toNat =
      (limit.toNat - (byte.toNat - 0x30)) / 10 := by
    rw [UInt64.toNat_div, UInt64.toNat_sub_of_le _ _ (by
      rw [UInt64.le_iff_toNat_le, value]
      omega), value]
    rfl
  refine ⟨start * 10 + (byte - 0x30).toUInt64, ?_, fun fits => ?_⟩
  · rw [readWord, ← quotient]
    exact if_congr UInt64.lt_iff_toNat_lt rfl rfl
  · have bound := limit.toNat_lt
    have ten : (10 : UInt64).toNat = 10 := rfl
    rw [UInt64.toNat_add, UInt64.toNat_mul, value, ten]
    omega

/-- Accumulating in a word is accumulating a number. -/
theorem readWord_eq {limit : UInt64} (room : 9 ≤ limit.toNat) :
    ∀ {digits : List UInt8} {start : UInt64}, (∀ byte ∈ digits, IsDigit byte) →
      (readWord limit digits start).map UInt64.toNat =
        readMagnitude limit.toNat digits start.toNat
  | [], start, _ => rfl
  | byte :: rest, start, all => by
    obtain ⟨digit, others⟩ := List.forall_mem_cons.mp all
    obtain ⟨next, step, value⟩ := @readWord_cons limit start byte rest room digit
    rw [step, readMagnitude]
    simp only [Option.bind_eq_bind, failIf, not_true_eq_false, digit, if_false, Option.bind_some]
    split
    · rfl
    · rename_i fits
      rw [readWord_eq room others, value fits]
      rfl

theorem signedWord_toInt {negative : Bool} {magnitude : UInt64}
    (fits : magnitude.toNat ≤ if negative = true then 2 ^ 63 else 2 ^ 63 - 1) :
    (signedWord negative magnitude).toInt =
      if negative = true then -(magnitude.toNat : Int) else magnitude.toNat := by
  have positive : magnitude.toNat < 2 ^ 63 → magnitude.toInt64.toInt = magnitude.toNat := by
    intro small
    have word : magnitude.toInt64 = Int64.ofNat magnitude.toNat := by
      rw [← UInt64.toInt64_ofNat', UInt64.ofNat_toNat]
    rw [word, Int64.toInt_ofNat_of_lt small]
  unfold signedWord
  cases negative with
  | false =>
    simp only [Bool.false_eq_true, if_false, true_or, if_true] at fits ⊢
    exact positive (by omega)
  | true =>
    rw [if_pos rfl] at fits ⊢
    by_cases zero : magnitude = 0
    · rw [if_pos (.inr zero), zero]
      rfl
    rw [if_neg (by simpa using zero)]
    by_cases least : magnitude = 0x8000000000000000
    · rw [if_pos least, least]
      rfl
    · have apart : magnitude.toNat ≠ 2 ^ 63 := fun same => least (UInt64.toNat_inj.mp same)
      have value := positive (by omega)
      rw [if_neg least, Int64.toInt_neg, value]
      exact Int.bmod_eq_of_le (by omega) (by omega)

/-- The digit reader of the compiler accumulates as the words do. -/
theorem readDigits_word {limit : UInt64} (room : 9 ≤ limit.toNat) {error : CompileDiagnostic} :
    ∀ {characters : List Char} {start : UInt64}, characters.all isDigit = true →
      readDigits limit.toNat error characters start.toNat =
        match readWord limit (encode characters) start with
        | some word => .ok word.toNat
        | none => .error error
  | [], start, _ => rfl
  | character :: rest, start, digits => by
    rw [List.all_cons, Bool.and_eq_true] at digits
    obtain ⟨low, high⟩ := isDigit_iff.mp digits.1
    have digit := isDigit_digitByte (character.toNat - 0x30) (by omega)
    have number := toNat_digitByte (character.toNat - 0x30) (by omega)
    obtain ⟨next, step, value⟩ := @readWord_cons limit start _ (encode rest) room digit
    rw [number, Nat.add_sub_cancel_left] at step value
    rw [encode_cons, encodeChar_digit digits.1, List.singleton_append, step, readDigits]
    show (rejectIf (start.toNat > (limit.toNat - (character.toNat - 0x30)) / 10) error >>= _) = _
    by_cases beyond : start.toNat > (limit.toNat - (character.toNat - 0x30)) / 10
    · rw [if_pos beyond, rejectIf, if_pos beyond]
      rfl
    · rw [if_neg beyond, rejectIf, if_neg beyond, ← readDigits_word room digits.2, value beyond]
      rfl

/-- All integer readers are exact. The compiler reads the digit strings in the range of 64 bits,
the protocol lab and the front end accept what is written for integers of 64 bits, and for bytes,
and what the front end lets through is read back as the same number. No accumulator and no
negation leaves its range. -/
theorem integer_readers_exact :
    (∀ (token pointer : String) (value : Nat),
      readExactUint64 (.raw token) pointer = .ok value ↔
        IsDigits (utf8 token) ∧ value = valueOf (utf8 token) ∧ value ≤ maxUint64) ∧
    (∀ (token pointer : String) (value : Int),
      readExactInt64 (.raw token) pointer = .ok value ↔
        (IsDigits (utf8 token) ∧ value = valueOf (utf8 token) ∧ value < 2 ^ 63) ∨
          ∃ digits, utf8 token = 0x2d :: digits ∧ IsDigits digits ∧
            value = -(valueOf digits : Int) ∧ -2 ^ 63 ≤ value) ∧
    (∀ text value, parseCanonicalUint64Text text = some value ↔ text = decimal value.toNat) ∧
    (∀ text value, parseCanonicalInt64Text text = some value ↔
      text = signedDecimal value.toInt) ∧
    (∀ text bytes, parseCanonicalUpperHexText text = some bytes ↔
      bytes ≠ [] ∧ text = hexUpper bytes) ∧
    (∀ text, canonicalInteger text = true ↔
      (∃ value : UInt64, text = decimal value.toNat) ∨
        ∃ value : Int64, text = signedDecimal value.toInt) ∧
    (∀ token : String, canonicalInteger (utf8 token) = true → ∀ pointer,
      ∃ number : Int, utf8 token = signedDecimal number ∧
        ((0 ≤ number ∧ readExactUint64 (.raw token) pointer = .ok number.toNat) ∨
          readExactInt64 (.raw token) pointer = .ok number)) ∧
    (∀ limit : UInt64, 9 ≤ limit.toNat → ∀ start : UInt64,
      (∀ digits, (∀ byte ∈ digits, IsDigit byte) →
        (readWord limit digits start).map UInt64.toNat =
          readMagnitude limit.toNat digits start.toNat) ∧
      ∀ error characters, characters.all isDigit = true →
        readDigits limit.toNat error characters start.toNat =
          match readWord limit (encode characters) start with
          | some word => .ok word.toNat
          | none => .error error) ∧
    ∀ (negative : Bool) (magnitude : UInt64),
      (magnitude.toNat ≤ if negative = true then 2 ^ 63 else 2 ^ 63 - 1) →
        (signedWord negative magnitude).toInt =
          if negative = true then -(magnitude.toNat : Int) else magnitude.toNat :=
  ⟨fun _ _ _ => readExactUint64_eq_ok, fun _ _ _ => readExactInt64_eq_ok,
    fun _ _ => parseCanonicalUint64Text_eq_some, fun _ _ => parseCanonicalInt64Text_eq_some,
    fun _ _ => parseCanonicalUpperHexText_eq_some, fun _ => canonicalInteger_iff,
    fun _ through pointer => read_back through pointer,
    fun _ room _ => ⟨fun _ digits => readWord_eq room digits,
      fun _ _ digits => readDigits_word room digits⟩,
    fun _ _ fits => signedWord_toInt fits⟩

end ProtocolAdapter.ConfigFrontendYaml
