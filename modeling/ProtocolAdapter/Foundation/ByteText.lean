/-
This file gives texts as bytes: the UTF-8 encoding of characters, and the decimal digits of a
number. The digits of a number determine it, and digits without a leading zero are the digits
of the number they are read as.
-/

import Mathlib.Algebra.Order.Ring.Nat
import Mathlib.Data.List.Basic
import Mathlib.Data.List.Induction

namespace Foundation.ByteText

/-! ### Properties of all characters -/

section

variable (property : Char → Prop) [DecidablePred property] (characters : List Char)

/-- A property of the characters of a list is decided along the list. -/
instance (priority := high) decidableAllCharacters :
    Decidable (∀ character ∈ characters, property character) :=
  List.decidableBAll property characters

instance (priority := high) decidableSomeCharacter :
    Decidable (∃ character ∈ characters, property character) :=
  List.decidableBEx property characters

end

instance (priority := high) decidableAllBytes (property : UInt8 → Prop) [DecidablePred property]
    (bytes : List UInt8) : Decidable (∀ byte ∈ bytes, property byte) :=
  List.decidableBAll property bytes

instance lawfulTexts : LawfulBEq (List UInt8) := inferInstance

/-! ### UTF-8 -/

/-- The UTF-8 encoding of characters. -/
def encode (characters : List Char) : List UInt8 := characters.flatMap String.utf8EncodeChar

/-- The bytes of a text. -/
def utf8 (text : String) : List UInt8 := encode text.toList

@[simp] theorem encode_nil : encode [] = [] := rfl

@[simp] theorem encode_cons (first : Char) (rest : List Char) :
    encode (first :: rest) = String.utf8EncodeChar first ++ encode rest := rfl

@[simp] theorem encode_append (first second : List Char) :
    encode (first ++ second) = encode first ++ encode second := List.flatMap_append

/-- The bytes of a character that is not ASCII are none of ASCII. -/
theorem wide_bytes {character : Char} (wide : 0x80 ≤ character.toNat) :
    ∀ byte ∈ String.utf8EncodeChar character, 0x80 ≤ byte.toNat := by
  have value : 0x80 ≤ character.val.toNat := wide
  intro byte member
  unfold String.utf8EncodeChar at member
  dsimp only at member
  rw [if_neg (by omega)] at member
  split at member
  · simp only [List.mem_cons, List.not_mem_nil, or_false] at member
    rcases member with rfl | rfl <;> (rw [UInt8.toNat_ofNat']; omega)
  split at member
  · simp only [List.mem_cons, List.not_mem_nil, or_false] at member
    rcases member with rfl | rfl | rfl <;> (rw [UInt8.toNat_ofNat']; omega)
  · simp only [List.mem_cons, List.not_mem_nil, or_false] at member
    rcases member with rfl | rfl | rfl | rfl <;> (rw [UInt8.toNat_ofNat']; omega)

/-- The byte of an ASCII character. -/
theorem encode_ascii : ∀ number, number < 0x80 →
    String.utf8EncodeChar (Char.ofNat number) = [UInt8.ofNat number] := by
  decide

/-- The characters of bytes that are UTF-8. -/
def decode (bytes : List UInt8) : Option (List Char) :=
  bytes.toByteArray.utf8Decode?.map Array.toList

theorem encode_toByteArray (characters : List Char) :
    (encode characters).toByteArray = characters.utf8Encode := rfl

/-- Decoding inverts the encoding, and accepts nothing else. -/
theorem decode_eq_some {bytes : List UInt8} {characters : List Char} :
    decode bytes = some characters ↔ bytes = encode characters := by
  rw [decode, Option.map_eq_some_iff]
  constructor
  · rintro ⟨decoded, found, rfl⟩
    have valid : bytes.toByteArray.utf8Decode?.isSome := by rw [found]; rfl
    have back := @ByteArray.utf8Encode_get_utf8Decode? bytes.toByteArray valid
    simp only [found, Option.get_some] at back
    rw [← encode_toByteArray] at back
    exact (List.toByteArray_inj.mp back).symm
  · rintro rfl
    exact ⟨_, (encode_toByteArray characters).symm ▸ List.utf8Decode?_utf8Encode, rfl⟩

/-- Replacing each byte by itself changes nothing. -/
theorem flatMap_eq_self {change : UInt8 → List UInt8} {bytes : List UInt8}
    (same : ∀ byte ∈ bytes, change byte = [byte]) : bytes.flatMap change = bytes :=
  (List.flatMap_congr same).trans (List.flatMap_singleton' bytes)

/-! ### Decimal digits -/

/-- The byte of a decimal digit. -/
def digitByte (digit : Nat) : UInt8 := UInt8.ofNat (0x30 + digit)

/-- Whether a byte is a decimal digit. -/
def IsDigit (byte : UInt8) : Prop := 0x30 ≤ byte ∧ byte ≤ 0x39

instance (byte : UInt8) : Decidable (IsDigit byte) := inferInstanceAs (Decidable (_ ∧ _))

/-- The decimal digits of a number. -/
def decimal (number : Nat) : List UInt8 := encode (Nat.toDigits 10 number)

/-- The decimal digits of an integer, after a minus sign when it is negative. -/
def signedDecimal : Int → List UInt8
  | .ofNat number => decimal number
  | .negSucc number => 0x2d :: decimal (number + 1)

/-- The number that digits stand for after a number that was read before them. -/
def valueFrom (start : Nat) (digits : List UInt8) : Nat :=
  digits.foldl (fun value byte => value * 10 + (byte.toNat - 0x30)) start

/-- The number that digits stand for. -/
def valueOf (digits : List UInt8) : Nat := valueFrom 0 digits

theorem encode_digitChar : ∀ digit, digit < 10 →
    String.utf8EncodeChar (Nat.digitChar digit) = [digitByte digit] := by
  decide

theorem toNat_digitByte : ∀ digit, digit < 10 → (digitByte digit).toNat = 0x30 + digit := by
  decide

theorem isDigit_digitByte : ∀ digit, digit < 10 → IsDigit (digitByte digit) := by
  decide

theorem decimal_small {number : Nat} (small : number < 10) :
    decimal number = [digitByte number] := by
  rw [decimal, Nat.toDigits_of_lt_base small, encode_cons, encode_digitChar number small]
  rfl

theorem decimal_large {number : Nat} (large : 10 ≤ number) :
    decimal number = decimal (number / 10) ++ [digitByte (number % 10)] := by
  rw [decimal, Nat.toDigits_of_base_le (by decide) large, encode_append, encode_cons,
    encode_digitChar _ (Nat.mod_lt _ (by decide))]
  rfl

/-- A property of all decimal digit strings, from the digits and from appending one. -/
theorem decimal_induction {motive : Nat → Prop} (small : ∀ number, number < 10 → motive number)
    (large : ∀ number, 10 ≤ number → motive (number / 10) → motive number) (number : Nat) :
    motive number := by
  induction number using Nat.strong_induction_on with
  | _ number inductionHypothesis =>
    rcases Nat.lt_or_ge number 10 with less | more
    · exact small number less
    · exact large number more (inductionHypothesis _ (Nat.div_lt_self (by omega) (by decide)))

theorem decimal_ne_nil (number : Nat) : decimal number ≠ [] := by
  rcases Nat.lt_or_ge number 10 with small | large
  · rw [decimal_small small]
    exact List.cons_ne_nil _ _
  · rw [decimal_large large]
    exact List.append_ne_nil_of_right_ne_nil _ (List.cons_ne_nil _ _)

theorem decimal_digits (number : Nat) : ∀ byte ∈ decimal number, IsDigit byte := by
  induction number using decimal_induction with
  | small number small =>
    rw [decimal_small small]
    exact List.forall_mem_singleton.mpr (isDigit_digitByte number small)
  | large number large inductionHypothesis =>
    rw [decimal_large large]
    refine List.forall_mem_append.mpr ⟨inductionHypothesis, ?_⟩
    exact List.forall_mem_singleton.mpr (isDigit_digitByte _ (Nat.mod_lt _ (by decide)))

@[simp] theorem valueFrom_nil (start : Nat) : valueFrom start [] = start := rfl

@[simp] theorem valueFrom_cons (start : Nat) (byte : UInt8) (rest : List UInt8) :
    valueFrom start (byte :: rest) = valueFrom (start * 10 + (byte.toNat - 0x30)) rest := by
  simp only [valueFrom, List.foldl_cons]

theorem le_valueFrom (digits : List UInt8) : ∀ start, start ≤ valueFrom start digits := by
  induction digits with
  | nil => exact fun start => Nat.le_refl start
  | cons byte rest inductionHypothesis =>
    intro start
    have step : start ≤ start * 10 + (byte.toNat - 0x30) := by omega
    exact le_trans step (inductionHypothesis _)

@[simp] theorem valueOf_snoc (digits : List UInt8) (byte : UInt8) :
    valueOf (digits ++ [byte]) = valueOf digits * 10 + (byte.toNat - 0x30) := by
  simp only [valueOf, valueFrom, List.foldl_append, List.foldl_cons, List.foldl_nil]

/-- Reading the digits of a number gives the number. -/
@[simp] theorem valueOf_decimal (number : Nat) : valueOf (decimal number) = number := by
  induction number using decimal_induction with
  | small number small =>
    rw [decimal_small small, ← List.nil_append [digitByte number], valueOf_snoc,
      toNat_digitByte number small, Nat.add_sub_cancel_left]
    exact Nat.zero_add number
  | large number large inductionHypothesis =>
    rw [decimal_large large, valueOf_snoc, inductionHypothesis,
      toNat_digitByte _ (Nat.mod_lt _ (by decide)), Nat.add_sub_cancel_left]
    exact Nat.div_add_mod' number 10

theorem decimal_injective : Function.Injective decimal := fun first second same => by
  rw [← valueOf_decimal first, same, valueOf_decimal]

theorem signedDecimal_injective : Function.Injective signedDecimal := by
  intro first second same
  cases first with
  | ofNat number =>
    cases second with
    | ofNat other => rw [decimal_injective same]
    | negSucc other =>
      have minus : (0x2d : UInt8) ∈ decimal number :=
        (show decimal number = _ from same) ▸ List.mem_cons_self
      exact absurd (decimal_digits number _ minus) (by decide)
  | negSucc number =>
    cases second with
    | ofNat other =>
      have minus : (0x2d : UInt8) ∈ decimal other :=
        (show _ = decimal other from same) ▸ List.mem_cons_self
      exact absurd (decimal_digits other _ minus) (by decide)
    | negSucc other =>
      rw [Nat.succ_inj.mp (decimal_injective (List.cons.inj same).2)]

theorem head?_append_left {front : List UInt8} (nonempty : front ≠ []) (rest : List UInt8) :
    (front ++ rest).head? = front.head? := by
  obtain ⟨first, others, rfl⟩ := List.exists_cons_of_ne_nil nonempty
  rfl

/-- Only zero starts with the digit zero. -/
theorem decimal_head (number : Nat) (leading : (decimal number).head? = some 0x30) :
    number = 0 := by
  induction number using decimal_induction with
  | small number small =>
    rw [decimal_small small, List.head?_cons, Option.some_inj] at leading
    have value := congrArg UInt8.toNat leading
    rw [toNat_digitByte number small] at value
    exact Nat.add_eq_left.mp value
  | large number large inductionHypothesis =>
    rw [decimal_large large, head?_append_left (decimal_ne_nil _)] at leading
    have zero := inductionHypothesis leading
    omega

theorem digitByte_of_isDigit {byte : UInt8} (digit : IsDigit byte) :
    byte.toNat - 0x30 < 10 ∧ digitByte (byte.toNat - 0x30) = byte := by
  obtain ⟨low, high⟩ := digit
  have above : 0x30 ≤ byte.toNat := UInt8.le_iff_toNat_le.mp low
  have below : byte.toNat ≤ 0x39 := UInt8.le_iff_toNat_le.mp high
  refine ⟨by omega, UInt8.toNat_inj.mp ?_⟩
  rw [toNat_digitByte _ (by omega)]
  omega

/-- Digits without a leading zero are the digits of the number they stand for. -/
theorem decimal_valueOf {digits : List UInt8} (nonempty : digits ≠ [])
    (all : ∀ byte ∈ digits, IsDigit byte) (leading : digits.length = 1 ∨ digits.head? ≠ some 0x30) :
    decimal (valueOf digits) = digits := by
  induction digits using List.reverseRecOn with
  | nil => exact absurd rfl nonempty
  | append_singleton front last inductionHypothesis =>
    obtain ⟨digit, same⟩ := digitByte_of_isDigit (all last (List.mem_append_right _
      (List.mem_singleton_self _)))
    rcases List.eq_nil_or_concat front with rfl | ⟨_, _, rfl⟩
    · rw [valueOf_snoc, valueOf, valueFrom_nil, Nat.zero_mul, Nat.zero_add, decimal_small digit,
        same]
      rfl
    · rename_i shorter before
      rw [List.concat_eq_append] at inductionHypothesis leading all ⊢
      have notEmpty : shorter ++ [before] ≠ [] :=
        List.append_ne_nil_of_right_ne_nil _ (List.cons_ne_nil _ _)
      have head : (shorter ++ [before]).head? ≠ some 0x30 := by
        rcases leading with single | nonzero
        · simp at single
        · rwa [head?_append_left notEmpty] at nonzero
      have smaller := inductionHypothesis notEmpty
        (fun byte member => all byte (List.mem_append_left _ member)) (.inr head)
      have positive : valueOf (shorter ++ [before]) ≠ 0 := fun zero => by
        rw [zero] at smaller
        exact head (smaller ▸ rfl)
      rw [valueOf_snoc, decimal_large (by omega), Nat.mul_add_mod_of_lt digit, same, Nat.mul_comm,
        Nat.mul_add_div (by decide), Nat.div_eq_of_lt digit, Nat.add_zero, smaller]

end Foundation.ByteText
