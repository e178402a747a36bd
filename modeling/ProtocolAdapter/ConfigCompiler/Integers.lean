/-
This file proves that the compiler reads integer tokens exactly: it accepts the decimal digits,
after a minus sign where a signed integer is read, whose value lies in the range of 64 bits.
-/

import ProtocolAdapter.ConfigCompiler.Readers
import ProtocolAdapter.Foundation.ByteText

namespace ProtocolAdapter.ConfigCompiler

open Foundation Foundation.ByteText

/-! ### Digits as characters and as bytes -/

/-- A text of one digit or more. -/
def IsDigits (text : List UInt8) : Prop := text ≠ [] ∧ ∀ byte ∈ text, IsDigit byte

theorem isDigit_iff {character : Char} :
    isDigit character = true ↔ 0x30 ≤ character.toNat ∧ character.toNat ≤ 0x39 := by
  unfold isDigit
  rw [Bool.and_eq_true, decide_eq_true_iff, decide_eq_true_iff]
  exact Iff.rfl

/-- The byte of an ASCII character. -/
theorem encodeChar_small {character : Char} (small : character.toNat < 0x80) :
    String.utf8EncodeChar character = [UInt8.ofNat character.toNat] := by
  have ascii := encode_ascii character.toNat small
  rwa [Char.ofNat_toNat] at ascii

theorem encodeChar_digit {character : Char} (digit : isDigit character = true) :
    String.utf8EncodeChar character = [digitByte (character.toNat - 0x30)] := by
  obtain ⟨low, high⟩ := isDigit_iff.mp digit
  rw [encodeChar_small (by omega), digitByte, Nat.add_sub_cancel' low]

/-- A character is a digit exactly when all its bytes are. -/
theorem isDigit_encodeChar {character : Char} :
    isDigit character = true ↔ ∀ byte ∈ String.utf8EncodeChar character, IsDigit byte := by
  rw [isDigit_iff]
  by_cases small : character.toNat < 0x80
  · rw [encodeChar_small small, List.forall_mem_singleton, IsDigit, UInt8.le_iff_toNat_le,
      UInt8.le_iff_toNat_le, UInt8.toNat_ofNat', Nat.mod_eq_of_lt (by omega)]
    exact Iff.rfl
  · have wide := @wide_bytes character (Nat.le_of_not_lt small)
    refine ⟨fun digit => absurd digit.2 (by omega), fun digits => ?_⟩
    obtain ⟨byte, rest, same⟩ :=
      List.exists_cons_of_ne_nil (@String.utf8EncodeChar_ne_nil character)
    have member : byte ∈ String.utf8EncodeChar character := same ▸ List.mem_cons_self
    have large := wide byte member
    have low : byte.toNat ≤ 0x39 := (digits byte member).2
    omega

theorem all_isDigit_encode {characters : List Char} :
    characters.all isDigit = true ↔ ∀ byte ∈ encode characters, IsDigit byte := by
  induction characters with
  | nil => simp
  | cons character rest inductionHypothesis =>
    rw [List.all_cons, Bool.and_eq_true, encode_cons, List.forall_mem_append, isDigit_encodeChar,
      inductionHypothesis]

theorem encode_eq_nil {characters : List Char} : encode characters = [] ↔ characters = [] := by
  cases characters with
  | nil => simp
  | cons character rest =>
    simp [String.utf8EncodeChar_ne_nil]

/-- A text starts with an ASCII byte when its first character is that one. -/
theorem head?_encode {characters : List Char} {ascii : Char} (small : ascii.toNat < 0x80) :
    (encode characters).head? = some (UInt8.ofNat ascii.toNat) ↔
      characters.head? = some ascii := by
  cases characters with
  | nil => simp
  | cons character rest =>
    rw [encode_cons, head?_append_left String.utf8EncodeChar_ne_nil, List.head?_cons,
      Option.some_inj]
    constructor
    · intro head
      have member := List.mem_of_mem_head? head
      by_cases narrow : character.toNat < 0x80
      · rw [encodeChar_small narrow, List.head?_cons, Option.some_inj] at head
        have same := congrArg UInt8.toNat head
        rw [UInt8.toNat_ofNat', UInt8.toNat_ofNat', Nat.mod_eq_of_lt (by omega),
          Nat.mod_eq_of_lt (by omega)] at same
        exact Char.toNat_inj.mp same
      · have large := wide_bytes (Nat.le_of_not_lt narrow) _ member
        rw [UInt8.toNat_ofNat', Nat.mod_eq_of_lt (by omega)] at large
        omega
    · rintro rfl
      rw [encodeChar_small small, List.head?_cons]

/-! ### The readers -/

/-- The digit reader accepts digits whose value does not exceed the limit. -/
theorem readDigits_eq_ok {limit : Nat} (room : 9 ≤ limit) {error : CompileDiagnostic} :
    ∀ {characters : List Char} {start value : Nat}, characters.all isDigit = true →
      (readDigits limit error characters start = .ok value ↔
        (characters = [] ∨ value ≤ limit) ∧ value = valueFrom start (encode characters))
  | [], start, value, _ => by
    simp [readDigits, eq_comm]
  | character :: rest, start, value, digits => by
    rw [List.all_cons, Bool.and_eq_true] at digits
    obtain ⟨low, high⟩ := isDigit_iff.mp digits.1
    have digit : (digitByte (character.toNat - 0x30)).toNat - 0x30 = character.toNat - 0x30 := by
      rw [toNat_digitByte _ (by omega), Nat.add_sub_cancel_left]
    have least := le_valueFrom (encode rest) (start * 10 + (character.toNat - 0x30))
    rw [readDigits, show '0'.toNat = 0x30 from rfl]
    simp only [rejectIf_bind_eq_ok, readDigits_eq_ok room digits.2, encode_cons,
      encodeChar_digit digits.1, List.singleton_append, valueFrom_cons, digit, reduceCtorEq,
      false_or]
    constructor
    · rintro ⟨fits, bounded, same⟩
      refine ⟨?_, same⟩
      rcases bounded with rfl | bounded
      · rw [encode_nil, valueFrom_nil] at same
        omega
      · exact bounded
    · rintro ⟨bounded, same⟩
      refine ⟨?_, .inr bounded, same⟩
      omega

/-- A token is read as an unsigned integer when it consists of digits of at most the largest
value of 64 bits. -/
theorem readExactUint64_eq_ok {token pointer : String} {value : Nat} :
    readExactUint64 (.raw token) pointer = .ok value ↔
      IsDigits (utf8 token) ∧ value = valueOf (utf8 token) ∧ value ≤ maxUint64 := by
  simp only [readExactUint64, rejectIf_bind_eq_ok]
  simp only [JsonValue.isRaw, JsonValue.getRaw, Bool.not_true, Bool.false_eq_true,
    not_false_eq_true, true_and]
  rw [IsDigits, ne_eq, utf8, encode_eq_nil, ← all_isDigit_encode]
  constructor
  · rintro ⟨nonempty, -, digits, read⟩
    have digits : token.toList.all isDigit = true := by simpa using digits
    obtain ⟨bounded, same⟩ := (readDigits_eq_ok (by decide) digits).mp read
    exact ⟨⟨nonempty, digits⟩, same, bounded.resolve_left nonempty⟩
  · rintro ⟨⟨nonempty, digits⟩, same, bounded⟩
    refine ⟨nonempty, ?_, by simpa using digits, ?_⟩
    · intro minus
      have member := List.mem_of_mem_head? minus
      exact absurd (List.all_eq_true.mp digits _ member) (by decide)
    · exact (readDigits_eq_ok (by decide) digits).mpr ⟨.inr bounded, same⟩

/-- A magnitude that is read as digits up to a limit. -/
theorem readMagnitude_eq_ok {limit : Nat} (room : 9 ≤ limit) {error : CompileDiagnostic}
    {characters : List Char} {magnitude : Nat} (nonempty : characters ≠ [])
    (digits : characters.all isDigit = true) :
    readDigits limit error characters 0 = .ok magnitude ↔
      magnitude = valueOf (encode characters) ∧ magnitude ≤ limit := by
  rw [readDigits_eq_ok room digits, or_iff_right nonempty, and_comm]
  exact Iff.rfl

/-- A token is read as a signed integer when it consists of digits, after a minus sign or not,
and their value lies in the range of 64 bits. -/
theorem readExactInt64_eq_ok {token pointer : String} {value : Int} :
    readExactInt64 (.raw token) pointer = .ok value ↔
      (IsDigits (utf8 token) ∧ value = valueOf (utf8 token) ∧ value < 2 ^ 63) ∨
        ∃ digits, utf8 token = 0x2d :: digits ∧ IsDigits digits ∧
          value = -(valueOf digits : Int) ∧ -2 ^ 63 ≤ value := by
  simp only [readExactInt64, rejectIf_bind_eq_ok]
  by_cases minus : (JsonValue.raw token).getRaw.toList.head? = some '-'
  · simp only [if_pos minus]
    obtain ⟨rest, split⟩ := List.head?_eq_some_iff.mp minus
    simp only [JsonValue.getRaw] at split
    simp only [JsonValue.isRaw, JsonValue.getRaw, Bool.not_true, Bool.false_eq_true,
      not_false_eq_true, true_and, utf8, split, List.tail_cons, encode_cons]
    rw [encodeChar_small (by decide), List.singleton_append]
    have unsigned : ¬IsDigits (UInt8.ofNat '-'.toNat :: encode rest) := fun digits =>
      absurd (digits.2 _ List.mem_cons_self) (by decide)
    constructor
    · rintro ⟨-, shape, read⟩
      obtain ⟨nonempty, digits⟩ := not_or.mp shape
      have digits : rest.all isDigit = true := by simpa using digits
      obtain ⟨magnitude, found, same⟩ := bind_eq_ok.mp read
      obtain rfl := Except.ok.inj same
      obtain ⟨rfl, bounded⟩ := (readMagnitude_eq_ok (by decide) nonempty digits).mp found
      refine .inr ⟨encode rest, rfl, ⟨?_, all_isDigit_encode.mp digits⟩, rfl, by omega⟩
      rwa [ne_eq, encode_eq_nil]
    · rintro (⟨digits, -⟩ | ⟨digits, tail, ⟨nonempty, all⟩, rfl, bounded⟩)
      · exact absurd digits unsigned
      · obtain rfl := (List.cons.inj tail).2
        rw [ne_eq, encode_eq_nil] at nonempty
        have digits := all_isDigit_encode.mpr all
        refine ⟨List.cons_ne_nil _ _, not_or.mpr ⟨nonempty, by simpa using digits⟩, ?_⟩
        refine bind_eq_ok.mpr ⟨_, (readMagnitude_eq_ok (by decide) nonempty digits).mpr
          ⟨rfl, by omega⟩, rfl⟩
  · simp only [if_neg minus]
    simp only [JsonValue.isRaw, JsonValue.getRaw, Bool.not_true, Bool.false_eq_true,
      not_false_eq_true, true_and, utf8]
    have signless : ∀ digits, encode token.toList ≠ 0x2d :: digits := by
      intro digits same
      exact minus ((@head?_encode token.toList '-' (by decide)).mp (by rw [same]; rfl))
    constructor
    · rintro ⟨nonempty, shape, read⟩
      have digits : token.toList.all isDigit = true := by simpa using (not_or.mp shape).2
      obtain ⟨magnitude, found, same⟩ := bind_eq_ok.mp read
      obtain rfl := Except.ok.inj same
      obtain ⟨rfl, bounded⟩ := (readMagnitude_eq_ok (by decide) nonempty digits).mp found
      refine .inl ⟨⟨?_, all_isDigit_encode.mp digits⟩, rfl, by omega⟩
      rwa [ne_eq, encode_eq_nil]
    · rintro (⟨⟨nonempty, all⟩, rfl, bounded⟩ | ⟨digits, tail, -⟩)
      · rw [ne_eq, encode_eq_nil] at nonempty
        have digits := all_isDigit_encode.mpr all
        refine ⟨nonempty, not_or.mpr ⟨nonempty, by simpa using digits⟩, ?_⟩
        refine bind_eq_ok.mpr ⟨_, (readMagnitude_eq_ok (by decide) nonempty digits).mpr
          ⟨rfl, by omega⟩, rfl⟩
      · exact absurd tail (signless digits)

end ProtocolAdapter.ConfigCompiler
