/-
This file characterizes UTF-8 by the byte ranges of RFC 3629: which sequences encode a
character, how the lead byte announces the length of its sequence, and that a text is well
formed exactly when its first sequence encodes a character and the rest is well formed.
-/

import ProtocolAdapter.Foundation.ByteText

namespace Foundation.Utf8

open Foundation.ByteText

/-- The bytes are the encodings of some characters, one after the other. -/
def WellFormed (bytes : List UInt8) : Prop := ∃ characters : List Char, bytes = encode characters

theorem wellFormed_nil : WellFormed [] := ⟨[], rfl⟩

/-! ### One character -/

/-- Whether a byte continues a sequence. -/
def IsTail (byte : UInt8) : Prop := 0x80 ≤ byte.toNat ∧ byte.toNat < 0xC0

instance (byte : UInt8) : Decidable (IsTail byte) := inferInstanceAs (Decidable (_ ∧ _))

/-- Whether a sequence encodes a character, by the ranges of its bytes. The second byte of some
leads is restricted, which excludes overlong forms, surrogates and numbers above 10FFFF. -/
def IsSequence : List UInt8 → Prop
  | [first] => first.toNat < 0x80
  | [first, second] => 0xC2 ≤ first.toNat ∧ first.toNat ≤ 0xDF ∧ IsTail second
  | [first, second, third] =>
    0xE0 ≤ first.toNat ∧ first.toNat ≤ 0xEF ∧ IsTail second ∧ IsTail third ∧
      (first.toNat = 0xE0 → 0xA0 ≤ second.toNat) ∧ (first.toNat = 0xED → second.toNat < 0xA0)
  | [first, second, third, fourth] =>
    0xF0 ≤ first.toNat ∧ first.toNat ≤ 0xF4 ∧ IsTail second ∧ IsTail third ∧ IsTail fourth ∧
      (first.toNat = 0xF0 → 0x90 ≤ second.toNat) ∧ (first.toNat = 0xF4 → second.toNat < 0x90)
  | _ => False

theorem isSequence_encodeChar (character : Char) :
    IsSequence (String.utf8EncodeChar character) := by
  have valid : character.val.toNat.isValidChar := character.valid
  unfold Nat.isValidChar at valid
  unfold String.utf8EncodeChar
  dsimp only
  split
  · simp only [IsSequence, UInt8.toNat_ofNat']
    omega
  split
  · simp only [IsSequence, IsTail, UInt8.toNat_ofNat']
    omega
  split
  · simp only [IsSequence, IsTail, UInt8.toNat_ofNat']
    omega
  · simp only [IsSequence, IsTail, UInt8.toNat_ofNat']
    omega

/-- The character with a number that stands for one. -/
theorem toNat_ofNat {number : Nat} (valid : number.isValidChar) :
    (Char.ofNat number).val.toNat = number := by
  rw [Char.ofNat, dif_pos valid]
  rfl

theorem ofNat_eq {number : Nat} {byte : UInt8} (same : number = byte.toNat) :
    UInt8.ofNat number = byte := by
  rw [same, UInt8.ofNat_toNat]

/-- A sequence of the right ranges encodes a character. -/
theorem IsSequence.encodes {sequence : List UInt8} (proper : IsSequence sequence) :
    ∃ character : Char, String.utf8EncodeChar character = sequence := by
  match sequence, proper with
  | [first], small =>
    refine ⟨Char.ofNat first.toNat, ?_⟩
    simp only [IsSequence] at small
    unfold String.utf8EncodeChar
    rw [toNat_ofNat (by unfold Nat.isValidChar; omega)]
    dsimp only
    rw [if_pos (by omega), UInt8.ofNat_toNat]
  | [first, second], ranges =>
    simp only [IsSequence, IsTail] at ranges
    refine ⟨Char.ofNat (first.toNat % 32 * 64 + second.toNat % 64), ?_⟩
    unfold String.utf8EncodeChar
    rw [toNat_ofNat (by unfold Nat.isValidChar; omega)]
    dsimp only
    rw [if_neg (by omega), if_pos (by omega), @ofNat_eq _ first (by omega),
      @ofNat_eq _ second (by omega)]
  | [first, second, third], ranges =>
    simp only [IsSequence, IsTail] at ranges
    refine ⟨Char.ofNat (first.toNat % 16 * 4096 + second.toNat % 64 * 64 + third.toNat % 64), ?_⟩
    unfold String.utf8EncodeChar
    rw [toNat_ofNat (by unfold Nat.isValidChar; omega)]
    dsimp only
    rw [if_neg (by omega), if_neg (by omega), if_pos (by omega),
      @ofNat_eq _ first (by omega), @ofNat_eq _ second (by omega), @ofNat_eq _ third (by omega)]
  | [first, second, third, fourth], ranges =>
    simp only [IsSequence, IsTail] at ranges
    refine ⟨Char.ofNat (first.toNat % 8 * 262144 + second.toNat % 64 * 4096 +
      third.toNat % 64 * 64 + fourth.toNat % 64), ?_⟩
    unfold String.utf8EncodeChar
    rw [toNat_ofNat (by unfold Nat.isValidChar; omega)]
    dsimp only
    rw [if_neg (by omega), if_neg (by omega), if_neg (by omega), @ofNat_eq _ first (by omega),
      @ofNat_eq _ second (by omega), @ofNat_eq _ third (by omega), @ofNat_eq _ fourth (by omega)]

/-! ### The first sequence of a text -/

/-- The length of the sequence that a lead byte announces, or zero when no character begins
with the byte. -/
def announced (lead : UInt8) : Nat :=
  if lead.toNat < 0x80 then 1
  else if 0xC2 ≤ lead.toNat ∧ lead.toNat ≤ 0xDF then 2
  else if 0xE0 ≤ lead.toNat ∧ lead.toNat ≤ 0xEF then 3
  else if 0xF0 ≤ lead.toNat ∧ lead.toNat ≤ 0xF4 then 4
  else 0

/-- A sequence that encodes a character is as long as its lead byte announces. -/
theorem IsSequence.length {first : UInt8} {rest : List UInt8}
    (proper : IsSequence (first :: rest)) :
    rest.length + 1 = announced first := by
  match rest, proper with
  | [], small =>
    simp only [IsSequence] at small
    simp [announced, small]
  | [second], ranges =>
    simp only [IsSequence, IsTail] at ranges
    rw [announced, if_neg (by omega), if_pos (by omega)]
    rfl
  | [second, third], ranges =>
    simp only [IsSequence, IsTail] at ranges
    rw [announced, if_neg (by omega), if_neg (by omega), if_pos (by omega)]
    rfl
  | [second, third, fourth], ranges =>
    simp only [IsSequence, IsTail] at ranges
    rw [announced, if_neg (by omega), if_neg (by omega), if_neg (by omega), if_pos (by omega)]
    rfl

/-- A text is well formed when its first sequence encodes a character and the rest is well
formed; and only then. -/
theorem wellFormed_cons {first : UInt8} {rest : List UInt8} :
    WellFormed (first :: rest) ↔
      IsSequence ((first :: rest).take (announced first)) ∧
        WellFormed ((first :: rest).drop (announced first)) := by
  constructor
  · rintro ⟨characters, same⟩
    cases characters with
    | nil => cases same
    | cons character others =>
      rw [encode_cons] at same
      have proper := isSequence_encodeChar character
      cases sequence : String.utf8EncodeChar character with
      | nil => rw [sequence] at proper; cases proper
      | cons lead tail =>
        rw [sequence, List.cons_append] at same
        rw [sequence] at proper
        obtain ⟨rfl, rfl⟩ := List.cons.inj same
        have length := proper.length
        rw [← List.cons_append, List.take_left' (by simpa using length),
          List.drop_left' (by simpa using length)]
        exact ⟨proper, others, rfl⟩
  · rintro ⟨proper, others, same⟩
    obtain ⟨character, sequence⟩ := proper.encodes
    refine ⟨character :: others, ?_⟩
    rw [encode_cons, sequence, ← same, List.take_append_drop]

/-! ### Counting -/

/-- The number of bytes that continue no sequence. -/
def leads (bytes : List UInt8) : Nat := bytes.countP fun byte => !decide (IsTail byte)

/-- A sequence that encodes a character has one such byte, its lead. -/
theorem IsSequence.leads {sequence : List UInt8} (proper : IsSequence sequence) :
    leads sequence = 1 := by
  have apart : ∀ {byte : UInt8}, byte.toNat < 0x80 ∨ 0xC0 ≤ byte.toNat → ¬IsTail byte := by
    intro byte outside tail
    unfold IsTail at tail
    omega
  match sequence, proper with
  | [first], small => simp [Utf8.leads, apart (.inl small)]
  | [first, second], ⟨low, high, tail⟩ =>
    simp [Utf8.leads, apart (.inr (by omega : 0xC0 ≤ first.toNat)), tail]
  | [first, second, third], ⟨low, high, tail, last, _⟩ =>
    simp [Utf8.leads, apart (.inr (by omega : 0xC0 ≤ first.toNat)), tail, last]
  | [first, second, third, fourth], ⟨low, high, tail, next, last, _⟩ =>
    simp [Utf8.leads, apart (.inr (by omega : 0xC0 ≤ first.toNat)), tail, next, last]

/-- The bytes that continue no sequence count the characters. -/
theorem leads_encode (characters : List Char) : leads (encode characters) = characters.length := by
  induction characters with
  | nil => rfl
  | cons character rest inductionHypothesis =>
    have first := (isSequence_encodeChar character).leads
    unfold leads at first inductionHypothesis ⊢
    rw [encode_cons, List.countP_append, first, inductionHypothesis, List.length_cons,
      Nat.add_comm]

end Foundation.Utf8
