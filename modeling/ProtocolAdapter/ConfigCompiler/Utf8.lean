/-
This file models how the compiler validates UTF-8 and counts the characters of a text. The
validator accumulates the number of each character and compares it with the bounds of its
length. It accepts exactly the well formed texts, and reports an error inside the first sequence
that encodes no character.
-/

import ProtocolAdapter.Foundation.Utf8

namespace ProtocolAdapter.ConfigCompiler

open Foundation.ByteText Foundation.Utf8

/-! ### The validator -/

/-- Whether a byte continues a sequence, by its two high bits. -/
def isContinuationByte (byte : UInt8) : Bool := byte &&& 0xC0 == 0x80

/-- What a lead byte starts: the length of the sequence, the high bits of the number, and the
least number of that length. -/
structure LeadByte where
  sequenceLength : Nat
  codePoint : Nat
  minimum : Nat

/-- The sequence a lead byte of more than one byte starts, if it may start one. -/
def leadByte (first : UInt8) : Option LeadByte :=
  if first ≥ 0xC2 ∧ first ≤ 0xDF then some ⟨2, (first &&& 0x1F).toNat, 0x80⟩
  else if first ≥ 0xE0 ∧ first ≤ 0xEF then some ⟨3, (first &&& 0x0F).toNat, 0x800⟩
  else if first ≥ 0xF0 ∧ first ≤ 0xF4 then some ⟨4, (first &&& 0x07).toNat, 0x10000⟩
  else none

/-- Takes up continuation bytes into a number, or reports the position of a byte that is none. -/
def continueSequence : Nat → Nat → List UInt8 → Except Nat Nat
  | codePoint, _, [] => .ok codePoint
  | codePoint, position, continuation :: rest =>
    if isContinuationByte continuation = false then .error position
    else continueSequence (codePoint <<< 6 ||| (continuation &&& 0x3F).toNat) (position + 1) rest

/-- Validates the bytes from an index on, or reports the offset of an error. -/
def validateUtf8From (index : Nat) : List UInt8 → Except Nat Unit
  | [] => .ok ()
  | first :: rest =>
    if first ≤ 0x7F then validateUtf8From (index + 1) rest
    else
      match leadByte first with
      | none => .error index
      | some lead =>
        if lead.sequenceLength > rest.length + 1 then .error index
        else
          match continueSequence lead.codePoint (index + 1)
              (rest.take (lead.sequenceLength - 1)) with
          | .error position => .error position
          | .ok codePoint =>
            if codePoint < lead.minimum ∨ codePoint > 0x10FFFF ∨
                (codePoint ≥ 0xD800 ∧ codePoint ≤ 0xDFFF) then .error index
            else
              validateUtf8From (index + lead.sequenceLength)
                (rest.drop (lead.sequenceLength - 1))
termination_by bytes => bytes.length
decreasing_by
  · exact Nat.lt_succ_self _
  · rw [List.length_drop]
    exact Nat.lt_succ_of_le (Nat.sub_le _ _)

/-- Validates a text. -/
def validateUtf8 (input : List UInt8) : Except Nat Unit := validateUtf8From 0 input

/-- Counts the characters of a text. -/
def countUtf8ScalarValues (input : List UInt8) : Nat :=
  input.countP fun byte => !isContinuationByte byte

/-! ### Bits -/

theorem and_toNat (byte mask : UInt8) (width : Nat) (low : mask.toNat = 2 ^ width - 1) :
    (byte &&& mask).toNat = byte.toNat % 2 ^ width := by
  rw [UInt8.toNat_and, low, Nat.and_two_pow_sub_one_eq_mod]

@[simp] theorem isContinuationByte_iff {byte : UInt8} :
    isContinuationByte byte = true ↔ IsTail byte := by
  have table : ∀ number < 256, ((UInt8.ofNat number &&& 0xC0 == 0x80) = true ↔
      0x80 ≤ number ∧ number < 0xC0) := by decide +kernel
  have entry := table byte.toNat byte.toNat_lt
  rwa [UInt8.ofNat_toNat] at entry

/-- Taking up a byte shifts the number and adds the low bits of the byte. -/
theorem takeUp_eq (codePoint : Nat) (byte : UInt8) :
    codePoint <<< 6 ||| (byte &&& 0x3F).toNat = codePoint * 64 + byte.toNat % 64 := by
  rw [and_toNat byte 0x3F 6 rfl]
  exact (Nat.shiftLeft_add_eq_or_of_lt (Nat.mod_lt _ (by decide)) codePoint).symm.trans
    (by rw [Nat.shiftLeft_eq])

/-! ### One sequence -/

/-- A lead byte of two, three or four bytes, by its range. -/
theorem leadByte_cases {first : UInt8} {lead : LeadByte} (started : leadByte first = some lead) :
    (0xC2 ≤ first.toNat ∧ first.toNat ≤ 0xDF ∧ lead = ⟨2, first.toNat % 32, 0x80⟩) ∨
    (0xE0 ≤ first.toNat ∧ first.toNat ≤ 0xEF ∧ lead = ⟨3, first.toNat % 16, 0x800⟩) ∨
    (0xF0 ≤ first.toNat ∧ first.toNat ≤ 0xF4 ∧ lead = ⟨4, first.toNat % 8, 0x10000⟩) := by
  unfold leadByte at started
  rw [and_toNat first 0x1F 5 rfl, and_toNat first 0x0F 4 rfl, and_toNat first 0x07 3 rfl] at started
  split at started
  · rename_i range
    exact .inl ⟨range.1, range.2, (Option.some.inj started).symm⟩
  split at started
  · rename_i range
    exact .inr (.inl ⟨range.1, range.2, (Option.some.inj started).symm⟩)
  split at started
  · rename_i range
    exact .inr (.inr ⟨range.1, range.2, (Option.some.inj started).symm⟩)
  · cases started

theorem leadByte_none {first : UInt8} (wide : ¬first ≤ 0x7F) (refused : leadByte first = none) :
    announced first = 0 := by
  have large : 0x7F < first.toNat := Nat.lt_of_not_le wide
  unfold leadByte at refused
  split at refused
  · cases refused
  split at refused
  · cases refused
  split at refused
  · cases refused
  · rename_i two three four
    exact (if_neg (by omega)).trans ((if_neg two).trans ((if_neg three).trans (if_neg four)))

theorem leadByte_sequenceLength {first : UInt8} {lead : LeadByte}
    (started : leadByte first = some lead) :
    lead.sequenceLength = announced first ∧ 2 ≤ lead.sequenceLength := by
  rcases leadByte_cases started with ⟨low, high, rfl⟩ | ⟨low, high, rfl⟩ | ⟨low, high, rfl⟩
  · rw [announced, if_neg (by omega), if_pos ⟨low, high⟩]
    exact ⟨rfl, le_rfl⟩
  · rw [announced, if_neg (by omega), if_neg (by omega), if_pos ⟨low, high⟩]
    exact ⟨rfl, Nat.le_of_ble_eq_true rfl⟩
  · rw [announced, if_neg (by omega), if_neg (by omega), if_neg (by omega), if_pos ⟨low, high⟩]
    exact ⟨rfl, Nat.le_of_ble_eq_true rfl⟩

/-- Continuation bytes are taken up when all of them are such bytes. -/
theorem continueSequence_eq_ok : ∀ {tail : List UInt8} {codePoint position result : Nat},
    continueSequence codePoint position tail = .ok result ↔
      (∀ byte ∈ tail, IsTail byte) ∧
        result = tail.foldl (fun number byte => number * 64 + byte.toNat % 64) codePoint
  | [], codePoint, position, result => by
    simp [continueSequence, eq_comm]
  | byte :: rest, codePoint, position, result => by
    rw [continueSequence]
    split
    · rename_i other
      have apart : ¬IsTail byte := fun tail => by
        rw [isContinuationByte_iff.mpr tail] at other
        cases other
      simp [apart]
    · rename_i tail
      rw [takeUp_eq, continueSequence_eq_ok, List.foldl_cons, List.forall_mem_cons]
      have proper : IsTail byte := isContinuationByte_iff.mp (by simpa using tail)
      simp [proper]

/-- An error is reported at a byte that is taken up. -/
theorem continueSequence_eq_error : ∀ {tail : List UInt8} {codePoint position offset : Nat},
    continueSequence codePoint position tail = .error offset →
      position ≤ offset ∧ offset < position + tail.length
  | [], codePoint, position, offset => by
    simp [continueSequence]
  | byte :: rest, codePoint, position, offset => by
    rw [continueSequence]
    split
    · intro refused
      obtain rfl := Except.error.inj refused
      exact ⟨le_rfl, Nat.lt_add_of_pos_right (Nat.succ_pos _)⟩
    · intro refused
      obtain ⟨after, before⟩ := continueSequence_eq_error refused
      rw [List.length_cons]
      omega

/-- The validator lets a sequence pass exactly when the sequence encodes a character. -/
theorem accepted_iff {first : UInt8} {tail : List UInt8} {lead : LeadByte} (position : Nat)
    (started : leadByte first = some lead) (length : tail.length + 1 = lead.sequenceLength) :
    (∃ codePoint, continueSequence lead.codePoint position tail = .ok codePoint ∧
      ¬(codePoint < lead.minimum ∨ codePoint > 0x10FFFF ∨
        (codePoint ≥ 0xD800 ∧ codePoint ≤ 0xDFFF))) ↔ IsSequence (first :: tail) := by
  simp only [continueSequence_eq_ok, and_assoc, exists_and_left, exists_eq_left]
  rcases leadByte_cases started with ⟨low, high, rfl⟩ | ⟨low, high, rfl⟩ | ⟨low, high, rfl⟩
  · obtain ⟨second, rfl⟩ := List.length_eq_one_iff.mp (Nat.succ.inj length)
    simp only [List.forall_mem_singleton, List.foldl_cons, List.foldl_nil, IsSequence, IsTail]
    omega
  · obtain ⟨second, third, rfl⟩ := List.length_eq_two.mp (Nat.succ.inj length)
    simp only [List.forall_mem_cons, List.not_mem_nil, IsEmpty.forall_iff, implies_true,
      and_true, List.foldl_cons, List.foldl_nil, IsSequence, IsTail]
    omega
  · obtain ⟨second, third, fourth, rfl⟩ := List.length_eq_three.mp (Nat.succ.inj length)
    simp only [List.forall_mem_cons, List.not_mem_nil, IsEmpty.forall_iff, implies_true,
      and_true, List.foldl_cons, List.foldl_nil, IsSequence, IsTail]
    omega

/-! ### The whole text -/

theorem announced_ascii {first : UInt8} (small : first ≤ 0x7F) : announced first = 1 :=
  if_pos (Nat.lt_succ_of_le small)

/-- What the validator does with the first sequence of a text. -/
inductive FirstSequence (index : Nat) (first : UInt8) (rest : List UInt8) : Prop
  | accepted (proper : IsSequence ((first :: rest).take (announced first)))
      (shorter : ((first :: rest).drop (announced first)).length < (first :: rest).length)
      (goesOn : validateUtf8From index (first :: rest) =
        validateUtf8From (index + announced first) ((first :: rest).drop (announced first)))
  | refused (offset : Nat) (improper : ¬IsSequence ((first :: rest).take (announced first)))
      (reported : validateUtf8From index (first :: rest) = .error offset)
      (behind : index ≤ offset) (inside : offset < index + max 1 (announced first))
      (within : offset < index + (first :: rest).length)

theorem firstSequence (index : Nat) (first : UInt8) (rest : List UInt8) :
    FirstSequence index first rest := by
  have here : index < index + max 1 (announced first) :=
    Nat.lt_add_of_pos_right (lt_of_lt_of_le Nat.one_pos (le_max_left _ _))
  have begins : index < index + (first :: rest).length := Nat.lt_add_of_pos_right (Nat.succ_pos _)
  by_cases small : first ≤ 0x7F
  · have single := announced_ascii small
    refine .accepted ?_ ?_ ?_
    · rw [single]
      exact Nat.lt_succ_of_le small
    · rw [single]
      exact Nat.lt_succ_self _
    · rw [validateUtf8From, if_pos small, single]
      rfl
  cases started : leadByte first with
  | none =>
    have nothing := leadByte_none small started
    refine .refused index ?_ ?_ le_rfl here begins
    · rw [nothing]
      exact id
    · rw [validateUtf8From, if_neg small, started]
  | some lead =>
    obtain ⟨length, long⟩ := leadByte_sequenceLength started
    by_cases cut : lead.sequenceLength > rest.length + 1
    · refine .refused index ?_ ?_ le_rfl here begins
      · intro proper
        rw [← length, List.take_of_length_le (Nat.le_of_lt cut)] at proper
        have whole := proper.length
        omega
      · rw [validateUtf8From, if_neg small, started]
        exact if_pos cut
    · obtain ⟨more, split⟩ : ∃ more, lead.sequenceLength = more + 1 :=
        ⟨lead.sequenceLength - 1, by omega⟩
      have taken : (rest.take more).length + 1 = lead.sequenceLength := by
        rw [List.length_take, split]
        omega
      have accepts := accepted_iff (index + 1) started taken
      have announces : announced first = more + 1 := length.symm.trans split
      have equation : validateUtf8From index (first :: rest) =
          match continueSequence lead.codePoint (index + 1) (rest.take more) with
          | .error position => .error position
          | .ok codePoint =>
            if codePoint < lead.minimum ∨ codePoint > 0x10FFFF ∨
                (codePoint ≥ 0xD800 ∧ codePoint ≤ 0xDFFF) then .error index
            else validateUtf8From (index + lead.sequenceLength) (rest.drop more) := by
        rw [validateUtf8From, if_neg small, started]
        simp only [if_neg cut]
        rw [split, Nat.add_sub_cancel]
      cases continued : continueSequence lead.codePoint (index + 1) (rest.take more) with
      | error position =>
        obtain ⟨after, before⟩ := continueSequence_eq_error continued
        refine .refused position ?_ ?_ (by omega) (by omega) ?_
        · rw [announces, List.take_succ_cons]
          intro proper
          obtain ⟨codePoint, passed, -⟩ := accepts.mpr proper
          rw [continued] at passed
          cases passed
        · rw [equation, continued]
        · rw [List.length_take] at before
          rw [List.length_cons]
          omega
      | ok codePoint =>
        rw [continued] at equation
        simp only at equation
        by_cases bad : codePoint < lead.minimum ∨ codePoint > 0x10FFFF ∨
            (codePoint ≥ 0xD800 ∧ codePoint ≤ 0xDFFF)
        · rw [if_pos bad] at equation
          refine .refused index ?_ equation le_rfl here begins
          rw [announces, List.take_succ_cons]
          intro proper
          obtain ⟨_, passed, good⟩ := accepts.mpr proper
          rw [continued] at passed
          obtain rfl := Except.ok.inj passed
          exact good bad
        · rw [if_neg bad] at equation
          refine .accepted ?_ ?_ ?_
          · rw [announces, List.take_succ_cons]
            exact accepts.mp ⟨codePoint, continued, bad⟩
          · rw [announces, List.drop_succ_cons, List.length_drop, List.length_cons]
            omega
          · rw [equation, length, announces, List.drop_succ_cons]

/-- The validator accepts exactly the well formed texts. -/
theorem validateUtf8From_eq_ok : ∀ (bytes : List UInt8) (index : Nat),
    validateUtf8From index bytes = .ok () ↔ WellFormed bytes
  | [], index => by
    rw [validateUtf8From]
    exact ⟨fun _ => wellFormed_nil, fun _ => rfl⟩
  | first :: rest, index => by
    rw [wellFormed_cons]
    cases firstSequence index first rest with
    | accepted proper shorter goesOn =>
      rw [goesOn, validateUtf8From_eq_ok ((first :: rest).drop (announced first)) _]
      exact ⟨fun later => ⟨proper, later⟩, And.right⟩
    | refused offset improper reported =>
      rw [reported]
      exact ⟨nofun, fun formed => absurd formed.1 improper⟩
termination_by bytes => bytes.length
decreasing_by exact shorter

/-- An error is reported inside the first sequence that encodes no character. -/
theorem validateUtf8From_eq_error : ∀ (bytes : List UInt8) (index offset : Nat),
    validateUtf8From index bytes = .error offset →
      ∃ start lead, bytes[start]? = some lead ∧ WellFormed (bytes.take start) ∧
        ¬IsSequence ((bytes.drop start).take (announced lead)) ∧
          index + start ≤ offset ∧ offset < index + start + max 1 (announced lead) ∧
            offset < index + bytes.length
  | [], index, offset => by
    rw [validateUtf8From]
    exact nofun
  | first :: rest, index, offset => by
    intro failed
    cases firstSequence index first rest with
    | accepted proper shorter goesOn =>
      rw [goesOn] at failed
      obtain ⟨start, lead, found, formed, improper, behind, inside, within⟩ :=
        validateUtf8From_eq_error ((first :: rest).drop (announced first)) _ offset failed
      refine ⟨announced first + start, lead, ?_, ?_, ?_, ?_, ?_, ?_⟩
      · rwa [List.getElem?_drop] at found
      · obtain ⟨character, sequence⟩ := proper.encodes
        obtain ⟨others, same⟩ := formed
        refine ⟨character :: others, ?_⟩
        rw [encode_cons, sequence, ← same, List.take_add]
      · rwa [List.drop_drop] at improper
      · omega
      · omega
      · rw [List.length_drop] at within
        omega
    | refused position improper reported behind inside within =>
      obtain rfl := Except.error.inj (reported.symm.trans failed)
      exact ⟨0, first, rfl, wellFormed_nil, improper, behind, inside, within⟩
termination_by bytes => bytes.length
decreasing_by exact shorter

end ProtocolAdapter.ConfigCompiler
