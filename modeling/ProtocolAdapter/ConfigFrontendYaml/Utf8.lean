/-
This file models how the YAML front end checks UTF-8: by the ranges of the first two bytes of a
sequence. It agrees with the validator of the compiler, and both accept exactly the well formed
texts.
-/

import ProtocolAdapter.ConfigCompiler.Utf8

namespace ProtocolAdapter.ConfigFrontendYaml

open Foundation.ByteText Foundation.Utf8

open ConfigCompiler (validateUtf8 countUtf8ScalarValues isContinuationByte validateUtf8From_eq_ok
  validateUtf8From_eq_error isContinuationByte_iff)

/-! ### The check -/

/-- The length of the sequence that a lead byte of more than one byte starts; zero when it starts
none. -/
def sequenceCount (first : UInt8) : Nat :=
  if first ≥ 0xC2 ∧ first ≤ 0xDF then 2
  else if first ≥ 0xE0 ∧ first ≤ 0xEF then 3
  else if first ≥ 0xF0 ∧ first ≤ 0xF4 then 4
  else 0

/-- Whether the second byte of a sequence is outside the range its lead byte leaves. -/
def secondOutside (count : Nat) (first second : UInt8) : Bool :=
  (count = 3 ∧ ((first = 0xE0 ∧ second < 0xA0) ∨ (first = 0xED ∧ second ≥ 0xA0))) ∨
    (count = 4 ∧ ((first = 0xF0 ∧ second < 0x90) ∨ (first = 0xF4 ∧ second ≥ 0x90)))

/-- Whether a text is UTF-8. -/
def isUtf8 : List UInt8 → Bool
  | [] => true
  | first :: rest =>
    if first < 0x80 then isUtf8 rest
    else
      let count := sequenceCount first
      if count = 0 ∨ count > rest.length + 1 then false
      else if (rest.take (count - 1)).any fun byte => byte &&& 0xC0 != 0x80 then false
      else if secondOutside count first (rest.headD 0) then false
      else isUtf8 (rest.drop (count - 1))
termination_by bytes => bytes.length

/-! ### One sequence -/

theorem sequenceCount_eq {first : UInt8} (wide : ¬first < 0x80) :
    sequenceCount first = announced first := by
  unfold sequenceCount announced
  exact (if_neg wide).symm

theorem continuation_eq (byte : UInt8) :
    (byte &&& 0xC0 != 0x80) = !decide (IsTail byte) := by
  have tail := @isContinuationByte_iff byte
  unfold isContinuationByte at tail
  rw [bne, Bool.eq_iff_iff]
  simp [← tail]

theorem secondOutside_eq_false {count : Nat} {first second : UInt8} :
    secondOutside count first second = false ↔
      (count = 3 → (first.toNat = 0xE0 → 0xA0 ≤ second.toNat) ∧
        (first.toNat = 0xED → second.toNat < 0xA0)) ∧
      (count = 4 → (first.toNat = 0xF0 → 0x90 ≤ second.toNat) ∧
        (first.toNat = 0xF4 → second.toNat < 0x90)) := by
  unfold secondOutside
  rw [decide_eq_false_iff_not, ← UInt8.toNat_inj, ← UInt8.toNat_inj, ← UInt8.toNat_inj,
    ← UInt8.toNat_inj, UInt8.lt_iff_toNat_lt, UInt8.lt_iff_toNat_lt, ge_iff_le, ge_iff_le,
    UInt8.le_iff_toNat_le, UInt8.le_iff_toNat_le]
  change ¬((count = 3 ∧ ((first.toNat = 0xE0 ∧ second.toNat < 0xA0) ∨
    (first.toNat = 0xED ∧ 0xA0 ≤ second.toNat))) ∨
    (count = 4 ∧ ((first.toNat = 0xF0 ∧ second.toNat < 0x90) ∨
      (first.toNat = 0xF4 ∧ 0x90 ≤ second.toNat)))) ↔ _
  omega

/-- The check lets a sequence pass exactly when the sequence encodes a character. -/
theorem passes_iff {first : UInt8} {tail : List UInt8} (wide : ¬first < 0x80)
    (length : tail.length + 1 = announced first) :
    ((tail.any fun byte => byte &&& 0xC0 != 0x80) = false ∧
      secondOutside (announced first) first (tail.headD 0) = false) ↔
        IsSequence (first :: tail) := by
  have large : 0x80 ≤ first.toNat := Nat.le_of_not_lt wide
  have tails : (tail.any fun byte => byte &&& 0xC0 != 0x80) = false ↔
      ∀ byte ∈ tail, IsTail byte := by
    simp [continuation_eq]
  rw [tails, secondOutside_eq_false]
  unfold announced at length ⊢
  rw [if_neg (Nat.not_lt.mpr large)] at length ⊢
  split at length
  · rename_i range
    rw [if_pos range]
    obtain ⟨second, rfl⟩ := List.length_eq_one_iff.mp (Nat.succ.inj length)
    simp only [List.forall_mem_cons, List.not_mem_nil, IsEmpty.forall_iff, implies_true,
      and_true, List.headD_cons, Nat.reduceEqDiff, IsSequence, IsTail]
    omega
  split at length
  · rename_i range
    rw [if_neg (by omega), if_pos range]
    obtain ⟨second, third, rfl⟩ := List.length_eq_two.mp (Nat.succ.inj length)
    simp only [List.forall_mem_cons, List.not_mem_nil, IsEmpty.forall_iff, implies_true,
      and_true, List.headD_cons, Nat.reduceEqDiff, forall_const, IsSequence, IsTail]
    omega
  split at length
  · rename_i range
    rw [if_neg (by omega), if_neg (by omega), if_pos range]
    obtain ⟨second, third, fourth, rfl⟩ := List.length_eq_three.mp (Nat.succ.inj length)
    simp only [List.forall_mem_cons, List.not_mem_nil, IsEmpty.forall_iff, implies_true,
      and_true, true_and, List.headD_cons, Nat.reduceEqDiff, forall_const, IsSequence, IsTail]
    omega
  · cases length

/-- The check accepts exactly the well formed texts. -/
theorem isUtf8_iff : ∀ bytes : List UInt8, isUtf8 bytes = true ↔ WellFormed bytes
  | [] => by
    rw [isUtf8]
    exact ⟨fun _ => wellFormed_nil, fun _ => rfl⟩
  | first :: rest => by
    rw [wellFormed_cons, isUtf8]
    split
    · rename_i small
      have single : announced first = 1 := if_pos small
      rw [single, isUtf8_iff rest]
      exact ⟨fun formed => ⟨small, formed⟩, And.right⟩
    · rename_i wide
      rw [sequenceCount_eq wide]
      dsimp only
      split
      · rename_i cut
        refine ⟨nofun, fun formed => ?_⟩
        exfalso
        rcases cut with nothing | cut
        · rw [nothing] at formed
          exact formed.1
        · rw [List.take_of_length_le (Nat.le_of_lt cut)] at formed
          exact absurd formed.1.length (Nat.ne_of_lt cut)
      · rename_i fits
        obtain ⟨more, announces⟩ : ∃ more, announced first = more + 2 := by
          refine ⟨announced first - 2, ?_⟩
          have long : announced first ≠ 1 := by
            unfold announced
            rw [if_neg (show ¬first.toNat < 0x80 from wide)]
            repeat' split
            all_goals decide
          omega
        rw [announces] at fits ⊢
        have length : (rest.take (more + 1)).length + 1 = announced first := by
          rw [List.length_take, announces]
          omega
        have second : (rest.take (more + 1)).headD 0 = rest.headD 0 := by
          cases rest <;> rfl
        have passes := passes_iff wide length
        rw [announces, second] at passes
        rw [List.take_succ_cons, List.drop_succ_cons, ← passes, ← isUtf8_iff]
        rw [show more + 2 - 1 = more + 1 from rfl]
        split
        · rename_i outside
          exact ⟨nofun, fun formed => by rw [outside] at formed; cases formed.1.1⟩
        split
        · rename_i outside
          exact ⟨nofun, fun formed => by rw [outside] at formed; cases formed.1.2⟩
        · rename_i inside range
          have both := And.intro (Bool.eq_false_iff.mpr inside) (Bool.eq_false_iff.mpr range)
          exact ⟨fun later => ⟨both, later⟩, And.right⟩
termination_by bytes => bytes.length

/-! ### Agreement -/

/-- The compiler and the YAML front end accept the same texts, the well formed ones. When the
compiler reports an error, the text is well formed up to the start of the sequence the error is
in; and it counts the characters of a well formed text. -/
theorem validators_agree (input : List UInt8) :
    (validateUtf8 input = .ok () ↔ isUtf8 input = true) ∧
      (isUtf8 input = true ↔ WellFormed input) ∧
      (∀ errorOffset, validateUtf8 input = .error errorOffset →
        ∃ start lead, input[start]? = some lead ∧ WellFormed (input.take start) ∧
          ¬IsSequence ((input.drop start).take (announced lead)) ∧
            start ≤ errorOffset ∧ errorOffset < start + max 1 (announced lead) ∧
              errorOffset < input.length) ∧
      ∀ characters : List Char, input = encode characters →
        countUtf8ScalarValues input = characters.length := by
  refine ⟨?_, isUtf8_iff input, fun errorOffset failed => ?_, fun characters same => ?_⟩
  · rw [isUtf8_iff, validateUtf8, validateUtf8From_eq_ok]
  · obtain ⟨start, lead, found, formed, improper, behind, inside, within⟩ :=
      validateUtf8From_eq_error input 0 errorOffset failed
    simp only [Nat.zero_add] at behind inside within
    exact ⟨start, lead, found, formed, improper, behind, inside, within⟩
  · rw [← leads_encode characters, ← same, countUtf8ScalarValues, leads]
    congr 1
    funext byte
    rw [Bool.eq_iff_iff, Bool.not_eq_true', Bool.not_eq_true', decide_eq_false_iff_not,
      ← isContinuationByte_iff, Bool.not_eq_true]

end ProtocolAdapter.ConfigFrontendYaml
