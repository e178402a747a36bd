/-
This file is a library about the remainder register of a cyclic code. The register takes in one
bit after another, the highest power first. A step is linear, and it loses nothing when the
polynomial has a constant term; hence two messages that agree outside a window no wider than the
register, and differ in it, leave different remainders.
-/

import Mathlib.Data.Nat.Bitwise
import Mathlib.Logic.Function.Iterate

namespace Foundation.CyclicCode

/-! ### The register -/

section

variable (width polynomial : Nat)

/-- Multiplies the remainder by the variable. -/
def step (register : Nat) : Nat :=
  2 * register % 2 ^ width ^^^ if register.testBit (width - 1) then polynomial else 0

/-- A bit in the highest position of the register. -/
def top (bit : Bool) : Nat := if bit then 2 ^ (width - 1) else 0

/-- Takes in one bit of the message. -/
def feed (register : Nat) (bit : Bool) : Nat := step width polynomial (register ^^^ top width bit)

/-- Takes in bits in their order. -/
def absorb (register : Nat) (bits : List Bool) : Nat := bits.foldl (feed width polynomial) register

/-- Bits in the highest positions of the register, the first one highest. -/
def align : List Bool → Nat
  | [] => 0
  | bit :: rest => top width bit ^^^ align rest / 2

end

/-- A register that loses nothing: it has room for a bit, its polynomial fits and has a
constant term. -/
structure Invertible (width polynomial : Nat) : Prop where
  positive : 0 < width
  fits : polynomial < 2 ^ width
  constant : polynomial.testBit 0 = true

variable {width polynomial : Nat}

theorem xor_left_cancel {common left right : Nat} (same : common ^^^ left = common ^^^ right) :
    left = right := by
  have undone := congrArg (common ^^^ ·) same
  simpa only [← Nat.xor_assoc, Nat.xor_self, Nat.zero_xor] using undone

theorem xor_right_cancel {common left right : Nat} (same : left ^^^ common = right ^^^ common) :
    left = right :=
  xor_left_cancel (by rwa [Nat.xor_comm common left, Nat.xor_comm common right])

theorem top_lt (positive : 0 < width) (bit : Bool) : top width bit < 2 ^ width := by
  unfold top
  split
  · exact Nat.pow_lt_pow_right (by decide) (by omega)
  · exact Nat.two_pow_pos width

theorem testBit_top (bit : Bool) : (top width bit).testBit (width - 1) = bit := by
  unfold top
  cases bit
  · simp
  · simp [Nat.testBit_two_pow_self]

/-- A bit above the top is not in the register. -/
theorem testBit_half {value : Nat} (small : value < 2 ^ width) :
    (value / 2).testBit (width - 1) = false := by
  rw [Nat.testBit_div_two]
  exact Nat.testBit_lt_two_pow (lt_of_lt_of_le small (Nat.pow_le_pow_right (by decide) (by omega)))

theorem align_lt (positive : 0 < width) : ∀ bits : List Bool, align width bits < 2 ^ width
  | [] => Nat.two_pow_pos width
  | bit :: rest =>
    Nat.xor_lt_two_pow (top_lt positive bit)
      (lt_of_le_of_lt (Nat.div_le_self _ _) (align_lt positive rest))

/-- Fewer bits than the register has leave its lowest bits alone. -/
theorem testBit_align (positive : 0 < width) : ∀ (bits : List Bool) {position : Nat},
    position + bits.length < width → (align width bits).testBit position = false
  | [], _, _ => Nat.zero_testBit _
  | bit :: rest, position, below => by
    rw [List.length_cons] at below
    have above : (top width bit).testBit position = false := by
      unfold top
      split
      · exact Nat.testBit_two_pow_of_ne (by omega)
      · exact Nat.zero_testBit _
    rw [align, Nat.testBit_xor, above, Nat.testBit_div_two, testBit_align positive rest (by omega)]
    rfl

/-! ### A step -/

theorem step_lt (invertible : Invertible width polynomial) (register : Nat) :
    step width polynomial register < 2 ^ width := by
  refine Nat.xor_lt_two_pow (Nat.mod_lt _ (Nat.two_pow_pos width)) ?_
  split
  · exact invertible.fits
  · exact Nat.two_pow_pos width

/-- A step is additive in what does not reach the top. -/
theorem step_xor {register low : Nat} (below : low.testBit (width - 1) = false) :
    step width polynomial (register ^^^ low) =
      step width polynomial register ^^^ 2 * low % 2 ^ width := by
  have doubled : 2 * (register ^^^ low) = 2 * register ^^^ 2 * low := by
    have shifted := @Nat.shiftLeft_xor_distrib 1 register low
    simpa only [Nat.shiftLeft_eq, pow_one, Nat.mul_comm] using shifted
  unfold step
  rw [doubled, Nat.xor_mod_two_pow, Nat.testBit_xor, below, Bool.xor_false, Nat.xor_assoc,
    Nat.xor_assoc, Nat.xor_comm (2 * low % 2 ^ width)]

/-- The constant term of the polynomial records the bit that a step pushes out. -/
theorem testBit_step_zero (invertible : Invertible width polynomial) (register : Nat) :
    (step width polynomial register).testBit 0 = register.testBit (width - 1) := by
  have even : (2 * register % 2 ^ width).testBit 0 = false := by
    rw [Nat.testBit_mod_two_pow, Nat.testBit_zero]
    simp
  unfold step
  rw [Nat.testBit_xor, even, Bool.false_xor]
  cases register.testBit (width - 1)
  · simp
  · simp [invertible.constant]

/-- A step loses nothing. -/
theorem step_injective (invertible : Invertible width polynomial) {left right : Nat}
    (leftSmall : left < 2 ^ width) (rightSmall : right < 2 ^ width)
    (same : step width polynomial left = step width polynomial right) : left = right := by
  have tops : left.testBit (width - 1) = right.testBit (width - 1) := by
    rw [← testBit_step_zero invertible, same, testBit_step_zero invertible]
  unfold step at same
  rw [tops] at same
  have shifted := xor_right_cancel same
  refine Nat.eq_of_testBit_eq fun position => ?_
  rcases Nat.lt_trichotomy position (width - 1) with inside | rfl | outside
  · have moved : ∀ value,
        (2 * value % 2 ^ width).testBit (position + 1) = value.testBit position := by
      intro value
      rw [Nat.testBit_mod_two_pow, decide_eq_true (show position + 1 < width by omega),
        Bool.true_and, Nat.testBit_succ, Nat.mul_div_cancel_left _ (by decide)]
    rw [← moved left, ← moved right, shifted]
  · exact tops
  · have below : 2 ^ width ≤ 2 ^ position := Nat.pow_le_pow_right (by decide) (by omega)
    rw [Nat.testBit_lt_two_pow (lt_of_lt_of_le leftSmall below),
      Nat.testBit_lt_two_pow (lt_of_lt_of_le rightSmall below)]

/-! ### Runs -/

theorem absorb_append (register : Nat) (first second : List Bool) :
    absorb width polynomial register (first ++ second) =
      absorb width polynomial (absorb width polynomial register first) second :=
  List.foldl_append

theorem absorb_lt (invertible : Invertible width polynomial) {register : Nat}
    (small : register < 2 ^ width) : ∀ bits : List Bool,
    absorb width polynomial register bits < 2 ^ width := by
  intro bits
  induction bits generalizing register with
  | nil => exact small
  | cons bit rest inductionHypothesis => exact inductionHypothesis (step_lt invertible _)

/-- Registers that differ stay different over the same bits. -/
theorem absorb_injective (invertible : Invertible width polynomial) (bits : List Bool)
    {left right : Nat} (leftSmall : left < 2 ^ width) (rightSmall : right < 2 ^ width)
    (same : absorb width polynomial left bits = absorb width polynomial right bits) :
    left = right := by
  induction bits generalizing left right with
  | nil => exact same
  | cons bit rest inductionHypothesis =>
    have fed := inductionHypothesis (step_lt invertible _) (step_lt invertible _) same
    have bounded := top_lt invertible.positive bit
    exact xor_right_cancel (step_injective invertible (Nat.xor_lt_two_pow leftSmall bounded)
      (Nat.xor_lt_two_pow rightSmall bounded) fed)

/-- As many bits as fit the register can be taken in at once. -/
theorem absorb_eq_iterate (invertible : Invertible width polynomial) : ∀ (bits : List Bool)
    (register : Nat), bits.length ≤ width →
    absorb width polynomial register bits =
      (step width polynomial)^[bits.length] (register ^^^ align width bits)
  | [], register, _ => (Nat.xor_zero register).symm
  | bit :: rest, register, short => by
    rw [List.length_cons] at short
    have aligned := align_lt invertible.positive rest
    have even : align width rest % 2 = 0 := by
      have lowest := testBit_align invertible.positive rest (show 0 + rest.length < width by omega)
      rw [Nat.testBit_zero, decide_eq_false_iff_not] at lowest
      omega
    have doubled : 2 * (align width rest / 2) % 2 ^ width = align width rest := by
      rw [Nat.mod_eq_of_lt (by omega)]
      omega
    rw [List.length_cons, Function.iterate_succ_apply, align, ← Nat.xor_assoc,
      step_xor (testBit_half aligned), doubled]
    exact absorb_eq_iterate invertible rest _ (by omega)

theorem iterate_injective (invertible : Invertible width polynomial) : ∀ (count : Nat)
    {left right : Nat}, left < 2 ^ width → right < 2 ^ width →
    (step width polynomial)^[count] left = (step width polynomial)^[count] right → left = right
  | 0, _, _, _, _, same => same
  | count + 1, _, _, leftSmall, rightSmall, same =>
    step_injective invertible leftSmall rightSmall
      (iterate_injective invertible count (step_lt invertible _) (step_lt invertible _) same)

/-- Bits that fit the register can be read back from it. -/
theorem align_injective (positive : 0 < width) : ∀ {left right : List Bool},
    left.length = right.length → left.length ≤ width →
    align width left = align width right → left = right
  | [], [], _, _, _ => rfl
  | [], _ :: _, lengths, _, _ => by simp at lengths
  | _ :: _, [], lengths, _, _ => by simp at lengths
  | leftBit :: left, rightBit :: right, lengths, short, same => by
    rw [List.length_cons] at short
    have lengths := Nat.succ.inj lengths
    have leftSmall := align_lt positive left
    have rightSmall := align_lt positive right
    have heads : leftBit = rightBit := by
      have tops := congrArg (fun value => value.testBit (width - 1)) same
      simpa only [align, Nat.testBit_xor, testBit_top, testBit_half leftSmall,
        testBit_half rightSmall, Bool.xor_false] using tops
    rw [align, align, heads] at same
    have halves := xor_left_cancel same
    have leftEven := testBit_align positive left (show 0 + left.length < width by omega)
    have rightEven := testBit_align positive right (show 0 + right.length < width by omega)
    rw [Nat.testBit_zero, decide_eq_false_iff_not] at leftEven rightEven
    rw [heads, align_injective positive lengths (by omega) (by omega)]

/-! ### Detection -/

/-- Two messages differ in a window: they agree before it and behind it. -/
structure DiffersWithin (size : Nat) (left right : List Bool) : Prop where
  lengths : left.length = right.length
  different : left ≠ right
  window : ∃ start, left.take start = right.take start ∧
    left.drop (start + size) = right.drop (start + size)

/-- A difference no wider than the register changes the remainder. -/
theorem absorb_ne (invertible : Invertible width polynomial) {register : Nat}
    (small : register < 2 ^ width) {left right : List Bool}
    (differs : DiffersWithin width left right) :
    absorb width polynomial register left ≠ absorb width polynomial register right := by
  intro same
  obtain ⟨lengths, different, start, before, behind⟩ := differs
  have split : ∀ bits : List Bool,
      bits = bits.take start ++ ((bits.drop start).take width ++ bits.drop (start + width)) := by
    intro bits
    rw [← List.drop_drop, List.take_append_drop, List.take_append_drop]
  rw [split left, split right, before, behind, absorb_append, absorb_append, absorb_append,
    absorb_append] at same
  have bounded := absorb_lt invertible small (right.take start)
  generalize absorb width polynomial register (right.take start) = reached at same bounded
  have windows := absorb_injective invertible _ (absorb_lt invertible bounded _)
    (absorb_lt invertible bounded _) same
  have sizes : ((left.drop start).take width).length = ((right.drop start).take width).length := by
    rw [List.length_take, List.length_take, List.length_drop, List.length_drop, lengths]
  have short : ((left.drop start).take width).length ≤ width := List.length_take_le _ _
  rw [absorb_eq_iterate invertible _ reached short,
    absorb_eq_iterate invertible _ reached (sizes ▸ short), ← sizes] at windows
  have aligned := xor_left_cancel (iterate_injective invertible _
    (Nat.xor_lt_two_pow bounded (align_lt invertible.positive _))
    (Nat.xor_lt_two_pow bounded (align_lt invertible.positive _)) windows)
  refine different ?_
  rw [split left, split right, before, behind,
    align_injective invertible.positive sizes short aligned]

end Foundation.CyclicCode
