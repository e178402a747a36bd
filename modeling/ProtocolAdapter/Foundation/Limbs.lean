/-
This file is a library of unsigned multi-word arithmetic: numbers are lists of 32-bit
words, least significant first, and every operation works word by word with a carry or
a borrow. Each operation is shown to compute what it denotes on the numbers. Nothing
depends on how many words there are.
-/

import Mathlib.Tactic.Ring
import Mathlib.Tactic.Linarith
import Mathlib.Tactic.Positivity

namespace Foundation.Limbs

/-! ### Values -/

/-- The number that words denote, least significant word first. -/
def value : List UInt32 → Nat
  | [] => 0
  | word :: rest => word.toNat + 0x100000000 * value rest

@[simp] theorem value_nil : value [] = 0 := rfl

@[simp] theorem value_cons (word : UInt32) (rest : List UInt32) :
    value (word :: rest) = word.toNat + 0x100000000 * value rest := rfl

theorem two_pow_32 : 2 ^ 32 = 0x100000000 := rfl

theorem toNat_lt (word : UInt32) : word.toNat < 0x100000000 := word.toNat_lt

@[simp] theorem toNat_ofNat (number : Nat) : (UInt32.ofNat number).toNat = number % 0x100000000 :=
  UInt32.toNat_ofNat'

theorem value_lt : ∀ words : List UInt32, value words < 0x100000000 ^ words.length
  | [] => Nat.one_pos
  | word :: rest => by
    have head := toNat_lt word
    have tail := Nat.mul_le_mul_left 0x100000000 (Nat.succ_le_of_lt (value_lt rest))
    rw [value_cons, List.length_cons, pow_succ']
    omega

theorem value_append : ∀ low high : List UInt32,
    value (low ++ high) = value low + 0x100000000 ^ low.length * value high
  | [], high => by simp
  | word :: rest, high => by
    rw [List.cons_append, value_cons, value_cons, value_append rest high, List.length_cons,
      pow_succ']
    ring

theorem value_replicate_zero : ∀ count : Nat, value (List.replicate count 0) = 0
  | 0 => rfl
  | count + 1 => by
    rw [List.replicate_succ, value_cons, value_replicate_zero count]
    rfl

/-- Words of one length are determined by their value. -/
theorem value_inj : ∀ {left right : List UInt32}, left.length = right.length →
    value left = value right → left = right
  | [], [], _, _ => rfl
  | [], _ :: _, length, _ => by simp at length
  | _ :: _, [], length, _ => by simp at length
  | leftWord :: leftRest, rightWord :: rightRest, length, same => by
    have leftHead := toNat_lt leftWord
    have rightHead := toNat_lt rightWord
    simp only [value_cons] at same
    have heads : leftWord.toNat = rightWord.toNat := by omega
    have tails : value leftRest = value rightRest := by omega
    rw [UInt32.toNat_inj.mp heads, value_inj (Nat.succ.inj length) tails]

/-! ### Comparison -/

/-- Compares words of one length from the most significant word on. -/
def compareWords : List UInt32 → List UInt32 → Ordering
  | left :: lefts, right :: rights =>
    match compareWords lefts rights with
    | .eq => compare left.toNat right.toNat
    | different => different
  | _, _ => .eq

theorem compareWords_eq : ∀ {left right : List UInt32}, left.length = right.length →
    compareWords left right = compare (value left) (value right)
  | [], [], _ => rfl
  | [], _ :: _, length => by simp at length
  | _ :: _, [], length => by simp at length
  | leftWord :: leftRest, rightWord :: rightRest, length => by
    have leftHead := toNat_lt leftWord
    have rightHead := toNat_lt rightWord
    rw [compareWords, compareWords_eq (Nat.succ.inj length), value_cons, value_cons]
    rcases Nat.lt_trichotomy (value leftRest) (value rightRest) with less | equal | greater
    · rw [Nat.compare_eq_lt.mpr less]
      exact (Nat.compare_eq_lt.mpr (by omega)).symm
    · rw [equal, Nat.compare_eq_eq.mpr rfl]
      simp only
      rcases Nat.lt_trichotomy leftWord.toNat rightWord.toNat with less | same | more
      · rw [Nat.compare_eq_lt.mpr less, Nat.compare_eq_lt.mpr (by omega)]
      · rw [Nat.compare_eq_eq.mpr same, Nat.compare_eq_eq.mpr (by omega)]
      · rw [Nat.compare_eq_gt.mpr more, Nat.compare_eq_gt.mpr (by omega)]
    · rw [Nat.compare_eq_gt.mpr greater]
      exact (Nat.compare_eq_gt.mpr (by omega)).symm

/-! ### Addition and subtraction -/

/-- Adds words of one length and a carry; the second component is the carry out. -/
def addWords : List UInt32 → List UInt32 → Nat → List UInt32 × Nat
  | left :: lefts, right :: rights, carry =>
    let sum := left.toNat + right.toNat + carry
    let rest := addWords lefts rights (sum / 0x100000000)
    (UInt32.ofNat sum :: rest.1, rest.2)
  | _, _, carry => ([], carry)

theorem addWords_length : ∀ {left right : List UInt32} (carry : Nat),
    left.length = right.length → (addWords left right carry).1.length = left.length
  | [], [], _, _ => rfl
  | [], _ :: _, _, length => by simp at length
  | _ :: _, [], _, length => by simp at length
  | _ :: _, _ :: _, carry, length => by
    simp only [addWords, List.length_cons, addWords_length _ (Nat.succ.inj length)]

theorem addWords_value : ∀ {left right : List UInt32} (carry : Nat),
    left.length = right.length →
    value (addWords left right carry).1 +
        0x100000000 ^ left.length * (addWords left right carry).2 =
      value left + value right + carry
  | [], [], _, _ => by simp [addWords]
  | [], _ :: _, _, length => by simp at length
  | _ :: _, [], _, length => by simp at length
  | left :: lefts, right :: rights, carry, length => by
    have tail := addWords_value ((left.toNat + right.toNat + carry) / 0x100000000)
      (Nat.succ.inj length)
    have head := Nat.mod_add_div (left.toNat + right.toNat + carry) 0x100000000
    simp only [addWords, value_cons, toNat_ofNat, List.length_cons, pow_succ']
    rw [Nat.mul_assoc]
    generalize 0x100000000 ^ lefts.length * _ = weighted at tail ⊢
    omega

/-- Subtracts words of one length and a borrow, modulo the size of the words. -/
def subtractWords : List UInt32 → List UInt32 → Nat → List UInt32
  | left :: lefts, right :: rights, borrow =>
    let subtrahend := right.toNat + borrow
    UInt32.ofNat (0x100000000 + left.toNat - subtrahend) ::
      subtractWords lefts rights (if left.toNat < subtrahend then 1 else 0)
  | _, _, _ => []

theorem subtractWords_length : ∀ {left right : List UInt32} (borrow : Nat),
    left.length = right.length → (subtractWords left right borrow).length = left.length
  | [], [], _, _ => rfl
  | [], _ :: _, _, length => by simp at length
  | _ :: _, [], _, length => by simp at length
  | _ :: _, _ :: _, borrow, length => by
    simp only [subtractWords, List.length_cons, subtractWords_length _ (Nat.succ.inj length)]

/-- Subtraction is exact up to one borrow out of the most significant word. -/
theorem subtractWords_value : ∀ {left right : List UInt32} (borrow : Nat), borrow ≤ 1 →
    left.length = right.length →
    ∃ out, out ≤ 1 ∧ value (subtractWords left right borrow) + value right + borrow =
      value left + 0x100000000 ^ left.length * out
  | [], [], borrow, small, _ => ⟨borrow, small, by simp [subtractWords]⟩
  | [], _ :: _, _, _, length => by simp at length
  | _ :: _, [], _, _, length => by simp at length
  | left :: lefts, right :: rights, borrow, small, length => by
    have leftHead := toNat_lt left
    have rightHead := toNat_lt right
    obtain ⟨out, outSmall, tail⟩ := subtractWords_value
      (if left.toNat < right.toNat + borrow then 1 else 0) (by split <;> omega)
      (Nat.succ.inj length)
    refine ⟨out, outSmall, ?_⟩
    simp only [subtractWords, value_cons, toNat_ofNat, List.length_cons, pow_succ']
    rw [Nat.mul_assoc 0x100000000 (0x100000000 ^ lefts.length)]
    generalize 0x100000000 ^ lefts.length * out = weighted at tail ⊢
    by_cases wraps : left.toNat < right.toNat + borrow
    · rw [if_pos wraps] at tail ⊢
      rw [Nat.mod_eq_of_lt (by omega)]
      omega
    · rw [if_neg wraps] at tail ⊢
      have reduced : (0x100000000 + left.toNat - (right.toNat + borrow)) % 0x100000000 =
          left.toNat - (right.toNat + borrow) := by
        rw [Nat.add_sub_assoc (Nat.le_of_not_lt wraps), Nat.add_mod_left,
          Nat.mod_eq_of_lt (by omega)]
      rw [reduced]
      omega

/-! ### Multiplication -/

/-- Adds the product of a factor and words to the accumulated words and stores the
carry in the next word. -/
def multiplyRow (factor : UInt32) : List UInt32 → List UInt32 → Nat → List UInt32
  | word :: words, old :: olds, carry =>
    let total := factor.toNat * word.toNat + old.toNat + carry
    UInt32.ofNat total :: multiplyRow factor words olds (total / 0x100000000)
  | [], _ :: olds, carry => UInt32.ofNat carry :: olds
  | _, [], _ => []

/-- Adds the product of two numbers to the accumulated words, one row for each word of
the left number. -/
def multiplyWords : List UInt32 → List UInt32 → List UInt32 → List UInt32
  | [], _, product => product
  | left :: lefts, right, product =>
    match multiplyRow left right product 0 with
    | [] => []
    | low :: rest => low :: multiplyWords lefts right rest

theorem total_lt (factor word old : UInt32) {carry : Nat} (small : carry < 0x100000000) :
    (factor.toNat * word.toNat + old.toNat + carry) / 0x100000000 < 0x100000000 := by
  have factorLt := toNat_lt factor
  have wordLt := toNat_lt word
  have oldLt := toNat_lt old
  have product := Nat.mul_le_mul (show factor.toNat ≤ 0x100000000 - 1 by omega)
    (show word.toNat ≤ 0x100000000 - 1 by omega)
  rw [Nat.div_lt_iff_lt_mul (by decide)]
  omega

/-- A row is exact, and it leaves the words behind its carry alone. -/
theorem multiplyRow_spec (factor : UInt32) : ∀ (words olds rest : List UInt32) (carry : Nat),
    olds.length = words.length → carry < 0x100000000 →
    ∃ row, multiplyRow factor words (olds ++ 0 :: rest) carry = row ++ rest ∧
      row.length = words.length + 1 ∧
      value row = factor.toNat * value words + value olds + carry
  | [], [], rest, carry, _, small => ⟨[UInt32.ofNat carry], rfl, rfl, by
      simp [Nat.mod_eq_of_lt small]⟩
  | [], _ :: _, _, _, length, _ => by simp at length
  | _ :: _, [], _, _, length, _ => by simp at length
  | word :: words, old :: olds, rest, carry, length, small => by
    obtain ⟨row, equal, rowLength, rowValue⟩ := multiplyRow_spec factor words olds rest
      ((factor.toNat * word.toNat + old.toNat + carry) / 0x100000000) (Nat.succ.inj length)
      (total_lt factor word old small)
    have head := Nat.mod_add_div (factor.toNat * word.toNat + old.toNat + carry) 0x100000000
    refine ⟨UInt32.ofNat (factor.toNat * word.toNat + old.toNat + carry) :: row, ?_, ?_, ?_⟩
    · rw [List.cons_append, multiplyRow, equal]
      rfl
    · rw [List.length_cons, rowLength, List.length_cons]
    · rw [value_cons, toNat_ofNat, rowValue, value_cons, value_cons]
      linarith

/-- Multiplication into fresh words is exact. -/
theorem multiplyWords_spec : ∀ (left right olds : List UInt32), olds.length = right.length →
    (multiplyWords left right (olds ++ List.replicate left.length 0)).length =
        right.length + left.length ∧
      value (multiplyWords left right (olds ++ List.replicate left.length 0)) =
        value left * value right + value olds
  | [], right, olds, length => by simp [multiplyWords, length]
  | factor :: lefts, right, olds, length => by
    obtain ⟨row, equal, rowLength, rowValue⟩ := multiplyRow_spec factor right olds
      (List.replicate lefts.length 0) 0 length (by decide)
    cases row with
    | nil => simp at rowLength
    | cons low row =>
      obtain ⟨restLength, restValue⟩ :=
        multiplyWords_spec lefts right row (Nat.succ.inj rowLength)
      rw [multiplyWords, List.length_cons, List.replicate_succ, equal]
      simp only [List.cons_append, List.length_cons, value_cons, restLength, restValue]
      rw [value_cons, Nat.add_zero] at rowValue
      refine ⟨by omega, ?_⟩
      calc low.toNat + 0x100000000 * (value lefts * value right + value row)
          = low.toNat + 0x100000000 * value row + 0x100000000 * (value lefts * value right) := by
            ring
        _ = (factor.toNat + 0x100000000 * value lefts) * value right + value olds := by
            rw [rowValue]
            ring

/-! ### Division -/

/-- Whether the most significant bit is set. -/
def highBit (words : List UInt32) : Bool := (words.getLastD 0).toNat / 2 ^ 31 ≠ 0

/-- Shifts words one bit up and a bit into the lowest position. -/
def shiftLeftOne : List UInt32 → Nat → List UInt32
  | [], _ => []
  | word :: rest, carry =>
    UInt32.ofNat (2 * word.toNat + carry) :: shiftLeftOne rest (word.toNat / 2 ^ 31)

/-- A bit of a number. -/
def bitAt (words : List UInt32) (bit : Nat) : Nat :=
  (words.getD (bit / 32) 0).toNat / 2 ^ (bit % 32) % 2

/-- Sets a bit of a number. -/
def setBit (words : List UInt32) (bit : Nat) : List UInt32 :=
  words.modify (bit / 32) fun word => UInt32.ofNat (word.toNat ||| 2 ^ (bit % 32))

/-- One step of the long division: the remainder takes in the next bit of the numerator
and gives up the denominator when it can. The bit shifted out of the remainder counts. -/
def divideStep (numerator denominator : List UInt32) (bit : Nat)
    (state : List UInt32 × List UInt32) : List UInt32 × List UInt32 :=
  let (quotient, remainder) := state
  let shifted := shiftLeftOne remainder (bitAt numerator bit)
  if highBit remainder || compareWords shifted denominator != .lt then
    (setBit quotient bit, subtractWords shifted denominator 0)
  else (quotient, shifted)

/-- The long division over the lowest `bits` bits, from the highest of them down. -/
def divideFrom (numerator denominator : List UInt32) :
    Nat → List UInt32 × List UInt32 → List UInt32 × List UInt32
  | 0, state => state
  | bit + 1, state =>
    divideFrom numerator denominator bit (divideStep numerator denominator bit state)

theorem shiftLeftOne_length : ∀ (words : List UInt32) (carry : Nat),
    (shiftLeftOne words carry).length = words.length
  | [], _ => rfl
  | _ :: rest, _ => by rw [shiftLeftOne, List.length_cons, shiftLeftOne_length, List.length_cons]

/-- The shift loses exactly the most significant bit. -/
theorem shiftLeftOne_value : ∀ (words : List UInt32) (carry : Nat), carry ≤ 1 → words ≠ [] →
    value (shiftLeftOne words carry) +
        0x100000000 ^ words.length * (if highBit words then 1 else 0) = 2 * value words + carry
  | [], _, _, nonempty => absurd rfl nonempty
  | [word], carry, small, _ => by
    have head := toNat_lt word
    simp only [shiftLeftOne, value_cons, value_nil, toNat_ofNat, highBit, List.getLastD_cons,
      List.getLastD_nil, List.length_cons, List.length_nil, decide_eq_true_eq]
    split <;> omega
  | word :: next :: rest, carry, small, _ => by
    have head := toNat_lt word
    have tail := shiftLeftOne_value (next :: rest) (word.toNat / 2 ^ 31) (by omega) (by simp)
    have same : highBit (word :: next :: rest) = highBit (next :: rest) := by
      simp [highBit]
    rw [same, shiftLeftOne, value_cons, toNat_ofNat, List.length_cons, pow_succ' 0x100000000,
      Nat.mul_assoc, value_cons word]
    generalize 0x100000000 ^ (next :: rest).length * _ = weighted at tail ⊢
    omega

theorem bitAt_eq : ∀ (words : List UInt32) (bit : Nat),
    bitAt words bit = value words / 2 ^ bit % 2
  | [], bit => by simp [bitAt]
  | word :: rest, bit => by
    have head := toNat_lt word
    by_cases low : bit < 32
    · have split : 0x100000000 * value rest = 2 ^ bit * (2 * (2 ^ (31 - bit) * value rest)) := by
        rw [← Nat.mul_assoc, ← Nat.mul_assoc, ← pow_succ, ← pow_add,
          show bit + 1 + (31 - bit) = 32 by omega, two_pow_32]
      simp only [bitAt, Nat.div_eq_of_lt low, Nat.mod_eq_of_lt low, List.getD_cons_zero,
        value_cons]
      rw [split, Nat.add_mul_div_left _ _ (by positivity), Nat.add_mul_mod_self_left]
    · obtain ⟨later, rfl⟩ : ∃ later, bit = later + 32 := ⟨bit - 32, by omega⟩
      have tail := bitAt_eq rest later
      have split : 2 ^ (later + 32) = 0x100000000 * 2 ^ later := by
        rw [pow_add, Nat.mul_comm, two_pow_32]
      rw [value_cons, split, ← Nat.div_div_eq_div_mul, Nat.add_mul_div_left _ _ (by decide),
        Nat.div_eq_of_lt head, Nat.zero_add, ← tail]
      simp [bitAt]

theorem setBit_length (words : List UInt32) (bit : Nat) :
    (setBit words bit).length = words.length := by
  simp [setBit]

theorem or_two_pow_of_dvd {number bit : Nat} (multiple : 2 ^ (bit + 1) ∣ number) :
    number ||| 2 ^ bit = number + 2 ^ bit := by
  obtain ⟨factor, rfl⟩ := multiple
  have small : 2 ^ bit < 2 ^ (bit + 1) := Nat.pow_lt_pow_right (by decide) (Nat.lt_succ_self _)
  rw [Nat.mul_comm, ← Nat.shiftLeft_eq, Nat.shiftLeft_add_eq_or_of_lt small]

/-- Setting a bit below all set bits adds its weight. -/
theorem setBit_value : ∀ (words : List UInt32) (bit : Nat), bit < 32 * words.length →
    2 ^ (bit + 1) ∣ value words → value (setBit words bit) = value words + 2 ^ bit
  | [], bit, inside, _ => by simp at inside
  | word :: rest, bit, inside, multiple => by
    have head := toNat_lt word
    by_cases low : bit < 32
    · have power : 2 ^ (bit + 1) ∣ 0x100000000 :=
        two_pow_32 ▸ pow_dvd_pow 2 (show bit + 1 ≤ 32 by omega)
      have divides : 2 ^ (bit + 1) ∣ word.toNat :=
        (Nat.dvd_add_left (Dvd.dvd.mul_right power _)).mp multiple
      have bound : 2 ^ bit < 2 ^ 32 := Nat.pow_lt_pow_right (by decide) low
      have fits : word.toNat ||| 2 ^ bit < 2 ^ 32 := Nat.or_lt_two_pow head bound
      simp only [setBit, Nat.div_eq_of_lt low, Nat.mod_eq_of_lt low, List.modify_zero_cons,
        value_cons, toNat_ofNat]
      rw [← two_pow_32, Nat.mod_eq_of_lt fits, or_two_pow_of_dvd divides]
      omega
    · obtain ⟨later, rfl⟩ : ∃ later, bit = later + 32 := ⟨bit - 32, by omega⟩
      rw [List.length_cons] at inside
      have split : 2 ^ (later + 32 + 1) = 0x100000000 * 2 ^ (later + 1) := by
        rw [show later + 32 + 1 = 32 + (later + 1) by omega, pow_add, two_pow_32]
      rw [split, value_cons] at multiple
      have baseDvd : 0x100000000 ∣ word.toNat :=
        (Nat.dvd_add_left (Nat.dvd_mul_right _ _)).mp (dvd_of_mul_right_dvd multiple)
      have zero : word.toNat = 0 := Nat.eq_zero_of_dvd_of_lt baseDvd head
      rw [zero, Nat.zero_add] at multiple
      have tail := setBit_value rest later (by omega)
        (Nat.dvd_of_mul_dvd_mul_left (by decide) multiple)
      have same : setBit (word :: rest) (later + 32) = word :: setBit rest later := by
        simp [setBit]
      rw [same, value_cons, value_cons, tail, pow_add]
      ring

/-- What the long division has computed when the lowest `bit` bits are left. -/
structure Divided (numerator denominator : List UInt32) (bit : Nat)
    (state : List UInt32 × List UInt32) : Prop where
  quotient_length : state.1.length = numerator.length
  remainder_length : state.2.length = denominator.length
  multiple : 2 ^ bit ∣ value state.1
  remainder_lt : value state.2 < value denominator
  exact : value numerator / 2 ^ bit = value state.1 / 2 ^ bit * value denominator + value state.2

/-- One step of the long division divides one bit further. -/
theorem divideStep_divided {numerator denominator : List UInt32} {bit : Nat}
    {state : List UInt32 × List UInt32} (inside : bit < 32 * numerator.length)
    (divided : Divided numerator denominator (bit + 1) state) :
    Divided numerator denominator bit (divideStep numerator denominator bit state) := by
  obtain ⟨quotient, remainder⟩ := state
  obtain ⟨quotientLength, remainderLength, multiple, remainderLt, exactly⟩ := divided
  simp only at quotientLength remainderLength multiple remainderLt exactly
  have nonempty : remainder ≠ [] := by
    rintro rfl
    rw [List.length_nil] at remainderLength
    rw [List.eq_nil_of_length_eq_zero remainderLength.symm] at remainderLt
    exact absurd remainderLt (Nat.lt_irrefl _)
  have bitEq := bitAt_eq numerator bit
  have bitSmall : bitAt numerator bit ≤ 1 := by
    rw [bitEq]
    omega
  have shiftLength : (shiftLeftOne remainder (bitAt numerator bit)).length = denominator.length :=
    (shiftLeftOne_length _ _).trans remainderLength
  have shiftValue := shiftLeftOne_value remainder (bitAt numerator bit) bitSmall nonempty
  have shiftLt := value_lt (shiftLeftOne remainder (bitAt numerator bit))
  have denominatorLt := value_lt denominator
  rw [shiftLength] at shiftLt
  rw [remainderLength] at shiftValue
  obtain ⟨factor, quotientEq⟩ := multiple
  have double : 2 ^ (bit + 1) = 2 ^ bit * 2 := pow_succ 2 bit
  have positive : 0 < 2 ^ bit := by positivity
  -- the numerator without its lowest bits, one bit longer than before
  have longer : value numerator / 2 ^ bit =
      2 * factor * value denominator + (2 * value remainder + bitAt numerator bit) := by
    have halves : value numerator / 2 ^ bit / 2 = factor * value denominator + value remainder := by
      rw [Nat.div_div_eq_div_mul, ← double, exactly, quotientEq,
        Nat.mul_div_cancel_left _ (by positivity)]
    rw [bitEq, Nat.mul_assoc]
    omega
  have before : value quotient / 2 ^ bit = 2 * factor := by
    rw [quotientEq, double, Nat.mul_assoc, Nat.mul_div_cancel_left _ positive]
  unfold divideStep
  simp only
  by_cases takes : highBit remainder || compareWords
      (shiftLeftOne remainder (bitAt numerator bit)) denominator != .lt
  · rw [if_pos takes]
    obtain ⟨out, outSmall, difference⟩ := subtractWords_value 0 (Nat.zero_le 1) shiftLength
    rw [shiftLength] at difference
    have differenceLt := value_lt (subtractWords
      (shiftLeftOne remainder (bitAt numerator bit)) denominator 0)
    rw [subtractWords_length 0 shiftLength, shiftLength] at differenceLt
    have enough : value denominator ≤ 2 * value remainder + bitAt numerator bit := by
      by_cases high : highBit remainder = true
      · rw [if_pos high] at shiftValue
        omega
      · rw [compareWords_eq shiftLength] at takes
        simp only [high, Bool.false_or, bne_iff_ne, ne_eq, Nat.compare_eq_lt] at takes
        rw [if_neg high] at shiftValue
        omega
    have remains : value (subtractWords (shiftLeftOne remainder (bitAt numerator bit))
        denominator 0) + value denominator = 2 * value remainder + bitAt numerator bit := by
      by_cases high : highBit remainder = true
      · rw [if_pos high] at shiftValue
        rcases Nat.le_one_iff_eq_zero_or_eq_one.mp outSmall with rfl | rfl <;> omega
      · rw [if_neg high] at shiftValue
        rcases Nat.le_one_iff_eq_zero_or_eq_one.mp outSmall with rfl | rfl <;> omega
    have setValue := setBit_value quotient bit (by rw [quotientLength]; exact inside)
      ⟨factor, quotientEq⟩
    refine ⟨(setBit_length _ _).trans quotientLength,
      (subtractWords_length 0 shiftLength).trans shiftLength, ?_, ?_, ?_⟩
    · simp only [setValue, quotientEq, double, Nat.mul_assoc]
      exact Nat.dvd_add (Nat.dvd_mul_right _ _) (Nat.dvd_refl _)
    · simp only
      omega
    · have after : value (setBit quotient bit) / 2 ^ bit = 2 * factor + 1 := by
        rw [setValue, Nat.add_div_right _ positive, before]
      simp only [after, longer]
      rw [← remains]
      ring
  · rw [if_neg takes]
    rw [compareWords_eq shiftLength] at takes
    simp only [Bool.or_eq_true, bne_iff_ne, ne_eq, Nat.compare_eq_lt, not_or, not_not] at takes
    rw [if_neg takes.1] at shiftValue
    refine ⟨quotientLength, shiftLength, ⟨2 * factor, ?_⟩, takes.2, ?_⟩
    · simp only [quotientEq, double]
      ring
    · simp only [before, longer]
      omega

/-- The long division divides all bits. -/
theorem divideFrom_divided {numerator denominator : List UInt32} :
    ∀ (bit : Nat) (state : List UInt32 × List UInt32), bit ≤ 32 * numerator.length →
      Divided numerator denominator bit state →
      Divided numerator denominator 0 (divideFrom numerator denominator bit state)
  | 0, _, _, divided => divided
  | bit + 1, state, inside, divided =>
    divideFrom_divided bit _ (by omega) (divideStep_divided (by omega) divided)

/-- Dividing all bits of a number by a positive number of as many words gives the
quotient and the remainder. -/
theorem divideFrom_spec {numerator denominator : List UInt32} (positive : 0 < value denominator) :
    let zero := List.replicate numerator.length 0
    let result := divideFrom numerator denominator (32 * numerator.length)
      (zero, List.replicate denominator.length 0)
    result.1.length = numerator.length ∧ result.2.length = denominator.length ∧
      value result.1 = value numerator / value denominator ∧
      value result.2 = value numerator % value denominator := by
  have start : Divided numerator denominator (32 * numerator.length)
      (List.replicate numerator.length 0, List.replicate denominator.length 0) := by
    have small := value_lt numerator
    have power : 0x100000000 ^ numerator.length = 2 ^ (32 * numerator.length) :=
      (pow_mul 2 32 _).symm
    refine ⟨List.length_replicate, List.length_replicate, ?_, ?_, ?_⟩
    · simp only [value_replicate_zero, Nat.dvd_zero]
    · simpa only [value_replicate_zero] using positive
    · rw [Nat.div_eq_of_lt (power ▸ small)]
      simp [value_replicate_zero]
  have done := divideFrom_divided _ _ (Nat.le_refl _) start
  obtain ⟨quotientLength, remainderLength, -, remainderLt, exactly⟩ := done
  rw [pow_zero, Nat.div_one, Nat.div_one] at exactly
  refine ⟨quotientLength, remainderLength, ?_, ?_⟩
  · rw [exactly, Nat.add_comm, Nat.add_mul_div_right _ _ positive, Nat.div_eq_of_lt remainderLt,
      Nat.zero_add]
  · rw [exactly, Nat.add_comm, Nat.add_mul_mod_self_right, Nat.mod_eq_of_lt remainderLt]

end Foundation.Limbs
