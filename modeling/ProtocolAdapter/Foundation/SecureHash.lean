/-
This file is the secure hash standard for words of 32 bits, in the terms of the standard. A
message is a string of bits; it is padded to whole blocks of 512 bits, every block is expanded
into a schedule of 64 words, and the schedule is compressed into a chain of eight words. The
constants are fractional parts of roots of primes. The lemmas give the constants by integer
inequalities and describe the padding and the blocks of a message of whole bytes.
-/

import Mathlib.Analysis.SpecialFunctions.Pow.Real
import Mathlib.Data.Nat.Nth
import Mathlib.Data.Nat.Prime.Defs

namespace Foundation.SecureHash

/-! ### Words -/

/-- A word of the standard. -/
abbrev Word := BitVec 32

def choice (x y z : Word) : Word := (x &&& y) ^^^ (~~~x &&& z)

def majority (x y z : Word) : Word := (x &&& y) ^^^ (x &&& z) ^^^ (y &&& z)

/-- The functions of the rounds. -/
def upperSigma0 (x : Word) : Word := x.rotateRight 2 ^^^ x.rotateRight 13 ^^^ x.rotateRight 22

def upperSigma1 (x : Word) : Word := x.rotateRight 6 ^^^ x.rotateRight 11 ^^^ x.rotateRight 25

/-- The functions of the schedule. -/
def lowerSigma0 (x : Word) : Word := x.rotateRight 7 ^^^ x.rotateRight 18 ^^^ (x >>> 3)

def lowerSigma1 (x : Word) : Word := x.rotateRight 17 ^^^ x.rotateRight 19 ^^^ (x >>> 10)

/-- The first 32 bits of the fractional part of a root. -/
noncomputable def rootBits (degree radicand : Nat) : Word :=
  BitVec.ofNat 32 ⌊Int.fract ((radicand : ℝ) ^ (degree : ℝ)⁻¹) * 2 ^ 32⌋₊

/-- The constant of a round, from the cube root of a prime. -/
noncomputable def roundConstant (round : Nat) : Word := rootBits 3 (Nat.nth Nat.Prime round)

/-! ### Messages -/

/-- The number that bits spell, the most significant first. -/
def number (bits : List Bool) : Nat := bits.foldl (fun value bit => 2 * value + bit.toNat) 0

/-- The lowest bits of a number, the most significant first. -/
def spell (width number : Nat) : List Bool :=
  (List.range width).map fun index => number.testBit (width - 1 - index)

/-- The number of zero bits in the padding: the least that leaves 64 bits in a block. -/
noncomputable def zeros (length : Nat) : Nat := sInf {count | (length + 1 + count) % 512 = 448}

/-- A message with a one, zeros and its length behind it. -/
noncomputable def pad (message : List Bool) : List Bool :=
  message ++ true :: (List.replicate (zeros message.length) false ++ spell 64 message.length)

/-- The full pieces of a list, one after another. -/
def chunks {α : Type} (size : Nat) (items : List α) : List (List α) :=
  (List.range (items.length / size)).map fun index => (items.drop (size * index)).take size

/-! ### The digest -/

/-- A word of the schedule of a block: sixteen come from the block, the others from those
before them. -/
def schedule (block : List Bool) (index : Nat) : Word :=
  if index < 16 then BitVec.ofNat 32 (number ((block.drop (32 * index)).take 32))
  else
    lowerSigma1 (schedule block (index - 2)) + schedule block (index - 7) +
      lowerSigma0 (schedule block (index - 15)) + schedule block (index - 16)

/-- The eight words that a message is compressed into. -/
structure Chain where
  a : Word
  b : Word
  c : Word
  d : Word
  e : Word
  f : Word
  g : Word
  h : Word

/-- One round with its constant and its word of the schedule. -/
def Chain.round (chain : Chain) (constant word : Word) : Chain :=
  let first := chain.h + upperSigma1 chain.e + choice chain.e chain.f chain.g + constant + word
  let second := upperSigma0 chain.a + majority chain.a chain.b chain.c
  { a := first + second
    b := chain.a
    c := chain.b
    d := chain.c
    e := chain.d + first
    f := chain.e
    g := chain.f
    h := chain.g }

def Chain.add (first second : Chain) : Chain :=
  ⟨first.a + second.a, first.b + second.b, first.c + second.c, first.d + second.d,
    first.e + second.e, first.f + second.f, first.g + second.g, first.h + second.h⟩

/-- The words of the chain before any block, from the square roots of primes. -/
noncomputable def Chain.initial : Chain :=
  let root (index : Nat) := rootBits 2 (Nat.nth Nat.Prime index)
  ⟨root 0, root 1, root 2, root 3, root 4, root 5, root 6, root 7⟩

/-- The chain after a block. -/
noncomputable def Chain.compress (chain : Chain) (block : List Bool) : Chain :=
  chain.add <| (List.range 64).foldl
    (fun words index => words.round (roundConstant index) (schedule block index)) chain

def Chain.words (chain : Chain) : List Word :=
  [chain.a, chain.b, chain.c, chain.d, chain.e, chain.f, chain.g, chain.h]

/-- The digest of a message. -/
noncomputable def digest (message : List Bool) : List Word :=
  ((chunks 512 (pad message)).foldl Chain.compress .initial).words

/-- The hexadecimal digits of a word. -/
def hexDigits (word : Word) : List Char :=
  (List.range 8).map fun index => (word.toNat / 16 ^ (7 - index) % 16).digitChar

/-! ### Roots -/

/-- The bits of a root are those of the integer root of the scaled radicand. -/
theorem rootBits_eq {degree radicand whole bits : Nat} (positive : degree ≠ 0)
    (small : bits < 2 ^ 32)
    (below : (whole * 2 ^ 32 + bits) ^ degree ≤ radicand * (2 ^ 32) ^ degree)
    (above : radicand * (2 ^ 32) ^ degree < (whole * 2 ^ 32 + bits + 1) ^ degree) :
    rootBits degree radicand = BitVec.ofNat 32 bits := by
  have radicandReal : (0 : ℝ) ≤ radicand := Nat.cast_nonneg radicand
  set root : ℝ := (radicand : ℝ) ^ (degree : ℝ)⁻¹ with rootDef
  have rootNonneg : 0 ≤ root := Real.rpow_nonneg radicandReal _
  have scaledNonneg : 0 ≤ root * 2 ^ 32 := by positivity
  have power : (root * 2 ^ 32) ^ degree = radicand * (2 ^ 32) ^ degree := by
    rw [mul_pow, rootDef, Real.rpow_inv_natCast_pow radicandReal positive]
  have lower : ((whole * 2 ^ 32 + bits : Nat) : ℝ) ≤ root * 2 ^ 32 := by
    rw [← pow_le_pow_iff_left₀ (Nat.cast_nonneg _) scaledNonneg positive, power]
    exact_mod_cast below
  have upper : root * 2 ^ 32 < ((whole * 2 ^ 32 + bits + 1 : Nat) : ℝ) := by
    rw [← pow_lt_pow_iff_left₀ scaledNonneg (Nat.cast_nonneg _) positive, power]
    exact_mod_cast above
  have smallReal : ((bits + 1 : Nat) : ℝ) ≤ 2 ^ 32 := by exact_mod_cast small
  have bitsReal : (0 : ℝ) ≤ bits := Nat.cast_nonneg bits
  push_cast at lower upper smallReal
  have floor : ⌊root⌋ = whole := by
    rw [Int.floor_eq_iff]
    constructor
    · push_cast
      nlinarith
    · push_cast
      nlinarith
  have fract : Int.fract root = root - whole := by
    rw [Int.fract, floor, Int.cast_natCast]
  unfold rootBits
  congr 1
  rw [← rootDef, fract, Nat.floor_eq_iff (by nlinarith)]
  constructor <;> linarith

theorem count_eq_length (holds : Nat → Prop) [DecidablePred holds] : ∀ bound : Nat,
    Nat.count holds bound = ((List.range bound).filter (holds ·)).length
  | 0 => rfl
  | bound + 1 => by
    rw [Nat.count_succ, count_eq_length holds bound, List.range_succ, List.filter_append,
      List.length_append]
    by_cases last : holds bound <;> simp [last]

/-- A number below a square is prime when nothing below the root divides it. -/
theorem prime_iff_of_lt_square {root number : Nat} (below : number < root * root) :
    number.Prime ↔ 2 ≤ number ∧ ∀ factor < root, 2 ≤ factor → factor < number →
      ¬factor ∣ number := by
  constructor
  · intro prime
    refine ⟨prime.two_le, fun factor _ proper smaller divides => ?_⟩
    rcases (Nat.dvd_prime prime).mp divides with one | all <;> omega
  · rintro ⟨two, indivisible⟩
    refine Nat.prime_def_le_sqrt.mpr ⟨two, fun factor proper bounded => ?_⟩
    have square : factor * factor ≤ number := Nat.le_sqrt.mp bounded
    have double := Nat.mul_le_mul_right factor proper
    refine indivisible factor ?_ proper (by omega)
    by_contra large
    have above := Nat.mul_le_mul (Nat.le_of_not_lt large) (Nat.le_of_not_lt large)
    omega

/-- A list of all primes below a bound numbers its members. -/
theorem nth_prime_eq {bound : Nat} {primes : List Nat}
    (complete : (List.range bound).filter (Nat.Prime ·) = primes) {prime : Nat}
    (member : prime ∈ primes) :
    Nat.nth Nat.Prime (primes.filter (· < prime)).length = prime := by
  rw [← complete, List.mem_filter, List.mem_range, decide_eq_true_eq] at member
  have before : (List.range prime).filter (Nat.Prime ·) = primes.filter (· < prime) := by
    obtain ⟨later, rfl⟩ := Nat.exists_eq_add_of_lt member.1
    rw [← complete, Nat.add_assoc, List.range_add, List.filter_append, List.filter_append]
    have low : ((List.range prime).filter (Nat.Prime ·)).filter (· < prime) =
        (List.range prime).filter (Nat.Prime ·) := by
      refine List.filter_eq_self.mpr fun number inside => ?_
      rw [decide_eq_true_eq]
      exact List.mem_range.mp (List.mem_filter.mp inside).1
    have high : (((List.range (later + 1)).map (prime + ·)).filter (Nat.Prime ·)).filter
        (· < prime) = [] := by
      refine List.filter_eq_nil_iff.mpr fun number inside => ?_
      obtain ⟨offset, -, rfl⟩ := List.mem_map.mp (List.mem_filter.mp inside).1
      rw [decide_eq_true_eq]
      omega
    rw [low, high, List.append_nil]
  rw [← before, ← count_eq_length, Nat.nth_count member.2]

/-! ### Bits of numbers -/

theorem number_concat (bits : List Bool) (last : Bool) :
    number (bits ++ [last]) = 2 * number bits + last.toNat := by
  rw [number, List.foldl_append]
  rfl

theorem number_append (high : List Bool) : ∀ low : List Bool,
    number (high ++ low) = number high * 2 ^ low.length + number low := by
  intro low
  induction low using List.reverseRecOn with
  | nil => simp [number]
  | append_singleton low last inductionHypothesis =>
    rw [← List.append_assoc, number_concat, inductionHypothesis, number_concat,
      List.length_append, List.length_singleton, pow_succ]
    ring

@[simp] theorem spell_length (width value : Nat) : (spell width value).length = width := by
  simp [spell]

theorem spell_concat (width value : Nat) :
    spell (width + 1) value = spell width (value / 2) ++ [value.testBit 0] := by
  unfold spell
  rw [List.range_succ, List.map_append]
  congr 1
  · refine List.map_congr_left fun index inside => ?_
    rw [List.mem_range] at inside
    rw [← Nat.testBit_succ]
    congr 1
    omega
  · simp

/-- A number is spelled by its upper bits and its lower ones. -/
theorem spell_append (high : Nat) : ∀ low value : Nat,
    spell (high + low) value = spell high (value / 2 ^ low) ++ spell low value
  | 0, value => by simp [spell]
  | low + 1, value => by
    rw [← Nat.add_assoc, spell_concat, spell_append high low, spell_concat low, List.append_assoc,
      Nat.div_div_eq_div_mul, ← pow_succ']

/-- The lowest bits of a number spell its remainder. -/
theorem number_spell : ∀ width value : Nat, number (spell width value) = value % 2 ^ width
  | 0, value => by simp [spell, number, Nat.mod_one]
  | width + 1, value => by
    rw [spell_concat, number_concat, number_spell width, Nat.testBit_zero, pow_succ',
      Nat.mod_mul]
    rcases Nat.mod_two_eq_zero_or_one value with even | odd
    · rw [even]
      simp
    · rw [odd]
      simp [Nat.add_comm]

theorem spell_mod (width value : Nat) : spell width (value % 2 ^ width) = spell width value := by
  refine List.map_congr_left fun index inside => ?_
  rw [List.mem_range] at inside
  rw [Nat.testBit_mod_two_pow, decide_eq_true (show width - 1 - index < width by omega),
    Bool.true_and]

/-! ### Messages of whole bytes -/

/-- The bits of bytes. -/
def byteBits (bytes : List UInt8) : List Bool := bytes.flatMap fun byte => spell 8 byte.toNat

@[simp] theorem byteBits_nil : byteBits [] = [] := rfl

theorem byteBits_cons (byte : UInt8) (rest : List UInt8) :
    byteBits (byte :: rest) = spell 8 byte.toNat ++ byteBits rest := rfl

@[simp] theorem byteBits_append (first second : List UInt8) :
    byteBits (first ++ second) = byteBits first ++ byteBits second := List.flatMap_append

@[simp] theorem byteBits_length : ∀ bytes : List UInt8, (byteBits bytes).length = 8 * bytes.length
  | [] => rfl
  | byte :: rest => by
    rw [byteBits_cons, List.length_append, spell_length, byteBits_length rest, List.length_cons]
    omega

theorem byteBits_flatten (pieces : List (List UInt8)) :
    byteBits pieces.flatten = (pieces.map byteBits).flatten := by
  induction pieces with
  | nil => rfl
  | cons piece rest inductionHypothesis =>
    rw [List.flatten_cons, byteBits_append, inductionHypothesis, List.map_cons, List.flatten_cons]

theorem byteBits_drop : ∀ (count : Nat) (bytes : List UInt8),
    byteBits (bytes.drop count) = (byteBits bytes).drop (8 * count)
  | 0, _ => rfl
  | count + 1, [] => by simp
  | count + 1, byte :: rest => by
    rw [List.drop_succ_cons, byteBits_drop count rest, byteBits_cons, Nat.mul_succ, Nat.add_comm,
      ← List.drop_drop, List.drop_left' (spell_length 8 _)]

theorem byteBits_take : ∀ (count : Nat) (bytes : List UInt8),
    byteBits (bytes.take count) = (byteBits bytes).take (8 * count)
  | 0, _ => rfl
  | count + 1, [] => by simp
  | count + 1, byte :: rest => by
    have whole : (spell 8 byte.toNat).take (8 + 8 * count) = spell 8 byte.toNat :=
      List.take_of_length_le (by rw [spell_length]; omega)
    rw [List.take_succ_cons, byteBits_cons, byteBits_take count rest, byteBits_cons, Nat.mul_succ,
      Nat.add_comm, List.take_append, whole, spell_length, Nat.add_sub_cancel_left]

theorem byteBits_replicate_zero (count : Nat) :
    byteBits (List.replicate count 0) = List.replicate (8 * count) false := by
  induction count with
  | zero => rfl
  | succ count inductionHypothesis =>
    rw [List.replicate_succ, byteBits_cons, inductionHypothesis, Nat.mul_succ, Nat.add_comm,
      List.replicate_add]
    rfl

/-- The word at the front of bytes. -/
theorem number_byteBits_four (first second third fourth : UInt8) :
    number (byteBits [first, second, third, fourth]) =
      first.toNat * 2 ^ 24 + second.toNat * 2 ^ 16 + third.toNat * 2 ^ 8 + fourth.toNat := by
  have firstSmall := first.toNat_lt
  have secondSmall := second.toNat_lt
  have thirdSmall := third.toNat_lt
  have fourthSmall := fourth.toNat_lt
  simp only [byteBits_cons, byteBits_nil, List.append_nil, number_append, number_spell,
    List.length_append, spell_length, Nat.mod_eq_of_lt firstSmall, Nat.mod_eq_of_lt secondSmall,
    Nat.mod_eq_of_lt thirdSmall, Nat.mod_eq_of_lt fourthSmall]
  omega

/-- The bytes of a number, the most significant first. -/
theorem spell_bytes : ∀ count value : Nat,
    spell (8 * count) value =
      byteBits ((List.range count).map fun index =>
        UInt8.ofNat (value / 2 ^ (8 * (count - 1 - index))))
  | 0, _ => rfl
  | count + 1, value => by
    have upper : ∀ index < count,
        value / 2 ^ 8 / 2 ^ (8 * (count - 1 - index)) =
          value / 2 ^ (8 * (count + 1 - 1 - index)) := by
      intro index inside
      rw [Nat.div_div_eq_div_mul, ← pow_add]
      congr 2
      omega
    rw [Nat.mul_succ, spell_append, spell_bytes count, List.range_succ, List.map_append,
      byteBits_append]
    congr 1
    · congr 1
      refine List.map_congr_left fun index inside => ?_
      rw [upper index (List.mem_range.mp inside)]
    · rw [List.map_singleton, byteBits_cons, byteBits_nil, List.append_nil, UInt8.toNat_ofNat',
        spell_mod]
      simp

/-! ### Padding and blocks -/

theorem zeros_eq (length : Nat) : zeros length = (959 - length % 512) % 512 := by
  have member : (959 - length % 512) % 512 ∈ {count | (length + 1 + count) % 512 = 448} := by
    rw [Set.mem_ofPred_eq]
    omega
  refine Nat.le_antisymm (Nat.sInf_le member) ?_
  have least := Nat.sInf_mem ⟨_, member⟩
  rw [Set.mem_ofPred_eq] at least
  unfold zeros
  omega

theorem chunks_append {α : Type} {size : Nat} {piece : List α} (positive : 0 < size)
    (sized : piece.length = size) (rest : List α) :
    chunks size (piece ++ rest) = piece :: chunks size rest := by
  have count : (piece ++ rest).length / size = rest.length / size + 1 := by
    rw [List.length_append, sized, Nat.add_comm, Nat.add_div_right _ positive]
  unfold chunks
  rw [count, List.range_succ_eq_map, List.map_cons, Nat.mul_zero, List.drop_zero,
    List.take_left' sized, List.map_map]
  congr 1
  refine List.map_congr_left fun index _ => ?_
  rw [Function.comp_apply, Nat.mul_succ, Nat.add_comm, ← sized, ← List.drop_drop,
    List.drop_left]

/-- Lists of one length are the pieces of what they and a shorter rest make up. -/
theorem chunks_flatten_append {α : Type} {size : Nat} {tail : List α}
    (short : tail.length < size) : ∀ {pieces : List (List α)},
    (∀ piece ∈ pieces, piece.length = size) → chunks size (pieces.flatten ++ tail) = pieces
  | [], _ => by
    rw [List.flatten_nil, List.nil_append, chunks, Nat.div_eq_of_lt short]
    rfl
  | piece :: rest, sized => by
    rw [List.forall_mem_cons] at sized
    rw [List.flatten_cons, List.append_assoc, chunks_append (Nat.zero_lt_of_lt short) sized.1,
      chunks_flatten_append short sized.2]

/-- The blocks of a message of whole bytes are its pieces of 64 bytes. -/
theorem chunks_byteBits {pieces : List (List UInt8)} (sized : ∀ piece ∈ pieces, piece.length = 64) :
    chunks 512 (byteBits pieces.flatten) = pieces.map byteBits := by
  have whole := @chunks_flatten_append Bool 512 [] (by decide) (pieces.map byteBits)
    fun bits member => by
    obtain ⟨piece, inside, rfl⟩ := List.mem_map.mp member
    rw [byteBits_length, sized piece inside]
  rwa [List.append_nil, ← byteBits_flatten] at whole

/-- The padding of a message of whole bytes is made of bytes. -/
theorem pad_byteBits (bytes : List UInt8) :
    pad (byteBits bytes) = byteBits (bytes ++ 0x80 ::
      (List.replicate ((119 - bytes.length % 64) % 64) 0 ++ (List.range 8).map fun index =>
        UInt8.ofNat (8 * bytes.length / 2 ^ (8 * (7 - index))))) := by
  have marker : spell 8 (0x80 : UInt8).toNat = true :: List.replicate 7 false := rfl
  have count : zeros (8 * bytes.length) = 7 + 8 * ((119 - bytes.length % 64) % 64) := by
    rw [zeros_eq]
    omega
  rw [pad, byteBits_length, count, List.replicate_add, show (64 : Nat) = 8 * 8 from rfl,
    spell_bytes 8, byteBits_append, byteBits_cons, marker, byteBits_append,
    byteBits_replicate_zero]
  simp only [List.append_assoc, List.cons_append]

end Foundation.SecureHash
