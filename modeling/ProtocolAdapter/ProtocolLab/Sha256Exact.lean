/-
This file proves that the evidence hash is the digest of the secure hash standard. The table
of round constants is the one the standard derives from primes, the schedule and the rounds
are those of the standard on bytes instead of bits, and bytes that are absorbed in any pieces
leave the chain of the full blocks and the rest in the buffer.
-/

import ProtocolAdapter.Foundation.SecureHash
import ProtocolAdapter.ProtocolLab.Sha256

namespace ProtocolAdapter.ProtocolLab

open Foundation Foundation.ByteText Foundation.SecureHash

/-- The words as a chain of the standard. -/
def Words.chain (words : Words) : Chain :=
  ⟨words.a.toBitVec, words.b.toBitVec, words.c.toBitVec, words.d.toBitVec, words.e.toBitVec,
    words.f.toBitVec, words.g.toBitVec, words.h.toBitVec⟩

/-! ### Constants -/

/-- The first 64 primes. -/
def firstPrimes : List Nat :=
  [2, 3, 5, 7, 11, 13, 17, 19, 23, 29, 31, 37, 41, 43, 47, 53, 59, 61, 67, 71, 73, 79, 83, 89, 97,
    101, 103, 107, 109, 113, 127, 131, 137, 139, 149, 151, 157, 163, 167, 173, 179, 181, 191, 193,
    197, 199, 211, 223, 227, 229, 233, 239, 241, 251, 257, 263, 269, 271, 277, 281, 283, 293, 307,
    311]

theorem firstPrimes_complete : (List.range 312).filter (Nat.Prime ·) = firstPrimes := by
  have sieved : (List.range 312).filter (fun number => 2 ≤ number ∧ ∀ factor < 18, 2 ≤ factor →
      factor < number → ¬factor ∣ number) = firstPrimes := by
    decide +kernel
  rw [← sieved]
  refine List.filter_congr fun number inside => ?_
  have below := List.mem_range.mp inside
  rw [decide_eq_decide]
  exact @prime_iff_of_lt_square 18 number (by omega)

/-- The primes in their order. -/
theorem nth_prime {index : Nat} (inside : index < 64) :
    Nat.nth Nat.Prime index = firstPrimes.getD index 0 := by
  have before : firstPrimes.map (fun prime => (firstPrimes.filter (· < prime)).length) =
      List.range 64 := rfl
  have placed : index < firstPrimes.length := inside
  have smaller : (firstPrimes.filter (· < firstPrimes[index])).length = index := by
    have entry := congrArg (fun counts => counts[index]?) before
    simpa only [List.getElem?_map, List.getElem?_eq_getElem placed, Option.map_some,
      List.getElem?_range inside, Option.some.injEq] using entry
  rw [List.getD_eq_getElem _ _ placed,
    ← nth_prime_eq firstPrimes_complete (List.getElem_mem placed), smaller]

/-- The table holds the fractional bits of the cube roots. -/
theorem kSha256Constants_getD {index : Nat} (inside : index < 64) :
    (kSha256Constants.getD index 0).toBitVec = roundConstant index := by
  have root : ∀ index < 64, ∃ whole < 7,
      (whole * 2 ^ 32 + (kSha256Constants.getD index 0).toNat) ^ 3 ≤
          firstPrimes.getD index 0 * (2 ^ 32) ^ 3 ∧
        firstPrimes.getD index 0 * (2 ^ 32) ^ 3 <
          (whole * 2 ^ 32 + (kSha256Constants.getD index 0).toNat + 1) ^ 3 := by
    decide +kernel
  obtain ⟨whole, -, below, above⟩ := root index inside
  rw [roundConstant, nth_prime inside,
    rootBits_eq (by decide) (UInt32.toNat_lt _) below above]
  exact ((BitVec.ofNat_toNat 32 _).trans (BitVec.setWidth_eq _)).symm

/-- The words a digest starts from hold the fractional bits of the square roots. -/
theorem initialWords_chain : initialWords.chain = .initial := by
  have root : ∀ {index whole bits : Nat}, index < 64 → bits < 2 ^ 32 →
      (whole * 2 ^ 32 + bits) ^ 2 ≤ firstPrimes.getD index 0 * (2 ^ 32) ^ 2 →
      firstPrimes.getD index 0 * (2 ^ 32) ^ 2 < (whole * 2 ^ 32 + bits + 1) ^ 2 →
      BitVec.ofNat 32 bits = rootBits 2 (Nat.nth Nat.Prime index) := by
    intro index whole bits inside small below above
    rw [nth_prime inside, rootBits_eq (by decide) small below above]
  unfold Words.chain initialWords Chain.initial
  congr 1
  · exact @root 0 1 0x6A09E667 (by decide) (by decide) (by decide) (by decide)
  · exact @root 1 1 0xBB67AE85 (by decide) (by decide) (by decide) (by decide)
  · exact @root 2 2 0x3C6EF372 (by decide) (by decide) (by decide) (by decide)
  · exact @root 3 2 0xA54FF53A (by decide) (by decide) (by decide) (by decide)
  · exact @root 4 3 0x510E527F (by decide) (by decide) (by decide) (by decide)
  · exact @root 5 3 0x9B05688C (by decide) (by decide) (by decide) (by decide)
  · exact @root 6 4 0x1F83D9AB (by decide) (by decide) (by decide) (by decide)
  · exact @root 7 4 0x5BE0CD19 (by decide) (by decide) (by decide) (by decide)

/-! ### Rounds and schedules -/

theorem toBitVec_rotateRight {value count : UInt32} (positive : 0 < count.toNat)
    (below : count.toNat < 32) :
    (rotateRight value count).toBitVec = value.toBitVec.rotateRight count.toNat := by
  have opposite : (32 - count).toNat = 32 - count.toNat := by
    rw [UInt32.toNat_sub_of_le _ _ (UInt32.le_iff_toNat_le.mpr below.le)]
    rfl
  have reduced : (count.toBitVec % 32#32).toNat = count.toNat := Nat.mod_eq_of_lt below
  have complement : ((32 - count).toBitVec % 32#32).toNat = 32 - count.toNat := by
    change (32 - count).toNat % 32 = _
    rw [opposite, Nat.mod_eq_of_lt (by omega)]
  rw [rotateRight, UInt32.toBitVec_or, UInt32.toBitVec_shiftRight, UInt32.toBitVec_shiftLeft,
    BitVec.ushiftRight_eq', BitVec.shiftLeft_eq', BitVec.rotateRight_def,
    Nat.mod_eq_of_lt below]
  exact congrArg₂ (fun right left => value.toBitVec >>> right ||| value.toBitVec <<< left)
    reduced complement

theorem round_chain (words : Words) (constant word : UInt32) :
    (round words (constant, word)).chain = words.chain.round constant.toBitVec word.toBitVec := by
  unfold round Words.chain Chain.round upperSigma0 upperSigma1 choice majority
  simp only [UInt32.toBitVec_add, UInt32.toBitVec_xor, UInt32.toBitVec_and, UInt32.toBitVec_not,
    @toBitVec_rotateRight words.a 2 (by decide) (by decide),
    @toBitVec_rotateRight words.a 13 (by decide) (by decide),
    @toBitVec_rotateRight words.a 22 (by decide) (by decide),
    @toBitVec_rotateRight words.e 6 (by decide) (by decide),
    @toBitVec_rotateRight words.e 11 (by decide) (by decide),
    @toBitVec_rotateRight words.e 25 (by decide) (by decide)]
  rfl

/-- A word is put together from its bytes. -/
theorem word_eq (first second third fourth : UInt8) :
    (first.toUInt32 <<< 24 ||| second.toUInt32 <<< 16 ||| third.toUInt32 <<< 8 |||
        fourth.toUInt32) =
      UInt32.ofNat (first.toNat * 2 ^ 24 + second.toNat * 2 ^ 16 + third.toNat * 2 ^ 8 +
        fourth.toNat) := by
  have firstSmall := first.toNat_lt
  have secondSmall := second.toNat_lt
  have thirdSmall := third.toNat_lt
  have fourthSmall := fourth.toNat_lt
  have shifted : ∀ (byte : UInt8) (count : UInt32), count.toNat ≤ 24 →
      (byte.toUInt32 <<< count).toNat = byte.toNat * 2 ^ count.toNat := by
    intro byte count near
    have small := byte.toNat_lt
    have bound : byte.toNat * 2 ^ count.toNat < 2 ^ 8 * 2 ^ 24 :=
      Nat.mul_lt_mul_of_lt_of_le small (Nat.pow_le_pow_right (by decide) near) (by decide)
    have turn : count.toNat % 32 = count.toNat := Nat.mod_eq_of_lt (by omega)
    rw [UInt32.toNat_shiftLeft, UInt8.toNat_toUInt32, turn, Nat.shiftLeft_eq,
      Nat.mod_eq_of_lt (show _ < 2 ^ 32 from bound)]
  have joined : ∀ {high low count : Nat}, low < 2 ^ count →
      high * 2 ^ count ||| low = high * 2 ^ count + low := by
    intro high low count below
    rw [← Nat.shiftLeft_eq, Nat.shiftLeft_add_eq_or_of_lt below]
  refine UInt32.toNat_inj.mp ?_
  rw [UInt32.toNat_or, UInt32.toNat_or, UInt32.toNat_or, shifted _ _ (by decide),
    shifted _ _ (by decide), shifted _ _ (by decide), UInt8.toNat_toUInt32, Nat.or_assoc,
    Nat.or_assoc]
  change first.toNat * 2 ^ 24 |||
    (second.toNat * 2 ^ 16 ||| (third.toNat * 2 ^ 8 ||| fourth.toNat)) = _
  rw [joined fourthSmall,
    joined (show third.toNat * 2 ^ 8 + fourth.toNat < 2 ^ 16 by omega),
    joined (show second.toNat * 2 ^ 16 + (third.toNat * 2 ^ 8 + fourth.toNat) < 2 ^ 24 by omega),
    UInt32.toNat_ofNat', Nat.mod_eq_of_lt (by omega)]
  omega

/-- The words of a block are those of its bits. -/
theorem blockWords_eq : ∀ (count : Nat) {block : List UInt8}, block.length = 4 * count →
    blockWords block = (List.range count).map fun index =>
      UInt32.ofNat (number (byteBits ((block.drop (4 * index)).take 4)))
  | 0, [], _ => rfl
  | 0, _ :: _, sized => by simp at sized
  | count + 1, first :: second :: third :: fourth :: rest, sized => by
    have tail := blockWords_eq count (show rest.length = 4 * count by
      simp only [List.length_cons] at sized
      omega)
    rw [blockWords, tail, List.range_succ_eq_map, List.map_cons, List.map_map]
    congr 1
    rw [Nat.mul_zero, List.drop_zero]
    change _ = UInt32.ofNat (number (byteBits [first, second, third, fourth]))
    rw [number_byteBits_four, word_eq]
  | count + 1, [], sized => by simp at sized
  | count + 1, [_], sized => by simp at sized; omega
  | count + 1, [_, _], sized => by simp at sized; omega
  | count + 1, [_, _, _], sized => by simp at sized; omega

/-- The next word of the schedule follows from the words before it. -/
theorem nextWord_eq (block : List UInt8) {count : Nat} (begun : 16 ≤ count) :
    nextWord ((List.range count).map fun index =>
        UInt32.ofBitVec (SecureHash.schedule (byteBits block) index)) =
      UInt32.ofBitVec (SecureHash.schedule (byteBits block) count) := by
  have back : ∀ distance, 0 < distance → distance ≤ 16 →
      ((List.range count).map fun index =>
        UInt32.ofBitVec (SecureHash.schedule (byteBits block) index)).getD (count - distance) 0 =
      UInt32.ofBitVec (SecureHash.schedule (byteBits block) (count - distance)) := by
    intro distance positive near
    rw [List.getD_eq_getElem _ _ (by simp; omega), List.getElem_map, List.getElem_range]
  have unfolded : SecureHash.schedule (byteBits block) count =
      lowerSigma1 (SecureHash.schedule (byteBits block) (count - 2)) +
        SecureHash.schedule (byteBits block) (count - 7) +
        lowerSigma0 (SecureHash.schedule (byteBits block) (count - 15)) +
        SecureHash.schedule (byteBits block) (count - 16) := by
    rw [SecureHash.schedule, if_neg (by omega)]
  unfold nextWord
  simp only [List.length_map, List.length_range]
  rw [back 15 (by decide) (by decide), back 2 (by decide) (by decide),
    back 16 (by decide) (by decide), back 7 (by decide) (by decide), ← UInt32.toBitVec_inj,
    unfolded]
  simp only [UInt32.toBitVec_add, UInt32.toBitVec_xor,
    @toBitVec_rotateRight _ 7 (by decide) (by decide),
    @toBitVec_rotateRight _ 18 (by decide) (by decide),
    @toBitVec_rotateRight _ 17 (by decide) (by decide),
    @toBitVec_rotateRight _ 19 (by decide) (by decide)]
  generalize SecureHash.schedule (byteBits block) (count - 15) = w15
  generalize SecureHash.schedule (byteBits block) (count - 16) = w16
  generalize SecureHash.schedule (byteBits block) (count - 7) = w7
  generalize SecureHash.schedule (byteBits block) (count - 2) = w2
  change w16 + lowerSigma0 w15 + w7 + lowerSigma1 w2 = lowerSigma1 w2 + w7 + lowerSigma0 w15 + w16
  ac_rfl

/-- The schedule of a block is that of its bits. -/
theorem schedule_eq {block : List UInt8} (sized : block.length = 64) :
    schedule block = (List.range 64).map fun index =>
      UInt32.ofBitVec (SecureHash.schedule (byteBits block) index) := by
  have start : blockWords block = (List.range 16).map fun index =>
      UInt32.ofBitVec (SecureHash.schedule (byteBits block) index) := by
    rw [blockWords_eq 16 sized]
    refine List.map_congr_left fun index inside => ?_
    rw [SecureHash.schedule, if_pos (List.mem_range.mp inside), byteBits_take, byteBits_drop,
      ← Nat.mul_assoc]
    rfl
  have grown : ∀ count, (List.range count).foldl (fun words _ => words ++ [nextWord words])
      (blockWords block) = (List.range (16 + count)).map fun index =>
        UInt32.ofBitVec (SecureHash.schedule (byteBits block) index) := by
    intro count
    induction count with
    | zero => exact start
    | succ count inductionHypothesis =>
      rw [List.range_succ, List.foldl_append, inductionHypothesis, List.foldl_cons,
        List.foldl_nil, nextWord_eq block (Nat.le_add_right _ _), ← Nat.add_assoc,
        List.range_succ, List.map_append, List.map_singleton]
  exact grown 48

/-- A block is compressed as its bits are. -/
theorem transform_chain (state : Words) {block : List UInt8} (sized : block.length = 64) :
    (transform state block).chain = state.chain.compress (byteBits block) := by
  have constants : kSha256Constants = (List.range 64).map fun index =>
      kSha256Constants.getD index 0 := rfl
  have rounds : ∀ (indices : List Nat) (words : Words), (∀ index ∈ indices, index < 64) →
      (indices.foldl (fun words index => round words (kSha256Constants.getD index 0,
        UInt32.ofBitVec (SecureHash.schedule (byteBits block) index))) words).chain =
      indices.foldl (fun words index => words.round (roundConstant index)
        (SecureHash.schedule (byteBits block) index)) words.chain := by
    intro indices
    induction indices with
    | nil => exact fun _ _ => rfl
    | cons index rest inductionHypothesis =>
      intro words inside
      rw [List.forall_mem_cons] at inside
      rw [List.foldl_cons, List.foldl_cons, inductionHypothesis _ inside.2, round_chain,
        kSha256Constants_getD inside.1]
  have final := rounds (List.range 64) state fun index => List.mem_range.mp
  unfold transform Chain.compress
  rw [constants, schedule_eq sized, List.zip_map', List.foldl_map, ← final]
  rfl

/-! ### Absorbing bytes -/

/-- What a digest in progress has absorbed: full blocks, which are in the words, and a rest,
which is in the buffer. -/
structure Absorbed (hash : Sha256) (blocks : List (List UInt8)) (data : List UInt8) : Prop where
  sized : ∀ block ∈ blocks, block.length = 64
  short : hash.buffer.length < 64
  split : data = blocks.flatten ++ hash.buffer
  state : hash.state = blocks.foldl transform initialWords

theorem absorbed_nil : Absorbed {} [] [] := ⟨nofun, by decide, rfl, rfl⟩

/-- Bytes determine the blocks they were absorbed in. -/
theorem Absorbed.blocks_eq {hash : Sha256} {blocks : List (List UInt8)} {data : List UInt8}
    (absorbed : Absorbed hash blocks data) : blocks = chunks 64 data := by
  rw [absorbed.split, chunks_flatten_append absorbed.short absorbed.sized]

/-- Bytes and their number determine the digest in progress. -/
theorem Absorbed.unique {first second : Sha256} {firstBlocks secondBlocks : List (List UInt8)}
    {data : List UInt8} (one : Absorbed first firstBlocks data)
    (other : Absorbed second secondBlocks data) (total : first.totalBytes = second.totalBytes) :
    first = second := by
  have blocks : firstBlocks = secondBlocks := one.blocks_eq.trans other.blocks_eq.symm
  have state := one.state
  have buffer := one.split
  rw [blocks, ← other.state] at state
  rw [other.split, blocks] at buffer
  have rest := List.append_cancel_left buffer
  obtain ⟨state₁, buffer₁, total₁⟩ := first
  obtain ⟨state₂, buffer₂, total₂⟩ := second
  simp only at state rest total
  rw [state, rest, total]

/-- Bytes that do not fill the block only join the buffer. -/
theorem Absorbed.buffered {hash : Sha256} {blocks : List (List UInt8)} {data : List UInt8}
    (absorbed : Absorbed hash blocks data) {piece : List UInt8}
    (short : (hash.buffer ++ piece).length < 64) :
    Absorbed { hash with buffer := hash.buffer ++ piece } blocks (data ++ piece) where
  sized := absorbed.sized
  short := short
  split := by rw [absorbed.split, List.append_assoc]
  state := absorbed.state

/-- Bytes that fill the block make it one of the words. -/
theorem Absorbed.filled {hash : Sha256} {blocks : List (List UInt8)} {data : List UInt8}
    (absorbed : Absorbed hash blocks data) {piece : List UInt8}
    (full : (hash.buffer ++ piece).length = 64) :
    Absorbed
      { hash with
        state := transform hash.state (hash.buffer ++ piece)
        buffer := [] }
      (blocks ++ [hash.buffer ++ piece]) (data ++ piece) where
  sized block member := by
    rcases List.mem_append.mp member with before | last
    · exact absorbed.sized block before
    · rw [List.mem_singleton.mp last, full]
  short := by
    show 0 < 64
    decide
  split := by
    rw [absorbed.split, List.flatten_append, List.flatten_singleton, List.append_nil,
      List.append_assoc]
  state := by
    rw [List.foldl_append, ← absorbed.state]
    rfl

/-- Absorbing keeps what was absorbed before and adds the bytes. -/
theorem Absorbed.absorb : ∀ (rounds : Nat) {hash : Sha256} {blocks : List (List UInt8)}
    {past data : List UInt8}, data.length ≤ rounds → Absorbed hash blocks past →
    ∃ blocks, Absorbed (hash.absorb rounds data) blocks (past ++ data)
  | 0, _, blocks, _, [], _, absorbed => ⟨blocks, by rwa [List.append_nil]⟩
  | rounds + 1, hash, blocks, past, data, enough, absorbed => by
    have short := absorbed.short
    unfold Sha256.absorb
    by_cases empty : data = []
    · rw [if_pos empty, empty, List.append_nil]
      exact ⟨blocks, absorbed⟩
    have nonempty := List.length_pos_of_ne_nil empty
    rw [if_neg empty]
    generalize count : min data.length (64 - hash.buffer.length) = copied
    have whole : past ++ data = past ++ data.take copied ++ data.drop copied := by
      rw [List.append_assoc, List.take_append_drop]
    have joined : (hash.buffer ++ data.take copied).length = hash.buffer.length + copied := by
      rw [List.length_append, List.length_take]
      omega
    have fewer : (data.drop copied).length ≤ rounds := by
      rw [List.length_drop]
      omega
    simp only
    rw [whole]
    by_cases full : (hash.buffer ++ data.take copied).length = 64
    · rw [if_pos full]
      exact absorb rounds fewer (absorbed.filled full)
    · rw [if_neg full]
      exact absorb rounds fewer (absorbed.buffered (by omega))

@[simp] theorem absorb_totalBytes : ∀ (rounds : Nat) (hash : Sha256) (data : List UInt8),
    (hash.absorb rounds data).totalBytes = hash.totalBytes
  | 0, _, _ => rfl
  | rounds + 1, hash, data => by
    unfold Sha256.absorb
    by_cases empty : data = []
    · rw [if_pos empty]
    · rw [if_neg empty]
      simp only
      rw [absorb_totalBytes rounds]
      split <;> rfl

/-- An update absorbs its bytes and counts them. -/
theorem Absorbed.update {hash : Sha256} {blocks : List (List UInt8)} {past : List UInt8}
    (absorbed : Absorbed hash blocks past) (data : List UInt8) :
    ∃ blocks, Absorbed (hash.update data) blocks (past ++ data) :=
  Absorbed.absorb data.length (Nat.le_refl _)
    ⟨absorbed.sized, absorbed.short, absorbed.split, absorbed.state⟩

theorem update_totalBytes (hash : Sha256) (data : List UInt8) :
    (hash.update data).totalBytes = hash.totalBytes + UInt64.ofNat data.length :=
  absorb_totalBytes _ _ _

/-- Updates absorb all their pieces. -/
theorem Absorbed.updates : ∀ (pieces : List (List UInt8)) {hash : Sha256}
    {blocks : List (List UInt8)} {past : List UInt8}, Absorbed hash blocks past →
    hash.totalBytes = UInt64.ofNat past.length →
    ∃ blocks, Absorbed (pieces.foldl Sha256.update hash) blocks (past ++ pieces.flatten) ∧
      (pieces.foldl Sha256.update hash).totalBytes =
        UInt64.ofNat (past ++ pieces.flatten).length
  | [], _, blocks, past, absorbed, total => by
    rw [List.flatten_nil, List.append_nil]
    exact ⟨blocks, absorbed, total⟩
  | piece :: rest, hash, _, past, absorbed, total => by
    obtain ⟨blocks, next⟩ := absorbed.update piece
    rw [List.foldl_cons, List.flatten_cons, ← List.append_assoc]
    refine updates rest next ?_
    rw [update_totalBytes, total, List.length_append, UInt64.ofNat_add]

/-! ### The digest -/

/-- The chain of blocks is the one of their bits. -/
theorem foldl_transform_chain : ∀ (blocks : List (List UInt8)) (state : Words),
    (∀ block ∈ blocks, block.length = 64) →
    (blocks.foldl transform state).chain = (blocks.map byteBits).foldl Chain.compress state.chain
  | [], _, _ => rfl
  | block :: rest, state, sized => by
    rw [List.forall_mem_cons] at sized
    rw [List.foldl_cons, List.map_cons, List.foldl_cons, ← transform_chain state sized.1,
      foldl_transform_chain rest _ sized.2]

theorem lengthBytes_eq {length : Nat} (short : length < 2 ^ 61) :
    Sha256.lengthBytes (UInt64.ofNat length * 8) =
      (List.range 8).map fun index => UInt8.ofNat (8 * length / 2 ^ (8 * (7 - index))) := by
  have total : (UInt64.ofNat length * 8).toNat = 8 * length := by
    have eight : (8 : UInt64).toNat = 8 := rfl
    rw [UInt64.toNat_mul, UInt64.toNat_ofNat', eight,
      Nat.mod_eq_of_lt (show length < 2 ^ 64 by omega), Nat.mul_comm,
      Nat.mod_eq_of_lt (by omega)]
  refine List.map_congr_left fun index _ => ?_
  have shift : (UInt64.ofNat ((7 - index) * 8)).toNat % 64 = 8 * (7 - index) := by
    rw [UInt64.toNat_ofNat', Nat.mod_eq_of_lt (by omega), Nat.mul_comm, Nat.mod_eq_of_lt (by omega)]
  refine UInt8.toNat_inj.mp ?_
  rw [UInt64.toNat_toUInt8, UInt64.toNat_shiftRight, total, shift, Nat.shiftRight_eq_div_pow,
    UInt8.toNat_ofNat']

/-- The bytes of the words. -/
def Words.bytes (words : Words) : List UInt8 :=
  [words.a, words.b, words.c, words.d, words.e, words.f, words.g, words.h].flatMap Sha256.wordBytes

/-- The bytes behind a message. -/
def Sha256.padding (hash : Sha256) : List UInt8 :=
  0x80 :: (List.replicate ((119 - hash.buffer.length) % 64) 0 ++
    lengthBytes (hash.totalBytes * 8))

/-- The digest absorbs the buffer and the padding as whole blocks. -/
theorem final_eq {hash : Sha256} (below : hash.buffer.length < 64) :
    ∃ last : List (List UInt8), (∀ block ∈ last, block.length = 64) ∧
      last.flatten = hash.buffer ++ hash.padding ∧
      hash.final = (last.foldl transform hash.state).bytes := by
  have lengthSize : (Sha256.lengthBytes (hash.totalBytes * 8)).length = 8 := rfl
  have marked : (hash.buffer ++ [0x80]).length = hash.buffer.length + 1 := List.length_append
  by_cases crowded : (hash.buffer ++ [0x80]).length > 56
  · refine ⟨[hash.buffer ++ [0x80] ++ List.replicate (64 - (hash.buffer ++ [0x80]).length) 0,
      [] ++ List.replicate (56 - ([] : List UInt8).length) 0 ++
        Sha256.lengthBytes (hash.totalBytes * 8)], ?_, ?_, ?_⟩
    · simp only [List.forall_mem_cons, List.length_append, List.length_replicate,
        List.length_singleton, List.length_nil, lengthSize]
      exact ⟨by omega, by decide, nofun⟩
    · have zeros : (119 - hash.buffer.length) % 64 =
          (64 - (hash.buffer ++ [0x80]).length) + 56 := by
        omega
      rw [Sha256.padding, zeros, List.replicate_add]
      simp only [List.flatten_cons, List.flatten_nil, List.append_assoc, List.nil_append,
        List.append_nil, List.cons_append, List.length_nil, Nat.sub_zero]
    · unfold Sha256.final
      simp only [if_pos crowded]
      rfl
  · refine ⟨[hash.buffer ++ [0x80] ++ List.replicate (56 - (hash.buffer ++ [0x80]).length) 0 ++
      Sha256.lengthBytes (hash.totalBytes * 8)], ?_, ?_, ?_⟩
    · simp only [List.forall_mem_cons, List.length_append, List.length_replicate,
        List.length_singleton, lengthSize]
      exact ⟨by omega, nofun⟩
    · have zeros : (119 - hash.buffer.length) % 64 = 56 - (hash.buffer ++ [0x80]).length := by
        omega
      rw [Sha256.padding, zeros]
      simp only [List.flatten_cons, List.flatten_nil, List.append_assoc, List.nil_append,
        List.append_nil, List.cons_append]
    · unfold Sha256.final
      simp only [if_neg crowded]
      rfl

/-- The digest of absorbed bytes is the one of the standard. -/
theorem Absorbed.final {hash : Sha256} {blocks : List (List UInt8)} {data : List UInt8}
    (absorbed : Absorbed hash blocks data) (short : data.length < 2 ^ 61)
    (total : hash.totalBytes = UInt64.ofNat data.length) :
    ∃ words : Words, hash.final = words.bytes ∧ words.chain.words = digest (byteBits data) := by
  have below := absorbed.short
  have rest : data.length % 64 = hash.buffer.length := by
    have whole : blocks.flatten.length = 64 * blocks.length := by
      rw [List.length_flatten, List.map_congr_left absorbed.sized, List.map_const',
        List.sum_replicate, smul_eq_mul, Nat.mul_comm]
    rw [absorbed.split, List.length_append, whole, Nat.mul_add_mod, Nat.mod_eq_of_lt below]
  obtain ⟨last, lastSized, equal, run⟩ := final_eq below
  refine ⟨_, run, ?_⟩
  have sized : ∀ block ∈ blocks ++ last, block.length = 64 := fun block member =>
    (List.mem_append.mp member).elim (absorbed.sized block) (lastSized block)
  have padded : pad (byteBits data) = byteBits (blocks ++ last).flatten := by
    rw [pad_byteBits, rest, ← lengthBytes_eq short, ← total, List.flatten_append, equal,
      ← List.append_assoc, ← absorbed.split]
    rfl
  unfold digest
  rw [padded, chunks_byteBits sized, absorbed.state, ← List.foldl_append,
    foldl_transform_chain _ _ sized, initialWords_chain]

/-! ### Hexadecimal digits -/

/-- A byte is written as its two digits. -/
theorem hexLower_byte (byte : UInt8) :
    [hexLowerDigit (byte >>> 4), hexLowerDigit (byte &&& 0x0f)] =
      encode [(byte.toNat / 16).digitChar, (byte.toNat % 16).digitChar] := by
  have digits : ∀ half < 16, [hexLowerDigit (UInt8.ofNat half)] = encode [half.digitChar] := by
    decide
  have digit : ∀ {half : UInt8}, half < 16 →
      [hexLowerDigit half] = encode [half.toNat.digitChar] := by
    intro half small
    have entry := digits half.toNat small
    rwa [UInt8.ofNat_toNat] at entry
  have high := digit (high_lt byte)
  have low := digit (low_lt byte)
  rw [toNat_high] at high
  rw [toNat_low] at low
  rw [← List.singleton_append, high, low, ← encode_append]
  rfl

/-- A word is written as its eight digits. -/
theorem hexLower_wordBytes (word : UInt32) :
    hexLower (Sha256.wordBytes word) = encode (hexDigits word.toBitVec) := by
  have byte : ∀ count : UInt32, count.toNat < 32 →
      (word >>> count).toUInt8.toNat = word.toNat / 2 ^ count.toNat % 2 ^ 8 := by
    intro count inside
    rw [UInt32.toNat_toUInt8, UInt32.toNat_shiftRight, Nat.mod_eq_of_lt inside,
      Nat.shiftRight_eq_div_pow]
  have digits : hexDigits word.toBitVec =
      [(word.toNat / 16 ^ 7 % 16).digitChar, (word.toNat / 16 ^ 6 % 16).digitChar] ++
        [(word.toNat / 16 ^ 5 % 16).digitChar, (word.toNat / 16 ^ 4 % 16).digitChar] ++
        [(word.toNat / 16 ^ 3 % 16).digitChar, (word.toNat / 16 ^ 2 % 16).digitChar] ++
        [(word.toNat / 16 ^ 1 % 16).digitChar, (word.toNat / 16 ^ 0 % 16).digitChar] := rfl
  have pairs : hexLower (Sha256.wordBytes word) =
      encode [((word >>> 24).toUInt8.toNat / 16).digitChar,
          ((word >>> 24).toUInt8.toNat % 16).digitChar] ++
        encode [((word >>> 16).toUInt8.toNat / 16).digitChar,
          ((word >>> 16).toUInt8.toNat % 16).digitChar] ++
        encode [((word >>> 8).toUInt8.toNat / 16).digitChar,
          ((word >>> 8).toUInt8.toNat % 16).digitChar] ++
        encode [(word.toUInt8.toNat / 16).digitChar, (word.toUInt8.toNat % 16).digitChar] := by
    rw [← hexLower_byte, ← hexLower_byte, ← hexLower_byte, ← hexLower_byte]
    rfl
  have first := byte 24 (by decide)
  have second := byte 16 (by decide)
  have third := byte 8 (by decide)
  have fourth := UInt32.toNat_toUInt8 word
  have split : ∀ value : Nat,
      value % 2 ^ 8 / 16 = value / 16 % 16 ∧ value % 2 ^ 8 % 16 = value % 16 := by
    omega
  rw [pairs, digits, encode_append, encode_append, encode_append, first, second, third, fourth,
    (split _).1, (split _).2, (split _).1, (split _).2, (split _).1, (split _).2, (split _).1,
    (split _).2, Nat.div_div_eq_div_mul, Nat.div_div_eq_div_mul, Nat.div_div_eq_div_mul, pow_zero,
    Nat.div_one, pow_one]
  rfl

theorem hexLower_bytes (words : Words) :
    hexLower words.bytes = encode (words.chain.words.flatMap hexDigits) := by
  have each : ∀ list : List UInt32, hexLower (list.flatMap Sha256.wordBytes) =
      encode ((list.map UInt32.toBitVec).flatMap hexDigits) := by
    intro list
    induction list with
    | nil => rfl
    | cons word rest inductionHypothesis =>
      rw [List.map_cons, List.flatMap_cons, List.flatMap_cons, encode_append,
        ← inductionHypothesis, ← hexLower_wordBytes]
      exact List.flatMap_append
  exact each _

/-- Bytes of fewer than 2⁶¹ are hashed to the hexadecimal digest of the standard, and pieces of
them to the same text. -/
theorem hashBytes_exact (data : List UInt8) (short : data.length < 2 ^ 61) :
    hashBytes data = encode ((digest (byteBits data)).flatMap hexDigits) ∧
      ∀ pieces : List (List UInt8), pieces.flatten = data →
        hexLower ((pieces.foldl Sha256.update {}).final) = hashBytes data := by
  obtain ⟨blocks, whole, total⟩ := Absorbed.updates [data] absorbed_nil rfl
  simp only [List.flatten_singleton, List.nil_append] at whole total
  obtain ⟨words, run, equal⟩ := whole.final short total
  refine ⟨?_, fun pieces joined => ?_⟩
  · rw [← equal, ← hexLower_bytes, ← run]
    rfl
  · obtain ⟨others, split, splitTotal⟩ := Absorbed.updates pieces absorbed_nil rfl
    rw [joined, List.nil_append] at split splitTotal
    rw [split.unique whole (splitTotal.trans total.symm)]
    rfl

/-- The digest of three bytes, as the standard gives it. -/
theorem hashBytes_exact_abc :
    encode ((digest (byteBits (utf8 "abc"))).flatMap hexDigits) =
        utf8 "ba7816bf8f01cfea414140de5dae2223b00361a396177a9cb410ff61f20015ad" := by
  rw [← (hashBytes_exact (utf8 "abc") (by decide)).1]
  decide +kernel

end ProtocolAdapter.ProtocolLab
