/-
This file models the SHA-256 digest that names evidence and fingerprints. Bytes are absorbed in
blocks of 64; the final block carries the number of bits. The digest is written in hexadecimal.
-/

import ProtocolAdapter.Foundation.ByteText

namespace ProtocolAdapter.ProtocolLab

open Foundation.ByteText

/-- The round constants. -/
def kSha256Constants : List UInt32 :=
  [0x428A2F98, 0x71374491, 0xB5C0FBCF, 0xE9B5DBA5, 0x3956C25B, 0x59F111F1, 0x923F82A4,
    0xAB1C5ED5, 0xD807AA98, 0x12835B01, 0x243185BE, 0x550C7DC3, 0x72BE5D74, 0x80DEB1FE,
    0x9BDC06A7, 0xC19BF174, 0xE49B69C1, 0xEFBE4786, 0x0FC19DC6, 0x240CA1CC, 0x2DE92C6F,
    0x4A7484AA, 0x5CB0A9DC, 0x76F988DA, 0x983E5152, 0xA831C66D, 0xB00327C8, 0xBF597FC7,
    0xC6E00BF3, 0xD5A79147, 0x06CA6351, 0x14292967, 0x27B70A85, 0x2E1B2138, 0x4D2C6DFC,
    0x53380D13, 0x650A7354, 0x766A0ABB, 0x81C2C92E, 0x92722C85, 0xA2BFE8A1, 0xA81A664B,
    0xC24B8B70, 0xC76C51A3, 0xD192E819, 0xD6990624, 0xF40E3585, 0x106AA070, 0x19A4C116,
    0x1E376C08, 0x2748774C, 0x34B0BCB5, 0x391C0CB3, 0x4ED8AA4A, 0x5B9CCA4F, 0x682E6FF3,
    0x748F82EE, 0x78A5636F, 0x84C87814, 0x8CC70208, 0x90BEFFFA, 0xA4506CEB, 0xBEF9A3F7,
    0xC67178F2]

def rotateRight (value count : UInt32) : UInt32 := (value >>> count) ||| (value <<< (32 - count))

/-- The eight words of a digest. -/
structure Words where
  a : UInt32
  b : UInt32
  c : UInt32
  d : UInt32
  e : UInt32
  f : UInt32
  g : UInt32
  h : UInt32
  deriving DecidableEq

/-- The words a digest starts from. -/
def initialWords : Words :=
  ⟨0x6A09E667, 0xBB67AE85, 0x3C6EF372, 0xA54FF53A, 0x510E527F, 0x9B05688C, 0x1F83D9AB, 0x5BE0CD19⟩

/-- The words of a block, most significant byte first. -/
def blockWords : List UInt8 → List UInt32
  | first :: second :: third :: fourth :: rest =>
    (first.toUInt32 <<< 24 ||| second.toUInt32 <<< 16 ||| third.toUInt32 <<< 8 |||
      fourth.toUInt32) :: blockWords rest
  | _ => []

/-- The next word of a schedule. -/
def nextWord (schedule : List UInt32) : UInt32 :=
  let back (distance : Nat) := schedule.getD (schedule.length - distance) 0
  let s0 := rotateRight (back 15) 7 ^^^ rotateRight (back 15) 18 ^^^ (back 15 >>> 3)
  let s1 := rotateRight (back 2) 17 ^^^ rotateRight (back 2) 19 ^^^ (back 2 >>> 10)
  back 16 + s0 + back 7 + s1

/-- The schedule of a block: its sixteen words and the 48 that follow from them. -/
def schedule (block : List UInt8) : List UInt32 :=
  (List.range 48).foldl (fun words _ => words ++ [nextWord words]) (blockWords block)

/-- One round. -/
def round (words : Words) (input : UInt32 × UInt32) : Words :=
  let sum1 := rotateRight words.e 6 ^^^ rotateRight words.e 11 ^^^ rotateRight words.e 25
  let choice := (words.e &&& words.f) ^^^ (~~~words.e &&& words.g)
  let temporary1 := words.h + sum1 + choice + input.1 + input.2
  let sum0 := rotateRight words.a 2 ^^^ rotateRight words.a 13 ^^^ rotateRight words.a 22
  let majority := (words.a &&& words.b) ^^^ (words.a &&& words.c) ^^^ (words.b &&& words.c)
  let temporary2 := sum0 + majority
  { a := temporary1 + temporary2
    b := words.a
    c := words.b
    d := words.c
    e := words.d + temporary1
    f := words.e
    g := words.f
    h := words.g }

/-- Absorbs a block of 64 bytes. -/
def transform (state : Words) (block : List UInt8) : Words :=
  let final := (kSha256Constants.zip (schedule block)).foldl round state
  { a := state.a + final.a
    b := state.b + final.b
    c := state.c + final.c
    d := state.d + final.d
    e := state.e + final.e
    f := state.f + final.f
    g := state.g + final.g
    h := state.h + final.h }

/-- A digest in progress. The buffer holds the bytes of the block that is not full. -/
structure Sha256 where
  state : Words := initialWords
  buffer : List UInt8 := []
  totalBytes : UInt64 := 0

namespace Sha256

/-- Copies bytes into the buffer until they are used up, and absorbs it when it is full. Each
round copies at least one byte. -/
def absorb : Nat → Sha256 → List UInt8 → Sha256
  | 0, hash, _ => hash
  | rounds + 1, hash, data =>
    if data = [] then hash
    else
      let copied := min data.length (64 - hash.buffer.length)
      let buffer := hash.buffer ++ data.take copied
      let hash :=
        if buffer.length = 64 then
          { hash with
            state := transform hash.state buffer
            buffer := [] }
        else { hash with buffer := buffer }
      absorb rounds hash (data.drop copied)

def update (hash : Sha256) (data : List UInt8) : Sha256 :=
  absorb data.length { hash with totalBytes := hash.totalBytes + UInt64.ofNat data.length } data

/-- The bytes of a number, most significant first. -/
def lengthBytes (totalBits : UInt64) : List UInt8 :=
  (List.range 8).map fun index => (totalBits >>> UInt64.ofNat ((7 - index) * 8)).toUInt8

def wordBytes (word : UInt32) : List UInt8 :=
  [(word >>> 24).toUInt8, (word >>> 16).toUInt8, (word >>> 8).toUInt8, word.toUInt8]

/-- Pads with a one bit, zeros and the number of bits, and gives the digest. -/
def final (hash : Sha256) : List UInt8 :=
  let totalBits := hash.totalBytes * 8
  let marked := hash.buffer ++ [0x80]
  let (state, unfilled) :=
    if marked.length > 56 then
      (transform hash.state (marked ++ List.replicate (64 - marked.length) 0), [])
    else (hash.state, marked)
  let digest := transform state
    (unfilled ++ List.replicate (56 - unfilled.length) 0 ++ lengthBytes totalBits)
  [digest.a, digest.b, digest.c, digest.d, digest.e, digest.f, digest.g, digest.h].flatMap
    wordBytes

end Sha256

def hexLowerDigit (nibble : UInt8) : UInt8 := if nibble < 10 then 0x30 + nibble else 0x57 + nibble

def hexLower (data : List UInt8) : List UInt8 :=
  data.flatMap fun (byte : UInt8) => [hexLowerDigit (byte >>> 4), hexLowerDigit (byte &&& 0x0f)]

def hashBytes (data : List UInt8) : List UInt8 := hexLower ((({} : Sha256).update data).final)

/-- The hash in uppercase. -/
def uppercaseHash (payload : List UInt8) : List UInt8 :=
  (hashBytes payload).map fun byte => if 0x61 ≤ byte ∧ byte ≤ 0x7a then byte - 0x20 else byte

/-! ### The halves of a byte -/

theorem toNat_high (byte : UInt8) : (byte >>> 4).toNat = byte.toNat / 16 := by
  rw [UInt8.toNat_shiftRight, Nat.shiftRight_eq_div_pow]
  rfl

theorem toNat_low (byte : UInt8) : (byte &&& 0x0f).toNat = byte.toNat % 16 :=
  Nat.and_two_pow_sub_one_eq_mod byte.toNat 4

theorem high_lt (byte : UInt8) : byte >>> 4 < 16 := by
  rw [UInt8.lt_iff_toNat_lt, toNat_high]
  exact Nat.div_lt_of_lt_mul byte.toNat_lt

theorem low_lt (byte : UInt8) : byte &&& 0x0f < 16 := by
  rw [UInt8.lt_iff_toNat_lt, toNat_low]
  exact Nat.mod_lt _ (by decide)

end ProtocolAdapter.ProtocolLab
