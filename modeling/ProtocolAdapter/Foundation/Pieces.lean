/-
This file is a library for buffers that are filled piece by piece. Pieces that share no
byte do not disturb each other, so after all of them are written each is still there,
whatever their order; and a buffer whose pieces leave no gap is determined by them.
-/

import ProtocolAdapter.Foundation.Bytes

namespace Foundation.Bytes

/-- Bytes with the offset they belong at. -/
structure Piece where
  offset : Nat
  bytes : List UInt8
  deriving DecidableEq

/-- The offset behind a piece. -/
def Piece.stop (piece : Piece) : Nat := piece.offset + piece.bytes.length

/-- Two pieces share no byte. -/
def Piece.Apart (left right : Piece) : Prop :=
  left.stop ≤ right.offset ∨ right.stop ≤ left.offset

theorem Piece.Apart.symm {left right : Piece} (apart : left.Apart right) : right.Apart left :=
  Or.symm apart

/-- A buffer has a piece where it belongs. -/
def Carries (buffer : List UInt8) (piece : Piece) : Prop :=
  slice buffer piece.offset piece.bytes.length = piece.bytes

/-- Writes pieces one after the other. -/
def writeAll (pieces : List Piece) (buffer : List UInt8) : List UInt8 :=
  pieces.foldl (fun buffer piece => store buffer piece.offset piece.bytes) buffer

@[simp] theorem writeAll_nil (buffer : List UInt8) : writeAll [] buffer = buffer := rfl

@[simp] theorem writeAll_cons (piece : Piece) (rest : List Piece) (buffer : List UInt8) :
    writeAll (piece :: rest) buffer = writeAll rest (store buffer piece.offset piece.bytes) := rfl

theorem writeAll_append (first second : List Piece) (buffer : List UInt8) :
    writeAll (first ++ second) buffer = writeAll second (writeAll first buffer) :=
  List.foldl_append

@[simp] theorem writeAll_length : ∀ (pieces : List Piece) (buffer : List UInt8),
    (writeAll pieces buffer).length = buffer.length
  | [], _ => rfl
  | piece :: rest, buffer => by rw [writeAll_cons, writeAll_length rest, store_length]

/-- Writing elsewhere leaves a range as it is. -/
theorem slice_writeAll {offset width : Nat} : ∀ {pieces : List Piece} {buffer : List UInt8},
    (∀ piece ∈ pieces, offset + width ≤ piece.offset ∨ piece.stop ≤ offset) →
      slice (writeAll pieces buffer) offset width = slice buffer offset width
  | [], _, _ => rfl
  | piece :: rest, buffer, elsewhere => by
    rw [writeAll_cons, slice_writeAll fun other member =>
      elsewhere other (List.mem_cons_of_mem _ member)]
    exact slice_store_disjoint (elsewhere piece List.mem_cons_self)

/-- A piece stays where it is while others are written apart from it. -/
theorem Carries.writeAll {piece : Piece} {pieces : List Piece} {buffer : List UInt8}
    (carried : Carries buffer piece) (apart : ∀ other ∈ pieces, piece.Apart other) :
    Carries (writeAll pieces buffer) piece :=
  (slice_writeAll apart).trans carried

theorem Carries.store {piece other : Piece} {buffer : List UInt8}
    (carried : Carries buffer piece) (apart : piece.Apart other) :
    Carries (Bytes.store buffer other.offset other.bytes) piece :=
  (slice_store_disjoint apart).trans carried

theorem carries_store {piece : Piece} {buffer : List UInt8} (within : piece.stop ≤ buffer.length) :
    Carries (Bytes.store buffer piece.offset piece.bytes) piece :=
  slice_store_same within

/-- Pieces that lie apart are all there after they have been written. -/
theorem carries_writeAll : ∀ {pieces : List Piece} {buffer : List UInt8},
    pieces.Pairwise Piece.Apart → (∀ piece ∈ pieces, piece.stop ≤ buffer.length) →
      ∀ piece ∈ pieces, Carries (writeAll pieces buffer) piece
  | [], _, _, _, _, member => absurd member List.not_mem_nil
  | head :: rest, buffer, apart, within, piece, member => by
    obtain ⟨headApart, restApart⟩ := List.pairwise_cons.mp apart
    rcases List.mem_cons.mp member with rfl | later
    · exact (carries_store (within piece List.mem_cons_self)).writeAll headApart
    · exact carries_writeAll restApart
        (fun other inside => by
          rw [store_length]
          exact within other (List.mem_cons_of_mem _ inside)) piece later

/-- The byte a buffer has at an offset inside a piece it carries. -/
theorem Carries.getElem? {buffer : List UInt8} {piece : Piece} {index : Nat}
    (carried : Carries buffer piece) (above : piece.offset ≤ index) (below : index < piece.stop) :
    buffer[index]? = piece.bytes[index - piece.offset]? := by
  have inside : index - piece.offset < piece.bytes.length := by
    unfold Piece.stop at below
    omega
  have byte := @slice_getElem? buffer piece.offset piece.bytes.length (index - piece.offset) inside
  rw [carried, Nat.add_sub_cancel' above] at byte
  exact byte.symm

/-- A byte that a piece covers does not depend on what the buffer held before. -/
theorem writeAll_getElem?_covered {index : Nat} : ∀ {pieces : List Piece} {left right : List UInt8},
    index < left.length → index < right.length →
      left[index]? = right[index]? ∨ (∃ piece ∈ pieces, piece.offset ≤ index ∧ index < piece.stop) →
        (writeAll pieces left)[index]? = (writeAll pieces right)[index]?
  | [], _, _, _, _, .inl same => same
  | [], _, _, _, _, .inr ⟨_, member, _⟩ => absurd member List.not_mem_nil
  | piece :: rest, left, right, inLeft, inRight, known => by
    rw [writeAll_cons, writeAll_cons]
    refine writeAll_getElem?_covered (by rwa [store_length]) (by rwa [store_length]) ?_
    by_cases covers : piece.offset ≤ index ∧ index < piece.stop
    · refine Or.inl ?_
      have inside : index - piece.offset < piece.bytes.length := by
        unfold Piece.stop at covers
        omega
      rw [store_getElem?, store_getElem?, List.getElem?_eq_getElem inLeft,
        List.getElem?_eq_getElem inRight, Option.map_some, Option.map_some, if_pos covers.1,
        if_pos covers.1, List.getD_eq_getElem _ _ inside, List.getD_eq_getElem _ _ inside]
    · rcases known with same | ⟨other, member, covered⟩
      · have outside : index < piece.offset ∨ piece.offset + piece.bytes.length ≤ index := by
          unfold Piece.stop at covers
          omega
        exact Or.inl (by
          rw [store_getElem?_outside outside, store_getElem?_outside outside, same])
      · rcases List.mem_cons.mp member with rfl | later
        · exact absurd covered covers
        · exact Or.inr ⟨other, later, covered⟩

/-- A byte that no piece covers keeps its value. -/
theorem writeAll_getElem?_free {index : Nat} : ∀ {pieces : List Piece} {buffer : List UInt8},
    (∀ piece ∈ pieces, ¬(piece.offset ≤ index ∧ index < piece.stop)) →
      (writeAll pieces buffer)[index]? = buffer[index]?
  | [], _, _ => rfl
  | piece :: rest, buffer, free => by
    have here := free piece List.mem_cons_self
    unfold Piece.stop at here
    rw [writeAll_cons, writeAll_getElem?_free fun other member =>
      free other (List.mem_cons_of_mem _ member)]
    exact store_getElem?_outside (by omega)

end Foundation.Bytes
