/-
This file works out the checks the encoder makes of the caller's memory before it writes:
the buffer has room for the record, and no value shares memory with it.
-/

import ProtocolAdapter.Codec.EncodeContents
import ProtocolAdapter.Codec.EncodeInputs

namespace ProtocolAdapter.Codec

open Foundation Foundation.Operation

/-! ### Refusals -/

/-- Why a value that is a view is refused when the record is written to a range. -/
def aliasFailure (size : Nat) (outputRange : AddressRange) (relevant : EncodeFieldValue → Bool)
    (blame : EncodeFieldValue × Nat → EncodeResult → EncodeResult)
    (item : EncodeFieldValue × Nat) : Option EncodeResult :=
  let view := item.1.bytesValue
  if relevant item.1 then
    match getAddressRange view.data view.size with
    | none => some (blame item { status := .invalidArgument, requiredSize := size })
    | some inputRange =>
      if rangesOverlap inputRange outputRange then
        some (blame item { status := .inputOutputOverlap, requiredSize := size })
      else none
  else none

/-- Why the memory of a call is refused for a record of a length. -/
def memoryFailure (values : EncodeValues) (output : MutableByteBuffer) (size : Nat)
    (relevant : EncodeFieldValue → Bool)
    (blame : EncodeFieldValue × Nat → EncodeResult → EncodeResult) : Option EncodeResult :=
  if output.data = none then some { status := .invalidArgument, requiredSize := size }
  else if output.capacity < size then some { status := .bufferTooSmall, requiredSize := size }
  else
    match getAddressRange output.data size,
      getArrayAddressRange values.data values.values.length sizeofEncodeFieldValue with
    | some outputRange, some descriptorRange =>
      if rangesOverlap descriptorRange outputRange then
        some { status := .inputOutputOverlap, requiredSize := size }
      else values.values.zipIdx.findSome? (aliasFailure size outputRange relevant blame)
    | _, _ => some { status := .invalidArgument, requiredSize := size }

/-- Names the value of a binary message and its field. -/
def nameValueField (item : EncodeFieldValue × Nat) (result : EncodeResult) : EncodeResult :=
  { result with failedValueIndex := item.2, failedFieldIndex := item.1.field.fieldIndex }

/-- Names the value of a text message. -/
def nameValue (item : EncodeFieldValue × Nat) (result : EncodeResult) : EncodeResult :=
  { result with failedValueIndex := item.2 }

/-- The memory that a binary record shares with nothing. -/
def binaryMemoryFailure (values : EncodeValues) (output : MutableByteBuffer) (size : Nat) :
    Option EncodeResult :=
  memoryFailure values output size (·.valueKind == .bytes) nameValueField

/-- The memory that a text record shares with nothing. -/
def textMemoryFailure (values : EncodeValues) (output : MutableByteBuffer) (size : Nat) :
    Option EncodeResult :=
  memoryFailure values output size (fun _ => true) nameValue

/-! ### The checks -/

section

variable {values : EncodeValues} {output : MutableByteBuffer} {size : Nat}
  {relevant : EncodeFieldValue → Bool}
  {blame : EncodeFieldValue × Nat → EncodeState → EncodeState}
  {name : EncodeFieldValue × Nat → EncodeResult → EncodeResult}

/-- A check that has failed has only reported its failure. -/
structure Reported (failure : Option EncodeResult) (start state : EncodeState) : Prop where
  result : failure = some state.result
  output : state.output = start.output
  workspace : state.workspace = start.workspace

theorem reported_fail {start : EncodeState} (fresh : start.result = { requiredSize := size })
    (status : CodecStatus) :
    Reported (some { status := status, requiredSize := size }) start (start.fail status) :=
  ⟨by rw [EncodeState.fail, fresh], rfl, rfl⟩

theorem reported_blame {start : EncodeState}
    (named : ∀ item state, blame item state = { state with result := name item state.result })
    (fresh : start.result = { requiredSize := size }) (item : EncodeFieldValue × Nat)
    (status : CodecStatus) :
    Reported (some (name item { status := status, requiredSize := size })) start
      (blame item (start.fail status)) := by
  rw [named]
  exact ⟨by rw [EncodeState.fail, fresh], rfl, rfl⟩

theorem checkAlias_ends {outputRange : AddressRange} {start : EncodeState}
    (named : ∀ item state, blame item state = { state with result := name item state.result })
    (fresh : start.result = { requiredSize := size }) (item : EncodeFieldValue × Nat) :
    Ends (fun _ state => aliasFailure size outputRange relevant name item = none ∧ state = start)
      (Reported (aliasFailure size outputRange relevant name item) start)
      (checkAlias outputRange relevant blame item start) := by
  unfold checkAlias aliasFailure
  cases relevant item.1 with
  | false => exact .done ⟨rfl, rfl⟩
  | true =>
    simp only [if_true]
    cases getAddressRange item.1.bytesValue.data item.1.bytesValue.size with
    | none => exact .returned (reported_blame named fresh item _)
    | some inputRange =>
      simp only
      by_cases overlap : rangesOverlap inputRange outputRange = true
      · rw [leaveIf_pos overlap, if_pos overlap]
        exact .returned (reported_blame named fresh item _)
      · rw [leaveIf_neg overlap, if_neg overlap]
        exact .done ⟨rfl, rfl⟩

theorem checkBuffer_ends {start : EncodeState} (fresh : start.result = { requiredSize := size }) :
    Ends (fun _ state => (output.data ≠ none ∧ ¬output.capacity < size) ∧ state = start)
      (Reported (memoryFailure values output size relevant name) start)
      (checkBuffer output size start) := by
  unfold checkBuffer memoryFailure
  by_cases missing : output.data = none
  · rw [leaveIf_bind_pos missing, if_pos missing]
    exact .returned (reported_fail fresh _)
  rw [leaveIf_bind_neg missing, if_neg missing]
  by_cases small : output.capacity < size
  · rw [leaveIf_pos small, if_pos small]
    exact .returned (reported_fail fresh _)
  · rw [leaveIf_neg small]
    exact .done ⟨⟨missing, small⟩, rfl⟩

/-- The memory of the caller is refused, or nothing has happened. -/
theorem checkAliases_ends {start : EncodeState}
    (named : ∀ item state, blame item state = { state with result := name item state.result })
    (fresh : start.result = { requiredSize := size }) (present : output.data ≠ none)
    (room : ¬output.capacity < size) :
    Ends (fun _ state => memoryFailure values output size relevant name = none ∧ state = start)
      (Reported (memoryFailure values output size relevant name) start)
      (checkAliases values output size relevant blame start) := by
  unfold memoryFailure
  rw [if_neg present, if_neg room]
  unfold checkAliases
  cases getAddressRange output.data size with
  | none => exact .returned (reported_fail fresh _)
  | some outputRange =>
    cases getArrayAddressRange values.data values.values.length sizeofEncodeFieldValue with
    | none => exact .returned (reported_fail fresh _)
    | some descriptorRange =>
      simp only
      by_cases overlap : rangesOverlap descriptorRange outputRange = true
      · rw [leaveIf_bind_pos overlap, if_pos overlap]
        exact .returned (reported_fail fresh _)
      rw [leaveIf_bind_neg overlap, if_neg overlap]
      have loop : Ends (fun _ state => (∀ (index : Nat) value, index < values.values.length →
            values.values[index]? = some value →
              aliasFailure size outputRange relevant name (value, index) = none) ∧ state = start)
          (Reported (values.values.zipIdx.findSome? (aliasFailure size outputRange relevant name))
            start)
          (values.values.zipIdx.forM (checkAlias outputRange relevant blame) start) := by
        refine @Ends.forM_zipIdx _ _ _ _ _ (fun passed state => (∀ (index : Nat) value,
          index < passed → values.values[index]? = some value →
            aliasFailure size outputRange relevant name (value, index) = none) ∧ state = start) _
          ⟨fun _ _ before => absurd before (Nat.not_lt_zero _), rfl⟩ ?_
        rintro index value state found ⟨passed, rfl⟩
        refine (checkAlias_ends named fresh (value, index)).mono ?_ fun last reported => ?_
        · rintro _ _ ⟨passes, rfl⟩
          refine ⟨fun earlier other before listed => ?_, rfl⟩
          rcases Nat.lt_succ_iff_lt_or_eq.mp before with before | rfl
          · exact passed earlier other before listed
          · exact Option.some.inj (found.symm.trans listed) ▸ passes
        · exact ⟨findSome_zipIdx found reported.result passed, reported.output,
            reported.workspace⟩
      refine loop.mono ?_ fun _ reported => reported
      rintro _ _ ⟨passed, rfl⟩
      exact ⟨findSome_zipIdx_eq_none fun index value found =>
        passed index value (List.getElem?_eq_some_iff.mp found).1 found, rfl⟩

/-- Memory that is not refused has room for the record. -/
theorem memoryFailure_room (passes : memoryFailure values output size relevant name = none) :
    size ≤ output.contents.length := by
  unfold memoryFailure at passes
  split at passes
  · cases passes
  split at passes
  · cases passes
  · rename_i room
    exact Nat.le_of_not_lt room

end

end ProtocolAdapter.Codec
