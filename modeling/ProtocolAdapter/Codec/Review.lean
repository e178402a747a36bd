/-
This file models what the codec checks in a record besides its fields: the length of a
bounded payload, the computed length and the checksum. The decoder checks a record it
received, the encoder the record it has written.
-/

import ProtocolAdapter.Builder.Layout
import ProtocolAdapter.Codec.Wire

namespace ProtocolAdapter.Codec

open Foundation

/-! ### Payload lengths -/

/-- The length of the payload in a frame; absent when the frame is too short or too long. -/
def resolvePayloadLength (message : MessageExecutionPlan) (frameSize : Nat) : Option Nat :=
  match message.boundedPayload with
  | none => if frameSize = message.frameSize then some 0 else none
  | some bounded =>
    if bounded.headerLength > frameSize ∨
        bounded.trailerLength > frameSize - bounded.headerLength then
      none
    else
      let payloadLength := frameSize - bounded.headerLength - bounded.trailerLength
      if payloadLength ≥ bounded.minPayloadLength ∧ payloadLength ≤ bounded.maxPayloadLength ∧
          frameSize ≥ bounded.minFrameLength ∧ frameSize ≤ bounded.maxFrameLength then
        some payloadLength
      else none

/-! ### The range and the storage of a checksum -/

/-- Where a checksum reads and where it is stored in a frame. -/
structure ResolvedIntegrity where
  rangeOffset : Nat := 0
  rangeLength : Nat := 0
  storageOffset : Nat := 0
  storageWidth : Nat := 0
  deriving DecidableEq

/-- The range and the storage in the frame, without their bounds. A bounded payload moves
its checksum and may end its range. -/
def placeIntegrity (message : MessageExecutionPlan) (integrity : FrozenIntegrityPlan)
    (frameSize : Nat) : Option ResolvedIntegrity :=
  let resolved : ResolvedIntegrity :=
    { rangeOffset := integrity.rangeOffset
      rangeLength := integrity.rangeLength
      storageOffset := integrity.storageOffset
      storageWidth := integrityStorageWidth integrity }
  match message.boundedPayload with
  | some bounded => do
    let payloadLength ← resolvePayloadLength message frameSize
    failIf (integrity.storageAtPayloadEnd = false)
    let payloadEnd := bounded.headerLength + payloadLength
    if integrity.rangeEndsAtPayload then
      if resolved.rangeOffset > payloadEnd then none
      else some { resolved with
        storageOffset := payloadEnd, rangeLength := payloadEnd - resolved.rangeOffset }
    else some { resolved with storageOffset := payloadEnd }
  | none =>
    if integrity.rangeEndsAtPayload ∨ integrity.storageAtPayloadEnd then none else some resolved

/-- The range and the storage of the checksum of a frame, when they lie in it and apart. -/
def resolveIntegrity (message : MessageExecutionPlan) (frameSize : Nat) :
    Option ResolvedIntegrity :=
  match message.integrity with
  | none => some {}
  | some integrity => do
    let resolved ← placeIntegrity message integrity frameSize
    if resolved.rangeOffset ≤ frameSize ∧
        resolved.rangeLength ≤ frameSize - resolved.rangeOffset ∧
        resolved.storageOffset ≤ frameSize ∧
        resolved.storageWidth ≤ frameSize - resolved.storageOffset ∧
        ¬(resolved.storageOffset < resolved.rangeOffset + resolved.rangeLength ∧
          resolved.rangeOffset < resolved.storageOffset + resolved.storageWidth) then
      some resolved
    else none

/-- Whether the parameters of the algorithm are valid. -/
def algorithmValid (integrity : FrozenIntegrityPlan) : Bool :=
  match integrity.algorithm with
  | .sum8 => true
  | .crc => crcParametersValid integrity

def integrityDescriptorValid (message : MessageExecutionPlan) : Bool :=
  match message.integrity with
  | none => true
  | some integrity =>
    algorithmValid integrity &&
      (resolveIntegrity message message.frameSize).any fun resolved =>
        (message.boundedPayload.isSome || resolved.rangeLength ≠ 0) &&
          resolved.storageWidth == integrityStorageWidth integrity

/-! ### Computed lengths -/

/-- The bytes a computed length may be stored in. -/
def storageLimit (message : MessageExecutionPlan) : Nat :=
  layoutLimit message.boundedPayload message.frameSize

/-- The value a computed length has in the longest frame. -/
def longestLength (message : MessageExecutionPlan) (computed : ComputedLengthPlan) : Nat :=
  match computed.scope, message.boundedPayload with
  | .payload, some bounded => bounded.maxPayloadLength
  | .frame, _ => message.frameSize
  | _, _ => computed.rangeLength

/-- Whether the storage and the scope of a computed length are valid. -/
def computedStorageValid (message : MessageExecutionPlan) (computed : ComputedLengthPlan) : Bool :=
  (computed.storageWidth == 1 || computed.storageWidth == 2 || computed.storageWidth == 4) &&
    (if computed.storageWidth = 1 then computed.byteOrder == .notApplicable
      else computed.byteOrder == .big || computed.byteOrder == .little) &&
    computed.storageOffset ≤ storageLimit message &&
    computed.storageWidth ≤ storageLimit message - computed.storageOffset &&
    match computed.scope with
    | .frame => computed.rangeOffset == 0 && computed.rangeLength == 0
    | .region => computed.rangeLength ≠ 0 && computed.rangeOffset ≤ message.frameSize &&
        computed.rangeLength ≤ message.frameSize - computed.rangeOffset
    | .payload => message.boundedPayload.isSome && computed.rangeOffset == 0 &&
        computed.rangeLength == 0

/-- Whether a field is the one a computed length states. -/
def computedFieldMatches (computed : ComputedLengthPlan) (field : FieldExecutionPlan) : Bool :=
  field.valueType == .uint64 && field.encodeSource == .computed &&
    field.offset == computed.storageOffset && field.width == computed.storageWidth &&
    field.byteOrder == computed.byteOrder && !field.hasConstant &&
    field.bitContainerIndex == invalidIndex

/-- Whether the computed length of a message is valid. Without one, no field may be
computed. -/
def computedLengthDescriptorValid (message : MessageExecutionPlan) : Bool :=
  match message.computedLength with
  | none => message.fields.all (·.encodeSource ≠ .computed)
  | some computed =>
    match message.fields[computed.fieldIndex]? with
    | none => false
    | some field =>
      let expected := longestLength message computed
      computedStorageValid message computed && computed.expectedValue == expected &&
        fitsUnsignedWidth expected computed.storageWidth && computedFieldMatches computed field

/-- The computed length of a frame. In a bounded message it follows the actual frame. -/
def actualLength (message : MessageExecutionPlan) (computed : ComputedLengthPlan)
    (frameSize payloadLength : Nat) : Nat :=
  match message.boundedPayload, computed.scope with
  | some _, .frame => frameSize
  | some _, .payload => payloadLength
  | _, _ => computed.expectedValue

/-- Whether a frame states its own length. -/
def computedLengthMatches (message : MessageExecutionPlan) (data : List UInt8)
    (frameSize : Nat) : Access Bool :=
  match message.computedLength with
  | none => some true
  | some computed =>
    match if message.boundedPayload.isSome then resolvePayloadLength message frameSize
      else some 0 with
    | none => some false
    | some payloadLength => do
      let actual ← loadUnsigned data computed.storageOffset computed.storageWidth computed.byteOrder
      some (actual == some (actualLength message computed frameSize payloadLength))

/-! ### Checksums -/

/-- The sum of the bytes of a range. -/
def sum8 (data : List UInt8) (offset length : Nat) : Access UInt8 := do
  let bytes ← readBytes data offset length
  some (bytes.foldl (· + ·) 0)

/-- Reverses the lowest bits of a value. -/
def reverseLowBits (value : UInt32) (width : Nat) : UInt32 :=
  ((List.range width).foldl
    (fun (state : UInt32 × UInt32) _ => ((state.1 <<< 1) ||| (state.2 &&& 1), state.2 >>> 1))
    (0, value)).1

/-- The all-ones value of the width of a CRC. -/
def crcMask (integrity : FrozenIntegrityPlan) : UInt32 :=
  if integrity.crcWidth = 16 then 0xFFFF else 0xFFFFFFFF

/-- Shifts one bit through the register of a CRC. -/
def crcBit (integrity : FrozenIntegrityPlan) (value : UInt32) : UInt32 :=
  let high := (value &&& ((1 : UInt32) <<< UInt32.ofNat (integrity.crcWidth - 1))) ≠ 0
  let shifted := (value <<< 1) &&& crcMask integrity
  if high then shifted ^^^ UInt32.ofNat integrity.crcPolynomial else shifted

/-- Takes one byte into the register of a CRC. -/
def crcByte (integrity : FrozenIntegrityPlan) (value : UInt32) (byte : UInt8) : UInt32 :=
  let input := if integrity.crcReflectInput then reverseLowBits byte.toUInt32 8 else byte.toUInt32
  let value := value ^^^ (input <<< UInt32.ofNat (integrity.crcWidth - 8))
  (List.range 8).foldl (fun value _ => crcBit integrity value) value

/-- The CRC of the bytes of a range. -/
def crc (integrity : FrozenIntegrityPlan) (data : List UInt8) (rangeOffset rangeLength : Nat) :
    Access UInt32 := do
  let bytes ← readBytes data rangeOffset rangeLength
  let value := bytes.foldl (crcByte integrity) (UInt32.ofNat integrity.crcInitialValue)
  let value :=
    if integrity.crcReflectOutput then reverseLowBits value integrity.crcWidth else value
  some ((value ^^^ UInt32.ofNat integrity.crcXorOutput) &&& crcMask integrity)

/-- Whether the checksum of a frame is the one it carries. -/
def integrityMatches (message : MessageExecutionPlan) (data : List UInt8) (frameSize : Nat) :
    Access Bool :=
  if integrityDescriptorValid message = false then some false
  else
    match message.integrity with
    | none => some true
    | some integrity =>
      match resolveIntegrity message frameSize with
      | none => some false
      | some resolved =>
        match integrity.algorithm with
        | .sum8 => do
          let sum ← sum8 data resolved.rangeOffset resolved.rangeLength
          let stored ← data[resolved.storageOffset]?
          some (sum == stored)
        | .crc => do
          let stored ← loadUnsigned data resolved.storageOffset resolved.storageWidth
            integrity.storageByteOrder
          match stored with
          | none => some false
          | some stored => do
            let value ← crc integrity data resolved.rangeOffset resolved.rangeLength
            some (value.toNat == stored)

end ProtocolAdapter.Codec
