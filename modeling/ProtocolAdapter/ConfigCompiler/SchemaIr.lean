/-
This file defines the intermediate representation the structural stage builds from a
document: every record of the configuration with its symbolic references and the
pointer to the value it was read from. Domain validation resolves the references and
derives the remaining members.
-/

import ProtocolAdapter.Plan.Bundle

namespace ProtocolAdapter.ConfigCompiler

/-- The configuration value a record was read from. -/
structure ConfigOrigin where
  jsonPointer : String := ""
  deriving DecidableEq

/-- A framing profile. -/
structure FramingProfileIr where
  id : String := ""
  displayName : String := ""
  description : String := ""
  sourceRef : String := ""
  inputKind : InputKind := .completeRecord
  strategy : FramingStrategy := .completeRecord
  frameLengthBytes : Nat := 0
  syncBytes : List UInt8 := []
  lengthFieldOffset : Nat := 0
  lengthFieldWidth : Nat := 0
  lengthFieldByteOrder : ByteOrder := .notApplicable
  minimumFrameLength : Nat := 0
  maximumFrameLength : Nat := 0
  origin : ConfigOrigin := {}
  deriving DecidableEq

/-- A pipeline; its references are still identifiers. -/
structure PipelineIr where
  id : String := ""
  displayName : String := ""
  description : String := ""
  sourceRef : String := ""
  directionId : String := ""
  inputFramingProfileId : String := ""
  messageIds : List String := []
  origin : ConfigOrigin := {}
  deriving DecidableEq

/-- A clause of a structural matcher. -/
structure MatcherClauseIr where
  kind : MatcherKind := .frameLengthEquals
  lengthBytes : Nat := 0
  byteOffset : Nat := 0
  bytes : List UInt8 := []
  origin : ConfigOrigin := {}
  deriving DecidableEq

/-- The wire layout of a field; only the members of its codec are meaningful. The
container index is a sentinel until validation resolves the container identifier. -/
structure WireIr where
  codec : WireCodec := .unsignedInteger
  byteOffset : Nat := 0
  byteWidth : Nat := 0
  byteOrder : ByteOrder := .notApplicable
  containerId : String := ""
  bitOffset : Nat := 0
  bitWidth : Nat := 0
  bitContainerIndex : Nat := invalidIndex
  origin : ConfigOrigin := {}
  textMinLength : Nat := 0
  textMaxLength : Nat := 0
  allowedAsciiLow : Nat := 0
  allowedAsciiHigh : Nat := 0
  deriving DecidableEq

/-- A segment of a text template. -/
structure TextSegmentIr where
  kind : TextSegmentKind := .literal
  literal : List UInt8 := []
  fieldId : String := ""
  fieldIndex : Nat := invalidIndex
  origin : ConfigOrigin := {}
  deriving DecidableEq

/-- A text template for one direction. -/
structure TextActionIr where
  segments : List TextSegmentIr := []
  minRecordLength : Nat := 0
  maxRecordLength : Nat := 0
  deriving DecidableEq

/-- The two optional text directions of a message. -/
structure AsciiTextLayoutIr where
  decode : Option TextActionIr := none
  encode : Option TextActionIr := none
  origin : ConfigOrigin := {}
  deriving DecidableEq

/-- A bit container. -/
structure BitContainerIr where
  id : String := ""
  byteOffset : Nat := 0
  byteWidth : Nat := 0
  byteOrder : ByteOrder := .notApplicable
  bitNumbering : BitNumbering := .lsb0
  baseValue : Nat := 0
  origin : ConfigOrigin := {}
  deriving DecidableEq

/-- The integrity rule of a message. -/
structure IntegrityIr where
  algorithm : IntegrityAlgorithm := .sum8
  rangeOffset : Nat := 0
  rangeLength : Nat := 0
  storageOffset : Nat := 0
  rangeEndsAtPayload : Bool := false
  storageAtPayloadEnd : Bool := false
  crcWidth : Nat := 0
  crcPolynomial : Nat := 0
  crcInitialValue : Nat := 0
  crcXorOutput : Nat := 0
  crcReflectInput : Bool := false
  crcReflectOutput : Bool := false
  storageByteOrder : ByteOrder := .notApplicable
  origin : ConfigOrigin := {}
  rangeOrigin : ConfigOrigin := {}
  storageOrigin : ConfigOrigin := {}
  deriving DecidableEq

/-- The bounded payload layout of a message. -/
structure BoundedPayloadIr where
  payloadFieldId : String := ""
  payloadFieldIndex : Nat := invalidIndex
  headerLength : Nat := 0
  minPayloadLength : Nat := 0
  maxPayloadLength : Nat := 0
  trailerLength : Nat := 0
  minFrameLength : Nat := 0
  maxFrameLength : Nat := 0
  origin : ConfigOrigin := {}
  deriving DecidableEq

/-- Where the encoder takes a field's value from. -/
structure EncodeIr where
  source : EncodeSource := .input
  constantValue : Option Nat := none
  origin : ConfigOrigin := {}
  signedConstantValue : Option Int := none
  deriving DecidableEq

/-- A computed length rule. -/
structure ComputedLengthIr where
  scope : ComputedLengthScope := .frame
  rangeOffset : Nat := 0
  rangeLength : Nat := 0
  origin : ConfigOrigin := {}
  rangeOrigin : ConfigOrigin := {}
  deriving DecidableEq

/-- An enumeration entry. -/
structure EnumEntryIr where
  id : String := ""
  displayName : String := ""
  rawValue : Nat := 0
  origin : ConfigOrigin := {}
  deriving DecidableEq

/-- An exact rational parameter. -/
structure RationalIr where
  numerator : Int := 0
  denominator : Nat := 1
  origin : ConfigOrigin := {}
  deriving DecidableEq

/-- A linear conversion; validation derives the executable descriptor. -/
structure LinearConversionIr where
  scale : RationalIr := {}
  bias : RationalIr := {}
  derived : LinearConversionDescriptor := {}
  origin : ConfigOrigin := {}
  deriving DecidableEq

/-- A field of a message. -/
structure FieldIr where
  id : String := ""
  displayName : String := ""
  description : String := ""
  sourceRef : String := ""
  valueType : ValueType := .uint64
  wire : WireIr := {}
  encode : EncodeIr := {}
  computedLength : Option ComputedLengthIr := none
  unknownEnumPolicy : UnknownEnumPolicy := .reject
  enumEntries : List EnumEntryIr := []
  conversion : Option LinearConversionIr := none
  origin : ConfigOrigin := {}
  deriving DecidableEq

/-- A message of the package. -/
structure MessageIr where
  id : String := ""
  displayName : String := ""
  description : String := ""
  sourceRef : String := ""
  directionId : String := ""
  frameLengthBytes : Nat := 0
  boundedPayload : Option BoundedPayloadIr := none
  matcherClauses : List MatcherClauseIr := []
  bitContainers : List BitContainerIr := []
  integrity : Option IntegrityIr := none
  fields : List FieldIr := []
  asciiText : Option AsciiTextLayoutIr := none
  origin : ConfigOrigin := {}
  deriving DecidableEq

/-- A configuration package. -/
structure SchemaIr where
  schemaVersion : String := ""
  protocolId : String := ""
  protocolVersion : String := ""
  displayName : String := ""
  description : String := ""
  sourceRef : String := ""
  resourceProfile : ResourceProfile := .desktop
  framingProfiles : List FramingProfileIr := []
  pipelines : List PipelineIr := []
  messages : List MessageIr := []
  deriving DecidableEq

end ProtocolAdapter.ConfigCompiler
