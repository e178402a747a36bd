/-
This file defines the structural readers of framing profiles, pipelines and matchers.
Every reader checks the shape of its object, rejects the members it does not know and
then reads its members by name in a fixed order, so it gives one result for an object
and for its normal form.
-/

import ProtocolAdapter.ConfigCompiler.Readers

namespace ProtocolAdapter.ConfigCompiler

open Foundation

/-! ### Framing profiles -/

/-- Reads the rest of a profile that splits a stream at carriage return and line feed. -/
def parseAsciiCrlfProfile (value : JsonValue) (pointer : String) (output : FramingProfileIr) :
    Compiled FramingProfileIr := do
  let terminator ← readRequiredString value "terminator_text" pointer 2 2
  rejectIf (terminator ≠ "\r\n")
    (domain .asciiStreamTerminatorInvalid (childPointer pointer "terminator_text")
      "ASCII stream terminator must be exactly CRLF")
  let maximumFrameLength ← readRequiredUint64 value "maximum_frame_length" pointer
  rejectIf (maximumFrameLength < 2)
    (domain .asciiStreamProfileMismatch (childPointer pointer "maximum_frame_length")
      "ASCII stream maximum_frame_length must include CRLF")
  rejectMembers value ["frame_length_bytes", "sync_bytes", "length_field", "minimum_frame_length"]
    pointer "ASCII CRLF profile contains a member from another strategy"
  pure { output with
    strategy := .asciiCrlf
    syncBytes := [0x0D, 0x0A]
    maximumFrameLength := maximumFrameLength }

/-- Reads the synchronisation bytes of a binary stream profile. -/
def parseSyncBytes (value : JsonValue) (pointer : String) (output : FramingProfileIr) :
    Compiled FramingProfileIr := do
  let text ← readRequiredString value "sync_bytes" pointer 1 (3 * 64 - 1)
  match parseHexBytes text with
  | some (first :: rest) => pure { output with syncBytes := first :: rest }
  | _ => .error (structural .invalidHexBytes (childPointer pointer "sync_bytes")
      "sync_bytes must be a non-empty canonical hex byte string")

/-- Reads the rest of a profile that splits a stream into frames of one length. -/
def parseFixedLengthProfile (value : JsonValue) (pointer : String) (synchronised : Bool)
    (output : FramingProfileIr) : Compiled FramingProfileIr := do
  rejectMembers value ["terminator_text"] pointer
    "binary stream profile cannot contain terminator_text"
  let frameLengthBytes ← readRequiredUint64 value "frame_length_bytes" pointer
  rejectMembers value (["length_field", "minimum_frame_length", "maximum_frame_length"] ++
      if synchronised then [] else ["sync_bytes"]) pointer
    "framing strategy contains a member from another strategy"
  let output := { output with
    strategy := if synchronised then .syncFixedLength else .fixedLength
    frameLengthBytes := frameLengthBytes }
  if synchronised then parseSyncBytes value pointer output else pure output

/-- Reads the length field of a profile whose frames declare their length. -/
def parseLengthField (value : JsonValue) (pointer : String) (output : FramingProfileIr) :
    Compiled FramingProfileIr := do
  rejectIf (!value.isObj) (structural .typeMismatch pointer "length_field must be an object")
  validateObjectProperties value pointer ["byte_offset", "byte_width", "byte_order"]
  let offset ← readRequiredUint64 value "byte_offset" pointer
  let width ← readRequiredUint64 value "byte_width" pointer
  rejectIf (width ≠ 1 ∧ width ≠ 2 ∧ width ≠ 4)
    (structural .invalidEnumValue (childPointer pointer "byte_width")
      "stream length_field byte_width must be 1, 2, or 4")
  let output := { output with lengthFieldOffset := offset, lengthFieldWidth := width }
  if width = 1 then do
    rejectMembers value ["byte_order"] pointer "one-byte length_field must omit byte_order"
    pure output
  else
    ifProperty value "byte_order"
      (.error (structural .missingProperty (childPointer pointer "byte_order")
        "multi-byte length_field requires byte_order"))
      fun found => do
        let byteOrder ← readByteOrder found (childPointer pointer "byte_order")
        pure { output with lengthFieldByteOrder := byteOrder }

/-- Reads the rest of a profile whose frames declare their length. -/
def parseSyncLengthFieldProfile (value : JsonValue) (pointer : String)
    (output : FramingProfileIr) : Compiled FramingProfileIr := do
  rejectMembers value ["terminator_text"] pointer
    "binary stream profile cannot contain terminator_text"
  rejectMembers value ["frame_length_bytes"] pointer
    "framing strategy contains a member from another strategy"
  let minimumFrameLength ← readRequiredUint64 value "minimum_frame_length" pointer
  let maximumFrameLength ← readRequiredUint64 value "maximum_frame_length" pointer
  let lengthField ← requiredProperty value "length_field" pointer
  let output ← parseLengthField lengthField (childPointer pointer "length_field") { output with
    strategy := .syncLengthField
    minimumFrameLength := minimumFrameLength
    maximumFrameLength := maximumFrameLength }
  parseSyncBytes value pointer output

/-- The members of a framing profile; only a schema with stream framing has the rest. -/
def framingProperties (supportsStream : Bool) : List String :=
  ["id", "display_name", "description", "source_ref", "input_kind"] ++
    if supportsStream then
      ["strategy", "frame_length_bytes", "sync_bytes", "length_field", "minimum_frame_length",
        "maximum_frame_length", "terminator_text"]
    else []

/-- Reads the strategy of a stream profile and the members it needs. -/
def parseStreamProfile (supportsAsciiStream : Bool) (value : JsonValue) (pointer : String)
    (output : FramingProfileIr) : Compiled FramingProfileIr := do
  let strategy ← readRequiredEnumToken value "strategy" pointer
    (if supportsAsciiStream then ["ascii_crlf"]
      else ["fixed_length", "sync_fixed_length", "sync_length_field"])
  if strategy = "ascii_crlf" then parseAsciiCrlfProfile value pointer output
  else if strategy = "fixed_length" ∨ strategy = "sync_fixed_length" then
    parseFixedLengthProfile value pointer (strategy = "sync_fixed_length") output
  else parseSyncLengthFieldProfile value pointer output

def parseFramingProfile (supportsStream supportsAsciiStream : Bool) (value : JsonValue)
    (pointer : String) : Compiled FramingProfileIr := do
  rejectIf (!value.isObj) (structural .typeMismatch pointer "framing profile must be an object")
  validateObjectProperties value pointer (framingProperties (supportsStream || supportsAsciiStream))
  let labels ← readLabels value pointer
  let inputKind ← readRequiredEnumToken value "input_kind" pointer
    (if supportsStream || supportsAsciiStream then ["complete_record", "stream_chunk"]
      else ["complete_record"])
  let output : FramingProfileIr :=
    { id := labels.id
      displayName := labels.displayName
      description := labels.description
      sourceRef := labels.sourceRef
      origin := { jsonPointer := pointer } }
  if inputKind = "stream_chunk" then
    parseStreamProfile supportsAsciiStream value pointer { output with inputKind := .streamChunk }
  else do
    rejectMembers value ["strategy", "frame_length_bytes", "sync_bytes", "length_field",
        "minimum_frame_length", "maximum_frame_length", "terminator_text"] pointer
      "complete_record framing profile cannot contain stream members"
    pure output

/-! ### Pipelines -/

def parseStringIdArray (value : JsonValue) (pointer : String) : Compiled (List String) :=
  readNonemptyArray readStableId value pointer "expected an array of stable IDs"
    "array must contain at least one item"

def parsePipeline (value : JsonValue) (pointer : String) : Compiled PipelineIr := do
  rejectIf (!value.isObj) (structural .typeMismatch pointer "pipeline must be an object")
  validateObjectProperties value pointer ["id", "display_name", "description", "source_ref",
    "direction_id", "input_framing_profile_id", "message_ids"]
  let labels ← readLabels value pointer
  let directionId ← readRequiredId value "direction_id" pointer
  let inputFramingProfileId ← readRequiredId value "input_framing_profile_id" pointer
  let messageIds ← requiredProperty value "message_ids" pointer
  let messageIds ← parseStringIdArray messageIds (childPointer pointer "message_ids")
  pure
    { id := labels.id
      displayName := labels.displayName
      description := labels.description
      sourceRef := labels.sourceRef
      directionId := directionId
      inputFramingProfileId := inputFramingProfileId
      messageIds := messageIds
      origin := { jsonPointer := pointer } }

/-! ### Matchers -/

/-- Reads a clause that fixes the length of the frame. -/
def parseLengthClause (value : JsonValue) (pointer : String) : Compiled MatcherClauseIr := do
  validateObjectProperties value pointer ["kind", "length_bytes"]
  let lengthBytes ← readRequiredUint64 value "length_bytes" pointer
  rejectIf (lengthBytes = 0 ∨ lengthBytes > 1024 * 1024)
    (structural .integerOutOfRange (childPointer pointer "length_bytes")
      "matcher length must be in the range 1..1048576")
  pure
    { kind := .frameLengthEquals
      lengthBytes := lengthBytes
      origin := { jsonPointer := pointer } }

/-- Reads a clause that fixes some bytes of the frame. -/
def parseFixedBytesClause (value : JsonValue) (pointer : String) : Compiled MatcherClauseIr := do
  validateObjectProperties value pointer ["kind", "byte_offset", "bytes"]
  let byteOffset ← readRequiredUint64 value "byte_offset" pointer
  rejectIf (byteOffset ≥ 1024 * 1024)
    (structural .integerOutOfRange (childPointer pointer "byte_offset")
      "matcher byte offset must be less than 1048576")
  let text ← readRequiredString value "bytes" pointer 2 (3 * 1024 * 1024)
  match parseHexBytes text with
  | some bytes =>
    .ok { kind := .fixedBytes, byteOffset, bytes, origin := { jsonPointer := pointer } }
  | none => .error (structural .invalidHexBytes (childPointer pointer "bytes")
      "fixed byte pattern must be uppercase 'AA BB' form")

def parseMatcherClause (value : JsonValue) (pointer : String) : Compiled MatcherClauseIr := do
  rejectIf (!value.isObj) (structural .typeMismatch pointer "matcher clause must be an object")
  let kind ← readRequiredEnumToken value "kind" pointer ["frame_length_equals", "fixed_bytes"]
  if kind = "frame_length_equals" then parseLengthClause value pointer
  else parseFixedBytesClause value pointer

def parseMatcher (value : JsonValue) (pointer : String) : Compiled (List MatcherClauseIr) := do
  rejectIf (!value.isObj) (structural .typeMismatch pointer "matcher must be an object")
  validateObjectProperties value pointer ["all"]
  let all ← requiredProperty value "all" pointer
  readNonemptyArray parseMatcherClause all (childPointer pointer "all")
    "matcher all must be an array" "matcher all must contain at least one clause"

/-! ### Reading a normal form -/

@[simp] theorem parseAsciiCrlfProfile_normal (value : JsonValue) (pointer : String)
    (output : FramingProfileIr) : parseAsciiCrlfProfile value.normal pointer output =
      parseAsciiCrlfProfile value pointer output := by
  simp [parseAsciiCrlfProfile]

@[simp] theorem parseSyncBytes_normal (value : JsonValue) (pointer : String)
    (output : FramingProfileIr) :
    parseSyncBytes value.normal pointer output = parseSyncBytes value pointer output := by
  simp [parseSyncBytes]

@[simp] theorem parseFixedLengthProfile_normal (value : JsonValue) (pointer : String)
    (synchronised : Bool) (output : FramingProfileIr) :
    parseFixedLengthProfile value.normal pointer synchronised output =
      parseFixedLengthProfile value pointer synchronised output := by
  simp [parseFixedLengthProfile]

@[simp] theorem parseLengthField_normal (value : JsonValue) (pointer : String)
    (output : FramingProfileIr) :
    parseLengthField value.normal pointer output = parseLengthField value pointer output := by
  simp [parseLengthField]

@[simp] theorem parseSyncLengthFieldProfile_normal (value : JsonValue) (pointer : String)
    (output : FramingProfileIr) : parseSyncLengthFieldProfile value.normal pointer output =
      parseSyncLengthFieldProfile value pointer output := by
  simp [parseSyncLengthFieldProfile]

@[simp] theorem parseStreamProfile_normal (supportsAsciiStream : Bool) (value : JsonValue)
    (pointer : String) (output : FramingProfileIr) :
    parseStreamProfile supportsAsciiStream value.normal pointer output =
      parseStreamProfile supportsAsciiStream value pointer output := by
  simp [parseStreamProfile]

@[simp] theorem parseFramingProfile_normal (supportsStream supportsAsciiStream : Bool)
    (value : JsonValue) (pointer : String) :
    parseFramingProfile supportsStream supportsAsciiStream value.normal pointer =
      parseFramingProfile supportsStream supportsAsciiStream value pointer := by
  simp [parseFramingProfile]

@[simp] theorem parsePipeline_normal (value : JsonValue) (pointer : String) :
    parsePipeline value.normal pointer = parsePipeline value pointer := by
  simp [parsePipeline, parseStringIdArray]

@[simp] theorem parseMatcherClause_normal (value : JsonValue) (pointer : String) :
    parseMatcherClause value.normal pointer = parseMatcherClause value pointer := by
  simp [parseMatcherClause, parseLengthClause, parseFixedBytesClause]

@[simp] theorem parseMatcher_normal (value : JsonValue) (pointer : String) :
    parseMatcher value.normal pointer = parseMatcher value pointer := by
  simp [parseMatcher]

end ProtocolAdapter.ConfigCompiler
