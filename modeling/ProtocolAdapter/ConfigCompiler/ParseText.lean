/-
This file defines the structural readers of text messages: their fields with the bytes
each may hold, and the templates of the two directions.
-/

import ProtocolAdapter.ConfigCompiler.ParseField

namespace ProtocolAdapter.ConfigCompiler

open Foundation

/-! ### Text fields -/

/-- Adds a byte to the set a text field may hold, kept as two 64-bit masks. -/
def addAllowedAscii (wire : WireIr) (value : Nat) : WireIr :=
  if value < 64 then { wire with allowedAsciiLow := wire.allowedAsciiLow ||| 1 <<< value }
  else { wire with allowedAsciiHigh := wire.allowedAsciiHigh ||| 1 <<< (value - 64) }

/-- The printable bytes, which every text field may hold. -/
def printableAscii : List Nat := List.range' 0x20 0x5F

/-- Adds the control bytes of a field, which must ascend and lie outside the printable
ones. -/
def addControlBytes (error : CompileDiagnostic) : List UInt8 → Int → WireIr → Compiled WireIr
  | [], _, wire => .ok wire
  | character :: rest, previous, wire => do
    rejectIf ((character > 0x1F ∧ character ≠ 0x7F) ∨ (character.toNat : Int) ≤ previous) error
    addControlBytes error rest character.toNat (addAllowedAscii wire character.toNat)

/-- Reads the control bytes a field may hold. A text that is no string of the expected
length is reported like a malformed one. -/
def parseControlBytes (controls : JsonValue) (pointer : String) (wire : WireIr) :
    Compiled WireIr :=
  match (readString controls pointer 2 98).toOption.bind parseHexBytes with
  | none => .error (structural .invalidHexBytes pointer
      "allowed_control_bytes must be canonical uppercase hexadecimal")
  | some decoded => addControlBytes (domain .asciiControlByteInvalid pointer
      "control bytes must be unique, ascending, and outside printable ASCII") decoded (-1) wire

def parseTextWire (value : JsonValue) (pointer : String) : Compiled WireIr := do
  rejectIf (!value.isObj) (structural .typeMismatch pointer "text wire must be an object")
  validateObjectProperties value pointer
    ["codec", "min_byte_length", "max_byte_length", "allowed_control_bytes"]
  let _ ← readRequiredEnumToken value "codec" pointer ["ascii_text"]
  let textMinLength ← readRequiredUint64 value "min_byte_length" pointer
  let textMaxLength ← readRequiredUint64 value "max_byte_length" pointer
  let wire : WireIr :=
    { codec := .asciiText
      textMinLength := textMinLength
      textMaxLength := textMaxLength
      origin := { jsonPointer := pointer } }
  let wire := printableAscii.foldl addAllowedAscii wire
  ifProperty value "allowed_control_bytes" (.ok wire) fun controls =>
    parseControlBytes controls (childPointer pointer "allowed_control_bytes") wire

def parseTextField (value : JsonValue) (pointer : String) : Compiled FieldIr := do
  rejectIf (!value.isObj) (structural .typeMismatch pointer "text field must be an object")
  validateObjectProperties value pointer
    ["id", "display_name", "description", "source_ref", "value_type", "wire", "encode"]
  let labels ← readLabels value pointer
  let _ ← readRequiredEnumToken value "value_type" pointer ["BYTES"]
  let wire ← requiredProperty value "wire" pointer
  let wire ← parseTextWire wire (childPointer pointer "wire")
  -- A source other than the input fails here without setting a diagnostic.
  let encode ← ifProperty value "encode" (.ok {}) fun encode => do
    let encode ← parseEncode encode (childPointer pointer "encode") .bytes false
    rejectIf (encode.source ≠ .input) {}
    pure encode
  pure
    { id := labels.id
      displayName := labels.displayName
      description := labels.description
      sourceRef := labels.sourceRef
      valueType := .bytes
      wire := wire
      encode := encode
      origin := { jsonPointer := pointer } }

def parseTextFields (value : JsonValue) (pointer : String) : Compiled (List FieldIr) := do
  rejectIf (!value.isArr) (structural .typeMismatch pointer "text fields must be an array")
  readElements parseTextField pointer value.elements 0

/-! ### Templates -/

def parseTextSegment (value : JsonValue) (pointer : String) : Compiled TextSegmentIr := do
  rejectIf (!value.isObj) (structural .typeMismatch pointer "text segment must be an object")
  let kind ← readRequiredEnumToken value "kind" pointer ["literal", "field"]
  if kind = "literal" then do
    validateObjectProperties value pointer ["kind", "text"]
    let text ← readRequiredString value "text" pointer 1 (64 * 1024)
    rejectIf (text.toUTF8.toList.any (· > 0x7F))
      (domain .asciiLiteralInvalid (childPointer pointer "text")
        "literal text must contain ASCII bytes only")
    pure
      { kind := .literal
        literal := text.toUTF8.toList
        origin := { jsonPointer := pointer } }
  else do
    validateObjectProperties value pointer ["kind", "field_id"]
    let fieldId ← readRequiredId value "field_id" pointer
    pure { kind := .field, fieldId, origin := { jsonPointer := pointer } }

def parseTextAction (value : JsonValue) (pointer : String) : Compiled TextActionIr := do
  rejectIf (!value.isObj) (structural .typeMismatch pointer "text action must be an object")
  validateObjectProperties value pointer ["segments"]
  let segments ← requiredProperty value "segments" pointer
  rejectIf (!segments.isArr)
    (structural .typeMismatch (childPointer pointer "segments") "segments must be an array")
  rejectIf (segments.elements = [])
    (domain .asciiTemplateEmpty (childPointer pointer "segments")
      "a declared text action must contain at least one segment")
  let segments ← readElements parseTextSegment (childPointer pointer "segments") segments.elements 0
  pure { segments }

/-- Reads the template of one direction, when the layout declares it. -/
def parseDirection (value : JsonValue) (key pointer : String) : Compiled (Option TextActionIr) :=
  ifProperty value key (.ok none) fun action => do
    let action ← parseTextAction action (childPointer pointer key)
    pure (some action)

def parseTextLayout (value : JsonValue) (pointer : String) : Compiled AsciiTextLayoutIr := do
  rejectIf (!value.isObj) (structural .typeMismatch pointer "text layout must be an object")
  validateObjectProperties value pointer ["kind", "encoding", "decode", "encode"]
  let encoding ← requiredProperty value "encoding" pointer
  let _ ← readRequiredEnumToken value "kind" pointer ["text"]
  let _ ← readEnumToken encoding (childPointer pointer "encoding") ["ascii"]
  let decode ← parseDirection value "decode" pointer
  let encode ← parseDirection value "encode" pointer
  rejectIf (decode = none ∧ encode = none)
    (structural .missingProperty pointer "text layout requires decode or encode")
  pure { decode, encode, origin := { jsonPointer := pointer } }

def parseTextMessage (value : JsonValue) (pointer : String) : Compiled MessageIr := do
  rejectIf (!value.isObj) (structural .typeMismatch pointer "text message must be an object")
  validateObjectProperties value pointer
    ["id", "display_name", "description", "source_ref", "direction_id", "layout", "fields"]
  let labels ← readLabels value pointer
  let directionId ← readRequiredId value "direction_id" pointer
  let layout ← requiredProperty value "layout" pointer
  let layout ← parseTextLayout layout (childPointer pointer "layout")
  let fields ← requiredProperty value "fields" pointer
  let fields ← parseTextFields fields (childPointer pointer "fields")
  pure
    { id := labels.id
      displayName := labels.displayName
      description := labels.description
      sourceRef := labels.sourceRef
      directionId := directionId
      fields := fields
      asciiText := some layout
      origin := { jsonPointer := pointer } }

/-! ### Reading a normal form -/

@[simp] theorem parseControlBytes_normal (controls : JsonValue) (pointer : String)
    (wire : WireIr) :
    parseControlBytes controls.normal pointer wire = parseControlBytes controls pointer wire := by
  simp [parseControlBytes]

@[simp] theorem parseTextWire_normal (value : JsonValue) (pointer : String) :
    parseTextWire value.normal pointer = parseTextWire value pointer := by
  simp [parseTextWire]

@[simp] theorem parseTextField_normal (value : JsonValue) (pointer : String) :
    parseTextField value.normal pointer = parseTextField value pointer := by
  simp [parseTextField]

@[simp] theorem parseTextFields_normal (value : JsonValue) (pointer : String) :
    parseTextFields value.normal pointer = parseTextFields value pointer := by
  simp [parseTextFields, readElements_normal parseTextField_normal]

@[simp] theorem parseTextSegment_normal (value : JsonValue) (pointer : String) :
    parseTextSegment value.normal pointer = parseTextSegment value pointer := by
  simp [parseTextSegment]

@[simp] theorem parseTextAction_normal (value : JsonValue) (pointer : String) :
    parseTextAction value.normal pointer = parseTextAction value pointer := by
  simp [parseTextAction, readElements_normal parseTextSegment_normal]

@[simp] theorem parseTextLayout_normal (value : JsonValue) (pointer : String) :
    parseTextLayout value.normal pointer = parseTextLayout value pointer := by
  simp [parseTextLayout, parseDirection]

@[simp] theorem parseTextMessage_normal (value : JsonValue) (pointer : String) :
    parseTextMessage value.normal pointer = parseTextMessage value pointer := by
  simp [parseTextMessage]

end ProtocolAdapter.ConfigCompiler
