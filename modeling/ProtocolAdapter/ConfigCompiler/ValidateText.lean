/-
This file defines the domain validation of text messages: the references and lengths of
the two templates, the fields each of them uses, and the boundary at the first carriage
return and line feed that a stream profile relies on.
-/

import ProtocolAdapter.Builder.Text
import ProtocolAdapter.ConfigCompiler.Diagnostics
import ProtocolAdapter.ConfigCompiler.SchemaIr

namespace ProtocolAdapter.ConfigCompiler

open Foundation

/-! ### Templates -/

/-- The field an identifier names, with its index in the message. -/
def findField (fields : List FieldIr) (id : String) : Option (FieldIr × Nat) :=
  fields.zipIdx.find? fun item => item.1.id = id

/-- The bounds on the record length after one more part. -/
def addLengths (minimum maximum : Nat) (tally : TextTally) : Option TextTally := do
  let minimum ← addSizeChecked minimum tally.minimum
  let maximum ← addSizeChecked maximum tally.maximum
  some { tally with minimum := minimum, maximum := maximum }

/-- Resolves one segment of a template; `rest` are the segments after it. -/
def validateTextSegment (fields : List FieldIr) (segment : TextSegmentIr)
    (rest : List TextSegmentIr) (tally : TextTally) : Compiled (TextSegmentIr × TextTally) :=
  let size := segment.literal.length
  match segment.kind with
  | .literal =>
    match if segment.literal = [] then none else addLengths size size tally with
    | some tally => .ok (segment, tally)
    | none => .error (domain .asciiLiteralInvalid segment.origin.jsonPointer
        "text literal is empty or record length arithmetic overflows")
  | .field =>
    match findField fields segment.fieldId with
    | none => .error (domain .unknownReference
        (childPointer segment.origin.jsonPointer "field_id")
        "text segment references an unknown field")
    | some (descriptor, fieldIndex) => do
      rejectIf (fieldIndex ∈ tally.references)
        (domain .duplicateReference (childPointer segment.origin.jsonPointer "field_id")
          "a field may appear at most once in each text action")
      match addLengths descriptor.wire.textMinLength descriptor.wire.textMaxLength tally with
      | none => .error (domain .asciiFieldLengthInvalid descriptor.wire.origin.jsonPointer
          "text record length arithmetic overflows")
      | some tally => do
        rejectIf (descriptor.wire.textMinLength ≠ descriptor.wire.textMaxLength ∧
            ∃ next ∈ rest.head?, next.kind ≠ .literal)
          (domain .asciiFieldBoundaryAmbiguous segment.origin.jsonPointer
            "a non-trailing variable text field requires an immediate literal")
        pure ({ segment with fieldIndex := fieldIndex },
          { tally with references := fieldIndex :: tally.references })

/-- Resolves the segments of a template in order. -/
def validateTextSegments (fields : List FieldIr) :
    List TextSegmentIr → TextTally → Compiled (List TextSegmentIr × TextTally)
  | [], tally => .ok ([], tally)
  | segment :: rest, tally => do
    let (segment, tally) ← validateTextSegment fields segment rest tally
    let (segments, tally) ← validateTextSegments fields rest tally
    pure (segment :: segments, tally)

/-- Resolves a template, derives the bounds on its records and accounts for its segments.
The fields it references come with the result. -/
def validateTextAction (fields : List FieldIr) (action : TextActionIr)
    (requirements : ResourceRequirements) :
    Compiled (TextActionIr × List Nat × ResourceRequirements) := do
  let (segments, tally) ← validateTextSegments fields action.segments {}
  match addSizeChecked segments.length requirements.totalTextSegmentCount with
  | none => .error (domain .resourceLimitExceeded
      ((segments.head?.getD {}).origin.jsonPointer) "text segment count overflows this build")
  | some count =>
    .ok ({ segments, minRecordLength := tally.minimum, maxRecordLength := tally.maximum },
      tally.references, { requirements with totalTextSegmentCount := count })

/-- Resolves the template of one direction, when there is one. -/
def validateDirection (fields : List FieldIr) (action : Option TextActionIr)
    (requirements : ResourceRequirements) :
    Compiled (Option TextActionIr × List Nat × ResourceRequirements) :=
  match action with
  | none => .ok (none, [], requirements)
  | some action => do
    let (action, references, requirements) ← validateTextAction fields action requirements
    pure (some action, references, requirements)

/-! ### Text messages -/

/-- Checks the fields of a text message in order; `taken` are the identifiers before. -/
def validateTextFields : List FieldIr → List String → Compiled Unit
  | [], _ => .ok ()
  | field :: rest, taken => do
    rejectIf (field.id ∈ taken)
      (domain .duplicateId (childPointer field.origin.jsonPointer "id")
        "field ID is duplicated within the text message")
    rejectIf (field.valueType ≠ .bytes ∨ field.wire.codec ≠ .asciiText)
      (domain .asciiFieldReferenceInvalid field.origin.jsonPointer
        "text Message fields must be ASCII BYTES fields")
    rejectIf (field.wire.textMinLength > field.wire.textMaxLength)
      (domain .asciiFieldLengthInvalid
        (childPointer field.wire.origin.jsonPointer "min_byte_length")
        "min_byte_length must not exceed max_byte_length")
    validateTextFields rest (field.id :: taken)

/-- Checks that each field is used, and declares an encode source exactly when the encode
template uses it. -/
def validateReferences (decoded encoded : List Nat) : List FieldIr → Nat → Compiled Unit
  | [], _ => .ok ()
  | field :: rest, index => do
    rejectIf (index ∉ decoded ∧ index ∉ encoded)
      (domain .asciiFieldReferenceInvalid field.origin.jsonPointer
        "text field is not referenced by any action")
    rejectIf (decide (index ∈ encoded) ≠ decide (field.encode.origin.jsonPointer ≠ ""))
      (domain .asciiFieldReferenceInvalid field.origin.jsonPointer
        (if index ∈ encoded then "encode field requires encode.source input"
          else "Decode-only field must omit encode"))
    validateReferences decoded encoded rest (index + 1)

/-- The longest record of an optional template. -/
def maxRecordLength (action : Option TextActionIr) : Nat :=
  match action with
  | none => 0
  | some action => action.maxRecordLength

/-- Validates a text message against its layout and accounts for it. -/
def validateAsciiMessage (message : MessageIr) (layout : AsciiTextLayoutIr)
    (requirements : ResourceRequirements) : Compiled (MessageIr × ResourceRequirements) := do
  rejectIf (message.matcherClauses ≠ [] ∨ message.bitContainers ≠ [] ∨
      message.integrity.isSome ∨ message.boundedPayload.isSome)
    (domain .internalContractViolation message.origin.jsonPointer
      "Schema 0.10 text Message contains a Binary execution descriptor")
  validateTextFields message.fields []
  let (decode, decoded, requirements) ← validateDirection message.fields layout.decode requirements
  let (encode, encoded, requirements) ← validateDirection message.fields layout.encode requirements
  validateReferences decoded encoded message.fields 0
  let frameLengthBytes := max (maxRecordLength decode) (maxRecordLength encode)
  rejectIf (frameLengthBytes = 0)
    (domain .asciiFieldLengthInvalid layout.origin.jsonPointer
      "text Message maximum record length must be non-zero")
  match addSizeChecked message.fields.length requirements.totalFieldCount with
  | none => .error (domain .resourceLimitExceeded message.origin.jsonPointer
      "text field count overflows this build")
  | some fieldCount =>
    let text : AsciiTextLayoutIr := { layout with decode := decode, encode := encode }
    .ok ({ message with frameLengthBytes := frameLengthBytes, asciiText := some text },
      { requirements with
        maxFrameBytes := max requirements.maxFrameBytes frameLengthBytes
        totalFieldCount := fieldCount })

/-! ### The boundary of a text stream -/

/-- The members of a segment that the boundary proof reads. -/
def boundarySegment (segment : TextSegmentIr) : TextSegmentPlan where
  kind := segment.kind
  literal := segment.literal
  fieldIndex := segment.fieldIndex

/-- The members of a field that the boundary proof reads. -/
def boundaryField (field : FieldIr) : FieldPlan where
  textMinLength := field.wire.textMinLength
  textMaxLength := field.wire.textMaxLength
  allowedAsciiLow := field.wire.allowedAsciiLow
  allowedAsciiHigh := field.wire.allowedAsciiHigh

/-- Whether every record of an action ends with its first CR LF. The compiler has its own
copy of the function the builder checks the frozen action with. -/
def proveAsciiCrLfBoundary (action : TextActionIr) (fields : List FieldIr) : Bool :=
  ProtocolAdapter.proveAsciiCrLfBoundary { segments := action.segments.map boundarySegment }
    (fields.map boundaryField)

end ProtocolAdapter.ConfigCompiler
