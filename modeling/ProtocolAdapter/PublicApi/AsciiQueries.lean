/-
This file models what a compiled protocol tells about text templates: the bounds and the
segments of the template of one direction, and the fields the templates use. Each query checks
the frozen template again before it answers.
-/

import ProtocolAdapter.Codec.Types
import ProtocolAdapter.PublicApi.Execution
import ProtocolAdapter.PublicApi.Queries

namespace ProtocolAdapter.PublicApi

open Foundation Description

/-! ### Descriptions -/

/-- The direction of a template. -/
inductive AsciiAction where
  | decode
  | encode
  deriving DecidableEq

inductive AsciiSegmentKind where
  | literal
  | field
  deriving DecidableEq

/-- The outcome of a query. A selector outside the directions is excluded by their type. -/
inductive AsciiQueryStatus where
  | ok
  | invalidCompiledProtocol
  | indexOutOfRange
  | representationNotSupported
  | actionNotAvailable
  | internalContractViolation
  deriving DecidableEq

structure ByteLengthBounds where
  minimum : Nat := 0
  maximum : Nat := 0
  deriving DecidableEq

structure AsciiActionDescription where
  messageIndex : Nat := 0
  action : AsciiAction := .decode
  recordLength : ByteLengthBounds := {}
  segmentCount : Nat := 0
  deriving DecidableEq

/-- A segment: a literal, or a field by its index in the message and among all fields. -/
structure AsciiSegmentDescription where
  messageIndex : Nat := 0
  action : AsciiAction := .decode
  ordinal : Nat := 0
  kind : AsciiSegmentKind := .literal
  literal : Option (List UInt8) := none
  fieldIndex : Option Nat := none
  flatFieldIndex : Option Nat := none
  deriving DecidableEq

structure AsciiFieldDescription where
  flatFieldIndex : Nat := 0
  messageIndex : Nat := 0
  fieldIndex : Nat := 0
  byteLength : ByteLengthBounds := {}
  decodeReferenced : Bool := false
  encodeReferenced : Bool := false
  deriving DecidableEq

/-- The result of a query. -/
structure AsciiQueryResult (α : Type) where
  status : AsciiQueryStatus := .invalidCompiledProtocol
  value : Option α := none
  deriving DecidableEq

/-! ### Templates -/

/-- Whether a message is text. -/
def isAsciiMessage (message : MessageExecutionPlan) : Bool :=
  message.textDecode.isSome || message.textEncode.isSome

/-- The template of a message for a direction. -/
def selectAsciiAction (message : MessageExecutionPlan) :
    AsciiAction → Option TextActionExecutionPlan
  | .decode => message.textDecode
  | .encode => message.textEncode

/-- Whether a template uses a field. -/
def referencesAsciiField (action : Option TextActionExecutionPlan) (fieldIndex : Nat) : Bool :=
  match action with
  | none => false
  | some action => action.segments.any fun segment =>
      segment.kind == .field && segment.fieldIndex == fieldIndex

/-- Checks segments in order; `referenced` are the fields of the segments before. -/
def validAsciiSegments (message : MessageExecutionPlan) :
    List TextSegmentExecutionPlan → List Nat → Bool
  | [], _ => true
  | segment :: rest, referenced =>
    match segment.kind with
    | .literal =>
      if segment.literal = [] ∨ segment.fieldIndex ≠ invalidIndex then false
      else validAsciiSegments message rest referenced
    | .field =>
      match message.fields[segment.fieldIndex]? with
      | none => false
      | some field =>
        if field.valueType ≠ .bytes ∨ field.textMinLength > field.textMaxLength ∨
            segment.literal ≠ [] then false
        else if segment.fieldIndex ∈ referenced then false
        else validAsciiSegments message rest (segment.fieldIndex :: referenced)

/-- Checks a frozen template. -/
def validAsciiAction (action : TextActionExecutionPlan) (message : MessageExecutionPlan) : Bool :=
  if action.segments = [] ∨ action.minRecordLength > action.maxRecordLength ∨
      message.fields.length > desktopResourceProfileLimits.maxFieldsPerMessage then false
  else validAsciiSegments message action.segments []

/-! ### Queries -/

namespace CompiledProtocol

def asciiAction (compiled : Option CompiledProtocolArtifacts) (messageIndex : Nat)
    (action : AsciiAction) : AsciiQueryResult AsciiActionDescription :=
  match heldState compiled with
  | none => {}
  | some state =>
    match state.plan.messageExecutionPlans[messageIndex]? with
    | none => { status := .indexOutOfRange }
    | some execution =>
      if message compiled messageIndex = none then { status := .internalContractViolation }
      else if isAsciiMessage execution = false then { status := .representationNotSupported }
      else
        match selectAsciiAction execution action with
        | none => { status := .actionNotAvailable }
        | some selected =>
          if validAsciiAction selected execution = false then
            { status := .internalContractViolation }
          else
            { status := .ok
              value := some
                { messageIndex := messageIndex
                  action := action
                  recordLength := ⟨selected.minRecordLength, selected.maxRecordLength⟩
                  segmentCount := selected.segments.length } }

/-- The segment of the template of a message, whose reads are those of its arrays. -/
def selectAsciiSegment (compiled : Option CompiledProtocolArtifacts) (messageIndex : Nat)
    (action : AsciiAction) (ordinal : Nat) : Access TextSegmentExecutionPlan := do
  let state ← compiled
  let execution ← state.plan.messageExecutionPlans[messageIndex]?
  let selected ← selectAsciiAction execution action
  selected.segments[ordinal]?

def asciiSegment (compiled : Option CompiledProtocolArtifacts) (messageIndex : Nat)
    (action : AsciiAction) (ordinal : Nat) :
    Access (AsciiQueryResult AsciiSegmentDescription) :=
  let selected := asciiAction compiled messageIndex action
  match selected.value with
  | none => some { status := selected.status }
  | some description =>
    if selected.status ≠ .ok then some { status := selected.status }
    else if ordinal ≥ description.segmentCount then some { status := .indexOutOfRange }
    else do
      let segment ← selectAsciiSegment compiled messageIndex action ordinal
      let value : AsciiSegmentDescription :=
        { messageIndex := messageIndex, action := action, ordinal := ordinal }
      match segment.kind with
      | .literal =>
        some { status := .ok
               value := some { value with kind := .literal, literal := some segment.literal } }
      | .field =>
        match message compiled messageIndex with
        | none => some { status := .internalContractViolation }
        | some owner =>
          if segment.fieldIndex ≥ owner.fieldCount ∨
              segment.fieldIndex > maxUint64 - owner.fieldBegin then
            some { status := .internalContractViolation }
          else
            let flat := owner.fieldBegin + segment.fieldIndex
            if field compiled flat = none then some { status := .internalContractViolation }
            else
              some { status := .ok
                     value := some { value with
                       kind := .field
                       fieldIndex := some segment.fieldIndex
                       flatFieldIndex := some flat } }

/-- Whether the templates of a message and its field agree with each other. -/
def asciiFieldInvalid (execution : MessageExecutionPlan) (field : FieldExecutionPlan)
    (fieldIndex : Nat) : Bool :=
  field.textMinLength > field.textMaxLength ||
    (execution.textDecode.any fun action => !validAsciiAction action execution) ||
    (execution.textEncode.any fun action => !validAsciiAction action execution) ||
    (!referencesAsciiField execution.textDecode fieldIndex &&
      !referencesAsciiField execution.textEncode fieldIndex) ||
    referencesAsciiField execution.textEncode fieldIndex != field.textEncodeInput

def asciiField (compiled : Option CompiledProtocolArtifacts) (flatFieldIndex : Nat) :
    Access (AsciiQueryResult AsciiFieldDescription) :=
  match heldState compiled with
  | none => some {}
  | some state =>
    if flatFieldIndex ≥ fieldCount compiled then some { status := .indexOutOfRange }
    else
      match field compiled flatFieldIndex with
      | none => some { status := .internalContractViolation }
      | some description =>
        if description.messageIndex ≥ messageCount compiled then
          some { status := .internalContractViolation }
        else do
          let execution ← state.plan.messageExecutionPlans[description.messageIndex]?
          if isAsciiMessage execution = false then
            some { status := .representationNotSupported }
          else
            match execution.fields[description.indexInMessage]? with
            | none => some { status := .internalContractViolation }
            | some field =>
              if field.valueType ≠ .bytes ∨
                  asciiFieldInvalid execution field description.indexInMessage = true then
                some { status := .internalContractViolation }
              else
                some { status := .ok
                       value := some
                         { flatFieldIndex := flatFieldIndex
                           messageIndex := description.messageIndex
                           fieldIndex := description.indexInMessage
                           byteLength := ⟨field.textMinLength, field.textMaxLength⟩
                           decodeReferenced := referencesAsciiField execution.textDecode
                             description.indexInMessage
                           encodeReferenced := referencesAsciiField execution.textEncode
                             description.indexInMessage } }

end CompiledProtocol

end ProtocolAdapter.PublicApi
