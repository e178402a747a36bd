/-
This file defines the diagnostics of the configuration compiler: the stage a
document was rejected in, the reason, and the pointer to the configuration value
the reason is about.
-/

import ProtocolAdapter.Foundation.Validation
import ProtocolAdapter.Plan.Types

namespace ProtocolAdapter.ConfigCompiler

/-! ### Stages and errors -/

/-- The stage of the compiler that rejected a document. -/
inductive CompileStage where
  | inputProfile
  | jsonSyntax
  | jsonResource
  | structural
  | domainValidation
  | resourceBudget
  | planBuild
  | internal
  deriving DecidableEq

/-- Why a document was rejected. -/
inductive CompileError where
  | none
  | emptyInput
  | inputLimitExceeded
  | utf8BomNotAllowed
  | invalidUtf8
  | invalidUnicodeEscape
  | nestingDepthLimitExceeded
  | jsonSyntaxError
  | jsonAllocationFailed
  | jsonParserMemoryLimitExceeded
  | jsonNodeLimitExceeded
  | objectMemberLimitExceeded
  | arrayElementLimitExceeded
  | stringLimitExceeded
  | decodedStringBudgetExceeded
  | numberTokenLimitExceeded
  | duplicateKey
  | rootMustBeObject
  | missingProperty
  | unknownProperty
  | typeMismatch
  | invalidStringLength
  | invalidId
  | invalidEnumValue
  | integerNotExact
  | integerOutOfRange
  | invalidHexBytes
  | emptyArray
  | unsupportedFeature
  | duplicateId
  | duplicateReference
  | unknownReference
  | directionMismatch
  | fieldOutOfBounds
  | fieldOverlap
  | frameNotFullyDefined
  | valueNotRepresentable
  | matcherOutOfBounds
  | matcherConflict
  | integrityRangeOutOfBounds
  | integrityStorageOutOfBounds
  | integritySelfIncluded
  | integrityStorageConflict
  | ambiguousMatcher
  | resourceLimitExceeded
  | compilerAllocationFailed
  | internalContractViolation
  | asciiLiteralInvalid
  | asciiControlByteInvalid
  | asciiFieldLengthInvalid
  | asciiFieldReferenceInvalid
  | asciiFieldBoundaryAmbiguous
  | asciiTemplateEmpty
  | asciiStreamTerminatorInvalid
  | asciiStreamBoundaryUnproven
  | asciiStreamProfileMismatch
  deriving DecidableEq

/-- What an exceeded budget accounts for. -/
inductive ResourceKind where
  | none
  | planAccountedMemory
  | uiDescriptionAccountedMemory
  deriving DecidableEq

/-- The diagnostic of a rejected document. The pointer names a configuration value;
the offset, when there is one, counts input bytes. -/
structure CompileDiagnostic where
  stage : CompileStage := .internal
  code : CompileError := .internalContractViolation
  jsonPointer : String := ""
  byteOffset : Option Nat := none
  detail : String := ""
  resourceKind : ResourceKind := .none
  requiredBytes : Nat := 0
  limitBytes : Nat := 0
  resourceProfile : ResourceProfile := .desktop
  deriving DecidableEq

/-- The outcome of a step of the compiler. -/
abbrev Compiled := Except CompileDiagnostic

/-- The diagnostic a check of the structural stage sets. -/
def structural (code : CompileError) (jsonPointer detail : String) : CompileDiagnostic :=
  { stage := .structural, code := code, jsonPointer := jsonPointer, detail := detail }

/-- The diagnostic a check of domain validation sets. -/
def domain (code : CompileError) (jsonPointer detail : String) : CompileDiagnostic :=
  { stage := .domainValidation, code := code, jsonPointer := jsonPointer, detail := detail }

/-! ### Pointers -/

/-- A reference token of a JSON pointer, with its two special characters escaped. -/
def escapeToken (token : String) : List Char :=
  token.toList.flatMap fun character =>
    if character = '~' then ['~', '0'] else if character = '/' then ['~', '1'] else [character]

/-- The pointer to a member of the value a pointer names. -/
def childPointer (parent token : String) : String :=
  String.ofList (parent.toList ++ '/' :: escapeToken token)

/-- The pointer to an element of the array a pointer names. -/
def indexPointer (parent : String) (index : Nat) : String :=
  childPointer parent (toString index)

end ProtocolAdapter.ConfigCompiler
