/-
This file defines the diagnostics of the plan builder and the arithmetic checks
its rules are written with. A rejected draft names the failed rule and the indices
of the draft object it failed on.
-/

import ProtocolAdapter.Foundation.Validation
import ProtocolAdapter.Plan.Bundle

namespace ProtocolAdapter

/-! ### Diagnostics -/

/-- The rule of the builder that rejected a draft. -/
inductive PlanBuildError where
  | none
  | invalidMetadata
  | resourceLimitExceeded
  | resourceRequirementsMismatch
  | invalidFramingPlan
  | invalidPipelinePlan
  | invalidMessagePlan
  | invalidMatcherPlan
  | invalidFieldPlan
  | frameNotFullyDefined
  | ambiguousMatcher
  | planMemoryLimitExceeded
  | planMemoryEstimateMismatch
  | allocationFailed
  | internalError
  deriving DecidableEq

/-- Where in the draft a rule failed; an index that does not apply is the sentinel. -/
structure PlanBuildDiagnostic where
  code : PlanBuildError := .internalError
  framingIndex : Nat := invalidIndex
  pipelineIndex : Nat := invalidIndex
  messageIndex : Nat := invalidIndex
  matcherIndex : Nat := invalidIndex
  fieldIndex : Nat := invalidIndex
  requiredBytes : Nat := 0
  limitBytes : Nat := 0
  resourceProfile : ResourceProfile := .desktop
  deriving DecidableEq

/-- The outcome of a builder rule. -/
abbrev BuildResult := Except PlanBuildDiagnostic

/-! ### Checked arithmetic -/

/-- The sum of two sizes, when `std::size_t` can hold it. -/
def addSizeChecked (value total : Nat) : Option Nat :=
  if value > maxUint64 - total then none else some (total + value)

/-- The product of two sizes, when `std::size_t` can hold it. -/
def multiplySizeChecked (left right : Nat) : Option Nat :=
  if left ≠ 0 ∧ right > maxUint64 / left then none else some (left * right)

/-- Whether a 64-bit value fits `std::size_t`. -/
def fitsSize (value : Nat) : Bool := value ≤ maxUint64

/-- Whether a nonempty range lies inside a capacity. -/
def isRangeWithin (offset width capacity : Nat) : Bool :=
  width ≠ 0 && offset ≤ capacity && width ≤ capacity - offset

/-- Whether an unsigned value fits a width of one to eight bytes. -/
def fitsUnsignedWidth (value width : Nat) : Bool :=
  0 < width && width ≤ 8 && value < 2 ^ (8 * width)

/-- Whether an unsigned value fits a width of one to sixty-four bits. -/
def fitsUnsignedBits (value width : Nat) : Bool :=
  0 < width && width ≤ 64 && value < 2 ^ width

/-- Whether a signed value fits a width of one to eight bytes. -/
def fitsSignedWidth (value : Int) (width : Nat) : Bool :=
  0 < width && width ≤ 8 && -(2 ^ (8 * width - 1) : Int) ≤ value && value < 2 ^ (8 * width - 1)

/-- The byte orders an integer of the given width may have. -/
def isIntegerByteOrderValid (byteOrder : ByteOrder) (width : Nat) : Bool :=
  if width = 1 then true else byteOrder == .big || byteOrder == .little

/-- The byte orders a bit container of the given width may have. -/
def isBitContainerByteOrderValid (byteOrder : ByteOrder) (width : Nat) : Bool :=
  if width = 1 then byteOrder == .notApplicable else byteOrder == .big || byteOrder == .little

/-- The all-ones value of a width in bytes. -/
def widthMask (width : Nat) : Nat := 2 ^ (8 * width) - 1

/-- The byte an unsigned value has at a position of its encoding. -/
def encodeUnsignedByte (value width : Nat) (byteOrder : ByteOrder) (byteIndex : Nat) : UInt8 :=
  let encodedIndex := if byteOrder = .big then width - 1 - byteIndex else byteIndex
  UInt8.ofNat (value >>> (encodedIndex * 8))

@[simp] theorem isRangeWithin_iff {offset width capacity : Nat} :
    isRangeWithin offset width capacity = true ↔ 0 < width ∧ offset + width ≤ capacity := by
  simp only [isRangeWithin, ne_eq, decide_not, Bool.and_eq_true, Bool.not_eq_eq_eq_not,
    Bool.not_true, decide_eq_false_iff_not, decide_eq_true_eq]
  omega

@[simp] theorem fitsUnsignedWidth_iff {value width : Nat} :
    fitsUnsignedWidth value width = true ↔ 0 < width ∧ width ≤ 8 ∧ value < 2 ^ (8 * width) := by
  simp [fitsUnsignedWidth, and_assoc]

@[simp] theorem fitsUnsignedBits_iff {value width : Nat} :
    fitsUnsignedBits value width = true ↔ 0 < width ∧ width ≤ 64 ∧ value < 2 ^ width := by
  simp [fitsUnsignedBits, and_assoc]

@[simp] theorem fitsSignedWidth_iff {value : Int} {width : Nat} :
    fitsSignedWidth value width = true ↔ 0 < width ∧ width ≤ 8 ∧
      -(2 ^ (8 * width - 1) : Int) ≤ value ∧ value < 2 ^ (8 * width - 1) := by
  simp [fitsSignedWidth, and_assoc]

/-! ### Identifiers -/

/-- The longest stable identifier. -/
def maxStableIdCharacters : Nat := 128

/-- The characters a stable identifier is made of. -/
def isStableIdCharacter (character : Char) : Bool :=
  ('a' ≤ character && character ≤ 'z') || ('0' ≤ character && character ≤ '9') || character == '_'

/-- A stable identifier starts with a lowercase letter and continues with lowercase
letters, digits and underscores. -/
def isStableId (value : String) : Bool :=
  match value.toList with
  | [] => false
  | first :: rest =>
    (first :: rest).length ≤ maxStableIdCharacters && 'a' ≤ first && first ≤ 'z' &&
      (first :: rest).all isStableIdCharacter

end ProtocolAdapter
