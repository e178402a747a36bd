/-
This file defines the enumerations, resource limits and accounting records that
the compiled plan, the framer and the codec share. Sizes, offsets and 64-bit
counters are natural numbers; where the code guards an addition or a product
against the width of `std::size_t` or `std::uint64_t`, the guard is written out
with the bound below.
-/

import Mathlib.Algebra.Group.Int.Defs
import Mathlib.Algebra.GroupWithZero.Nat

namespace ProtocolAdapter

/-! ### Machine bounds -/

/-- The largest value of `std::size_t` and `std::uint64_t` on the 64-bit targets. -/
def maxUint64 : Nat := 2 ^ 64 - 1

/-- The sentinel of an index that was never resolved, the largest `std::size_t`. -/
def invalidIndex : Nat := maxUint64

/-! ### Byte views -/

/-- A borrowed view of bytes. `data` is its address, absent for the null pointer; a
null view that claims a nonzero size is what the operations reject as an invalid
argument before they read a byte. -/
structure ByteView where
  data : Option Nat := none
  bytes : List UInt8 := []
  deriving DecidableEq

/-- The number of bytes of a view. -/
abbrev ByteView.size (view : ByteView) : Nat := view.bytes.length

/-! ### Enumerations -/

/-- The two resource profiles of a configuration package. -/
inductive ResourceProfile where
  | desktop
  | constrained
  deriving DecidableEq

/-- How bytes reach a pipeline: whole records or chunks of a stream. -/
inductive InputKind where
  | completeRecord
  | streamChunk
  deriving DecidableEq

/-- The rule that finds frame boundaries in a stream. -/
inductive FramingStrategy where
  | completeRecord
  | fixedLength
  | syncFixedLength
  | syncLengthField
  | asciiCrlf
  deriving DecidableEq

/-- The kinds of structural matcher clauses. -/
inductive MatcherKind where
  | frameLengthEquals
  | fixedBytes
  deriving DecidableEq

/-- The logical value type of a field. -/
inductive ValueType where
  | uint64
  | int64
  | bytes
  | enum
  | bool
  deriving DecidableEq

/-- The wire representation of a field. -/
inductive WireCodec where
  | unsignedInteger
  | bytes
  | bitfield
  | asciiText
  deriving DecidableEq

/-- A segment of a text template is a literal or a field. -/
inductive TextSegmentKind where
  | literal
  | field
  deriving DecidableEq

/-- From which end the bits of a container are numbered. -/
inductive BitNumbering where
  | lsb0
  | msb0
  deriving DecidableEq

/-- The byte order of a multi-byte integer. -/
inductive ByteOrder where
  | notApplicable
  | big
  | little
  deriving DecidableEq

/-- Where the encoder takes the value of a field from. -/
inductive EncodeSource where
  | input
  | constant
  | computed
  deriving DecidableEq

/-- What a computed length field counts. -/
inductive ComputedLengthScope where
  | frame
  | region
  | payload
  deriving DecidableEq

/-- What decoding does with an enumeration value that has no entry. -/
inductive UnknownEnumPolicy where
  | reject
  | preserve
  deriving DecidableEq

/-- The integrity algorithms. -/
inductive IntegrityAlgorithm where
  | sum8
  | crc
  deriving DecidableEq

/-- The categories under which plan memory is accounted. -/
inductive PlanMemoryCategory where
  | object
  | string
  | matcher
  | metadataContainer
  | executionDescriptor
  | index
  | extension
  deriving DecidableEq

/-! ### Resource limits -/

/-- The limits a resource profile imposes on a configuration package. -/
structure ResourceProfileLimits where
  maxFrameBytes : Nat
  maxFramingProfiles : Nat
  maxPipelines : Nat
  maxMessages : Nat
  maxFieldsPerMessage : Nat
  maxTotalFields : Nat
  maxMatchersPerMessage : Nat
  maxTotalMatchers : Nat
  maxEnumEntriesPerField : Nat
  maxTotalEnumEntries : Nat
  maxSessionMemoryBytes : Nat
  maxPlanMemoryBytes : Nat
  maxSubmitBytes : Nat
  maxFramesPerSubmit : Nat
  maxSyncBytes : Nat
  maxFramerWorkUnits : Nat

/-- The limits of the desktop profile. -/
def desktopResourceProfileLimits : ResourceProfileLimits where
  maxFrameBytes := 64 * 1024
  maxFramingProfiles := 32
  maxPipelines := 32
  maxMessages := 64
  maxFieldsPerMessage := 2048
  maxTotalFields := 8192
  maxMatchersPerMessage := 64
  maxTotalMatchers := 4096
  maxEnumEntriesPerField := 4096
  maxTotalEnumEntries := 65536
  maxSessionMemoryBytes := 512 * 1024
  maxPlanMemoryBytes := 128 * 1024 * 1024
  maxSubmitBytes := 1024 * 1024
  maxFramesPerSubmit := 1024
  maxSyncBytes := 16
  maxFramerWorkUnits := 4 * 1024 * 1024

/-- The limits of the constrained profile. -/
def constrainedResourceProfileLimits : ResourceProfileLimits where
  maxFrameBytes := 4 * 1024
  maxFramingProfiles := 8
  maxPipelines := 8
  maxMessages := 16
  maxFieldsPerMessage := 256
  maxTotalFields := 1024
  maxMatchersPerMessage := 32
  maxTotalMatchers := 512
  maxEnumEntriesPerField := 256
  maxTotalEnumEntries := 4096
  maxSessionMemoryBytes := 128 * 1024
  maxPlanMemoryBytes := 8 * 1024 * 1024
  maxSubmitBytes := 64 * 1024
  maxFramesPerSubmit := 64
  maxSyncBytes := 8
  maxFramerWorkUnits := 256 * 1024

/-- The limits of a profile. The source returns a null pointer for values outside
the enumeration, which this type excludes. -/
def getResourceProfileLimits : ResourceProfile → ResourceProfileLimits
  | .desktop => desktopResourceProfileLimits
  | .constrained => constrainedResourceProfileLimits

/-- The hard limit on plan memory, whatever the profile says. -/
def v01MaxPlanMemoryHardLimit : Nat := 256 * 1024 * 1024

/-- The hard limit on the length of a stream frame. -/
def maxStreamFrameBytesHardLimit : Nat := 1024 * 1024

/-- The hard limit on the bytes of one submission. -/
def maxStreamSubmitBytesHardLimit : Nat := 4 * 1024 * 1024

/-- The hard limit on the frames delivered by one submission. -/
def maxStreamFramesPerSubmitHardLimit : Nat := 4096

/-- The hard limit on the memory of one stream session. -/
def maxStreamSessionMemoryBytesHardLimit : Nat := 2 * 1024 * 1024

/-- The hard limit on the length of a sync pattern. -/
def maxStreamSyncBytesHardLimit : Nat := 64

/-- The hard limit on the work units of one submission. -/
def maxStreamWorkUnitsHardLimit : Nat := 16 * 1024 * 1024

/-! ### Accounting records -/

/-- The counts and sizes a package needs, as approved and as recomputed. -/
structure ResourceRequirements where
  maxFrameBytes : Nat := 0
  framingProfileCount : Nat := 0
  pipelineCount : Nat := 0
  messageCount : Nat := 0
  totalFieldCount : Nat := 0
  totalMatcherCount : Nat := 0
  totalEnumEntryCount : Nat := 0
  totalBitContainerCount : Nat := 0
  totalIntegrityRuleCount : Nat := 0
  totalComputedLengthCount : Nat := 0
  totalConversionCount : Nat := 0
  maxStreamFrameBytes : Nat := 0
  maxSyncBytes : Nat := 0
  maxFramingBufferBytes : Nat := 0
  totalTextSegmentCount : Nat := 0
  deriving DecidableEq

/-- The account of plan memory by category. -/
structure PlanMemoryReport where
  objectBytes : Nat := 0
  stringBytes : Nat := 0
  matcherBytes : Nat := 0
  metadataContainerBytes : Nat := 0
  executionDescriptorBytes : Nat := 0
  indexBytes : Nat := 0
  extensionBytes : Nat := 0
  alignmentBytes : Nat := 0
  allocationCount : Nat := 0
  upstreamAllocationCount : Nat := 0
  accountedTotalBytes : Nat := 0
  deriving DecidableEq

end ProtocolAdapter
