/-
This file models the rules of the builder for framing profiles and states what an
accepted stream profile guarantees the framer: a correct prefix table for the sync
bytes and, for each strategy, the shape of its frames.
-/

import ProtocolAdapter.Builder.Checks
import ProtocolAdapter.Foundation.PrefixTable

namespace ProtocolAdapter

open Foundation

/-! ### The rules -/

/-- No member of the length field descriptor is set. -/
def FramingPlan.noLengthField (framing : FramingPlan) : Bool :=
  framing.lengthFieldOffset = 0 && framing.lengthFieldWidth = 0 &&
    framing.lengthFieldByteOrder == .notApplicable

/-- No member of the frame length bounds is set. -/
def FramingPlan.noLengthBounds (framing : FramingPlan) : Bool :=
  framing.minimumFrameLength = 0 && framing.maximumFrameLength = 0

/-- The largest length a length field of the given width can state. -/
def representableLength (width : Nat) : Nat :=
  if width = 1 then 0xFF else if width = 2 then 0xFFFF else 0xFFFFFFFF

/-- The members a profile for complete records may set: none. -/
def completeRecordShapeInvalid (framing : FramingPlan) : Bool :=
  framing.strategy ≠ .completeRecord || framing.frameLengthBytes ≠ 0 ||
    framing.syncBytes ≠ [] || !framing.noLengthField || !framing.noLengthBounds

/-- The defects of a profile that cuts frames of one length. -/
def fixedLengthShapeInvalid (framing : FramingPlan) : Bool :=
  framing.frameLengthBytes = 0 || framing.syncBytes ≠ [] ||
    !framing.noLengthField || !framing.noLengthBounds

/-- The defects of a profile that cuts frames of one length after a sync pattern. -/
def syncFixedLengthShapeInvalid (framing : FramingPlan) : Bool :=
  framing.frameLengthBytes = 0 || framing.syncBytes = [] ||
    framing.syncBytes.length > framing.frameLengthBytes ||
    !framing.noLengthField || !framing.noLengthBounds

/-- The defects of a profile that reads the frame length from a field. -/
def syncLengthFieldShapeInvalid (framing : FramingPlan) : Bool :=
  let widthValid :=
    framing.lengthFieldWidth = 1 || framing.lengthFieldWidth = 2 || framing.lengthFieldWidth = 4
  framing.frameLengthBytes ≠ 0 || framing.syncBytes = [] || !widthValid ||
    framing.minimumFrameLength = 0 ||
    framing.minimumFrameLength > framing.maximumFrameLength ||
    framing.lengthFieldOffset > maxUint64 - framing.lengthFieldWidth ||
    framing.lengthFieldOffset + framing.lengthFieldWidth > framing.minimumFrameLength ||
    framing.lengthFieldOffset < framing.syncBytes.length ||
    (framing.lengthFieldWidth = 1 && framing.lengthFieldByteOrder ≠ .notApplicable) ||
    (framing.lengthFieldWidth ≠ 1 && framing.lengthFieldByteOrder ≠ .big &&
      framing.lengthFieldByteOrder ≠ .little)

/-- The defects of a profile that cuts records after CR LF. -/
def asciiCrlfShapeInvalid (schemaVersion : String) (framing : FramingPlan) : Bool :=
  schemaVersion ≠ "0.11" || framing.syncBytes ≠ [0x0D, 0x0A] || framing.frameLengthBytes ≠ 0 ||
    !framing.noLengthField || framing.minimumFrameLength ≠ 0 || framing.maximumFrameLength < 2

/-- The longest frame a stream profile delivers, after its shape is checked. -/
def checkStreamStrategy (schemaVersion : String) (framingIndex : Nat) (framing : FramingPlan) :
    BuildResult Nat := do
  let diagnostic : PlanBuildDiagnostic :=
    { code := .invalidFramingPlan, framingIndex := framingIndex }
  match framing.strategy with
  | .fixedLength =>
    rejectIf (schemaVersion ≠ "0.9") diagnostic
    rejectIf (fixedLengthShapeInvalid framing) diagnostic
    pure framing.frameLengthBytes
  | .syncFixedLength =>
    rejectIf (schemaVersion ≠ "0.9") diagnostic
    rejectIf (syncFixedLengthShapeInvalid framing) diagnostic
    pure framing.frameLengthBytes
  | .syncLengthField =>
    rejectIf (schemaVersion ≠ "0.9") diagnostic
    rejectIf (syncLengthFieldShapeInvalid framing) diagnostic
    rejectIf (framing.maximumFrameLength > representableLength framing.lengthFieldWidth) diagnostic
    pure framing.maximumFrameLength
  | .asciiCrlf =>
    rejectIf (asciiCrlfShapeInvalid schemaVersion framing) diagnostic
    pure framing.maximumFrameLength
  | .completeRecord => .error diagnostic

/-- The rules for one framing profile. A stream profile adds its frame length and
its sync pattern to the requirements. -/
def checkFraming (schemaVersion : String) (limits : ResourceProfileLimits) (framingIndex : Nat)
    (requirements : ResourceRequirements) (framing : FramingPlan) :
    BuildResult ResourceRequirements := do
  let diagnostic : PlanBuildDiagnostic :=
    { code := .invalidFramingPlan, framingIndex := framingIndex }
  rejectIf (framing.syncPrefixTable.length ≠ framing.syncBytes.length) diagnostic
  rejectIf (PrefixTable.accepts framing.syncBytes framing.syncPrefixTable = false) diagnostic
  match framing.inputKind with
  | .completeRecord =>
    rejectIf (completeRecordShapeInvalid framing) diagnostic
    pure requirements
  | .streamChunk =>
    rejectIf ((schemaVersion ≠ "0.9" ∧ schemaVersion ≠ "0.11") ∨
      framing.syncBytes.length > limits.maxSyncBytes ∨
      framing.syncBytes.length > maxStreamSyncBytesHardLimit) diagnostic
    let maxFrame ← checkStreamStrategy schemaVersion framingIndex framing
    rejectIf (maxFrame > limits.maxFrameBytes ∨ maxFrame > maxStreamFrameBytesHardLimit ∨
      maxFrame > maxUint64) { diagnostic with code := .resourceLimitExceeded }
    let maxStreamFrameBytes := max requirements.maxStreamFrameBytes maxFrame
    pure { requirements with
      maxStreamFrameBytes := maxStreamFrameBytes
      maxSyncBytes := max requirements.maxSyncBytes framing.syncBytes.length
      maxFramingBufferBytes := maxStreamFrameBytes }

/-- The rules for the framing profiles in order: distinct stable identifiers, then
the rules for each profile. -/
def checkFramings (schemaVersion : String) (limits : ResourceProfileLimits) :
    List FramingPlan → Nat → List String → ResourceRequirements → BuildResult ResourceRequirements
  | [], _, _, requirements => .ok requirements
  | framing :: rest, framingIndex, framingIds, requirements => do
    rejectIf (¬isStableId framing.id ∨ framing.id ∈ framingIds)
      { code := .invalidFramingPlan, framingIndex := framingIndex }
    let requirements ← checkFraming schemaVersion limits framingIndex requirements framing
    checkFramings schemaVersion limits rest (framingIndex + 1) (framing.id :: framingIds)
      requirements

/-! ### What an accepted stream profile guarantees -/

/-- A profile with frames of one length. -/
structure FramingPlan.FixedLengthValid (framing : FramingPlan) : Prop where
  length_pos : 0 < framing.frameLengthBytes
  sync_nil : framing.syncBytes = []

/-- A profile with frames of one length that start with the sync pattern. -/
structure FramingPlan.SyncFixedLengthValid (framing : FramingPlan) : Prop where
  sync_ne_nil : framing.syncBytes ≠ []
  sync_le : framing.syncBytes.length ≤ framing.frameLengthBytes

/-- A profile whose frames state their length after the sync pattern. -/
structure FramingPlan.SyncLengthFieldValid (framing : FramingPlan) : Prop where
  sync_ne_nil : framing.syncBytes ≠ []
  width_cases :
    framing.lengthFieldWidth = 1 ∨ framing.lengthFieldWidth = 2 ∨ framing.lengthFieldWidth = 4
  header_le : framing.lengthFieldOffset + framing.lengthFieldWidth ≤ framing.minimumFrameLength
  minimum_le : framing.minimumFrameLength ≤ framing.maximumFrameLength
  sync_le : framing.syncBytes.length ≤ framing.lengthFieldOffset
  order : if framing.lengthFieldWidth = 1 then framing.lengthFieldByteOrder = .notApplicable
    else framing.lengthFieldByteOrder = .big ∨ framing.lengthFieldByteOrder = .little

/-- A profile whose records end with CR LF. -/
structure FramingPlan.AsciiCrlfValid (framing : FramingPlan) : Prop where
  sync_eq : framing.syncBytes = [0x0D, 0x0A]
  maximum_ge : 2 ≤ framing.maximumFrameLength

/-- An accepted stream profile. -/
structure FramingPlan.StreamValid (framing : FramingPlan) : Prop where
  table : PrefixTable.IsPrefixTable framing.syncBytes framing.syncPrefixTable
  fixedLength : framing.strategy = .fixedLength → framing.FixedLengthValid
  syncFixedLength : framing.strategy = .syncFixedLength → framing.SyncFixedLengthValid
  syncLengthField : framing.strategy = .syncLengthField → framing.SyncLengthFieldValid
  asciiCrlf : framing.strategy = .asciiCrlf → framing.AsciiCrlfValid
  strategy_ne : framing.strategy ≠ .completeRecord

theorem fixedLengthValid_of_shape {framing : FramingPlan}
    (shape : fixedLengthShapeInvalid framing = false) : framing.FixedLengthValid := by
  simp only [fixedLengthShapeInvalid, Bool.or_eq_false_iff, decide_eq_false_iff_not,
    not_not] at shape
  exact ⟨Nat.pos_of_ne_zero shape.1.1.1, shape.1.1.2⟩

theorem syncFixedLengthValid_of_shape {framing : FramingPlan}
    (shape : syncFixedLengthShapeInvalid framing = false) : framing.SyncFixedLengthValid := by
  simp only [syncFixedLengthShapeInvalid, Bool.or_eq_false_iff, decide_eq_false_iff_not] at shape
  exact ⟨shape.1.1.1.2, Nat.le_of_not_lt shape.1.1.2⟩

theorem syncLengthFieldValid_of_shape {framing : FramingPlan}
    (shape : syncLengthFieldShapeInvalid framing = false) : framing.SyncLengthFieldValid := by
  simp only [syncLengthFieldShapeInvalid, Bool.or_eq_false_iff, Bool.not_eq_false',
    Bool.and_eq_false_iff, Bool.or_eq_true, decide_eq_true_eq, decide_eq_false_iff_not,
    not_not] at shape
  obtain ⟨⟨⟨⟨⟨⟨⟨⟨⟨-, sync⟩, width⟩, -⟩, minimum⟩, -⟩, header⟩, offset⟩, single⟩, multiple⟩ := shape
  refine ⟨sync, by tauto, by omega, by omega, by omega, ?_⟩
  split
  · exact single.resolve_left (fun different => different ‹_›)
  · tauto

theorem asciiCrlfValid_of_shape {schemaVersion : String} {framing : FramingPlan}
    (shape : asciiCrlfShapeInvalid schemaVersion framing = false) : framing.AsciiCrlfValid := by
  simp only [asciiCrlfShapeInvalid, Bool.or_eq_false_iff, decide_eq_false_iff_not,
    not_not] at shape
  exact ⟨shape.1.1.1.1.2, Nat.le_of_not_lt shape.2⟩

/-- The rules accept only valid stream profiles. -/
theorem streamValid_of_checkFraming {schemaVersion : String} {limits : ResourceProfileLimits}
    {framingIndex : Nat} {requirements result : ResourceRequirements} {framing : FramingPlan}
    (kind : framing.inputKind = .streamChunk)
    (checked : checkFraming schemaVersion limits framingIndex requirements framing = .ok result) :
    framing.StreamValid := by
  unfold checkFraming at checked
  rw [rejectIf_bind_eq_ok, rejectIf_bind_eq_ok, kind] at checked
  simp only [rejectIf_bind_eq_ok] at checked
  obtain ⟨sized, accepted, -, checked⟩ := checked
  rw [bind_eq_ok] at checked
  obtain ⟨maxFrame, strategy, -⟩ := checked
  have table := PrefixTable.isPrefixTable_of_accepts (not_not.mp sized)
    (Bool.not_eq_false _ ▸ accepted)
  unfold checkStreamStrategy at strategy
  cases same : framing.strategy with
  | completeRecord => simp [same] at strategy
  | fixedLength =>
    simp only [same, rejectIf_bind_eq_ok, Bool.not_eq_true] at strategy
    exact ⟨table, fun _ => fixedLengthValid_of_shape strategy.2.1, by simp [same],
      by simp [same], by simp [same], by simp [same]⟩
  | syncFixedLength =>
    simp only [same, rejectIf_bind_eq_ok, Bool.not_eq_true] at strategy
    exact ⟨table, by simp [same], fun _ => syncFixedLengthValid_of_shape strategy.2.1,
      by simp [same], by simp [same], by simp [same]⟩
  | syncLengthField =>
    simp only [same, rejectIf_bind_eq_ok, Bool.not_eq_true] at strategy
    exact ⟨table, by simp [same], by simp [same],
      fun _ => syncLengthFieldValid_of_shape strategy.2.1, by simp [same], by simp [same]⟩
  | asciiCrlf =>
    simp only [same, rejectIf_bind_eq_ok, Bool.not_eq_true] at strategy
    exact ⟨table, by simp [same], by simp [same], by simp [same],
      fun _ => asciiCrlfValid_of_shape strategy.1, by simp [same]⟩

/-- Every stream profile of an accepted package is valid. -/
theorem streamValid_of_checkFramings {schemaVersion : String} {limits : ResourceProfileLimits} :
    ∀ (framings : List FramingPlan) (framingIndex : Nat) (framingIds : List String)
      (requirements result : ResourceRequirements),
      checkFramings schemaVersion limits framings framingIndex framingIds requirements =
        .ok result →
      ∀ framing ∈ framings, framing.inputKind = .streamChunk → framing.StreamValid := by
  intro framings
  induction framings with
  | nil => intro _ _ _ _ _ framing member; cases member
  | cons head rest inductionHypothesis =>
    intro framingIndex framingIds requirements result checked framing member kind
    rw [checkFramings, rejectIf_bind_eq_ok, bind_eq_ok] at checked
    obtain ⟨-, next, accepted, checked⟩ := checked
    rcases List.mem_cons.mp member with rfl | later
    · exact streamValid_of_checkFraming kind accepted
    · exact inductionHypothesis _ _ _ _ checked framing later kind

end ProtocolAdapter
