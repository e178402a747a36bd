/-
This file carries the parses of text templates over to frozen plans: the builder has
counted the bounds of every action from its segments, so a walk accepts exactly the records
that parse, and the decoder never meets an invalid plan in its text branch.
-/

import ProtocolAdapter.Codec.DecodeSafety
import ProtocolAdapter.Codec.TextParse

namespace ProtocolAdapter.Codec

open Foundation Foundation.Operation

/-! ### Frozen actions -/

/-- An action of a message, for decoding or for encoding. -/
def HasTextAction (message : MessageExecutionPlan) (action : TextActionExecutionPlan) : Prop :=
  message.textDecode = some action ∨ message.textEncode = some action

section

variable {target : TargetLayout} {draft : PlanDraftData} {plan : PlanBundle}
  {message : MessageExecutionPlan} {action : TextActionExecutionPlan}

theorem TextValid.actionValid {schemaVersion : String} (valid : TextValid schemaVersion message)
    (has : HasTextAction message action) : TextActionValid message action := by
  rcases has with decode | encode
  · exact (valid.decode action decode).1
  · exact (valid.encode action encode).1

/-- Only text messages have actions. -/
theorem MessageValid.text_of_action {schemaVersion : String}
    {conversions : List LinearConversionDescriptor}
    (valid : MessageValid schemaVersion conversions message) (has : HasTextAction message action) :
    TextValid schemaVersion message := by
  cases valid with
  | text valid => exact valid
  | binary valid =>
    rcases has with decode | encode
    · exact absurd (decode.symm.trans valid.noDecode) (by simp)
    · exact absurd (encode.symm.trans valid.noEncode) (by simp)

/-- The builder has counted the bounds of an action of a prepared message. -/
theorem textLengths_of_prepareTextMessage {schemaVersion : String} {messageIndex : Nat}
    {source : MessagePlan} {text : AsciiTextPlan}
    (run : prepareTextMessage schemaVersion messageIndex source text = .ok message)
    (has : HasTextAction message action) : TextLengths message action := by
  simp only [prepareTextMessage, rejectIf_bind_eq_ok] at run
  obtain ⟨-, run⟩ := run
  split at run
  swap
  · cases run
  rename_i decodeFields encodeFields decodeRun encodeRun
  simp only [bind_eq_ok, pure_eq_ok] at run
  obtain ⟨⟨fields, inputCount⟩, prepared, rfl⟩ := run
  have bounds := (prepareTextFields_spec prepared).2.1
  have counted : ∀ {source' : Option TextActionPlan} {references : List Nat},
      checkTextAction source.fields source.frameLengthBytes source' = some references →
        source' = some action →
          action.minRecordLength = recordMinimum (fields.map (·.textBounds)) action.segments ∧
            action.maxRecordLength = recordMaximum (fields.map (·.textBounds)) action.segments := by
    rintro _ references checked rfl
    rw [bounds]
    exact lengths_of_checkTextAction checked
  rcases has with decode | encode
  · obtain ⟨minimum, maximum⟩ := counted decodeRun decode
    exact ⟨minimum, maximum⟩
  · obtain ⟨minimum, maximum⟩ := counted encodeRun encode
    exact ⟨minimum, maximum⟩

/-- The bounds of every action of a frozen plan are those of its segments. -/
theorem textLengths_of_frozen (frozen : FrozenFrom target draft plan)
    (member : message ∈ plan.messageExecutionPlans) (has : HasTextAction message action) :
    TextLengths message action := by
  obtain ⟨index, found⟩ := List.mem_iff_getElem?.mp member
  obtain ⟨source, -, kind⟩ := frozen.preparedAs found
  cases kind with
  | text text kind run => exact textLengths_of_prepareTextMessage run has
  | binary counts fields kind run =>
    simp only [prepareBinaryMessage, bind_eq_ok, pure_eq_ok, Prod.mk.injEq] at run
    obtain ⟨_, -, _, -, _, -, _, -, _, -, _, -, _, -, _, -, _, -, _, -, rfl, -⟩ := run
    rcases has with decode | encode
    · cases decode
    · cases encode

end

/-! ### The text branch -/

section

variable {plan : PlanBundle} {messageIndex : Nat} {message : MessageExecutionPlan}
  {action : TextActionExecutionPlan} {input : ByteView} {fieldSlots : FieldSlots}

/-- What the text branch of the decoder leaves behind when it succeeds: the slots of a parse
of the record. -/
def ReadsParse (plan : PlanBundle) (messageIndex : Nat) (message : MessageExecutionPlan)
    (action : TextActionExecutionPlan) (input : ByteView) (fieldSlots : FieldSlots)
    (last : DecodeState) : Prop :=
  ∃ places, Parses message 0 action.segments input.bytes places ∧ last.result.status = .ok ∧
    last.slots = places.map (textSlot plan messageIndex input) ++
      fieldSlots.slots.drop places.length

/-- The text branch reads the parse of the record or refuses the record. -/
theorem decodeText_parses (valid : TextActionValid message action)
    (lengths : TextLengths message action)
    (counted : message.textDecodeFieldCount = (referencedFields action.segments).length)
    {start : DecodeState} (same : start.slots = fieldSlots.slots) :
    Ends (fun _ => ReadsParse plan messageIndex message action input fieldSlots)
      (fun last => last.result.status ≠ .invalidPlan)
      ((do
        checkDecodeOutput message.textDecodeFieldCount input fieldSlots
        decodeText plan messageIndex message action input) start) := by
  have run := @checkDecodeOutput_eq input fieldSlots message.textDecodeFieldCount start
  cases output : outputRefusal message.textDecodeFieldCount input fieldSlots with
  | some status =>
    rw [output] at run
    rw [bind_of_returned run]
    refine .returned fun wrong => ?_
    have listed := outputRefusal_status output
    obtain rfl : status = .invalidPlan := wrong
    simp [messageStatuses] at listed
  | none =>
    rw [output] at run
    rw [bind_of_done run]
    obtain ⟨walked, planned⟩ := textVerdict_eq valid input.bytes
    by_cases verdict : textVerdict message action input.bytes = .match
    · rw [verdict] at walked
      have matched := walkTextAction_unchecked walked
      rw [decodeText_eq valid counted matched (same ▸ outputRefusal_none output), textRefusal,
        if_pos verdict]
      have parse := textPlaces_parses valid lengths verdict
      have places := congrArg List.length (textPlaces_eq valid matched).2.1
      rw [List.length_map, ← counted] at places
      refine .done ⟨_, parse, rfl, ?_⟩
      simp only [same, textSlots, places]
    · unfold decodeText
      simp only
      rw [access_bind walked]
      simp only
      rw [leaveIf_bind_pos verdict]
      refine .returned ?_
      revert verdict planned
      cases textVerdict message action input.bytes <;> simp [textWalkFailure, DecodeState.fail]

end

/-! ### Templates -/

/-- A walk with validated characters accepts exactly the records that parse, and visits the
places of the one parse; the passes of the decoder agree on it, and its text branch never
ends with an invalid plan. -/
theorem textTemplate_parses {target : TargetLayout} {budgeted : BudgetedPlanDraft}
    {storage : Option Nat} {plan : PlanBundle} {messageIndex : Nat} {message : MessageExecutionPlan}
    {action : TextActionExecutionPlan} (frozen : freeze target budgeted storage = .ok plan)
    (listed : plan.messageExecutionPlans[messageIndex]? = some message)
    (has : HasTextAction message action) :
    (∀ (input : List UInt8) (places : List TextPlace),
      (walkTextAction action message input true collectPlace [] = some (.match, places) ↔
        Parses message 0 action.segments input places) ∧
      (Parses message 0 action.segments input places →
        walkTextAction action message input false collectPlace [] = some (.match, places) ∧
          ∀ others, Parses message 0 action.segments input others → others = places)) ∧
    (message.textDecode = some action → ∀ (input : ByteView) (fieldSlots : FieldSlots)
      (start : DecodeState), start.slots = fieldSlots.slots →
        Ends (fun _ => ReadsParse plan messageIndex message action input fieldSlots)
          (fun last => last.result.status ≠ .invalidPlan)
          ((do
            checkDecodeOutput message.textDecodeFieldCount input fieldSlots
            decodeText plan messageIndex message action input) start)) := by
  have member := List.mem_of_getElem? listed
  have text := ((planValid_of_freeze frozen).messages message member).text_of_action has
  have valid := text.actionValid has
  have lengths := textLengths_of_frozen (frozenFrom_of_freezeImpl frozen) member has
  refine ⟨fun input places => ⟨walkTextAction_parses valid lengths, fun parse => ⟨?_, ?_⟩⟩, ?_⟩
  · exact walkTextAction_unchecked ((walkTextAction_parses valid lengths).mpr parse)
  · exact fun others other => other.unique valid.walkable.segments parse
  · exact fun decode input fieldSlots start same =>
      decodeText_parses valid lengths (text.decode action decode).2 same

/-- A message with a printable reading that is written as it is read. -/
def echoMessage : MessagePlan :=
  { readingMessage with
    asciiText := some { decode := some readingAction, encode := some readingAction } }

/-- A package with that message in a stream of lines. -/
def echoDraft : PlanDraftData :=
  { readingDraft with
    messages := [echoMessage]
    resourceRequirements := { readingDraft.resourceRequirements with totalTextSegmentCount := 6 }
    approvedPlanMemory :=
      { readingDraft.approvedPlanMemory with
        matcherBytes := 72
        executionDescriptorBytes := 1080
        alignmentBytes := 44
        allocationCount := 32
        accountedTotalBytes := 2392 } }

/-- The capability for that package. -/
def echoBudgeted : BudgetedPlanDraft := ⟨echoDraft, by decide⟩

/-- The description of that message for the codec. -/
def echoExecution : MessageExecutionPlan :=
  { readingExecution with
    requiredInputCount := 1
    fields := [
      { valueType := .bytes, inputOrdinal := 0, textMinLength := 1, textMaxLength := 4
        allowedAsciiLow := 0xFFFFFFFF00000000, allowedAsciiHigh := 0x7FFFFFFFFFFFFFFF
        textEncodeInput := true }]
    textEncode := some readingAction }

/-- The plan frozen from that package. -/
def echoPlan : PlanBundle :=
  { readingPlan with
    resourceRequirements := echoDraft.resourceRequirements
    messages := [freezeMessage echoMessage]
    executionResourceLayout :=
      { maxFieldsPerMessage := 1
        maxInputFieldsPerMessage := 1
        encodeValueIndexCount := 1
        encodePresenceWordCount := 1
        estimatedWorkspaceBytes := 16 }
    messageExecutionPlans := [echoExecution]
    memoryReport := echoDraft.approvedPlanMemory }

theorem echoBudgeted_freezes : freeze sampleTarget echoBudgeted (some 8192) = .ok echoPlan := by
  rfl

/-- A reading of one character parses. -/
theorem textTemplate_parses_reading :
    Parses echoExecution 0 readingAction.segments [0x56, 0x3D, 0x31, 0x0D, 0x0A] [⟨0, 2, 1⟩] :=
  ((@textTemplate_parses _ _ _ _ 0 _ _ echoBudgeted_freezes rfl (.inl rfl)).1 _ _).1.mp
    (by decide +kernel)

end ProtocolAdapter.Codec
