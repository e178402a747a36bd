/-
This file shows that the codec finds exactly the messages of a pipeline that a record
matches. The groups, the merged fixed bytes and the three lists are only a way to get
there: what counts is the rule of each message, which is its length and its fixed bytes,
or the walk over its template.
-/

import Mathlib.Data.List.Perm.Basic
import ProtocolAdapter.Codec.TextSafety

namespace ProtocolAdapter.Codec

open Foundation

/-! ### The rule of a message -/

/-- Whether a record has a byte. -/
def hasByte (record : List UInt8) (fixed : FixedByteExecutionPlan) : Bool :=
  record[fixed.offset]? == some fixed.value

/-- Whether a record has the length and the fixed bytes of a message. -/
def hasShape (message : MessageExecutionPlan) (record : List UInt8) : Bool :=
  lengthMatches message record.length && message.fixedBytes.all (hasByte record)

/-- Whether the walk over the decode action of a message takes a record. -/
def hasText (message : MessageExecutionPlan) (record : List UInt8) : Bool :=
  match message.textDecode with
  | none => false
  | some action =>
    walkTextAction action message record false acceptField () == some (.match, ())

/-- Whether a record matches a message. -/
def matchesRecord (record : List UInt8) (message : MessageExecutionPlan) : Bool :=
  if message.textDecode.isSome then hasText message record else hasShape message record

/-- The messages of a pipeline that a record matches. -/
def matchingMessages (messages : List MessageExecutionPlan) (indices : List Nat)
    (record : List UInt8) : List Nat :=
  having messages (fun message => isDecodable message && matchesRecord record message) indices

/-! ### Evaluating the rule -/

theorem fixedBytesMatch_eq {record : List UInt8} : ∀ {fixed : List FixedByteExecutionPlan},
    (∀ byte ∈ fixed, byte.offset < record.length) →
      fixedBytesMatch record fixed = some (fixed.all (hasByte record))
  | [], _ => rfl
  | byte :: rest, inside => by
    have within := inside byte List.mem_cons_self
    have later := @fixedBytesMatch_eq record rest fun other member =>
      inside other (List.mem_cons_of_mem _ member)
    unfold fixedBytesMatch
    rw [List.getElem?_eq_getElem within, List.all_cons]
    simp only [Option.bind_eq_bind, Option.bind_some, later]
    by_cases same : record[byte.offset] = byte.value
    · simp [hasByte, same, within]
    · simp [hasByte, same, within]

/-- The fixed bytes of a message lie in every record of its length. -/
theorem MessageValid.fixedBytes_inside {schemaVersion : String}
    {conversions : List LinearConversionDescriptor} {message : MessageExecutionPlan}
    (valid : MessageValid schemaVersion conversions message) {size : Nat}
    (fits : lengthMatches message size = true) :
    ∀ fixed ∈ message.fixedBytes, fixed.offset < size := by
  intro fixed member
  cases valid with
  | text valid =>
    rw [valid.noFixedBytes] at member
    cases member
  | binary valid =>
    have inside := valid.fixedInside fixed member
    cases bounded : message.boundedPayload with
    | none =>
      simp only [lengthMatches, bounded, beq_iff_eq] at fits
      simp only [storageLimit, layoutLimit, bounded] at inside
      omega
    | some payload =>
      have shortest := (valid.payload payload bounded).shortest
      simp only [lengthMatches, bounded, Bool.not_eq_true', Bool.or_eq_false_iff,
        decide_eq_false_iff_not, not_lt] at fits
      simp only [storageLimit, layoutLimit, bounded] at inside
      omega

section

variable {schemaVersion : String} {conversions : List LinearConversionDescriptor}
  {message : MessageExecutionPlan}

theorem messageMatches_eq (valid : MessageValid schemaVersion conversions message)
    (record : List UInt8) : messageMatches message record = some (hasShape message record) := by
  unfold messageMatches hasShape
  cases fits : lengthMatches message record.length with
  | false => rfl
  | true =>
    rw [if_neg (by simp), fixedBytesMatch_eq (valid.fixedBytes_inside fits)]
    rfl

theorem textMessageMatches_eq (valid : MessageValid schemaVersion conversions message)
    (record : List UInt8) : textMessageMatches message record = some (hasText message record) := by
  unfold textMessageMatches hasText
  cases decode : message.textDecode with
  | none => rfl
  | some action =>
    have actionValid : TextActionValid message action := by
      cases valid with
      | binary valid =>
        rw [valid.noDecode] at decode
        cases decode
      | text valid => exact (valid.decode action decode).1
    obtain ⟨status, walked, -⟩ := @walkTextAction_accepts message record false action actionValid
    simp only [walked, Option.bind_eq_bind, Option.bind_some]
    cases status <;> rfl

end

/-! ### Candidates -/

/-- The outcome after the given matches. -/
def outcomeOf (found : List Nat) : MatchOutcome :=
  { matchCount := found.length, messageIndex := found.headD invalidIndex }

theorem outcomeOf_count (found : List Nat) (index : Nat) :
    (outcomeOf found).count index = outcomeOf (found ++ [index]) := by
  cases found with
  | nil => rfl
  | cons head rest => simp [outcomeOf, MatchOutcome.count]

/-- Trying messages one by one collects those that match. -/
theorem tryMessages_eq {messages : List MessageExecutionPlan}
    {rule : MessageExecutionPlan → Access Bool} {decided : MessageExecutionPlan → Bool}
    (decides : ∀ message ∈ messages, rule message = some (decided message)) :
    ∀ {indices found : List Nat}, (∀ index ∈ indices, index < messages.length) →
      indices.foldlM (tryMessage messages rule) (outcomeOf found) =
        some (outcomeOf (found ++ having messages decided indices)) := by
  intro indices
  induction indices with
  | nil =>
    intro found _
    simp [having]
  | cons index rest inductionHypothesis =>
    intro found real
    have inside := real index List.mem_cons_self
    have listed := List.getElem?_eq_getElem inside
    have step : tryMessage messages rule (outcomeOf found) index =
        some (outcomeOf (found ++ having messages decided [index])) := by
      rw [having_singleton _ listed, tryMessage, listed]
      simp only [Option.bind_eq_bind, Option.bind_some, decides _ (List.getElem_mem inside)]
      split
      · rw [outcomeOf_count]
      · rw [List.append_nil]
    rw [List.foldlM_cons, step]
    simp only [Option.bind_eq_bind, Option.bind_some]
    rw [inductionHypothesis fun other member => real other (List.mem_cons_of_mem _ member),
      List.append_assoc, ← having_append, List.singleton_append]

/-- The search over the sorted groups finds the group of a frame size. -/
theorem findCandidateGroup_eq {pipeline : PipelineExecutionPlan} (frameSize : Nat)
    (sorted : GroupsSorted pipeline.candidateGroups) :
    findCandidateGroup pipeline frameSize =
      some (pipeline.candidateGroups.find? (·.frameSize = frameSize)) := by
  have closed : pipeline.candidateGroups.Pairwise fun left right =>
      decide (right.frameSize < frameSize) = true → decide (left.frameSize < frameSize) = true :=
    sorted.imp fun less below => by
      simp only [decide_eq_true_eq] at below ⊢
      omega
  have search := @BinarySearch.lowerBound_eq_countP _
    (fun group : CandidateGroupExecutionPlan => decide (group.frameSize < frameSize))
    pipeline.candidateGroups
    (fun middle => pipeline.candidateGroups[middle]?.map fun group => group.frameSize < frameSize)
    0 closed fun index group found => by rw [Nat.zero_add, found]; rfl
  rw [Nat.zero_add, Nat.zero_add] at search
  have boundary := BinarySearch.filter_boundary frameSize sorted
  unfold findCandidateGroup
  simp only [search, Option.bind_eq_bind, Option.bind_some]
  rw [← boundary]
  split
  · rename_i last
    rw [last, List.getElem?_eq_none le_rfl]
    rfl
  · rename_i inside
    have within := lt_of_le_of_ne List.countP_le_length inside
    rw [List.getElem?_eq_getElem within]
    simp only [Option.bind_some, Option.some.injEq, Option.filter_some, decide_eq_true_eq]
    split <;> simp_all

theorem mem_having {messages : List MessageExecutionPlan}
    {property : MessageExecutionPlan → Bool} {indices : List Nat} {index : Nat} :
    index ∈ having messages property indices ↔ index ∈ indices ∧
      ∃ message, messages[index]? = some message ∧ property message = true := by
  rw [having, List.mem_filter, Option.any_eq_true]

/-- The messages of a pipeline that its three lists lead to are those that can be decoded and
match. -/
theorem matching_perm {messages : List MessageExecutionPlan} {indices : List Nat}
    (distinct : indices.Nodup) (record : List UInt8) :
    (having messages (hasShape · record)
          (having messages
            (fun message => isFixedCandidate message && message.frameSize == record.length)
            indices) ++
        having messages (hasShape · record) (having messages isVariableCandidate indices) ++
        having messages (hasText · record) (having messages isTextCandidate indices)).Perm
      (matchingMessages messages indices record) := by
  have once : ∀ first second, (having messages first (having messages second indices)).Nodup :=
    fun first second => (distinct.filter _).filter _
  have matched : (matchingMessages messages indices record).Nodup := distinct.filter _
  refine (List.perm_ext_iff_of_nodup ?_ matched).mpr fun index => ?_
  · rw [List.nodup_append, List.nodup_append]
    refine ⟨⟨once _ _, once _ _, ?_⟩, once _ _, ?_⟩
    · intro left leftMember right rightMember same
      subst same
      simp only [mem_having] at leftMember rightMember
      obtain ⟨⟨-, message, found, fixed⟩, -⟩ := leftMember
      obtain ⟨⟨-, other, foundOther, bounded⟩, -⟩ := rightMember
      obtain rfl := Option.some.inj (found.symm.trans foundOther)
      simp only [isFixedCandidate, isVariableCandidate, Bool.and_eq_true,
        Option.isNone_iff_eq_none] at fixed bounded
      simp [fixed.1.2] at bounded
    · intro left leftMember right rightMember same
      subst same
      simp only [List.mem_append, mem_having] at leftMember rightMember
      obtain ⟨⟨-, other, foundOther, text⟩, -⟩ := rightMember
      rcases leftMember with ⟨⟨-, message, found, kind⟩, -⟩ | ⟨⟨-, message, found, kind⟩, -⟩
      all_goals
        obtain rfl := Option.some.inj (found.symm.trans foundOther)
        simp only [isFixedCandidate, isVariableCandidate, isTextCandidate, Bool.and_eq_true,
          Option.isNone_iff_eq_none] at kind text
        simp [kind.1.1] at text
  · simp only [List.mem_append, mem_having, matchingMessages]
    cases found : messages[index]? with
    | none => simp
    | some message =>
      simp only [Option.some.injEq, exists_eq_left', isFixedCandidate, isVariableCandidate,
        isTextCandidate, isDecodable, matchesRecord, hasShape, lengthMatches]
      cases message.textDecode <;> cases message.textEncode <;> cases message.boundedPayload <;>
        simp
      all_goals tauto

/-- The codec counts the messages of a pipeline that a record matches, and names the only
one. -/
theorem findPipelineMatch_eq {plan : PlanBundle} {indices : List Nat}
    {pipeline : PipelineExecutionPlan} (valid : PlanValid plan)
    (indexed : Indexed plan.messageExecutionPlans indices pipeline) (record : List UInt8) :
    ∃ found, findPipelineMatch pipeline plan.messageExecutionPlans record =
        some (outcomeOf found) ∧
      found.Perm (matchingMessages plan.messageExecutionPlans indices record) := by
  refine ⟨_, ?_, matching_perm indexed.distinct record⟩
  have real : ∀ property, ∀ index ∈ having plan.messageExecutionPlans property indices,
      index < plan.messageExecutionPlans.length :=
    fun property index member => indexed.real index (mem_having.mp member).1
  have shapes : ∀ message ∈ plan.messageExecutionPlans,
      messageMatches message record = some (hasShape message record) :=
    fun message member => messageMatches_eq (valid.messages message member) record
  have texts : ∀ message ∈ plan.messageExecutionPlans,
      textMessageMatches message record = some (hasText message record) :=
    fun message member => textMessageMatches_eq (valid.messages message member) record
  have search : findPipelineMatch pipeline plan.messageExecutionPlans record =
      ((groupOf pipeline.candidateGroups record.length).foldlM
          (tryMessage plan.messageExecutionPlans (messageMatches · record)) {}).bind fun outcome =>
        (pipeline.variableMessageIndices.foldlM
          (tryMessage plan.messageExecutionPlans (messageMatches · record)) outcome).bind
        fun outcome => pipeline.textMessageIndices.foldlM
          (tryMessage plan.messageExecutionPlans (textMessageMatches · record)) outcome := by
    unfold findPipelineMatch groupOf
    rw [findCandidateGroup_eq record.length indexed.sorted]
    cases pipeline.candidateGroups.find? (·.frameSize = record.length) <;> rfl
  rw [search, indexed.groups, indexed.bounded, indexed.text]
  have start : ({} : MatchOutcome) = outcomeOf [] := rfl
  rw [start, tryMessages_eq shapes (real _)]
  simp only [Option.bind_some]
  rw [tryMessages_eq shapes (real _)]
  simp only [Option.bind_some]
  rw [tryMessages_eq texts (real _), List.nil_append]

end ProtocolAdapter.Codec
