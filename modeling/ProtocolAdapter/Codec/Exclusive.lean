/-
This file relates the search for the message of a record to what the messages declare:
their length, their clauses, or their template. It shows that the search counts the
messages whose declared rule holds, and that at most one of them is a binary message.
-/

import ProtocolAdapter.Codec.DecodeSafety

namespace ProtocolAdapter.Codec

open Foundation Foundation.Bytes

/-! ### Declared rules -/

/-- Whether a record satisfies a clause of a message. -/
def clauseHolds (record : List UInt8) (matcher : MatcherPlan) : Bool :=
  match matcher.kind with
  | .frameLengthEquals => record.length == matcher.lengthBytes
  | .fixedBytes => slice record matcher.byteOffset matcher.bytes.length == matcher.bytes

/-- Whether a message declares records of a length. -/
def lengthDeclared (message : FrozenMessagePlan) (size : Nat) : Bool :=
  match message.boundedPayload with
  | some bounded => bounded.minFrameLength ≤ size && size ≤ bounded.maxFrameLength
  | none => size == message.frameLengthBytes

/-- Whether the declared rule of a message holds on a record: for a template, that the walk
takes the record; otherwise the length and every clause. -/
def declaredRule (plan : PlanBundle) (record : List UInt8) (messageIndex : Nat) : Bool :=
  match plan.messages[messageIndex]?, plan.messageExecutionPlans[messageIndex]? with
  | some message, some execution =>
    if execution.textDecode.isSome then hasText execution record
    else lengthDeclared message record.length && message.matchers.all (clauseHolds record)
  | _, _ => false

/-- Whether records can be decoded as a message. -/
def decodable (plan : PlanBundle) (messageIndex : Nat) : Bool :=
  plan.messageExecutionPlans[messageIndex]?.any isDecodable

/-- Whether records are taken apart with the template of a message. -/
def decodesText (plan : PlanBundle) (messageIndex : Nat) : Bool :=
  plan.messageExecutionPlans[messageIndex]?.any isTextCandidate

/-- The messages of a pipeline that can be decoded and whose declared rule holds on a record. -/
def declaredMatches (plan : PlanBundle) (pipeline : PipelinePlan) (record : List UInt8) :
    List Nat :=
  pipeline.messageIndices.filter fun messageIndex =>
    decodable plan messageIndex && declaredRule plan record messageIndex

/-! ### Clauses -/

theorem slice_eq_iff {record bytes : List UInt8} {offset : Nat} :
    slice record offset bytes.length = bytes ↔
      ∀ (index : Nat) byte, bytes[index]? = some byte → record[offset + index]? = some byte := by
  constructor
  · intro same index byte found
    have within := (List.getElem?_eq_some_iff.mp found).1
    rw [← slice_getElem? within, same, found]
  · intro each
    refine List.ext_getElem? fun index => ?_
    by_cases within : index < bytes.length
    · rw [slice_getElem? within, List.getElem?_eq_getElem within]
      exact each index _ (List.getElem?_eq_getElem within)
    · have short : (slice record offset bytes.length).length ≤ bytes.length := by
        rw [slice, List.length_take]
        exact min_le_left _ _
      rw [List.getElem?_eq_none (by omega), List.getElem?_eq_none (by omega)]

/-- The fixed bytes a builder has collected say the same as the clauses. -/
theorem clauses_iff {messageIndex : Nat} {message : MessagePlan}
    {fixed : List FixedByteExecutionPlan}
    (collected : collectMatchers messageIndex message = .ok fixed) {record : List UInt8}
    (length : message.boundedPayload = none → record.length = message.frameLengthBytes) :
    message.matchers.all (clauseHolds record) = fixed.all (hasByte record) := by
  obtain ⟨-, members, -, lengths⟩ := collectMatchers_spec collected
  rw [Bool.eq_iff_iff, List.all_eq_true, List.all_eq_true]
  constructor
  · intro holds byte listed
    obtain ⟨matcher, member, kind, index, found, place⟩ := (members byte).mp listed
    have clause := holds matcher member
    rw [clauseHolds, kind, beq_iff_eq] at clause
    rw [hasByte, place, slice_eq_iff.mp clause index _ found, beq_self_eq_true]
  · intro holds matcher member
    unfold clauseHolds
    cases kind : matcher.kind with
    | frameLengthEquals =>
      obtain ⟨unbounded, same⟩ := lengths matcher member kind
      simp only [beq_iff_eq]
      rw [length unbounded, same]
    | fixedBytes =>
      simp only [beq_iff_eq]
      refine slice_eq_iff.mpr fun index byte found => ?_
      have present := holds ⟨matcher.byteOffset + index, byte⟩
        ((members _).mpr ⟨matcher, member, kind, index, found, rfl⟩)
      simpa [hasByte] using present

section

variable {target : TargetLayout} {draft : PlanDraftData} {plan : PlanBundle}

/-- The rule of a message for the codec is the declared one. -/
theorem matchesRecord_eq (frozen : FrozenFrom target draft plan) (resolved : draft.Resolved)
    {index : Nat} {execution : MessageExecutionPlan}
    (found : plan.messageExecutionPlans[index]? = some execution) (record : List UInt8) :
    matchesRecord record execution = declaredRule plan record index := by
  obtain ⟨message, listed, kind⟩ := frozen.preparedAs found
  have declared : plan.messages[index]? = some (freezeMessage message) := by
    rw [frozen.messages, List.getElem?_map, listed]
    rfl
  unfold matchesRecord declaredRule
  rw [declared, found]
  simp only
  split
  · rfl
  rename_i binary
  obtain ⟨frame, -, containers⟩ := frozen.bounds listed
  obtain ⟨frameLimit, fieldLimit⟩ := maxFrameBytes_le draft.resourceProfile
  cases kind with
  | text text kind run =>
    simp only [prepareTextMessage, rejectIf_bind_eq_ok, not_or, not_not] at run
    obtain ⟨⟨-, matchers, -, -, bounded, -⟩, run⟩ := run
    have unbounded : message.boundedPayload = none := by simpa using bounded
    split at run
    swap
    · cases run
    simp only [bind_eq_ok, pure_eq_ok] at run
    obtain ⟨_, -, rfl⟩ := run
    simp [hasShape, lengthMatches, lengthDeclared, freezeMessage, matchers, unbounded]
  | binary counts fields kind run =>
    obtain ⟨fixed, checks⟩ := binaryPrepared_of_prepareBinaryMessage run
      (fieldsResolved resolved (List.mem_of_getElem? listed))
      (valid_of_checkConversions frozen.requirements_parts.1) (frame.trans frameLimit)
      (containers.trans fieldLimit)
    have payload : execution.boundedPayload = message.boundedPayload := by
      rw [checks.description]
      rfl
    have size : execution.frameSize = message.frameLengthBytes := by
      rw [checks.description]
      rfl
    have bytes : execution.fixedBytes = fixed := by
      rw [checks.description]
      rfl
    have same : lengthDeclared (freezeMessage message) record.length =
        lengthMatches execution record.length := by
      unfold lengthDeclared lengthMatches freezeMessage
      rw [payload, size]
      cases message.boundedPayload with
      | none => rfl
      | some bounded =>
        rw [Bool.eq_iff_iff]
        simp only [Bool.and_eq_true, decide_eq_true_eq, Bool.not_eq_true', Bool.or_eq_false_iff,
          decide_eq_false_iff_not, not_lt]
    rw [hasShape, same, bytes]
    cases fits : lengthMatches execution record.length with
    | false => rfl
    | true =>
      rw [Bool.true_and, Bool.true_and]
      refine (clauses_iff checks.matchers fun unbounded => ?_).symm
      rw [lengthMatches, payload, unbounded, beq_iff_eq, size] at fits
      exact fits

/-! ### Exclusion -/

/-- Two lists of fixed bytes that one record has agree. -/
theorem fixedBytesAgree_of_hasByte {record : List UInt8} :
    ∀ {lefts rights : List FixedByteExecutionPlan}, lefts.all (hasByte record) = true →
      rights.all (hasByte record) = true → fixedBytesAgree lefts rights = true := by
  intro lefts rights hasLefts hasRights
  induction lefts, rights using fixedBytesAgree.induct with
  | case1 => rw [fixedBytesAgree]
  | case2 lefts nonempty =>
    rw [fixedBytesAgree]
    exact nonempty
  | case3 left lefts right rights before inductionHypothesis =>
    rw [fixedBytesAgree, if_pos before]
    rw [List.all_cons, Bool.and_eq_true] at hasLefts
    exact inductionHypothesis hasLefts.2 hasRights
  | case4 left lefts right rights notBefore after inductionHypothesis =>
    rw [fixedBytesAgree, if_neg notBefore, if_pos after]
    rw [List.all_cons, Bool.and_eq_true] at hasRights
    exact inductionHypothesis hasLefts hasRights.2
  | case5 left lefts right rights notBefore notAfter different =>
    rw [List.all_cons, Bool.and_eq_true, hasByte, beq_iff_eq] at hasLefts hasRights
    have same : left.offset = right.offset := by omega
    rw [same] at hasLefts
    exact absurd (Option.some.inj (hasLefts.1.symm.trans hasRights.1)) different
  | case6 left lefts right rights notBefore notAfter same inductionHypothesis =>
    rw [fixedBytesAgree, if_neg notBefore, if_neg notAfter, if_neg same]
    rw [List.all_cons, Bool.and_eq_true] at hasLefts hasRights
    exact inductionHypothesis hasLefts.2 hasRights.2

theorem lengthMatches_between {message : MessageExecutionPlan} {size : Nat}
    (fits : lengthMatches message size = true) :
    message.minimumLength ≤ size ∧ size ≤ message.maximumLength := by
  unfold lengthMatches at fits
  unfold MessageExecutionPlan.minimumLength MessageExecutionPlan.maximumLength
  cases payload : message.boundedPayload with
  | none =>
    simp only [payload, beq_iff_eq] at fits
    exact ⟨fits.ge, fits.le⟩
  | some bounded =>
    simp only [payload, Bool.not_eq_true', Bool.or_eq_false_iff, decide_eq_false_iff_not,
      not_lt] at fits
    exact fits

/-- The builder lets no two messages of a pipeline in that one record could match. -/
theorem fixedMatchersCanIntersect_of_hasShape {left right : MessageExecutionPlan}
    {record : List UInt8} (hasLeft : hasShape left record = true)
    (hasRight : hasShape right record = true) : fixedMatchersCanIntersect left right = true := by
  rw [hasShape, Bool.and_eq_true] at hasLeft hasRight
  obtain ⟨leftMin, leftMax⟩ := lengthMatches_between hasLeft.1
  obtain ⟨rightMin, rightMax⟩ := lengthMatches_between hasRight.1
  unfold fixedMatchersCanIntersect
  rw [if_neg]
  · exact fixedBytesAgree_of_hasByte hasLeft.2 hasRight.2
  · simp only [Bool.or_eq_true, decide_eq_true_eq]
    omega

/-- Two binary messages of a pipeline that one record matches are the same. -/
theorem Indexed.unique {messages : List MessageExecutionPlan} {indices : List Nat}
    {pipeline : PipelineExecutionPlan} (indexed : Indexed messages indices pipeline)
    {record : List UInt8} {left right : Nat} {leftMessage rightMessage : MessageExecutionPlan}
    (leftMember : left ∈ indices) (rightMember : right ∈ indices)
    (leftFound : messages[left]? = some leftMessage)
    (rightFound : messages[right]? = some rightMessage) (leftBinary : leftMessage.textDecode = none)
    (rightBinary : rightMessage.textDecode = none) (hasLeft : hasShape leftMessage record = true)
    (hasRight : hasShape rightMessage record = true) : left = right := by
  by_contra different
  let apart : Nat → Nat → Prop := fun first second => ∀ firstMessage secondMessage,
    messages[first]? = some firstMessage → messages[second]? = some secondMessage →
      firstMessage.textDecode = none → secondMessage.textDecode = none →
        ¬(hasShape firstMessage record = true ∧ hasShape secondMessage record = true)
  have symmetric : Std.Symm apart := ⟨fun first second holds firstMessage secondMessage firstFound
    secondFound firstBinary secondBinary both =>
      holds secondMessage firstMessage secondFound firstFound secondBinary firstBinary both.symm⟩
  have pairwise : indices.Pairwise apart := indexed.exclusive.imp fun exclusive firstMessage
    secondMessage firstFound secondFound firstBinary secondBinary both => by
      have clash := fixedMatchersCanIntersect_of_hasShape both.1 both.2
      rw [exclusive _ _ firstFound secondFound firstBinary secondBinary] at clash
      cases clash
  exact pairwise.forall leftMember rightMember different leftMessage rightMessage leftFound
    rightFound leftBinary rightBinary ⟨hasLeft, hasRight⟩

/-- The declared matches are the messages the search finds. -/
theorem declaredMatches_eq (frozen : FrozenFrom target draft plan) (resolved : draft.Resolved)
    {pipeline : PipelinePlan} {execution : PipelineExecutionPlan}
    (indexed : Indexed plan.messageExecutionPlans pipeline.messageIndices execution)
    (record : List UInt8) : declaredMatches plan pipeline record =
      matchingMessages plan.messageExecutionPlans pipeline.messageIndices record := by
  unfold declaredMatches matchingMessages having
  refine List.filter_congr fun index member => ?_
  have found := List.getElem?_eq_getElem (indexed.real index member)
  rw [decodable, ← matchesRecord_eq frozen resolved found, found]
  rfl

/-- At most one message of a pipeline without templates matches a record. -/
theorem declaredMatches_single (frozen : FrozenFrom target draft plan)
    (resolved : draft.Resolved) {pipeline : PipelinePlan} {execution : PipelineExecutionPlan}
    (indexed : Indexed plan.messageExecutionPlans pipeline.messageIndices execution)
    {record : List UInt8} {left right : Nat} (leftMember : left ∈ pipeline.messageIndices)
    (rightMember : right ∈ pipeline.messageIndices) (leftBinary : decodesText plan left = false)
    (rightBinary : decodesText plan right = false)
    (leftHolds : declaredRule plan record left = true)
    (rightHolds : declaredRule plan record right = true) : left = right := by
  have leftFound := List.getElem?_eq_getElem (indexed.real left leftMember)
  have rightFound := List.getElem?_eq_getElem (indexed.real right rightMember)
  rw [decodesText, leftFound, Option.any_some, isTextCandidate] at leftBinary
  rw [decodesText, rightFound, Option.any_some, isTextCandidate] at rightBinary
  rw [← matchesRecord_eq frozen resolved leftFound, matchesRecord, leftBinary,
    if_neg (by simp)] at leftHolds
  rw [← matchesRecord_eq frozen resolved rightFound, matchesRecord, rightBinary,
    if_neg (by simp)] at rightHolds
  exact indexed.unique leftMember rightMember leftFound rightFound (by simpa using leftBinary)
    (by simpa using rightBinary) leftHolds rightHolds

/-- A list without two different members has at most one. -/
theorem length_le_one {items : List Nat} (distinct : items.Nodup)
    (same : ∀ left ∈ items, ∀ right ∈ items, left = right) : items.length ≤ 1 := by
  match items with
  | [] => exact Nat.zero_le _
  | [_] => exact le_rfl
  | first :: second :: rest =>
    have equal := same first List.mem_cons_self second
      (List.mem_cons_of_mem _ List.mem_cons_self)
    rw [List.nodup_cons, equal] at distinct
    exact absurd List.mem_cons_self distinct.1

end

/-! ### The search -/

/-- The search counts exactly the messages whose declared rule holds, and names the one that
matches. No record matches two binary messages of a pipeline, so a pipeline without decode
templates never reports an ambiguous record. -/
theorem findPipelineMatch_exact {target : TargetLayout} {budgeted : BudgetedPlanDraft}
    {storage : Option Nat} {plan : PlanBundle} {pipelineIndex : Nat} {pipeline : PipelinePlan}
    {execution : PipelineExecutionPlan} (frozen : freeze target budgeted storage = .ok plan)
    (declared : plan.pipelines[pipelineIndex]? = some pipeline)
    (compiled : plan.pipelineExecutionPlans[pipelineIndex]? = some execution) :
    (∀ record, ∃ outcome,
      findPipelineMatch execution plan.messageExecutionPlans record = some outcome ∧
        outcome.matchCount = (declaredMatches plan pipeline record).length ∧
        (declaredMatches plan pipeline record ≠ [] →
          outcome.messageIndex ∈ declaredMatches plan pipeline record)) ∧
    (∀ record, ∀ left ∈ pipeline.messageIndices, ∀ right ∈ pipeline.messageIndices,
      decodesText plan left = false → decodesText plan right = false →
        declaredRule plan record left = true → declaredRule plan record right = true →
          left = right) ∧
    ((∀ messageIndex ∈ pipeline.messageIndices, decodesText plan messageIndex = false) →
      ∀ (workspace : ExecutionWorkspace) (input : ByteView) (fieldSlots : FieldSlots),
        workspace.IdleFor plan → ∃ call,
          decodeCompleteRecord plan workspace pipelineIndex input fieldSlots = some call ∧
            call.result.status ≠ .ambiguousMessage) := by
  have origin := frozenFrom_of_freezeImpl frozen
  have valid := planValid_of_freeze frozen
  obtain ⟨other, listed, indexed⟩ := indexed_of_frozen origin compiled
  obtain rfl := Option.some.inj (declared.symm.trans listed)
  have search : ∀ record, ∃ found,
      findPipelineMatch execution plan.messageExecutionPlans record = some (outcomeOf found) ∧
        found.Perm (declaredMatches plan pipeline record) := by
    intro record
    rw [declaredMatches_eq origin budgeted.resolved indexed]
    exact findPipelineMatch_eq valid indexed record
  have single := @declaredMatches_single _ _ _ origin budgeted.resolved _ _ indexed
  refine ⟨fun record => ?_, fun record left leftMember right rightMember leftBinary rightBinary
    leftHolds rightHolds => single leftMember rightMember leftBinary rightBinary leftHolds
      rightHolds, fun binary workspace input fieldSlots idle => ?_⟩
  · obtain ⟨found, run, perm⟩ := search record
    refine ⟨_, run, perm.length_eq, fun nonempty => perm.mem_iff.mp ?_⟩
    cases found with
    | nil => exact absurd perm.nil_eq.symm nonempty
    | cons head rest => exact List.mem_cons_self
  · obtain ⟨call, run, result, -⟩ :=
      decodeCompleteRecord_replies valid idle pipelineIndex input fieldSlots
    refine ⟨call, run, ?_⟩
    rw [result]
    obtain ⟨found, matched, perm⟩ := search input.bytes
    have few : found.length ≤ 1 := by
      refine length_le_one (perm.nodup_iff.mpr (indexed.distinct.filter _)) ?_
      intro left leftMember right rightMember
      have leftFacts := List.mem_filter.mp (perm.mem_iff.mp leftMember)
      have rightFacts := List.mem_filter.mp (perm.mem_iff.mp rightMember)
      rw [Bool.and_eq_true] at leftFacts rightFacts
      exact single leftFacts.1 rightFacts.1 (binary left leftFacts.1) (binary right rightFacts.1)
        leftFacts.2.2 rightFacts.2.2
    unfold decodeReply
    split
    · simp
    simp only [compiled]
    split
    · simp
    unfold pipelineReply matchReply
    simp only [matched]
    split
    · simp
    rename_i nonzero
    have one : (outcomeOf found).matchCount = 1 := by
      have positive : (outcomeOf found).matchCount = found.length := rfl
      omega
    rw [if_neg (not_not.mpr one)]
    obtain ⟨chosen, again, unique⟩ := matched_of_found valid compiled input.bytes
    obtain rfl := Option.some.inj (matched.symm.trans again)
    obtain ⟨message, placed, matched⟩ := unique one
    rw [placed]
    have status := @messageReply_status plan (outcomeOf found).messageIndex message input fieldSlots
      matched
    intro ambiguous
    rw [ambiguous] at status
    revert status
    decide

theorem findPipelineMatch_exact_sample :
    declaredMatches pairPlan pairPipeline [2, 0, 0, 7] = [1] ∧
      (∃ outcome, findPipelineMatch pairCandidates pairPlan.messageExecutionPlans [2, 0, 0, 7] =
          some outcome ∧ outcome.matchCount = 1 ∧ outcome.messageIndex = 1) ∧
      ∀ record, declaredRule pairPlan record 0 = true → declaredRule pairPlan record 1 = false := by
  have matching : declaredMatches pairPlan pairPipeline [2, 0, 0, 7] = [1] := by decide
  obtain ⟨finds, single, -⟩ := findPipelineMatch_exact pairBudgeted_freezes
    (show pairPlan.pipelines[0]? = some pairPipeline from rfl)
    (show pairPlan.pipelineExecutionPlans[0]? = some pairCandidates from rfl)
  obtain ⟨outcome, run, count, member⟩ := finds [2, 0, 0, 7]
  rw [matching] at count member
  refine ⟨matching, ⟨outcome, run, count, List.mem_singleton.mp (member (by simp))⟩, ?_⟩
  intro record first
  refine Bool.eq_false_of_not_eq_true fun second => ?_
  cases single record 0 (by decide) 1 (by decide) rfl rfl first second

end ProtocolAdapter.Codec
