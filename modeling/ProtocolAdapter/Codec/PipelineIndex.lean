/-
This file states what the index of a pipeline guarantees the codec: the messages of the
pipeline that records can match are in exactly one of its lists, the candidate groups are
sorted by their frame size, the set of allowed messages is that of the pipeline, and no two
messages without a decode action accept one record. Every pipeline of a frozen plan has
such an index.
-/

import Mathlib.Data.List.GetD
import Mathlib.Data.Nat.Bitwise
import ProtocolAdapter.Builder.Prepared
import ProtocolAdapter.Codec.Match

namespace ProtocolAdapter.Codec

open Foundation

/-! ### The kinds of messages -/

/-- Whether records are matched against the decode action of a message. -/
def isTextCandidate (message : MessageExecutionPlan) : Bool := message.textDecode.isSome

/-- Whether records of several lengths are matched against the fixed bytes of a message. -/
def isVariableCandidate (message : MessageExecutionPlan) : Bool :=
  message.textDecode.isNone && message.textEncode.isNone && message.boundedPayload.isSome

/-- Whether records of one length are matched against the fixed bytes of a message. -/
def isFixedCandidate (message : MessageExecutionPlan) : Bool :=
  message.textDecode.isNone && message.textEncode.isNone && message.boundedPayload.isNone

/-- Whether records are matched against a message at all. A text message without a decode
action can only be encoded. -/
def isDecodable (message : MessageExecutionPlan) : Bool :=
  message.textDecode.isSome || message.textEncode.isNone

/-- The indices whose message has a property. -/
def having (messages : List MessageExecutionPlan) (property : MessageExecutionPlan → Bool)
    (indices : List Nat) : List Nat :=
  indices.filter fun index => messages[index]?.any property

theorem having_append (messages : List MessageExecutionPlan)
    (property : MessageExecutionPlan → Bool) (first second : List Nat) :
    having messages property (first ++ second) =
      having messages property first ++ having messages property second :=
  List.filter_append ..

theorem having_singleton {messages : List MessageExecutionPlan}
    (property : MessageExecutionPlan → Bool) {index : Nat} {message : MessageExecutionPlan}
    (found : messages[index]? = some message) :
    having messages property [index] = if property message then [index] else [] := by
  unfold having
  rw [List.filter_cons, List.filter_nil, found, Option.any_some]

/-! ### The groups -/

/-- The messages entered under a frame size. -/
def groupOf (groups : List CandidateGroupExecutionPlan) (frameSize : Nat) : List Nat :=
  ((groups.find? (·.frameSize = frameSize)).map (·.messageIndices)).getD []

/-- Groups with increasing frame sizes. -/
def GroupsSorted (groups : List CandidateGroupExecutionPlan) : Prop :=
  groups.Pairwise fun left right => left.frameSize < right.frameSize

theorem groupOf_nil_of_above {groups : List CandidateGroupExecutionPlan} {frameSize : Nat}
    (above : ∀ group ∈ groups, frameSize < group.frameSize) : groupOf groups frameSize = [] := by
  have absent : groups.find? (·.frameSize = frameSize) = none := by
    rw [List.find?_eq_none]
    intro group member
    have := above group member
    simpa using this.ne'
  rw [groupOf, absent]
  rfl

theorem groupOf_cons (group : CandidateGroupExecutionPlan)
    (rest : List CandidateGroupExecutionPlan) (frameSize : Nat) :
    groupOf (group :: rest) frameSize =
      if group.frameSize = frameSize then group.messageIndices else groupOf rest frameSize := by
  unfold groupOf
  rw [List.find?_cons]
  by_cases same : group.frameSize = frameSize <;> simp [same]

/-- Entering a candidate appends it to its own group only, and keeps the groups sorted. -/
theorem insertCandidate_spec {entered messageIndex : Nat} :
    ∀ {groups : List CandidateGroupExecutionPlan}, GroupsSorted groups →
      GroupsSorted (insertCandidate entered messageIndex groups) ∧
        (∀ lower, lower < entered → (∀ group ∈ groups, lower < group.frameSize) →
          ∀ group ∈ insertCandidate entered messageIndex groups, lower < group.frameSize) ∧
        ∀ frameSize, groupOf (insertCandidate entered messageIndex groups) frameSize =
          groupOf groups frameSize ++ if frameSize = entered then [messageIndex] else [] := by
  intro groups
  induction groups with
  | nil =>
    intro _
    refine ⟨List.pairwise_singleton .., fun lower below _ group member => ?_, fun frameSize => ?_⟩
    · obtain rfl := List.mem_singleton.mp member
      exact below
    · rw [insertCandidate, groupOf_cons]
      by_cases same : frameSize = entered
      · simp [same, groupOf]
      · simp [same, Ne.symm same, groupOf]
  | cons head rest inductionHypothesis =>
    intro sorted
    obtain ⟨first, later⟩ := List.pairwise_cons.mp sorted
    unfold insertCandidate
    split
    · rename_i below
      have above : ∀ group ∈ head :: rest, entered < group.frameSize := by
        intro group member
        rcases List.mem_cons.mp member with rfl | member
        · exact below
        · exact below.trans (first group member)
      refine ⟨List.pairwise_cons.mpr ⟨above, sorted⟩, fun lower least bound group member => ?_,
        fun frameSize => ?_⟩
      · rcases List.mem_cons.mp member with rfl | member
        · exact least
        · exact bound group member
      · rw [groupOf_cons]
        by_cases same : frameSize = entered
        · subst same
          simp [groupOf_nil_of_above above]
        · simp [same, Ne.symm same]
    · split
      · rename_i same
        refine ⟨List.pairwise_cons.mpr ⟨first, later⟩, fun lower _ bound group member => ?_,
          fun frameSize => ?_⟩
        · rcases List.mem_cons.mp member with rfl | member
          · exact bound head List.mem_cons_self
          · exact bound group (List.mem_cons_of_mem _ member)
        · rw [groupOf_cons, groupOf_cons, same]
          by_cases here : frameSize = head.frameSize
          · simp [here]
          · simp [here, Ne.symm here]
      · rename_i notBelow notSame
        obtain ⟨inserted, bounds, contents⟩ := inductionHypothesis later
        refine ⟨List.pairwise_cons.mpr ⟨bounds head.frameSize (by omega) first, inserted⟩,
          fun lower least bound group member => ?_, fun frameSize => ?_⟩
        · rcases List.mem_cons.mp member with rfl | member
          · exact bound group List.mem_cons_self
          · exact bounds lower least (fun other inside =>
              bound other (List.mem_cons_of_mem _ inside)) group member
        · rw [groupOf_cons, groupOf_cons, contents]
          by_cases here : head.frameSize = frameSize
          · simp [here, show frameSize ≠ entered by omega]
          · simp [here]

/-! ### The set of allowed messages -/

/-- Whether a message is in the set. -/
theorem messageIsAllowed_eq {pipeline : PipelineExecutionPlan} {index : Nat}
    (within : index / bitsPerAllowedMessageWord < pipeline.allowedMessageWords.length) :
    messageIsAllowed pipeline index =
      some ((pipeline.allowedMessageWords.getD (index / bitsPerAllowedMessageWord) 0).testBit
        (index % bitsPerAllowedMessageWord)) := by
  unfold messageIsAllowed
  rw [List.getElem?_eq_getElem within, List.getD_eq_getElem _ _ within]
  simp only [Option.bind_eq_bind, Option.bind_some, Option.some.injEq]
  rw [Nat.shiftLeft_eq, one_mul, Nat.and_two_pow]
  cases Nat.testBit _ _ <;> simp

/-- Allowing a message adds it to the set and nothing else. -/
theorem allowMessage_testBit {words : List Nat} {entered : Nat} (index : Nat)
    (within : entered / bitsPerAllowedMessageWord < words.length) :
    ((allowMessage words entered).getD (index / bitsPerAllowedMessageWord) 0).testBit
        (index % bitsPerAllowedMessageWord) =
      ((words.getD (index / bitsPerAllowedMessageWord) 0).testBit
        (index % bitsPerAllowedMessageWord) || decide (index = entered)) := by
  unfold allowMessage
  rw [List.getD_eq_getElem?_getD, List.getD_eq_getElem?_getD, List.getElem?_modify]
  by_cases same : entered / bitsPerAllowedMessageWord = index / bitsPerAllowedMessageWord
  · simp only [same, if_true]
    rw [← same, List.getElem?_eq_getElem within]
    simp only [Option.map_eq_map, Option.map_some, Option.getD_some]
    rw [Nat.testBit_or, Nat.shiftLeft_eq, one_mul, Nat.testBit_two_pow]
    congr 2
    unfold bitsPerAllowedMessageWord at same ⊢
    exact propext (by omega)
  · have different : index ≠ entered := fun equal => same (by rw [equal])
    simp [different, same]

theorem word_within {index count : Nat} (inside : index < count) :
    index / bitsPerAllowedMessageWord < wordCount count := by
  unfold wordCount bitsPerAllowedMessageWord
  split <;> omega

/-! ### The index of a pipeline -/

/-- What the index of a pipeline with the given messages guarantees. -/
structure Indexed (messages : List MessageExecutionPlan) (indices : List Nat)
    (pipeline : PipelineExecutionPlan) : Prop where
  distinct : indices.Nodup
  real : ∀ index ∈ indices, index < messages.length
  text : pipeline.textMessageIndices = having messages isTextCandidate indices
  bounded : pipeline.variableMessageIndices = having messages isVariableCandidate indices
  sorted : GroupsSorted pipeline.candidateGroups
  groups : ∀ frameSize, groupOf pipeline.candidateGroups frameSize =
    having messages (fun message => isFixedCandidate message && message.frameSize == frameSize)
      indices
  words : pipeline.allowedMessageWords.length = wordCount messages.length
  allowed : ∀ index < messages.length, messageIsAllowed pipeline index =
    some (decide (index ∈ indices))
  exclusive : indices.Pairwise fun left right => ∀ leftMessage rightMessage,
    messages[left]? = some leftMessage → messages[right]? = some rightMessage →
      leftMessage.textDecode = none → rightMessage.textDecode = none →
        fixedMatchersCanIntersect leftMessage rightMessage = false

theorem indexed_nil (messages : List MessageExecutionPlan) (framingProfileIndex : Nat) :
    Indexed messages []
      { framingProfileIndex := framingProfileIndex
        allowedMessageWords := List.replicate (wordCount messages.length) 0 } where
  distinct := List.nodup_nil
  real := by simp
  text := rfl
  bounded := rfl
  sorted := List.Pairwise.nil
  groups _ := rfl
  words := List.length_replicate
  allowed index inside := by
    have within := word_within inside
    rw [messageIsAllowed_eq (by rwa [List.length_replicate])]
    simp [within]
  exclusive := List.Pairwise.nil

/-- Entering a message that no earlier one can be confused with keeps the guarantees. -/
theorem Indexed.enter {messages : List MessageExecutionPlan} {indices : List Nat}
    {pipeline : PipelineExecutionPlan} {index : Nat} {message : MessageExecutionPlan}
    (indexed : Indexed messages indices pipeline) (found : messages[index]? = some message)
    (fresh : index ∉ indices)
    (apart : ∀ earlier ∈ indices, ambiguousWith messages message earlier = false) :
    Indexed messages (indices ++ [index]) (pipeline.enter index message) := by
  have inside := (List.getElem?_eq_some_iff.mp found).1
  have words : (pipeline.enter index message).allowedMessageWords =
      allowMessage pipeline.allowedMessageWords index := by
    unfold PipelineExecutionPlan.enter
    simp only
    split
    · rfl
    · split
      · rfl
      · split <;> rfl
  have count : (allowMessage pipeline.allowedMessageWords index).length =
      wordCount messages.length := by
    rw [allowMessage, List.length_modify, indexed.words]
  refine ⟨?_, ?_, ?_, ?_, ?_, fun frameSize => ?_, words ▸ count, fun other real => ?_, ?_⟩
  · exact List.nodup_append.mpr ⟨indexed.distinct, List.nodup_singleton _,
      fun earlier member other last same => fresh (by
        obtain rfl := List.mem_singleton.mp last
        exact same ▸ member)⟩
  · intro other member
    rcases List.mem_append.mp member with earlier | last
    · exact indexed.real other earlier
    · exact List.mem_singleton.mp last ▸ inside
  · rw [having_append, having_singleton _ found, ← indexed.text]
    unfold PipelineExecutionPlan.enter isTextCandidate
    cases message.textDecode <;> cases message.textEncode <;> cases message.boundedPayload <;> simp
  · rw [having_append, having_singleton _ found, ← indexed.bounded]
    unfold PipelineExecutionPlan.enter isVariableCandidate
    cases message.textDecode <;> cases message.textEncode <;> cases message.boundedPayload <;> simp
  · have entered := (@insertCandidate_spec message.frameSize index _ indexed.sorted).1
    unfold PipelineExecutionPlan.enter
    simp only
    split
    · exact indexed.sorted
    · split
      · exact indexed.sorted
      · split
        · exact indexed.sorted
        · exact entered
  · have entered := (@insertCandidate_spec message.frameSize index _ indexed.sorted).2.2 frameSize
    rw [having_append, having_singleton _ found, ← indexed.groups]
    unfold PipelineExecutionPlan.enter isFixedCandidate
    by_cases same : frameSize = message.frameSize
    · rw [if_pos same] at entered
      subst same
      cases message.textDecode <;> cases message.textEncode <;> cases message.boundedPayload <;>
        simp [entered]
    · rw [if_neg same] at entered
      cases message.textDecode <;> cases message.textEncode <;> cases message.boundedPayload <;>
        simp [entered, Ne.symm same]
  · have earlier := indexed.allowed other real
    rw [messageIsAllowed_eq (by rw [indexed.words]; exact word_within real)] at earlier
    rw [messageIsAllowed_eq (by rw [words, count]; exact word_within real), words,
      allowMessage_testBit _ (by rw [indexed.words]; exact word_within inside),
      Option.some.inj earlier]
    simp [Bool.decide_or]
  · refine List.pairwise_append.mpr ⟨indexed.exclusive, List.pairwise_singleton .., ?_⟩
    intro earlier member last same
    obtain rfl := List.mem_singleton.mp same
    intro leftMessage rightMessage leftFound rightFound leftBinary rightBinary
    obtain rfl := Option.some.inj (found.symm.trans rightFound)
    have distinct := apart earlier member
    rw [ambiguousWith, leftFound, Option.any_some, leftBinary, rightBinary] at distinct
    simpa using distinct

/-! ### Frozen pipelines -/

section

variable {target : TargetLayout} {draft : PlanDraftData} {plan : PlanBundle}

/-- The loop over the messages of a pipeline enters them in order. -/
theorem preparePipelineMessages_indexed {executions : List MessageExecutionPlan}
    {pipelineIndex : Nat} {pipeline : PipelinePlan} {framing : FramingPlan} :
    ∀ {indices entered : List Nat} {state final : PipelineLoopState},
      indices.foldlM (preparePipelineMessage draft executions pipelineIndex pipeline framing)
        state = .ok final →
      state.seen = entered.reverse → Indexed executions entered state.execution →
      Indexed executions (entered ++ indices) final.execution := by
  intro indices
  induction indices with
  | nil =>
    intro entered state final run _ indexed
    simp only [List.foldlM_nil, pure_eq_ok] at run
    rw [List.append_nil]
    exact run ▸ indexed
  | cons index rest inductionHypothesis =>
    intro entered state final run seen indexed
    simp only [List.foldlM_cons, bind_eq_ok] at run
    obtain ⟨next, stepped, run⟩ := run
    obtain ⟨message, prepared, checked, fresh, apart, rfl⟩ := preparePipelineMessage_ok stepped
    rw [seen] at fresh apart
    have onward := @inductionHypothesis (entered ++ [index]) _ final run
      (by rw [seen, List.reverse_append]; rfl)
      (indexed.enter checked.foundPrepared (by simpa using fresh) (by simpa using apart))
    rwa [List.append_assoc, List.singleton_append] at onward

/-- The index of a pipeline of a frozen plan holds the messages of that pipeline. -/
theorem indexed_of_frozen (frozen : FrozenFrom target draft plan) {pipelineIndex : Nat}
    {execution : PipelineExecutionPlan}
    (found : plan.pipelineExecutionPlans[pipelineIndex]? = some execution) :
    ∃ pipeline, plan.pipelines[pipelineIndex]? = some pipeline ∧
      Indexed plan.messageExecutionPlans pipeline.messageIndices execution := by
  have inside := (List.getElem?_eq_some_iff.mp found).1
  rw [(preparePipelines_ok frozen.indexed).1, ← frozen.pipelines] at inside
  obtain ⟨other, framing, listed, prepared⟩ :=
    frozen.pipelinePrepared (List.getElem?_eq_getElem inside)
  obtain rfl := Option.some.inj (found.symm.trans listed)
  obtain ⟨state, run, rfl⟩ := prepared.loop
  have start := indexed_nil plan.messageExecutionPlans
    plan.pipelines[pipelineIndex].framingProfileIndex
  rw [frozen.executions.1] at start
  exact ⟨_, List.getElem?_eq_getElem inside,
    @preparePipelineMessages_indexed draft _ _ _ _ _ [] _ _ run rfl start⟩

end

end ProtocolAdapter.Codec
