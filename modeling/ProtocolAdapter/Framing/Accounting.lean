/-
This file accounts for the bytes a workspace consumes over any sequence of calls: the
chunks need not continue each other, and a call may be refused or stopped anywhere.
Each consumed byte is in a delivered frame, was discarded, or is still held, and the
lifetime statistics are the sums of what the calls reported.
-/

import ProtocolAdapter.Framing.Crlf
import ProtocolAdapter.Framing.Streaming

namespace ProtocolAdapter.Framing

/-! ### Calls in any order -/

/-- The runs of arbitrary calls on a workspace. -/
inductive Calls (initial : StreamFramingWorkspace) : FeedState → Prop
  | start : Calls initial { workspace := initial }
  | submit {run : FeedState} (calls : Calls initial run) (plan : PlanBundle)
      (pipelineIndex : Nat) (chunk : ByteView) (sink : FrameSink) (final : PushState)
      (pushed : pushStreamChunk plan run.workspace pipelineIndex chunk sink = some final) :
      Calls initial (run.after final)

/-- The workspaces that calls and resets can lead to. -/
inductive Reachable (initial : StreamFramingWorkspace) : StreamFramingWorkspace → Prop
  | start : Reachable initial initial
  | submit {workspace : StreamFramingWorkspace} (reachable : Reachable initial workspace)
      (plan : PlanBundle) (pipelineIndex : Nat) (chunk : ByteView) (sink : FrameSink)
      (final : PushState)
      (pushed : pushStreamChunk plan workspace pipelineIndex chunk sink = some final) :
      Reachable initial final.workspace
  | reset {workspace : StreamFramingWorkspace} (reachable : Reachable initial workspace)
      (plan : PlanBundle) (pipelineIndex : Nat) :
      Reachable initial (resetStreamFramingWorkspace plan workspace pipelineIndex).2

/-- A run of calls reaches its workspace. -/
theorem Calls.reachable {initial : StreamFramingWorkspace} {run : FeedState}
    (calls : Calls initial run) : Reachable initial run.workspace := by
  induction calls with
  | start => exact .start
  | submit calls plan pipelineIndex chunk sink final pushed inductionHypothesis =>
    exact .submit inductionHypothesis plan pipelineIndex chunk sink final pushed

/-! ### Sound workspaces -/

/-- What holds of every workspace between two calls, whatever its strategy. -/
inductive StreamFramingWorkspace.Sound (workspace : StreamFramingWorkspace) : Prop
  | binary (tracks : workspace.Tracks) (waiting : workspace.Waiting) : Sound workspace
  | crlf (seen : List UInt8) (frames : List (List UInt8)) (malformed : Nat)
      (tracks : workspace.TracksCrlf seen frames malformed) : Sound workspace

theorem resetCandidate_tracks {workspace : StreamFramingWorkspace} (tracks : workspace.Tracks) :
    workspace.resetCandidate.Tracks := by
  obtain ⟨-, framing, -, buffer, -⟩ := resetCandidate_kept workspace
  have empty : workspace.resetCandidate.bufferedSize = 0 := by
    unfold StreamFramingWorkspace.resetCandidate
    split <;> rfl
  refine ⟨framing ▸ tracks.valid, framing ▸ tracks.strategy_ne, ?_, ?_, ?_⟩
  · rw [buffer, framing]
    exact tracks.capacity
  · rw [empty]
    exact Nat.zero_le _
  · unfold StreamFramingWorkspace.resetCandidate
    split
    · exact absurd ‹_› tracks.strategy_ne
    · rename_i fixed
      refine candidate_of_fixed (fun other => by cases fixed.symm.trans other) ?_ (Nat.zero_le _)
      rw [(tracks.valid.fixedLength fixed).sync_nil]
      exact List.nil_prefix
    · rename_i notFixed
      exact ⟨notFixed, List.length_pos_of_ne_nil (sync_ne_nil_of_valid tracks.valid notFixed)⟩

theorem resetCandidate_tracksCrlf {workspace : StreamFramingWorkspace} {seen : List UInt8}
    {frames : List (List UInt8)} {malformed : Nat}
    (tracks : workspace.TracksCrlf seen frames malformed) :
    workspace.resetCandidate.TracksCrlf [] [] 0 := by
  have minimum := tracks.minimum
  unfold StreamFramingWorkspace.resetCandidate
  simp only [tracks.strategy]
  refine ⟨tracks.strategy, minimum, tracks.capacity, ?_⟩
  exact ⟨rfl, by simp only; omega, rfl, rfl⟩

/-- Dropping the candidate keeps a workspace sound. -/
theorem StreamFramingWorkspace.Sound.resetCandidate {workspace : StreamFramingWorkspace}
    (sound : workspace.Sound) : workspace.resetCandidate.Sound := by
  cases sound with
  | binary tracks waiting =>
    exact .binary (resetCandidate_tracks tracks) (resetCandidate_waiting tracks.valid)
  | crlf seen frames malformed tracks =>
    exact .crlf _ _ _ (resetCandidate_tracksCrlf tracks)

/-- A call accounts for its bytes and leaves a sound workspace. -/
theorem pushStreamChunk_accounted {plan : PlanBundle} {start : StreamFramingWorkspace}
    {pipelineIndex : Nat} {chunk : ByteView} {sink : FrameSink} {final : PushState}
    (sound : start.Sound)
    (pushed : pushStreamChunk plan start pipelineIndex chunk sink = some final) :
    final.workspace.Sound ∧
      final.accounted = start.retainedBytes + final.result.bytesConsumed ∧
      final.result.bytesConsumed ≤ chunk.bytes.length := by
  cases sound with
  | binary tracks waiting =>
    obtain ⟨call, idle⟩ := pushStreamChunk_tracks tracks waiting pushed
    rw [call.consumed]
    exact ⟨.binary call.tracks idle, call.accounted, call.bounded⟩
  | crlf seen frames malformed tracks =>
    have call := pushStreamChunk_tracksCrlf tracks pushed
    rw [call.consumed]
    exact ⟨.crlf _ _ _ call.tracks, call.accounted, call.bounded⟩

/-- A fresh workspace of a valid profile is sound and holds nothing. -/
theorem fresh_sound {plan : PlanBundle} {pipelineIndex : Nat} {framing : FrozenFramingPlan}
    {limits : EffectiveLimits} (valid : framing.StreamValid) :
    (StreamFramingWorkspace.fresh plan pipelineIndex framing limits).Sound := by
  by_cases strategy : framing.strategy = .asciiCrlf
  · exact .crlf _ _ _ (fresh_tracksCrlf plan pipelineIndex framing limits strategy
      (valid.asciiCrlf strategy).maximum_ge).1
  · obtain ⟨tracks, waiting, -, -⟩ := fresh_tracks valid strategy
    exact .binary tracks waiting

/-- Every workspace reached from a sound one is sound. -/
theorem Reachable.sound {initial workspace : StreamFramingWorkspace}
    (reachable : Reachable initial workspace) (sound : initial.Sound) : workspace.Sound := by
  induction reachable with
  | start => exact sound
  | submit reachable plan pipelineIndex chunk sink final pushed inductionHypothesis =>
    exact (pushStreamChunk_accounted inductionHypothesis pushed).1
  | reset reachable plan pipelineIndex inductionHypothesis =>
    unfold resetStreamFramingWorkspace
    repeat' split
    · exact inductionHypothesis
    · exact inductionHypothesis
    · exact inductionHypothesis
    · exact inductionHypothesis.resetCandidate

/-- Neither calls nor resets change the binding. -/
theorem Reachable.binding {initial workspace : StreamFramingWorkspace}
    (reachable : Reachable initial workspace) : SameBinding initial workspace := by
  induction reachable with
  | start => exact .refl _
  | submit reachable plan pipelineIndex chunk sink final pushed inductionHypothesis =>
    exact inductionHypothesis.trans (pushStreamChunk_binding pushed)
  | reset reachable plan pipelineIndex inductionHypothesis =>
    unfold resetStreamFramingWorkspace
    repeat' split
    · exact inductionHypothesis
    · exact inductionHypothesis
    · exact inductionHypothesis
    · exact inductionHypothesis.trans (resetCandidate_binding _)

/-! ### The lifetime statistics -/

/-- The statistics of the workspace grow by what the call reports. -/
structure TotalsFollow (start : StreamFramingWorkspace) (push : PushState) : Prop where
  discarded : push.workspace.totalDiscardedBytes =
    start.totalDiscardedBytes + push.result.bytesDiscarded
  malformed : push.workspace.totalMalformedCandidates =
    start.totalMalformedCandidates + push.result.malformedCandidates

/-- Every round records a discard and a malformed candidate in both places. -/
theorem continues_totals {input : List UInt8} {sink : FrameSinkFunction}
    {start : StreamFramingWorkspace} {push next : PushState} (follow : TotalsFollow start push)
    (continues : Continues input sink push next) : TotalsFollow start next := by
  obtain ⟨discarded, malformed⟩ := follow
  obtain ⟨-, -, -, -, -, -, -, keptDiscarded, keptMalformed, -⟩ :=
    resetCandidate_kept push.workspace
  cases continues <;> constructor <;>
    simp only [PushState.deliver, PushState.withWorkspace, PushState.consume, PushState.spend,
      PushState.recordDiscard, PushState.recordMalformed, StreamFramingWorkspace.appendByte,
      keptDiscarded, keptMalformed, discarded, malformed, Nat.add_assoc]

theorem stops_totals {input : List UInt8} {sink : FrameSinkFunction}
    {start : StreamFramingWorkspace} {push final : PushState} (follow : TotalsFollow start push)
    (stops : Stops input sink push final) : TotalsFollow start final := by
  cases stops with
  | sinkStop state quota =>
    have continues : Continues input sink push _ := .deliver state quota
    have next := continues_totals follow continues
    exact ⟨next.discarded, next.malformed⟩
  | quota | inputEnd | budget | compactPartial | internalError =>
    exact ⟨follow.discarded, follow.malformed⟩

/-- The statistics grow by what the call reports. -/
theorem pushStreamChunk_totals {plan : PlanBundle} {start : StreamFramingWorkspace}
    {pipelineIndex : Nat} {chunk : ByteView} {sink : FrameSink} {final : PushState}
    (pushed : pushStreamChunk plan start pipelineIndex chunk sink = some final) :
    TotalsFollow start final := by
  obtain ⟨function⟩ := sink
  cases function with
  | none =>
    obtain rfl : PushState.refuse start .invalidArgument = final := Option.some.inj pushed
    exact ⟨rfl, rfl⟩
  | some function =>
    rcases pushStreamChunk_cases pushed with ⟨apiStatus, -, rfl⟩ | run
    · exact ⟨rfl, rfl⟩
    · obtain ⟨last, follow, stops⟩ := pushLoop_preserves (TotalsFollow start)
        (fun push next follow continues => continues_totals follow continues) _ _ _
        ⟨rfl, rfl⟩ run
      exact stops_totals follow stops

/-! ### Runs -/

/-- What holds after every call of a run. -/
structure RunAccounted (initial : StreamFramingWorkspace) (run : FeedState) : Prop where
  sound : run.workspace.Sound
  balance : initial.retainedBytes + run.consumed =
    (run.frames.map List.length).sum + run.discarded + run.workspace.retainedBytes
  discarded : run.workspace.totalDiscardedBytes = initial.totalDiscardedBytes + run.discarded
  malformed : run.workspace.totalMalformedCandidates =
    initial.totalMalformedCandidates + run.malformed

/-- Every run of calls keeps the account. -/
theorem Calls.accounted {initial : StreamFramingWorkspace} {run : FeedState}
    (calls : Calls initial run) (sound : initial.Sound) : RunAccounted initial run := by
  induction calls with
  | start =>
    exact ⟨sound, by simp [FeedState.discarded, FeedState.consumed], by simp [FeedState.discarded],
      by simp [FeedState.malformed]⟩
  | @submit run calls plan pipelineIndex chunk sink final pushed inductionHypothesis =>
    obtain ⟨soundAfter, call, -⟩ := pushStreamChunk_accounted inductionHypothesis.sound pushed
    have totals := pushStreamChunk_totals pushed
    have balance := inductionHypothesis.balance
    refine ⟨soundAfter, ?_, ?_, ?_⟩
    · rw [consumed_after, discarded_after]
      unfold PushState.accounted at call
      simp only [FeedState.after, List.map_append, List.sum_append]
      omega
    · rw [discarded_after, ← Nat.add_assoc, ← inductionHypothesis.discarded]
      exact totals.discarded
    · rw [malformed_after, ← Nat.add_assoc, ← inductionHypothesis.malformed]
      exact totals.malformed

/-- Over any calls on a workspace of a frozen plan, the consumed bytes are the delivered,
the discarded and the held ones, and the statistics are the sums over the calls. -/
theorem calls_accounted {target : TargetLayout} {draft : PlanDraftData} {storage : Option Nat}
    {plan : PlanBundle} {pipelineIndex : Nat} {overrides : FramingLimitOverrides}
    {allocated : Bool} {initial : StreamFramingWorkspace} {run : FeedState}
    (frozen : freezeImpl target draft storage = .ok plan)
    (created : (createStreamFramingWorkspace plan pipelineIndex overrides allocated).workspace =
      some initial)
    (calls : Calls initial run) :
    run.consumed = (run.frames.map List.length).sum + run.discarded +
        run.workspace.retainedBytes ∧
      run.workspace.totalDiscardedBytes = run.discarded ∧
      run.workspace.totalMalformedCandidates = run.malformed := by
  obtain ⟨-, framing, limits, bound, -, -, -, rfl⟩ :=
    createStreamFramingWorkspace_workspace created
  have valid := streamValid_of_streamFraming (frozenFrom_of_freezeImpl frozen) bound
  have account := calls.accounted (fresh_sound valid)
  have kept := resetCandidate_retainedBytes
  obtain ⟨-, balance, discarded, malformed⟩ := account
  rw [StreamFramingWorkspace.fresh] at balance discarded malformed
  obtain ⟨-, -, -, -, -, -, -, noDiscards, noMalformed, -⟩ := resetCandidate_kept
    { planScope := plan.address
      framing := framing
      pipelineIndex := pipelineIndex
      buffer := List.replicate (frameCapacity framing) 0
      maxSubmitBytes := limits.maxSubmit
      maxFramesPerSubmit := limits.maxFrames
      maxWorkUnits := limits.maxWork
      maxSessionMemoryBytes := limits.maxSession : StreamFramingWorkspace }
  rw [kept, Nat.zero_add] at balance
  rw [noDiscards, Nat.zero_add] at discarded
  rw [noMalformed, Nat.zero_add] at malformed
  exact ⟨balance, discarded, malformed⟩

theorem calls_accounted_sample : ∃ run ∈ sampleRun,
    run.consumed = 10 ∧ run.discarded = 4 ∧ run.workspace.retainedBytes = 1 ∧
      run.consumed = (run.frames.map List.length).sum + run.discarded +
        run.workspace.retainedBytes ∧
      run.workspace.totalDiscardedBytes = run.discarded ∧
      run.workspace.totalMalformedCandidates = run.malformed := by
  have created : (createStreamFramingWorkspace samplePlan 0
      { maxSubmitBytes := 64, maxFramesPerSubmit := 2, maxWorkUnits := 80 } true).workspace =
        some sampleWorkspace := by decide
  have observed : sampleRun.map (fun run =>
      (run.consumed, run.discarded, run.workspace.retainedBytes)) = some (10, 4, 1) := rfl
  obtain ⟨run, found, seen⟩ := Option.map_eq_some_iff.mp observed
  obtain ⟨final, pushed, rfl⟩ := Option.map_eq_some_iff.mp found
  have calls : Calls sampleWorkspace
      (FeedState.after { workspace := sampleWorkspace } final) :=
    .submit .start samplePlan 0 _ _ _ pushed
  simp only [Prod.mk.injEq] at seen
  exact ⟨_, found, seen.1, seen.2.1, seen.2.2,
    calls_accounted sampleBudgeted_freezes created calls⟩

end ProtocolAdapter.Framing
