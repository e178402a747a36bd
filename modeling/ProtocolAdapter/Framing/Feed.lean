/-
This file states what it means to feed a stream to a workspace and carries the
guarantees of one call over to whole runs. The host submits any part of the bytes
that have not been consumed, possibly none, and submits the rest again after the
call; the sinks and the refused calls in between are arbitrary.
-/

import ProtocolAdapter.Framing.Call

namespace ProtocolAdapter.Framing

open Foundation

/-! ### Runs -/

/-- What a host has seen of a workspace: its state, the result of every call and the
delivered frames. -/
structure FeedState where
  workspace : StreamFramingWorkspace
  results : List SubmitResult := []
  frames : List (List UInt8) := []

/-- The bytes consumed by all calls. -/
def FeedState.consumed (run : FeedState) : Nat := (run.results.map (·.bytesConsumed)).sum

/-- The bytes discarded by all calls. -/
def FeedState.discarded (run : FeedState) : Nat := (run.results.map (·.bytesDiscarded)).sum

/-- The malformed candidates reported by all calls. -/
def FeedState.malformed (run : FeedState) : Nat :=
  (run.results.map (·.malformedCandidates)).sum

/-- The host's view after one more call. -/
def FeedState.after (run : FeedState) (final : PushState) : FeedState where
  workspace := final.workspace
  results := run.results ++ [final.result]
  frames := run.frames ++ final.delivered

@[simp] theorem consumed_after (run : FeedState) (final : PushState) :
    (run.after final).consumed = run.consumed + final.result.bytesConsumed := by
  simp [FeedState.consumed, FeedState.after]

@[simp] theorem discarded_after (run : FeedState) (final : PushState) :
    (run.after final).discarded = run.discarded + final.result.bytesDiscarded := by
  simp [FeedState.discarded, FeedState.after]

@[simp] theorem malformed_after (run : FeedState) (final : PushState) :
    (run.after final).malformed = run.malformed + final.result.malformedCandidates := by
  simp [FeedState.malformed, FeedState.after]

/-- The runs that feed a stream, in order, to the workspace `initial` of a pipeline.
Each call submits some of the bytes behind the consumed ones. -/
inductive Feed (plan : PlanBundle) (pipelineIndex : Nat) (stream : List UInt8)
    (initial : StreamFramingWorkspace) : FeedState → Prop
  | start : Feed plan pipelineIndex stream initial { workspace := initial }
  | submit {run : FeedState} (fed : Feed plan pipelineIndex stream initial run)
      (chunk : ByteView) (sink : FrameSink) (final : PushState)
      (resubmitted : chunk.bytes <+: stream.drop run.consumed)
      (pushed : pushStreamChunk plan run.workspace pipelineIndex chunk sink = some final) :
      Feed plan pipelineIndex stream initial (run.after final)

/-- The bytes a call consumes continue the consumed part of the stream. -/
theorem take_consumed_append {stream chunk : List UInt8} {consumed more : Nat}
    (resubmitted : chunk <+: stream.drop consumed) (inside : more ≤ chunk.length) :
    stream.take (consumed + more) = stream.take consumed ++ chunk.take more := by
  obtain ⟨rest, whole⟩ := resubmitted
  rw [List.take_add, ← whole, List.take_append_of_le_length inside]

/-- No run changes the binding of its workspace. -/
theorem feed_binding {plan : PlanBundle} {pipelineIndex : Nat} {stream : List UInt8}
    {initial : StreamFramingWorkspace} {run : FeedState}
    (fed : Feed plan pipelineIndex stream initial run) : SameBinding initial run.workspace := by
  induction fed with
  | start => exact .refl _
  | submit fed chunk sink final resubmitted pushed inductionHypothesis =>
    exact inductionHypothesis.trans (pushStreamChunk_binding pushed)

/-! ### The invariant of a run -/

/-- What holds after every call of a run. -/
structure FeedTracks (stream : List UInt8) (initial : StreamFramingWorkspace) (run : FeedState) :
    Prop where
  tracks : run.workspace.Tracks
  waiting : run.workspace.Waiting
  bounded : run.consumed ≤ stream.length
  accounted : (run.frames.map List.length).sum + run.discarded + run.workspace.retainedBytes =
    initial.retainedBytes + run.consumed
  reported : ∃ events, run.frames = framesOf events ∧ run.malformed = malformedOf events ∧
    Advances initial.owed (stream.take run.consumed) events run.workspace.owed

/-- Every run keeps the invariant of the simulation. -/
theorem feed_tracks {plan : PlanBundle} {pipelineIndex : Nat} {stream : List UInt8}
    {initial : StreamFramingWorkspace} {run : FeedState} (tracks : initial.Tracks)
    (waiting : initial.Waiting) (fed : Feed plan pipelineIndex stream initial run) :
    FeedTracks stream initial run := by
  induction fed with
  | start =>
    exact ⟨tracks, waiting, Nat.zero_le _, by simp [FeedState.discarded, FeedState.consumed],
      [], rfl, rfl, .refl _⟩
  | @submit run fed chunk sink final resubmitted pushed inductionHypothesis =>
    obtain ⟨call, idle⟩ :=
      pushStreamChunk_tracks inductionHypothesis.tracks inductionHypothesis.waiting pushed
    obtain ⟨earlier, frames, malformed, advances⟩ := inductionHypothesis.reported
    obtain ⟨events, delivered, reported, later⟩ := call.reported
    have available := resubmitted.length_le
    rw [List.length_drop] at available
    have consumed := call.consumed
    have bounded := call.bounded
    have balance := inductionHypothesis.accounted
    have callBalance := call.accounted
    have inside := inductionHypothesis.bounded
    refine ⟨call.tracks, idle, ?_, ?_, earlier ++ events, ?_, ?_, ?_⟩
    · rw [consumed_after]
      omega
    · rw [consumed_after, discarded_after]
      unfold PushState.accounted at callBalance
      simp only [FeedState.after, List.map_append, List.sum_append]
      omega
    · rw [framesOf_append, ← frames, ← delivered]
      rfl
    · rw [malformed_after, malformedOf_append, malformed, reported]
    · rw [consumed_after, consumed, take_consumed_append resubmitted bounded]
      exact advances.trans later

/-- The delivered frames are a prefix of the frames of the consumed bytes, and all of
them when no internal work is left. -/
theorem FeedTracks.frames {stream : List UInt8} {initial : StreamFramingWorkspace}
    {run : FeedState} (invariant : FeedTracks stream initial run) :
    run.frames <+: framesOf (initial.owed (stream.take run.consumed)) ∧
      (run.workspace.hasInternalWork = false →
        run.frames = framesOf (initial.owed (stream.take run.consumed)) ∧
          run.malformed = malformedOf (initial.owed (stream.take run.consumed))) := by
  obtain ⟨events, frames, malformed, advances⟩ := invariant.reported
  rw [advances.emitted_append]
  refine ⟨?_, fun needsInput => ?_⟩
  · rw [framesOf_append, ← frames]
    exact List.prefix_append _ _
  · rw [owed_nil_of_waiting invariant.tracks invariant.waiting needsInput, List.append_nil]
    exact ⟨frames, malformed⟩

/-! ### The fresh workspace -/

/-- A fresh workspace of a valid profile owes the reference splitting of the stream. -/
theorem fresh_tracks {plan : PlanBundle} {pipelineIndex : Nat} {framing : FrozenFramingPlan}
    {limits : EffectiveLimits} (valid : framing.StreamValid)
    (strategy : framing.strategy ≠ .asciiCrlf) :
    (StreamFramingWorkspace.fresh plan pipelineIndex framing limits).Tracks ∧
      (StreamFramingWorkspace.fresh plan pipelineIndex framing limits).Waiting ∧
      (StreamFramingWorkspace.fresh plan pipelineIndex framing limits).retainedBytes = 0 ∧
      ∀ stream, (StreamFramingWorkspace.fresh plan pipelineIndex framing limits).owed stream =
        splitStream framing stream := by
  unfold StreamFramingWorkspace.fresh
  refine ⟨⟨?_, ?_, ?_, ?_, ?_⟩, resetCandidate_waiting valid, resetCandidate_retainedBytes _, ?_⟩
  all_goals unfold StreamFramingWorkspace.resetCandidate
  · split <;> exact valid
  · split <;> exact strategy
  · split <;> simp
  · split <;> simp
  · split
    · exact absurd ‹_› strategy
    · rename_i fixed
      refine candidate_of_fixed (fun other => by cases fixed.symm.trans other) ?_ (Nat.zero_le _)
      rw [(valid.fixedLength fixed).sync_nil]
      exact List.nil_prefix
    · rename_i notFixed
      exact ⟨notFixed, List.length_pos_of_ne_nil (sync_ne_nil_of_valid valid notFixed)⟩
  · intro stream
    split <;> simp [StreamFramingWorkspace.owed, StreamFramingWorkspace.residual]

end ProtocolAdapter.Framing
