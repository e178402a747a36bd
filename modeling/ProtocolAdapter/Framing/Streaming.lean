/-
This file states the guarantee of the framer for the binary profiles of frozen plans:
feeding a stream in any way delivers the frames that splitting the whole stream at
once would give.
-/

import ProtocolAdapter.Builder.Frozen
import ProtocolAdapter.Framing.Feed

namespace ProtocolAdapter.Framing

open Foundation

/-! ### Frozen plans -/

/-- The profile of a stream pipeline of a frozen plan is valid. -/
theorem streamValid_of_streamFraming {target : TargetLayout} {draft : PlanDraftData}
    {plan : PlanBundle} {pipelineIndex : Nat} {framing : FrozenFramingPlan}
    (frozen : FrozenFrom target draft plan)
    (bound : streamFraming plan pipelineIndex = some framing) : framing.StreamValid := by
  simp only [streamFraming, Option.bind_eq_bind, Option.bind_eq_some_iff] at bound
  obtain ⟨pipeline, -, profile, found, kind⟩ := bound
  split at kind
  · obtain rfl := Option.some.inj kind
    exact frozen.streamValid (List.mem_of_getElem? found) ‹_›
  · cases kind

/-- Feeding a stream to a fresh workspace of a binary profile of a frozen plan delivers the
frames of the reference splitter, whatever the chunks, the sinks, the budget and the
quota, and every further call returns. -/
theorem feed_eq_splitStream {target : TargetLayout} {draft : PlanDraftData}
    {storage : Option Nat} {plan : PlanBundle} {pipelineIndex : Nat}
    {framing : FrozenFramingPlan} {overrides : FramingLimitOverrides} {allocated : Bool}
    {initial : StreamFramingWorkspace} {stream : List UInt8} {run : FeedState}
    (frozen : freezeImpl target draft storage = .ok plan)
    (bound : streamFraming plan pipelineIndex = some framing)
    (strategy : framing.strategy ≠ .asciiCrlf)
    (created : (createStreamFramingWorkspace plan pipelineIndex overrides allocated).workspace =
      some initial)
    (fed : Feed plan pipelineIndex stream initial run) :
    let reference := splitStream framing (stream.take run.consumed)
    run.frames <+: framesOf reference ∧
      (run.workspace.hasInternalWork = false →
        run.frames = framesOf reference ∧ run.malformed = malformedOf reference) ∧
      ∀ chunk sink,
        (pushStreamChunk plan run.workspace pipelineIndex chunk sink).isSome = true := by
  obtain ⟨-, profile, limits, framed, -, -, -, rfl⟩ :=
    createStreamFramingWorkspace_workspace created
  obtain rfl : profile = framing := Option.some.inj (framed.symm.trans bound)
  have valid := streamValid_of_streamFraming (frozenFrom_of_freezeImpl frozen) bound
  obtain ⟨tracks, waiting, -, owed⟩ := fresh_tracks valid strategy
  have invariant := feed_tracks tracks waiting fed
  obtain ⟨delivered, complete⟩ := invariant.frames
  rw [owed] at delivered complete
  exact ⟨delivered, complete, fun chunk sink => pushStreamChunk_isSome _ _ _ _ _⟩

/-- A workspace of the sample plan, with a budget of eighty work units. -/
def sampleWorkspace : StreamFramingWorkspace :=
  .fresh samplePlan 0 (samplePlan.framingProfiles.headD {})
    { maxSubmit := 64, maxFrames := 2, maxWork := 80, maxSync := 8, maxSession := 131072 }

/-- A candidate with a length below the minimum, a frame of five bytes that starts inside
it, and the start of another frame. -/
def sampleStream : List UInt8 :=
  [0xAA, 0xAA, 0x55, 0x02, 0xAA, 0x55, 0x05, 0x01, 0x02, 0xAA]

/-- The host's view after one call that submits the whole sample. -/
def sampleRun : Option FeedState :=
  (pushStreamChunk samplePlan sampleWorkspace 0 { data := some 1, bytes := sampleStream }
    { function := some fun _ _ => .continue }).map
    (FeedState.after { workspace := sampleWorkspace })

theorem feed_eq_splitStream_sample : ∃ run ∈ sampleRun,
    run.consumed = 10 ∧ run.frames = [[0xAA, 0x55, 0x05, 0x01, 0x02]] ∧
      run.malformed = malformedOf (splitStream (samplePlan.framingProfiles.headD {})
        (sampleStream.take run.consumed)) := by
  have created : (createStreamFramingWorkspace samplePlan 0
      { maxSubmitBytes := 64, maxFramesPerSubmit := 2, maxWorkUnits := 80 } true).workspace =
        some sampleWorkspace := by decide
  have bound : streamFraming samplePlan 0 = some (samplePlan.framingProfiles.headD {}) := rfl
  have observed : sampleRun.map (fun run =>
      (run.consumed, run.frames, run.workspace.hasInternalWork)) =
        some (10, [[0xAA, 0x55, 0x05, 0x01, 0x02]], false) := rfl
  obtain ⟨run, found, seen⟩ := Option.map_eq_some_iff.mp observed
  obtain ⟨final, pushed, rfl⟩ := Option.map_eq_some_iff.mp found
  have fed : Feed samplePlan 0 sampleStream sampleWorkspace
      (FeedState.after { workspace := sampleWorkspace } final) :=
    .submit .start _ _ _ List.prefix_rfl pushed
  simp only [Prod.mk.injEq] at seen
  obtain ⟨-, complete, -⟩ :=
    feed_eq_splitStream sampleBudgeted_freezes bound (by decide) created fed
  exact ⟨_, found, seen.1, seen.2.1, (complete seen.2.2).2⟩

end ProtocolAdapter.Framing
