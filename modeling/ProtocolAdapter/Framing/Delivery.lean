/-
This file models sinks that keep a state, as the hosts of the framer do: a sink is asked
about each frame in the state the frame before left behind. Such a call is a call with
some plain sink, and the frames it offers are exactly the delivered ones. Over any calls,
these are the frames that cutting the consumed bytes at once yields.
-/

import ProtocolAdapter.Framing.Progress

namespace ProtocolAdapter.Framing

open Foundation

/-! ### Sinks with a state -/

/-- A sink with a state. There is no answer when it reads outside an array. -/
abbrev StatefulSink (σ : Type) := σ → List UInt8 → Option (FrameSinkAction × σ)

/-- The frame the next round hands to the sink. -/
def PushState.offered (push : PushState) : Option (List UInt8) :=
  if push.workspace.state = .deliverPending ∧
      push.result.framesDelivered < push.workspace.maxFramesPerSubmit then
    some (push.workspace.buffer.take push.workspace.bufferedSize)
  else none

section

variable {σ : Type}

/-- The answer of the sink in the next round. A round that offers no frame asks nothing. -/
def PushState.ask (push : PushState) (sink : StatefulSink σ) (state : σ) :
    Option (FrameSinkAction × σ) :=
  match push.offered with
  | none => some (.continue, state)
  | some frame => sink state frame

/-- The submission loop with a sink that keeps a state. -/
def pushLoopWith (input : List UInt8) (sink : StatefulSink σ) :
    Nat → σ → PushState → Option (σ × PushState)
  | 0, _, _ => none
  | fuel + 1, state, push => do
    let (action, state) ← push.ask sink state
    match pushRound input (fun _ _ => action) push with
    | .continue next => pushLoopWith input sink fuel state next
    | .stop final => some (state, final)

/-- The status of a call that is answered before it touches the workspace. -/
def submitRefusal (plan : PlanBundle) (workspace : StreamFramingWorkspace) (pipelineIndex : Nat)
    (input : ByteView) : Option SubmitApiStatus :=
  if input.data = none ∧ input.size ≠ 0 then some .invalidArgument
  else if ¬supportsStreamSchema plan.schemaVersion ∨ pipelineIndex ≥ plan.pipelines.length then
    some .invalidPlan
  else if workspace.planScope ≠ plan.address ∨ workspace.pipelineIndex ≠ pipelineIndex then
    some .workspacePlanMismatch
  else if workspace.inCallback then some .reentrantCall
  else if workspace.inUse then some .workspaceBusy
  else if input.size > workspace.maxSubmitBytes then some .limitExceeded
  else none

/-- Submits a chunk to a workspace of the plan, with a sink that keeps a state. -/
def pushStreamChunkWith (plan : PlanBundle) (workspace : StreamFramingWorkspace)
    (pipelineIndex : Nat) (input : ByteView) (sink : StatefulSink σ) (state : σ) :
    Option (σ × PushState) :=
  match submitRefusal plan workspace pipelineIndex input with
  | some apiStatus => some (state, .refuse workspace apiStatus)
  | none => pushLoopWith input.bytes sink (roundLimit workspace) state { workspace := workspace }

/-- The frames of one call lead the sink from one state to another. Only the last frame
may be answered with a stop. -/
inductive Deliveries (sink : StatefulSink σ) : σ → List (List UInt8) → σ → Prop
  | nothing (state : σ) : Deliveries sink state [] state
  | stopped {state after : σ} {frame : List UInt8}
      (answer : sink state frame = some (.stop, after)) : Deliveries sink state [frame] after
  | continued {state next after : σ} {frame : List UInt8} {frames : List (List UInt8)}
      (answer : sink state frame = some (.continue, next))
      (rest : Deliveries sink next frames after) : Deliveries sink state (frame :: frames) after

/-! ### The plain sink of a call -/

/-- A round asks the sink only about the frame it offers. -/
theorem pushRound_congr {input : List UInt8} {push : PushState} (sink other : FrameSinkFunction)
    (agree : ∀ frame, push.offered = some frame →
      sink push.result.framesDelivered frame = other push.result.framesDelivered frame) :
    pushRound input sink push = pushRound input other push := by
  unfold pushRound
  split <;> try rfl
  rename_i state
  unfold deliverPendingRound
  split
  · rfl
  · rename_i quota
    have offered : push.offered =
        some (push.workspace.buffer.take push.workspace.bufferedSize) :=
      if_pos ⟨state, Nat.lt_of_not_le quota⟩
    simp only [PushState.deliver, agree _ offered]

/-- The round that offers a frame ends the call when the sink stops. -/
theorem pushRound_offered (input : List UInt8) {push : PushState} {frame : List UInt8}
    (offered : push.offered = some frame) (action : FrameSinkAction) :
    let next := (push.deliver fun _ _ => action).2
    next.delivered = push.delivered ++ [frame] ∧
      next.result.framesDelivered = push.result.framesDelivered + 1 ∧
        pushRound input (fun _ _ => action) push =
          match action with
          | .stop => .stop { next with result := { next.result with stopReason := .sinkStop } }
          | .continue => .continue next := by
  simp only [PushState.offered, Option.ite_none_right_eq_some, Option.some.injEq] at offered
  obtain ⟨⟨state, quota⟩, rfl⟩ := offered
  refine ⟨rfl, rfl, ?_⟩
  cases action <;>
    simp only [pushRound, state, deliverPendingRound, if_neg (Nat.not_le_of_lt quota),
      PushState.deliver]

/-- A round that offers no frame delivers none. -/
theorem continues_silent {input : List UInt8} {sink : FrameSinkFunction} {push next : PushState}
    (silent : push.offered = none) (continues : Continues input sink push next) :
    next.delivered = push.delivered ∧
      next.result.framesDelivered = push.result.framesDelivered := by
  cases continues with
  | deliver state quota =>
    rw [PushState.offered, if_pos ⟨state, quota⟩] at silent
    cases silent
  | _ => exact ⟨rfl, rfl⟩

theorem stops_silent {input : List UInt8} {sink : FrameSinkFunction} {push final : PushState}
    (silent : push.offered = none) (stops : Stops input sink push final) :
    final.delivered = push.delivered := by
  cases stops with
  | sinkStop state quota =>
    rw [PushState.offered, if_pos ⟨state, quota⟩] at silent
    cases silent
  | _ => rfl

/-- No round takes a delivered frame back. -/
theorem continues_framesDelivered {input : List UInt8} {sink : FrameSinkFunction}
    {push next : PushState} (continues : Continues input sink push next) :
    push.result.framesDelivered ≤ next.result.framesDelivered := by
  cases continues with
  | deliver state quota => exact Nat.le_succ _
  | _ => exact Nat.le_refl _

/-- A call asks its sink only about the frames that are not delivered yet. -/
theorem pushLoop_congr {input : List UInt8} {sink other : FrameSinkFunction} :
    ∀ (fuel : Nat) (push : PushState),
      (∀ ordinal, push.result.framesDelivered ≤ ordinal →
        ∀ frame, sink ordinal frame = other ordinal frame) →
      pushLoop input sink fuel push = pushLoop input other fuel push := by
  intro fuel
  induction fuel with
  | zero => intro push agree; rfl
  | succ fuel inductionHypothesis =>
    intro push agree
    have same : pushRound input sink push = pushRound input other push :=
      pushRound_congr _ _ fun frame _ => agree _ (Nat.le_refl _) frame
    have explained := pushRound_explained input sink push
    rw [pushLoop, pushLoop, ← same]
    cases round : pushRound input sink push with
    | «continue» next =>
      rw [round] at explained
      have later := continues_framesDelivered explained
      exact inductionHypothesis next fun ordinal behind => agree ordinal (later.trans behind)
    | stop final => rfl

/-- A call with a stateful sink is a call with a plain sink, and its frames are the ones
the stateful sink was asked about. -/
theorem pushLoopWith_plain {input : List UInt8} {sink : StatefulSink σ} {after : σ}
    {final : PushState} :
    ∀ (fuel : Nat) (state : σ) (push : PushState),
      pushLoopWith input sink fuel state push = some (after, final) →
      ∃ function frames, pushLoop input function fuel push = some final ∧
        final.delivered = push.delivered ++ frames ∧ Deliveries sink state frames after := by
  intro fuel
  induction fuel with
  | zero => intro state push run; cases run
  | succ fuel inductionHypothesis =>
    intro state push run
    rw [pushLoopWith] at run
    obtain ⟨⟨action, middle⟩, asked, run⟩ := Option.bind_eq_some_iff.mp run
    cases offered : push.offered with
    | none =>
      rw [PushState.ask, offered] at asked
      obtain ⟨rfl, rfl⟩ : FrameSinkAction.continue = action ∧ state = middle := by
        simpa using asked
      have explained := pushRound_explained input (fun _ _ => .continue) push
      cases round : pushRound input (fun _ _ => .continue) push with
      | «continue» next =>
        simp only [round] at run explained
        obtain ⟨function, frames, plain, delivered, deliveries⟩ :=
          inductionHypothesis state next run
        rw [(continues_silent offered explained).1] at delivered
        refine ⟨function, frames, ?_, delivered, deliveries⟩
        rw [pushLoop, pushRound_congr function (fun _ _ => .continue) (by simp [offered]), round]
        exact plain
      | stop last =>
        simp only [round, Option.some.injEq, Prod.mk.injEq] at run explained
        obtain ⟨rfl, rfl⟩ := run
        refine ⟨fun _ _ => .continue, [], ?_, ?_, .nothing state⟩
        · rw [pushLoop, round]
        · rw [stops_silent offered explained, List.append_nil]
    | some frame =>
      rw [PushState.ask, offered] at asked
      obtain ⟨delivered, counted, round⟩ := pushRound_offered input offered action
      cases action with
      | stop =>
        simp only [round, Option.some.injEq, Prod.mk.injEq] at run
        obtain ⟨rfl, rfl⟩ := run
        refine ⟨fun _ _ => .stop, [frame], ?_, delivered, .stopped asked⟩
        rw [pushLoop, round]
      | «continue» =>
        simp only [round] at run
        obtain ⟨function, frames, plain, later, deliveries⟩ := inductionHypothesis middle _ run
        let answer : FrameSinkFunction := fun ordinal frame =>
          if ordinal = push.result.framesDelivered then .continue else function ordinal frame
        refine ⟨answer, frame :: frames, ?_, ?_, .continued asked deliveries⟩
        · rw [pushLoop, pushRound_congr answer (fun _ _ => .continue)
            fun _ _ => if_pos rfl, round]
          rw [← plain]
          refine pushLoop_congr fuel _ fun ordinal behind frame => ?_
          rw [counted] at behind
          exact if_neg (Nat.ne_of_gt behind)
        · rw [later, delivered, List.append_assoc]
          rfl

/-- A call with a plain sink in the same words. -/
theorem pushStreamChunk_eq (plan : PlanBundle) (workspace : StreamFramingWorkspace)
    (pipelineIndex : Nat) (input : ByteView) (function : FrameSinkFunction) :
    pushStreamChunk plan workspace pipelineIndex input { function := some function } =
      match submitRefusal plan workspace pipelineIndex input with
      | some apiStatus => some (.refuse workspace apiStatus)
      | none =>
        pushLoop input.bytes function (roundLimit workspace) { workspace := workspace } := by
  simp only [pushStreamChunk, submitRefusal]
  repeat' split
  all_goals first | rfl | simp_all

/-- What a call with a stateful sink does. -/
theorem pushStreamChunkWith_plain {plan : PlanBundle} {workspace : StreamFramingWorkspace}
    {pipelineIndex : Nat} {input : ByteView} {sink : StatefulSink σ} {state after : σ}
    {final : PushState}
    (pushed : pushStreamChunkWith plan workspace pipelineIndex input sink state =
      some (after, final)) :
    (∃ function, pushStreamChunk plan workspace pipelineIndex input { function := some function } =
      some final) ∧ Deliveries sink state final.delivered after := by
  unfold pushStreamChunkWith at pushed
  simp only [pushStreamChunk_eq]
  cases refusal : submitRefusal plan workspace pipelineIndex input with
  | some apiStatus =>
    simp only [refusal, Option.some.injEq, Prod.mk.injEq] at pushed ⊢
    obtain ⟨rfl, rfl⟩ := pushed
    exact ⟨⟨fun _ _ => .continue, rfl⟩, .nothing state⟩
  | none =>
    simp only [refusal] at pushed
    obtain ⟨function, frames, plain, delivered, deliveries⟩ := pushLoopWith_plain _ _ _ pushed
    rw [delivered]
    exact ⟨⟨function, plain⟩, deliveries⟩

end

/-- A call reports as many frames as it delivers. -/
theorem pushStreamChunk_counted {plan : PlanBundle} {start : StreamFramingWorkspace}
    {pipelineIndex : Nat} {chunk : ByteView} {sink : FrameSink} {final : PushState}
    (pushed : pushStreamChunk plan start pipelineIndex chunk sink = some final) :
    final.result.framesDelivered = final.delivered.length := by
  obtain ⟨function⟩ := sink
  cases function with
  | none =>
    obtain rfl : PushState.refuse start .invalidArgument = final := Option.some.inj pushed
    rfl
  | some function =>
    rcases pushStreamChunk_cases pushed with ⟨apiStatus, -, rfl⟩ | run
    · rfl
    obtain ⟨last, counted, stops⟩ := pushLoop_preserves
      (fun push => push.result.framesDelivered = push.delivered.length)
      (fun push next counted continues => by
        cases continues with
        | deliver => simp [PushState.deliver, counted]
        | _ => exact counted) _ _ _ rfl run
    cases stops with
    | sinkStop => simp [PushState.deliver, counted]
    | _ => exact counted

/-! ### Splitting at once -/

/-- The frames of a stream that is split at once: the reference splitter's, or the CR LF
records that fit the limit. -/
def batchSplit (framing : FramingPlan) (stream : List UInt8) : List (List UInt8) :=
  match framing.strategy with
  | .asciiCrlf => shortRecords framing.maximumFrameLength (cutCrlf stream).1
  | _ => framesOf (splitStream framing stream)

/-- The workspace has consumed `seen` since its last reset and delivered `frames`. -/
inductive StreamFramingWorkspace.Delivered (workspace : StreamFramingWorkspace)
    (seen : List UInt8) (frames : List (List UInt8)) : Prop
  | binary (events : List FramingEvent) (tracks : workspace.Tracks) (waiting : workspace.Waiting)
      (delivered : frames = framesOf events)
      (advances : Advances (splitStream workspace.framing) seen events workspace.owed) :
      Delivered workspace seen frames
  | crlf (malformed : Nat) (tracks : workspace.TracksCrlf seen frames malformed) :
      Delivered workspace seen frames

theorem StreamFramingWorkspace.Delivered.sound {workspace : StreamFramingWorkspace}
    {seen : List UInt8} {frames : List (List UInt8)} (state : workspace.Delivered seen frames) :
    workspace.Sound := by
  cases state with
  | binary events tracks waiting delivered advances => exact .binary tracks waiting
  | crlf malformed tracks => exact .crlf _ _ _ tracks

/-- A fresh workspace has consumed and delivered nothing. -/
theorem fresh_delivered {plan : PlanBundle} {pipelineIndex : Nat} {framing : FrozenFramingPlan}
    {limits : EffectiveLimits} (valid : framing.StreamValid) :
    (StreamFramingWorkspace.fresh plan pipelineIndex framing limits).Delivered [] [] := by
  by_cases strategy : framing.strategy = .asciiCrlf
  · exact .crlf 0 (fresh_tracksCrlf plan pipelineIndex framing limits strategy
      (valid.asciiCrlf strategy).maximum_ge).1
  · obtain ⟨tracks, waiting, -, owed⟩ :=
      @fresh_tracks plan pipelineIndex framing limits valid strategy
    refine .binary [] tracks waiting rfl fun rest => ?_
    rw [owed]
    unfold StreamFramingWorkspace.fresh StreamFramingWorkspace.resetCandidate
    split <;> rfl

/-- A reset starts over. -/
theorem StreamFramingWorkspace.Sound.reset_delivered {workspace : StreamFramingWorkspace}
    (sound : workspace.Sound) : workspace.resetCandidate.Delivered [] [] := by
  cases sound with
  | binary tracks waiting =>
    refine .binary [] (resetCandidate_tracks tracks) (resetCandidate_waiting tracks.valid) rfl
      fun rest => ?_
    obtain ⟨-, framing, -⟩ := resetCandidate_kept workspace
    rw [framing]
    unfold StreamFramingWorkspace.resetCandidate
    split
    · exact absurd ‹_› tracks.strategy_ne
    all_goals simp [StreamFramingWorkspace.owed, StreamFramingWorkspace.residual]
  | crlf seen frames malformed tracks => exact .crlf 0 (resetCandidate_tracksCrlf tracks)

/-- A call continues what was consumed and delivered. -/
theorem StreamFramingWorkspace.Delivered.push {plan : PlanBundle}
    {workspace : StreamFramingWorkspace} {pipelineIndex : Nat} {chunk : ByteView}
    {sink : FrameSink} {final : PushState} {seen : List UInt8} {frames : List (List UInt8)}
    (state : workspace.Delivered seen frames)
    (pushed : pushStreamChunk plan workspace pipelineIndex chunk sink = some final) :
    final.workspace.Delivered (seen ++ chunk.bytes.take final.result.bytesConsumed)
      (frames ++ final.delivered) := by
  have framing := (pushStreamChunk_binding pushed).framing
  cases state with
  | binary events tracks waiting delivered advances =>
    obtain ⟨call, idle⟩ := pushStreamChunk_tracks tracks waiting pushed
    obtain ⟨later, more, -, onward⟩ := call.reported
    refine .binary (events ++ later) call.tracks idle ?_ ?_
    · rw [framesOf_append, delivered, more]
    · rw [framing, call.consumed]
      exact advances.trans onward
  | crlf malformed tracks =>
    have call := pushStreamChunk_tracksCrlf tracks pushed
    refine .crlf (malformed + final.result.malformedCandidates) ?_
    rw [call.consumed]
    exact call.tracks

/-- What has been delivered is the start of the batch split, and all of it when no internal
work is left. -/
theorem StreamFramingWorkspace.Delivered.batch {workspace : StreamFramingWorkspace}
    {seen : List UInt8} {frames : List (List UInt8)} (state : workspace.Delivered seen frames) :
    frames <+: batchSplit workspace.framing seen ∧
      (workspace.hasInternalWork = false → frames = batchSplit workspace.framing seen) := by
  cases state with
  | binary events tracks waiting delivered advances =>
    have whole : batchSplit workspace.framing seen =
        framesOf (splitStream workspace.framing seen) := by
      unfold batchSplit
      split
      · exact absurd ‹_› tracks.strategy_ne
      · rfl
    rw [whole, advances.emitted_append, framesOf_append, ← delivered]
    refine ⟨List.prefix_append _ _, fun needsInput => ?_⟩
    rw [owed_nil_of_waiting tracks waiting needsInput, framesOf_nil, List.append_nil]
  | crlf malformed tracks =>
    have whole : batchSplit workspace.framing seen =
        shortRecords workspace.framing.maximumFrameLength (cutCrlf seen).1 := by
      simp [batchSplit, tracks.strategy]
    rw [whole]
    have inv := tracks.state
    rcases tracks.state_cases with state | state | state <;>
      simp only [StreamFramingWorkspace.StateTracksCrlf, state] at inv <;>
      simp only [StreamFramingWorkspace.hasInternalWork, state]
    · exact ⟨inv.2.2.1 ▸ List.prefix_rfl, fun _ => inv.2.2.1⟩
    · exact ⟨inv.2.2.2.1 ▸ List.prefix_rfl, fun _ => inv.2.2.2.1⟩
    · exact ⟨inv.2.2.1 ▸ List.prefix_append _ _, by simp⟩

end ProtocolAdapter.Framing
