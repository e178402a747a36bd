/-
This file assembles the rounds of one submission. Every round keeps the invariant of
the simulation and reports the events that are no longer owed, so a whole call does;
and when a call ends, a workspace without internal work owes nothing for the bytes it
has consumed. The bytes themselves are accounted for along the way: each is in a
delivered frame, was discarded, or is still held.
-/

import ProtocolAdapter.Framing.Simulation

namespace ProtocolAdapter.Framing

open Foundation

/-! ### Continuing rounds -/

/-- A complete candidate only has to be announced. -/
theorem collectDone_tracks {workspace : StreamFramingWorkspace} (tracks : workspace.Tracks)
    (state : workspace.state = .collectFixed ∨ workspace.state = .collectDeclared)
    (complete : workspace.bufferedSize = workspace.targetSize) :
    { workspace with state := .deliverPending : StreamFramingWorkspace }.Tracks ∧
      { workspace with state := .deliverPending : StreamFramingWorkspace }.residual =
        workspace.residual := by
  have candidate : Candidate workspace.framing
      (workspace.buffer.take workspace.bufferedSize) workspace.targetSize := by
    have inv := tracks.state
    rcases state with state | state <;>
      simpa only [StreamFramingWorkspace.StateTracks, state] using inv
  refine ⟨⟨tracks.valid, tracks.strategy_ne, tracks.capacity, tracks.inside, ?_⟩, ?_⟩
  · unfold StreamFramingWorkspace.StateTracks
    simp only
    rw [complete] at candidate ⊢
    exact candidate
  · rcases state with state | state <;> simp only [StreamFramingWorkspace.residual, state]

/-- A profile of the simulation is never collected as CR LF records. -/
theorem StreamFramingWorkspace.Tracks.not_ascii {workspace : StreamFramingWorkspace}
    (tracks : workspace.Tracks) :
    workspace.state ≠ .collectAscii ∧ workspace.state ≠ .discardUntilCrlf := by
  have inv := tracks.state
  unfold StreamFramingWorkspace.StateTracks at inv
  constructor <;> intro state <;> simp only [state] at inv

theorem tracks_of_effect {input : List UInt8} {push next : PushState} {consumed : List UInt8}
    {events : List FramingEvent}
    (round : next.workspace.Tracks ∧ RoundEffect input push next consumed events) :
    next.workspace.Tracks ∧ ∃ consumed events, RoundEffect input push next consumed events :=
  ⟨round.1, consumed, events, round.2⟩

theorem tracks_of_advances {input : List UInt8} {push next : PushState} {consumed : List UInt8}
    {events : List FramingEvent}
    (round : next.workspace.Tracks ∧
      Advances push.workspace.owed consumed events next.workspace.owed)
    (consumes : Consumes input push next consumed)
    (delivered : next.delivered = push.delivered ++ framesOf events)
    (malformed : next.result.malformedCandidates =
      push.result.malformedCandidates + malformedOf events) :
    next.workspace.Tracks ∧ ∃ consumed events, RoundEffect input push next consumed events :=
  ⟨round.1, consumed, events, consumes, delivered, malformed, round.2⟩

/-- Every continuing round keeps the invariant and reports what is no longer owed. -/
theorem continues_tracks {input : List UInt8} {sink : FrameSinkFunction} {push next : PushState}
    (tracks : push.workspace.Tracks) (continues : Continues input sink push next) :
    next.workspace.Tracks ∧
      ∃ consumed events, RoundEffect input push next consumed events := by
  have quiet : push.delivered = push.delivered ++ framesOf [] := (List.append_nil _).symm
  cases continues with
  | deliver state quota => exact tracks_of_effect (deliver_tracks tracks state)
  | asciiTerminated byte state => exact absurd state tracks.not_ascii.1
  | asciiTooLong byte state => exact absurd state tracks.not_ascii.1
  | asciiMore byte state => exact absurd state tracks.not_ascii.1
  | discardTerminated byte state => exact absurd state tracks.not_ascii.2
  | discardMore byte state => exact absurd state tracks.not_ascii.2
  | copyByte byte state next affordable room =>
    exact tracks_of_effect (copyByte_tracks tracks state next room)
  | copyFixed state done strategy =>
    exact tracks_of_effect (copyFixed_tracks tracks state done strategy)
  | copyLength state done strategy =>
    exact tracks_of_effect (copyLength_tracks tracks state done strategy)
  | rescanFound byte matched state inside read advanced affordable found =>
    exact tracks_of_effect (rescanFound_tracks tracks state inside read advanced found)
  | rescanMore byte matched state inside read advanced affordable missing =>
    exact tracks_of_effect (rescanMore_tracks tracks state inside read advanced missing)
  | rescanEnd state scanned =>
    exact tracks_of_advances (rescanEnd_tracks tracks state scanned rfl) (.nothing rfl rfl)
      quiet rfl
  | compact chunk state affordable whole =>
    have inv := tracks.state
    simp only [StreamFramingWorkspace.StateTracks, state] at inv
    obtain ⟨-, -, moved, -⟩ := inv
    have part : push.workspace.compactMoved + chunk ≤ push.workspace.compactSize := by omega
    obtain ⟨kept, first⟩ := compactPartial_tracks tracks state part
    refine tracks_of_advances (And.imp_right first.trans ?_) (.nothing rfl rfl) quiet rfl
    exact compactFinish_tracks kept state (Nat.le_antisymm part (by simp only; omega)) rfl
  | headerByte byte state header read affordable room =>
    exact tracks_of_effect (headerByte_tracks tracks state header read room)
  | lengthMalformed declared state header affordable read outside =>
    exact tracks_of_advances (lengthMalformed_tracks tracks state header read outside rfl)
      (.nothing rfl rfl) quiet rfl
  | lengthAdmitted declared state header affordable read inside =>
    exact tracks_of_advances (lengthAdmitted_tracks tracks state header read inside)
      (.nothing rfl rfl) quiet rfl
  | collectDone state complete =>
    exact tracks_of_effect ((collectDone_tracks tracks state complete).imp_right
      (silent_effect 0 rfl))
  | collectByte byte state incomplete read affordable room =>
    exact tracks_of_effect (collectByte_tracks tracks state incomplete read room)
  | searchFound byte matched state read advanced affordable found =>
    exact tracks_of_advances (searchFound_tracks tracks state advanced found)
      (.byte byte read rfl rfl) quiet rfl
  | searchMore byte matched state read advanced affordable missing =>
    exact tracks_of_advances (search_tracks tracks state advanced missing rfl)
      (.byte byte read rfl rfl) quiet rfl

/-! ### Byte accounting -/

/-- The consumed bytes a workspace holds back: the matched prefix while it searches, the
whole pattern while it copies it, the buffered candidate otherwise. -/
def StreamFramingWorkspace.retainedBytes (workspace : StreamFramingWorkspace) : Nat :=
  match workspace.state with
  | .searchSync => workspace.syncMatch
  | .copySync => workspace.framing.syncBytes.length
  | .discardUntilCrlf => 0
  | _ => workspace.bufferedSize

/-- The bytes a submission accounts for: delivered, discarded and held. -/
def PushState.accounted (push : PushState) : Nat :=
  (push.delivered.map List.length).sum + push.result.bytesDiscarded + push.workspace.retainedBytes

@[simp] theorem resetCandidate_retainedBytes (workspace : StreamFramingWorkspace) :
    workspace.resetCandidate.retainedBytes = 0 := by
  unfold StreamFramingWorkspace.resetCandidate
  split <;> rfl

/-- Delivery turns the held candidate into delivered bytes. -/
theorem deliver_accounted {sink : FrameSinkFunction} {push : PushState}
    (inside : push.workspace.bufferedSize ≤ push.workspace.buffer.length)
    (state : push.workspace.state = .deliverPending) :
    (push.deliver sink).2.accounted = push.accounted := by
  have held : push.workspace.retainedBytes = push.workspace.bufferedSize := by
    simp only [StreamFramingWorkspace.retainedBytes, state]
  simp only [PushState.accounted, PushState.deliver, resetCandidate_retainedBytes, held,
    List.map_append, List.sum_append, List.map_cons, List.map_nil, List.sum_cons, List.sum_nil,
    List.length_take, Nat.min_eq_left inside]
  omega

/-- Every consumed byte is delivered, discarded or held. -/
theorem continues_accounted {input : List UInt8} {sink : FrameSinkFunction}
    {push next : PushState} (tracks : push.workspace.Tracks)
    (continues : Continues input sink push next) :
    next.accounted + push.result.bytesConsumed = push.accounted + next.result.bytesConsumed := by
  have inv := tracks.state
  cases continues with
  | deliver state quota =>
    rw [deliver_accounted tracks.inside state]
    rfl
  | asciiTerminated byte state => exact absurd state tracks.not_ascii.1
  | asciiTooLong byte state => exact absurd state tracks.not_ascii.1
  | asciiMore byte state => exact absurd state tracks.not_ascii.1
  | discardTerminated byte state => exact absurd state tracks.not_ascii.2
  | discardMore byte state => exact absurd state tracks.not_ascii.2
  | copyByte byte state next affordable room =>
    simp only [PushState.accounted, PushState.withWorkspace, PushState.spend,
      StreamFramingWorkspace.appendByte, StreamFramingWorkspace.retainedBytes, state]
  | copyFixed state done strategy =>
    simp only [StreamFramingWorkspace.StateTracks, state] at inv
    obtain ⟨-, bound, size, -⟩ := inv
    have whole : push.workspace.bufferedSize = push.workspace.framing.syncBytes.length :=
      size.trans (Nat.le_antisymm bound (List.getElem?_eq_none_iff.mp done))
    by_cases complete : push.workspace.bufferedSize = push.workspace.framing.frameLengthBytes <;>
      simp only [PushState.accounted, PushState.withWorkspace,
        StreamFramingWorkspace.retainedBytes, state, complete, if_true, if_false] <;> omega
  | copyLength state done strategy =>
    simp only [StreamFramingWorkspace.StateTracks, state] at inv
    obtain ⟨-, bound, size, -⟩ := inv
    have whole : push.workspace.bufferedSize = push.workspace.framing.syncBytes.length :=
      size.trans (Nat.le_antisymm bound (List.getElem?_eq_none_iff.mp done))
    simp only [PushState.accounted, PushState.withWorkspace,
      StreamFramingWorkspace.retainedBytes, state, whole]
  | rescanFound byte matched state inside read advanced affordable found =>
    simp only [PushState.accounted, PushState.withWorkspace, PushState.spend,
      StreamFramingWorkspace.retainedBytes, state]
  | rescanMore byte matched state inside read advanced affordable missing =>
    simp only [PushState.accounted, PushState.withWorkspace, PushState.spend,
      StreamFramingWorkspace.retainedBytes, state]
  | rescanEnd state scanned =>
    simp only [StreamFramingWorkspace.StateTracks, state] at inv
    obtain ⟨-, first, inside, -, insideSync, suffix⟩ := inv
    have short := suffix.length_le
    rw [List.length_take, List.length_drop, List.length_take] at short
    simp only [PushState.accounted, PushState.withWorkspace, PushState.recordDiscard,
      StreamFramingWorkspace.retainedBytes, state]
    omega
  | compact chunk state affordable whole =>
    simp only [StreamFramingWorkspace.StateTracks, state] at inv
    obtain ⟨-, -, -, total, -⟩ := inv
    simp only [PushState.accounted, PushState.withWorkspace, PushState.recordDiscard,
      PushState.spend, StreamFramingWorkspace.retainedBytes, state]
    omega
  | headerByte byte state header read affordable room =>
    simp only [PushState.accounted, PushState.withWorkspace, PushState.consume, PushState.spend,
      StreamFramingWorkspace.appendByte, StreamFramingWorkspace.retainedBytes, state]
    omega
  | lengthMalformed declared state header affordable read outside =>
    simp only [PushState.accounted, PushState.withWorkspace, PushState.recordMalformed,
      PushState.spend, StreamFramingWorkspace.retainedBytes, state]
  | lengthAdmitted declared state header affordable read inside =>
    by_cases complete : push.workspace.bufferedSize = declared <;>
      simp only [PushState.accounted, PushState.withWorkspace, PushState.spend,
        StreamFramingWorkspace.retainedBytes, state, complete, if_true, if_false]
  | collectDone state complete =>
    rcases state with state | state <;>
      simp only [PushState.accounted, PushState.withWorkspace,
        StreamFramingWorkspace.retainedBytes, state]
  | collectByte byte state incomplete read affordable room =>
    rcases state with state | state <;>
      simp only [PushState.accounted, PushState.withWorkspace, PushState.consume,
        PushState.spend, StreamFramingWorkspace.appendByte,
        StreamFramingWorkspace.retainedBytes, state] <;> omega
  | searchFound byte matched state read advanced affordable found =>
    simp only [StreamFramingWorkspace.StateTracks, state] at inv
    obtain ⟨-, inside⟩ := inv
    obtain ⟨nextLe, -⟩ := PrefixTable.advance_suffix byte inside
      (tracks.valid.table.correct.mono (Nat.le_of_lt inside))
    simp only [PushState.accounted, PushState.withWorkspace, PushState.consume,
      PushState.spend, StreamFramingWorkspace.retainedBytes, state]
    omega
  | searchMore byte matched state read advanced affordable missing =>
    simp only [StreamFramingWorkspace.StateTracks, state] at inv
    obtain ⟨-, inside⟩ := inv
    obtain ⟨nextLe, -⟩ := PrefixTable.advance_suffix byte inside
      (tracks.valid.table.correct.mono (Nat.le_of_lt inside))
    simp only [PushState.accounted, PushState.withWorkspace, PushState.consume,
      PushState.recordDiscard, PushState.spend, StreamFramingWorkspace.retainedBytes, state]
    omega

/-! ### One call -/

/-- What holds between two rounds of a call that started with the given workspace. -/
structure CallTracks (input : List UInt8) (start : StreamFramingWorkspace) (push : PushState) :
    Prop where
  tracks : push.workspace.Tracks
  bounded : push.inputIndex ≤ input.length
  consumed : push.result.bytesConsumed = push.inputIndex
  accounted : push.accounted = start.retainedBytes + push.inputIndex
  reported : ∃ events, push.delivered = framesOf events ∧
    push.result.malformedCandidates = malformedOf events ∧
    Advances start.owed (input.take push.inputIndex) events push.workspace.owed

theorem callTracks_start {input : List UInt8} {start : StreamFramingWorkspace}
    (tracks : start.Tracks) : CallTracks input start { workspace := start } where
  tracks := tracks
  bounded := Nat.zero_le _
  consumed := rfl
  accounted := by simp [PushState.accounted]
  reported := ⟨[], rfl, rfl, .refl _⟩

theorem callTracks_next {input : List UInt8} {sink : FrameSinkFunction}
    {start : StreamFramingWorkspace} {push next : PushState}
    (call : CallTracks input start push) (continues : Continues input sink push next) :
    CallTracks input start next := by
  obtain ⟨tracks, bytes, events, effect⟩ := continues_tracks call.tracks continues
  have balance := continues_accounted call.tracks continues
  have held := call.accounted
  have counted := call.consumed
  obtain ⟨earlier, delivered, malformed, advances⟩ := call.reported
  have reported : next.delivered = framesOf (earlier ++ events) ∧
      next.result.malformedCandidates = malformedOf (earlier ++ events) := by
    rw [framesOf_append, malformedOf_append, effect.delivered, delivered, effect.malformed,
      malformed]
    exact ⟨rfl, rfl⟩
  have whole := advances.trans effect.advances
  cases effect.consumes with
  | nothing index count =>
    rw [List.append_nil] at whole
    exact ⟨tracks, by rw [index]; exact call.bounded, by omega, by omega, earlier ++ events,
      reported.1, reported.2, by rw [index]; exact whole⟩
  | byte value read index count =>
    have inside := (List.getElem?_eq_some_iff.mp read).1
    refine ⟨tracks, by omega, by omega, by omega, earlier ++ events, reported.1, reported.2, ?_⟩
    rwa [index, List.take_add_one, read, Option.toList_some]

/-- A reset candidate has room for its frame. -/
theorem resetCandidate_waiting {workspace : StreamFramingWorkspace}
    (valid : workspace.framing.StreamValid) : workspace.resetCandidate.Waiting := by
  unfold StreamFramingWorkspace.Waiting StreamFramingWorkspace.resetCandidate
  split
  · simp
  · rename_i strategy
    have := (valid.fixedLength strategy).length_pos
    simp only
    omega
  · simp

/-- A call ends with the invariant, and with no complete candidate unannounced. -/
theorem callTracks_stop {input : List UInt8} {sink : FrameSinkFunction}
    {start : StreamFramingWorkspace} {push final : PushState}
    (call : CallTracks input start push) (stops : Stops input sink push final) :
    CallTracks input start final ∧ final.workspace.Waiting := by
  cases stops with
  | quota state reached =>
    exact ⟨⟨call.tracks, call.bounded, call.consumed, call.accounted, call.reported⟩,
      waiting_of_state (by simp [state]) (by simp [state])⟩
  | sinkStop state quota =>
    have continues : Continues input sink push _ := .deliver state quota
    have next := callTracks_next call continues
    exact ⟨⟨next.tracks, next.bounded, next.consumed, next.accounted, next.reported⟩,
      resetCandidate_waiting call.tracks.valid⟩
  | inputEnd reason ended waiting needsInput =>
    exact ⟨⟨call.tracks, call.bounded, call.consumed, call.accounted, call.reported⟩, waiting⟩
  | budget amount waiting undelivered costs short =>
    exact ⟨⟨call.tracks, call.bounded, call.consumed, call.accounted, call.reported⟩, waiting⟩
  | compactPartial chunk state positive affordable part =>
    have inside : push.workspace.compactMoved + chunk ≤ push.workspace.compactSize := by omega
    obtain ⟨tracks, advances⟩ := compactPartial_tracks call.tracks state inside
    obtain ⟨events, delivered, malformed, earlier⟩ := call.reported
    have whole := earlier.trans advances
    rw [List.append_nil, List.append_nil] at whole
    refine ⟨⟨tracks, call.bounded, call.consumed, ?_, events, delivered, malformed, whole⟩,
      waiting_of_state (by simp [PushState.withWorkspace, state])
        (by simp [PushState.withWorkspace, state])⟩
    refine Eq.trans ?_ call.accounted
    simp only [PushState.accounted, PushState.withWorkspace, PushState.spend,
      StreamFramingWorkspace.retainedBytes, state]
  | internalError spent waiting full appends =>
    exact ⟨⟨call.tracks, call.bounded, call.consumed, call.accounted, call.reported⟩, waiting⟩

/-- A workspace that needs input owes nothing for the bytes it holds. -/
theorem owed_nil_of_waiting {workspace : StreamFramingWorkspace} (tracks : workspace.Tracks)
    (waiting : workspace.Waiting) (needsInput : workspace.hasInternalWork = false) :
    workspace.owed [] = [] := by
  have inv := tracks.state
  have length : (workspace.buffer.take workspace.bufferedSize).length = workspace.bufferedSize := by
    rw [List.length_take, Nat.min_eq_left tracks.inside]
  have unfinished : ∀ target,
      Candidate workspace.framing (workspace.buffer.take workspace.bufferedSize) target →
      workspace.bufferedSize ≠ target →
      splitStep workspace.framing (workspace.buffer.take workspace.bufferedSize) = none := by
    intro target candidate incomplete
    have fits := candidate.fits
    have step := candidate.incomplete [] (by rw [List.length_nil]; omega)
    rwa [List.append_nil] at step
  unfold StreamFramingWorkspace.owed
  rw [List.append_nil]
  refine splitStream_of_none ?_
  unfold StreamFramingWorkspace.hasInternalWork at needsInput
  unfold StreamFramingWorkspace.StateTracks at inv
  unfold StreamFramingWorkspace.residual
  cases state : workspace.state <;> simp only [state] at inv needsInput ⊢
  case collectFixed => exact unfinished _ inv (waiting (Or.inl state))
  case collectDeclared => exact unfinished _ inv (waiting (Or.inr state))
  case searchSync => exact splitStep_of_partial_sync inv.2
  case readLength =>
    have short : workspace.bufferedSize <
        workspace.framing.lengthFieldOffset + workspace.framing.lengthFieldWidth := by
      simpa using needsInput
    exact splitStep_of_partial_header inv.1 inv.2.1 (by rw [length]; exact short)
  all_goals cases needsInput

/-- A submission, whatever its outcome, keeps the invariant and reports exactly the
events that are no longer owed for the bytes it consumed. -/
theorem pushStreamChunk_tracks {plan : PlanBundle} {start : StreamFramingWorkspace}
    {pipelineIndex : Nat} {chunk : ByteView} {sink : FrameSink} {final : PushState}
    (tracks : start.Tracks) (waiting : start.Waiting)
    (pushed : pushStreamChunk plan start pipelineIndex chunk sink = some final) :
    CallTracks chunk.bytes start final ∧ final.workspace.Waiting := by
  have refused : ∀ apiStatus, CallTracks chunk.bytes start (.refuse start apiStatus) := fun _ =>
    have begin := callTracks_start tracks
    ⟨begin.tracks, begin.bounded, begin.consumed, begin.accounted, begin.reported⟩
  obtain ⟨function⟩ := sink
  cases function with
  | none =>
    obtain rfl : PushState.refuse start .invalidArgument = final := Option.some.inj pushed
    exact ⟨refused _, waiting⟩
  | some function =>
    rcases pushStreamChunk_cases pushed with ⟨apiStatus, -, rfl⟩ | run
    · exact ⟨refused _, waiting⟩
    · obtain ⟨last, call, stops⟩ := pushLoop_preserves (CallTracks chunk.bytes start)
        (fun push next call continues => callTracks_next call continues) _ _ _
        (callTracks_start tracks) run
      exact callTracks_stop call stops

end ProtocolAdapter.Framing
