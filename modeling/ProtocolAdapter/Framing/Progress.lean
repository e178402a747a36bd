/-
This file proves that the framer makes progress. Bytes leave the framer by delivery or
discard and enter it by consumption; between the two a rank of the state counts the
internal steps that are left. Their weighted sum drops in every round, so a call that
neither consumes a byte nor delivers a frame has advanced the internal work, and a host
that keeps submitting what is left is done after finitely many calls.
-/

import ProtocolAdapter.Framing.Accounting

namespace ProtocolAdapter.Framing

open Foundation

/-! ### The work that is left -/

/-- The internal steps a state is away from consuming, delivering or discarding. -/
def StreamFramingWorkspace.rank (workspace : StreamFramingWorkspace) : Nat :=
  match workspace.state with
  | .searchSync | .collectAscii | .discardUntilCrlf => 0
  | .deliverPending => 1
  | .collectFixed | .collectDeclared => 2
  | .compactInvalid => 1 + (workspace.compactSize - workspace.compactMoved)
  | .rescanInvalid =>
    workspace.buffer.length + 2 + (workspace.bufferedSize - workspace.rescanIndex)
  | .readLength => 2 * workspace.buffer.length + 3
  | .copySync =>
    2 * workspace.buffer.length + 4 +
      (workspace.framing.syncBytes.length - workspace.copySyncIndex)

/-- More than any rank of the workspace. -/
def StreamFramingWorkspace.span (workspace : StreamFramingWorkspace) : Nat :=
  2 * workspace.buffer.length + workspace.framing.syncBytes.length + 5

/-- The work left when `remaining` bytes of the stream are not consumed yet. A byte that
is consumed is held, so it counts twice before. -/
def StreamFramingWorkspace.workLeft (workspace : StreamFramingWorkspace) (remaining : Nat) : Nat :=
  workspace.span * (workspace.retainedBytes + 2 * remaining) + workspace.rank

/-- The internal work of a workspace: what is left to do without new input. -/
def StreamFramingWorkspace.internalWork (workspace : StreamFramingWorkspace) : Nat :=
  workspace.workLeft 0

section

variable {before after : StreamFramingWorkspace} {remaining : Nat}

/-- Consuming a byte that is held afterwards leaves less work. -/
theorem workLeft_consumed (span : after.span = before.span)
    (retained : after.retainedBytes ≤ before.retainedBytes + 1) (rank : after.rank < after.span) :
    after.workLeft remaining < before.workLeft (remaining + 1) := by
  have step : after.retainedBytes + 2 * remaining + 1 ≤
      before.retainedBytes + 2 * (remaining + 1) := by omega
  have scaled := Nat.mul_le_mul_left before.span step
  rw [Nat.mul_add, Nat.mul_one] at scaled
  unfold StreamFramingWorkspace.workLeft
  rw [span] at rank ⊢
  omega

/-- Giving bytes away leaves less work. -/
theorem workLeft_released (span : after.span = before.span)
    (retained : after.retainedBytes < before.retainedBytes) (rank : after.rank < after.span) :
    after.workLeft remaining < before.workLeft remaining := by
  have step : after.retainedBytes + 2 * remaining + 1 ≤ before.retainedBytes + 2 * remaining := by
    omega
  have scaled := Nat.mul_le_mul_left before.span step
  rw [Nat.mul_add, Nat.mul_one] at scaled
  unfold StreamFramingWorkspace.workLeft
  rw [span] at rank ⊢
  omega

/-- An internal step leaves less work. -/
theorem workLeft_internal (span : after.span = before.span)
    (retained : after.retainedBytes ≤ before.retainedBytes) (rank : after.rank < before.rank) :
    after.workLeft remaining < before.workLeft remaining := by
  have scaled := Nat.mul_le_mul_left before.span (Nat.add_le_add_right retained (2 * remaining))
  unfold StreamFramingWorkspace.workLeft
  rw [span]
  omega

end

@[simp] theorem appendByte_span (workspace : StreamFramingWorkspace) (byte : UInt8) :
    (workspace.appendByte byte).span = workspace.span := by
  simp [StreamFramingWorkspace.span, StreamFramingWorkspace.appendByte]

/-- A reset workspace is at most two steps away from waiting for input. -/
theorem resetCandidate_rank (workspace : StreamFramingWorkspace) :
    workspace.resetCandidate.rank ≤ 2 ∧
      (workspace.framing.strategy = .asciiCrlf → workspace.resetCandidate.rank = 0) ∧
      workspace.resetCandidate.span = workspace.span := by
  obtain ⟨-, framing, -, buffer, -⟩ := resetCandidate_kept workspace
  refine ⟨?_, ?_, ?_⟩
  · unfold StreamFramingWorkspace.resetCandidate
    split <;> simp [StreamFramingWorkspace.rank]
  · intro strategy
    unfold StreamFramingWorkspace.resetCandidate
    simp [strategy, StreamFramingWorkspace.rank]
  · unfold StreamFramingWorkspace.span
    rw [framing, buffer]

/-! ### Every round leaves less work -/

/-- A frame of the simulation is never empty. -/
theorem Candidate.target_pos {framing : FramingPlan} {bytes : List UInt8} {target : Nat}
    (candidate : Candidate framing bytes target) (nonempty : FramesNonempty framing) :
    0 < target := by
  rcases Nat.eq_zero_or_pos target with rfl | positive
  · have empty : bytes = [] := List.length_eq_zero_iff.mp (Nat.le_zero.mp candidate.fits)
    have step := candidate.complete [] [] (by rw [empty]; rfl)
    have shorter := splitStep_shortens nonempty step
    simp [empty] at shorter
  · exact positive

/-- A frame the reference splitter cuts fits the candidate buffer. -/
theorem splitStep_frame_le {framing : FramingPlan} {stream frame rest : List UInt8}
    (strategy : framing.strategy ≠ .asciiCrlf)
    (split : splitStep framing stream = some (.frame frame, rest)) :
    frame.length ≤ frameCapacity framing := by
  have cut : ∀ {candidate : List UInt8} {length : Nat},
      cutFrame candidate length = some (.frame frame, rest) → frame.length ≤ length := by
    intro candidate length cut
    unfold cutFrame at cut
    split at cut
    · cases cut
    · simp only [Option.some.injEq, Prod.mk.injEq, FramingEvent.frame.injEq] at cut
      rw [← cut.1, List.length_take]
      exact Nat.min_le_left _ _
  unfold splitStep at split
  split at split
  · cases split
  · unfold splitCandidate at split
    unfold frameCapacity
    cases same : framing.strategy <;> simp only [same] at split ⊢
    case syncLengthField =>
      split at split
      · cases split
      · split at split
        · cases split
        · have := cut split
          omega
    case asciiCrlf => exact absurd same strategy
    all_goals exact cut split

/-- A frame of the simulation fits the candidate buffer. -/
theorem Candidate.target_le {framing : FramingPlan} {bytes : List UInt8} {target : Nat}
    (candidate : Candidate framing bytes target) (strategy : framing.strategy ≠ .asciiCrlf) :
    target ≤ frameCapacity framing := by
  have fits := candidate.fits
  have length : bytes.length + (List.replicate (target - bytes.length) (0 : UInt8)).length =
      target := by
    rw [List.length_replicate]
    omega
  have whole := splitStep_frame_le strategy (candidate.complete _ [] length)
  rwa [List.length_append, length] at whole

/-- The work a call has left: the held bytes and the input it has not consumed. -/
def PushState.workLeft (push : PushState) (input : List UInt8) : Nat :=
  push.workspace.workLeft (input.length - push.inputIndex)

/-- A round that consumes the next byte leaves less work. -/
theorem workLeft_of_byte {input : List UInt8} {push next : PushState} {byte : UInt8}
    (read : input[push.inputIndex]? = some byte) (index : next.inputIndex = push.inputIndex + 1)
    (span : next.workspace.span = push.workspace.span)
    (retained : next.workspace.retainedBytes ≤ push.workspace.retainedBytes + 1)
    (rank : next.workspace.rank < next.workspace.span) :
    next.workLeft input < push.workLeft input := by
  have inside := (List.getElem?_eq_some_iff.mp read).1
  unfold PushState.workLeft
  rw [index, show input.length - push.inputIndex = input.length - (push.inputIndex + 1) + 1 by
    omega]
  exact workLeft_consumed span retained rank

/-- Delivery of a binary frame leaves less work. -/
theorem deliver_workLeft {sink : FrameSinkFunction} {push : PushState} (input : List UInt8)
    (tracks : push.workspace.Tracks) (state : push.workspace.state = .deliverPending) :
    (push.deliver sink).2.workLeft input < push.workLeft input := by
  have inv := tracks.state
  simp only [StreamFramingWorkspace.StateTracks, state] at inv
  have positive := inv.target_pos tracks.nonempty
  obtain ⟨rank, -, span⟩ := resetCandidate_rank push.workspace
  refine workLeft_released span ?_ ?_
  · change push.workspace.resetCandidate.retainedBytes < _
    rw [resetCandidate_retainedBytes]
    simpa only [StreamFramingWorkspace.retainedBytes, state]
  · change push.workspace.resetCandidate.rank < push.workspace.resetCandidate.span
    rw [span]
    unfold StreamFramingWorkspace.span
    omega

/-- Every continuing round of a binary profile leaves less work. -/
theorem continues_workLeft {input : List UInt8} {sink : FrameSinkFunction}
    {push next : PushState} (tracks : push.workspace.Tracks)
    (continues : Continues input sink push next) : next.workLeft input < push.workLeft input := by
  have inv := tracks.state
  have inside := tracks.inside
  cases continues with
  | deliver state quota => exact deliver_workLeft input tracks state
  | asciiTerminated byte state => exact absurd state tracks.not_ascii.1
  | asciiTooLong byte state => exact absurd state tracks.not_ascii.1
  | asciiMore byte state => exact absurd state tracks.not_ascii.1
  | discardTerminated byte state => exact absurd state tracks.not_ascii.2
  | discardMore byte state => exact absurd state tracks.not_ascii.2
  | copyByte byte state next affordable room =>
    have more := (List.getElem?_eq_some_iff.mp next).1
    refine workLeft_internal (appendByte_span _ _) (Nat.le_of_eq ?_) ?_
    · simp only [PushState.withWorkspace, StreamFramingWorkspace.appendByte,
        StreamFramingWorkspace.retainedBytes, state]
    · simp only [PushState.withWorkspace, StreamFramingWorkspace.appendByte, List.length_set,
        StreamFramingWorkspace.rank, state]
      omega
  | copyFixed state done strategy =>
    simp only [StreamFramingWorkspace.StateTracks, state] at inv
    obtain ⟨-, bound, size, -⟩ := inv
    refine workLeft_internal rfl ?_ ?_
    · by_cases complete : push.workspace.bufferedSize = push.workspace.framing.frameLengthBytes <;>
        simp only [PushState.withWorkspace, StreamFramingWorkspace.retainedBytes, state, complete,
          if_true, if_false] <;> omega
    · by_cases complete : push.workspace.bufferedSize = push.workspace.framing.frameLengthBytes <;>
        simp only [PushState.withWorkspace, StreamFramingWorkspace.rank, state, complete,
          if_true, if_false] <;> omega
  | copyLength state done strategy =>
    simp only [StreamFramingWorkspace.StateTracks, state] at inv
    obtain ⟨-, bound, size, -⟩ := inv
    refine workLeft_internal rfl ?_ ?_
    · simp only [PushState.withWorkspace, StreamFramingWorkspace.retainedBytes, state]
      omega
    · simp only [PushState.withWorkspace, StreamFramingWorkspace.rank, state]
      omega
  | rescanFound byte matched state more read advanced affordable found =>
    refine workLeft_internal rfl (Nat.le_of_eq ?_) ?_
    · simp only [PushState.withWorkspace, StreamFramingWorkspace.retainedBytes, state]
    · simp only [PushState.withWorkspace, StreamFramingWorkspace.rank, state]
      omega
  | rescanMore byte matched state more read advanced affordable missing =>
    refine workLeft_internal rfl (Nat.le_of_eq ?_) ?_
    · simp only [PushState.withWorkspace, StreamFramingWorkspace.retainedBytes, state]
    · simp only [PushState.withWorkspace, StreamFramingWorkspace.rank, state]
      omega
  | rescanEnd state scanned =>
    simp only [StreamFramingWorkspace.StateTracks, state] at inv
    obtain ⟨-, first, rescanned, -, -, suffix⟩ := inv
    have short := suffix.length_le
    rw [List.length_take, List.length_drop, List.length_take] at short
    have insideSync : push.workspace.rescanMatch < push.workspace.framing.syncBytes.length := by
      have inv := tracks.state
      simp only [StreamFramingWorkspace.StateTracks, state] at inv
      exact inv.2.2.2.2.1
    refine workLeft_released rfl ?_ ?_
    · simp only [PushState.withWorkspace, PushState.recordDiscard,
        StreamFramingWorkspace.retainedBytes, state]
      omega
    · simp only [PushState.withWorkspace, PushState.recordDiscard, StreamFramingWorkspace.rank,
        StreamFramingWorkspace.span]
      omega
  | compact chunk state affordable whole =>
    simp only [StreamFramingWorkspace.StateTracks, state] at inv
    obtain ⟨-, first, moved, total, -, -⟩ := inv
    obtain ⟨length, -, -⟩ := moveBytes_spec push.workspace.buffer push.workspace.compactMoved
      push.workspace.compactStart chunk first (by omega)
    refine workLeft_released ?_ ?_ ?_
    · simp only [PushState.withWorkspace, PushState.recordDiscard, StreamFramingWorkspace.span,
        PushState.spend, length]
    · simp only [PushState.withWorkspace, PushState.recordDiscard,
        StreamFramingWorkspace.retainedBytes, state]
      omega
    · simp only [PushState.withWorkspace, PushState.recordDiscard, StreamFramingWorkspace.rank,
        StreamFramingWorkspace.span]
      omega
  | headerByte byte state header read affordable room =>
    refine workLeft_of_byte read rfl (appendByte_span _ _) ?_ ?_
    · simp only [PushState.withWorkspace, StreamFramingWorkspace.appendByte,
        StreamFramingWorkspace.retainedBytes, state, Nat.le_refl]
    · simp only [PushState.withWorkspace, StreamFramingWorkspace.appendByte,
        StreamFramingWorkspace.rank, StreamFramingWorkspace.span, state]
      omega
  | lengthMalformed declared state header affordable read outside =>
    refine workLeft_internal rfl (Nat.le_of_eq ?_) ?_
    · simp only [PushState.withWorkspace, PushState.recordMalformed, PushState.spend,
        StreamFramingWorkspace.retainedBytes, state]
    · simp only [PushState.withWorkspace, PushState.recordMalformed, PushState.spend,
        StreamFramingWorkspace.rank, state]
      omega
  | lengthAdmitted declared state header affordable read bounds =>
    refine workLeft_internal rfl (Nat.le_of_eq ?_) ?_
    · by_cases complete : push.workspace.bufferedSize = declared <;>
        simp only [PushState.withWorkspace, StreamFramingWorkspace.retainedBytes, state, complete,
          if_true, if_false]
    · by_cases complete : push.workspace.bufferedSize = declared <;>
        simp only [PushState.withWorkspace, StreamFramingWorkspace.rank, state, complete,
          if_true, if_false] <;> omega
  | collectDone state complete =>
    rcases state with state | state
    all_goals
      refine workLeft_internal rfl (Nat.le_of_eq ?_) ?_
      · simp only [PushState.withWorkspace, StreamFramingWorkspace.retainedBytes, state]
      · simp only [PushState.withWorkspace, StreamFramingWorkspace.rank, state]
        omega
  | collectByte byte state incomplete read affordable room =>
    rcases state with state | state
    all_goals
      refine workLeft_of_byte read rfl (appendByte_span _ _) ?_ ?_
      · simp only [PushState.withWorkspace, StreamFramingWorkspace.appendByte,
          StreamFramingWorkspace.retainedBytes, state, Nat.le_refl]
      · simp only [PushState.withWorkspace, StreamFramingWorkspace.appendByte,
          StreamFramingWorkspace.rank, StreamFramingWorkspace.span, state]
        omega
  | searchFound byte matched state read advanced affordable found =>
    simp only [StreamFramingWorkspace.StateTracks, state] at inv
    obtain ⟨-, matching⟩ := inv
    obtain ⟨nextLe, -⟩ := PrefixTable.advance_suffix byte matching
      (tracks.valid.table.correct.mono (Nat.le_of_lt matching))
    refine workLeft_of_byte read rfl rfl ?_ ?_
    · simp only [PushState.withWorkspace, StreamFramingWorkspace.retainedBytes, state]
      omega
    · simp only [PushState.withWorkspace, StreamFramingWorkspace.rank,
        StreamFramingWorkspace.span]
      omega
  | searchMore byte matched state read advanced affordable missing =>
    simp only [StreamFramingWorkspace.StateTracks, state] at inv
    obtain ⟨-, matching⟩ := inv
    obtain ⟨nextLe, -⟩ := PrefixTable.advance_suffix byte matching
      (tracks.valid.table.correct.mono (Nat.le_of_lt matching))
    refine workLeft_of_byte read rfl rfl ?_ ?_
    · simp only [PushState.withWorkspace, PushState.recordDiscard,
        StreamFramingWorkspace.retainedBytes, state]
      omega
    · simp only [PushState.withWorkspace, PushState.recordDiscard, StreamFramingWorkspace.rank,
        StreamFramingWorkspace.span, state]
      omega

/-- Every continuing round of a CR LF profile leaves less work. -/
theorem continues_workLeft_crlf {input : List UInt8} {sink : FrameSinkFunction}
    {push next : PushState} {seen : List UInt8} {frames : List (List UInt8)} {malformed : Nat}
    (tracks : push.workspace.TracksCrlf seen frames malformed)
    (continues : Continues input sink push next) : next.workLeft input < push.workLeft input := by
  have states := tracks.state_cases
  have inv := tracks.state
  cases continues with
  | deliver state quota =>
    obtain ⟨-, rank, span⟩ := resetCandidate_rank push.workspace
    refine workLeft_internal span ?_ ?_
    · change push.workspace.resetCandidate.retainedBytes ≤ _
      rw [resetCandidate_retainedBytes]
      exact Nat.zero_le _
    · change push.workspace.resetCandidate.rank < _
      rw [rank tracks.strategy]
      simp only [StreamFramingWorkspace.rank, state, Nat.zero_lt_one]
  | asciiTerminated byte state read affordable room terminated =>
    refine workLeft_of_byte read rfl (appendByte_span _ _) ?_ ?_
    · simp only [PushState.withWorkspace, StreamFramingWorkspace.appendByte,
        StreamFramingWorkspace.retainedBytes, state, Nat.le_refl]
    · simp only [PushState.withWorkspace, StreamFramingWorkspace.appendByte,
        StreamFramingWorkspace.rank, StreamFramingWorkspace.span]
      omega
  | asciiTooLong byte state read affordable unterminated full =>
    refine workLeft_of_byte read rfl (appendByte_span _ _) (Nat.zero_le _) ?_
    simp only [PushState.withWorkspace, PushState.recordDiscard, PushState.recordMalformed,
      StreamFramingWorkspace.appendByte, StreamFramingWorkspace.rank, StreamFramingWorkspace.span]
    omega
  | asciiMore byte state read affordable unterminated room =>
    refine workLeft_of_byte read rfl (appendByte_span _ _) ?_ ?_
    · simp only [PushState.withWorkspace, StreamFramingWorkspace.appendByte,
        StreamFramingWorkspace.retainedBytes, state, Nat.le_refl]
    · simp only [PushState.withWorkspace, StreamFramingWorkspace.appendByte,
        StreamFramingWorkspace.rank, StreamFramingWorkspace.span, state]
      omega
  | discardTerminated byte state read affordable terminated =>
    simp only [StreamFramingWorkspace.StateTracksCrlf, state] at inv
    refine workLeft_of_byte read rfl rfl ?_ ?_
    · simp only [PushState.withWorkspace, PushState.consume, PushState.spend,
        PushState.recordDiscard, StreamFramingWorkspace.retainedBytes, inv.2.1, Nat.zero_le]
    · simp only [PushState.withWorkspace, PushState.recordDiscard, StreamFramingWorkspace.rank,
        StreamFramingWorkspace.span]
      omega
  | discardMore byte state read affordable unterminated =>
    refine workLeft_of_byte read rfl rfl ?_ ?_
    · simp only [PushState.withWorkspace, PushState.consume, PushState.spend,
        PushState.recordDiscard, StreamFramingWorkspace.retainedBytes, state, Nat.zero_le]
    · simp only [PushState.withWorkspace, PushState.consume, PushState.spend,
        PushState.recordDiscard, StreamFramingWorkspace.rank, StreamFramingWorkspace.span, state]
      omega
  | copyByte byte state => simp [state] at states
  | copyFixed state => simp [state] at states
  | copyLength state => simp [state] at states
  | rescanFound byte matched state => simp [state] at states
  | rescanMore byte matched state => simp [state] at states
  | rescanEnd state => simp [state] at states
  | compact chunk state => simp [state] at states
  | headerByte byte state => simp [state] at states
  | lengthMalformed declared state => simp [state] at states
  | lengthAdmitted declared state => simp [state] at states
  | collectDone state => rcases state with state | state <;> simp [state] at states
  | collectByte byte state => rcases state with state | state <;> simp [state] at states
  | searchFound byte matched state => simp [state] at states
  | searchMore byte matched state => simp [state] at states

/-! ### What holds inside a call -/

/-- The sync pattern fits the candidate buffer. -/
theorem StreamFramingWorkspace.Tracks.sync_le {workspace : StreamFramingWorkspace}
    (tracks : workspace.Tracks) :
    workspace.framing.syncBytes.length ≤ frameCapacity workspace.framing := by
  have valid := tracks.valid
  unfold frameCapacity
  cases same : workspace.framing.strategy <;> simp only
  case completeRecord => exact absurd same valid.strategy_ne
  case asciiCrlf => exact absurd same tracks.strategy_ne
  case fixedLength =>
    rw [(valid.fixedLength same).sync_nil]
    exact Nat.zero_le _
  case syncFixedLength => exact (valid.syncFixedLength same).sync_le
  case syncLengthField =>
    have facts := valid.syncLengthField same
    have header := facts.header_le
    have minimum := facts.minimum_le
    have sync := facts.sync_le
    omega

/-- The invariant between two rounds of a call, whatever the strategy. -/
inductive CallSound (input : List UInt8) (start : StreamFramingWorkspace) (push : PushState) : Prop
  | binary (call : CallTracks input start push)
  | crlf (seen : List UInt8) (frames : List (List UInt8)) (malformed : Nat)
      (call : CallTracksCrlf input start seen frames malformed push)

section

variable {input : List UInt8} {sink : FrameSinkFunction} {start : StreamFramingWorkspace}
  {push next final : PushState}

theorem callSound_start (sound : start.Sound) :
    CallSound input start { workspace := start } := by
  cases sound with
  | binary tracks waiting => exact .binary (callTracks_start tracks)
  | crlf seen frames malformed tracks =>
    exact .crlf seen frames malformed
      ⟨by simpa using tracks, Nat.zero_le _, rfl, by simp [PushState.accounted], rfl⟩

theorem callSound_next (sound : CallSound input start push)
    (continues : Continues input sink push next) : CallSound input start next := by
  cases sound with
  | binary call => exact .binary (callTracks_next call continues)
  | crlf seen frames malformed call =>
    exact .crlf seen frames malformed (callTracksCrlf_next call continues)

theorem CallSound.workLeft_lt (sound : CallSound input start push)
    (continues : Continues input sink push next) : next.workLeft input < push.workLeft input := by
  cases sound with
  | binary call => exact continues_workLeft call.tracks continues
  | crlf seen frames malformed call => exact continues_workLeft_crlf call.tracks continues

theorem CallSound.consumed (sound : CallSound input start push) :
    push.result.bytesConsumed = push.inputIndex ∧ push.inputIndex ≤ input.length := by
  cases sound with
  | binary call => exact ⟨call.consumed, call.bounded⟩
  | crlf seen frames malformed call => exact ⟨call.consumed, call.bounded⟩

/-- The candidate never exceeds its buffer. -/
theorem CallSound.inside (sound : CallSound input start push) :
    push.workspace.bufferedSize ≤ push.workspace.buffer.length := by
  cases sound with
  | binary call => exact call.tracks.inside
  | crlf seen frames malformed call =>
    have tracks := call.tracks
    have inv := tracks.state
    rw [tracks.capacity]
    rcases tracks.state_cases with state | state | state <;>
      simp only [StreamFramingWorkspace.StateTracksCrlf, state] at inv <;> omega

/-- One symbol of a search costs less than the least admitted budget. -/
theorem scanUnits_le {framing : FramingPlan} {matched : Nat} (byte : UInt8)
    (table : PrefixTable.IsPrefixTable framing.syncBytes framing.syncPrefixTable)
    (inside : matched < framing.syncBytes.length) :
    scanUnits framing matched byte ≤ minimumProgressBudget framing := by
  have falls := PrefixTable.fallback_count_le byte matched matched (Nat.le_of_lt inside)
    (table.correct.mono (Nat.le_of_lt inside))
  have budget := Nat.le_max_right 4 (1 + 2 * framing.syncBytes.length)
  unfold minimumProgressBudget scanUnits PrefixTable.fallbackCount
  omega

/-- No round asks for more than the least admitted budget. -/
theorem CallSound.costs_le (sound : CallSound input start push) {amount : Nat}
    (costs : push.workspace.Costs amount) :
    amount ≤ minimumProgressBudget push.workspace.framing := by
  have four : 4 ≤ minimumProgressBudget push.workspace.framing := Nat.le_max_left _ _
  cases sound with
  | binary call =>
    have inv := call.tracks.state
    unfold StreamFramingWorkspace.StateTracks at inv
    unfold StreamFramingWorkspace.Costs at costs
    cases state : push.workspace.state <;> simp only [state] at inv costs
    case searchSync =>
      obtain ⟨byte, rfl⟩ := costs
      exact scanUnits_le byte call.tracks.valid.table inv.2
    case rescanInvalid =>
      obtain ⟨byte, rfl⟩ := costs
      exact scanUnits_le byte call.tracks.valid.table inv.2.2.2.2.1
    case readLength =>
      rcases costs with rfl | rfl
      · omega
      · rcases (call.tracks.valid.syncLengthField inv.1).width_cases with one | two | four <;> omega
    all_goals omega
  | crlf seen frames malformed call =>
    have states := call.tracks.state_cases
    unfold StreamFramingWorkspace.Costs at costs
    rcases states with state | state | state <;> simp only [state] at costs <;> omega

/-- A round that appends a byte has room for it. -/
theorem CallSound.room (sound : CallSound input start push) (appends : push.workspace.Appends) :
    push.workspace.bufferedSize < push.workspace.buffer.length := by
  cases sound with
  | binary call =>
    have tracks := call.tracks
    have inv := tracks.state
    have capacity := tracks.capacity
    unfold StreamFramingWorkspace.StateTracks at inv
    unfold StreamFramingWorkspace.Appends at appends
    cases state : push.workspace.state <;> simp only [state] at inv appends
    case copySync => exact Nat.lt_of_lt_of_le (inv.2.2.1 ▸ appends) (capacity ▸ tracks.sync_le)
    case readLength =>
      have facts := tracks.valid.syncLengthField inv.1
      have header := facts.header_le
      have minimum := facts.minimum_le
      simp only [capacity, frameCapacity, inv.1]
      omega
    all_goals
      have bound := inv.target_le tracks.strategy_ne
      have fits := inv.fits
      rw [List.length_take, Nat.min_eq_left tracks.inside] at fits
      omega
  | crlf seen frames malformed call =>
    have tracks := call.tracks
    have inv := tracks.state
    have capacity := tracks.capacity
    unfold StreamFramingWorkspace.Appends at appends
    rcases tracks.state_cases with state | state | state <;> simp only [state] at appends
    simp only [StreamFramingWorkspace.StateTracksCrlf, state] at inv
    omega

theorem CallSound.capacity (sound : CallSound input start push) :
    push.workspace.buffer.length = frameCapacity push.workspace.framing := by
  cases sound with
  | binary call => exact call.tracks.capacity
  | crlf seen frames malformed call =>
    rw [call.tracks.capacity]
    simp only [frameCapacity, call.tracks.strategy]

end

/-- A part of the move leaves less work. -/
theorem compactPartial_workLeft {input : List UInt8} {start : StreamFramingWorkspace}
    {push : PushState} {chunk : Nat} (sound : CallSound input start push)
    (state : push.workspace.state = .compactInvalid)
    (part : chunk < push.workspace.compactSize - push.workspace.compactMoved)
    (positive : 0 < chunk) :
    StreamFramingWorkspace.workLeft { push.workspace with
        buffer := moveBytes push.workspace.buffer push.workspace.compactMoved
          (push.workspace.compactStart + push.workspace.compactMoved) chunk
        compactMoved := push.workspace.compactMoved + chunk } (input.length - push.inputIndex) <
      push.workLeft input := by
  cases sound with
  | binary call =>
    have tracks := call.tracks
    have inv := tracks.state
    have inside := tracks.inside
    simp only [StreamFramingWorkspace.StateTracks, state] at inv
    obtain ⟨-, first, moved, total, -, -⟩ := inv
    obtain ⟨length, -, -⟩ := moveBytes_spec push.workspace.buffer push.workspace.compactMoved
      push.workspace.compactStart chunk first (by omega)
    refine workLeft_internal ?_ (Nat.le_of_eq ?_) ?_
    · simp only [StreamFramingWorkspace.span, length]
    · simp only [StreamFramingWorkspace.retainedBytes, state]
    · simp only [StreamFramingWorkspace.rank, state]
      omega
  | crlf seen frames malformed call =>
    have states := call.tracks.state_cases
    simp [state] at states

/-- What a call that has started keeps: its result is good so far, and it has spent no
more than its budget. -/
structure WithinBudget (start : StreamFramingWorkspace) (push : PushState) : Prop where
  binding : SameBinding start push.workspace
  status : push.result.apiStatus = .ok
  spent : push.result.workUnitsUsed ≤ push.workspace.maxWorkUnits

theorem spend_within {push : PushState} {amount : Nat} (affordable : amount ≤ push.available)
    (spent : push.result.workUnitsUsed ≤ push.workspace.maxWorkUnits) :
    push.result.workUnitsUsed + amount ≤ push.workspace.maxWorkUnits := by
  unfold PushState.available at affordable
  omega

theorem continues_within {input : List UInt8} {sink : FrameSinkFunction}
    {start : StreamFramingWorkspace} {push next : PushState} (within : WithinBudget start push)
    (continues : Continues input sink push next) : WithinBudget start next := by
  have binding := within.binding.trans (continues_binding continues)
  have status := within.status
  have spent := within.spent
  refine ⟨binding, ?_, ?_⟩
  · cases continues <;> exact status
  · rw [(continues_binding continues).maxWorkUnits]
    cases continues with
    | deliver | copyFixed | copyLength | rescanEnd | collectDone => exact spent
    | asciiTerminated byte state read affordable => exact spend_within affordable spent
    | asciiTooLong byte state read affordable => exact spend_within affordable spent
    | asciiMore byte state read affordable => exact spend_within affordable spent
    | discardTerminated byte state read affordable => exact spend_within affordable spent
    | discardMore byte state read affordable => exact spend_within affordable spent
    | copyByte byte state next affordable => exact spend_within affordable spent
    | rescanFound byte matched state inside read advanced affordable =>
      exact spend_within affordable spent
    | rescanMore byte matched state inside read advanced affordable =>
      exact spend_within affordable spent
    | compact chunk state affordable => exact spend_within affordable spent
    | headerByte byte state header read affordable => exact spend_within affordable spent
    | lengthMalformed declared state header affordable => exact spend_within affordable spent
    | lengthAdmitted declared state header affordable => exact spend_within affordable spent
    | collectByte byte state incomplete read affordable => exact spend_within affordable spent
    | searchFound byte matched state read advanced affordable =>
      exact spend_within affordable spent
    | searchMore byte matched state read advanced affordable =>
      exact spend_within affordable spent

/-! ### The last round -/

/-- A stop inside a sound call is no internal error, keeps the budget and adds no work. -/
theorem stops_within {input : List UInt8} {sink : FrameSinkFunction}
    {start : StreamFramingWorkspace} {push final : PushState} (sound : CallSound input start push)
    (within : WithinBudget start push) (stops : Stops input sink push final) :
    WithinBudget start final ∧ final.workLeft input ≤ push.workLeft input := by
  have binding := within.binding.trans (stops_binding stops)
  cases stops with
  | quota state reached => exact ⟨⟨binding, within.status, within.spent⟩, Nat.le_refl _⟩
  | sinkStop state quota =>
    have continues : Continues input sink push _ := .deliver state quota
    have next := continues_within within continues
    have less := sound.workLeft_lt continues
    exact ⟨⟨binding, next.status, next.spent⟩, Nat.le_of_lt less⟩
  | inputEnd reason ended waiting needsInput =>
    exact ⟨⟨binding, within.status, within.spent⟩, Nat.le_refl _⟩
  | budget amount waiting undelivered costs short =>
    exact ⟨⟨binding, within.status, within.spent⟩, Nat.le_refl _⟩
  | compactPartial chunk state positive affordable part =>
    exact ⟨⟨binding, within.status, spend_within affordable within.spent⟩,
      Nat.le_of_lt (compactPartial_workLeft sound state part positive)⟩
  | internalError spent waiting full appends =>
    exact absurd (sound.room appends) (Nat.not_lt.mpr full)

/-- The first round of a call with something to do does not stop without progress. -/
theorem stops_first {input : List UInt8} {sink : FrameSinkFunction}
    {start : StreamFramingWorkspace} {final : PushState}
    (sound : CallSound input start { workspace := start })
    (frames : 0 < start.maxFramesPerSubmit)
    (budget : minimumProgressBudget start.framing ≤ start.maxWorkUnits)
    (busy : input ≠ [] ∨ start.hasInternalWork = true)
    (stops : Stops input sink { workspace := start } final) :
    final.workLeft input < start.workLeft input.length := by
  cases stops with
  | quota state reached => exact absurd reached (Nat.not_le.mpr frames)
  | sinkStop state quota =>
    have continues : Continues input sink { workspace := start } _ := .deliver state quota
    have less := sound.workLeft_lt continues
    exact less
  | inputEnd reason ended waiting needsInput =>
    rcases busy with something | working
    · exact absurd (List.length_eq_zero_iff.mp
        (Nat.le_zero.mp (List.getElem?_eq_none_iff.mp ended))) something
    · exact absurd working (by rw [needsInput]; exact Bool.false_ne_true)
  | budget amount waiting undelivered costs short =>
    have cost := sound.costs_le costs
    unfold PushState.available at short
    simp only at cost short
    omega
  | compactPartial chunk state positive affordable part =>
    exact compactPartial_workLeft sound state part positive
  | internalError spent waiting full appends =>
    exact absurd (sound.room appends) (Nat.not_lt.mpr full)

/-! ### One call -/

/-- The limits every admitted workspace has. -/
structure StreamFramingWorkspace.Admitted (plan : PlanBundle) (pipelineIndex : Nat)
    (workspace : StreamFramingWorkspace) : Prop where
  supported : supportsStreamSchema plan.schemaVersion = true
  pipeline : pipelineIndex < plan.pipelines.length
  planScope : workspace.planScope = plan.address
  pipelineIndex : workspace.pipelineIndex = pipelineIndex
  idle : workspace.inUse = false ∧ workspace.inCallback = false
  frames : 0 < workspace.maxFramesPerSubmit
  budget : minimumProgressBudget workspace.framing ≤ workspace.maxWorkUnits
  sound : workspace.Sound

theorem selectLimit_pos {requested profileDefault hardLimit selected : Nat}
    (found : selectLimit requested profileDefault hardLimit = some selected) : 0 < selected := by
  unfold selectLimit at found
  generalize (if requested = 0 then profileDefault else requested) = chosen at found
  simp only at found
  split at found
  · cases found
  · rename_i admissible
    obtain rfl := Option.some.inj found
    exact Nat.pos_of_ne_zero fun zero => admissible (Or.inl zero)

theorem selectLimits_maxFrames_pos {profile : ResourceProfileLimits}
    {overrides : FramingLimitOverrides} {limits : EffectiveLimits}
    (selected : selectLimits profile overrides = some limits) : 0 < limits.maxFrames := by
  simp only [selectLimits, Option.bind_eq_bind, Option.pure_def, Option.bind_eq_some_iff,
    Option.some.injEq] at selected
  obtain ⟨submit, -, frames, found, work, -, sync, -, session, -, rfl⟩ := selected
  exact selectLimit_pos found

/-- A workspace that was created for a frozen plan stays admitted. -/
theorem Reachable.admitted {target : TargetLayout} {draft : PlanDraftData} {storage : Option Nat}
    {plan : PlanBundle} {pipelineIndex : Nat} {overrides : FramingLimitOverrides}
    {allocated : Bool} {initial workspace : StreamFramingWorkspace}
    (frozen : freezeImpl target draft storage = .ok plan)
    (created : (createStreamFramingWorkspace plan pipelineIndex overrides allocated).workspace =
      some initial)
    (reachable : Reachable initial workspace) : workspace.Admitted plan pipelineIndex := by
  obtain ⟨supported, framing, limits, bound, selected, -, budget, rfl⟩ :=
    createStreamFramingWorkspace_workspace created
  have valid := streamValid_of_streamFraming (frozenFrom_of_freezeImpl frozen) bound
  have sound := reachable.sound (fresh_sound valid)
  have binding := reachable.binding
  have fresh : SameBinding
      { planScope := plan.address
        framing := framing
        pipelineIndex := pipelineIndex
        buffer := List.replicate (frameCapacity framing) 0
        maxSubmitBytes := limits.maxSubmit
        maxFramesPerSubmit := limits.maxFrames
        maxWorkUnits := limits.maxWork
        maxSessionMemoryBytes := limits.maxSession : StreamFramingWorkspace } workspace :=
    (resetCandidate_binding _).trans binding
  have inside : pipelineIndex < plan.pipelines.length := by
    simp only [streamFraming, Option.bind_eq_bind, Option.bind_eq_some_iff] at bound
    obtain ⟨pipeline, found, -⟩ := bound
    exact (List.getElem?_eq_some_iff.mp found).1
  refine ⟨supported, inside, fresh.planScope, fresh.pipelineIndex,
    ⟨fresh.inUse, fresh.inCallback⟩, ?_, ?_, sound⟩
  · rw [fresh.maxFramesPerSubmit]
    exact selectLimits_maxFrames_pos selected
  · rw [fresh.framing, fresh.maxWorkUnits]
    exact budget

/-- A well-formed submission the workspace can act on. -/
structure ValidSubmission (workspace : StreamFramingWorkspace) (chunk : ByteView) : Prop where
  pointer : chunk.data = none → chunk.size = 0
  size : chunk.size ≤ workspace.maxSubmitBytes
  busy : chunk.bytes ≠ [] ∨ workspace.hasInternalWork = true

theorem pushStreamChunk_runs {plan : PlanBundle} {pipelineIndex : Nat}
    {workspace : StreamFramingWorkspace} {chunk : ByteView} (function : FrameSinkFunction)
    (admitted : workspace.Admitted plan pipelineIndex) (valid : ValidSubmission workspace chunk) :
    pushStreamChunk plan workspace pipelineIndex chunk { function := some function } =
      pushLoop chunk.bytes function (roundLimit workspace) { workspace := workspace } := by
  unfold pushStreamChunk
  simp only
  rw [if_neg (fun null => null.2 (valid.pointer null.1)), if_neg, if_neg, if_neg, if_neg,
    if_neg (Nat.not_lt.mpr valid.size)]
  · simp [admitted.idle.1]
  · simp [admitted.idle.2]
  · simp [admitted.planScope, admitted.pipelineIndex]
  · simp [admitted.supported, admitted.pipeline]

/-- A submission the workspace can act on returns, with a good status and within its
budget, and leaves less work. -/
theorem pushStreamChunk_workLeft {plan : PlanBundle} {pipelineIndex : Nat}
    {workspace : StreamFramingWorkspace} {chunk : ByteView} (function : FrameSinkFunction)
    (admitted : workspace.Admitted plan pipelineIndex) (valid : ValidSubmission workspace chunk) :
    ∃ final, pushStreamChunk plan workspace pipelineIndex chunk { function := some function } =
        some final ∧
      WithinBudget workspace final ∧ final.workspace.Sound ∧
      final.result.bytesConsumed ≤ chunk.bytes.length ∧
      final.workspace.workLeft (chunk.bytes.length - final.result.bytesConsumed) <
        workspace.workLeft chunk.bytes.length := by
  obtain ⟨final, pushed⟩ := Option.isSome_iff_exists.mp
    (pushStreamChunk_isSome plan workspace pipelineIndex chunk { function := some function })
  refine ⟨final, pushed, ?_⟩
  have run := pushStreamChunk_runs function admitted valid ▸ pushed
  have begin : CallSound chunk.bytes workspace { workspace := workspace } :=
    callSound_start admitted.sound
  obtain ⟨last, ⟨sound, within, before⟩, stops⟩ := pushLoop_preserves
    (fun push => CallSound chunk.bytes workspace push ∧ WithinBudget workspace push ∧
      (push = { workspace := workspace } ∨
        push.workLeft chunk.bytes < workspace.workLeft chunk.bytes.length))
    (fun push next holds continues => by
      obtain ⟨sound, within, before⟩ := holds
      have less := sound.workLeft_lt continues
      refine ⟨callSound_next sound continues, continues_within within continues, Or.inr ?_⟩
      rcases before with rfl | already
      · exact less
      · exact Nat.lt_trans less already) _ _ _
    ⟨begin, ⟨.refl _, rfl, Nat.zero_le _⟩, Or.inl rfl⟩ run
  obtain ⟨withinFinal, noMore⟩ := stops_within sound within stops
  obtain ⟨soundFinal, -, bounded⟩ := pushStreamChunk_accounted admitted.sound pushed
  refine ⟨withinFinal, soundFinal, bounded, ?_⟩
  have index : final.result.bytesConsumed = final.inputIndex := by
    have counted := sound.consumed.1
    cases stops <;> exact counted
  have less : final.workLeft chunk.bytes < workspace.workLeft chunk.bytes.length := by
    rcases before with rfl | already
    · exact stops_first begin admitted.frames admitted.budget valid.busy stops
    · exact Nat.lt_of_le_of_lt noMore already
  rw [index]
  exact less

/-- The rounds of a call, without its last one. -/
inductive Rounds (input : List UInt8) (sink : FrameSinkFunction) (start : PushState) :
    PushState → Prop
  | start : Rounds input sink start start
  | round {push next : PushState} (rounds : Rounds input sink start push)
      (continued : pushRound input sink push = .continue next) : Rounds input sink start next

/-- Inside a call the candidate never exceeds its buffer. -/
theorem Rounds.inside {input : List UInt8} {sink : FrameSinkFunction}
    {workspace : StreamFramingWorkspace} {push : PushState} (sound : workspace.Sound)
    (rounds : Rounds input sink { workspace := workspace } push) :
    push.workspace.bufferedSize ≤ push.workspace.buffer.length := by
  have invariant : CallSound input workspace push := by
    induction rounds with
    | start => exact callSound_start sound
    | @round push next rounds continued inductionHypothesis =>
      have explained := pushRound_explained input sink push
      rw [continued] at explained
      exact callSound_next inductionHypothesis explained
  exact invariant.inside

/-- Work without new input is what is left when the remaining input is set apart. -/
theorem internalWork_lt {before after : StreamFramingWorkspace} {remaining : Nat}
    (span : after.span = before.span)
    (less : after.workLeft remaining < before.workLeft remaining) :
    after.internalWork < before.internalWork := by
  unfold StreamFramingWorkspace.internalWork StreamFramingWorkspace.workLeft at *
  rw [span, Nat.mul_add, Nat.mul_add] at less
  rw [span, Nat.mul_zero, Nat.add_zero, Nat.add_zero]
  omega

theorem StreamFramingWorkspace.Sound.capacity {workspace : StreamFramingWorkspace}
    (sound : workspace.Sound) :
    workspace.buffer.length = frameCapacity workspace.framing := by
  have inside : CallSound [] workspace { workspace := workspace } := callSound_start sound
  exact inside.capacity

/-- A call that consumes nothing has advanced the internal work. -/
theorem consumed_or_internalWork {plan : PlanBundle} {pipelineIndex : Nat}
    {workspace : StreamFramingWorkspace} {chunk : ByteView} {final : PushState}
    (admitted : workspace.Admitted plan pipelineIndex) (within : WithinBudget workspace final)
    (sound : final.workspace.Sound)
    (less : final.workspace.workLeft (chunk.bytes.length - final.result.bytesConsumed) <
      workspace.workLeft chunk.bytes.length) :
    0 < final.result.bytesConsumed ∨
      final.workspace.internalWork < workspace.internalWork := by
  rcases Nat.eq_zero_or_pos final.result.bytesConsumed with none | some
  · have span : final.workspace.span = workspace.span := by
      unfold StreamFramingWorkspace.span
      rw [sound.capacity, admitted.sound.capacity, within.binding.framing]
    rw [none, Nat.sub_zero] at less
    exact Or.inr (internalWork_lt span less)
  · exact Or.inl some

/-! ### A host that submits what is left -/

/-- What a host knows: the workspace and the part of the stream it has not consumed. -/
structure HostState where
  workspace : StreamFramingWorkspace
  remaining : List UInt8

/-- Whether the host has a reason to call. -/
def HostState.busy (host : HostState) : Prop :=
  host.remaining ≠ [] ∨ host.workspace.hasInternalWork = true

/-- One call of the host: it submits a part of the rest, and an empty part only while
internal work is left. The sink takes every frame. -/
def HostCall (plan : PlanBundle) (pipelineIndex : Nat) (before after : HostState) : Prop :=
  ∃ chunk final, chunk.bytes <+: before.remaining ∧ ValidSubmission before.workspace chunk ∧
    pushStreamChunk plan before.workspace pipelineIndex chunk
      { function := some fun _ _ => .continue } = some final ∧
    after = ⟨final.workspace, before.remaining.drop final.result.bytesConsumed⟩

/-- Every call of the host leaves less work. -/
theorem HostCall.workLeft_lt {plan : PlanBundle} {pipelineIndex : Nat} {before after : HostState}
    (admitted : before.workspace.Admitted plan pipelineIndex)
    (call : HostCall plan pipelineIndex before after) :
    after.workspace.Admitted plan pipelineIndex ∧
      after.workspace.workLeft after.remaining.length <
        before.workspace.workLeft before.remaining.length := by
  obtain ⟨chunk, final, part, valid, pushed, rfl⟩ := call
  obtain ⟨other, found, within, sound, bounded, less⟩ :=
    pushStreamChunk_workLeft _ admitted valid
  obtain rfl : final = other := Option.some.inj (pushed.symm.trans found)
  have binding := within.binding
  refine ⟨⟨admitted.supported, admitted.pipeline, binding.planScope.trans admitted.planScope,
    binding.pipelineIndex.trans admitted.pipelineIndex,
    ⟨binding.inUse.trans admitted.idle.1, binding.inCallback.trans admitted.idle.2⟩,
    binding.maxFramesPerSubmit ▸ admitted.frames, ?_, sound⟩, ?_⟩
  · rw [binding.framing, binding.maxWorkUnits]
    exact admitted.budget
  · have span : final.workspace.span = before.workspace.span := by
      unfold StreamFramingWorkspace.span
      rw [sound.capacity, admitted.sound.capacity, binding.framing]
    have available := part.length_le
    simp only [List.length_drop]
    unfold StreamFramingWorkspace.workLeft at less ⊢
    rw [span] at less ⊢
    obtain ⟨rest, whole⟩ := Nat.exists_eq_add_of_le available
    have shifted : before.remaining.length - final.result.bytesConsumed =
        chunk.bytes.length - final.result.bytesConsumed + rest := by omega
    rw [shifted, whole, Nat.mul_add 2, Nat.mul_add 2, ← Nat.add_assoc, ← Nat.add_assoc,
      Nat.mul_add _ _ (2 * rest), Nat.mul_add _ _ (2 * rest)]
    omega

/-- A host that calls as long as it has a reason to is done after finitely many calls. -/
theorem host_done {plan : PlanBundle} {pipelineIndex : Nat} {host : Nat → HostState}
    (admitted : (host 0).workspace.Admitted plan pipelineIndex)
    (calls : ∀ count, (host count).busy →
      HostCall plan pipelineIndex (host count) (host (count + 1))) :
    ∃ count, ¬(host count).busy := by
  suffices ∀ work count, (host count).workspace.Admitted plan pipelineIndex →
      (host count).workspace.workLeft (host count).remaining.length ≤ work →
      ∃ later, ¬(host later).busy from this _ 0 admitted (Nat.le_refl _)
  intro work
  induction work with
  | zero =>
    intro count admitted bound
    refine ⟨count, fun busy => ?_⟩
    have less := (HostCall.workLeft_lt admitted (calls count busy)).2
    omega
  | succ work inductionHypothesis =>
    intro count admitted bound
    by_cases busy : (host count).busy
    · obtain ⟨next, less⟩ := HostCall.workLeft_lt admitted (calls count busy)
      exact inductionHypothesis (count + 1) next (by omega)
    · exact ⟨count, busy⟩

/-! ### The guarantee -/

/-- Every submission a reachable workspace of a frozen plan can act on returns with a good
status, spends at most its budget and either consumes a byte, delivers a frame or
advances the internal work, and the candidate fits its buffer throughout. A host that
keeps submitting what is left consumes any stream in finitely many calls. -/
theorem pushStreamChunk_progress {target : TargetLayout} {draft : PlanDraftData}
    {storage : Option Nat} {plan : PlanBundle} {pipelineIndex : Nat}
    {overrides : FramingLimitOverrides} {allocated : Bool}
    {initial workspace : StreamFramingWorkspace}
    (frozen : freezeImpl target draft storage = .ok plan)
    (created : (createStreamFramingWorkspace plan pipelineIndex overrides allocated).workspace =
      some initial)
    (reachable : Reachable initial workspace) :
    workspace.bufferedSize ≤ workspace.buffer.length ∧
    (∀ chunk function, ValidSubmission workspace chunk →
      (∀ push, Rounds chunk.bytes function { workspace := workspace } push →
        push.workspace.bufferedSize ≤ push.workspace.buffer.length) ∧
      ∃ final,
        pushStreamChunk plan workspace pipelineIndex chunk { function := some function } =
          some final ∧
        final.result.apiStatus = .ok ∧
        final.result.workUnitsUsed ≤ workspace.maxWorkUnits ∧
        (0 < final.result.bytesConsumed ∨ 0 < final.result.framesDelivered ∨
          final.workspace.internalWork < workspace.internalWork)) ∧
    ∀ (stream : List UInt8) (host : Nat → HostState), host 0 = ⟨workspace, stream⟩ →
      (∀ count, (host count).busy →
        HostCall plan pipelineIndex (host count) (host (count + 1))) →
      ∃ count, (host count).remaining = [] ∧ (host count).workspace.hasInternalWork = false := by
  have admitted := reachable.admitted frozen created
  have sound := admitted.sound
  refine ⟨?_, ?_, ?_⟩
  · have begin : CallSound [] workspace { workspace := workspace } := callSound_start sound
    exact begin.inside
  · intro chunk function valid
    refine ⟨fun push rounds => rounds.inside sound, ?_⟩
    obtain ⟨final, pushed, within, soundFinal, -, less⟩ :=
      pushStreamChunk_workLeft function admitted valid
    refine ⟨final, pushed, within.status, within.binding.maxWorkUnits ▸ within.spent, ?_⟩
    exact (consumed_or_internalWork admitted within soundFinal less).imp_right Or.inr
  · intro stream host first calls
    obtain ⟨count, idle⟩ := host_done (first ▸ admitted) calls
    obtain ⟨consumed, quiet⟩ := not_or.mp idle
    exact ⟨count, not_not.mp consumed, Bool.eq_false_iff.mpr quiet⟩

theorem pushStreamChunk_progress_sample : ∃ final,
    pushStreamChunk samplePlan sampleWorkspace 0 { data := some 1, bytes := sampleStream }
      { function := some fun _ _ => .stop } = some final ∧
    final.result.apiStatus = .ok ∧ final.result.workUnitsUsed ≤ 80 ∧
    (0 < final.result.bytesConsumed ∨ 0 < final.result.framesDelivered ∨
      final.workspace.internalWork < sampleWorkspace.internalWork) := by
  have created : (createStreamFramingWorkspace samplePlan 0
      { maxSubmitBytes := 64, maxFramesPerSubmit := 2, maxWorkUnits := 80 } true).workspace =
        some sampleWorkspace := by decide
  have valid : ValidSubmission sampleWorkspace { data := some 1, bytes := sampleStream } :=
    ⟨by simp, by decide, Or.inl (by decide)⟩
  exact ((pushStreamChunk_progress sampleBudgeted_freezes created .start).2.1 _ _ valid).2

end ProtocolAdapter.Framing
