/-
This file proves that the framer of a CR LF profile cuts the stream as the CR LF
cutter does. While a record is collected the buffer is the unterminated rest of the
stream; once the limit is reached only the length of that rest and its last byte
matter, and both are known.
-/

import ProtocolAdapter.Framing.Feed

namespace ProtocolAdapter.Framing

/-! ### Records -/

/-- The records that fit a limit, in order. -/
def shortRecords (maximum : Nat) (records : List (List UInt8)) : List (List UInt8) :=
  records.filter fun record => record.length ≤ maximum

/-- The number of records beyond a limit. -/
def longRecords (maximum : Nat) (records : List (List UInt8)) : Nat :=
  records.countP fun record => maximum < record.length

theorem shortRecords_append (maximum : Nat) (records more : List (List UInt8)) :
    shortRecords maximum (records ++ more) =
      shortRecords maximum records ++ shortRecords maximum more :=
  List.filter_append ..

theorem longRecords_append (maximum : Nat) (records more : List (List UInt8)) :
    longRecords maximum (records ++ more) =
      longRecords maximum records + longRecords maximum more :=
  List.countP_append ..

theorem shortRecords_of_le {maximum : Nat} {record : List UInt8}
    (fits : record.length ≤ maximum) : shortRecords maximum [record] = [record] := by
  simp [shortRecords, fits]

theorem longRecords_of_le {maximum : Nat} {record : List UInt8}
    (fits : record.length ≤ maximum) : longRecords maximum [record] = 0 := by
  simp [longRecords, fits]

theorem shortRecords_of_lt {maximum : Nat} {record : List UInt8}
    (long : maximum < record.length) : shortRecords maximum [record] = [] := by
  simp [shortRecords, long]

theorem longRecords_of_lt {maximum : Nat} {record : List UInt8}
    (long : maximum < record.length) : longRecords maximum [record] = 1 := by
  simp [longRecords, long]

/-- A byte completes a record when it is the LF after a CR. -/
theorem endsWithCrlf_append_byte {record : List UInt8} {byte : UInt8} :
    endsWithCrlf (record ++ [byte]) = true ↔ record.getLast? = some 0x0D ∧ byte = 0x0A := by
  unfold endsWithCrlf
  rw [List.isSuffixOf_iff_suffix, List.suffix_concat_iff]
  constructor
  · rintro (empty | ⟨front, split, suffix⟩)
    · cases empty
    · obtain ⟨rfl, same⟩ : [0x0D] = front ∧ [0x0A] = [byte] :=
        List.append_inj' (show [0x0D] ++ [0x0A] = front ++ [byte] from split) rfl
      obtain ⟨before, rfl⟩ := suffix
      exact ⟨by simp, by simpa using same.symm⟩
  · rintro ⟨last, rfl⟩
    obtain ⟨before, rfl⟩ := List.getLast?_eq_some_iff.mp last
    exact Or.inr ⟨[0x0D], rfl, List.suffix_append _ _⟩

/-- Reading a byte that completes the record. -/
theorem cutCrlf_terminated {seen : List UInt8} {byte : UInt8}
    (terminated : (cutCrlf seen).2.getLast? = some 0x0D ∧ byte = 0x0A) :
    cutCrlf (seen ++ [byte]) = ((cutCrlf seen).1 ++ [(cutCrlf seen).2 ++ [byte]], []) := by
  rw [cutCrlf_append_byte, cutCrlfStep, if_pos (endsWithCrlf_append_byte.mpr terminated)]

/-- Reading a byte that continues the record. -/
theorem cutCrlf_continued {seen : List UInt8} {byte : UInt8}
    (unterminated : ¬((cutCrlf seen).2.getLast? = some 0x0D ∧ byte = 0x0A)) :
    cutCrlf (seen ++ [byte]) = ((cutCrlf seen).1, (cutCrlf seen).2 ++ [byte]) := by
  rw [cutCrlf_append_byte, cutCrlfStep,
    if_neg (fun ends => unterminated (endsWithCrlf_append_byte.mp ends))]

/-! ### The invariant -/

/-- What a workspace of a CR LF profile knows about the part of the stream it has
seen, given the frames delivered and the malformed candidates reported for it. -/
def StreamFramingWorkspace.StateTracksCrlf (workspace : StreamFramingWorkspace)
    (seen : List UInt8) (frames : List (List UInt8)) (malformed : Nat) : Prop :=
  let maximum := workspace.framing.maximumFrameLength
  let records := (cutCrlf seen).1
  let unterminated := (cutCrlf seen).2
  match workspace.state with
  | .collectAscii =>
    unterminated = workspace.buffer.take workspace.bufferedSize ∧
      workspace.bufferedSize < maximum ∧
      frames = shortRecords maximum records ∧ malformed = longRecords maximum records
  | .discardUntilCrlf =>
    maximum ≤ unterminated.length ∧ workspace.bufferedSize = 0 ∧
      (workspace.previousWasCr = true ↔ unterminated.getLast? = some 0x0D) ∧
      frames = shortRecords maximum records ∧ malformed = longRecords maximum records + 1
  | .deliverPending =>
    unterminated = [] ∧ workspace.bufferedSize ≤ maximum ∧
      shortRecords maximum records =
        frames ++ [workspace.buffer.take workspace.bufferedSize] ∧
      malformed = longRecords maximum records
  | _ => False

/-- What holds of a workspace of a CR LF profile between any two rounds. -/
structure StreamFramingWorkspace.TracksCrlf (workspace : StreamFramingWorkspace)
    (seen : List UInt8) (frames : List (List UInt8)) (malformed : Nat) : Prop where
  strategy : workspace.framing.strategy = .asciiCrlf
  minimum : 2 ≤ workspace.framing.maximumFrameLength
  capacity : workspace.buffer.length = workspace.framing.maximumFrameLength
  state : workspace.StateTracksCrlf seen frames malformed

/-- The terminator test of the collector looks at the last byte of the record. -/
theorem collect_terminator {workspace : StreamFramingWorkspace} {byte : UInt8}
    (room : workspace.bufferedSize < workspace.buffer.length) :
    (1 ≤ workspace.bufferedSize ∧
        (workspace.appendByte byte).buffer[workspace.bufferedSize - 1]? = some 0x0D ∧
        byte = 0x0A) ↔
      ((workspace.buffer.take workspace.bufferedSize).getLast? = some 0x0D ∧ byte = 0x0A) := by
  have length : (workspace.buffer.take workspace.bufferedSize).length = workspace.bufferedSize := by
    rw [List.length_take]
    omega
  rw [List.getLast?_eq_getElem?, length, StreamFramingWorkspace.appendByte]
  simp only
  by_cases empty : workspace.bufferedSize = 0
  · simp [empty]
  · rw [List.getElem?_set_ne (by omega), List.getElem?_take_of_lt (by omega)]
    constructor
    · exact fun terminated => terminated.2
    · exact fun terminated => ⟨by omega, terminated⟩

theorem appendByte_unterminated {workspace : StreamFramingWorkspace} {seen : List UInt8}
    (byte : UInt8) (room : workspace.bufferedSize < workspace.buffer.length)
    (unterminated : (cutCrlf seen).2 = workspace.buffer.take workspace.bufferedSize) :
    (cutCrlf seen).2 ++ [byte] =
      (workspace.appendByte byte).buffer.take (workspace.bufferedSize + 1) := by
  rw [appendByte_take byte room, unterminated]

/-! ### One round -/

/-- The byte that completes a record makes it pending. -/
theorem asciiTerminated_tracks {workspace : StreamFramingWorkspace} {seen : List UInt8}
    {frames : List (List UInt8)} {malformed : Nat} {byte : UInt8}
    (tracks : workspace.TracksCrlf seen frames malformed)
    (state : workspace.state = .collectAscii)
    (room : workspace.bufferedSize < workspace.buffer.length)
    (terminated : 1 ≤ workspace.bufferedSize ∧
      (workspace.appendByte byte).buffer[workspace.bufferedSize - 1]? = some 0x0D ∧
      byte = 0x0A) :
    { workspace.appendByte byte with state := .deliverPending : StreamFramingWorkspace }.TracksCrlf
      (seen ++ [byte]) frames malformed := by
  have inv := tracks.state
  simp only [StreamFramingWorkspace.StateTracksCrlf, state] at inv
  obtain ⟨unterminated, short, delivered, reported⟩ := inv
  have extended := appendByte_unterminated byte room unterminated
  have fits : ((cutCrlf seen).2 ++ [byte]).length ≤ workspace.framing.maximumFrameLength := by
    rw [extended, List.length_take]
    omega
  rw [collect_terminator room, ← unterminated] at terminated
  refine ⟨tracks.strategy, tracks.minimum, (appendByte_length _ _).trans tracks.capacity, ?_⟩
  unfold StreamFramingWorkspace.StateTracksCrlf
  rw [cutCrlf_terminated terminated]
  refine ⟨rfl, short, ?_, ?_⟩
  · change shortRecords workspace.framing.maximumFrameLength _ = _
    rw [shortRecords_append, ← delivered, shortRecords_of_le fits, extended]
    rfl
  · change malformed = longRecords workspace.framing.maximumFrameLength _
    rw [longRecords_append, ← reported, longRecords_of_le fits, Nat.add_zero]

/-- A byte that leaves room for more. -/
theorem asciiMore_tracks {workspace : StreamFramingWorkspace} {seen : List UInt8}
    {frames : List (List UInt8)} {malformed : Nat} {byte : UInt8}
    (tracks : workspace.TracksCrlf seen frames malformed)
    (state : workspace.state = .collectAscii)
    (unfinished : ¬(1 ≤ workspace.bufferedSize ∧
      (workspace.appendByte byte).buffer[workspace.bufferedSize - 1]? = some 0x0D ∧
      byte = 0x0A))
    (room : workspace.bufferedSize + 1 < workspace.buffer.length) :
    (workspace.appendByte byte).TracksCrlf (seen ++ [byte]) frames malformed := by
  have inv := tracks.state
  simp only [StreamFramingWorkspace.StateTracksCrlf, state] at inv
  obtain ⟨unterminated, short, delivered, reported⟩ := inv
  have inside : workspace.bufferedSize < workspace.buffer.length := by omega
  have extended := appendByte_unterminated byte inside unterminated
  have capacity := tracks.capacity
  rw [collect_terminator inside, ← unterminated] at unfinished
  refine ⟨tracks.strategy, tracks.minimum, (appendByte_length _ _).trans capacity, ?_⟩
  unfold StreamFramingWorkspace.StateTracksCrlf
  simp only [cutCrlf_continued unfinished]
  simp only [StreamFramingWorkspace.appendByte, state] at extended ⊢
  exact ⟨extended, by omega, delivered, reported⟩

/-- The byte that fills the buffer without completing the record makes it too long. -/
theorem asciiTooLong_tracks {workspace next : StreamFramingWorkspace} {seen : List UInt8}
    {frames : List (List UInt8)} {malformed : Nat} {byte : UInt8}
    (tracks : workspace.TracksCrlf seen frames malformed)
    (state : workspace.state = .collectAscii)
    (unfinished : ¬(1 ≤ workspace.bufferedSize ∧
      (workspace.appendByte byte).buffer[workspace.bufferedSize - 1]? = some 0x0D ∧
      byte = 0x0A))
    (full : workspace.bufferedSize + 1 = workspace.buffer.length)
    (same : next = { workspace.appendByte byte with
      totalDiscardedBytes := next.totalDiscardedBytes
      totalMalformedCandidates := next.totalMalformedCandidates
      previousWasCr := byte == 0x0D
      bufferedSize := 0
      state := .discardUntilCrlf }) :
    next.TracksCrlf (seen ++ [byte]) frames (malformed + 1) := by
  have inv := tracks.state
  simp only [StreamFramingWorkspace.StateTracksCrlf, state] at inv
  obtain ⟨unterminated, short, delivered, reported⟩ := inv
  have inside : workspace.bufferedSize < workspace.buffer.length := by omega
  have capacity := tracks.capacity
  have length : ((cutCrlf seen).2 ++ [byte]).length = workspace.framing.maximumFrameLength := by
    rw [unterminated, List.length_append, List.length_take, List.length_singleton]
    omega
  rw [collect_terminator inside, ← unterminated] at unfinished
  rw [same]
  refine ⟨tracks.strategy, tracks.minimum, (appendByte_length _ _).trans capacity, ?_⟩
  unfold StreamFramingWorkspace.StateTracksCrlf
  simp only [cutCrlf_continued unfinished]
  refine ⟨Nat.le_of_eq length.symm, ?_, ?_, delivered, congrArg (· + 1) reported⟩ <;> simp

/-- The byte that completes a record that is too long. -/
theorem discardTerminated_tracks {workspace next : StreamFramingWorkspace} {seen : List UInt8}
    {frames : List (List UInt8)} {malformed : Nat} {byte : UInt8}
    (tracks : workspace.TracksCrlf seen frames malformed)
    (state : workspace.state = .discardUntilCrlf)
    (terminated : workspace.previousWasCr = true ∧ byte = 0x0A)
    (same : next = { workspace with
      totalDiscardedBytes := next.totalDiscardedBytes
      previousWasCr := false
      state := .collectAscii }) :
    next.TracksCrlf (seen ++ [byte]) frames malformed := by
  have inv := tracks.state
  simp only [StreamFramingWorkspace.StateTracksCrlf, state] at inv
  obtain ⟨long, empty, lastWasCr, delivered, reported⟩ := inv
  have minimum := tracks.minimum
  have beyond : workspace.framing.maximumFrameLength < ((cutCrlf seen).2 ++ [byte]).length := by
    rw [List.length_append, List.length_singleton]
    omega
  rw [lastWasCr] at terminated
  rw [same]
  refine ⟨tracks.strategy, tracks.minimum, tracks.capacity, ?_⟩
  unfold StreamFramingWorkspace.StateTracksCrlf
  simp only [cutCrlf_terminated terminated]
  refine ⟨?_, ?_, ?_, ?_⟩
  · rw [empty, List.take_zero]
  · omega
  · rw [shortRecords_append, shortRecords_of_lt beyond, List.append_nil, delivered]
  · rw [longRecords_append, longRecords_of_lt beyond, reported]

/-- A byte inside a record that is too long. -/
theorem discardMore_tracks {workspace next : StreamFramingWorkspace} {seen : List UInt8}
    {frames : List (List UInt8)} {malformed : Nat} {byte : UInt8}
    (tracks : workspace.TracksCrlf seen frames malformed)
    (state : workspace.state = .discardUntilCrlf)
    (unfinished : ¬(workspace.previousWasCr = true ∧ byte = 0x0A))
    (same : next = { workspace with
      totalDiscardedBytes := next.totalDiscardedBytes
      previousWasCr := byte == 0x0D }) :
    next.TracksCrlf (seen ++ [byte]) frames malformed := by
  have inv := tracks.state
  simp only [StreamFramingWorkspace.StateTracksCrlf, state] at inv
  obtain ⟨long, empty, lastWasCr, delivered, reported⟩ := inv
  rw [lastWasCr] at unfinished
  rw [same]
  refine ⟨tracks.strategy, tracks.minimum, tracks.capacity, ?_⟩
  unfold StreamFramingWorkspace.StateTracksCrlf
  simp only [cutCrlf_continued unfinished, state]
  refine ⟨?_, empty, by simp, delivered, reported⟩
  rw [List.length_append]
  omega

/-- The delivered record is the next short one. -/
theorem deliver_tracksCrlf {workspace : StreamFramingWorkspace} {seen : List UInt8}
    {frames : List (List UInt8)} {malformed : Nat}
    (tracks : workspace.TracksCrlf seen frames malformed)
    (state : workspace.state = .deliverPending) :
    workspace.resetCandidate.TracksCrlf seen
      (frames ++ [workspace.buffer.take workspace.bufferedSize]) malformed := by
  have inv := tracks.state
  simp only [StreamFramingWorkspace.StateTracksCrlf, state] at inv
  obtain ⟨unterminated, short, delivered, reported⟩ := inv
  have minimum := tracks.minimum
  have strategy := tracks.strategy
  unfold StreamFramingWorkspace.resetCandidate
  simp only [strategy]
  refine ⟨strategy, minimum, tracks.capacity, ?_⟩
  unfold StreamFramingWorkspace.StateTracksCrlf
  simp only
  exact ⟨by rw [unterminated, List.take_zero], by omega, delivered.symm, reported⟩

/-! ### One call -/

/-- What holds between two rounds of a call of a CR LF profile, given what the stream
held and the host saw before the call. -/
structure CallTracksCrlf (input : List UInt8) (start : StreamFramingWorkspace)
    (seen : List UInt8) (frames : List (List UInt8)) (malformed : Nat) (push : PushState) :
    Prop where
  tracks : push.workspace.TracksCrlf (seen ++ input.take push.inputIndex)
    (frames ++ push.delivered) (malformed + push.result.malformedCandidates)
  bounded : push.inputIndex ≤ input.length
  consumed : push.result.bytesConsumed = push.inputIndex
  accounted : push.accounted = start.retainedBytes + push.inputIndex
  issue : push.result.lastFramingIssue =
    if push.result.malformedCandidates = 0 then .none else .recordTooLong

/-- The states of a CR LF profile. -/
theorem StreamFramingWorkspace.TracksCrlf.state_cases {workspace : StreamFramingWorkspace}
    {seen : List UInt8} {frames : List (List UInt8)} {malformed : Nat}
    (tracks : workspace.TracksCrlf seen frames malformed) :
    workspace.state = .collectAscii ∨ workspace.state = .discardUntilCrlf ∨
      workspace.state = .deliverPending := by
  have inv := tracks.state
  unfold StreamFramingWorkspace.StateTracksCrlf at inv
  cases state : workspace.state <;> simp [state] at inv ⊢

theorem take_byte {seen input : List UInt8} {index : Nat} {byte : UInt8}
    (read : input[index]? = some byte) :
    seen ++ input.take (index + 1) = seen ++ input.take index ++ [byte] := by
  rw [List.take_add_one, read, Option.toList_some, List.append_assoc]

/-- Every continuing round of a CR LF profile keeps the invariant. -/
theorem callTracksCrlf_next {input : List UInt8} {sink : FrameSinkFunction}
    {start : StreamFramingWorkspace} {seen : List UInt8} {frames : List (List UInt8)}
    {malformed : Nat} {push next : PushState}
    (call : CallTracksCrlf input start seen frames malformed push)
    (continues : Continues input sink push next) :
    CallTracksCrlf input start seen frames malformed next := by
  have tracks := call.tracks
  have bounded := call.bounded
  have consumed := call.consumed
  have accounted := call.accounted
  have states := tracks.state_cases
  have inv := tracks.state
  cases continues with
  | deliver state quota =>
    simp only [StreamFramingWorkspace.StateTracksCrlf, state] at inv
    have inside : push.workspace.bufferedSize ≤ push.workspace.buffer.length := by
      rw [tracks.capacity]
      exact inv.2.1
    refine ⟨?_, bounded, consumed, (deliver_accounted inside state).trans accounted, call.issue⟩
    have next := deliver_tracksCrlf tracks state
    rwa [List.append_assoc] at next
  | asciiTerminated byte state read affordable room terminated =>
    have inside := (List.getElem?_eq_some_iff.mp read).1
    refine ⟨?_, inside, congrArg (· + 1) consumed, ?_, call.issue⟩
    · change StreamFramingWorkspace.TracksCrlf _ (seen ++ input.take (push.inputIndex + 1)) _ _
      rw [take_byte read]
      exact asciiTerminated_tracks tracks state room terminated
    · simp only [PushState.accounted, PushState.withWorkspace, PushState.consume, PushState.spend,
        StreamFramingWorkspace.appendByte, StreamFramingWorkspace.retainedBytes,
        state] at accounted ⊢
      omega
  | asciiTooLong byte state read affordable unterminated full =>
    have inside := (List.getElem?_eq_some_iff.mp read).1
    refine ⟨?_, inside, congrArg (· + 1) consumed, ?_, ?_⟩
    · change StreamFramingWorkspace.TracksCrlf _ (seen ++ input.take (push.inputIndex + 1)) _ _
      rw [take_byte read]
      exact asciiTooLong_tracks tracks state unterminated full rfl
    · simp only [PushState.accounted, PushState.withWorkspace, PushState.consume, PushState.spend,
        PushState.recordDiscard, PushState.recordMalformed,
        StreamFramingWorkspace.appendByte, StreamFramingWorkspace.retainedBytes,
        state] at accounted ⊢
      omega
    · exact (if_neg (Nat.succ_ne_zero _)).symm
  | asciiMore byte state read affordable unterminated room =>
    have inside := (List.getElem?_eq_some_iff.mp read).1
    refine ⟨?_, inside, congrArg (· + 1) consumed, ?_, call.issue⟩
    · change StreamFramingWorkspace.TracksCrlf _ (seen ++ input.take (push.inputIndex + 1)) _ _
      rw [take_byte read]
      exact asciiMore_tracks tracks state unterminated room
    · simp only [PushState.accounted, PushState.withWorkspace, PushState.consume, PushState.spend,
        StreamFramingWorkspace.appendByte, StreamFramingWorkspace.retainedBytes,
        state] at accounted ⊢
      omega
  | discardTerminated byte state read affordable terminated =>
    have inside := (List.getElem?_eq_some_iff.mp read).1
    simp only [StreamFramingWorkspace.StateTracksCrlf, state] at inv
    refine ⟨?_, inside, congrArg (· + 1) consumed, ?_, call.issue⟩
    · change StreamFramingWorkspace.TracksCrlf _ (seen ++ input.take (push.inputIndex + 1)) _ _
      rw [take_byte read]
      exact discardTerminated_tracks tracks state terminated rfl
    · simp only [PushState.accounted, PushState.withWorkspace, PushState.consume, PushState.spend,
        PushState.recordDiscard, StreamFramingWorkspace.retainedBytes, state] at accounted ⊢
      omega
  | discardMore byte state read affordable unterminated =>
    have inside := (List.getElem?_eq_some_iff.mp read).1
    refine ⟨?_, inside, congrArg (· + 1) consumed, ?_, call.issue⟩
    · change StreamFramingWorkspace.TracksCrlf _ (seen ++ input.take (push.inputIndex + 1)) _ _
      rw [take_byte read]
      exact discardMore_tracks tracks state unterminated rfl
    · simp only [PushState.accounted, PushState.withWorkspace, PushState.consume, PushState.spend,
        PushState.recordDiscard, StreamFramingWorkspace.retainedBytes, state] at accounted ⊢
      omega
  | copyByte byte state => simp [state] at states
  | copyFixed state => simp [state] at states
  | copyLength state => simp [state] at states
  | rescanFound byte matched state => simp [state] at states
  | rescanMore byte matched state => simp [state] at states
  | rescanEnd state => simp [state] at states
  | compact chunk state => simp [state] at states
  | headerByte byte state => simp [state] at states
  | lengthMalformed declared state => simp [state] at states
  | lengthAdmitted declared state => simp [state] at states
  | collectDone state => rcases state with state | state <;> simp [state] at states
  | collectByte byte state => rcases state with state | state <;> simp [state] at states
  | searchFound byte matched state => simp [state] at states
  | searchMore byte matched state => simp [state] at states

/-- A call of a CR LF profile ends with the invariant. -/
theorem callTracksCrlf_stop {input : List UInt8} {sink : FrameSinkFunction}
    {start : StreamFramingWorkspace} {seen : List UInt8} {frames : List (List UInt8)}
    {malformed : Nat} {push final : PushState}
    (call : CallTracksCrlf input start seen frames malformed push)
    (stops : Stops input sink push final) :
    CallTracksCrlf input start seen frames malformed final := by
  cases stops with
  | quota state reached =>
    exact ⟨call.tracks, call.bounded, call.consumed, call.accounted, call.issue⟩
  | sinkStop state quota =>
    have continues : Continues input sink push _ := .deliver state quota
    have next := callTracksCrlf_next call continues
    exact ⟨next.tracks, next.bounded, next.consumed, next.accounted, next.issue⟩
  | inputEnd reason ended waiting needsInput =>
    exact ⟨call.tracks, call.bounded, call.consumed, call.accounted, call.issue⟩
  | budget amount waiting undelivered costs short =>
    exact ⟨call.tracks, call.bounded, call.consumed, call.accounted, call.issue⟩
  | compactPartial chunk state positive affordable part =>
    have states := call.tracks.state_cases
    simp [state] at states
  | internalError spent waiting full appends =>
    exact ⟨call.tracks, call.bounded, call.consumed, call.accounted, call.issue⟩

/-- A submission to a CR LF workspace, whatever its outcome, keeps the invariant. -/
theorem pushStreamChunk_tracksCrlf {plan : PlanBundle} {start : StreamFramingWorkspace}
    {pipelineIndex : Nat} {chunk : ByteView} {sink : FrameSink} {final : PushState}
    {seen : List UInt8} {frames : List (List UInt8)} {malformed : Nat}
    (tracks : start.TracksCrlf seen frames malformed)
    (pushed : pushStreamChunk plan start pipelineIndex chunk sink = some final) :
    CallTracksCrlf chunk.bytes start seen frames malformed final := by
  have begin : CallTracksCrlf chunk.bytes start seen frames malformed { workspace := start } :=
    ⟨by simpa using tracks, Nat.zero_le _, rfl, by simp [PushState.accounted], rfl⟩
  have refused : ∀ apiStatus,
      CallTracksCrlf chunk.bytes start seen frames malformed (.refuse start apiStatus) :=
    fun _ => ⟨begin.tracks, begin.bounded, begin.consumed, begin.accounted, begin.issue⟩
  obtain ⟨function⟩ := sink
  cases function with
  | none =>
    obtain rfl : PushState.refuse start .invalidArgument = final := Option.some.inj pushed
    exact refused _
  | some function =>
    rcases pushStreamChunk_cases pushed with ⟨apiStatus, -, rfl⟩ | run
    · exact refused _
    · obtain ⟨last, call, stops⟩ := pushLoop_preserves
        (CallTracksCrlf chunk.bytes start seen frames malformed)
        (fun push next call continues => callTracksCrlf_next call continues) _ _ _ begin run
      exact callTracksCrlf_stop call stops

/-! ### Runs -/

/-- What holds after every call of a run of a CR LF profile. -/
structure FeedTracksCrlf (stream : List UInt8) (initial : StreamFramingWorkspace)
    (run : FeedState) : Prop where
  tracks : run.workspace.TracksCrlf (stream.take run.consumed) run.frames run.malformed
  bounded : run.consumed ≤ stream.length
  accounted : (run.frames.map List.length).sum + run.discarded + run.workspace.retainedBytes =
    initial.retainedBytes + run.consumed
  issue : ∀ result ∈ run.results,
    result.lastFramingIssue = if result.malformedCandidates = 0 then .none else .recordTooLong

/-- Every run of a CR LF profile keeps the invariant. -/
theorem feed_tracksCrlf {plan : PlanBundle} {pipelineIndex : Nat} {stream : List UInt8}
    {initial : StreamFramingWorkspace} {run : FeedState} (tracks : initial.TracksCrlf [] [] 0)
    (fed : Feed plan pipelineIndex stream initial run) : FeedTracksCrlf stream initial run := by
  induction fed with
  | start =>
    exact ⟨by simpa [FeedState.consumed, FeedState.malformed] using tracks, Nat.zero_le _,
      by simp [FeedState.discarded, FeedState.consumed], by simp⟩
  | @submit run fed chunk sink final resubmitted pushed inductionHypothesis =>
    have call := pushStreamChunk_tracksCrlf inductionHypothesis.tracks pushed
    have available := resubmitted.length_le
    rw [List.length_drop] at available
    have consumed := call.consumed
    have bounded := call.bounded
    have balance := inductionHypothesis.accounted
    have callBalance := call.accounted
    have inside := inductionHypothesis.bounded
    refine ⟨?_, ?_, ?_, ?_⟩
    · rw [consumed_after, malformed_after, consumed, take_consumed_append resubmitted bounded]
      exact call.tracks
    · rw [consumed_after]
      omega
    · rw [consumed_after, discarded_after]
      unfold PushState.accounted at callBalance
      simp only [FeedState.after, List.map_append, List.sum_append]
      omega
    · intro result member
      rcases List.mem_append.mp member with earlier | last
      · exact inductionHypothesis.issue result earlier
      · rw [List.mem_singleton.mp last]
        exact call.issue

/-- The delivered frames are a prefix of the short records of the consumed bytes, all
of them when no frame is pending, and every long record is reported once, as soon as
it exceeds the limit. -/
theorem FeedTracksCrlf.frames {stream : List UInt8} {initial : StreamFramingWorkspace}
    {run : FeedState} (invariant : FeedTracksCrlf stream initial run) :
    let maximum := run.workspace.framing.maximumFrameLength
    let cut := cutCrlf (stream.take run.consumed)
    run.frames <+: shortRecords maximum cut.1 ∧
      (run.workspace.hasInternalWork = false → run.frames = shortRecords maximum cut.1) ∧
      run.malformed = longRecords maximum cut.1 + if maximum ≤ cut.2.length then 1 else 0 := by
  have tracks := invariant.tracks
  have inv := tracks.state
  have minimum := tracks.minimum
  have capacity := tracks.capacity
  rcases tracks.state_cases with state | state | state <;>
    simp only [StreamFramingWorkspace.StateTracksCrlf, state] at inv <;>
    simp only [StreamFramingWorkspace.hasInternalWork, state]
  · obtain ⟨unterminated, short, delivered, reported⟩ := inv
    refine ⟨by rw [delivered], fun _ => delivered, ?_⟩
    rw [if_neg (by rw [unterminated, List.length_take]; omega), Nat.add_zero]
    exact reported
  · obtain ⟨long, -, -, delivered, reported⟩ := inv
    exact ⟨by rw [delivered], fun _ => delivered, by rw [if_pos long]; exact reported⟩
  · obtain ⟨unterminated, short, delivered, reported⟩ := inv
    refine ⟨by rw [delivered]; exact List.prefix_append _ _, by simp, ?_⟩
    rw [unterminated, List.length_nil, if_neg (by omega), Nat.add_zero]
    exact reported

/-- A fresh workspace of a CR LF profile has seen nothing. -/
theorem fresh_tracksCrlf (plan : PlanBundle) (pipelineIndex : Nat) (framing : FrozenFramingPlan)
    (limits : EffectiveLimits) (strategy : framing.strategy = .asciiCrlf)
    (minimum : 2 ≤ framing.maximumFrameLength) :
    (StreamFramingWorkspace.fresh plan pipelineIndex framing limits).TracksCrlf [] [] 0 ∧
      (StreamFramingWorkspace.fresh plan pipelineIndex framing limits).framing = framing := by
  unfold StreamFramingWorkspace.fresh StreamFramingWorkspace.resetCandidate
  simp only [strategy]
  refine ⟨⟨strategy, minimum, by simp [frameCapacity, strategy], ?_⟩, trivial⟩
  exact ⟨rfl, by simp only; omega, rfl, rfl⟩

/-- Feeding a stream to a fresh workspace of a CR LF profile delivers the records that
fit the limit and reports each of the others once, whatever the chunks, the sinks, the
budget and the quota. -/
theorem feed_crlf_eq_cutCrlf {plan : PlanBundle} {pipelineIndex : Nat}
    {framing : FrozenFramingPlan} {overrides : FramingLimitOverrides} {allocated : Bool}
    {initial : StreamFramingWorkspace} {stream : List UInt8} {run : FeedState}
    (bound : streamFraming plan pipelineIndex = some framing)
    (strategy : framing.strategy = .asciiCrlf) (minimum : 2 ≤ framing.maximumFrameLength)
    (created : (createStreamFramingWorkspace plan pipelineIndex overrides allocated).workspace =
      some initial)
    (fed : Feed plan pipelineIndex stream initial run) :
    let maximum := framing.maximumFrameLength
    let cut := cutCrlf (stream.take run.consumed)
    run.frames <+: shortRecords maximum cut.1 ∧
      (run.workspace.hasInternalWork = false → run.frames = shortRecords maximum cut.1) ∧
      run.malformed = longRecords maximum cut.1 + (if maximum ≤ cut.2.length then 1 else 0) ∧
      (∀ result ∈ run.results, result.lastFramingIssue =
        if result.malformedCandidates = 0 then .none else .recordTooLong) ∧
      ∀ chunk sink,
        (pushStreamChunk plan run.workspace pipelineIndex chunk sink).isSome = true := by
  obtain ⟨-, profile, limits, framed, -, -, -, rfl⟩ :=
    createStreamFramingWorkspace_workspace created
  obtain rfl : profile = framing := Option.some.inj (framed.symm.trans bound)
  obtain ⟨tracks, sameFraming⟩ :=
    fresh_tracksCrlf plan pipelineIndex profile limits strategy minimum
  have invariant := feed_tracksCrlf tracks fed
  have kept : run.workspace.framing = profile := (feed_binding fed).framing.trans sameFraming
  obtain ⟨delivered, complete, reported⟩ := invariant.frames
  rw [kept] at delivered complete reported
  exact ⟨delivered, complete, reported, invariant.issue,
    fun chunk sink => pushStreamChunk_isSome plan run.workspace pipelineIndex chunk sink⟩

/-! ### An example -/

/-- A plan with one CR LF pipeline for records of at most four bytes. -/
def crlfExamplePlan : PlanBundle where
  address := 1
  schemaVersion := "0.11"
  protocolId := "lines"
  protocolVersion := "1"
  resourceProfile := .constrained
  resourceRequirements := {}
  framingProfiles := [{
    id := "line"
    inputKind := .streamChunk
    strategy := .asciiCrlf
    syncBytes := [0x0D, 0x0A]
    syncPrefixTable := [0, 0]
    maximumFrameLength := 4 }]
  pipelines := [{ id := "lines", directionId := "rx" }]
  messages := []
  conversions := []
  executionResourceLayout := {}
  messageExecutionPlans := []
  pipelineExecutionPlans := []
  memoryReport := {}

/-- The workspace of the example, with a budget of forty work units. -/
def crlfExampleWorkspace : StreamFramingWorkspace :=
  .fresh crlfExamplePlan 0 (crlfExamplePlan.framingProfiles.headD {})
    { maxSubmit := 64, maxFrames := 2, maxWork := 40, maxSync := 8, maxSession := 131072 }

/-- A record of four bytes and one of six, with a run of CR before its terminator. -/
def crlfExampleStream : List UInt8 :=
  [0x41, 0x42, 0x0D, 0x0A, 0x43, 0x44, 0x0D, 0x0D, 0x0D, 0x0A]

/-- The call that submits the whole example. -/
def crlfExampleCall : PushState where
  workspace := { crlfExampleWorkspace with
    buffer := [0x43, 0x44, 0x0D, 0x0D]
    totalDiscardedBytes := 6
    totalMalformedCandidates := 1 }
  result := {
    bytesConsumed := 10
    framesDelivered := 1
    bytesDiscarded := 6
    malformedCandidates := 1
    lastFramingIssue := .recordTooLong
    workUnitsUsed := 20 }
  inputIndex := 10
  delivered := [[0x41, 0x42, 0x0D, 0x0A]]

theorem feed_crlf_eq_cutCrlf_example :
    let run := FeedState.after { workspace := crlfExampleWorkspace } crlfExampleCall
    let cut := cutCrlf (crlfExampleStream.take run.consumed)
    run.frames = shortRecords 4 cut.1 ∧ run.malformed = longRecords 4 cut.1 + 0 := by
  have created : (createStreamFramingWorkspace crlfExamplePlan 0
      { maxSubmitBytes := 64, maxFramesPerSubmit := 2, maxWorkUnits := 40 } true).workspace =
        some crlfExampleWorkspace := by decide
  have pushed : pushStreamChunk crlfExamplePlan crlfExampleWorkspace 0
      { data := some 1, bytes := crlfExampleStream } { function := some fun _ _ => .continue } =
        some crlfExampleCall := rfl
  have fed : Feed crlfExamplePlan 0 crlfExampleStream crlfExampleWorkspace
      (FeedState.after { workspace := crlfExampleWorkspace } crlfExampleCall) :=
    .submit .start _ _ _ (List.prefix_rfl) pushed
  have bound : streamFraming crlfExamplePlan 0 =
      some (crlfExamplePlan.framingProfiles.headD {}) := rfl
  obtain ⟨-, complete, reported, -, -⟩ := feed_crlf_eq_cutCrlf bound rfl (by decide) created fed
  exact ⟨complete rfl, reported⟩

end ProtocolAdapter.Framing
