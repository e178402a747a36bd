/-
This file shows that a workspace forgets. Two workspaces that hold the same candidate
answer every submission alike, whatever lies behind the candidate in their buffers and
whatever they have counted so far. A reset drops the candidate, so a workspace that was
reset answers like the one that was created.
-/

import ProtocolAdapter.Framing.Delivery

namespace ProtocolAdapter.Framing

open Foundation

/-! ### Workspaces that hold the same candidate -/

/-- Two workspaces with the same progress and the same candidate. They may differ in the
statistics and in the bytes behind the candidate. -/
def StreamFramingWorkspace.Alike (workspace twin : StreamFramingWorkspace) : Prop :=
  ∃ buffer discarded malformed, buffer.length = workspace.buffer.length ∧
    buffer.take workspace.bufferedSize = workspace.buffer.take workspace.bufferedSize ∧
    (workspace.state = .compactInvalid →
      workspace.compactStart + workspace.compactSize ≤ workspace.bufferedSize) ∧
    twin = { workspace with
      buffer := buffer
      totalDiscardedBytes := discarded
      totalMalformedCandidates := malformed }

/-- Two submissions at the same point, on workspaces with the same candidate. -/
def PushState.Alike (push other : PushState) : Prop :=
  ∃ workspace, push.workspace.Alike workspace ∧ other = { push with workspace := workspace }

/-- Two rounds that both continue or both end the call, alike. -/
inductive Round.Alike : Round → Round → Prop
  | continue {next other : PushState} (alike : next.Alike other) :
      Alike (.continue next) (.continue other)
  | stop {final other : PushState} (alike : final.Alike other) :
      Alike (.stop final) (.stop other)

section

variable {left right : List UInt8} {count : Nat}

theorem getElem?_of_take (held : left.take count = right.take count) {index : Nat}
    (inside : index < count) : left[index]? = right[index]? := by
  have same : (left.take count)[index]? = (right.take count)[index]? := by rw [held]
  rwa [List.getElem?_take_of_lt inside, List.getElem?_take_of_lt inside] at same

theorem take_of_getElem? (same : ∀ index < count, left[index]? = right[index]?) :
    left.take count = right.take count := by
  refine List.ext_getElem? fun index => ?_
  rw [List.getElem?_take, List.getElem?_take]
  split
  · rename_i inside
    exact same index inside
  · rfl

theorem getD_of_take (held : left.take count = right.take count) {index : Nat}
    (inside : index < count) : left.getD index 0 = right.getD index 0 := by
  rw [List.getD_eq_getElem?_getD, List.getD_eq_getElem?_getD, getElem?_of_take held inside]

theorem take_of_take (held : left.take count = right.take count) {fewer : Nat}
    (le : fewer ≤ count) : left.take fewer = right.take fewer :=
  take_of_getElem? fun _ inside => getElem?_of_take held (Nat.lt_of_lt_of_le inside le)

theorem take_set_succ (length : left.length = right.length)
    (held : left.take count = right.take count) (byte : UInt8) :
    (left.set count byte).take (count + 1) = (right.set count byte).take (count + 1) := by
  refine take_of_getElem? fun index inside => ?_
  rw [List.getElem?_set, List.getElem?_set, length]
  split
  · rfl
  · exact getElem?_of_take held (by omega)

theorem take_moveBytes (length : left.length = right.length)
    (held : left.take count = right.take count) {destination source amount : Nat}
    (inside : source + amount ≤ count) :
    (moveBytes left destination source amount).take count =
      (moveBytes right destination source amount).take count := by
  refine take_of_getElem? fun index within => ?_
  unfold moveBytes
  rw [List.getElem?_append, List.getElem?_append, List.getElem?_append, List.getElem?_append]
  simp only [List.length_append, List.length_take, List.length_drop, length]
  split
  · split
    · rw [List.getElem?_take, List.getElem?_take]
      split
      · exact getElem?_of_take held within
      · rfl
    · rw [List.getElem?_take, List.getElem?_take, List.getElem?_drop, List.getElem?_drop]
      split
      · exact getElem?_of_take held (by omega)
      · rfl
  · rw [List.getElem?_drop, List.getElem?_drop]
    by_cases short : index < left.length
    · exact getElem?_of_take held (by omega)
    · rw [List.getElem?_eq_none (by omega), List.getElem?_eq_none (by omega)]

end

/-! ### What such submissions share -/

section

variable {input : List UInt8} {sink : FrameSinkFunction} {push other : PushState}

theorem PushState.Alike.refl (push : PushState)
    (compacts : push.workspace.state = .compactInvalid →
      push.workspace.compactStart + push.workspace.compactSize ≤ push.workspace.bufferedSize) :
    push.Alike push :=
  ⟨_, ⟨_, _, _, rfl, rfl, compacts, rfl⟩, rfl⟩

/-- The same change of the results keeps two submissions alike. -/
theorem PushState.Alike.withResult (alike : push.Alike other)
    (change : SubmitResult → SubmitResult) :
    { push with result := change push.result }.Alike
      { other with result := change other.result } := by
  obtain ⟨workspace, same, rfl⟩ := alike
  exact ⟨workspace, same, rfl⟩

theorem PushState.Alike.withWorkspace (alike : push.Alike other)
    {workspace twin : StreamFramingWorkspace} (same : workspace.Alike twin) :
    (push.withWorkspace workspace).Alike (other.withWorkspace twin) := by
  obtain ⟨_, _, rfl⟩ := alike
  exact ⟨twin, same, rfl⟩

theorem PushState.Alike.workspace (alike : push.Alike other) :
    push.workspace.Alike other.workspace := by
  obtain ⟨workspace, same, rfl⟩ := alike
  exact same

theorem PushState.Alike.inputIndex (alike : push.Alike other) :
    other.inputIndex = push.inputIndex := by
  obtain ⟨_, _, rfl⟩ := alike
  rfl

theorem PushState.Alike.result (alike : push.Alike other) : other.result = push.result := by
  obtain ⟨_, _, rfl⟩ := alike
  rfl

theorem PushState.Alike.consume (alike : push.Alike other) :
    push.consume.Alike other.consume := by
  obtain ⟨workspace, same, rfl⟩ := alike
  exact ⟨workspace, same, rfl⟩

theorem PushState.Alike.recordDiscard (alike : push.Alike other) (amount : Nat) :
    (push.recordDiscard amount).Alike (other.recordDiscard amount) := by
  obtain ⟨_, ⟨_, _, _, length, held, compacts, rfl⟩, rfl⟩ := alike
  exact ⟨_, ⟨_, _, _, length, held, compacts, rfl⟩, rfl⟩

theorem PushState.Alike.recordMalformed (alike : push.Alike other) (issue : FramingIssue) :
    (push.recordMalformed issue).Alike (other.recordMalformed issue) := by
  obtain ⟨_, ⟨_, _, _, length, held, compacts, rfl⟩, rfl⟩ := alike
  exact ⟨_, ⟨_, _, _, length, held, compacts, rfl⟩, rfl⟩

/-- Both submissions can afford an amount, or neither can. -/
theorem PushState.Alike.charge (alike : push.Alike other) (amount : Nat) :
    (push.charge amount = none ∧ other.charge amount = none) ∨
      push.charge amount = some (push.spend amount) ∧
        other.charge amount = some (other.spend amount) ∧
          (push.spend amount).Alike (other.spend amount) := by
  obtain ⟨_, ⟨_, _, _, length, held, compacts, rfl⟩, rfl⟩ := alike
  unfold PushState.charge
  by_cases exhausted : amount > push.workspace.maxWorkUnits - push.result.workUnitsUsed
  · exact .inl ⟨if_pos exhausted, if_pos exhausted⟩
  · exact .inr ⟨if_neg exhausted, if_neg exhausted, _, ⟨_, _, _, length, held, compacts, rfl⟩, rfl⟩

theorem PushState.Alike.budgetStop (alike : push.Alike other) :
    Round.Alike push.budgetStop other.budgetStop :=
  .stop (alike.withResult fun result => { result with stopReason := .workBudgetReached })

theorem PushState.Alike.internalError (alike : push.Alike other) :
    Round.Alike push.internalError other.internalError :=
  .stop (alike.withResult fun result => { result with apiStatus := .internalError })

theorem PushState.Alike.inputEnd (alike : push.Alike other) :
    Round.Alike push.inputEnd other.inputEnd := by
  obtain ⟨_, ⟨_, _, _, length, held, compacts, rfl⟩, rfl⟩ := alike
  exact .stop ⟨_, ⟨_, _, _, length, held, compacts, rfl⟩, rfl⟩

theorem PushState.Alike.bufferFull (alike : push.Alike other) :
    other.workspace.bufferFull = push.workspace.bufferFull := by
  obtain ⟨_, ⟨_, _, _, length, held, compacts, rfl⟩, rfl⟩ := alike
  simp only [StreamFramingWorkspace.bufferFull, length]

/-- Appending the same byte keeps the candidates the same. -/
theorem StreamFramingWorkspace.Alike.appendByte {workspace twin : StreamFramingWorkspace}
    (alike : workspace.Alike twin) (state : workspace.state ≠ .compactInvalid) (byte : UInt8) :
    (workspace.appendByte byte).Alike (twin.appendByte byte) := by
  obtain ⟨buffer, discarded, malformed, length, held, compacts, rfl⟩ := alike
  refine ⟨_, discarded, malformed, ?_, take_set_succ length held byte,
    fun same => absurd same state, rfl⟩
  simp only [StreamFramingWorkspace.appendByte, List.length_set, length]

theorem StreamFramingWorkspace.Alike.resetCandidate {workspace twin : StreamFramingWorkspace}
    (alike : workspace.Alike twin) : workspace.resetCandidate.Alike twin.resetCandidate := by
  obtain ⟨buffer, discarded, malformed, length, held, compacts, rfl⟩ := alike
  unfold StreamFramingWorkspace.resetCandidate
  cases workspace.framing.strategy <;>
    exact ⟨buffer, discarded, malformed, length, by simp, by simp, rfl⟩

/-! ### One round -/

theorem PushState.Alike.deliver (alike : push.Alike other) :
    (push.deliver sink).1 = (other.deliver sink).1 ∧
      (push.deliver sink).2.Alike (other.deliver sink).2 := by
  obtain ⟨_, same, rfl⟩ := alike
  have reset := same.resetCandidate
  obtain ⟨buffer, discarded, malformed, length, held, compacts, rfl⟩ := same
  simp only [PushState.deliver, held]
  exact ⟨True.intro, _, reset, rfl⟩

theorem deliverPendingRound_alike (alike : push.Alike other) :
    (deliverPendingRound sink push).Alike (deliverPendingRound sink other) := by
  obtain ⟨answer, next⟩ := @PushState.Alike.deliver sink push other alike
  have quota : other.workspace.maxFramesPerSubmit = push.workspace.maxFramesPerSubmit := by
    obtain ⟨_, ⟨_, _, _, length, held, compacts, rfl⟩, rfl⟩ := alike
    rfl
  unfold deliverPendingRound
  rw [alike.result, quota]
  split
  · exact alike.budgetStop
  · simp only [answer]
    split
    · exact .stop (next.withResult fun result => { result with stopReason := .sinkStop })
    · exact .continue next

theorem collectAsciiRound_alike (alike : push.Alike other)
    (state : push.workspace.state = .collectAscii) :
    (collectAsciiRound input push).Alike (collectAsciiRound input other) := by
  unfold collectAsciiRound
  rw [alike.inputIndex]
  cases input[push.inputIndex]? with
  | none => exact alike.inputEnd
  | some byte =>
    rcases alike.charge 2 with ⟨none, otherNone⟩ | ⟨charged, otherCharged, same⟩
    · simp only [none, otherNone]
      exact alike.budgetStop
    · simp only [charged, otherCharged, same.bufferFull]
      split
      · exact same.internalError
      · have consumed := same.consume
        obtain ⟨buffer, discarded, malformed, length, held, compacts, equal⟩ :=
          consumed.workspace.appendByte (by simp [PushState.consume, PushState.spend, state]) byte
        have appended : StreamFramingWorkspace.Alike _ _ :=
          ⟨buffer, discarded, malformed, length, held, compacts, rfl⟩
        simp only [equal, length]
        generalize (push.spend 2).consume.workspace.appendByte byte = workspace at *
        have terminated : (decide (workspace.bufferedSize ≥ 2) &&
            buffer[workspace.bufferedSize - 2]? == some 0x0D && byte == 0x0A) =
            (decide (workspace.bufferedSize ≥ 2) &&
              workspace.buffer[workspace.bufferedSize - 2]? == some 0x0D && byte == 0x0A) := by
          by_cases short : workspace.bufferedSize ≥ 2
          · rw [getElem?_of_take held (by omega)]
          · simp [short]
        rw [terminated]
        split
        · exact .continue (consumed.withWorkspace
            ⟨buffer, discarded, malformed, length, held, by simp, rfl⟩)
        split
        · have recorded := ((consumed.withWorkspace appended).recordMalformed
            .recordTooLong).recordDiscard workspace.bufferedSize
          refine .continue (recorded.withWorkspace ?_)
          obtain ⟨_, _, _, length, held, compacts, equal⟩ := recorded.workspace
          rw [equal]
          exact ⟨_, _, _, length, by simp, by simp, rfl⟩
        · exact .continue (consumed.withWorkspace appended)

theorem discardUntilCrlfRound_alike (alike : push.Alike other)
    (state : push.workspace.state = .discardUntilCrlf) :
    (discardUntilCrlfRound input push).Alike (discardUntilCrlfRound input other) := by
  unfold discardUntilCrlfRound
  rw [alike.inputIndex]
  cases input[push.inputIndex]? with
  | none => exact alike.inputEnd
  | some byte =>
    rcases alike.charge 2 with ⟨none, otherNone⟩ | ⟨charged, otherCharged, same⟩
    · simp only [none, otherNone]
      exact alike.budgetStop
    · simp only [charged, otherCharged]
      have recorded := same.consume.recordDiscard 1
      obtain ⟨_, _, _, length, held, compacts, equal⟩ := recorded.workspace
      have unchanged : ((push.spend 2).consume.recordDiscard 1).workspace.state =
          .discardUntilCrlf := state
      simp only [equal]
      split
      · exact .continue (recorded.withWorkspace ⟨_, _, _, length, held, by simp, rfl⟩)
      · exact .continue (recorded.withWorkspace ⟨_, _, _, length, held, by simp [unchanged], rfl⟩)

theorem copySyncRound_alike (alike : push.Alike other)
    (state : push.workspace.state = .copySync) :
    (copySyncRound push).Alike (copySyncRound other) := by
  obtain ⟨_, _, _, length, held, compacts, equal⟩ := alike.workspace
  unfold copySyncRound
  simp only [equal]
  split
  · rename_i byte next
    rcases alike.charge 1 with ⟨none, otherNone⟩ | ⟨charged, otherCharged, same⟩
    · simp only [none, otherNone]
      exact alike.budgetStop
    · simp only [charged, otherCharged, same.bufferFull]
      split
      · exact same.internalError
      · refine .continue (same.withWorkspace ?_)
        obtain ⟨_, _, _, length, held, compacts, equal⟩ :=
          same.workspace.appendByte (by simp [PushState.spend, state]) byte
        rw [equal]
        exact ⟨_, _, _, length, held, compacts, rfl⟩
  · split
    · refine .continue (alike.withWorkspace ⟨_, _, _, length, held, fun same => ?_, rfl⟩)
      revert same
      simp only
      split <;> simp
    · exact .continue (alike.withWorkspace ⟨_, _, _, length, held, by simp, rfl⟩)

theorem rescanInvalidRound_alike (alike : push.Alike other)
    (state : push.workspace.state = .rescanInvalid) :
    (rescanInvalidRound push).Alike (rescanInvalidRound other) := by
  obtain ⟨buffer, discarded, malformed, length, held, compacts, equal⟩ := alike.workspace
  unfold rescanInvalidRound
  simp only [equal]
  split
  · rename_i inside
    rw [getD_of_take held inside]
    rcases alike.charge (scanUnits push.workspace.framing push.workspace.rescanMatch
      (push.workspace.buffer.getD push.workspace.rescanIndex 0)) with
      ⟨none, otherNone⟩ | ⟨charged, otherCharged, same⟩
    · simp only [none, otherNone]
      exact alike.budgetStop
    · simp only [charged, otherCharged]
      split
      · refine .continue (same.withWorkspace ⟨_, _, _, length, held, fun _ => ?_, rfl⟩)
        simp only
        omega
      · exact .continue (same.withWorkspace ⟨_, _, _, length, held, by simp [state], rfl⟩)
  · have recorded := alike.recordDiscard (push.workspace.bufferedSize - push.workspace.rescanMatch)
    refine .continue (recorded.withWorkspace ?_)
    obtain ⟨_, _, _, length, held, compacts, equal⟩ := recorded.workspace
    rw [equal]
    exact ⟨_, _, _, length, by simp, by simp, rfl⟩

/-- The same move inside the candidate keeps the candidates the same. -/
theorem StreamFramingWorkspace.Alike.move {workspace twin : StreamFramingWorkspace}
    (alike : workspace.Alike twin) {chunk : Nat}
    (inside : workspace.compactStart + workspace.compactMoved + chunk ≤ workspace.bufferedSize) :
    StreamFramingWorkspace.Alike
      { workspace with
        buffer := moveBytes workspace.buffer workspace.compactMoved
          (workspace.compactStart + workspace.compactMoved) chunk
        compactMoved := workspace.compactMoved + chunk }
      { twin with
        buffer := moveBytes twin.buffer twin.compactMoved
          (twin.compactStart + twin.compactMoved) chunk
        compactMoved := twin.compactMoved + chunk } := by
  obtain ⟨buffer, discarded, malformed, length, held, compacts, rfl⟩ := alike
  refine ⟨_, discarded, malformed, ?_, take_moveBytes length held inside, compacts, rfl⟩
  simp only [moveBytes, List.length_append, List.length_take, List.length_drop, length]

theorem finishCompact_alike (alike : push.Alike other)
    (inside : push.workspace.compactSize ≤ push.workspace.bufferedSize) :
    (finishCompact push).Alike (finishCompact other) := by
  obtain ⟨_, _, _, -, -, -, equal⟩ := alike.workspace
  have start : other.workspace.compactStart = push.workspace.compactStart := by rw [equal]
  have recorded := alike.recordDiscard push.workspace.compactStart
  unfold finishCompact
  rw [start]
  refine .continue (recorded.withWorkspace ?_)
  obtain ⟨_, _, _, length, held, compacts, equal⟩ := recorded.workspace
  rw [equal]
  exact ⟨_, _, _, length, take_of_take held inside, by simp, rfl⟩

theorem endCompact_alike (alike : push.Alike other)
    (inside : push.workspace.compactSize ≤ push.workspace.bufferedSize) :
    Round.Alike
      (if push.workspace.compactMoved ≠ push.workspace.compactSize then push.budgetStop
        else finishCompact push)
      (if other.workspace.compactMoved ≠ other.workspace.compactSize then other.budgetStop
        else finishCompact other) := by
  obtain ⟨_, _, _, -, -, -, equal⟩ := alike.workspace
  have moved : other.workspace.compactMoved = push.workspace.compactMoved := by rw [equal]
  have size : other.workspace.compactSize = push.workspace.compactSize := by rw [equal]
  rw [moved, size]
  split
  · exact alike.budgetStop
  · exact finishCompact_alike alike inside

theorem compactInvalidRound_alike (alike : push.Alike other)
    (state : push.workspace.state = .compactInvalid) :
    (compactInvalidRound push).Alike (compactInvalidRound other) := by
  obtain ⟨buffer, discarded, malformed, length, held, compacts, equal⟩ := alike.workspace
  have inside := compacts state
  unfold compactInvalidRound
  simp only [equal, alike.result]
  split
  · split
    · exact alike.budgetStop
    · rename_i amount
      rcases alike.charge (min (push.workspace.compactSize - push.workspace.compactMoved)
        (push.workspace.maxWorkUnits - push.result.workUnitsUsed)) with
        ⟨none, otherNone⟩ | ⟨charged, otherCharged, same⟩
      · simp only [none, otherNone]
        exact alike.budgetStop
      · simp only [charged, otherCharged]
        have moved := same.withWorkspace (alike.workspace.move (show
          push.workspace.compactStart + push.workspace.compactMoved +
            min (push.workspace.compactSize - push.workspace.compactMoved)
              (push.workspace.maxWorkUnits - push.result.workUnitsUsed) ≤
                push.workspace.bufferedSize by omega))
        simp only [equal] at moved
        refine endCompact_alike moved ?_
        show push.workspace.compactSize ≤ push.workspace.bufferedSize
        omega
  · exact finishCompact_alike alike (by omega)

theorem readDeclared_congr {framing : FrozenFramingPlan} {left right : List UInt8} {count : Nat}
    (held : left.take count = right.take count)
    (inside : framing.lengthFieldOffset + framing.lengthFieldWidth ≤ count) :
    readDeclared framing left = readDeclared framing right := by
  unfold readDeclared
  refine List.foldl_ext _ _ _ fun declared index member => ?_
  have within := List.mem_range.mp member
  simp only
  rw [getD_of_take held (by split <;> omega)]

theorem readLengthRound_alike (alike : push.Alike other)
    (state : push.workspace.state = .readLength) :
    (readLengthRound input push).Alike (readLengthRound input other) := by
  obtain ⟨buffer, discarded, malformed, length, held, compacts, equal⟩ := alike.workspace
  unfold readLengthRound
  simp only [equal, alike.inputIndex]
  split
  · cases input[push.inputIndex]? with
    | none => exact alike.inputEnd
    | some byte =>
      rcases alike.charge 2 with ⟨none, otherNone⟩ | ⟨charged, otherCharged, same⟩
      · simp only [none, otherNone]
        exact alike.budgetStop
      · simp only [charged, otherCharged, same.bufferFull]
        split
        · exact same.internalError
        · exact .continue (same.consume.withWorkspace
            (same.workspace.appendByte (by simp [PushState.spend, state]) byte))
  · rename_i header
    rcases alike.charge push.workspace.framing.lengthFieldWidth with
      ⟨none, otherNone⟩ | ⟨charged, otherCharged, same⟩
    · simp only [none, otherNone]
      exact alike.budgetStop
    · simp only [charged, otherCharged]
      obtain ⟨buffer, discarded, malformed, length, held, compacts, equal⟩ := same.workspace
      have inside : push.workspace.framing.lengthFieldOffset +
          push.workspace.framing.lengthFieldWidth ≤ push.workspace.bufferedSize := by omega
      simp only [equal, length, readDeclared_congr held inside]
      split
      · have recorded := same.recordMalformed .malformedLength
        refine .continue (recorded.withWorkspace ?_)
        obtain ⟨_, _, _, length, held, compacts, equal⟩ := recorded.workspace
        rw [equal]
        exact ⟨_, _, _, length, held, by simp, rfl⟩
      · refine .continue (same.withWorkspace ⟨_, _, _, length, held, fun state => ?_, rfl⟩)
        revert state
        simp only
        split <;> simp

theorem collectRound_alike (alike : push.Alike other)
    (state : push.workspace.state = .collectFixed ∨ push.workspace.state = .collectDeclared) :
    (collectRound input push).Alike (collectRound input other) := by
  obtain ⟨buffer, discarded, malformed, length, held, compacts, equal⟩ := alike.workspace
  unfold collectRound
  simp only [equal, alike.inputIndex]
  split
  · exact .continue (alike.withWorkspace ⟨_, _, _, length, held, by simp, rfl⟩)
  · cases input[push.inputIndex]? with
    | none => exact alike.inputEnd
    | some byte =>
      rcases alike.charge 2 with ⟨none, otherNone⟩ | ⟨charged, otherCharged, same⟩
      · simp only [none, otherNone]
        exact alike.budgetStop
      · simp only [charged, otherCharged, same.bufferFull]
        split
        · exact same.internalError
        · refine .continue (same.consume.withWorkspace (same.workspace.appendByte ?_ byte))
          rcases state with state | state <;> simp [PushState.spend, state]

theorem StreamFramingWorkspace.Alike.search {workspace twin : StreamFramingWorkspace}
    (alike : workspace.Alike twin) (state : workspace.state = .searchSync) (matched : Nat) :
    StreamFramingWorkspace.Alike { workspace with syncMatch := matched }
      { twin with syncMatch := matched } := by
  obtain ⟨buffer, discarded, malformed, length, held, compacts, rfl⟩ := alike
  exact ⟨buffer, discarded, malformed, length, held, by simp [state], rfl⟩

theorem searchSyncRound_alike (alike : push.Alike other)
    (state : push.workspace.state = .searchSync) :
    (searchSyncRound input push).Alike (searchSyncRound input other) := by
  obtain ⟨buffer, discarded, malformed, length, held, compacts, equal⟩ := alike.workspace
  unfold searchSyncRound
  simp only [equal, alike.inputIndex]
  cases input[push.inputIndex]? with
  | none => exact alike.inputEnd
  | some byte =>
    rcases alike.charge (scanUnits push.workspace.framing push.workspace.syncMatch byte) with
      ⟨none, otherNone⟩ | ⟨charged, otherCharged, same⟩
    · simp only [none, otherNone]
      exact alike.budgetStop
    · simp only [charged, otherCharged]
      split
      · exact .continue (same.consume.withWorkspace ⟨_, _, _, length, by simp, by simp, rfl⟩)
      · have moved := same.consume.withWorkspace (alike.workspace.search state
          (PrefixTable.advance push.workspace.framing.syncBytes
            push.workspace.framing.syncPrefixTable push.workspace.syncMatch byte))
        rw [equal] at moved
        exact .continue (moved.recordDiscard _)

/-- A round treats workspaces with the same candidate alike. -/
theorem pushRound_alike (alike : push.Alike other) :
    (pushRound input sink push).Alike (pushRound input sink other) := by
  obtain ⟨_, _, _, length, held, compacts, equal⟩ := alike.workspace
  have state : other.workspace.state = push.workspace.state := by rw [equal]
  unfold pushRound
  rw [state]
  cases same : push.workspace.state with
  | deliverPending => exact deliverPendingRound_alike alike
  | collectAscii => exact collectAsciiRound_alike alike same
  | discardUntilCrlf => exact discardUntilCrlfRound_alike alike same
  | copySync => exact copySyncRound_alike alike same
  | rescanInvalid => exact rescanInvalidRound_alike alike same
  | compactInvalid => exact compactInvalidRound_alike alike same
  | readLength => exact readLengthRound_alike alike same
  | collectFixed => exact collectRound_alike alike (.inl same)
  | collectDeclared => exact collectRound_alike alike (.inr same)
  | searchSync => exact searchSyncRound_alike alike same

end

/-! ### One call -/

section

variable {σ τ : Type} {input : List UInt8} {sink : StatefulSink σ} {twinSink : StatefulSink τ}

theorem PushState.Alike.offered {push other : PushState} (alike : push.Alike other) :
    other.offered = push.offered := by
  obtain ⟨_, ⟨_, _, _, length, held, compacts, rfl⟩, rfl⟩ := alike
  simp only [PushState.offered, held]

/-- Two sinks that answer every frame alike, and keep a relation of their states. -/
def SinksAgree (related : σ → τ → Prop) (sink : StatefulSink σ) (twinSink : StatefulSink τ) :
    Prop :=
  ∀ state twin frame action next, related state twin → sink state frame = some (action, next) →
    ∃ twinNext, twinSink twin frame = some (action, twinNext) ∧ related next twinNext

theorem PushState.Alike.ask {push other : PushState} {related : σ → τ → Prop}
    (agree : SinksAgree related sink twinSink) (alike : push.Alike other) {state next : σ}
    {twin : τ} {action : FrameSinkAction} (same : related state twin)
    (asked : push.ask sink state = some (action, next)) :
    ∃ twinNext, other.ask twinSink twin = some (action, twinNext) ∧ related next twinNext := by
  unfold PushState.ask at asked ⊢
  rw [alike.offered]
  cases offered : push.offered with
  | none =>
    simp only [offered, Option.some.injEq, Prod.mk.injEq] at asked
    obtain ⟨rfl, rfl⟩ := asked
    exact ⟨twin, rfl, same⟩
  | some frame =>
    simp only [offered] at asked
    exact agree _ _ _ _ _ same asked

/-- Two submissions that are alike ask their sinks the same and end alike. -/
theorem pushLoopWith_alike {related : σ → τ → Prop} (agree : SinksAgree related sink twinSink) :
    ∀ (fuel : Nat) (state : σ) (twin : τ) {push other : PushState}, related state twin →
      push.Alike other → ∀ {after : σ} {final : PushState},
        pushLoopWith input sink fuel state push = some (after, final) →
          ∃ twinAfter last,
            pushLoopWith input twinSink fuel twin other = some (twinAfter, last) ∧
              related after twinAfter ∧ final.Alike last := by
  intro fuel
  induction fuel with
  | zero =>
    intro state twin push other same alike after final run
    cases run
  | succ fuel inductionHypothesis =>
    intro state twin push other same alike after final run
    rw [pushLoopWith] at run ⊢
    obtain ⟨⟨action, middle⟩, asked, run⟩ := Option.bind_eq_some_iff.mp run
    obtain ⟨twinMiddle, twinAsked, same⟩ := alike.ask agree same asked
    rw [twinAsked, Option.bind_eq_bind, Option.bind_some]
    simp only at run ⊢
    have rounds : (pushRound input (fun _ _ => action) push).Alike
        (pushRound input (fun _ _ => action) other) := pushRound_alike alike
    cases round : pushRound input (fun _ _ => action) push with
    | «continue» next =>
      cases otherRound : pushRound input (fun _ _ => action) other with
      | stop last =>
        rw [round, otherRound] at rounds
        cases rounds
      | «continue» otherNext =>
        rw [round, otherRound] at rounds
        simp only [round] at run
        obtain ⟨alike⟩ := rounds
        exact inductionHypothesis middle twinMiddle same alike run
    | stop last =>
      cases otherRound : pushRound input (fun _ _ => action) other with
      | «continue» next =>
        rw [round, otherRound] at rounds
        cases rounds
      | stop otherLast =>
        rw [round, otherRound] at rounds
        simp only [round, Option.some.injEq, Prod.mk.injEq] at run
        obtain ⟨rfl, rfl⟩ := run
        obtain ⟨_⟩ | ⟨alike⟩ := rounds
        exact ⟨twinMiddle, otherLast, rfl, same, alike⟩

/-- Workspaces with the same candidate answer a chunk alike: their sinks are asked the same,
the results are the same, and afterwards they hold the same candidate again. -/
theorem pushStreamChunkWith_alike {related : σ → τ → Prop}
    (agree : SinksAgree related sink twinSink) {plan : PlanBundle}
    {workspace other : StreamFramingWorkspace} {pipelineIndex : Nat} {chunk : ByteView}
    {state after : σ} {twin : τ} {final : PushState} (same : related state twin)
    (alike : workspace.Alike other)
    (pushed : pushStreamChunkWith plan workspace pipelineIndex chunk sink state =
      some (after, final)) :
    ∃ twinAfter last,
      pushStreamChunkWith plan other pipelineIndex chunk twinSink twin = some (twinAfter, last) ∧
        related after twinAfter ∧ final.Alike last := by
  have refusal : submitRefusal plan other pipelineIndex chunk =
      submitRefusal plan workspace pipelineIndex chunk := by
    obtain ⟨_, _, _, length, held, compacts, rfl⟩ := alike
    rfl
  have limit : roundLimit other = roundLimit workspace := by
    obtain ⟨_, _, _, length, held, compacts, rfl⟩ := alike
    rfl
  unfold pushStreamChunkWith at pushed ⊢
  rw [refusal]
  cases refused : submitRefusal plan workspace pipelineIndex chunk with
  | some apiStatus =>
    simp only [refused, Option.some.injEq, Prod.mk.injEq] at pushed
    obtain ⟨rfl, rfl⟩ := pushed
    exact ⟨twin, _, rfl, same, other, alike, rfl⟩
  | none =>
    simp only [refused] at pushed
    rw [limit]
    exact pushLoopWith_alike agree _ _ _ same ⟨other, alike, rfl⟩ pushed

/-- A sink that answers in every state it can get into. -/
def Answers (holds : σ → Prop) (sink : StatefulSink σ) : Prop :=
  ∀ state frame, holds state → ∃ action next, sink state frame = some (action, next) ∧ holds next

theorem pushLoopWith_ends {holds : σ → Prop} (answers : Answers holds sink) :
    ∀ (fuel : Nat) (state : σ) (push : PushState), holds state → roundMeasure push < fuel →
      ∃ after final, pushLoopWith input sink fuel state push = some (after, final) ∧
        holds after := by
  intro fuel
  induction fuel with
  | zero =>
    intro state push good bound
    omega
  | succ fuel inductionHypothesis =>
    intro state push good bound
    have asked : ∃ action next, push.ask sink state = some (action, next) ∧ holds next := by
      unfold PushState.ask
      cases push.offered with
      | none => exact ⟨.continue, state, rfl, good⟩
      | some frame => exact answers state frame good
    obtain ⟨action, next, asked, good⟩ := asked
    rw [pushLoopWith, asked, Option.bind_eq_bind, Option.bind_some]
    simp only
    have explained := pushRound_explained input (fun _ _ => action) push
    cases round : pushRound input (fun _ _ => action) push with
    | «continue» later =>
      rw [round] at explained
      have less := roundMeasure_lt explained
      exact inductionHypothesis next later good (by omega)
    | stop last => exact ⟨next, last, rfl, good⟩

/-- A submission to a sink that answers ends. -/
theorem pushStreamChunkWith_ends {holds : σ → Prop} (answers : Answers holds sink)
    (plan : PlanBundle) (workspace : StreamFramingWorkspace) (pipelineIndex : Nat)
    (chunk : ByteView) {state : σ} (good : holds state) :
    ∃ after final,
      pushStreamChunkWith plan workspace pipelineIndex chunk sink state = some (after, final) ∧
        holds after := by
  unfold pushStreamChunkWith
  cases submitRefusal plan workspace pipelineIndex chunk with
  | some apiStatus => exact ⟨state, _, rfl, good⟩
  | none =>
    refine pushLoopWith_ends answers _ _ _ good ?_
    have free := freeRounds_le workspace.state
    simp only [roundMeasure, PushState.available, roundLimit]
    omega

end

/-! ### Observation -/

/-- The phase of a framer that a host can observe. -/
inductive StreamFramingPhase where
  | collecting
  | deliveryPending
  | discardingUntilCrlf
  deriving DecidableEq

/-- What a framer tells a host about itself. -/
structure StreamFramingObservation where
  phase : StreamFramingPhase := .collecting
  bufferedBytes : Nat := 0
  hasInternalWork : Bool := false
  effectiveMaxSubmitBytes : Nat := 0
  effectiveMaxWorkUnits : Nat := 0
  deriving DecidableEq

/-- Observes a framer; nothing advances. -/
def StreamFramingWorkspace.observe (workspace : StreamFramingWorkspace) :
    StreamFramingObservation where
  phase :=
    match workspace.state with
    | .deliverPending => .deliveryPending
    | .discardUntilCrlf => .discardingUntilCrlf
    | _ => .collecting
  bufferedBytes := workspace.bufferedSize
  hasInternalWork := workspace.hasInternalWork
  effectiveMaxSubmitBytes := workspace.maxSubmitBytes
  effectiveMaxWorkUnits := workspace.maxWorkUnits

theorem StreamFramingWorkspace.Alike.observe {workspace twin : StreamFramingWorkspace}
    (alike : workspace.Alike twin) : twin.observe = workspace.observe := by
  obtain ⟨_, _, _, length, held, compacts, rfl⟩ := alike
  rfl

/-! ### A reset -/

theorem resetCandidate_session (workspace : StreamFramingWorkspace) :
    workspace.resetCandidate.maxSessionMemoryBytes = workspace.maxSessionMemoryBytes := by
  unfold StreamFramingWorkspace.resetCandidate
  split <;> rfl

/-- No submission changes the memory limit. -/
theorem pushStreamChunk_session {plan : PlanBundle} {workspace : StreamFramingWorkspace}
    {pipelineIndex : Nat} {input : ByteView} {sink : FrameSink} {final : PushState}
    (pushed : pushStreamChunk plan workspace pipelineIndex input sink = some final) :
    final.workspace.maxSessionMemoryBytes = workspace.maxSessionMemoryBytes := by
  obtain ⟨function⟩ := sink
  cases function with
  | none =>
    obtain rfl : PushState.refuse workspace .invalidArgument = final := Option.some.inj pushed
    rfl
  | some function =>
    rcases pushStreamChunk_cases pushed with ⟨apiStatus, -, rfl⟩ | run
    · rfl
    · obtain ⟨last, kept, stops⟩ := pushLoop_preserves
        (fun push => push.workspace.maxSessionMemoryBytes = workspace.maxSessionMemoryBytes)
        (fun push next kept continues => by
          cases continues with
          | deliver state quota => exact (resetCandidate_session _).trans kept
          | _ => exact kept) _ _ _ rfl run
      cases stops with
      | sinkStop state quota => exact (resetCandidate_session _).trans kept
      | _ => exact kept

theorem Reachable.session {initial workspace : StreamFramingWorkspace}
    (reachable : Reachable initial workspace) :
    workspace.maxSessionMemoryBytes = initial.maxSessionMemoryBytes := by
  induction reachable with
  | start => rfl
  | submit reachable plan pipelineIndex chunk sink final pushed inductionHypothesis =>
    exact (pushStreamChunk_session pushed).trans inductionHypothesis
  | reset reachable plan pipelineIndex inductionHypothesis =>
    unfold resetStreamFramingWorkspace
    repeat' split
    · exact inductionHypothesis
    · exact inductionHypothesis
    · exact inductionHypothesis
    · exact (resetCandidate_session _).trans inductionHypothesis

/-- A reset workspace holds what the created one held: nothing. -/
theorem Reachable.resetCandidate_alike {plan : PlanBundle} {pipelineIndex : Nat}
    {framing : FrozenFramingPlan} {limits : EffectiveLimits} {workspace : StreamFramingWorkspace}
    (valid : framing.StreamValid)
    (reachable : Reachable (.fresh plan pipelineIndex framing limits) workspace) :
    workspace.resetCandidate.Alike (.fresh plan pipelineIndex framing limits) := by
  have start : (StreamFramingWorkspace.fresh plan pipelineIndex framing limits).Sound :=
    fresh_sound valid
  have binding := reachable.binding
  have session := reachable.session
  have length : workspace.buffer.length =
      (StreamFramingWorkspace.fresh plan pipelineIndex framing limits).buffer.length := by
    rw [(reachable.sound start).capacity, start.capacity, binding.framing]
  have fresh := resetCandidate_binding
    { planScope := plan.address
      framing := framing
      pipelineIndex := pipelineIndex
      buffer := List.replicate (frameCapacity framing) 0
      maxSubmitBytes := limits.maxSubmit
      maxFramesPerSubmit := limits.maxFrames
      maxWorkUnits := limits.maxWork
      maxSessionMemoryBytes := limits.maxSession }
  obtain ⟨planScope, same, index, submit, frames, work, inUse, inCallback⟩ := fresh.trans binding
  simp only at planScope same index submit frames work inUse inCallback
  unfold StreamFramingWorkspace.fresh at length session ⊢
  rw [resetCandidate_session] at session
  rw [(resetCandidate_kept _).2.2.2.1] at length
  simp only at length session
  unfold StreamFramingWorkspace.resetCandidate
  rw [same]
  cases framing.strategy <;>
  · refine ⟨List.replicate (frameCapacity framing) 0, 0, 0, length.symm, by simp, by simp, ?_⟩
    simp only [planScope, index, submit, frames, work, session, inUse, inCallback]

end ProtocolAdapter.Framing
