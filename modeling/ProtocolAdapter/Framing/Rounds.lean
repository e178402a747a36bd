/-
This file says once what a round of the submission loop can do. A continuing round
is one of the cases of `Continues`, a round that ends the call one of the cases of
`Stops`; the proofs about the framer are case analyses over these two relations.
The loop rule and the termination of the loop follow.
-/

import ProtocolAdapter.Framing.Push

namespace ProtocolAdapter.Framing

open Foundation

/-! ### The bookkeeping operations -/

/-- The state after spending work units. -/
def PushState.spend (push : PushState) (amount : Nat) : PushState :=
  { push with
    result := { push.result with workUnitsUsed := push.result.workUnitsUsed + amount } }

/-- The work units left to the call. -/
def PushState.available (push : PushState) : Nat :=
  push.workspace.maxWorkUnits - push.result.workUnitsUsed

theorem charge_eq_some {push next : PushState} {amount : Nat} :
    push.charge amount = some next ↔ amount ≤ push.available ∧ next = push.spend amount := by
  unfold PushState.charge
  split
  · rename_i exhausted
    simp only [reduceCtorEq, PushState.available, false_iff, not_and]
    omega
  · rename_i affordable
    simp only [Option.some.injEq, PushState.available]
    exact ⟨fun equal => ⟨by omega, equal.symm⟩, fun equal => equal.2.symm⟩

theorem charge_eq_none {push : PushState} {amount : Nat} :
    push.charge amount = none ↔ push.available < amount := by
  unfold PushState.charge PushState.available
  split <;> simp <;> omega

/-! ### Continuing rounds -/

/-- What a continuing round does, by the state of the workspace. -/
inductive Continues (input : List UInt8) (sink : FrameSinkFunction) (push : PushState) :
    PushState → Prop
  | deliver (state : push.workspace.state = .deliverPending)
      (quota : push.result.framesDelivered < push.workspace.maxFramesPerSubmit) :
      Continues input sink push (push.deliver sink).2
  | asciiTerminated (byte : UInt8) (state : push.workspace.state = .collectAscii)
      (read : input[push.inputIndex]? = some byte) (affordable : 2 ≤ push.available)
      (room : push.workspace.bufferedSize < push.workspace.buffer.length)
      (terminated : 1 ≤ push.workspace.bufferedSize ∧
        (push.workspace.appendByte byte).buffer[push.workspace.bufferedSize - 1]? = some 0x0D ∧
        byte = 0x0A) :
      Continues input sink push ((push.spend 2).consume.withWorkspace
        { push.workspace.appendByte byte with state := .deliverPending })
  | asciiTooLong (byte : UInt8) (state : push.workspace.state = .collectAscii)
      (read : input[push.inputIndex]? = some byte) (affordable : 2 ≤ push.available)
      (unterminated : ¬(1 ≤ push.workspace.bufferedSize ∧
        (push.workspace.appendByte byte).buffer[push.workspace.bufferedSize - 1]? = some 0x0D ∧
        byte = 0x0A))
      (full : push.workspace.bufferedSize + 1 = push.workspace.buffer.length) :
      Continues input sink push
        (let recorded := (((push.spend 2).consume.withWorkspace
            (push.workspace.appendByte byte)).recordMalformed .recordTooLong).recordDiscard
            (push.workspace.bufferedSize + 1)
        recorded.withWorkspace { recorded.workspace with
          previousWasCr := byte == 0x0D
          bufferedSize := 0
          state := .discardUntilCrlf })
  | asciiMore (byte : UInt8) (state : push.workspace.state = .collectAscii)
      (read : input[push.inputIndex]? = some byte) (affordable : 2 ≤ push.available)
      (unterminated : ¬(1 ≤ push.workspace.bufferedSize ∧
        (push.workspace.appendByte byte).buffer[push.workspace.bufferedSize - 1]? = some 0x0D ∧
        byte = 0x0A))
      (room : push.workspace.bufferedSize + 1 < push.workspace.buffer.length) :
      Continues input sink push ((push.spend 2).consume.withWorkspace
        (push.workspace.appendByte byte))
  | discardTerminated (byte : UInt8) (state : push.workspace.state = .discardUntilCrlf)
      (read : input[push.inputIndex]? = some byte) (affordable : 2 ≤ push.available)
      (terminated : push.workspace.previousWasCr = true ∧ byte = 0x0A) :
      Continues input sink push
        (let recorded := (push.spend 2).consume.recordDiscard 1
        recorded.withWorkspace { recorded.workspace with
          previousWasCr := false
          state := .collectAscii })
  | discardMore (byte : UInt8) (state : push.workspace.state = .discardUntilCrlf)
      (read : input[push.inputIndex]? = some byte) (affordable : 2 ≤ push.available)
      (unterminated : ¬(push.workspace.previousWasCr = true ∧ byte = 0x0A)) :
      Continues input sink push
        (let recorded := (push.spend 2).consume.recordDiscard 1
        recorded.withWorkspace { recorded.workspace with previousWasCr := byte == 0x0D })
  | copyByte (byte : UInt8) (state : push.workspace.state = .copySync)
      (next : push.workspace.framing.syncBytes[push.workspace.copySyncIndex]? = some byte)
      (affordable : 1 ≤ push.available)
      (room : push.workspace.bufferedSize < push.workspace.buffer.length) :
      Continues input sink push ((push.spend 1).withWorkspace
        { push.workspace.appendByte byte with
          copySyncIndex := push.workspace.copySyncIndex + 1 })
  | copyFixed (state : push.workspace.state = .copySync)
      (done : push.workspace.framing.syncBytes[push.workspace.copySyncIndex]? = none)
      (strategy : push.workspace.framing.strategy = .syncFixedLength) :
      Continues input sink push (push.withWorkspace { push.workspace with
        copySyncIndex := 0
        targetSize := push.workspace.framing.frameLengthBytes
        state := if push.workspace.bufferedSize = push.workspace.framing.frameLengthBytes
          then .deliverPending else .collectDeclared })
  | copyLength (state : push.workspace.state = .copySync)
      (done : push.workspace.framing.syncBytes[push.workspace.copySyncIndex]? = none)
      (strategy : push.workspace.framing.strategy ≠ .syncFixedLength) :
      Continues input sink push (push.withWorkspace { push.workspace with
        copySyncIndex := 0
        state := .readLength })
  | rescanFound (byte : UInt8) (matched : Nat) (state : push.workspace.state = .rescanInvalid)
      (inside : push.workspace.rescanIndex < push.workspace.bufferedSize)
      (read : push.workspace.buffer.getD push.workspace.rescanIndex 0 = byte)
      (advanced : PrefixTable.advance push.workspace.framing.syncBytes
        push.workspace.framing.syncPrefixTable push.workspace.rescanMatch byte = matched)
      (affordable :
        scanUnits push.workspace.framing push.workspace.rescanMatch byte ≤ push.available)
      (found : matched = push.workspace.framing.syncBytes.length) :
      Continues input sink push
        ((push.spend (scanUnits push.workspace.framing push.workspace.rescanMatch byte)
          ).withWorkspace { push.workspace with
            rescanMatch := matched
            rescanIndex := push.workspace.rescanIndex + 1
            compactStart := push.workspace.rescanIndex + 1 -
              push.workspace.framing.syncBytes.length
            compactSize := push.workspace.bufferedSize - (push.workspace.rescanIndex + 1 -
              push.workspace.framing.syncBytes.length)
            compactMoved := 0
            state := .compactInvalid })
  | rescanMore (byte : UInt8) (matched : Nat) (state : push.workspace.state = .rescanInvalid)
      (inside : push.workspace.rescanIndex < push.workspace.bufferedSize)
      (read : push.workspace.buffer.getD push.workspace.rescanIndex 0 = byte)
      (advanced : PrefixTable.advance push.workspace.framing.syncBytes
        push.workspace.framing.syncPrefixTable push.workspace.rescanMatch byte = matched)
      (affordable :
        scanUnits push.workspace.framing push.workspace.rescanMatch byte ≤ push.available)
      (missing : matched ≠ push.workspace.framing.syncBytes.length) :
      Continues input sink push
        ((push.spend (scanUnits push.workspace.framing push.workspace.rescanMatch byte)
          ).withWorkspace { push.workspace with
            rescanMatch := matched
            rescanIndex := push.workspace.rescanIndex + 1 })
  | rescanEnd (state : push.workspace.state = .rescanInvalid)
      (scanned : push.workspace.bufferedSize ≤ push.workspace.rescanIndex) :
      Continues input sink push
        (let recorded := push.recordDiscard
            (push.workspace.bufferedSize - push.workspace.rescanMatch)
        recorded.withWorkspace { recorded.workspace with
          bufferedSize := 0
          syncMatch := push.workspace.rescanMatch
          rescanIndex := 0
          rescanMatch := 0
          state := .searchSync })
  | compact (chunk : Nat) (state : push.workspace.state = .compactInvalid)
      (affordable : chunk ≤ push.available)
      (whole : chunk = push.workspace.compactSize - push.workspace.compactMoved) :
      Continues input sink push
        (let recorded := ((push.spend chunk).withWorkspace { push.workspace with
            buffer := moveBytes push.workspace.buffer push.workspace.compactMoved
              (push.workspace.compactStart + push.workspace.compactMoved) chunk
            compactMoved := push.workspace.compactMoved + chunk }).recordDiscard
              push.workspace.compactStart
        recorded.withWorkspace { recorded.workspace with
          bufferedSize := push.workspace.compactSize
          compactStart := 0
          compactSize := 0
          compactMoved := 0
          rescanIndex := 0
          rescanMatch := 0
          state := .readLength })
  | headerByte (byte : UInt8) (state : push.workspace.state = .readLength)
      (header : push.workspace.bufferedSize < push.workspace.framing.lengthFieldOffset +
        push.workspace.framing.lengthFieldWidth)
      (read : input[push.inputIndex]? = some byte) (affordable : 2 ≤ push.available)
      (room : push.workspace.bufferedSize < push.workspace.buffer.length) :
      Continues input sink push ((push.spend 2).consume.withWorkspace
        (push.workspace.appendByte byte))
  | lengthMalformed (declared : Nat) (state : push.workspace.state = .readLength)
      (header : push.workspace.framing.lengthFieldOffset +
        push.workspace.framing.lengthFieldWidth ≤ push.workspace.bufferedSize)
      (affordable : push.workspace.framing.lengthFieldWidth ≤ push.available)
      (read : readDeclared push.workspace.framing push.workspace.buffer = declared)
      (outside : declared < push.workspace.framing.minimumFrameLength ∨
        declared > push.workspace.framing.maximumFrameLength ∨
        declared > push.workspace.buffer.length) :
      Continues input sink push
        (let recorded := (push.spend push.workspace.framing.lengthFieldWidth).recordMalformed
            .malformedLength
        recorded.withWorkspace { recorded.workspace with
          rescanIndex := 1
          rescanMatch := 0
          state := .rescanInvalid })
  | lengthAdmitted (declared : Nat) (state : push.workspace.state = .readLength)
      (header : push.workspace.framing.lengthFieldOffset +
        push.workspace.framing.lengthFieldWidth ≤ push.workspace.bufferedSize)
      (affordable : push.workspace.framing.lengthFieldWidth ≤ push.available)
      (read : readDeclared push.workspace.framing push.workspace.buffer = declared)
      (inside : push.workspace.framing.minimumFrameLength ≤ declared ∧
        declared ≤ push.workspace.framing.maximumFrameLength ∧
        declared ≤ push.workspace.buffer.length) :
      Continues input sink push
        ((push.spend push.workspace.framing.lengthFieldWidth).withWorkspace
          { push.workspace with
            targetSize := declared
            state := if push.workspace.bufferedSize = declared then .deliverPending
              else .collectDeclared })
  | collectDone
      (state : push.workspace.state = .collectFixed ∨ push.workspace.state = .collectDeclared)
      (complete : push.workspace.bufferedSize = push.workspace.targetSize) :
      Continues input sink push
        (push.withWorkspace { push.workspace with state := .deliverPending })
  | collectByte (byte : UInt8)
      (state : push.workspace.state = .collectFixed ∨ push.workspace.state = .collectDeclared)
      (incomplete : push.workspace.bufferedSize ≠ push.workspace.targetSize)
      (read : input[push.inputIndex]? = some byte) (affordable : 2 ≤ push.available)
      (room : push.workspace.bufferedSize < push.workspace.buffer.length) :
      Continues input sink push ((push.spend 2).consume.withWorkspace
        (push.workspace.appendByte byte))
  | searchFound (byte : UInt8) (matched : Nat) (state : push.workspace.state = .searchSync)
      (read : input[push.inputIndex]? = some byte)
      (advanced : PrefixTable.advance push.workspace.framing.syncBytes
        push.workspace.framing.syncPrefixTable push.workspace.syncMatch byte = matched)
      (affordable :
        scanUnits push.workspace.framing push.workspace.syncMatch byte ≤ push.available)
      (found : matched = push.workspace.framing.syncBytes.length) :
      Continues input sink push
        ((push.spend (scanUnits push.workspace.framing push.workspace.syncMatch byte)
          ).consume.withWorkspace { push.workspace with
            syncMatch := 0
            bufferedSize := 0
            copySyncIndex := 0
            state := .copySync })
  | searchMore (byte : UInt8) (matched : Nat) (state : push.workspace.state = .searchSync)
      (read : input[push.inputIndex]? = some byte)
      (advanced : PrefixTable.advance push.workspace.framing.syncBytes
        push.workspace.framing.syncPrefixTable push.workspace.syncMatch byte = matched)
      (affordable :
        scanUnits push.workspace.framing push.workspace.syncMatch byte ≤ push.available)
      (missing : matched ≠ push.workspace.framing.syncBytes.length) :
      Continues input sink push
        (((push.spend (scanUnits push.workspace.framing push.workspace.syncMatch byte)
          ).consume.withWorkspace { push.workspace with syncMatch := matched }).recordDiscard
            (push.workspace.syncMatch + 1 - matched))

/-! ### Rounds that end the call -/

/-- A workspace waits when it holds no complete candidate that it has not announced. -/
def StreamFramingWorkspace.Waiting (workspace : StreamFramingWorkspace) : Prop :=
  workspace.state = .collectFixed ∨ workspace.state = .collectDeclared →
    workspace.bufferedSize ≠ workspace.targetSize

/-- The amounts of work a round can ask for in the state of the workspace. -/
def StreamFramingWorkspace.Costs (workspace : StreamFramingWorkspace) (amount : Nat) : Prop :=
  match workspace.state with
  | .searchSync => ∃ byte, amount = scanUnits workspace.framing workspace.syncMatch byte
  | .rescanInvalid => ∃ byte, amount = scanUnits workspace.framing workspace.rescanMatch byte
  | .copySync | .compactInvalid => amount = 1
  | .readLength => amount = 2 ∨ amount = workspace.framing.lengthFieldWidth
  | _ => amount = 2

/-- Whether the next round appends a byte to the candidate. -/
def StreamFramingWorkspace.Appends (workspace : StreamFramingWorkspace) : Prop :=
  match workspace.state with
  | .collectAscii => True
  | .copySync => workspace.copySyncIndex < workspace.framing.syncBytes.length
  | .readLength =>
    workspace.bufferedSize <
      workspace.framing.lengthFieldOffset + workspace.framing.lengthFieldWidth
  | .collectFixed | .collectDeclared => workspace.bufferedSize ≠ workspace.targetSize
  | _ => False

/-- What a round that ends the call does. -/
inductive Stops (input : List UInt8) (sink : FrameSinkFunction) (push : PushState) :
    PushState → Prop
  | quota (state : push.workspace.state = .deliverPending)
      (reached : push.workspace.maxFramesPerSubmit ≤ push.result.framesDelivered) :
      Stops input sink push
        { push with result := { push.result with stopReason := .workBudgetReached } }
  | sinkStop (state : push.workspace.state = .deliverPending)
      (quota : push.result.framesDelivered < push.workspace.maxFramesPerSubmit) :
      Stops input sink push
        { (push.deliver sink).2 with
          result := { (push.deliver sink).2.result with stopReason := .sinkStop } }
  | inputEnd (reason : SubmitStopReason) (ended : input[push.inputIndex]? = none)
      (waiting : push.workspace.Waiting)
      (needsInput : push.workspace.hasInternalWork = false) :
      Stops input sink push
        { push with result := { push.result with stopReason := reason } }
  | budget (amount : Nat) (waiting : push.workspace.Waiting)
      (undelivered : push.workspace.state ≠ .deliverPending)
      (costs : push.workspace.Costs amount) (short : push.available < amount) :
      Stops input sink push
        { push with result := { push.result with stopReason := .workBudgetReached } }
  | compactPartial (chunk : Nat) (state : push.workspace.state = .compactInvalid)
      (positive : 0 < chunk) (affordable : chunk ≤ push.available)
      (part : chunk < push.workspace.compactSize - push.workspace.compactMoved) :
      Stops input sink push
        (let moved := (push.spend chunk).withWorkspace { push.workspace with
            buffer := moveBytes push.workspace.buffer push.workspace.compactMoved
              (push.workspace.compactStart + push.workspace.compactMoved) chunk
            compactMoved := push.workspace.compactMoved + chunk }
        { moved with result := { moved.result with stopReason := .workBudgetReached } })
  | internalError (spent : Nat) (waiting : push.workspace.Waiting)
      (full : push.workspace.buffer.length ≤ push.workspace.bufferedSize)
      (appends : push.workspace.Appends) :
      Stops input sink push
        { push.spend spent with
          result := { (push.spend spent).result with apiStatus := .internalError } }

/-! ### Every round is one of the cases -/

/-- A round continues or stops in one of the listed ways. -/
def Round.Explained (input : List UInt8) (sink : FrameSinkFunction) (push : PushState) :
    Round → Prop
  | .continue next => Continues input sink push next
  | .stop final => Stops input sink push final

section

variable {input : List UInt8} {sink : FrameSinkFunction} {push : PushState}

theorem waiting_of_state (notFixed : push.workspace.state ≠ .collectFixed)
    (notDeclared : push.workspace.state ≠ .collectDeclared) : push.workspace.Waiting :=
  fun state => absurd state (not_or.mpr ⟨notFixed, notDeclared⟩)

theorem deliverPendingRound_explained (state : push.workspace.state = .deliverPending) :
    (deliverPendingRound sink push).Explained input sink push := by
  unfold deliverPendingRound
  split
  · exact Stops.quota state (by omega)
  · have quota : push.result.framesDelivered < push.workspace.maxFramesPerSubmit := by omega
    cases answer : (push.deliver sink).1 with
    | stop =>
      simp only [answer]
      exact Stops.sinkStop state quota
    | «continue» =>
      simp only [answer]
      exact Continues.deliver state quota

theorem collectAsciiRound_explained (state : push.workspace.state = .collectAscii) :
    (collectAsciiRound input push).Explained input sink push := by
  have waiting : push.workspace.Waiting :=
    waiting_of_state (by simp [state]) (by simp [state])
  unfold collectAsciiRound
  split
  · rename_i ended
    exact Stops.inputEnd _ ended waiting
      (by simp [StreamFramingWorkspace.hasInternalWork, state])
  · rename_i byte read
    split
    · rename_i exhausted
      exact Stops.budget 2 waiting (by simp [state])
        (by simp [StreamFramingWorkspace.Costs, state]) (charge_eq_none.mp exhausted)
    · rename_i charged spent
      obtain ⟨affordable, rfl⟩ := charge_eq_some.mp spent
      split
      · rename_i full
        exact Stops.internalError 2 waiting
          (by simpa [StreamFramingWorkspace.bufferFull, PushState.spend] using full)
          (by simp [StreamFramingWorkspace.Appends, state])
      · rename_i room
        have room : push.workspace.bufferedSize < push.workspace.buffer.length := by
          simpa [StreamFramingWorkspace.bufferFull, PushState.spend] using room
        simp only
        split
        · rename_i terminated
          refine Continues.asciiTerminated byte state read affordable room ?_
          simpa [PushState.spend, PushState.consume, StreamFramingWorkspace.appendByte,
            and_assoc] using terminated
        · rename_i unterminated
          have unterminated : ¬(1 ≤ push.workspace.bufferedSize ∧
              (push.workspace.appendByte byte).buffer[push.workspace.bufferedSize - 1]? =
                some 0x0D ∧ byte = 0x0A) := by
            simpa [PushState.spend, PushState.consume, StreamFramingWorkspace.appendByte,
              and_assoc] using unterminated
          split
          · rename_i full
            refine Continues.asciiTooLong byte state read affordable unterminated ?_
            simpa [PushState.spend, PushState.consume, StreamFramingWorkspace.appendByte] using full
          · rename_i notFull
            refine Continues.asciiMore byte state read affordable unterminated ?_
            simp only [PushState.spend, PushState.consume, StreamFramingWorkspace.appendByte,
              List.length_set] at notFull
            omega

theorem discardUntilCrlfRound_explained (state : push.workspace.state = .discardUntilCrlf) :
    (discardUntilCrlfRound input push).Explained input sink push := by
  have waiting : push.workspace.Waiting :=
    waiting_of_state (by simp [state]) (by simp [state])
  unfold discardUntilCrlfRound
  split
  · rename_i ended
    exact Stops.inputEnd _ ended waiting
      (by simp [StreamFramingWorkspace.hasInternalWork, state])
  · rename_i byte read
    split
    · rename_i exhausted
      exact Stops.budget 2 waiting (by simp [state])
        (by simp [StreamFramingWorkspace.Costs, state]) (charge_eq_none.mp exhausted)
    · rename_i charged spent
      obtain ⟨affordable, rfl⟩ := charge_eq_some.mp spent
      simp only
      split
      · rename_i terminated
        exact Continues.discardTerminated byte state read affordable
          (by simpa [PushState.spend, PushState.consume, PushState.recordDiscard] using terminated)
      · rename_i unterminated
        exact Continues.discardMore byte state read affordable
          (by simpa [PushState.spend, PushState.consume, PushState.recordDiscard] using
            unterminated)

theorem copySyncRound_explained (state : push.workspace.state = .copySync) :
    (copySyncRound push).Explained input sink push := by
  unfold copySyncRound
  split
  · rename_i byte next
    split
    · rename_i exhausted
      exact Stops.budget 1 (waiting_of_state (by simp [state]) (by simp [state]))
        (by simp [state]) (by simp [StreamFramingWorkspace.Costs, state])
        (charge_eq_none.mp exhausted)
    · rename_i charged spent
      obtain ⟨affordable, rfl⟩ := charge_eq_some.mp spent
      split
      · rename_i full
        exact Stops.internalError 1 (waiting_of_state (by simp [state]) (by simp [state]))
          (by simpa [StreamFramingWorkspace.bufferFull, PushState.spend] using full)
          (by
            simp only [StreamFramingWorkspace.Appends, state]
            exact (List.getElem?_eq_some_iff.mp next).1)
      · rename_i room
        exact Continues.copyByte byte state next affordable
          (by simpa [StreamFramingWorkspace.bufferFull, PushState.spend] using room)
  · rename_i done
    simp only
    split
    · rename_i strategy
      exact Continues.copyFixed state done strategy
    · rename_i strategy
      exact Continues.copyLength state done strategy

theorem rescanInvalidRound_explained (state : push.workspace.state = .rescanInvalid) :
    (rescanInvalidRound push).Explained input sink push := by
  unfold rescanInvalidRound
  simp only
  split
  · rename_i inside
    split
    · rename_i exhausted
      refine Stops.budget _ (waiting_of_state (by simp [state]) (by simp [state]))
        (by simp [state]) ?_ (charge_eq_none.mp exhausted)
      simp only [StreamFramingWorkspace.Costs, state]
      exact ⟨_, rfl⟩
    · rename_i charged spent
      obtain ⟨affordable, rfl⟩ := charge_eq_some.mp spent
      split
      · rename_i found
        exact Continues.rescanFound _ _ state inside rfl rfl affordable found
      · rename_i missing
        exact Continues.rescanMore _ _ state inside rfl rfl affordable missing
  · rename_i scanned
    exact Continues.rescanEnd state (by omega)

theorem compactInvalidRound_explained (state : push.workspace.state = .compactInvalid) :
    (compactInvalidRound push).Explained input sink push := by
  have undelivered : push.workspace.state ≠ .deliverPending := by simp [state]
  have waiting : push.workspace.Waiting :=
    waiting_of_state (by simp [state]) (by simp [state])
  unfold compactInvalidRound
  simp only
  split
  · rename_i unfinished
    split
    · rename_i nothing
      refine Stops.budget 1 waiting undelivered (by simp [StreamFramingWorkspace.Costs, state]) ?_
      unfold PushState.available
      omega
    · rename_i something
      split
      · rename_i exhausted
        have := charge_eq_none.mp exhausted
        unfold PushState.available at this
        omega
      · rename_i charged spent
        obtain ⟨affordable, rfl⟩ := charge_eq_some.mp spent
        split
        · rename_i part
          refine Stops.compactPartial _ state (Nat.pos_of_ne_zero something) affordable ?_
          simp only [PushState.withWorkspace] at part
          omega
        · rename_i whole
          refine Continues.compact _ state affordable ?_
          simp only [PushState.withWorkspace, not_not] at whole
          omega
  · rename_i nothing
    have empty : push.workspace.compactSize - push.workspace.compactMoved = 0 := by omega
    have moved : Continues input sink push _ := .compact 0 state (Nat.zero_le _) empty.symm
    simpa [finishCompact, moveBytes, Round.Explained, PushState.spend, PushState.withWorkspace,
      PushState.recordDiscard] using moved

theorem readLengthRound_explained (state : push.workspace.state = .readLength) :
    (readLengthRound input push).Explained input sink push := by
  have waiting : push.workspace.Waiting :=
    waiting_of_state (by simp [state]) (by simp [state])
  unfold readLengthRound
  simp only
  split
  · rename_i header
    split
    · rename_i ended
      refine Stops.inputEnd _ ended waiting ?_
      simp only [StreamFramingWorkspace.hasInternalWork, state, ge_iff_le, decide_eq_false_iff_not]
      omega
    · rename_i byte read
      split
      · rename_i exhausted
        exact Stops.budget 2 waiting (by simp [state])
          (by simp [StreamFramingWorkspace.Costs, state]) (charge_eq_none.mp exhausted)
      · rename_i charged spent
        obtain ⟨affordable, rfl⟩ := charge_eq_some.mp spent
        split
        · rename_i full
          exact Stops.internalError 2 waiting
            (by simpa [StreamFramingWorkspace.bufferFull, PushState.spend] using full)
            (by simpa [StreamFramingWorkspace.Appends, state] using header)
        · rename_i room
          exact Continues.headerByte byte state header read affordable
            (by simpa [StreamFramingWorkspace.bufferFull, PushState.spend] using room)
  · rename_i header
    split
    · rename_i exhausted
      exact Stops.budget _ waiting (by simp [state])
        (by simp [StreamFramingWorkspace.Costs, state]) (charge_eq_none.mp exhausted)
    · rename_i charged spent
      obtain ⟨affordable, rfl⟩ := charge_eq_some.mp spent
      split
      · rename_i outside
        exact Continues.lengthMalformed _ state (by omega) affordable rfl outside
      · rename_i inside
        exact Continues.lengthAdmitted _ state (by omega) affordable rfl
          (by simpa [PushState.spend, not_or] using inside)

theorem collectRound_explained
    (state : push.workspace.state = .collectFixed ∨ push.workspace.state = .collectDeclared) :
    (collectRound input push).Explained input sink push := by
  have undelivered : push.workspace.state ≠ .deliverPending := by
    rcases state with state | state <;> simp [state]
  unfold collectRound
  split
  · rename_i complete
    exact Continues.collectDone state complete
  · rename_i incomplete
    have waiting : push.workspace.Waiting := fun _ => incomplete
    split
    · rename_i ended
      refine Stops.inputEnd _ ended waiting ?_
      rcases state with state | state <;>
        simp [StreamFramingWorkspace.hasInternalWork, state]
    · rename_i byte read
      split
      · rename_i exhausted
        refine Stops.budget 2 waiting undelivered ?_ (charge_eq_none.mp exhausted)
        rcases state with state | state <;> simp [StreamFramingWorkspace.Costs, state]
      · rename_i charged spent
        obtain ⟨affordable, rfl⟩ := charge_eq_some.mp spent
        split
        · rename_i full
          refine Stops.internalError 2 waiting
            (by simpa [StreamFramingWorkspace.bufferFull, PushState.spend] using full) ?_
          rcases state with state | state <;>
            simpa only [StreamFramingWorkspace.Appends, state] using incomplete
        · rename_i room
          exact Continues.collectByte byte state incomplete read affordable
            (by simpa [StreamFramingWorkspace.bufferFull, PushState.spend] using room)

theorem searchSyncRound_explained (state : push.workspace.state = .searchSync) :
    (searchSyncRound input push).Explained input sink push := by
  have waiting : push.workspace.Waiting :=
    waiting_of_state (by simp [state]) (by simp [state])
  unfold searchSyncRound
  split
  · rename_i ended
    exact Stops.inputEnd _ ended waiting
      (by simp [StreamFramingWorkspace.hasInternalWork, state])
  · rename_i byte read
    simp only
    split
    · rename_i exhausted
      refine Stops.budget _ waiting (by simp [state]) ?_ (charge_eq_none.mp exhausted)
      simp only [StreamFramingWorkspace.Costs, state]
      exact ⟨_, rfl⟩
    · rename_i charged spent
      obtain ⟨affordable, rfl⟩ := charge_eq_some.mp spent
      split
      · rename_i found
        exact Continues.searchFound byte _ state read rfl affordable found
      · rename_i missing
        exact Continues.searchMore byte _ state read rfl affordable missing

/-- Every round of the loop is one of the listed cases. -/
theorem pushRound_explained (input : List UInt8) (sink : FrameSinkFunction) (push : PushState) :
    (pushRound input sink push).Explained input sink push := by
  unfold pushRound
  split
  · exact deliverPendingRound_explained ‹_›
  · exact collectAsciiRound_explained ‹_›
  · exact discardUntilCrlfRound_explained ‹_›
  · exact copySyncRound_explained ‹_›
  · exact rescanInvalidRound_explained ‹_›
  · exact compactInvalidRound_explained ‹_›
  · exact readLengthRound_explained ‹_›
  · exact collectRound_explained (Or.inl ‹_›)
  · exact collectRound_explained (Or.inr ‹_›)
  · exact searchSyncRound_explained ‹_›

end

/-! ### The binding -/

/-- What no call changes: the plan, the profile, the limits and the guards. -/
structure SameBinding (before after : StreamFramingWorkspace) : Prop where
  planScope : after.planScope = before.planScope
  framing : after.framing = before.framing
  pipelineIndex : after.pipelineIndex = before.pipelineIndex
  maxSubmitBytes : after.maxSubmitBytes = before.maxSubmitBytes
  maxFramesPerSubmit : after.maxFramesPerSubmit = before.maxFramesPerSubmit
  maxWorkUnits : after.maxWorkUnits = before.maxWorkUnits
  inUse : after.inUse = before.inUse
  inCallback : after.inCallback = before.inCallback

theorem SameBinding.refl (workspace : StreamFramingWorkspace) : SameBinding workspace workspace :=
  ⟨rfl, rfl, rfl, rfl, rfl, rfl, rfl, rfl⟩

theorem SameBinding.trans {first second third : StreamFramingWorkspace}
    (left : SameBinding first second) (right : SameBinding second third) :
    SameBinding first third where
  planScope := right.planScope.trans left.planScope
  framing := right.framing.trans left.framing
  pipelineIndex := right.pipelineIndex.trans left.pipelineIndex
  maxSubmitBytes := right.maxSubmitBytes.trans left.maxSubmitBytes
  maxFramesPerSubmit := right.maxFramesPerSubmit.trans left.maxFramesPerSubmit
  maxWorkUnits := right.maxWorkUnits.trans left.maxWorkUnits
  inUse := right.inUse.trans left.inUse
  inCallback := right.inCallback.trans left.inCallback

/-- The binding, the buffer, the limits and the statistics survive a reset. -/
@[simp] theorem resetCandidate_kept (workspace : StreamFramingWorkspace) :
    workspace.resetCandidate.planScope = workspace.planScope ∧
      workspace.resetCandidate.framing = workspace.framing ∧
      workspace.resetCandidate.pipelineIndex = workspace.pipelineIndex ∧
      workspace.resetCandidate.buffer = workspace.buffer ∧
      workspace.resetCandidate.maxSubmitBytes = workspace.maxSubmitBytes ∧
      workspace.resetCandidate.maxFramesPerSubmit = workspace.maxFramesPerSubmit ∧
      workspace.resetCandidate.maxWorkUnits = workspace.maxWorkUnits ∧
      workspace.resetCandidate.totalDiscardedBytes = workspace.totalDiscardedBytes ∧
      workspace.resetCandidate.totalMalformedCandidates = workspace.totalMalformedCandidates ∧
      workspace.resetCandidate.inUse = workspace.inUse ∧
      workspace.resetCandidate.inCallback = workspace.inCallback := by
  unfold StreamFramingWorkspace.resetCandidate
  split <;> simp

theorem resetCandidate_binding (workspace : StreamFramingWorkspace) :
    SameBinding workspace workspace.resetCandidate := by
  obtain ⟨planScope, framing, pipelineIndex, -, maxSubmitBytes, maxFramesPerSubmit, maxWorkUnits,
    -, -, inUse, inCallback⟩ := resetCandidate_kept workspace
  exact ⟨planScope, framing, pipelineIndex, maxSubmitBytes, maxFramesPerSubmit, maxWorkUnits,
    inUse, inCallback⟩

theorem continues_binding {input : List UInt8} {sink : FrameSinkFunction} {push next : PushState}
    (continues : Continues input sink push next) :
    SameBinding push.workspace next.workspace := by
  cases continues <;> first
    | exact resetCandidate_binding _
    | exact ⟨rfl, rfl, rfl, rfl, rfl, rfl, rfl, rfl⟩

theorem stops_binding {input : List UInt8} {sink : FrameSinkFunction} {push final : PushState}
    (stops : Stops input sink push final) : SameBinding push.workspace final.workspace := by
  cases stops <;> first
    | exact resetCandidate_binding _
    | exact ⟨rfl, rfl, rfl, rfl, rfl, rfl, rfl, rfl⟩

/-! ### The loop -/

/-- The loop rule: what continuing rounds preserve holds before the last round. -/
theorem pushLoop_preserves {input : List UInt8} {sink : FrameSinkFunction}
    (motive : PushState → Prop)
    (preserved : ∀ push next, motive push → Continues input sink push next → motive next) :
    ∀ (fuel : Nat) (push final : PushState), motive push →
      pushLoop input sink fuel push = some final →
      ∃ last, motive last ∧ Stops input sink last final := by
  intro fuel
  induction fuel with
  | zero => intro push final _ run; cases run
  | succ fuel inductionHypothesis =>
    intro push final holds run
    have explained := pushRound_explained input sink push
    rw [pushLoop] at run
    cases round : pushRound input sink push with
    | «continue» next =>
      rw [round] at run explained
      exact inductionHypothesis next final (preserved push next holds explained) run
    | stop last =>
      rw [round] at run explained
      simp only [Option.some.injEq] at run
      exact ⟨push, holds, run ▸ explained⟩

/-- How many free rounds can follow before work is charged or a frame is delivered. -/
def freeRounds : State → Nat
  | .copySync | .compactInvalid => 4
  | .readLength => 3
  | .rescanInvalid => 2
  | .collectFixed | .collectDeclared => 1
  | _ => 0

/-- The measure that every continuing round decreases. -/
def roundMeasure (push : PushState) : Nat :=
  5 * (push.available + (push.workspace.maxFramesPerSubmit - push.result.framesDelivered)) +
    freeRounds push.workspace.state

theorem freeRounds_le (state : State) : freeRounds state ≤ 4 := by
  cases state <;> simp [freeRounds]

theorem freeRounds_resetCandidate (workspace : StreamFramingWorkspace) :
    freeRounds workspace.resetCandidate.state ≤ 1 := by
  unfold StreamFramingWorkspace.resetCandidate
  split <;> simp [freeRounds]

theorem scanUnits_pos (framing : FrozenFramingPlan) (matched : Nat) (byte : UInt8) :
    0 < scanUnits framing matched byte := by
  unfold scanUnits
  omega

/-- A round that charges work and keeps the limits decreases the measure. -/
theorem roundMeasure_spend {push next : PushState} {amount : Nat} (positive : 0 < amount)
    (affordable : amount ≤ push.available)
    (work : next.available = push.available - amount)
    (quota : next.workspace.maxFramesPerSubmit - next.result.framesDelivered =
      push.workspace.maxFramesPerSubmit - push.result.framesDelivered) :
    roundMeasure next < roundMeasure push := by
  unfold roundMeasure
  rw [work, quota]
  have := freeRounds_le next.workspace.state
  omega

/-- Every continuing round decreases the measure. -/
theorem roundMeasure_lt {input : List UInt8} {sink : FrameSinkFunction} {push next : PushState}
    (continues : Continues input sink push next) : roundMeasure next < roundMeasure push := by
  cases continues with
  | deliver state quota =>
    have kept := resetCandidate_kept push.workspace
    have free := freeRounds_resetCandidate push.workspace
    simp only [roundMeasure, PushState.deliver, PushState.available, kept, state]
    omega
  | asciiTerminated byte state read affordable room terminated =>
    exact roundMeasure_spend (by omega) affordable (Nat.sub_add_eq _ _ _) rfl
  | asciiTooLong byte state read affordable unterminated full =>
    exact roundMeasure_spend (by omega) affordable (Nat.sub_add_eq _ _ _) rfl
  | asciiMore byte state read affordable unterminated room =>
    exact roundMeasure_spend (by omega) affordable (Nat.sub_add_eq _ _ _) rfl
  | discardTerminated byte state read affordable terminated =>
    exact roundMeasure_spend (by omega) affordable (Nat.sub_add_eq _ _ _) rfl
  | discardMore byte state read affordable unterminated =>
    exact roundMeasure_spend (by omega) affordable (Nat.sub_add_eq _ _ _) rfl
  | copyByte byte state read affordable room =>
    exact roundMeasure_spend (by omega) affordable (Nat.sub_add_eq _ _ _) rfl
  | copyFixed state done strategy =>
    simp only [roundMeasure, PushState.withWorkspace, PushState.available, state]
    split <;> simp [freeRounds]
  | copyLength state done strategy =>
    simp [roundMeasure, PushState.withWorkspace, PushState.available, state, freeRounds]
  | rescanFound byte matched state inside read advanced affordable found =>
    exact roundMeasure_spend (scanUnits_pos _ _ _) affordable (Nat.sub_add_eq _ _ _) rfl
  | rescanMore byte matched state inside read advanced affordable missing =>
    exact roundMeasure_spend (scanUnits_pos _ _ _) affordable (Nat.sub_add_eq _ _ _) rfl
  | rescanEnd state scanned =>
    simp [roundMeasure, PushState.withWorkspace, PushState.recordDiscard, PushState.available,
      state, freeRounds]
  | compact chunk state affordable whole =>
    simp only [roundMeasure, PushState.withWorkspace, PushState.recordDiscard, PushState.spend,
      PushState.available, state, freeRounds]
    omega
  | headerByte byte state header read affordable room =>
    exact roundMeasure_spend (by omega) affordable (Nat.sub_add_eq _ _ _) rfl
  | lengthMalformed declared state header affordable read outside =>
    simp only [roundMeasure, PushState.withWorkspace, PushState.recordMalformed, PushState.spend,
      PushState.available, state, freeRounds]
    omega
  | lengthAdmitted declared state header affordable read inside =>
    simp only [roundMeasure, PushState.withWorkspace, PushState.spend, PushState.available, state]
    split <;> simp only [freeRounds] <;> omega
  | collectDone state complete =>
    rcases state with state | state <;>
      simp [roundMeasure, PushState.withWorkspace, PushState.available, state, freeRounds]
  | collectByte byte state incomplete read affordable room =>
    exact roundMeasure_spend (by omega) affordable (Nat.sub_add_eq _ _ _) rfl
  | searchFound byte matched state read advanced affordable found =>
    exact roundMeasure_spend (scanUnits_pos _ _ _) affordable (Nat.sub_add_eq _ _ _) rfl
  | searchMore byte matched state read advanced affordable missing =>
    exact roundMeasure_spend (scanUnits_pos _ _ _) affordable (Nat.sub_add_eq _ _ _) rfl

/-- The loop ends within its measure. -/
theorem pushLoop_isSome {input : List UInt8} {sink : FrameSinkFunction} :
    ∀ (fuel : Nat) (push : PushState), roundMeasure push < fuel →
      (pushLoop input sink fuel push).isSome = true := by
  intro fuel
  induction fuel with
  | zero => intro push bound; omega
  | succ fuel inductionHypothesis =>
    intro push bound
    have explained := pushRound_explained input sink push
    rw [pushLoop]
    cases round : pushRound input sink push with
    | «continue» next =>
      rw [round] at explained
      have := roundMeasure_lt explained
      exact inductionHypothesis next (by omega)
    | stop last => rfl

/-- Every submission ends. -/
theorem pushStreamChunk_isSome (plan : PlanBundle) (workspace : StreamFramingWorkspace)
    (pipelineIndex : Nat) (input : ByteView) (sink : FrameSink) :
    (pushStreamChunk plan workspace pipelineIndex input sink).isSome = true := by
  unfold pushStreamChunk
  split
  · rfl
  · repeat' split
    all_goals first
      | rfl
      | refine pushLoop_isSome _ _ ?_
        have := freeRounds_le workspace.state
        simp only [roundMeasure, PushState.available, roundLimit]
        omega

/-- A submission either refuses without touching the workspace or runs the loop from
a fresh result. -/
theorem pushStreamChunk_cases {plan : PlanBundle} {workspace : StreamFramingWorkspace}
    {pipelineIndex : Nat} {input : ByteView} {function : FrameSinkFunction} {final : PushState}
    (pushed : pushStreamChunk plan workspace pipelineIndex input { function := some function } =
      some final) :
    (∃ apiStatus, apiStatus ≠ .ok ∧ final = .refuse workspace apiStatus) ∨
      pushLoop input.bytes function (roundLimit workspace) { workspace := workspace } =
        some final := by
  unfold pushStreamChunk at pushed
  simp only at pushed
  split at pushed
  · exact Or.inl ⟨_, by decide, (Option.some.inj pushed).symm⟩
  · split at pushed
    · exact Or.inl ⟨_, by decide, (Option.some.inj pushed).symm⟩
    · split at pushed
      · exact Or.inl ⟨_, by decide, (Option.some.inj pushed).symm⟩
      · split at pushed
        · exact Or.inl ⟨_, by decide, (Option.some.inj pushed).symm⟩
        · split at pushed
          · exact Or.inl ⟨_, by decide, (Option.some.inj pushed).symm⟩
          · split at pushed
            · exact Or.inl ⟨_, by decide, (Option.some.inj pushed).symm⟩
            · exact Or.inr pushed

/-- No submission changes the binding. -/
theorem pushStreamChunk_binding {plan : PlanBundle} {workspace : StreamFramingWorkspace}
    {pipelineIndex : Nat} {input : ByteView} {sink : FrameSink} {final : PushState}
    (pushed : pushStreamChunk plan workspace pipelineIndex input sink = some final) :
    SameBinding workspace final.workspace := by
  obtain ⟨function⟩ := sink
  cases function with
  | none =>
    obtain rfl : PushState.refuse workspace .invalidArgument = final := Option.some.inj pushed
    exact .refl _
  | some function =>
    rcases pushStreamChunk_cases pushed with ⟨apiStatus, -, rfl⟩ | run
    · exact .refl _
    · obtain ⟨last, kept, stops⟩ := pushLoop_preserves
        (fun push => SameBinding workspace push.workspace)
        (fun push next kept continues => kept.trans (continues_binding continues)) _ _ _
        (.refl _) run
      exact kept.trans (stops_binding stops)

end ProtocolAdapter.Framing
