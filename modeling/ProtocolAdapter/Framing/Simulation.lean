/-
This file proves that the framer simulates the reference splitter for the profiles
with frames of known or declared length. A workspace represents the bytes it still
has to account for, its residual; what it owes for the rest of the stream is the
reference splitting of the residual followed by that rest. One round changes what is
owed exactly by the events it reports.
-/

import Mathlib.Data.List.GetD
import ProtocolAdapter.Framing.Reference
import ProtocolAdapter.Framing.Rounds

namespace ProtocolAdapter.Framing

open Foundation

/-! ### Residuals -/

/-- The consumed bytes that are still to be accounted for. While a pattern is being
matched these are the matched prefix, while a candidate is being moved the part
already moved and the part still to move. -/
def StreamFramingWorkspace.residual (workspace : StreamFramingWorkspace) : List UInt8 :=
  match workspace.state with
  | .searchSync => workspace.framing.syncBytes.take workspace.syncMatch
  | .copySync => workspace.framing.syncBytes
  | .rescanInvalid =>
    workspace.framing.syncBytes.take workspace.rescanMatch ++
      (workspace.buffer.take workspace.bufferedSize).drop workspace.rescanIndex
  | .compactInvalid =>
    workspace.buffer.take workspace.compactMoved ++
      (workspace.buffer.drop (workspace.compactStart + workspace.compactMoved)).take
        (workspace.compactSize - workspace.compactMoved)
  | _ => workspace.buffer.take workspace.bufferedSize

/-- The events a workspace owes for each rest of the stream. -/
def StreamFramingWorkspace.owed (workspace : StreamFramingWorkspace) :
    StreamMeaning UInt8 FramingEvent :=
  fun rest => splitStream workspace.framing (workspace.residual ++ rest)

/-! ### Candidates -/

/-- The bytes start a frame of the given length: completed they are the next event of
every stream they start, incomplete they are none. -/
structure Candidate (framing : FramingPlan) (bytes : List UInt8) (target : Nat) : Prop where
  fits : bytes.length ≤ target
  complete : ∀ more rest, bytes.length + more.length = target →
    splitStep framing (bytes ++ more ++ rest) = some (.frame (bytes ++ more), rest)
  incomplete : ∀ more, bytes.length + more.length < target →
    splitStep framing (bytes ++ more) = none

theorem Candidate.append_byte {framing : FramingPlan} {bytes : List UInt8} {target : Nat}
    (candidate : Candidate framing bytes target) (byte : UInt8) (short : bytes.length < target) :
    Candidate framing (bytes ++ [byte]) target where
  fits := by
    rw [List.length_append, List.length_singleton]
    omega
  complete := by
    intro more rest length
    rw [List.length_append, List.length_singleton] at length
    rw [List.append_assoc bytes, List.singleton_append]
    exact candidate.complete (byte :: more) rest (by rw [List.length_cons]; omega)
  incomplete := by
    intro more length
    rw [List.length_append, List.length_singleton] at length
    rw [List.append_assoc, List.singleton_append]
    exact candidate.incomplete (byte :: more) (by rw [List.length_cons]; omega)

/-- A stream that starts with the sync pattern starts with a candidate. -/
theorem splitStep_of_starts {framing : FramingPlan} {stream : List UInt8}
    (found : framing.syncBytes <+: stream) :
    splitStep framing stream = splitCandidate framing stream := by
  rw [splitStep, findSync_of_starts found]
  rfl

theorem cutFrame_complete (bytes more rest : List UInt8) {target : Nat}
    (length : bytes.length + more.length = target) :
    cutFrame (bytes ++ more ++ rest) target = some (.frame (bytes ++ more), rest) := by
  have same : (bytes ++ more).length = target := by rw [List.length_append, length]
  unfold cutFrame
  rw [if_neg (by rw [List.length_append, same]; omega), List.take_left' same,
    List.drop_left' same]

theorem cutFrame_incomplete (bytes more : List UInt8) {target : Nat}
    (length : bytes.length + more.length < target) : cutFrame (bytes ++ more) target = none := by
  unfold cutFrame
  rw [if_pos (by rw [List.length_append]; exact length)]

/-- A candidate of a profile with frames of one length. -/
theorem candidate_of_fixed {framing : FramingPlan} {bytes : List UInt8}
    (strategy : framing.strategy ≠ .syncLengthField) (found : framing.syncBytes <+: bytes)
    (fits : bytes.length ≤ framing.frameLengthBytes) :
    Candidate framing bytes framing.frameLengthBytes := by
  have cut : ∀ stream, splitCandidate framing stream =
      cutFrame stream framing.frameLengthBytes := by
    intro stream
    unfold splitCandidate
    split
    · exact absurd ‹_› strategy
    · rfl
  refine ⟨fits, fun more rest length => ?_, fun more length => ?_⟩
  · rw [splitStep_of_starts ((found.trans (List.prefix_append _ _)).trans
      (List.prefix_append _ _)), cut, cutFrame_complete _ _ _ length]
  · rw [splitStep_of_starts (found.trans (List.prefix_append _ _)), cut,
      cutFrame_incomplete _ _ length]

/-- The declared length is read from the header alone. -/
theorem declaredLength_append {framing : FramingPlan} {bytes : List UInt8} (more : List UInt8)
    (header : framing.lengthFieldOffset + framing.lengthFieldWidth ≤ bytes.length) :
    declaredLength framing (bytes ++ more) = declaredLength framing bytes := by
  unfold declaredLength
  rw [List.drop_append_of_le_length (by omega),
    List.take_append_of_le_length (by rw [List.length_drop]; omega)]

theorem splitCandidate_of_header {framing : FramingPlan} {bytes : List UInt8}
    (more : List UInt8) (strategy : framing.strategy = .syncLengthField)
    (header : framing.lengthFieldOffset + framing.lengthFieldWidth ≤ bytes.length) :
    splitCandidate framing (bytes ++ more) =
      if declaredLength framing bytes < framing.minimumFrameLength ∨
          declaredLength framing bytes > framing.maximumFrameLength then
        some (.malformed, (bytes ++ more).drop 1)
      else cutFrame (bytes ++ more) (declaredLength framing bytes) := by
  unfold splitCandidate
  simp only [strategy]
  rw [if_neg (by rw [List.length_append]; omega), declaredLength_append more header]

/-- A candidate whose header declares an admissible length. -/
theorem candidate_of_declared {framing : FramingPlan} {bytes : List UInt8}
    (strategy : framing.strategy = .syncLengthField) (found : framing.syncBytes <+: bytes)
    (header : framing.lengthFieldOffset + framing.lengthFieldWidth ≤ bytes.length)
    (minimum : framing.minimumFrameLength ≤ declaredLength framing bytes)
    (maximum : declaredLength framing bytes ≤ framing.maximumFrameLength)
    (fits : bytes.length ≤ declaredLength framing bytes) :
    Candidate framing bytes (declaredLength framing bytes) := by
  refine ⟨fits, fun more rest length => ?_, fun more length => ?_⟩
  · rw [splitStep_of_starts ((found.trans (List.prefix_append _ _)).trans
      (List.prefix_append _ _)), List.append_assoc, splitCandidate_of_header _ strategy header,
      if_neg (by omega), ← List.append_assoc, cutFrame_complete _ _ _ length]
  · rw [splitStep_of_starts (found.trans (List.prefix_append _ _)),
      splitCandidate_of_header _ strategy header, if_neg (by omega),
      cutFrame_incomplete _ _ length]

/-- A candidate whose header is not complete is no event. -/
theorem splitStep_of_partial_header {framing : FramingPlan} {bytes : List UInt8}
    (strategy : framing.strategy = .syncLengthField) (found : framing.syncBytes <+: bytes)
    (header : bytes.length < framing.lengthFieldOffset + framing.lengthFieldWidth) :
    splitStep framing bytes = none := by
  rw [splitStep_of_starts found]
  unfold splitCandidate
  simp only [strategy]
  rw [if_pos header]

/-- A proper prefix of the sync pattern contains no event. -/
theorem splitStep_of_partial_sync {framing : FramingPlan} {matched : Nat}
    (inside : matched < framing.syncBytes.length) :
    splitStep framing (framing.syncBytes.take matched) = none := by
  unfold splitStep
  cases found : findSync framing.syncBytes (framing.syncBytes.take matched) with
  | none => rfl
  | some position =>
    have short := (findSync_spec found).1.length_le
    rw [List.length_drop, List.length_take] at short
    omega

/-! ### The length field -/

theorem range_map_getD (buffer : List UInt8) (offset width : Nat)
    (inside : offset + width ≤ buffer.length) :
    (List.range width).map (fun index => buffer.getD (offset + index) 0) =
      (buffer.drop offset).take width := by
  refine List.ext_getElem (by simp; omega) ?_
  intro index left right
  simp only [List.length_map, List.length_range] at left
  rw [List.getElem_map, List.getElem_range, List.getElem_take, List.getElem_drop,
    List.getD_eq_getElem _ _ (by omega)]

theorem range_map_getD_reverse (buffer : List UInt8) (offset width : Nat)
    (inside : offset + width ≤ buffer.length) :
    (List.range width).map (fun index => buffer.getD (offset + (width - 1 - index)) 0) =
      ((buffer.drop offset).take width).reverse := by
  refine List.ext_getElem (by simp; omega) ?_
  intro index left right
  simp only [List.length_map, List.length_range] at left
  rw [List.getElem_map, List.getElem_range, List.getElem_reverse, List.getElem_take,
    List.getElem_drop, List.getD_eq_getElem _ _ (by omega)]
  congr 1
  rw [List.length_take, List.length_drop]
  omega

theorem shift_or_byte (value : Nat) (byte : UInt8) :
    (value <<< 8) ||| byte.toNat = value * 256 + byte.toNat := by
  rw [← Nat.shiftLeft_add_eq_or_of_lt byte.toNat_lt, Nat.shiftLeft_eq]

/-- The framer reads the length the candidate declares. -/
theorem readDeclared_eq {framing : FramingPlan} {buffer : List UInt8} {size : Nat}
    (inside : size ≤ buffer.length)
    (header : framing.lengthFieldOffset + framing.lengthFieldWidth ≤ size) :
    readDeclared framing buffer = declaredLength framing (buffer.take size) := by
  have field : ((buffer.take size).drop framing.lengthFieldOffset).take framing.lengthFieldWidth =
      (buffer.drop framing.lengthFieldOffset).take framing.lengthFieldWidth := by
    rw [List.drop_take, List.take_take, Nat.min_eq_left (by omega)]
  unfold readDeclared declaredLength
  rw [field]
  by_cases little : framing.lengthFieldByteOrder = .little
  · simp only [little, if_true, shift_or_byte]
    rw [← range_map_getD_reverse buffer _ _ (by omega), List.foldl_map]
  · simp only [little, if_false, shift_or_byte]
    rw [← range_map_getD buffer _ _ (by omega), List.foldl_map]

/-! ### One symbol of a search -/

/-- Reading one byte of a search keeps the events of the stream: the bytes the match
gives up start no occurrence of the pattern. -/
theorem splitStream_advance {framing : FramingPlan} (nonempty : FramesNonempty framing)
    (table : PrefixTable.IsPrefixTable framing.syncBytes framing.syncPrefixTable) {matched : Nat}
    (inside : matched < framing.syncBytes.length) (byte : UInt8) (rest : List UInt8) :
    splitStream framing (framing.syncBytes.take matched ++ byte :: rest) =
      splitStream framing (framing.syncBytes.take (PrefixTable.advance framing.syncBytes
        framing.syncPrefixTable matched byte) ++ rest) := by
  have correct := table.correct.mono (Nat.le_of_lt inside)
  obtain ⟨nextLe, suffix⟩ := PrefixTable.advance_suffix byte inside correct
  let next := PrefixTable.advance framing.syncBytes framing.syncPrefixTable matched byte
  let text := framing.syncBytes.take matched ++ [byte]
  have textLength : text.length = matched + 1 := by
    simp [text, Nat.min_eq_left (Nat.le_of_lt inside)]
  have nextLength : (framing.syncBytes.take next).length = next := by
    rw [List.length_take]
    omega
  have dropped : text.drop (matched + 1 - next) = framing.syncBytes.take next := by
    obtain ⟨before, equal⟩ := suffix
    have beforeLength : before.length = matched + 1 - next := by
      have total := congrArg List.length equal
      rw [List.length_append, nextLength] at total
      change _ = text.length at total
      omega
    change text.drop _ = _
    rw [← beforeLength]
    change (framing.syncBytes.take matched ++ [byte]).drop _ = _
    rw [← equal, List.drop_left]
  have whole : framing.syncBytes.take matched ++ byte :: rest = text ++ rest := by
    simp [text]
  rw [whole, splitStream_drop nonempty (matched + 1 - next) (text ++ rest) ?_,
    List.drop_append_of_le_length (by omega), dropped]
  intro position bound occurs
  rw [List.drop_append_of_le_length (by omega)] at occurs
  have tail : text.drop position = framing.syncBytes.take (matched + 1 - position) := by
    have short : text.drop position <+: framing.syncBytes :=
      List.prefix_of_prefix_length_le (List.prefix_append _ _) occurs
        (by rw [List.length_drop]; omega)
    rw [List.prefix_iff_eq_take.mp short, List.length_drop, textLength]
  have border : framing.syncBytes.take (matched + 1 - position) <:+ text :=
    tail ▸ List.drop_suffix _ _
  have maximal := PrefixTable.advance_maximal byte inside correct (by omega) border
  omega

/-! ### The invariant -/

/-- The part of the invariant that depends on the state of the workspace. -/
def StreamFramingWorkspace.StateTracks (workspace : StreamFramingWorkspace) : Prop :=
  let framing := workspace.framing
  let candidate := workspace.buffer.take workspace.bufferedSize
  match workspace.state with
  | .collectFixed | .collectDeclared => Candidate framing candidate workspace.targetSize
  | .deliverPending => Candidate framing candidate workspace.bufferedSize
  | .searchSync =>
    framing.strategy ≠ .fixedLength ∧ workspace.syncMatch < framing.syncBytes.length
  | .copySync =>
    framing.strategy ≠ .fixedLength ∧
      workspace.copySyncIndex ≤ framing.syncBytes.length ∧
      workspace.bufferedSize = workspace.copySyncIndex ∧
      candidate = framing.syncBytes.take workspace.copySyncIndex
  | .readLength =>
    framing.strategy = .syncLengthField ∧ framing.syncBytes <+: candidate ∧
      workspace.bufferedSize ≤ framing.lengthFieldOffset + framing.lengthFieldWidth
  | .rescanInvalid =>
    framing.strategy = .syncLengthField ∧
      1 ≤ workspace.rescanIndex ∧ workspace.rescanIndex ≤ workspace.bufferedSize ∧
      workspace.bufferedSize ≤ framing.lengthFieldOffset + framing.lengthFieldWidth ∧
      workspace.rescanMatch < framing.syncBytes.length ∧
      framing.syncBytes.take workspace.rescanMatch <:+
        (workspace.buffer.take workspace.rescanIndex).drop 1
  | .compactInvalid =>
    framing.strategy = .syncLengthField ∧
      1 ≤ workspace.compactStart ∧ workspace.compactMoved ≤ workspace.compactSize ∧
      workspace.compactStart + workspace.compactSize = workspace.bufferedSize ∧
      workspace.bufferedSize ≤ framing.lengthFieldOffset + framing.lengthFieldWidth ∧
      framing.syncBytes <+: workspace.residual
  | .collectAscii | .discardUntilCrlf => False

/-- What holds of a workspace of a profile with frames of known or declared length
between any two rounds. -/
structure StreamFramingWorkspace.Tracks (workspace : StreamFramingWorkspace) : Prop where
  valid : workspace.framing.StreamValid
  strategy_ne : workspace.framing.strategy ≠ .asciiCrlf
  capacity : workspace.buffer.length = frameCapacity workspace.framing
  inside : workspace.bufferedSize ≤ workspace.buffer.length
  state : workspace.StateTracks

theorem framesNonempty_of_valid {framing : FramingPlan} (valid : framing.StreamValid)
    (strategy : framing.strategy ≠ .asciiCrlf) : FramesNonempty framing := by
  unfold FramesNonempty
  cases same : framing.strategy with
  | completeRecord => exact absurd same valid.strategy_ne
  | asciiCrlf => exact absurd same strategy
  | fixedLength => exact (valid.fixedLength same).length_pos
  | syncFixedLength =>
    have facts := valid.syncFixedLength same
    exact Nat.lt_of_lt_of_le (List.length_pos_of_ne_nil facts.sync_ne_nil) facts.sync_le
  | syncLengthField =>
    have facts := valid.syncLengthField same
    have width : 0 < framing.lengthFieldWidth := by
      rcases facts.width_cases with one | two | four <;> omega
    have header := facts.header_le
    exact ⟨by omega, by omega⟩

theorem StreamFramingWorkspace.Tracks.nonempty {workspace : StreamFramingWorkspace}
    (tracks : workspace.Tracks) : FramesNonempty workspace.framing :=
  framesNonempty_of_valid tracks.valid tracks.strategy_ne

/-- A profile that searches has a sync pattern. -/
theorem sync_ne_nil_of_valid {framing : FramingPlan} (valid : framing.StreamValid)
    (notFixed : framing.strategy ≠ .fixedLength) : framing.syncBytes ≠ [] := by
  cases same : framing.strategy with
  | completeRecord => exact absurd same valid.strategy_ne
  | fixedLength => exact absurd same notFixed
  | asciiCrlf => simp [(valid.asciiCrlf same).sync_eq]
  | syncFixedLength => exact (valid.syncFixedLength same).sync_ne_nil
  | syncLengthField => exact (valid.syncLengthField same).sync_ne_nil

/-! ### Buffer operations -/

/-- Appending a byte extends the candidate by that byte. -/
theorem appendByte_take {workspace : StreamFramingWorkspace} (byte : UInt8)
    (room : workspace.bufferedSize < workspace.buffer.length) :
    (workspace.appendByte byte).buffer.take (workspace.bufferedSize + 1) =
      workspace.buffer.take workspace.bufferedSize ++ [byte] := by
  unfold StreamFramingWorkspace.appendByte
  rw [List.take_add_one, List.take_set_of_le (Nat.le_refl _), List.getElem?_set_self room,
    Option.toList_some]

@[simp] theorem appendByte_length (workspace : StreamFramingWorkspace) (byte : UInt8) :
    (workspace.appendByte byte).buffer.length = workspace.buffer.length := by
  simp [StreamFramingWorkspace.appendByte]

/-- Moving a block down keeps the block and what lies behind its source. -/
theorem moveBytes_spec (buffer : List UInt8) (moved start chunk : Nat) (down : 1 ≤ start)
    (inside : start + moved + chunk ≤ buffer.length) :
    (moveBytes buffer moved (start + moved) chunk).length = buffer.length ∧
      (moveBytes buffer moved (start + moved) chunk).take (moved + chunk) =
        buffer.take moved ++ (buffer.drop (start + moved)).take chunk ∧
      (moveBytes buffer moved (start + moved) chunk).drop (start + (moved + chunk)) =
        buffer.drop (start + moved + chunk) := by
  have head : (buffer.take moved ++ (buffer.drop (start + moved)).take chunk).length =
      moved + chunk := by
    rw [List.length_append, List.length_take, List.length_take, List.length_drop]
    omega
  unfold moveBytes
  refine ⟨?_, ?_, ?_⟩
  · rw [List.length_append, head, List.length_drop]
    omega
  · rw [List.take_left' head]
  · rw [show start + (moved + chunk) = moved + chunk + start by omega, ← List.drop_drop,
      List.drop_left' head, List.drop_drop]
    congr 1
    omega

/-- A part of the move leaves the moved and the remaining bytes in order. -/
theorem moveBytes_residual {buffer : List UInt8} {moved start chunk size : Nat}
    (down : 1 ≤ start) (part : moved + chunk ≤ size) (inside : start + size ≤ buffer.length) :
    (moveBytes buffer moved (start + moved) chunk).take (moved + chunk) ++
        ((moveBytes buffer moved (start + moved) chunk).drop (start + (moved + chunk))).take
          (size - (moved + chunk)) =
      buffer.take moved ++ (buffer.drop (start + moved)).take (size - moved) := by
  obtain ⟨-, head, tail⟩ := moveBytes_spec buffer moved start chunk down (by omega)
  rw [head, tail, List.append_assoc, show size - moved = chunk + (size - (moved + chunk)) by omega,
    List.take_add, List.drop_drop]

/-! ### One round -/

/-- A round consumes nothing or the next input byte. -/
inductive Consumes (input : List UInt8) (push next : PushState) : List UInt8 → Prop
  | nothing (index : next.inputIndex = push.inputIndex)
      (count : next.result.bytesConsumed = push.result.bytesConsumed) :
      Consumes input push next []
  | byte (value : UInt8) (read : input[push.inputIndex]? = some value)
      (index : next.inputIndex = push.inputIndex + 1)
      (count : next.result.bytesConsumed = push.result.bytesConsumed + 1) :
      Consumes input push next [value]

/-- What one round does to the stream: it consumes bytes and reports events, and what
is owed before is those events followed by what is owed after. -/
structure RoundEffect (input : List UInt8) (push next : PushState) (consumed : List UInt8)
    (events : List FramingEvent) : Prop where
  consumes : Consumes input push next consumed
  delivered : next.delivered = push.delivered ++ framesOf events
  malformed : next.result.malformedCandidates =
    push.result.malformedCandidates + malformedOf events
  advances : Advances push.workspace.owed consumed events next.workspace.owed

/-- Bytes that only join the residual leave what is owed unchanged. -/
theorem advances_of_residual {before after : StreamFramingWorkspace} {consumed : List UInt8}
    (framing : after.framing = before.framing)
    (residual : after.residual = before.residual ++ consumed) :
    Advances before.owed consumed [] after.owed := by
  intro rest
  unfold StreamFramingWorkspace.owed
  rw [framing, residual, List.nil_append, List.append_assoc]

/-- A byte that extends the candidate. -/
theorem appendByte_effect {input : List UInt8} {push : PushState} {byte : UInt8} {amount : Nat}
    {state : State} (read : input[push.inputIndex]? = some byte)
    (room : push.workspace.bufferedSize < push.workspace.buffer.length)
    (before : push.workspace.residual = push.workspace.buffer.take push.workspace.bufferedSize)
    (after :
      { push.workspace.appendByte byte with state := state : StreamFramingWorkspace }.residual =
        (push.workspace.appendByte byte).buffer.take (push.workspace.bufferedSize + 1)) :
    RoundEffect input push ((push.spend amount).consume.withWorkspace
      { push.workspace.appendByte byte with state := state }) [byte] [] where
  consumes := .byte byte read rfl rfl
  delivered := (List.append_nil _).symm
  malformed := rfl
  advances := by
    refine advances_of_residual rfl ?_
    rw [before, ← appendByte_take byte room]
    exact after

/-- The state and the effect of one byte of a candidate of known length. -/
theorem collectByte_tracks {input : List UInt8} {push : PushState} {byte : UInt8} {amount : Nat}
    (tracks : push.workspace.Tracks)
    (state : push.workspace.state = .collectFixed ∨ push.workspace.state = .collectDeclared)
    (incomplete : push.workspace.bufferedSize ≠ push.workspace.targetSize)
    (read : input[push.inputIndex]? = some byte)
    (room : push.workspace.bufferedSize < push.workspace.buffer.length) :
    (push.workspace.appendByte byte).Tracks ∧
      RoundEffect input push ((push.spend amount).consume.withWorkspace
        (push.workspace.appendByte byte)) [byte] [] := by
  have candidate : Candidate push.workspace.framing
      (push.workspace.buffer.take push.workspace.bufferedSize) push.workspace.targetSize := by
    have inv := tracks.state
    rcases state with state | state <;>
      simpa only [StreamFramingWorkspace.StateTracks, state] using inv
  have length : (push.workspace.buffer.take push.workspace.bufferedSize).length =
      push.workspace.bufferedSize := by
    rw [List.length_take, Nat.min_eq_left tracks.inside]
  have fits := candidate.fits
  rw [length] at fits
  have extended := candidate.append_byte byte (by rw [length]; omega)
  rw [← appendByte_take byte room] at extended
  refine ⟨⟨tracks.valid, tracks.strategy_ne, ?_, ?_, ?_⟩, ?_⟩
  · rw [appendByte_length]
    exact tracks.capacity
  · rw [appendByte_length]
    exact room
  · unfold StreamFramingWorkspace.StateTracks
    rcases state with state | state <;>
      simpa only [StreamFramingWorkspace.appendByte, state] using extended
  · refine appendByte_effect read room ?_ ?_ <;>
      rcases state with state | state <;>
      simp only [StreamFramingWorkspace.residual, StreamFramingWorkspace.appendByte, state]

/-- The state and the effect of one byte of a header. -/
theorem headerByte_tracks {input : List UInt8} {push : PushState} {byte : UInt8} {amount : Nat}
    (tracks : push.workspace.Tracks) (state : push.workspace.state = .readLength)
    (header : push.workspace.bufferedSize < push.workspace.framing.lengthFieldOffset +
      push.workspace.framing.lengthFieldWidth)
    (read : input[push.inputIndex]? = some byte)
    (room : push.workspace.bufferedSize < push.workspace.buffer.length) :
    (push.workspace.appendByte byte).Tracks ∧
      RoundEffect input push ((push.spend amount).consume.withWorkspace
        (push.workspace.appendByte byte)) [byte] [] := by
  have inv := tracks.state
  simp only [StreamFramingWorkspace.StateTracks, state] at inv
  obtain ⟨strategy, found, -⟩ := inv
  refine ⟨⟨tracks.valid, tracks.strategy_ne, ?_, ?_, ?_⟩, ?_⟩
  · rw [appendByte_length]
    exact tracks.capacity
  · rw [appendByte_length]
    exact room
  · unfold StreamFramingWorkspace.StateTracks
    simp only [StreamFramingWorkspace.appendByte, state]
    refine ⟨strategy, ?_, header⟩
    have extended := appendByte_take byte room
    unfold StreamFramingWorkspace.appendByte at extended
    rw [extended]
    exact found.trans (List.prefix_append _ _)
  · refine appendByte_effect read room ?_ ?_ <;>
      simp only [StreamFramingWorkspace.residual, StreamFramingWorkspace.appendByte, state]

/-- A delivered frame is the next event, and the reset workspace owes the rest. -/
theorem deliver_tracks {input : List UInt8} {sink : FrameSinkFunction} {push : PushState}
    (tracks : push.workspace.Tracks) (state : push.workspace.state = .deliverPending) :
    push.workspace.resetCandidate.Tracks ∧
      RoundEffect input push (push.deliver sink).2 []
        [.frame (push.workspace.buffer.take push.workspace.bufferedSize)] := by
  have inv := tracks.state
  simp only [StreamFramingWorkspace.StateTracks, state] at inv
  have kept := resetCandidate_kept push.workspace
  have nonempty := tracks.nonempty
  refine ⟨⟨?_, ?_, ?_, ?_, ?_⟩, ⟨.nothing rfl rfl, rfl, rfl, ?_⟩⟩
  · rw [kept.2.1]
    exact tracks.valid
  · rw [kept.2.1]
    exact tracks.strategy_ne
  · rw [kept.2.1, kept.2.2.2.1]
    exact tracks.capacity
  · unfold StreamFramingWorkspace.resetCandidate
    split <;> exact Nat.zero_le _
  · unfold StreamFramingWorkspace.resetCandidate
    split
    · exact absurd ‹_› tracks.strategy_ne
    · rename_i strategy
      refine candidate_of_fixed (by simp [strategy]) ?_ (Nat.zero_le _)
      rw [(tracks.valid.fixedLength strategy).sync_nil]
      exact List.nil_prefix
    · rename_i notFixed
      refine ⟨notFixed, ?_⟩
      exact List.length_pos_of_ne_nil (sync_ne_nil_of_valid tracks.valid notFixed)
  · intro rest
    have step := inv.complete [] rest (by
      rw [List.length_take, Nat.min_eq_left tracks.inside]; rfl)
    rw [List.append_nil] at step
    have before : push.workspace.residual =
        push.workspace.buffer.take push.workspace.bufferedSize := by
      simp only [StreamFramingWorkspace.residual, state]
    have after : push.workspace.resetCandidate.residual = [] := by
      unfold StreamFramingWorkspace.resetCandidate
      split <;> simp [StreamFramingWorkspace.residual]
    unfold StreamFramingWorkspace.owed
    rw [List.nil_append, before, splitStream_of_some nonempty step]
    change _ = [_] ++ splitStream push.workspace.resetCandidate.framing
      (push.workspace.resetCandidate.residual ++ rest)
    rw [after, kept.2.1]
    rfl

/-- A round that only rearranges the workspace. -/
theorem silent_effect {input : List UInt8} {push : PushState} (amount : Nat)
    {workspace : StreamFramingWorkspace} (framing : workspace.framing = push.workspace.framing)
    (residual : workspace.residual = push.workspace.residual) :
    RoundEffect input push ((push.spend amount).withWorkspace workspace) [] [] where
  consumes := .nothing rfl rfl
  delivered := (List.append_nil _).symm
  malformed := rfl
  advances := advances_of_residual framing (residual.trans (List.append_nil _).symm)

/-- The state after one sync byte is copied into the candidate. -/
theorem copyByte_tracks {input : List UInt8} {push : PushState} {byte : UInt8}
    (tracks : push.workspace.Tracks) (state : push.workspace.state = .copySync)
    (next : push.workspace.framing.syncBytes[push.workspace.copySyncIndex]? = some byte)
    (room : push.workspace.bufferedSize < push.workspace.buffer.length) :
    { push.workspace.appendByte byte with
        copySyncIndex := push.workspace.copySyncIndex + 1 : StreamFramingWorkspace }.Tracks ∧
      RoundEffect input push ((push.spend 1).withWorkspace
        { push.workspace.appendByte byte with
          copySyncIndex := push.workspace.copySyncIndex + 1 }) [] [] := by
  have inv := tracks.state
  simp only [StreamFramingWorkspace.StateTracks, state] at inv
  obtain ⟨notFixed, bound, size, candidate⟩ := inv
  have insideSync : push.workspace.copySyncIndex < push.workspace.framing.syncBytes.length :=
    (List.getElem?_eq_some_iff.mp next).1
  refine ⟨⟨tracks.valid, tracks.strategy_ne, ?_, ?_, ?_⟩, ?_⟩
  · exact (appendByte_length _ _).trans tracks.capacity
  · change _ ≤ (push.workspace.appendByte byte).buffer.length
    rw [appendByte_length]
    exact room
  · have extended := appendByte_take byte room
    unfold StreamFramingWorkspace.StateTracks
    simp only [StreamFramingWorkspace.appendByte, state] at extended ⊢
    refine ⟨notFixed, insideSync, by omega, ?_⟩
    rw [extended, candidate, List.take_add_one, next, Option.toList_some]
  · refine silent_effect 1 rfl ?_
    simp only [StreamFramingWorkspace.residual, StreamFramingWorkspace.appendByte, state]

/-- The copied sync pattern starts a candidate of the fixed length. -/
theorem copyFixed_tracks {input : List UInt8} {push : PushState}
    (tracks : push.workspace.Tracks) (state : push.workspace.state = .copySync)
    (done : push.workspace.framing.syncBytes[push.workspace.copySyncIndex]? = none)
    (strategy : push.workspace.framing.strategy = .syncFixedLength) :
    { push.workspace with
        copySyncIndex := 0
        targetSize := push.workspace.framing.frameLengthBytes
        state := if push.workspace.bufferedSize = push.workspace.framing.frameLengthBytes
          then .deliverPending else .collectDeclared : StreamFramingWorkspace }.Tracks ∧
      RoundEffect input push (push.withWorkspace { push.workspace with
        copySyncIndex := 0
        targetSize := push.workspace.framing.frameLengthBytes
        state := if push.workspace.bufferedSize = push.workspace.framing.frameLengthBytes
          then .deliverPending else .collectDeclared }) [] [] := by
  have inv := tracks.state
  simp only [StreamFramingWorkspace.StateTracks, state] at inv
  obtain ⟨notFixed, bound, size, candidate⟩ := inv
  have whole : push.workspace.copySyncIndex = push.workspace.framing.syncBytes.length :=
    Nat.le_antisymm bound (List.getElem?_eq_none_iff.mp done)
  rw [whole, List.take_length] at candidate
  have start : Candidate push.workspace.framing
      (push.workspace.buffer.take push.workspace.bufferedSize) _ :=
    candidate_of_fixed (by simp [strategy]) (by rw [candidate])
      (by rw [candidate]; exact (tracks.valid.syncFixedLength strategy).sync_le)
  refine ⟨⟨tracks.valid, tracks.strategy_ne, tracks.capacity, tracks.inside, ?_⟩, ?_⟩
  · unfold StreamFramingWorkspace.StateTracks
    by_cases complete : push.workspace.bufferedSize = push.workspace.framing.frameLengthBytes
    · simp only [if_pos complete]
      rw [complete] at start ⊢
      exact start
    · simpa only [if_neg complete] using start
  · refine silent_effect 0 rfl ?_
    unfold StreamFramingWorkspace.residual
    by_cases complete : push.workspace.bufferedSize = push.workspace.framing.frameLengthBytes
    · simp only [if_pos complete, state]
      exact candidate
    · simp only [if_neg complete, state]
      exact candidate

/-- The copied sync pattern starts a header. -/
theorem copyLength_tracks {input : List UInt8} {push : PushState}
    (tracks : push.workspace.Tracks) (state : push.workspace.state = .copySync)
    (done : push.workspace.framing.syncBytes[push.workspace.copySyncIndex]? = none)
    (strategy : push.workspace.framing.strategy ≠ .syncFixedLength) :
    { push.workspace with
      copySyncIndex := 0, state := .readLength : StreamFramingWorkspace }.Tracks ∧
      RoundEffect input push
        (push.withWorkspace { push.workspace with copySyncIndex := 0, state := .readLength })
        [] [] := by
  have inv := tracks.state
  simp only [StreamFramingWorkspace.StateTracks, state] at inv
  obtain ⟨notFixed, bound, size, candidate⟩ := inv
  have whole : push.workspace.copySyncIndex = push.workspace.framing.syncBytes.length :=
    Nat.le_antisymm bound (List.getElem?_eq_none_iff.mp done)
  rw [whole, List.take_length] at candidate
  have lengthField : push.workspace.framing.strategy = .syncLengthField := by
    cases same : push.workspace.framing.strategy with
    | completeRecord => exact absurd same tracks.valid.strategy_ne
    | fixedLength => exact absurd same notFixed
    | syncFixedLength => exact absurd same strategy
    | asciiCrlf => exact absurd same tracks.strategy_ne
    | syncLengthField => rfl
  have facts := tracks.valid.syncLengthField lengthField
  refine ⟨⟨tracks.valid, tracks.strategy_ne, tracks.capacity, tracks.inside, ?_⟩, ?_⟩
  · refine ⟨lengthField, ?_, ?_⟩
    · change _ <+: push.workspace.buffer.take push.workspace.bufferedSize
      rw [candidate]
    · have := facts.sync_le
      change push.workspace.bufferedSize ≤ push.workspace.framing.lengthFieldOffset + _
      omega
  · refine silent_effect 0 rfl ?_
    simp only [StreamFramingWorkspace.residual, state]
    exact candidate

/-- The state and the effect of one byte of the search. -/
theorem search_tracks {workspace next : StreamFramingWorkspace} {byte : UInt8} {matched : Nat}
    (tracks : workspace.Tracks) (state : workspace.state = .searchSync)
    (advanced : PrefixTable.advance workspace.framing.syncBytes
      workspace.framing.syncPrefixTable workspace.syncMatch byte = matched)
    (missing : matched ≠ workspace.framing.syncBytes.length)
    (same : next = { workspace with
      totalDiscardedBytes := next.totalDiscardedBytes
      syncMatch := matched }) :
    next.Tracks ∧ Advances workspace.owed [byte] [] next.owed := by
  have inv := tracks.state
  simp only [StreamFramingWorkspace.StateTracks, state] at inv
  obtain ⟨notFixed, inside⟩ := inv
  have nonempty := tracks.nonempty
  have table := tracks.valid.table
  obtain ⟨nextLe, -⟩ :=
    PrefixTable.advance_suffix byte inside (table.correct.mono (Nat.le_of_lt inside))
  rw [advanced] at nextLe
  rw [same]
  refine ⟨⟨tracks.valid, tracks.strategy_ne, tracks.capacity, tracks.inside, ?_⟩, fun rest => ?_⟩
  · unfold StreamFramingWorkspace.StateTracks
    simp only [state]
    exact ⟨notFixed, by omega⟩
  · simp only [StreamFramingWorkspace.owed, StreamFramingWorkspace.residual, state]
    rw [List.singleton_append, splitStream_advance nonempty table inside, advanced,
      List.nil_append]

/-- A completed match starts the copy of the sync pattern. -/
theorem searchFound_tracks {push : PushState} {byte : UInt8}
    {matched : Nat} (tracks : push.workspace.Tracks)
    (state : push.workspace.state = .searchSync)
    (advanced : PrefixTable.advance push.workspace.framing.syncBytes
      push.workspace.framing.syncPrefixTable push.workspace.syncMatch byte = matched)
    (found : matched = push.workspace.framing.syncBytes.length) :
    { push.workspace with
        syncMatch := 0
        bufferedSize := 0
        copySyncIndex := 0
        state := .copySync : StreamFramingWorkspace }.Tracks ∧
      Advances push.workspace.owed [byte] []
        { push.workspace with
          syncMatch := 0
          bufferedSize := 0
          copySyncIndex := 0
          state := .copySync : StreamFramingWorkspace }.owed := by
  have inv := tracks.state
  simp only [StreamFramingWorkspace.StateTracks, state] at inv
  obtain ⟨notFixed, inside⟩ := inv
  have nonempty := tracks.nonempty
  refine ⟨⟨tracks.valid, tracks.strategy_ne, tracks.capacity, Nat.zero_le _, ?_⟩, fun rest => ?_⟩
  · exact ⟨notFixed, Nat.zero_le _, rfl, rfl⟩
  · simp only [StreamFramingWorkspace.owed, StreamFramingWorkspace.residual, state]
    rw [List.singleton_append, splitStream_advance nonempty tracks.valid.table inside, advanced,
      found, List.take_length, List.nil_append]

/-- A suffix of a list splits at any later position. -/
theorem drop_eq_drop_take_append (items : List UInt8) {start middle : Nat}
    (le : start ≤ middle) :
    items.drop start = (items.take middle).drop start ++ items.drop middle := by
  rw [List.drop_take, show middle = start + (middle - start) by omega, ← List.drop_drop,
    Nat.add_sub_cancel_left, List.take_append_drop]

/-- One rescanned byte: the new match is a suffix of the bytes behind the start of the
bad candidate, and what is owed is split from that match on. -/
theorem rescan_step {workspace : StreamFramingWorkspace} {byte : UInt8} {matched : Nat}
    (tracks : workspace.Tracks) (state : workspace.state = .rescanInvalid)
    (inside : workspace.rescanIndex < workspace.bufferedSize)
    (read : workspace.buffer.getD workspace.rescanIndex 0 = byte)
    (advanced : PrefixTable.advance workspace.framing.syncBytes
      workspace.framing.syncPrefixTable workspace.rescanMatch byte = matched) :
    matched ≤ workspace.rescanMatch + 1 ∧
      workspace.framing.syncBytes.take matched <:+
        (workspace.buffer.take (workspace.rescanIndex + 1)).drop 1 ∧
      ∀ rest, workspace.owed rest = splitStream workspace.framing
        (workspace.framing.syncBytes.take matched ++
          (workspace.buffer.take workspace.bufferedSize).drop (workspace.rescanIndex + 1) ++
            rest) := by
  have inv := tracks.state
  simp only [StreamFramingWorkspace.StateTracks, state] at inv
  obtain ⟨strategy, first, scanned, header, insideSync, suffix⟩ := inv
  have table := tracks.valid.table
  have correct := table.correct.mono (Nat.le_of_lt insideSync)
  obtain ⟨nextLe, nextSuffix⟩ := PrefixTable.advance_suffix byte insideSync correct
  rw [advanced] at nextLe nextSuffix
  have insideBuffer : workspace.rescanIndex < workspace.buffer.length := by
    have := tracks.inside
    omega
  have byteEq : workspace.buffer[workspace.rescanIndex] = byte := by
    rw [← read, List.getD_eq_getElem _ _ insideBuffer]
  have split : (workspace.buffer.take workspace.bufferedSize).drop workspace.rescanIndex =
      byte :: (workspace.buffer.take workspace.bufferedSize).drop
        (workspace.rescanIndex + 1) := by
    rw [List.drop_eq_getElem_cons (by rw [List.length_take]; omega), List.getElem_take, byteEq]
  refine ⟨nextLe, nextSuffix.trans ?_, fun rest => ?_⟩
  · obtain ⟨before, equal⟩ := suffix
    refine ⟨before, ?_⟩
    rw [← List.append_assoc, equal, List.take_add_one, List.getElem?_eq_getElem insideBuffer,
      Option.toList_some, byteEq, List.drop_append_of_le_length (by rw [List.length_take]; omega)]
  · simp only [StreamFramingWorkspace.owed, StreamFramingWorkspace.residual, state]
    rw [List.append_assoc, split, List.cons_append,
      splitStream_advance tracks.nonempty table insideSync, advanced, List.append_assoc]

/-- A rescanned byte that completes no pattern. -/
theorem rescanMore_tracks {input : List UInt8} {push : PushState} {byte : UInt8}
    {matched amount : Nat} (tracks : push.workspace.Tracks)
    (state : push.workspace.state = .rescanInvalid)
    (inside : push.workspace.rescanIndex < push.workspace.bufferedSize)
    (read : push.workspace.buffer.getD push.workspace.rescanIndex 0 = byte)
    (advanced : PrefixTable.advance push.workspace.framing.syncBytes
      push.workspace.framing.syncPrefixTable push.workspace.rescanMatch byte = matched)
    (missing : matched ≠ push.workspace.framing.syncBytes.length) :
    { push.workspace with
        rescanMatch := matched
        rescanIndex := push.workspace.rescanIndex + 1 : StreamFramingWorkspace }.Tracks ∧
      RoundEffect input push ((push.spend amount).withWorkspace
        { push.workspace with
          rescanMatch := matched
          rescanIndex := push.workspace.rescanIndex + 1 }) [] [] := by
  obtain ⟨nextLe, suffix, owed⟩ := rescan_step tracks state inside read advanced
  have inv := tracks.state
  simp only [StreamFramingWorkspace.StateTracks, state] at inv
  obtain ⟨strategy, first, scanned, header, insideSync, -⟩ := inv
  refine ⟨⟨tracks.valid, tracks.strategy_ne, tracks.capacity, tracks.inside, ?_⟩,
    ⟨.nothing rfl rfl, (List.append_nil _).symm, rfl, fun rest => ?_⟩⟩
  · unfold StreamFramingWorkspace.StateTracks
    simp only [state]
    exact ⟨strategy, by omega, by omega, header, by omega, suffix⟩
  · rw [List.nil_append, List.nil_append, owed rest]
    simp only [StreamFramingWorkspace.owed, StreamFramingWorkspace.residual, state,
      PushState.withWorkspace]

/-- A rescanned byte that completes the pattern starts the move of the new candidate. -/
theorem rescanFound_tracks {input : List UInt8} {push : PushState} {byte : UInt8}
    {matched amount : Nat} (tracks : push.workspace.Tracks)
    (state : push.workspace.state = .rescanInvalid)
    (inside : push.workspace.rescanIndex < push.workspace.bufferedSize)
    (read : push.workspace.buffer.getD push.workspace.rescanIndex 0 = byte)
    (advanced : PrefixTable.advance push.workspace.framing.syncBytes
      push.workspace.framing.syncPrefixTable push.workspace.rescanMatch byte = matched)
    (found : matched = push.workspace.framing.syncBytes.length) :
    { push.workspace with
        rescanMatch := matched
        rescanIndex := push.workspace.rescanIndex + 1
        compactStart := push.workspace.rescanIndex + 1 - push.workspace.framing.syncBytes.length
        compactSize := push.workspace.bufferedSize -
          (push.workspace.rescanIndex + 1 - push.workspace.framing.syncBytes.length)
        compactMoved := 0
        state := .compactInvalid : StreamFramingWorkspace }.Tracks ∧
      RoundEffect input push ((push.spend amount).withWorkspace
        { push.workspace with
          rescanMatch := matched
          rescanIndex := push.workspace.rescanIndex + 1
          compactStart := push.workspace.rescanIndex + 1 - push.workspace.framing.syncBytes.length
          compactSize := push.workspace.bufferedSize -
            (push.workspace.rescanIndex + 1 - push.workspace.framing.syncBytes.length)
          compactMoved := 0
          state := .compactInvalid }) [] [] := by
  obtain ⟨nextLe, suffix, owed⟩ := rescan_step tracks state inside read advanced
  have inv := tracks.state
  simp only [StreamFramingWorkspace.StateTracks, state] at inv
  obtain ⟨strategy, first, scanned, header, insideSync, -⟩ := inv
  have insideBuffer := tracks.inside
  rw [found, List.take_length] at suffix
  have room := suffix.length_le
  rw [List.length_drop, List.length_take] at room
  have start : 1 ≤ push.workspace.rescanIndex + 1 -
      push.workspace.framing.syncBytes.length := by omega
  -- the candidate found behind the bad one: the pattern, then the bytes not yet scanned
  have block : (push.workspace.buffer.drop (push.workspace.rescanIndex + 1 -
        push.workspace.framing.syncBytes.length)).take (push.workspace.bufferedSize -
        (push.workspace.rescanIndex + 1 - push.workspace.framing.syncBytes.length)) =
      push.workspace.framing.syncBytes ++
        (push.workspace.buffer.take push.workspace.bufferedSize).drop
          (push.workspace.rescanIndex + 1) := by
    have scannedPart : (push.workspace.buffer.take (push.workspace.rescanIndex + 1)).drop
        (push.workspace.rescanIndex + 1 - push.workspace.framing.syncBytes.length) =
          push.workspace.framing.syncBytes := by
      have whole := suffix.trans (List.drop_suffix 1 _)
      rw [List.suffix_iff_eq_drop] at whole
      rw [List.length_take, Nat.min_eq_left (by omega)] at whole
      exact whole.symm
    rw [← List.drop_take, drop_eq_drop_take_append _ (Nat.sub_le _ _), List.take_take,
      Nat.min_eq_left (by omega), scannedPart]
  refine ⟨⟨tracks.valid, tracks.strategy_ne, tracks.capacity, tracks.inside, ?_⟩,
    ⟨.nothing rfl rfl, (List.append_nil _).symm, rfl, fun rest => ?_⟩⟩
  · unfold StreamFramingWorkspace.StateTracks
    refine ⟨strategy, start, Nat.zero_le _, ?_, header, ?_⟩
    · simp only
      omega
    · simp only [StreamFramingWorkspace.residual, List.take_zero, List.nil_append, Nat.add_zero,
        Nat.sub_zero]
      rw [block]
      exact List.prefix_append _ _
  · rw [List.nil_append, List.nil_append, owed rest, found, List.take_length]
    simp only [StreamFramingWorkspace.owed, StreamFramingWorkspace.residual, List.take_zero,
      List.nil_append, Nat.add_zero, Nat.sub_zero, PushState.withWorkspace]
    rw [block]

/-- A finished rescan resumes the search with the match it ends with. -/
theorem rescanEnd_tracks {workspace next : StreamFramingWorkspace}
    (tracks : workspace.Tracks) (state : workspace.state = .rescanInvalid)
    (scanned : workspace.bufferedSize ≤ workspace.rescanIndex)
    (same : next = { workspace with
      totalDiscardedBytes := next.totalDiscardedBytes
      bufferedSize := 0
      syncMatch := workspace.rescanMatch
      rescanIndex := 0
      rescanMatch := 0
      state := .searchSync }) :
    next.Tracks ∧ Advances workspace.owed [] [] next.owed := by
  have inv := tracks.state
  simp only [StreamFramingWorkspace.StateTracks, state] at inv
  obtain ⟨strategy, first, -, header, insideSync, -⟩ := inv
  rw [same]
  refine ⟨⟨tracks.valid, tracks.strategy_ne, tracks.capacity, Nat.zero_le _, ?_⟩, ?_⟩
  · exact ⟨by simp [strategy], insideSync⟩
  · refine advances_of_residual rfl ?_
    simp only [StreamFramingWorkspace.residual, state]
    rw [List.drop_eq_nil_of_le (by rw [List.length_take]; omega)]
    simp

/-- A part of the move. -/
theorem compactPartial_tracks {workspace : StreamFramingWorkspace} {chunk : Nat}
    (tracks : workspace.Tracks) (state : workspace.state = .compactInvalid)
    (part : workspace.compactMoved + chunk ≤ workspace.compactSize) :
    { workspace with
        buffer := moveBytes workspace.buffer workspace.compactMoved
          (workspace.compactStart + workspace.compactMoved) chunk
        compactMoved := workspace.compactMoved + chunk : StreamFramingWorkspace }.Tracks ∧
      Advances workspace.owed [] []
        { workspace with
          buffer := moveBytes workspace.buffer workspace.compactMoved
            (workspace.compactStart + workspace.compactMoved) chunk
          compactMoved := workspace.compactMoved + chunk : StreamFramingWorkspace }.owed := by
  have inv := tracks.state
  simp only [StreamFramingWorkspace.StateTracks, state] at inv
  obtain ⟨strategy, start, moved, total, header, found⟩ := inv
  have insideBuffer := tracks.inside
  have spec := moveBytes_spec workspace.buffer workspace.compactMoved workspace.compactStart chunk
    start (by omega)
  have kept : { workspace with
      buffer := moveBytes workspace.buffer workspace.compactMoved
        (workspace.compactStart + workspace.compactMoved) chunk
      compactMoved := workspace.compactMoved + chunk : StreamFramingWorkspace }.residual =
        workspace.residual := by
    simp only [StreamFramingWorkspace.residual, state]
    exact moveBytes_residual start part (by omega)
  refine ⟨⟨tracks.valid, tracks.strategy_ne, spec.1.trans tracks.capacity, ?_, ?_⟩,
    advances_of_residual rfl (kept.trans (List.append_nil _).symm)⟩
  · change workspace.bufferedSize ≤ (moveBytes _ _ _ _).length
    rw [spec.1]
    exact insideBuffer
  · unfold StreamFramingWorkspace.StateTracks
    simp only [state]
    refine ⟨strategy, start, part, total, header, ?_⟩
    rw [← kept] at found
    simpa only [state] using found

/-- The finished move leaves the new candidate at the start of the buffer. -/
theorem compactFinish_tracks {workspace next : StreamFramingWorkspace}
    (tracks : workspace.Tracks) (state : workspace.state = .compactInvalid)
    (whole : workspace.compactMoved = workspace.compactSize)
    (same : next = { workspace with
      totalDiscardedBytes := next.totalDiscardedBytes
      bufferedSize := workspace.compactSize
      compactStart := 0
      compactSize := 0
      compactMoved := 0
      rescanIndex := 0
      rescanMatch := 0
      state := .readLength }) :
    next.Tracks ∧ Advances workspace.owed [] [] next.owed := by
  have inv := tracks.state
  simp only [StreamFramingWorkspace.StateTracks, state] at inv
  obtain ⟨strategy, start, moved, total, header, found⟩ := inv
  have insideBuffer := tracks.inside
  have residual : workspace.residual = workspace.buffer.take workspace.compactSize := by
    simp only [StreamFramingWorkspace.residual, state, whole, Nat.sub_self, List.take_zero,
      List.append_nil]
  rw [same]
  refine ⟨⟨tracks.valid, tracks.strategy_ne, tracks.capacity, ?_, ?_⟩, ?_⟩
  · simp only
    omega
  · refine ⟨strategy, ?_, ?_⟩
    · rw [residual] at found
      exact found
    · simp only
      omega
  · refine advances_of_residual rfl ?_
    rw [residual, List.append_nil]
    rfl

/-! ### The length of a candidate -/

/-- The header of a candidate declares the length the framer reads. -/
theorem readLength_facts {workspace : StreamFramingWorkspace} (tracks : workspace.Tracks)
    (state : workspace.state = .readLength)
    (header : workspace.framing.lengthFieldOffset + workspace.framing.lengthFieldWidth ≤
      workspace.bufferedSize) :
    workspace.framing.strategy = .syncLengthField ∧
      workspace.framing.syncBytes <+: workspace.buffer.take workspace.bufferedSize ∧
      workspace.bufferedSize =
        workspace.framing.lengthFieldOffset + workspace.framing.lengthFieldWidth ∧
      (workspace.buffer.take workspace.bufferedSize).length = workspace.bufferedSize ∧
      workspace.buffer.length = workspace.framing.maximumFrameLength ∧
      readDeclared workspace.framing workspace.buffer =
        declaredLength workspace.framing (workspace.buffer.take workspace.bufferedSize) := by
  have inv := tracks.state
  simp only [StreamFramingWorkspace.StateTracks, state] at inv
  obtain ⟨strategy, found, exactly⟩ := inv
  have capacity := tracks.capacity
  simp only [frameCapacity, strategy] at capacity
  exact ⟨strategy, found, by omega, by rw [List.length_take, Nat.min_eq_left tracks.inside],
    capacity, readDeclared_eq tracks.inside header⟩

/-- A malformed length is the next event; the rescan starts behind the candidate's
first byte. -/
theorem lengthMalformed_tracks {workspace next : StreamFramingWorkspace} {declared : Nat}
    (tracks : workspace.Tracks) (state : workspace.state = .readLength)
    (header : workspace.framing.lengthFieldOffset + workspace.framing.lengthFieldWidth ≤
      workspace.bufferedSize)
    (read : readDeclared workspace.framing workspace.buffer = declared)
    (outside : declared < workspace.framing.minimumFrameLength ∨
      declared > workspace.framing.maximumFrameLength ∨ declared > workspace.buffer.length)
    (same : next = { workspace with
      totalMalformedCandidates := next.totalMalformedCandidates
      rescanIndex := 1
      rescanMatch := 0
      state := .rescanInvalid }) :
    next.Tracks ∧ Advances workspace.owed [] [.malformed] next.owed := by
  obtain ⟨strategy, found, exactly, length, capacity, readEq⟩ :=
    readLength_facts tracks state header
  have facts := tracks.valid.syncLengthField strategy
  have sync := List.length_pos_of_ne_nil facts.sync_ne_nil
  have syncLe := facts.sync_le
  have nonempty := tracks.nonempty
  rw [same]
  refine ⟨⟨tracks.valid, tracks.strategy_ne, tracks.capacity, tracks.inside, ?_⟩, fun rest => ?_⟩
  · refine ⟨strategy, Nat.le_refl 1, ?_, Nat.le_of_eq exactly, sync, ?_⟩
    · simp only
      omega
    · simp only [List.take_zero]
      exact List.nil_suffix
  · have step : splitStep workspace.framing
        (workspace.buffer.take workspace.bufferedSize ++ rest) = some (.malformed,
          (workspace.buffer.take workspace.bufferedSize ++ rest).drop 1) := by
      rw [splitStep_of_starts (found.trans (List.prefix_append _ _)),
        splitCandidate_of_header rest strategy (by rw [length]; exact header), if_pos]
      rw [← readEq, read]
      omega
    simp only [StreamFramingWorkspace.owed, StreamFramingWorkspace.residual, state, List.nil_append,
      List.take_zero, List.singleton_append]
    rw [splitStream_of_some nonempty step, List.drop_append_of_le_length (by rw [length]; omega)]

/-- An admitted length makes the header a candidate of that length. -/
theorem lengthAdmitted_tracks {workspace : StreamFramingWorkspace} {declared : Nat}
    (tracks : workspace.Tracks) (state : workspace.state = .readLength)
    (header : workspace.framing.lengthFieldOffset + workspace.framing.lengthFieldWidth ≤
      workspace.bufferedSize)
    (read : readDeclared workspace.framing workspace.buffer = declared)
    (inside : workspace.framing.minimumFrameLength ≤ declared ∧
      declared ≤ workspace.framing.maximumFrameLength ∧ declared ≤ workspace.buffer.length) :
    { workspace with
        targetSize := declared
        state := if workspace.bufferedSize = declared then .deliverPending
          else .collectDeclared : StreamFramingWorkspace }.Tracks ∧
      Advances workspace.owed [] []
        { workspace with
          targetSize := declared
          state := if workspace.bufferedSize = declared then .deliverPending
            else .collectDeclared : StreamFramingWorkspace }.owed := by
  obtain ⟨strategy, found, exactly, length, capacity, readEq⟩ :=
    readLength_facts tracks state header
  have facts := tracks.valid.syncLengthField strategy
  have headerLe := facts.header_le
  rw [read] at readEq
  have candidate : Candidate workspace.framing
      (workspace.buffer.take workspace.bufferedSize) declared := by
    rw [readEq] at inside ⊢
    exact candidate_of_declared strategy found (by rw [length]; exact header) inside.1 inside.2.1
      (by rw [length]; omega)
  refine ⟨⟨tracks.valid, tracks.strategy_ne, tracks.capacity, tracks.inside, ?_⟩, ?_⟩
  · unfold StreamFramingWorkspace.StateTracks
    by_cases complete : workspace.bufferedSize = declared
    · simp only [if_pos complete]
      rw [complete] at candidate ⊢
      exact candidate
    · simpa only [if_neg complete] using candidate
  · refine advances_of_residual rfl ?_
    rw [List.append_nil]
    simp only [StreamFramingWorkspace.residual, state]
    by_cases complete : workspace.bufferedSize = declared
    · simp only [if_pos complete]
    · simp only [if_neg complete]

end ProtocolAdapter.Framing
