/-
This file states what the framer is for. The reference splitter reads the whole
stream at once: it finds the leftmost sync pattern, cuts a frame or reports a
malformed candidate, and continues behind it. The CR LF cutter cuts the stream after
each CR LF pair. Neither knows about chunks, budgets or partial matches.
-/

import ProtocolAdapter.Builder.Framing
import ProtocolAdapter.Foundation.Transducer

namespace ProtocolAdapter.Framing

/-! ### Events -/

/-- What splitting a stream reports. -/
inductive FramingEvent where
  | frame (bytes : List UInt8)
  | malformed
  deriving DecidableEq

/-- The frame of an event. -/
def FramingEvent.frame? : FramingEvent → Option (List UInt8)
  | .frame bytes => some bytes
  | .malformed => none

/-- The frames of a list of events, in order. -/
def framesOf (events : List FramingEvent) : List (List UInt8) :=
  events.filterMap FramingEvent.frame?

/-- The number of malformed candidates of a list of events. -/
def malformedOf (events : List FramingEvent) : Nat := events.count .malformed

@[simp] theorem framesOf_nil : framesOf [] = [] := rfl

@[simp] theorem malformedOf_nil : malformedOf [] = 0 := rfl

@[simp] theorem framesOf_append (first second : List FramingEvent) :
    framesOf (first ++ second) = framesOf first ++ framesOf second :=
  List.filterMap_append

@[simp] theorem malformedOf_append (first second : List FramingEvent) :
    malformedOf (first ++ second) = malformedOf first + malformedOf second :=
  List.count_append

@[simp] theorem framesOf_frame (bytes : List UInt8) : framesOf [.frame bytes] = [bytes] := rfl

@[simp] theorem malformedOf_frame (bytes : List UInt8) : malformedOf [.frame bytes] = 0 := rfl

@[simp] theorem framesOf_malformed : framesOf [.malformed] = [] := rfl

@[simp] theorem malformedOf_malformed : malformedOf [.malformed] = 1 := rfl

/-! ### The leftmost occurrence -/

/-- The position of the leftmost occurrence of the sync pattern. -/
def findSync (sync : List UInt8) : List UInt8 → Option Nat
  | [] => if sync = [] then some 0 else none
  | byte :: rest =>
    if sync <+: byte :: rest then some 0 else (findSync sync rest).map (· + 1)

theorem findSync_of_starts {sync stream : List UInt8} (found : sync <+: stream) :
    findSync sync stream = some 0 := by
  cases stream with
  | nil => rw [findSync, if_pos (List.prefix_nil.mp found)]
  | cons byte rest => rw [findSync, if_pos found]

/-- A position with no occurrence is passed over. -/
theorem findSync_of_not_starts {sync stream : List UInt8} (missing : ¬sync <+: stream) :
    findSync sync stream = (findSync sync stream.tail).map (· + 1) := by
  cases stream with
  | nil =>
    have nonempty : sync ≠ [] := fun empty => missing (empty ▸ List.nil_prefix)
    simp [findSync, nonempty]
  | cons byte rest => rw [findSync, if_neg missing, List.tail_cons]

/-- The search returns an occurrence, and no occurrence starts before it. -/
theorem findSync_spec {sync : List UInt8} :
    ∀ {stream : List UInt8} {position : Nat}, findSync sync stream = some position →
      sync <+: stream.drop position ∧ ∀ earlier < position, ¬sync <+: stream.drop earlier := by
  intro stream
  induction stream with
  | nil =>
    intro position found
    simp only [findSync, Option.ite_none_right_eq_some, Option.some.injEq] at found
    obtain ⟨rfl, rfl⟩ := found
    exact ⟨by simp, fun earlier bound => absurd bound (Nat.not_lt_zero _)⟩
  | cons byte rest inductionHypothesis =>
    intro position found
    by_cases here : sync <+: byte :: rest
    · rw [findSync_of_starts here, Option.some.injEq] at found
      subst found
      exact ⟨here, fun earlier bound => absurd bound (Nat.not_lt_zero _)⟩
    · rw [findSync_of_not_starts here, List.tail_cons, Option.map_eq_some_iff] at found
      obtain ⟨later, found, rfl⟩ := found
      obtain ⟨occurs, minimal⟩ := inductionHypothesis found
      refine ⟨occurs, fun earlier bound => ?_⟩
      cases earlier with
      | zero => exact here
      | succ earlier => exact minimal earlier (by omega)

/-! ### The reference splitter -/

/-- The length a candidate declares in its length field. -/
def declaredLength (framing : FramingPlan) (candidate : List UInt8) : Nat :=
  let field := (candidate.drop framing.lengthFieldOffset).take framing.lengthFieldWidth
  let bytes := if framing.lengthFieldByteOrder = .little then field.reverse else field
  bytes.foldl (fun value byte => value * 256 + byte.toNat) 0

/-- A frame of the given length at the start of a candidate, once it is complete. -/
def cutFrame (candidate : List UInt8) (length : Nat) : Option (FramingEvent × List UInt8) :=
  if candidate.length < length then none
  else some (.frame (candidate.take length), candidate.drop length)

/-- What a candidate that starts at a frame boundary becomes, with the rest of the
stream. There is no answer while bytes are missing. -/
def splitCandidate (framing : FramingPlan) (candidate : List UInt8) :
    Option (FramingEvent × List UInt8) :=
  match framing.strategy with
  | .syncLengthField =>
    if candidate.length < framing.lengthFieldOffset + framing.lengthFieldWidth then none
    else
      let declared := declaredLength framing candidate
      if declared < framing.minimumFrameLength ∨ declared > framing.maximumFrameLength then
        some (.malformed, candidate.drop 1)
      else cutFrame candidate declared
  | _ => cutFrame candidate framing.frameLengthBytes

/-- The next event of a stream: the leftmost occurrence of the sync pattern starts the
candidate. -/
def splitStep (framing : FramingPlan) (stream : List UInt8) :
    Option (FramingEvent × List UInt8) :=
  match findSync framing.syncBytes stream with
  | none => none
  | some position => splitCandidate framing (stream.drop position)

/-- The first `fuel` events of a stream. -/
def splitFrom (framing : FramingPlan) : Nat → List UInt8 → List FramingEvent
  | 0, _ => []
  | fuel + 1, stream =>
    match splitStep framing stream with
    | none => []
    | some (event, rest) => event :: splitFrom framing fuel rest

/-- All events of a stream. Every event shortens the stream, so there are at most as
many as it has bytes. -/
def splitStream (framing : FramingPlan) (stream : List UInt8) : List FramingEvent :=
  splitFrom framing stream.length stream

/-! ### The CR LF cutter -/

/-- Whether a record ends with CR LF. -/
def endsWithCrlf (record : List UInt8) : Bool := [0x0D, 0x0A].isSuffixOf record

/-- Reads one byte: the record it completes joins the complete ones. -/
def cutCrlfStep (cut : List (List UInt8) × List UInt8) (byte : UInt8) :
    List (List UInt8) × List UInt8 :=
  let record := cut.2 ++ [byte]
  if endsWithCrlf record then (cut.1 ++ [record], []) else (cut.1, record)

/-- Cuts a stream after each CR LF pair, from left to right without overlap, into the
complete records and the unterminated rest. -/
def cutCrlf (stream : List UInt8) : List (List UInt8) × List UInt8 :=
  stream.foldl cutCrlfStep ([], [])

theorem cutCrlf_append_byte (stream : List UInt8) (byte : UInt8) :
    cutCrlf (stream ++ [byte]) = cutCrlfStep (cutCrlf stream) byte := by
  rw [cutCrlf, List.foldl_append]
  rfl

/-! ### Laws of the reference splitter -/

/-- A profile whose frames are never empty: every event of the splitter consumes. -/
def FramesNonempty (framing : FramingPlan) : Prop :=
  match framing.strategy with
  | .syncLengthField => 0 < framing.minimumFrameLength ∧
      0 < framing.lengthFieldOffset + framing.lengthFieldWidth
  | _ => 0 < framing.frameLengthBytes

theorem cutFrame_shortens {candidate rest : List UInt8} {length : Nat} {event : FramingEvent}
    (positive : 0 < length) (cut : cutFrame candidate length = some (event, rest)) :
    rest.length < candidate.length := by
  unfold cutFrame at cut
  split at cut
  · cases cut
  · simp only [Option.some.injEq, Prod.mk.injEq] at cut
    rw [← cut.2, List.length_drop]
    omega

theorem splitCandidate_shortens {framing : FramingPlan} (nonempty : FramesNonempty framing)
    {candidate rest : List UInt8} {event : FramingEvent}
    (split : splitCandidate framing candidate = some (event, rest)) :
    rest.length < candidate.length := by
  unfold splitCandidate at split
  unfold FramesNonempty at nonempty
  split at split
  · rename_i strategy
    simp only [strategy] at nonempty
    split at split
    · cases split
    · rename_i header
      simp only at split
      split at split
      · simp only [Option.some.injEq, Prod.mk.injEq] at split
        rw [← split.2, List.length_drop]
        omega
      · exact cutFrame_shortens (by omega) split
  · rename_i strategy
    refine cutFrame_shortens ?_ split
    cases same : framing.strategy <;> simp_all

theorem splitStep_shortens {framing : FramingPlan} (nonempty : FramesNonempty framing)
    {stream rest : List UInt8} {event : FramingEvent}
    (split : splitStep framing stream = some (event, rest)) : rest.length < stream.length := by
  unfold splitStep at split
  split at split
  · cases split
  · have := splitCandidate_shortens nonempty split
    rw [List.length_drop] at this
    omega

/-- More fuel than bytes changes nothing. -/
theorem splitFrom_stable {framing : FramingPlan} (nonempty : FramesNonempty framing) :
    ∀ (fuel more : Nat) (stream : List UInt8), stream.length ≤ fuel → stream.length ≤ more →
      splitFrom framing fuel stream = splitFrom framing more stream := by
  intro fuel
  induction fuel with
  | zero =>
    intro more stream enough _
    cases more with
    | zero => rfl
    | succ more =>
      rw [splitFrom, splitFrom]
      cases step : splitStep framing stream with
      | none => rfl
      | some next =>
        have : next.2.length < stream.length := splitStep_shortens nonempty step
        omega
  | succ fuel inductionHypothesis =>
    intro more stream enough alsoEnough
    cases more with
    | zero =>
      rw [splitFrom, splitFrom]
      cases step : splitStep framing stream with
      | none => rfl
      | some next =>
        have : next.2.length < stream.length := splitStep_shortens nonempty step
        omega
    | succ more =>
      rw [splitFrom, splitFrom]
      cases step : splitStep framing stream with
      | none => rfl
      | some next =>
        have : next.2.length < stream.length := splitStep_shortens nonempty step
        simp only
        rw [inductionHypothesis more next.2 (by omega) (by omega)]

/-- A stream without a next event has no events. -/
theorem splitStream_of_none {framing : FramingPlan} {stream : List UInt8}
    (step : splitStep framing stream = none) : splitStream framing stream = [] := by
  unfold splitStream
  cases stream.length with
  | zero => rfl
  | succ fuel => rw [splitFrom, step]

/-- The events of a stream are its next event and the events of the rest. -/
theorem splitStream_of_some {framing : FramingPlan} (nonempty : FramesNonempty framing)
    {stream rest : List UInt8} {event : FramingEvent}
    (step : splitStep framing stream = some (event, rest)) :
    splitStream framing stream = event :: splitStream framing rest := by
  have shorter := splitStep_shortens nonempty step
  unfold splitStream
  obtain ⟨fuel, enough⟩ : ∃ fuel, stream.length = fuel + 1 := ⟨stream.length - 1, by omega⟩
  rw [enough, splitFrom, step]
  simp only
  rw [splitFrom_stable nonempty fuel rest.length rest (by omega) (Nat.le_refl _)]

/-- A position without an occurrence of the pattern can be dropped. -/
theorem splitStep_tail {framing : FramingPlan} {stream : List UInt8}
    (missing : ¬framing.syncBytes <+: stream) :
    splitStep framing stream = splitStep framing stream.tail := by
  unfold splitStep
  rw [findSync_of_not_starts missing]
  cases findSync framing.syncBytes stream.tail with
  | none => rfl
  | some position =>
    simp only [Option.map_some]
    rw [← List.drop_one, List.drop_drop, Nat.add_comm]

/-- A stream whose first positions have no occurrence of the pattern can be entered
behind them. -/
theorem splitStream_drop {framing : FramingPlan} (nonempty : FramesNonempty framing) :
    ∀ (count : Nat) (stream : List UInt8),
      (∀ position < count, ¬framing.syncBytes <+: stream.drop position) →
      splitStream framing stream = splitStream framing (stream.drop count) := by
  intro count
  induction count with
  | zero => intro stream _; rfl
  | succ count inductionHypothesis =>
    intro stream missing
    have step := splitStep_tail (missing 0 (Nat.succ_pos _))
    rw [List.drop_zero] at step
    have tail : splitStream framing stream = splitStream framing stream.tail := by
      cases next : splitStep framing stream with
      | none => rw [splitStream_of_none next, splitStream_of_none (step ▸ next)]
      | some head =>
        have later : splitStep framing stream.tail = some (head.1, head.2) := step ▸ next
        rw [splitStream_of_some nonempty next, splitStream_of_some nonempty later]
    rw [tail, inductionHypothesis stream.tail ?_, ← List.drop_one, List.drop_drop, Nat.add_comm]
    intro position bound
    rw [← List.drop_one, List.drop_drop, Nat.add_comm]
    exact missing (position + 1) (by omega)

end ProtocolAdapter.Framing
