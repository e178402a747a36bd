/-
This file models what a view tells about the record it was taken of, and a host that uses
any number of codecs one operation after the other: it calls them, moves them, and advances
their epochs. A view of a decode is readable until its codec is touched again, and never
after that.
-/

import ProtocolAdapter.Codec.DecodeSafety
import ProtocolAdapter.PublicApi.Codec

namespace ProtocolAdapter.PublicApi

open Foundation Description

open Codec (ExecutionWorkspace MutableByteBuffer decodeCompleteRecord encodeCompleteRecord
  RawIntegerValue DecodedFieldSlot PlanValid decodeReply)

/-! ### Views -/

/-- The codecs of a host, each at its own place. -/
abbrev Codecs := List CompleteRecordCodec

/-- The execution state that counters taken of a codec still stand for. -/
def readable (codecs : Codecs) (owner : Option Nat) (ownerEpoch generation : Nat) :
    Option Impl := do
  let codec ← codecs[← owner]?
  let impl ← codec.impl
  if codec.viewEpoch = ownerEpoch ∧ impl.isPublished generation = true then some impl else none

/-- The state a record view can be read of. -/
def DecodedRecordView.impl (view : DecodedRecordView) (codecs : Codecs) : Option Impl :=
  readable codecs view.owner view.ownerEpoch view.generation

/-- Whether a record view can be read. -/
def DecodedRecordView.hasValue (view : DecodedRecordView) (codecs : Codecs) : Bool :=
  (view.impl codecs).isSome

/-- The message of the record. -/
def DecodedRecordView.messageIndex (view : DecodedRecordView) (codecs : Codecs) : Nat :=
  match view.impl codecs with
  | none => invalidIndex
  | some impl => impl.publishedMessageIndex

/-- The number of fields of the record. -/
def DecodedRecordView.fieldCount (view : DecodedRecordView) (codecs : Codecs) : Nat :=
  match view.impl codecs with
  | none => 0
  | some impl => impl.publishedFieldCount

/-- The view of a field, whether the record has that field or not. -/
def DecodedRecordView.fieldAt (view : DecodedRecordView) (ordinal : Nat) : DecodedFieldView :=
  ⟨view.owner, view.ownerEpoch, view.generation, ordinal⟩

/-- A field of the record. -/
def DecodedRecordView.field (view : DecodedRecordView) (codecs : Codecs) (ordinal : Nat) :
    Option DecodedFieldView :=
  match view.impl codecs with
  | none => none
  | some impl => if ordinal ≥ impl.publishedFieldCount then none else some (view.fieldAt ordinal)

/-- The state a field view can be read of. -/
def DecodedFieldView.impl (view : DecodedFieldView) (codecs : Codecs) : Option Impl :=
  match readable codecs view.owner view.ownerEpoch view.generation with
  | none => none
  | some impl => if view.ordinal < impl.publishedFieldCount then some impl else none

/-- Whether a field view can be read. -/
def DecodedFieldView.hasValue (view : DecodedFieldView) (codecs : Codecs) : Bool :=
  (view.impl codecs).isSome

section

variable {α : Type}

/-- Reads the slot of a field, when its view can be read. -/
def DecodedFieldView.read (view : DecodedFieldView) (codecs : Codecs) (otherwise : α)
    (reading : Impl → DecodedFieldSlot → Access α) : Access α :=
  match view.impl codecs with
  | none => some otherwise
  | some impl => do reading impl (← impl.decodedSlots.slots[view.ordinal]?)

/-- Reads the member of a slot, when the slot is of a kind. -/
def readMember (kind : ValueKind) (member : DecodedFieldSlot → α) (_ : Impl)
    (slot : DecodedFieldSlot) : Access (Option α) :=
  some (if mapValueKind slot.valueKind = kind then some (member slot) else none)

/-- Finds what a raw integer of the field tells, among those the workspace has kept. -/
def findRawInteger (plan : PlanBundle) (workspace : ExecutionWorkspace) (slot : DecodedFieldSlot)
    (select : RawIntegerValue → Option α) : List Nat → Access (Option α)
  | [] => some none
  | index :: rest => do
    match ← workspace.getLastRawInteger plan index with
    | none => findRawInteger plan workspace slot select rest
    | some raw =>
      if raw.field.messageIndex = slot.field.messageIndex ∧
          raw.field.fieldIndex = slot.field.fieldIndex then
        match select raw with
        | some value => some (some value)
        | none => findRawInteger plan workspace slot select rest
      else findRawInteger plan workspace slot select rest

/-- Reads the raw integer of a field. -/
def readRawInteger (select : RawIntegerValue → Option α) (impl : Impl) (slot : DecodedFieldSlot) :
    Access (Option α) :=
  findRawInteger impl.state.plan impl.workspace slot select
    (List.range impl.workspace.lastRawIntegerCount)

end

section

variable (view : DecodedFieldView) (codecs : Codecs)

def DecodedFieldView.flatFieldIndex : Access Nat :=
  view.read codecs invalidIndex fun impl slot => some
    ((resolveFlatFieldIndex impl.state slot.field.messageIndex slot.field.fieldIndex).getD
      invalidIndex)

def DecodedFieldView.field : Access FieldSelector :=
  view.read codecs {} fun _ slot => some ⟨slot.field.messageIndex, slot.field.fieldIndex⟩

def DecodedFieldView.kind : Access ValueKind :=
  view.read codecs .uint64 fun _ slot => some (mapValueKind slot.valueKind)

def DecodedFieldView.uint64 : Access (Option UInt64) :=
  view.read codecs none (readMember .uint64 (·.uint64Value))

def DecodedFieldView.int64 : Access (Option Int64) :=
  view.read codecs none (readMember .int64 (·.int64Value))

def DecodedFieldView.bool : Access (Option Bool) :=
  view.read codecs none (readMember .bool (·.boolValue))

def DecodedFieldView.bytes : Access (Option ByteView) :=
  view.read codecs none (readMember .bytes (·.bytesValue))

def DecodedFieldView.enumRawValue : Access (Option UInt64) :=
  view.read codecs none (readMember .enum (·.enumValue.rawValue))

def DecodedFieldView.knownEnumFlatIndex : Access (Option Nat) :=
  view.read codecs none fun impl slot =>
    if mapValueKind slot.valueKind = .enum then flatEnumIndex impl.state slot else some none

def DecodedFieldView.decimal : Access (Option Codec.Decimal64) :=
  view.read codecs none (readMember .decimal64 (·.decimal64Value))

def DecodedFieldView.conversionRawKind : Access (Option RawIntegerKind) :=
  view.read codecs none (readRawInteger fun raw =>
    some (match raw.kind with | .int64 => .int64 | .uint64 => .uint64))

def DecodedFieldView.conversionRawUInt64 : Access (Option UInt64) :=
  view.read codecs none (readRawInteger fun raw =>
    if raw.kind = .uint64 then some raw.uint64Value else none)

def DecodedFieldView.conversionRawInt64 : Access (Option Int64) :=
  view.read codecs none (readRawInteger fun raw =>
    if raw.kind = .int64 then some raw.int64Value else none)

/-- All that a field view tells. -/
structure FieldReading where
  flatFieldIndex : Nat
  field : FieldSelector
  kind : ValueKind
  uint64 : Option UInt64
  int64 : Option Int64
  bool : Option Bool
  bytes : Option ByteView
  enumRawValue : Option UInt64
  knownEnumFlatIndex : Option Nat
  decimal : Option Codec.Decimal64
  conversionRawKind : Option RawIntegerKind
  conversionRawUInt64 : Option UInt64
  conversionRawInt64 : Option Int64
  deriving DecidableEq

/-- Reads all of a field. -/
def DecodedFieldView.reading : Access FieldReading := do
  some
    { flatFieldIndex := ← view.flatFieldIndex codecs
      field := ← view.field codecs
      kind := ← view.kind codecs
      uint64 := ← view.uint64 codecs
      int64 := ← view.int64 codecs
      bool := ← view.bool codecs
      bytes := ← view.bytes codecs
      enumRawValue := ← view.enumRawValue codecs
      knownEnumFlatIndex := ← view.knownEnumFlatIndex codecs
      decimal := ← view.decimal codecs
      conversionRawKind := ← view.conversionRawKind codecs
      conversionRawUInt64 := ← view.conversionRawUInt64 codecs
      conversionRawInt64 := ← view.conversionRawInt64 codecs }

end

/-! ### Operations -/

/-- What a host does with its codecs. -/
inductive Operation where
  | decode (codec : Nat) (contended : Bool) (pipelineIndex : Nat) (frame : ByteView)
  | encode (codec : Nat) (contended : Bool) (pipelineIndex messageIndex : Nat)
      (values : EncodeValues) (output : MutableByteBuffer)
  | moveConstruct (source : Nat)
  | moveAssign (target source : Nat)
  | advanceViewEpoch (codec : Nat)

/-- Decodes with the codec at a place. -/
def Codecs.decode (codecs : Codecs) (place : Nat) (contended : Bool) (pipelineIndex : Nat)
    (frame : ByteView) : Access (DecodeResult × Codecs) := do
  let codec ← codecs[place]?
  let (result, codec) ← codec.decode place contended pipelineIndex frame
  some (result, codecs.set place codec)

/-- Encodes with the codec at a place. -/
def Codecs.encode (codecs : Codecs) (place : Nat) (contended : Bool)
    (pipelineIndex messageIndex : Nat) (values : EncodeValues) (output : MutableByteBuffer) :
    Access (EncodeResult × Codecs) := do
  let codec ← codecs[place]?
  let done ← codec.encode contended pipelineIndex messageIndex values output
  some (done.result, codecs.set place done.codec)

/-- Constructs a codec from another one, which is left without its state. -/
def Codecs.moveConstruct (codecs : Codecs) (source : Nat) : Access Codecs := do
  let other ← codecs[source]?
  some (codecs.set source { other with impl := none }.advanceViewEpoch ++ [{ impl := other.impl }])

/-- Assigns a codec to another one, or to itself. -/
def Codecs.moveAssign (codecs : Codecs) (target source : Nat) : Access Codecs := do
  let codec ← codecs[target]?
  let other ← codecs[source]?
  if target = source then some (codecs.set target codec.advanceViewEpoch)
  else
    some ((codecs.set source { other.advanceViewEpoch with impl := none }).set target
      { codec.advanceViewEpoch with impl := other.impl })

/-- Performs an operation. -/
def Codecs.step (codecs : Codecs) : Operation → Access Codecs
  | .decode codec contended pipelineIndex frame =>
    (codecs.decode codec contended pipelineIndex frame).map (·.2)
  | .encode codec contended pipelineIndex messageIndex values output =>
    (codecs.encode codec contended pipelineIndex messageIndex values output).map (·.2)
  | .moveConstruct source => codecs.moveConstruct source
  | .moveAssign target source => codecs.moveAssign target source
  | .advanceViewEpoch codec => do some (codecs.set codec (← codecs[codec]?).advanceViewEpoch)

/-- The operations that end the life of the views of a codec: a call that is not refused as
busy, a move from it or into it, and the advance of its epoch. -/
def Operation.Touches (operation : Operation) (place : Nat) : Prop :=
  match operation with
  | .decode codec contended _ _ | .encode codec contended _ _ _ _ =>
    codec = place ∧ contended = false
  | .moveConstruct source => source = place
  | .moveAssign target source => target = place ∨ source = place
  | .advanceViewEpoch codec => codec = place

/-- No counter would wrap in the next operation. -/
def Codecs.Unwrapped (codecs : Codecs) : Prop :=
  ∀ codec ∈ codecs, codec.viewEpoch < maxUint64 ∧
    ∀ impl ∈ codec.impl, impl.generation < maxUint64

instance (codecs : Codecs) : Decidable codecs.Unwrapped :=
  inferInstanceAs (Decidable (∀ codec ∈ codecs, codec.viewEpoch < maxUint64 ∧
    ∀ impl ∈ codec.impl, impl.generation < maxUint64))

/-- Operations one after the other, in none of which a counter wraps. -/
inductive Runs : Codecs → List Operation → Codecs → Prop
  | nil {codecs : Codecs} : Runs codecs [] codecs
  | cons {codecs middle after : Codecs} {operation : Operation} {rest : List Operation}
      (unwrapped : codecs.Unwrapped) (step : codecs.step operation = some middle)
      (later : Runs middle rest after) : Runs codecs (operation :: rest) after

/-! ### What an operation does to a codec -/

/-- What an operation that touches a codec makes of it: its epoch advances, or a call begins a
new generation of its state. -/
inductive CompleteRecordCodec.Touched (codec next : CompleteRecordCodec) : Prop
  | renewed (epoch : next.viewEpoch = codec.viewEpoch + 1)
  | called (epoch : next.viewEpoch = codec.viewEpoch)
      (generation : ∀ later, next.impl = some later → ∃ impl, codec.impl = some impl ∧
        later.generation = impl.generation + 1)

theorem increment_eq {counter : Nat} (bounded : counter < maxUint64) :
    increment counter = counter + 1 := by
  unfold maxUint64 at bounded
  exact Nat.mod_eq_of_lt (by omega)

theorem advanceViewEpoch_touched {codec : CompleteRecordCodec}
    (bounded : codec.viewEpoch < maxUint64) : codec.Touched codec.advanceViewEpoch := by
  refine .renewed ?_
  simp [CompleteRecordCodec.advanceViewEpoch, increment_eq bounded]

/-- What a call that is not refused does to the state of a codec, and what it answers. -/
structure Impl.Decoded (impl later : Impl) (place epoch : Nat) (call : Codec.DecodeCall)
    (result : DecodeResult) : Prop where
  state : later.state = impl.state
  generation : later.generation = increment impl.generation
  workspace : later.workspace = call.workspace
  slots : later.decodedSlots = { impl.decodedSlots with slots := call.slots }
  mapped : later.mappedValues = impl.mappedValues
  answer : (result.status = .ok ∧ call.result.status = .ok ∧
      result.record = ⟨some place, epoch, later.generation⟩ ∧ later.published = true ∧
      later.publishedMessageIndex = call.result.messageIndex ∧
      later.publishedFieldCount = call.result.fieldCount) ∨
    (result.status ≠ .ok ∧ result.record = {} ∧ later.published = false)

theorem mapStatus_eq_ok {status : Codec.CodecStatus} (mapped : mapStatus status = .ok) :
    status = .ok := by
  cases status <;> first | rfl | cases mapped

/-- A decode is refused, or the codec core decodes the record. -/
theorem decode_cases {codec after : CompleteRecordCodec} {self pipelineIndex : Nat}
    {contended : Bool} {frame : ByteView} {result : DecodeResult}
    (run : codec.decode self contended pipelineIndex frame = some (result, after)) :
    (after = codec ∧ result.status ≠ .ok ∧ result.record = {} ∧
        (contended = true ∨ codec.impl = none)) ∨
      ∃ impl later call, contended = false ∧ codec.impl = some impl ∧
        decodeCompleteRecord impl.state.plan impl.workspace pipelineIndex frame
          impl.decodedSlots = some call ∧
        after = { codec with impl := some later } ∧
        impl.Decoded later self codec.viewEpoch call result := by
  unfold CompleteRecordCodec.decode at run
  cases present : codec.impl with
  | none =>
    simp only [present, Option.some.injEq, Prod.mk.injEq] at run
    obtain ⟨rfl, rfl⟩ := run
    exact .inl ⟨rfl, by simp, rfl, .inr rfl⟩
  | some impl =>
    simp only [present] at run
    by_cases busy : contended = true
    · rw [if_pos busy] at run
      simp only [Option.some.injEq, Prod.mk.injEq] at run
      obtain ⟨rfl, rfl⟩ := run
      exact .inl ⟨rfl, by simp, rfl, .inl busy⟩
    rw [if_neg busy] at run
    obtain ⟨call, decoded, run⟩ := Option.bind_eq_some_iff.mp run
    suffices ends : ∃ later, after = { codec with impl := some later } ∧
        impl.Decoded later self codec.viewEpoch call result by
      obtain ⟨later, equal, done⟩ := ends
      exact .inr ⟨impl, later, call, by simpa using busy, rfl, decoded, equal, done⟩
    by_cases stray : call.result.messageIndex ≠ invalidIndex ∧
        isAssociated impl.beginGuardedCall.state pipelineIndex call.result.messageIndex = false
    · rw [if_pos stray] at run
      simp only [Option.some.injEq, Prod.mk.injEq] at run
      obtain ⟨rfl, rfl⟩ := run
      exact ⟨_, rfl, rfl, rfl, rfl, rfl, rfl, .inr ⟨by simp, rfl, rfl⟩⟩
    rw [if_neg stray] at run
    by_cases nameless : call.result.status = .ok ∧
        (if call.result.messageIndex ≠ invalidIndex then some call.result.messageIndex else none) =
          none
    · rw [if_pos nameless] at run
      simp only [Option.some.injEq, Prod.mk.injEq] at run
      obtain ⟨rfl, rfl⟩ := run
      exact ⟨_, rfl, rfl, rfl, rfl, rfl, rfl, .inr ⟨by simp, rfl, rfl⟩⟩
    rw [if_neg nameless] at run
    by_cases accepted : call.result.status = .ok
    · rw [if_pos accepted] at run
      simp only [Option.some.injEq, Prod.mk.injEq] at run
      obtain ⟨rfl, rfl⟩ := run
      refine ⟨_, rfl, rfl, rfl, rfl, rfl, rfl, .inl ⟨?_, accepted, rfl, rfl, rfl, rfl⟩⟩
      rw [accepted]
      rfl
    · rw [if_neg accepted] at run
      simp only [Option.some.injEq, Prod.mk.injEq] at run
      obtain ⟨rfl, rfl⟩ := run
      exact ⟨_, rfl, rfl, rfl, rfl, rfl, rfl,
        .inr ⟨fun mapped => accepted (mapStatus_eq_ok mapped), rfl, rfl⟩⟩

theorem decode_touched {codec after : CompleteRecordCodec} {self pipelineIndex : Nat}
    {contended : Bool} {frame : ByteView} {result : DecodeResult}
    (bounded : ∀ impl, codec.impl = some impl → impl.generation < maxUint64)
    (run : codec.decode self contended pipelineIndex frame = some (result, after)) :
    (contended = true → after = codec) ∧ (contended = false → codec.Touched after) := by
  rcases decode_cases run with
    ⟨rfl, -, -, refused⟩ | ⟨impl, later, call, free, present, -, rfl, done⟩
  · refine ⟨fun _ => rfl, fun free => .called rfl fun later found => ?_⟩
    rcases refused with busy | absent
    · rw [free] at busy
      cases busy
    · rw [absent] at found
      cases found
  · refine ⟨fun busy => ?_, fun _ => .called rfl fun other found => ⟨impl, present, ?_⟩⟩
    · rw [free] at busy
      cases busy
    · obtain rfl := Option.some.inj found
      rw [done.generation, increment_eq (bounded impl present)]

/-- An encode is refused, or begins a new generation of the state. -/
theorem encode_cases {codec : CompleteRecordCodec} {contended : Bool}
    {pipelineIndex messageIndex : Nat} {values : EncodeValues} {output : MutableByteBuffer}
    {done : EncodeEnd}
    (run : codec.encode contended pipelineIndex messageIndex values output = some done) :
    (done.codec = codec ∧ (contended = true ∨ codec.impl = none)) ∨
      ∃ impl later, contended = false ∧ codec.impl = some impl ∧
        done.codec = { codec with impl := some later } ∧ later.state = impl.state ∧
        later.generation = increment impl.generation ∧
        (later.workspace = impl.workspace ∨ ∃ mapped call,
          encodeCompleteRecord impl.state.plan impl.workspace pipelineIndex messageIndex mapped
            output = some call ∧ later.workspace = call.workspace) := by
  unfold CompleteRecordCodec.encode at run
  cases present : codec.impl with
  | none =>
    simp only [present, Option.some.injEq] at run
    exact .inl ⟨run ▸ rfl, .inr rfl⟩
  | some impl =>
    simp only [present] at run
    by_cases busy : contended = true
    · rw [if_pos busy] at run
      exact .inl ⟨Option.some.inj run ▸ rfl, .inl busy⟩
    rw [if_neg busy] at run
    have free : contended = false := by simpa using busy
    by_cases many : values.values.length > impl.beginGuardedCall.mappedValues.values.length
    · rw [if_pos many] at run
      obtain rfl := Option.some.inj run
      exact .inr ⟨impl, _, free, rfl, rfl, rfl, rfl, .inl rfl⟩
    rw [if_neg many] at run
    by_cases null : values.data = none ∧ values.values.length ≠ 0
    · rw [if_pos null] at run
      obtain rfl := Option.some.inj run
      exact .inr ⟨impl, _, free, rfl, rfl, rfl, rfl, .inl rfl⟩
    rw [if_neg null] at run
    obtain ⟨call, encoded, run⟩ := Option.bind_eq_some_iff.mp run
    obtain rfl := Option.some.inj run
    exact .inr ⟨impl, _, free, rfl, rfl, rfl, rfl, .inr ⟨_, call, encoded, rfl⟩⟩

theorem encode_touched {codec : CompleteRecordCodec} {contended : Bool}
    {pipelineIndex messageIndex : Nat} {values : EncodeValues} {output : MutableByteBuffer}
    {done : EncodeEnd}
    (bounded : ∀ impl, codec.impl = some impl → impl.generation < maxUint64)
    (run : codec.encode contended pipelineIndex messageIndex values output = some done) :
    (contended = true → done.codec = codec) ∧ (contended = false → codec.Touched done.codec) := by
  rcases encode_cases run with
    ⟨equal, refused⟩ | ⟨impl, later, free, present, equal, -, advanced, -⟩
  · rw [equal]
    refine ⟨fun _ => rfl, fun free => .called rfl fun later found => ?_⟩
    rcases refused with busy | absent
    · rw [free] at busy
      cases busy
    · rw [absent] at found
      cases found
  · rw [equal]
    refine ⟨fun busy => ?_, fun _ => .called rfl fun other found => ⟨impl, present, ?_⟩⟩
    · rw [free] at busy
      cases busy
    · obtain rfl := Option.some.inj found
      rw [advanced, increment_eq (bounded impl present)]

/-- What an operation that replaces one codec does to each of them. -/
theorem set_codec {codecs : Codecs} {other place : Nat} {old next codec : CompleteRecordCodec}
    {touches : Prop} (held : codecs[other]? = some old) (found : codecs[place]? = some codec)
    (here : other = place → (¬touches → next = old) ∧ (touches → old.Touched next))
    (away : other ≠ place → ¬touches) :
    ∃ reached, (codecs.set other next)[place]? = some reached ∧ (¬touches → reached = codec) ∧
      (touches → codec.Touched reached) := by
  by_cases same : other = place
  · obtain rfl := same
    obtain rfl := Option.some.inj (held.symm.trans found)
    obtain ⟨kept, touched⟩ := here rfl
    exact ⟨next, List.getElem?_set_self (List.getElem?_eq_some_iff.mp found).1, kept, touched⟩
  · exact ⟨codec, (List.getElem?_set_ne same).trans found, fun _ => rfl,
      fun touches => absurd touches (away same)⟩

/-- An operation touches a codec as its kind says, or leaves it alone. -/
theorem step_codec {codecs after : Codecs} {operation : Operation} {place : Nat}
    {codec : CompleteRecordCodec} (unwrapped : codecs.Unwrapped)
    (step : codecs.step operation = some after) (found : codecs[place]? = some codec) :
    ∃ next, after[place]? = some next ∧ (¬operation.Touches place → next = codec) ∧
      (operation.Touches place → codec.Touched next) := by
  have bounds : ∀ {other : Nat} {old : CompleteRecordCodec}, codecs[other]? = some old →
      old.viewEpoch < maxUint64 ∧ ∀ impl, old.impl = some impl → impl.generation < maxUint64 :=
    fun held => unwrapped _ (List.mem_of_getElem? held)
  cases operation with
  | decode other contended pipelineIndex frame =>
    obtain ⟨⟨result, reached⟩, run, rfl⟩ := Option.map_eq_some_iff.mp step
    obtain ⟨old, held, run⟩ := Option.bind_eq_some_iff.mp run
    obtain ⟨⟨answer, next⟩, decoded, run⟩ := Option.bind_eq_some_iff.mp run
    obtain ⟨-, rfl⟩ := Prod.mk.inj (Option.some.inj run)
    obtain ⟨kept, touched⟩ := decode_touched (bounds held).2 decoded
    refine set_codec held found (fun same => ⟨fun untouched => kept ?_, fun touches => ?_⟩)
      fun apart touches => apart touches.1
    · exact Bool.not_eq_false _ ▸ fun free => untouched ⟨same, free⟩
    · exact touched touches.2
  | encode other contended pipelineIndex messageIndex values output =>
    obtain ⟨⟨result, reached⟩, run, rfl⟩ := Option.map_eq_some_iff.mp step
    obtain ⟨old, held, run⟩ := Option.bind_eq_some_iff.mp run
    obtain ⟨done, encoded, run⟩ := Option.bind_eq_some_iff.mp run
    obtain ⟨-, rfl⟩ := Prod.mk.inj (Option.some.inj run)
    obtain ⟨kept, touched⟩ := encode_touched (bounds held).2 encoded
    refine set_codec held found (fun same => ⟨fun untouched => kept ?_, fun touches => ?_⟩)
      fun apart touches => apart touches.1
    · exact Bool.not_eq_false _ ▸ fun free => untouched ⟨same, free⟩
    · exact touched touches.2
  | moveConstruct source =>
    obtain ⟨other, held, run⟩ := Option.bind_eq_some_iff.mp step
    obtain rfl := Option.some.inj run
    obtain ⟨next, reached, kept, touched⟩ := @set_codec codecs source place other
      { other with impl := none }.advanceViewEpoch codec (source = place) held found
      (fun same => ⟨fun apart => absurd same apart, fun _ => .renewed (by
        simp [CompleteRecordCodec.advanceViewEpoch, increment_eq (bounds held).1])⟩)
      fun apart same => apart same
    exact ⟨next, (List.getElem?_append_left (List.getElem?_eq_some_iff.mp reached).1).trans
      reached, kept, touched⟩
  | moveAssign target source =>
    obtain ⟨own, heldOwn, run⟩ := Option.bind_eq_some_iff.mp step
    obtain ⟨other, held, run⟩ := Option.bind_eq_some_iff.mp run
    by_cases self : target = source
    · rw [if_pos self] at run
      obtain rfl := Option.some.inj run
      refine set_codec heldOwn found (fun same => ⟨fun apart => absurd (.inl same) apart,
        fun _ => advanceViewEpoch_touched (bounds heldOwn).1⟩) ?_
      rintro apart (same | same)
      · exact apart same
      · exact apart (self.trans same)
    · rw [if_neg self] at run
      obtain rfl := Option.some.inj run
      have advanced : ∀ {old : CompleteRecordCodec} {place : Nat} (impl : Option Impl),
          codecs[place]? = some old →
            old.Touched { old.advanceViewEpoch with impl := impl } := fun impl held => .renewed (by
        simp [CompleteRecordCodec.advanceViewEpoch, increment_eq (bounds held).1])
      have first : ((codecs.set source { other.advanceViewEpoch with impl := none })[target]?) =
          some own := (List.getElem?_set_ne fun same => self same.symm).trans heldOwn
      by_cases same : source = place
      · obtain rfl := same
        obtain rfl := Option.some.inj (held.symm.trans found)
        have moved := List.getElem?_set_self (a := { other.advanceViewEpoch with impl := none })
          (List.getElem?_eq_some_iff.mp held).1
        exact ⟨_, (List.getElem?_set_ne self).trans moved, fun apart => absurd (.inr rfl) apart,
          fun _ => advanced none held⟩
      · refine set_codec first ((List.getElem?_set_ne same).trans found) (fun here =>
          ⟨fun apart => absurd (.inl here) apart, fun _ => advanced other.impl heldOwn⟩) ?_
        rintro apart (here | here)
        · exact apart here
        · exact same here
  | advanceViewEpoch other =>
    obtain ⟨old, held, run⟩ := Option.bind_eq_some_iff.mp step
    obtain rfl := Option.some.inj run
    exact set_codec held found (fun same => ⟨fun apart => absurd same apart,
      fun _ => advanceViewEpoch_touched (bounds held).1⟩) fun apart same => apart same

/-! ### Ages -/

/-- A codec that is not younger than an epoch and, in that epoch, a generation. -/
def CompleteRecordCodec.Aged (codec : CompleteRecordCodec) (epoch generation : Nat) : Prop :=
  epoch < codec.viewEpoch ∨
    epoch = codec.viewEpoch ∧ ∀ impl, codec.impl = some impl → generation ≤ impl.generation

theorem CompleteRecordCodec.Touched.aged {codec next : CompleteRecordCodec} {epoch generation : Nat}
    (touched : codec.Touched next) (aged : codec.Aged epoch generation) :
    next.Aged epoch (generation + 1) := by
  cases touched with
  | renewed advanced =>
    refine .inl ?_
    rcases aged with less | ⟨equal, -⟩
    · omega
    · omega
  | called same counted =>
    rcases aged with less | ⟨equal, held⟩
    · exact .inl (same ▸ less)
    · refine .inr ⟨same ▸ equal, fun later found => ?_⟩
      obtain ⟨impl, present, advanced⟩ := counted later found
      have least := held impl present
      omega

theorem CompleteRecordCodec.Aged.less {codec : CompleteRecordCodec} {epoch generation fewer : Nat}
    (aged : codec.Aged epoch generation) (le : fewer ≤ generation) : codec.Aged epoch fewer :=
  aged.imp_right fun ⟨equal, held⟩ =>
    ⟨equal, fun impl present => le.trans (held impl present)⟩

/-- A codec only ages, and an operation that touches it makes it older. -/
theorem Runs.aged {codecs after : Codecs} {operations : List Operation} {place epoch : Nat}
    (runs : Runs codecs operations after) :
    ∀ {codec : CompleteRecordCodec} {generation : Nat}, codecs[place]? = some codec →
      codec.Aged epoch generation → ∃ last, after[place]? = some last ∧
        last.Aged epoch generation ∧ ((∃ operation ∈ operations, operation.Touches place) →
          last.Aged epoch (generation + 1)) := by
  induction runs with
  | nil =>
    intro codec generation found aged
    refine ⟨codec, found, aged, ?_⟩
    rintro ⟨operation, member, -⟩
    cases member
  | cons unwrapped step later inductionHypothesis =>
    rename_i codecs middle after operation rest
    intro codec generation found aged
    obtain ⟨next, reached, kept, touched⟩ := step_codec unwrapped step found
    by_cases touches : operation.Touches place
    · obtain ⟨last, ends, older, -⟩ := inductionHypothesis reached ((touched touches).aged aged)
      exact ⟨last, ends, older.less (Nat.le_succ _), fun _ => older⟩
    · obtain rfl := kept touches
      obtain ⟨last, ends, stays, ages⟩ := inductionHypothesis reached aged
      refine ⟨last, ends, stays, ?_⟩
      rintro ⟨other, member, others⟩
      rcases List.mem_cons.mp member with rfl | among
      · exact absurd others touches
      · exact ages ⟨other, among, others⟩

/-- Operations that do not touch a codec leave it alone. -/
theorem Runs.untouched {codecs after : Codecs} {operations : List Operation} {place : Nat}
    (runs : Runs codecs operations after) :
    ∀ {codec : CompleteRecordCodec}, codecs[place]? = some codec →
      (∀ operation ∈ operations, ¬operation.Touches place) → after[place]? = some codec := by
  induction runs with
  | nil => exact fun found _ => found
  | cons unwrapped step later inductionHypothesis =>
    intro codec found untouched
    obtain ⟨here, others⟩ := List.forall_mem_cons.mp untouched
    obtain ⟨next, reached, kept, -⟩ := step_codec unwrapped step found
    obtain rfl := kept here
    exact inductionHypothesis reached others

/-- A codec that is older than a view cannot be read through it. -/
theorem readable_of_aged {codecs : Codecs} {place epoch generation : Nat}
    {codec : CompleteRecordCodec} (found : codecs[place]? = some codec)
    (aged : codec.Aged epoch (generation + 1)) :
    readable codecs (some place) epoch generation = none := by
  simp only [readable, found, Option.bind_eq_bind, Option.bind_some]
  cases present : codec.impl with
  | none => rfl
  | some impl =>
    rw [Option.bind_some, if_neg]
    rintro ⟨same, published⟩
    rcases aged with less | ⟨-, held⟩
    · omega
    · have least := held impl present
      simp only [Impl.isPublished, Bool.and_eq_true, beq_iff_eq] at published
      omega

end ProtocolAdapter.PublicApi
