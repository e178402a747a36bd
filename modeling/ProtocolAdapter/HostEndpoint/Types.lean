/-
This file defines the interface of the internal host endpoint: the bindings and limits a
host asks for, the handles it holds, the views its callbacks receive, and the results of
the operations. A callback is a function of the host's own state and the view; it returns
an action or throws.
-/

import ProtocolAdapter.Codec.Decode
import ProtocolAdapter.Codec.Encode
import ProtocolAdapter.Framing.Renewal

namespace ProtocolAdapter.HostEndpoint

open Codec Framing Foundation

/-! ### Requests -/

/-- What a binding does with its pipeline. -/
inductive Action where
  | decode
  | encode
  deriving DecidableEq

/-- The outcome of an operation. -/
inductive Status where
  | ok
  | invalidArgument
  | invalidBinding
  | unsupported
  | limitExceeded
  | allocationFailed
  | busy
  | wrongInputKind
  | codecFailed
  | framingFailed
  | callbackFailed
  | resetRequired
  deriving DecidableEq

/-- A logical endpoint, bound to a pipeline by its name. -/
structure BindingSpec where
  endpoint : List UInt8 := []
  action : Action := .decode
  pipeline : String := ""
  streams : Nat := 1
  framingLimits : FramingLimitOverrides := {}

/-- The limits of a session. -/
structure Limits where
  maxBindings : Nat := 64
  maxChannels : Nat := 64
  maxIdentityBytes : Nat := 256
  maxAccountedBytes : Nat := 64 * 1024 * 1024

/-- A handle names a channel of one session. It carries no generation. -/
structure Handle where
  scope : Option Nat := none
  channel : Nat := invalidIndex
  deriving DecidableEq

/-- A value for the field of the given name. Its own field reference stays empty. -/
structure NamedValue where
  fieldId : String := ""
  value : EncodeFieldValue := {}

/-- The array of named values a host passes, at an address. -/
structure NamedValues where
  data : Option Nat := none
  values : List NamedValue := []

/-! ### Callbacks -/

/-- The answer of a callback that returns. -/
inductive SinkAction where
  | continue
  | stop
  deriving DecidableEq

/-- How a callback ends. -/
inductive CallbackEnd where
  | returned (action : SinkAction)
  | threw
  deriving DecidableEq

/-- A successful output, borrowed for the time of the callback. -/
structure Output where
  action : Action := .decode
  generation : Nat := 0
  plan : Option Nat := none
  messageIndex : Nat := invalidIndex
  fields : List DecodedFieldSlot := []
  bytes : ByteView := {}

/-- A decoded candidate, whether it failed or not. A failed one has no fields and no raw
integers. -/
structure Candidate where
  generation : Nat := 0
  plan : Option Nat := none
  frame : ByteView := {}
  decoded : DecodeResult := {}
  fields : List DecodedFieldSlot := []
  rawIntegers : List (Option RawIntegerValue) := []

/-- A callback of a host whose own state is of type `σ`. -/
abbrev Callback (σ View : Type) := σ → View → CallbackEnd × σ

/-- The callbacks of an operation; a sink is absent for a null pointer. -/
structure Callbacks (σ : Type) where
  sink : Option (Callback σ Output) := none
  observer : Option (Callback σ Candidate) := none

/-! ### Results -/

/-- What one operation did. The counters add up all candidates of the operation; the codec
status is that of the last one. -/
structure Result where
  status : Status := .invalidArgument
  generation : Nat := 0
  codecAttempted : Bool := false
  codecStatus : CodecStatus := .invalidArgument
  successfulOutputs : Nat := 0
  decodeSuccesses : Nat := 0
  observedCandidates : Nat := 0
  decodeFailures : Nat := 0
  framingAttempted : Bool := false
  framing : SubmitResult := {}
  deriving DecidableEq

/-- What a session tells a host about a channel. -/
structure Observation where
  status : Status := .invalidBinding
  generation : Nat := 0
  resetRequired : Bool := false
  stream : Bool := false
  framing : StreamFramingObservation := {}
  deriving DecidableEq

end ProtocolAdapter.HostEndpoint
