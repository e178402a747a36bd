/-
This file defines the interface of the public host endpoint: the bindings and limits a host
asks for, the handles it holds, the requests it makes, and the replies. A callback is a
function of the scopes it runs in, of its own memory and of what it is shown.
-/

import ProtocolAdapter.PublicApi.StreamFramer
import ProtocolAdapter.PublicApi.Views

namespace ProtocolAdapter.PublicApi

open Foundation Description

/-! ### Requests -/

inductive HostAction where
  | decode
  | encode
  deriving DecidableEq

/-- The outcome of an operation. -/
inductive HostStatus where
  | ok
  | invalidArgument
  | invalidCompiledProtocol
  | invalidBinding
  | duplicateBinding
  | resourceLimitExceeded
  | allocationFailed
  | workspaceBusy
  | reentrantCall
  | expiredHandle
  | foreignHandle
  | staleHandle
  | wrongAction
  | wrongInputKind
  | resetRequired
  | generationExhausted
  | codecFailed
  | framingFailed
  | callbackFailed
  | internalError
  deriving DecidableEq

/-- An endpoint, bound to a pipeline with an action. -/
structure HostBindingSpec where
  endpointKey : List UInt8 := []
  action : HostAction := .decode
  pipelineIndex : Nat := 0
  decodeStreamCount : Nat := 1
  framingOptions : StreamFramerOptions := {}

structure HostLimits where
  maxBindings : Nat := 64
  maxChannels : Nat := 64
  maxIdentityBytes : Nat := 256
  maxAccountedBytes : Nat := 64 * 1024 * 1024
  codecOptions : CompleteRecordCodecOptions := {}

structure HostMemoryReport where
  facadeBytes : Nat := 0
  scopePayloadBytes : Nat := 0
  bindingStorageBytes : Nat := 0
  identityStorageBytes : Nat := 0
  channelStorageBytes : Nat := 0
  codecAccountedBytes : Nat := 0
  framerAccountedBytes : Nat := 0
  encodeBufferBytes : Nat := 0
  hostAccountedTotalBytes : Nat := 0
  retainedCompiledStateFacadeBytes : Nat := 0
  allocationCount : Nat := 0
  deriving DecidableEq

/-- A handle names a channel of the host with a scope, in one generation of the channel. -/
structure HostChannelHandle where
  scope : Nat := 0
  channelIndex : Nat := invalidIndex
  generation : Nat := 0
  assigned : Bool := false
  deriving DecidableEq

/-- A request to a host, without its callbacks. -/
inductive HostRequest where
  | find (endpointKey : List UInt8) (action : HostAction) (decodeStreamIndex : Nat)
  | observe (handle : HostChannelHandle)
  | reset (handle : HostChannelHandle)
  | decode (handle : HostChannelHandle) (frame : ByteView)
  | push (handle : HostChannelHandle) (input : ByteView)
  | continue (handle : HostChannelHandle)
  | encode (handle : HostChannelHandle) (messageIndex : Nat) (values : EncodeValues)

/-! ### Replies -/

structure HostFindResult where
  status : HostStatus := .invalidArgument
  handle : HostChannelHandle := {}
  deriving DecidableEq

structure HostObservation where
  status : HostStatus := .invalidArgument
  action : HostAction := .decode
  generation : Nat := 0
  resetRequired : Bool := false
  stream : Bool := false
  framing : StreamFramerObservation := {}
  deriving DecidableEq

/-- What one operation did. The counters add up all candidates of the operation; the codec
status is that of the last one. -/
structure HostOperationResult where
  status : HostStatus := .invalidArgument
  generation : Nat := 0
  codecAttempted : Bool := false
  codecStatus : CodecStatus := .invalidArgument
  bytesConsumed : Nat := 0
  bytesProduced : Nat := 0
  candidates : Nat := 0
  decodeAttempts : Nat := 0
  decodeSuccesses : Nat := 0
  decodeFailures : Nat := 0
  observerCallbacksReturned : Nat := 0
  businessCallbacksReturned : Nat := 0
  framingAttempted : Bool := false
  framing : StreamSubmitResult := {}
  resetRequired : Bool := false
  deriving DecidableEq

inductive HostReply where
  | find (result : HostFindResult)
  | observation (observed : HostObservation)
  | status (reported : HostStatus)
  | operation (result : HostOperationResult)
  deriving DecidableEq

/-- The reply to a request that is refused with a status before it touches anything. -/
def HostRequest.refused (request : HostRequest) (status : HostStatus) : HostReply :=
  match request with
  | .find _ _ _ => .find { status := status }
  | .observe _ => .observation { status := status }
  | .reset _ => .status status
  | .decode _ _ | .push _ _ | .continue _ | .encode _ _ _ => .operation { status := status }

/-- The status of a reply. -/
def HostReply.hostStatus : HostReply → HostStatus
  | .find result => result.status
  | .observation observed => observed.status
  | .status reported => reported
  | .operation result => result.status

@[simp] theorem HostRequest.refused_hostStatus (request : HostRequest) (status : HostStatus) :
    (request.refused status).hostStatus = status := by
  cases request <;> rfl

/-! ### Callbacks -/

/-- What a record view tells while its callback runs. -/
structure RecordReading where
  hasValue : Bool := false
  messageIndex : Nat := invalidIndex
  fields : List FieldReading := []
  deriving DecidableEq

/-- A decoded candidate, whether it failed or not. -/
structure HostCandidateView where
  generation : Nat := 0
  frame : ByteView := {}
  decodeStatus : CodecStatus := .invalidArgument
  record : DecodedRecordView := {}
  matchedMessageIndex : Option Nat := none
  requiredFieldCount : Nat := 0
  failedFieldFlatIndex : Option Nat := none
  conversionError : ConversionError := .none
  outputTainted : Bool := false
  deriving DecidableEq

/-- A successful output. -/
structure HostOutputView where
  action : HostAction := .decode
  generation : Nat := 0
  messageIndex : Nat := invalidIndex
  record : DecodedRecordView := {}
  frame : ByteView := {}
  bytes : ByteView := {}
  deriving DecidableEq

inductive HostCallbackAction where
  | continue
  | stop
  deriving DecidableEq

inductive CallbackEnd where
  | returned (action : HostCallbackAction)
  | threw
  deriving DecidableEq

/-! ### Scopes -/

/-- Whether a callback of a host runs on a thread. The scopes of the callbacks that run there are
linked, the innermost first, each with the host that owns it. -/
def isCallbackOwnerActive (owner : Nat) : List Nat → Bool
  | [] => false
  | scope :: previous => if scope = owner then true else isCallbackOwnerActive owner previous

@[simp] theorem isCallbackOwnerActive_eq_true {owner : Nat} {scopes : List Nat} :
    isCallbackOwnerActive owner scopes = true ↔ owner ∈ scopes := by
  induction scopes with
  | nil => simp [isCallbackOwnerActive]
  | cons scope previous inductionHypothesis =>
    unfold isCallbackOwnerActive
    split
    · rename_i same
      exact iff_of_true rfl (List.mem_cons.mpr (.inl same.symm))
    · rename_i other
      rw [inductionHypothesis, List.mem_cons, or_iff_right (Ne.symm other)]

/-- The scopes while a callback of a host runs. What runs after it, whether it returned or threw,
has the previous scopes again. -/
def callbackScope (owner : Nat) (previous : List Nat) : List Nat := owner :: previous

section

variable {σ : Type}

/-- A callback: under the scopes it runs in, it is given its memory, a view, and what the record
of the view tells; it ends, and leaves its memory. -/
abbrev HostCallback (σ View : Type) :=
  List Nat → σ → View → RecordReading → CallbackEnd × σ

/-- The callbacks of an operation; one is absent for a null pointer. -/
structure HostCallbacks (σ : Type) where
  sink : Option (HostCallback σ HostOutputView) := none
  observer : Option (HostCallback σ HostCandidateView) := none

end

/-- What a call finds: the scopes of its thread, whether the lease of the host is taken, and
whether the host that issued a handle is still alive. -/
structure CallContext where
  scopes : List Nat := []
  inUse : Bool := false
  alive : Nat → Bool := fun _ => true

/-- The status of a call that may not begin. The scopes are looked at first, then the lease. -/
def CallContext.refusal (context : CallContext) (owner : Nat) : Option HostStatus :=
  if isCallbackOwnerActive owner context.scopes then some .reentrantCall
  else if context.inUse then some .workspaceBusy
  else none

/-- A call of a host: a request with its callbacks, and the memory they start with. -/
structure HostCall (σ : Type) where
  request : HostRequest
  callbacks : HostCallbacks σ := {}
  memory : σ
  context : CallContext := {}

/-! ### What happened -/

/-- A candidate that an operation has handled: its one decode, what its record told, and the
callbacks that were called with it. -/
structure HandledCandidate where
  frame : ByteView
  decoded : DecodeResult
  record : RecordReading
  observed : Option (HostCandidateView × CallbackEnd) := none
  delivered : Option (HostOutputView × CallbackEnd) := none

/-- The frames that were decoded. -/
def framesHandled (handled : List HandledCandidate) : List (List UInt8) :=
  handled.map (·.frame.bytes)

end ProtocolAdapter.PublicApi
