/-
This file says what one call of a public host can do. A call that is refused does nothing; a reset
renews one channel; an operation works on one channel that is not faulted, and what it reports is
determined by the candidates it has handled, one after the other.
-/

import ProtocolAdapter.PublicApi.HostOperations

namespace ProtocolAdapter.PublicApi

open Foundation Description

open Codec (MutableByteBuffer)

open Framing (Deliveries FrameSinkAction PushState pushStreamChunkWith pushStreamChunkWith_plain)

/-! ### Candidates -/

/-- Whether a candidate was decoded successfully. -/
def HandledCandidate.succeeded (candidate : HandledCandidate) : Bool :=
  candidate.decoded.status = .ok

/-- Whether a callback threw. -/
def threwIn {View : Type} (ran : Option (View × CallbackEnd)) : Bool :=
  ran.any fun shown => !shown.2.completed

/-- Whether a callback returned. -/
def returnedIn {View : Type} (ran : Option (View × CallbackEnd)) : Bool :=
  ran.any fun shown => shown.2.completed

/-- Whether a callback lets the operation go on, when there is one. -/
def continuesIn {View : Type} (ran : Option (View × CallbackEnd)) : Bool :=
  ran.all fun shown => shown.2.continues

@[simp] theorem threwIn_none {View : Type} : threwIn (none : Option (View × CallbackEnd)) = false :=
  rfl

@[simp] theorem returnedIn_none {View : Type} :
    returnedIn (none : Option (View × CallbackEnd)) = false := rfl

@[simp] theorem continuesIn_none {View : Type} :
    continuesIn (none : Option (View × CallbackEnd)) = true := rfl

/-- A callback that threw does not let the operation go on. -/
theorem continuesIn_of_threwIn {View : Type} {ran : Option (View × CallbackEnd)}
    (threw : threwIn ran = true) : continuesIn ran = false := by
  cases ran with
  | none => cases threw
  | some shown =>
    have threw : shown.2 = .threw := by simpa [threwIn, CallbackEnd.completed] using threw
    simp [continuesIn, CallbackEnd.continues, threw]

/-- Whether a callback threw while the candidate was handled. -/
def HandledCandidate.threw (candidate : HandledCandidate) : Bool :=
  threwIn candidate.observed || threwIn candidate.delivered

/-- Whether the operation goes on behind a candidate. -/
def HandledCandidate.continues (candidate : HandledCandidate) : Bool :=
  continuesIn candidate.observed && continuesIn candidate.delivered

/-- Whether a callback threw during a call. -/
def HostOutcome.threw {σ : Type} (outcome : HostOutcome σ) : Bool :=
  outcome.handled.any (·.threw) || threwIn outcome.encoded

/-- Accounts a handled candidate. -/
def HostOperationResult.account (result : HostOperationResult) (candidate : HandledCandidate) :
    HostOperationResult :=
  let result := result.decoded candidate.decoded.status
  { result with
    observerCallbacksReturned :=
      result.observerCallbacksReturned + (returnedIn candidate.observed).toNat
    businessCallbacksReturned :=
      result.businessCallbacksReturned + (returnedIn candidate.delivered).toNat
    status := if candidate.threw then .callbackFailed else result.status
    resetRequired := result.resetRequired || candidate.threw }

section

variable {σ : Type}

/-- Whether a callback keeps a property of its memory when it runs in a chain of scopes. -/
def Keeps {View : Type} (scopes : List Nat) (kept : σ → Prop) (callback : HostCallback σ View) :
    Prop :=
  ∀ memory view record, kept memory → kept (callback scopes memory view record).2

/-- How an attempt handles a candidate: it is decoded once, the observer is shown it, and the sink
is shown it when it was decoded successfully and the observer did not throw. -/
structure Handles (scopes : List Nat) (sink : HostCallback σ HostOutputView)
    (observer : Option (HostCallback σ HostCandidateView)) (index pipelineIndex : Nat)
    (frame : ByteView) (attempt : HostAttempt σ) (candidate : HandledCandidate)
    (next : HostAttempt σ) : Prop where
  same : candidate.frame = frame
  channel : ∃ codec,
    attempt.channel.codec.decode index false pipelineIndex frame = some (candidate.decoded, codec) ∧
      candidate.decoded.record.reading (codecAt index codec) = some candidate.record ∧
        next.channel = { attempt.channel with
          codec := codec, faulted := attempt.channel.faulted || candidate.threw }
  observes : candidate.observed.isSome = observer.isSome
  shown : ∀ ran ∈ candidate.observed,
    ran.1 = candidateView attempt.channel.generation frame candidate.decoded
  delivers : candidate.delivered.isSome = (candidate.succeeded && !threwIn candidate.observed)
  handed : ∀ ran ∈ candidate.delivered,
    ran.1 = outputView attempt.channel.generation frame candidate.decoded candidate.record
  memory : ∀ kept : σ → Prop, Keeps scopes kept sink →
    (∀ function ∈ observer, Keeps scopes kept function) → kept attempt.memory → kept next.memory
  result : next.result = attempt.result.account candidate
  handled : next.handled = attempt.handled ++ [candidate]

@[simp] theorem handle_channel (attempt : HostAttempt σ) (candidate : HandledCandidate) :
    (attempt.handle candidate).channel = attempt.channel := rfl

@[simp] theorem handle_result (attempt : HostAttempt σ) (candidate : HandledCandidate) :
    (attempt.handle candidate).result = attempt.result := rfl

section

variable {scopes : List Nat}

/-- A callback that has run. -/
theorem invoke_run {View : Type} (attempt : HostAttempt σ) (callback : HostCallback σ View)
    (view : View) (record : RecordReading) :
    ∃ run memory, callback scopes attempt.memory view record = (run, memory) ∧
      attempt.invoke scopes callback view record =
      (run, { attempt with
        memory := memory
        channel := { attempt.channel with faulted := attempt.channel.faulted || !run.completed }
        result := { attempt.result with
          status := if run.completed then attempt.result.status else .callbackFailed
          resetRequired := attempt.result.resetRequired || !run.completed } }) := by
  unfold HostAttempt.invoke CallbackEnd.completed
  cases ran : callback scopes attempt.memory view record with
  | mk run memory =>
    refine ⟨run, memory, rfl, ?_⟩
    cases run with
    | returned action => simp
    | threw => simp

/-- The observer has been shown a candidate, when there is one. -/
theorem invokeObserver_run (observer : Option (HostCallback σ HostCandidateView))
    (view : HostCandidateView) (record : RecordReading) (attempt : HostAttempt σ) :
    ∃ run memory, run.isSome = observer.isSome ∧
      (∀ kept : σ → Prop, (∀ function ∈ observer, Keeps scopes kept function) →
        kept attempt.memory → kept memory) ∧
      let shown := run.map fun run => (view, run)
      invokeObserver scopes observer view record attempt =
        (run, { attempt with
          memory := memory
          channel := { attempt.channel with
            faulted := attempt.channel.faulted || threwIn shown }
          result := { attempt.result with
            observerCallbacksReturned :=
              attempt.result.observerCallbacksReturned + (returnedIn shown).toNat
            status := if threwIn shown then .callbackFailed else attempt.result.status
            resetRequired := attempt.result.resetRequired || threwIn shown } }) := by
  unfold invokeObserver
  cases observer with
  | none =>
    exact ⟨none, attempt.memory, rfl, fun _ _ held => held, by simp [threwIn, returnedIn]⟩
  | some function =>
    obtain ⟨run, memory, ran, invoked⟩ := @invoke_run σ scopes _ attempt function view record
    refine ⟨some run, memory, rfl, fun kept keeps held => ?_, ?_⟩
    · have after := keeps function rfl attempt.memory view record held
      rwa [ran] at after
    · simp only [invoked]
      cases completed : run.completed <;> simp [threwIn, returnedIn, completed]

/-- The sink has been handed an output. -/
theorem invokeBusiness_run (sink : HostCallback σ HostOutputView) (view : HostOutputView)
    (record : RecordReading) (attempt : HostAttempt σ) :
    ∃ run memory,
      (∀ kept : σ → Prop, Keeps scopes kept sink → kept attempt.memory → kept memory) ∧
      let shown := some (view, run)
      invokeBusiness scopes sink view record attempt =
        (run, { attempt with
          memory := memory
          channel := { attempt.channel with
            faulted := attempt.channel.faulted || threwIn shown }
          result := { attempt.result with
            businessCallbacksReturned :=
              attempt.result.businessCallbacksReturned + (returnedIn shown).toNat
            status := if threwIn shown then .callbackFailed else attempt.result.status
            resetRequired := attempt.result.resetRequired || threwIn shown } }) := by
  unfold invokeBusiness
  obtain ⟨run, memory, ran, invoked⟩ := @invoke_run σ scopes _ attempt sink view record
  refine ⟨run, memory, fun kept keeps held => ?_, ?_⟩
  · have after := keeps attempt.memory view record held
    rwa [ran] at after
  · simp only [invoked]
    cases completed : run.completed <;> simp [threwIn, returnedIn, completed]

/-- What an attempt is when an output has been delivered. -/
theorem invokeBusiness_eq {sink : HostCallback σ HostOutputView} {view : HostOutputView}
    {record : RecordReading} {attempt next : HostAttempt σ} {run : CallbackEnd}
    (delivers : invokeBusiness scopes sink view record attempt = (run, next)) :
    next.channel = { attempt.channel with
        faulted := attempt.channel.faulted || threwIn (some (view, run)) } ∧
      next.result = { attempt.result with
        businessCallbacksReturned :=
          attempt.result.businessCallbacksReturned + (returnedIn (some (view, run))).toNat
        status := if threwIn (some (view, run)) then .callbackFailed else attempt.result.status
        resetRequired := attempt.result.resetRequired || threwIn (some (view, run)) } ∧
      next.handled = attempt.handled ∧
      ∀ kept : σ → Prop, Keeps scopes kept sink → kept attempt.memory → kept next.memory := by
  obtain ⟨other, memory, keeps, invoked⟩ := @invokeBusiness_run σ scopes sink view record attempt
  obtain ⟨rfl, rfl⟩ := Prod.mk.inj (invoked.symm.trans delivers)
  exact ⟨rfl, rfl, rfl, keeps⟩

theorem threw_of_incomplete {View : Type} {run : Option CallbackEnd} (view : View)
    (incomplete : run.all (·.completed) = false) :
    threwIn (run.map fun run => (view, run)) = true := by
  cases run with
  | none => cases incomplete
  | some run => simpa [threwIn] using incomplete

theorem returned_of_complete {View : Type} {run : Option CallbackEnd} (view : View)
    (complete : ¬run.all (·.completed) = false) :
    threwIn (run.map fun run => (view, run)) = false := by
  cases run with
  | none => rfl
  | some run => simpa [threwIn] using complete

theorem continuesIn_map {View : Type} (run : Option CallbackEnd) (view : View) :
    continuesIn (run.map fun run => (view, run)) = run.all (·.continues) := by
  cases run <;> rfl

/-- A candidate is decoded and handed over. -/
theorem decodeCandidate_handles {sink : HostCallback σ HostOutputView}
    {observer : Option (HostCallback σ HostCandidateView)} {index pipelineIndex : Nat}
    {frame : ByteView} {attempt next : HostAttempt σ} {continues : Bool}
    (run : decodeCandidate scopes sink observer index pipelineIndex frame attempt =
      some (continues, next)) :
    ∃ candidate, Handles scopes sink observer index pipelineIndex frame attempt candidate next ∧
      continues = candidate.continues := by
  unfold decodeCandidate at run
  obtain ⟨⟨decoded, codec⟩, decodes, run⟩ := Option.bind_eq_some_iff.mp run
  obtain ⟨record, reads, run⟩ := Option.bind_eq_some_iff.mp run
  unfold handOver at run
  dsimp only at run
  obtain ⟨observation, memory, observes, keeps, observed⟩ := @invokeObserver_run σ scopes observer
    (candidateView attempt.channel.generation frame decoded) record { attempt with
      channel := { attempt.channel with codec := codec }
      result := attempt.result.decoded decoded.status }
  simp only [observed] at run
  split at run
  · rename_i threw
    obtain ⟨rfl, rfl⟩ := Prod.mk.inj (Option.some.inj run)
    have threwObserver := threw_of_incomplete
      (candidateView attempt.channel.generation frame decoded) threw
    refine ⟨_, ⟨rfl, ⟨codec, decodes, reads, ?_⟩, ?_, ?_, ?_, by simp,
      fun kept _ watched held => keeps kept watched held, ?_, rfl⟩, ?_⟩
    · simp [HandledCandidate.threw]
    · simpa using observes
    · simp
    · simp [threwObserver]
    · simp [HostOperationResult.account, HandledCandidate.threw]
    · simp [HandledCandidate.continues, continuesIn_of_threwIn threwObserver]
  rename_i completed
  have returned := returned_of_complete (candidateView attempt.channel.generation frame decoded)
    completed
  split at run
  · rename_i failed
    obtain ⟨rfl, rfl⟩ := Prod.mk.inj (Option.some.inj run)
    refine ⟨_, ⟨rfl, ⟨codec, decodes, reads, ?_⟩, ?_, ?_, ?_, by simp,
      fun kept _ watched held => keeps kept watched held, ?_, rfl⟩, ?_⟩
    · simp [HandledCandidate.threw]
    · simpa using observes
    · simp
    · simp [HandledCandidate.succeeded, failed]
    · simp [HostOperationResult.account, HandledCandidate.threw]
    · simp [HandledCandidate.continues, continuesIn_map]
  · rename_i succeeded
    rw [not_not] at succeeded
    obtain ⟨business, later, lasting, delivered⟩ := @invokeBusiness_run σ scopes sink
      (outputView attempt.channel.generation frame decoded record) record
      { attempt with
        memory := memory
        channel := { attempt.channel with
          codec := codec
          faulted := attempt.channel.faulted || threwIn (observation.map fun run =>
            (candidateView attempt.channel.generation frame decoded, run)) }
        result := { attempt.result.decoded decoded.status with
          observerCallbacksReturned := (attempt.result.decoded
            decoded.status).observerCallbacksReturned + (returnedIn (observation.map fun run =>
              (candidateView attempt.channel.generation frame decoded, run))).toNat
          status := if threwIn (observation.map fun run =>
              (candidateView attempt.channel.generation frame decoded, run)) then .callbackFailed
            else (attempt.result.decoded decoded.status).status
          resetRequired := (attempt.result.decoded decoded.status).resetRequired ||
            threwIn (observation.map fun run =>
              (candidateView attempt.channel.generation frame decoded, run)) } }
    simp only [delivered] at run
    obtain ⟨rfl, rfl⟩ := Prod.mk.inj (Option.some.inj run)
    refine ⟨_, ⟨rfl, ⟨codec, decodes, reads, ?_⟩, ?_, ?_, ?_, ?_,
      fun kept sunk watched held => lasting kept sunk (keeps kept watched held), ?_, rfl⟩, ?_⟩
    · simp [HandledCandidate.threw, Bool.or_assoc]
    · simpa using observes
    · simp
    · simp [HandledCandidate.succeeded, succeeded, returned]
    · simp
    · simp [HostOperationResult.account, HandledCandidate.threw, returned]
    · simp [HandledCandidate.continues, continuesIn_map]
      simp [continuesIn]

end

/-! ### Several candidates -/

/-- How an attempt handles candidates one after the other: only the last may end the operation. -/
inductive HandlesAll (scopes : List Nat) (sink : HostCallback σ HostOutputView)
    (observer : Option (HostCallback σ HostCandidateView)) (index pipelineIndex : Nat)
    (frameData : Option Nat) : HostAttempt σ → List HandledCandidate → HostAttempt σ → Prop
  | nothing (attempt : HostAttempt σ) :
      HandlesAll scopes sink observer index pipelineIndex frameData attempt [] attempt
  | last {attempt next : HostAttempt σ} {frame : List UInt8} {candidate : HandledCandidate}
      (handles :
        Handles scopes sink observer index pipelineIndex ⟨frameData, frame⟩ attempt candidate next)
      (ends : candidate.continues = false) :
      HandlesAll scopes sink observer index pipelineIndex frameData attempt [candidate] next
  | more {attempt next after : HostAttempt σ} {frame : List UInt8} {candidate : HandledCandidate}
      {candidates : List HandledCandidate}
      (handles :
        Handles scopes sink observer index pipelineIndex ⟨frameData, frame⟩ attempt candidate next)
      (goesOn : candidate.continues = true)
      (rest : HandlesAll scopes sink observer index pipelineIndex frameData next candidates after) :
      HandlesAll scopes sink observer index pipelineIndex frameData attempt
        (candidate :: candidates) after

section

variable {scopes : List Nat} {sink : HostCallback σ HostOutputView}
  {observer : Option (HostCallback σ HostCandidateView)} {index pipelineIndex : Nat}
  {frameData : Option Nat} {attempt after : HostAttempt σ} {candidates : List HandledCandidate}

/-- The sink of a host handles every frame it is asked about. -/
theorem deliveries_handled {frames : List (List UInt8)}
    (deliveries : Deliveries (candidateSink scopes sink observer index pipelineIndex frameData)
      attempt frames after) :
    ∃ candidates,
      HandlesAll scopes sink observer index pipelineIndex frameData attempt candidates after ∧
      framesHandled candidates = frames := by
  have answered : ∀ {attempt next : HostAttempt σ} {frame : List UInt8} {action : FrameSinkAction},
      candidateSink scopes sink observer index pipelineIndex frameData attempt frame =
        some (action, next) →
      ∃ candidate, Handles scopes sink observer index pipelineIndex ⟨frameData, frame⟩ attempt
        candidate next ∧ action = if candidate.continues then .continue else .stop := by
    intro attempt next frame action answer
    obtain ⟨⟨continues, other⟩, run, same⟩ := Option.bind_eq_some_iff.mp answer
    obtain ⟨rfl, rfl⟩ := Prod.mk.inj (Option.some.inj same)
    obtain ⟨candidate, handles, rfl⟩ := decodeCandidate_handles run
    exact ⟨candidate, handles, rfl⟩
  induction deliveries with
  | nothing attempt => exact ⟨[], .nothing attempt, rfl⟩
  | stopped answer =>
    obtain ⟨candidate, handles, stops⟩ := answered answer
    have ends : candidate.continues = false := by
      by_contra goesOn
      rw [if_pos (Bool.eq_true_of_not_eq_false goesOn)] at stops
      cases stops
    exact ⟨[candidate], .last handles ends, by rw [framesHandled, List.map_singleton, handles.same]⟩
  | continued answer rest inductionHypothesis =>
    obtain ⟨candidate, handles, continues⟩ := answered answer
    have goesOn : candidate.continues = true := by
      by_contra ends
      rw [if_neg ends] at continues
      cases continues
    obtain ⟨candidates, others, rfl⟩ := inductionHypothesis
    exact ⟨candidate :: candidates, .more handles goesOn others,
      by rw [framesHandled, List.map_cons, handles.same]; rfl⟩

/-- What the candidates of an attempt leave of its channel. -/
theorem HandlesAll.channel
    (handles :
      HandlesAll scopes sink observer index pipelineIndex frameData attempt candidates after) :
    ∃ codec, after.channel = { attempt.channel with
      codec := codec, faulted := attempt.channel.faulted || candidates.any (·.threw) } := by
  induction handles with
  | nothing attempt => exact ⟨attempt.channel.codec, by simp⟩
  | last handles ends =>
    obtain ⟨codec, -, -, same⟩ := handles.channel
    exact ⟨codec, by simp [same]⟩
  | more handles goesOn rest inductionHypothesis =>
    obtain ⟨_, -, -, same⟩ := handles.channel
    obtain ⟨codec, later⟩ := inductionHypothesis
    exact ⟨codec, by simp [later, same, Bool.or_assoc]⟩

/-- The result accounts the candidates in their order. -/
theorem HandlesAll.result
    (handles :
      HandlesAll scopes sink observer index pipelineIndex frameData attempt candidates after) :
    after.result = candidates.foldl HostOperationResult.account attempt.result := by
  induction handles with
  | nothing attempt => rfl
  | last handles ends => exact handles.result
  | more handles goesOn rest inductionHypothesis =>
    rw [List.foldl_cons, ← handles.result]
    exact inductionHypothesis

theorem HandlesAll.handled
    (handles :
      HandlesAll scopes sink observer index pipelineIndex frameData attempt candidates after) :
    after.handled = attempt.handled ++ candidates := by
  induction handles with
  | nothing attempt => exact (List.append_nil _).symm
  | last handles ends => exact handles.handled
  | more handles goesOn rest inductionHypothesis =>
    rw [inductionHypothesis, handles.handled, List.append_assoc]
    rfl

/-- What the callbacks keep holds of the memory they leave. -/
theorem HandlesAll.memory
    (handles :
      HandlesAll scopes sink observer index pipelineIndex frameData attempt candidates after)
    {kept : σ → Prop} (sunk : Keeps scopes kept sink)
    (watched : ∀ function ∈ observer, Keeps scopes kept function) (held : kept attempt.memory) :
    kept after.memory := by
  induction handles with
  | nothing attempt => exact held
  | last handles ends => exact handles.memory kept sunk watched held
  | more handles goesOn rest inductionHypothesis =>
    exact inductionHypothesis (handles.memory kept sunk watched held)

/-- Behind a candidate that ends the operation there is no other one. -/
theorem HandlesAll.goesOn
    (handles :
      HandlesAll scopes sink observer index pipelineIndex frameData attempt candidates after) :
    ∀ candidate ∈ candidates.dropLast, candidate.continues = true := by
  induction handles with
  | nothing attempt => exact fun candidate member => by cases member
  | last handles ends => exact fun candidate member => by cases member
  | @more _ _ _ _ first candidates handles goesOn rest inductionHypothesis =>
    cases candidates with
    | nil => exact fun candidate member => by cases member
    | cons second others =>
      rw [List.dropLast_cons_cons]
      exact List.forall_mem_cons.mpr ⟨goesOn, inductionHypothesis⟩

end

/-! ### Calls -/

/-- The handle of a request, unless it looks for one. -/
def HostRequest.handle : HostRequest → Option HostChannelHandle
  | .find _ _ _ => none
  | .observe handle | .reset handle | .decode handle _ | .push handle _ | .continue handle
  | .encode handle _ _ => some handle

/-- An attempt at an operation that begins. -/
def HostAttempt.on (channel : HostChannel) (memory : σ) : HostAttempt σ where
  channel := channel
  result := { generation := channel.generation, status := .ok }
  memory := memory

/-- The outcome of an attempt. -/
def HostAttempt.outcome (attempt : HostAttempt σ)
    (encoded : Option (HostOutputView × CallbackEnd) := none) : HostOutcome σ where
  reply := .operation { attempt.result with resetRequired := attempt.channel.faulted }
  memory := attempt.memory
  handled := attempt.handled
  encoded := encoded

/-- An attempt after its framer was driven over a chunk. -/
def HostAttempt.framed (attempt : HostAttempt σ) (framer : StreamFramer) (submitted : PushState) :
    HostAttempt σ :=
  let framing := mapSubmitResult submitted.result
  { attempt with
    channel := { attempt.channel with
      framer := some { framer with workspace := submitted.workspace } }
    result := { attempt.result with
      framing := framing
      bytesConsumed := framing.bytesConsumed
      status :=
        if framing.status ≠ .ok ∧ attempt.result.status ≠ .callbackFailed then .framingFailed
        else attempt.result.status } }

/-- The chunk a request submits to a stream. -/
def HostRequest.submits : HostRequest → Option ByteView
  | .push _ input => some input
  | .continue _ => some {}
  | _ => none

/-- How an operation works on a channel. -/
inductive Works (scopes : List Nat) (index : Nat) (channel : HostChannel) (binding : HostBinding)
    (call : HostCall σ) : HostAttempt σ → Option (HostOutputView × CallbackEnd) → Prop
  | decoded {handle : HostChannelHandle} {frame : ByteView} {sink : HostCallback σ HostOutputView}
      {candidate : HandledCandidate} {next : HostAttempt σ}
      (request : call.request = .decode handle frame) (action : binding.action = .decode)
      (whole : channel.framer = none) (present : call.callbacks.sink = some sink)
      (handles : Handles scopes sink call.callbacks.observer index binding.pipelineIndex frame
        (.on channel call.memory) candidate next) :
      Works scopes index channel binding call
        { next with result := { next.result with bytesConsumed := frame.size } } none
  | pushed {input : ByteView} {framer : StreamFramer} {sink : HostCallback σ HostOutputView}
      {attempt : HostAttempt σ} {submitted : PushState}
      (submits : call.request.submits = some input) (action : binding.action = .decode)
      (framing : channel.framer = some framer) (present : call.callbacks.sink = some sink)
      (run : pushStreamChunkWith framer.state.plan framer.workspace framer.pipelineIndex input
        (candidateSink scopes sink call.callbacks.observer index binding.pipelineIndex
          framer.frameData)
        { HostAttempt.on channel call.memory with
          result :=
            { generation := channel.generation, status := .ok, framingAttempted := true } } =
        some (attempt, submitted)) :
      Works scopes index channel binding call (attempt.framed framer submitted) none
  | unencoded {handle : HostChannelHandle} {messageIndex : Nat} {values : EncodeValues}
      {encoded : EncodeEnd} (request : call.request = .encode handle messageIndex values)
      (action : binding.action = .encode)
      (run : channel.codec.encode false binding.pipelineIndex messageIndex values
        channel.encodeBuffer = some encoded) (failed : encoded.result.status ≠ .ok) :
      Works scopes index channel binding call
        { channel := { channel with
            codec := encoded.codec
            encodeBuffer := { channel.encodeBuffer with contents := encoded.output } }
          result :=
            { generation := channel.generation
              status := .codecFailed
              codecAttempted := true
              codecStatus := encoded.result.status }
          memory := call.memory } none
  | encoded {handle : HostChannelHandle} {messageIndex : Nat} {values : EncodeValues}
      {encoded : EncodeEnd} {sink : HostCallback σ HostOutputView} {view : HostOutputView}
      {ran : CallbackEnd} {attempt : HostAttempt σ}
      (request : call.request = .encode handle messageIndex values)
      (action : binding.action = .encode)
      (run : channel.codec.encode false binding.pipelineIndex messageIndex values
        channel.encodeBuffer = some encoded) (succeeded : encoded.result.status = .ok)
      (present : call.callbacks.sink = some sink)
      (shown : view =
        { action := .encode
          generation := channel.generation
          messageIndex := messageIndex
          bytes := ⟨channel.encodeBuffer.data, encoded.output.take encoded.result.bytesWritten⟩ })
      (delivers : invokeBusiness scopes sink view {}
        { channel := { channel with
            codec := encoded.codec
            encodeBuffer := { channel.encodeBuffer with contents := encoded.output } }
          result :=
            { generation := channel.generation
              status := .ok
              codecAttempted := true
              codecStatus := encoded.result.status
              bytesProduced := encoded.result.bytesWritten }
          memory := call.memory } = (ran, attempt)) :
      Works scopes index channel binding call attempt (some (view, ran))

/-- A result that counts nothing. -/
def HostOperationResult.Untouched (result : HostOperationResult) : Prop :=
  result = {
    status := result.status
    generation := result.generation
    resetRequired := result.resetRequired }

/-- What a call does to a host. -/
inductive Stepped (host : HostEndpoint) (call : HostCall σ) : HostOutcome σ → HostEndpoint → Prop
  | quiet {reply : HostReply}
      (unreset : ∀ handle, call.request = .reset handle → reply.hostStatus ≠ .ok)
      (untouched : ∀ result, reply = .operation result → result.Untouched) :
      Stepped host call { reply := reply, memory := call.memory } host
  | renewed {handle : HostChannelHandle} {index : Nat} {channel : HostChannel}
      (request : call.request = .reset handle)
      (resolved : host.resolve call.context.alive handle = .ok (index, channel))
      (fresh : channel.generation ≠ maxUint64)
      (reframed : ∀ framer, channel.framer = some framer → (framer.reset {}).1 = .ok) :
      Stepped host call { reply := .status .ok, memory := call.memory }
        (host.withChannel index { channel with
          codec := channel.codec.advanceViewEpoch
          generation := channel.generation + 1
          faulted := false
          framer := channel.framer.map fun framer => (framer.reset {}).2 })
  | stuck {handle : HostChannelHandle} {index : Nat} {channel : HostChannel}
      {framer : StreamFramer} (request : call.request = .reset handle)
      (resolved : host.resolve call.context.alive handle = .ok (index, channel))
      (framing : channel.framer = some framer) (failed : (framer.reset {}).1 ≠ .ok) :
      Stepped host call { reply := .status .framingFailed, memory := call.memory }
        (host.withChannel index { channel with framer := some (framer.reset {}).2 })
  | worked {handle : HostChannelHandle} {index : Nat} {channel : HostChannel}
      {binding : HostBinding} {attempt : HostAttempt σ}
      {encoded : Option (HostOutputView × CallbackEnd)}
      (request : call.request.handle = some handle)
      (free : call.context.refusal host.scope = none)
      (resolved : host.resolve call.context.alive handle = .ok (index, channel))
      (bound : host.bindings[channel.bindingIndex]? = some binding)
      (working : channel.faulted = false)
      (works : Works (callbackScope host.scope call.context.scopes) index channel binding call
        attempt encoded) :
      Stepped host call (attempt.outcome encoded) (host.withChannel index attempt.channel)

section

variable {host next : HostEndpoint} {call : HostCall σ} {outcome : HostOutcome σ}

/-- A refused operation does nothing. -/
theorem refuse_stepped (operation : ∀ handle, call.request ≠ .reset handle)
    {result : HostOperationResult} (untouched : result.Untouched) (status : HostStatus) :
    Stepped host call (host.refuse result status call.memory).outcome.1
      (host.refuse result status call.memory).outcome.2 := by
  refine .quiet (fun handle request => absurd request (operation handle)) fun other same => ?_
  obtain rfl := HostReply.operation.inj same
  unfold HostOperationResult.Untouched at untouched ⊢
  rw [untouched]
  rfl

theorem reset_stepped {handle : HostChannelHandle} (request : call.request = .reset handle) :
    Stepped host call
      { reply := .status (host.reset call.context handle).1, memory := call.memory }
      (host.reset call.context handle).2 := by
  have refused : ∀ {status : HostStatus}, status ≠ .ok →
      Stepped host call { reply := .status status, memory := call.memory } host :=
    fun other => .quiet (fun _ _ => other) fun _ same => by cases same
  unfold HostEndpoint.reset
  split
  · rename_i status refusal
    refine refused ?_
    rintro rfl
    unfold CallContext.refusal at refusal
    split at refusal
    · cases refusal
    split at refusal <;> cases refusal
  split
  · rename_i status unresolved
    refine refused ?_
    rintro rfl
    unfold HostEndpoint.resolve at unresolved
    split at unresolved
    · cases unresolved
    split at unresolved
    · split at unresolved <;> cases unresolved
    split at unresolved
    · cases unresolved
    split at unresolved <;> cases unresolved
  rename_i index channel resolved
  split
  · exact refused (by simp)
  rename_i fresh
  dsimp only
  cases framing : channel.framer with
  | none =>
    have renewed := Stepped.renewed request resolved fresh (by simp [framing])
    rw [framing] at renewed
    exact renewed
  | some framer =>
    cases outcome : framer.reset {} with
    | mk status after =>
      have renewed := Stepped.renewed request resolved fresh
      have stuck := Stepped.stuck request resolved framing
      rw [framing] at renewed
      simp only [Option.some.injEq, forall_eq', outcome, Option.map_some] at renewed stuck
      simp only [outcome]
      cases status with
      | ok => exact renewed rfl
      | _ => exact stuck (by simp)

theorem decode_stepped {handle : HostChannelHandle} {frame : ByteView} {done : OperationEnd σ}
    (request : call.request = .decode handle frame)
    (run : host.decode call.context handle frame call.callbacks call.memory = some done) :
    Stepped host call done.outcome.1 done.outcome.2 := by
  have operation : ∀ handle, call.request ≠ .reset handle := fun _ reset => by
    rw [request] at reset
    cases reset
  have refuses : ∀ result status, some (host.refuse result status call.memory) = some done →
      result.Untouched → Stepped host call done.outcome.1 done.outcome.2 := by
    rintro result status same untouched
    obtain rfl := Option.some.inj same
    exact refuse_stepped operation untouched status
  unfold HostEndpoint.decode at run
  split at run
  · exact refuses _ _ run rfl
  rename_i free
  split at run
  · exact refuses _ _ run rfl
  rename_i index channel resolved
  obtain ⟨binding, bound, run⟩ := Option.bind_eq_some_iff.mp run
  dsimp only at run
  split at run
  · exact refuses _ _ run rfl
  rename_i action
  split at run
  · exact refuses _ _ run rfl
  rename_i whole
  split at run
  · exact refuses _ _ run rfl
  rename_i sink present
  split at run
  · exact refuses _ _ run rfl
  split at run
  · exact refuses _ _ run rfl
  rename_i working
  obtain ⟨⟨continues, attempt⟩, decodes, run⟩ := Option.bind_eq_some_iff.mp run
  obtain rfl := Option.some.inj run
  obtain ⟨candidate, handles, -⟩ := decodeCandidate_handles decodes
  exact .worked (by rw [request]; rfl) free resolved bound (Bool.eq_false_of_not_eq_true working)
    (.decoded request (not_not.mp action) (Option.not_isSome_iff_eq_none.mp whole) present handles)

theorem push_stepped {handle : HostChannelHandle} {input : ByteView} {done : OperationEnd σ}
    (names : call.request.handle = some handle) (submits : call.request.submits = some input)
    (run : host.push call.context handle input call.callbacks call.memory = some done) :
    Stepped host call done.outcome.1 done.outcome.2 := by
  have operation : ∀ handle, call.request ≠ .reset handle := fun _ reset => by
    rw [reset] at submits
    cases submits
  have refuses : ∀ result status, some (host.refuse result status call.memory) = some done →
      result.Untouched → Stepped host call done.outcome.1 done.outcome.2 := by
    rintro result status same untouched
    obtain rfl := Option.some.inj same
    exact refuse_stepped operation untouched status
  unfold HostEndpoint.push at run
  split at run
  · exact refuses _ _ run rfl
  rename_i free
  split at run
  · exact refuses _ _ run rfl
  rename_i index channel resolved
  obtain ⟨binding, bound, run⟩ := Option.bind_eq_some_iff.mp run
  dsimp only at run
  split at run
  · exact refuses _ _ run rfl
  rename_i action
  split at run
  · exact refuses _ _ run rfl
  rename_i framer framing
  split at run
  · exact refuses _ _ run rfl
  rename_i sink present
  split at run
  · exact refuses _ _ run rfl
  rename_i lent
  split at run
  · exact refuses _ _ run rfl
  rename_i working
  obtain ⟨attempt, pushes, run⟩ := Option.bind_eq_some_iff.mp run
  obtain rfl := Option.some.inj run
  unfold pushChannel StreamFramer.push at pushes
  simp only [if_neg lent, Bool.false_eq_true, if_false] at pushes
  obtain ⟨⟨result, after, other⟩, drives, pushes⟩ := Option.bind_eq_some_iff.mp pushes
  obtain ⟨⟨memory, submitted⟩, ran, same⟩ := Option.bind_eq_some_iff.mp drives
  cases same
  obtain rfl := Option.some.inj pushes
  exact .worked names free resolved bound (Bool.eq_false_of_not_eq_true working)
    (.pushed submits (not_not.mp action) framing present ran)

theorem encode_stepped {handle : HostChannelHandle} {messageIndex : Nat} {values : EncodeValues}
    {done : OperationEnd σ} (request : call.request = .encode handle messageIndex values)
    (run : host.encode call.context handle messageIndex values call.callbacks.sink call.memory =
      some done) :
    Stepped host call done.outcome.1 done.outcome.2 := by
  have operation : ∀ handle, call.request ≠ .reset handle := fun _ reset => by
    rw [request] at reset
    cases reset
  have names : call.request.handle = some handle := by rw [request]; rfl
  have refuses : ∀ result status, some (host.refuse result status call.memory) = some done →
      result.Untouched → Stepped host call done.outcome.1 done.outcome.2 := by
    rintro result status same untouched
    obtain rfl := Option.some.inj same
    exact refuse_stepped operation untouched status
  unfold HostEndpoint.encode at run
  split at run
  · exact refuses _ _ run rfl
  rename_i free
  split at run
  · exact refuses _ _ run rfl
  rename_i index channel resolved
  obtain ⟨binding, bound, run⟩ := Option.bind_eq_some_iff.mp run
  dsimp only at run
  split at run
  · exact refuses _ _ run rfl
  rename_i action
  split at run
  · exact refuses _ _ run rfl
  rename_i working
  split at run
  · exact refuses _ _ run rfl
  split at run
  · exact refuses _ _ run rfl
  rename_i sink present
  split at run
  · exact refuses _ _ run rfl
  have idle := Bool.eq_false_of_not_eq_true working
  obtain ⟨encoded, encodes, run⟩ := Option.bind_eq_some_iff.mp run
  dsimp only at run
  split at run
  · rename_i failed
    obtain rfl := Option.some.inj run
    have stepped := Stepped.worked names free resolved bound idle
      (.unencoded request (not_not.mp action) encodes failed)
    simp only [HostAttempt.outcome, idle] at stepped
    simp only [OperationEnd.outcome, idle]
    exact stepped
  · rename_i succeeded
    obtain rfl := Option.some.inj run
    exact .worked names free resolved bound idle
      (.encoded request (not_not.mp action) encodes (not_not.mp succeeded) present rfl rfl)

/-- Every call is such a step. -/
theorem call_stepped (run : host.call call = some (outcome, next)) :
    Stepped host call outcome next := by
  have ended : ∀ {operation : Access (OperationEnd σ)},
      operation.map (·.outcome) = some (outcome, next) →
      (∀ done, operation = some done → Stepped host call done.outcome.1 done.outcome.2) →
        Stepped host call outcome next := by
    intro operation same stepped
    obtain ⟨done, ran, equal⟩ := Option.map_eq_some_iff.mp same
    have step := stepped done ran
    rw [equal] at step
    exact step
  unfold HostEndpoint.call at run
  dsimp only at run
  split at run
  · rename_i request
    obtain ⟨result, -, same⟩ := Option.map_eq_some_iff.mp run
    cases same
    exact .quiet (fun handle reset => by rw [request] at reset; cases reset)
      fun _ same => by cases same
  · rename_i request
    obtain ⟨result, -, same⟩ := Option.map_eq_some_iff.mp run
    cases same
    exact .quiet (fun handle reset => by rw [request] at reset; cases reset)
      fun _ same => by cases same
  · rename_i handle request
    cases run
    exact reset_stepped request
  · rename_i request
    exact ended run fun done ran => decode_stepped request ran
  · rename_i handle input request
    exact ended run fun done ran => push_stepped (by rw [request]; rfl) (by rw [request]; rfl) ran
  · rename_i handle request
    exact ended run fun done ran => push_stepped (by rw [request]; rfl) (by rw [request]; rfl) ran
  · rename_i request
    exact ended run fun done ran => encode_stepped request ran

end

end

end ProtocolAdapter.PublicApi
