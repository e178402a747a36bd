/-
This file is about the numbers an operation of a host reports. They count the candidates the
operation has handled, and only the last of these can have ended it.
-/

import ProtocolAdapter.PublicApi.HostSupervision

namespace ProtocolAdapter.PublicApi

open Foundation Description

open Framing (pushStreamChunkWith_plain pushStreamChunk_counted)

/-- The result of an operation. -/
def HostReply.result : HostReply → Option HostOperationResult
  | .operation result => some result
  | _ => none

theorem HostReply.result_eq_some {reply : HostReply} {result : HostOperationResult} :
    reply.result = some result ↔ reply = .operation result := by
  cases reply <;> simp [HostReply.result]

/-! ### Candidates -/

/-- The account of candidates adds up a number that each candidate adds to. -/
theorem foldl_account (count : HostOperationResult → Nat) (test : HandledCandidate → Bool)
    (adds : ∀ result candidate,
      count (HostOperationResult.account result candidate) = count result + (test candidate).toNat)
    (candidates : List HandledCandidate) (result : HostOperationResult) :
    count (candidates.foldl HostOperationResult.account result) =
      count result + candidates.countP test := by
  induction candidates generalizing result with
  | nil => rfl
  | cons candidate rest inductionHypothesis =>
    rw [List.foldl_cons, inductionHypothesis, adds, List.countP_cons, Nat.add_assoc,
      Nat.add_comm (Bool.toNat _)]
    cases test candidate <;> rfl

section

variable (result : HostOperationResult) (candidate : HandledCandidate)

@[simp] theorem account_candidates :
    (result.account candidate).candidates = result.candidates + 1 := by
  unfold HostOperationResult.account HostOperationResult.decoded
  dsimp only
  split <;> rfl

@[simp] theorem account_decodeAttempts :
    (result.account candidate).decodeAttempts = result.decodeAttempts + 1 := by
  unfold HostOperationResult.account HostOperationResult.decoded
  dsimp only
  split <;> rfl

@[simp] theorem account_decodeSuccesses :
    (result.account candidate).decodeSuccesses =
      result.decodeSuccesses + candidate.succeeded.toNat := by
  unfold HostOperationResult.account HostOperationResult.decoded HandledCandidate.succeeded
  dsimp only
  split <;> simp [*]

@[simp] theorem account_decodeFailures :
    (result.account candidate).decodeFailures =
      result.decodeFailures + (!candidate.succeeded).toNat := by
  unfold HostOperationResult.account HostOperationResult.decoded HandledCandidate.succeeded
  dsimp only
  split <;> simp [*]

@[simp] theorem account_observerCallbacksReturned :
    (result.account candidate).observerCallbacksReturned =
      result.observerCallbacksReturned + (returnedIn candidate.observed).toNat := by
  unfold HostOperationResult.account HostOperationResult.decoded
  dsimp only
  split <;> rfl

@[simp] theorem account_businessCallbacksReturned :
    (result.account candidate).businessCallbacksReturned =
      result.businessCallbacksReturned + (returnedIn candidate.delivered).toNat := by
  unfold HostOperationResult.account HostOperationResult.decoded
  dsimp only
  split <;> rfl

@[simp] theorem account_framing : (result.account candidate).framing = result.framing := by
  unfold HostOperationResult.account HostOperationResult.decoded
  dsimp only
  split <;> rfl

@[simp] theorem account_framingAttempted :
    (result.account candidate).framingAttempted = result.framingAttempted := by
  unfold HostOperationResult.account HostOperationResult.decoded
  dsimp only
  split <;> rfl

end

/-! ### Operations -/

/-- The numbers of a result count the candidates that were handled. -/
structure HostOperationResult.Counts (result : HostOperationResult)
    (handled : List HandledCandidate) (encoded : Option (HostOutputView × CallbackEnd)) : Prop where
  candidates : result.candidates = handled.length
  attempts : result.decodeAttempts = handled.length
  successes : result.decodeSuccesses = handled.countP (·.succeeded)
  failures : result.decodeFailures = handled.countP (!·.succeeded)
  observed : result.observerCallbacksReturned = handled.countP (returnedIn ·.observed)
  delivered : result.businessCallbacksReturned =
    handled.countP (returnedIn ·.delivered) + (returnedIn encoded).toNat

/-- A result that counts nothing counts no candidates. -/
theorem counts_nothing {result : HostOperationResult} (untouched : result.Untouched) :
    result.Counts [] none := by
  unfold HostOperationResult.Untouched at untouched
  rw [untouched]
  exact ⟨rfl, rfl, rfl, rfl, rfl, rfl⟩

/-- The account of a result that counts nothing counts the candidates. -/
theorem counts_foldl {result : HostOperationResult} (nothing : result.Counts [] none)
    (candidates : List HandledCandidate) :
    (candidates.foldl HostOperationResult.account result).Counts candidates none := by
  refine ⟨?_, ?_, ?_, ?_, ?_, ?_⟩
  · rw [foldl_account (·.candidates) (fun _ => true) account_candidates, nothing.candidates,
      List.countP_true]
    exact Nat.zero_add _
  · rw [foldl_account (·.decodeAttempts) (fun _ => true) account_decodeAttempts, nothing.attempts,
      List.countP_true]
    exact Nat.zero_add _
  · rw [foldl_account (·.decodeSuccesses) (·.succeeded) account_decodeSuccesses, nothing.successes]
    exact Nat.zero_add _
  · rw [foldl_account (·.decodeFailures) (!·.succeeded) account_decodeFailures, nothing.failures]
    exact Nat.zero_add _
  · rw [foldl_account (·.observerCallbacksReturned) (returnedIn ·.observed)
      account_observerCallbacksReturned, nothing.observed]
    exact Nat.zero_add _
  · rw [foldl_account (·.businessCallbacksReturned) (returnedIn ·.delivered)
      account_businessCallbacksReturned, nothing.delivered]
    exact Nat.zero_add _

/-- An account leaves the part of a result that is about its framer. -/
theorem foldl_account_framing (candidates : List HandledCandidate) (result : HostOperationResult) :
    (candidates.foldl HostOperationResult.account result).framingAttempted =
      result.framingAttempted := by
  induction candidates generalizing result with
  | nil => rfl
  | cons candidate rest inductionHypothesis =>
    rw [List.foldl_cons, inductionHypothesis, account_framingAttempted]

/-! ### Endings -/

/-- A candidate during which a callback threw is the last one. -/
theorem HandledCandidate.continues_of_threw {candidate : HandledCandidate}
    (threw : candidate.threw = true) : candidate.continues = false := by
  unfold HandledCandidate.threw at threw
  unfold HandledCandidate.continues
  rcases Bool.or_eq_true_iff.mp threw with observed | delivered
  · rw [continuesIn_of_threwIn observed, Bool.false_and]
  · rw [continuesIn_of_threwIn delivered, Bool.and_false]

/-- What only the last candidate can do is done at most once. -/
theorem countP_of_last {test : HandledCandidate → Bool} {handled : List HandledCandidate}
    (before : ∀ candidate ∈ handled.dropLast, test candidate = false) :
    handled.countP test = (handled.any test).toNat := by
  rcases List.eq_nil_or_concat handled with rfl | ⟨earlier, last, rfl⟩
  · rfl
  rw [List.concat_eq_append] at before ⊢
  rw [List.dropLast_concat] at before
  have none : earlier.countP test = 0 :=
    List.countP_eq_zero.mpr fun candidate member => by simp [before candidate member]
  have silent : earlier.any test = false := by
    simpa using before
  rw [List.countP_append, none, List.any_append, silent, Nat.zero_add, Bool.false_or]
  cases fails : test last <;> simp [fails]

section

variable {σ : Type} {scopes : List Nat} {sink : HostCallback σ HostOutputView}
  {observer : Option (HostCallback σ HostCandidateView)} {index pipelineIndex : Nat}
  {frameData : Option Nat}

/-- The sink returns for a candidate that was decoded successfully, unless a callback throws. -/
theorem Handles.returned {frame : ByteView} {attempt next : HostAttempt σ}
    {candidate : HandledCandidate}
    (handles : Handles scopes sink observer index pipelineIndex frame attempt candidate next) :
    returnedIn candidate.delivered = (candidate.succeeded && !candidate.threw) := by
  have delivers := handles.delivers
  unfold HandledCandidate.threw
  cases delivered : candidate.delivered with
  | none =>
    rw [delivered] at delivers
    rw [threwIn_none, Bool.or_false, ← delivers]
    rfl
  | some shown =>
    rw [delivered, Option.isSome_some, eq_comm, Bool.and_eq_true, Bool.not_eq_true'] at delivers
    obtain ⟨succeeded, quiet⟩ := delivers
    rw [succeeded, quiet]
    simp [returnedIn, threwIn]

theorem HandlesAll.returned {attempt after : HostAttempt σ} {candidates : List HandledCandidate}
    (handles :
      HandlesAll scopes sink observer index pipelineIndex frameData attempt candidates after) :
    ∀ candidate ∈ candidates,
      returnedIn candidate.delivered = (candidate.succeeded && !candidate.threw) := by
  induction handles with
  | nothing attempt => exact fun candidate member => by cases member
  | last handles ends => exact List.forall_mem_singleton.mpr handles.returned
  | more handles goesOn rest inductionHypothesis =>
    exact List.forall_mem_cons.mpr ⟨handles.returned, inductionHypothesis⟩

end

/-- Successes are delivered, but for one whose callbacks threw. -/
theorem delivered_countP {handled : List HandledCandidate}
    (returned : ∀ candidate ∈ handled,
      returnedIn candidate.delivered = (candidate.succeeded && !candidate.threw))
    (goesOn : ∀ candidate ∈ handled.dropLast, candidate.continues = true) :
    handled.countP (returnedIn ·.delivered) +
        (handled.any fun candidate => candidate.succeeded && candidate.threw).toNat =
      handled.countP (·.succeeded) := by
  have last : ∀ candidate ∈ handled.dropLast, (candidate.succeeded && candidate.threw) = false := by
    intro candidate member
    cases threw : candidate.threw with
    | false => exact Bool.and_false _
    | true =>
      have continues := goesOn candidate member
      rw [HandledCandidate.continues_of_threw threw] at continues
      cases continues
  have same : handled.countP (returnedIn ·.delivered) =
      handled.countP fun candidate => candidate.succeeded && !candidate.threw :=
    List.countP_congr fun candidate member => by rw [returned candidate member]
  rw [same, ← countP_of_last last, List.countP_eq_countP_filter_add handled (·.succeeded) (·.threw),
    List.countP_filter, List.countP_filter, Nat.add_comm]

section

variable {σ : Type} {host next : HostEndpoint} {call : HostCall σ} {outcome : HostOutcome σ}

/-- What the result of a call tells about what was handled. -/
structure HostOutcome.Reported (outcome : HostOutcome σ) (result : HostOperationResult) : Prop where
  counts : result.Counts outcome.handled outcome.encoded
  frames : result.framingAttempted = true →
    result.framing.candidatesDelivered = outcome.handled.length
  goesOn : ∀ candidate ∈ outcome.handled.dropLast, candidate.continues = true
  delivered : ∀ candidate ∈ outcome.handled,
    returnedIn candidate.delivered = (candidate.succeeded && !candidate.threw)

/-- What an operation reports when it works on a channel. -/
theorem Works.reported {scopes : List Nat} {index : Nat} {channel : HostChannel}
    {binding : HostBinding} {attempt : HostAttempt σ}
    {encoded : Option (HostOutputView × CallbackEnd)}
    (works : Works scopes index channel binding call attempt encoded) :
    (attempt.outcome encoded).Reported
      { attempt.result with resetRequired := attempt.channel.faulted } := by
  cases works with
  | @decoded _ _ _ candidate next request action whole present handles =>
    have handled : next.handled = [candidate] := handles.handled
    have nothing : (HostAttempt.on channel call.memory).result.Counts [] none := counts_nothing rfl
    have counts := counts_foldl nothing [candidate]
    have attempted := foldl_account_framing [candidate] (HostAttempt.on channel call.memory).result
    rw [List.foldl_cons, List.foldl_nil, ← handles.result] at counts attempted
    refine ⟨?_, fun framed => ?_, ?_, ?_⟩
    · simp only [HostAttempt.outcome, handled]
      exact ⟨counts.1, counts.2, counts.3, counts.4, counts.5, counts.6⟩
    · cases attempted.symm.trans framed
    · simp [HostAttempt.outcome, handled]
    · simp only [HostAttempt.outcome, handled]
      exact List.forall_mem_singleton.mpr handles.returned
  | @pushed input framer sink attempt submitted submits action framing present run =>
    obtain ⟨⟨function, plain⟩, deliveries⟩ := pushStreamChunkWith_plain run
    obtain ⟨candidates, handles, frames⟩ := deliveries_handled deliveries
    have handled : attempt.handled = candidates := handles.handled
    have counts := counts_foldl
      (show HostOperationResult.Counts
        { generation := channel.generation, status := .ok, framingAttempted := true } [] none from
          ⟨rfl, rfl, rfl, rfl, rfl, rfl⟩) candidates
    rw [← handles.result] at counts
    refine ⟨?_, fun framed => ?_, ?_, ?_⟩
    · simp only [HostAttempt.outcome, HostAttempt.framed, handled]
      exact ⟨counts.1, counts.2, counts.3, counts.4, counts.5, counts.6⟩
    · simp only [HostAttempt.outcome, HostAttempt.framed, handled, mapSubmitResult]
      rw [pushStreamChunk_counted plain, ← frames]
      exact List.length_map _
    · simp only [HostAttempt.outcome, HostAttempt.framed, handled]
      exact handles.goesOn
    · simp only [HostAttempt.outcome, HostAttempt.framed, handled]
      exact handles.returned
  | unencoded request action run failed =>
    exact ⟨⟨rfl, rfl, rfl, rfl, rfl, rfl⟩, fun framed => (by cases framed),
      fun candidate member => (by cases member), fun candidate member => (by cases member)⟩
  | @encoded _ _ _ _ sink view ran _ request action run succeeded present shown delivers =>
    obtain ⟨-, result, handled, -⟩ := invokeBusiness_eq delivers
    simp only [HostAttempt.outcome, handled, result]
    exact ⟨⟨rfl, rfl, rfl, rfl, rfl, Nat.zero_add _ ▸ rfl⟩, fun framed => (by cases framed),
      fun candidate member => (by cases member), fun candidate member => (by cases member)⟩

/-- The numbers of every result count what was handled: the candidates, their decodes and the
callbacks that returned. A stream counts the frames of its framer, only the last candidate can
have ended an operation, and each success was delivered unless a callback threw. -/
theorem operation_counted (ran : host.call call = some (outcome, next))
    {result : HostOperationResult} (reply : outcome.reply = .operation result) :
    result.Counts outcome.handled outcome.encoded ∧
    (result.framingAttempted = true →
      result.framing.candidatesDelivered = outcome.handled.length) ∧
    (∀ candidate ∈ outcome.handled.dropLast, candidate.continues = true) ∧
    outcome.handled.countP (returnedIn ·.delivered) +
        (outcome.handled.any fun candidate => candidate.succeeded && candidate.threw).toNat =
      result.decodeSuccesses := by
  have told : ∀ {outcome : HostOutcome σ}, outcome.Reported result →
      result.Counts outcome.handled outcome.encoded ∧
      (result.framingAttempted = true →
        result.framing.candidatesDelivered = outcome.handled.length) ∧
      (∀ candidate ∈ outcome.handled.dropLast, candidate.continues = true) ∧
      outcome.handled.countP (returnedIn ·.delivered) +
          (outcome.handled.any fun candidate => candidate.succeeded && candidate.threw).toNat =
        result.decodeSuccesses := fun reported =>
    ⟨reported.counts, reported.frames, reported.goesOn,
      (delivered_countP reported.delivered reported.goesOn).trans reported.counts.successes.symm⟩
  refine told ?_
  cases call_stepped ran with
  | quiet unreset untouched =>
    have nothing := untouched result reply
    refine ⟨counts_nothing nothing, fun framed => ?_, fun candidate member => (by cases member),
      fun candidate member => (by cases member)⟩
    rw [nothing] at framed
    cases framed
  | renewed => cases reply
  | stuck => cases reply
  | worked request free resolved bound working works =>
    obtain rfl := HostReply.operation.inj reply
    exact works.reported

/-- One record, decoded and delivered. -/
theorem operation_counted_ping : ∃ (host next : HostEndpoint) (outcome : HostOutcome Unit)
    (result : HostOperationResult),
    host.call pingCall = some (outcome, next) ∧ outcome.reply = .operation result ∧
      result.businessCallbacksReturned = 1 ∧ result.Counts outcome.handled outcome.encoded := by
  have facts : (pingHost.bind fun host => (host.call pingCall).bind fun ended =>
      ended.1.reply.result.map (·.businessCallbacksReturned)) = some 1 := by
    decide +kernel
  obtain ⟨host, -, facts⟩ := Option.bind_eq_some_iff.mp facts
  obtain ⟨⟨outcome, next⟩, ran, facts⟩ := Option.bind_eq_some_iff.mp facts
  obtain ⟨result, has, delivered⟩ := Option.map_eq_some_iff.mp facts
  have reply := HostReply.result_eq_some.mp has
  exact ⟨host, next, outcome, result, ran, reply, delivered, (operation_counted ran reply).1⟩

end

end ProtocolAdapter.PublicApi
