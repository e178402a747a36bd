/-
This file models the mailbox of the compile worker. The host submits configurations, closes
documents, drains tickets and takes results; the worker thread picks a request, compiles it
without the lock, and publishes the completion. Every operation holds the lock of the mailbox
from its first access to its last, so it is one function of the mailbox. The counters are
numbers without a bound.
-/

import Mathlib.Data.List.MinMax
import Mathlib.Data.List.Nodup

namespace ProtocolAdapter.CompileWorker

/-! ### Requests and completions -/

/-- The format of a configuration. -/
inductive ConfigSourceFormat where
  | json
  | yaml
  deriving DecidableEq

/-- How a submission ends. -/
inductive SubmitStatus where
  | accepted
  | configTooLarge
  | queueCapacityExceeded
  | documentClosed
  | workerStopped
  deriving DecidableEq

/-- A configuration to compile. -/
structure Request where
  documentId : Nat
  loadRevision : Nat
  configText : List UInt8
  sourceFormat : ConfigSourceFormat
  sourceIdentity : List UInt8
  enqueueSequence : Nat
  deriving DecidableEq

/-- What a compilation leaves for a document. -/
structure CompileCompletion (Artifacts : Type) where
  documentId : Nat
  loadRevision : Nat
  artifacts : Option Artifacts := none
  diagnostic : Option String := none

/-- How a call of the compile function ends. -/
inductive CompileOutcome (Artifacts : Type) where
  | returned (completion : Option (CompileCompletion Artifacts))
  | threw

/-- The completion of a request. A compile function that throws still completes it. -/
def completionOf {Artifacts : Type} (request : Request) :
    CompileOutcome Artifacts → Option (CompileCompletion Artifacts)
  | .returned completion => completion
  | .threw => some
      { documentId := request.documentId
        loadRevision := request.loadRevision
        diagnostic := some "compile worker function threw an exception" }

/-- The completion is for the document and the revision of the request. -/
def CompileCompletion.Carries {Artifacts : Type} (completion : CompileCompletion Artifacts)
    (request : Request) : Prop :=
  completion.documentId = request.documentId ∧ completion.loadRevision = request.loadRevision

/-! ### The mailbox -/

/-- The most bytes of a configuration. -/
def maximumConfigBytes : Nat := 4 * 1024 * 1024

/-- The most bytes of a YAML configuration. -/
def yamlInputBytes : Nat := 16 * 1024

/-- The most bytes of the name of a YAML source. -/
def yamlAuxiliaryBytes : Nat := 128 * 1024

/-- What the lock protects. -/
structure Mailbox (Artifacts : Type) where
  pending : List Request := []
  active : Option (Nat × Nat) := none
  closedDocuments : List Nat := []
  storedResults : List (Nat × CompileCompletion Artifacts) := []
  readyTickets : List Nat := []
  nextEnqueueSequence : Nat := 1
  nextTicket : Nat := 1
  stopping : Bool := false

namespace Mailbox

variable {Artifacts : Type} (mailbox : Mailbox Artifacts)

/-- Whether a configuration is too long to be queued. -/
def tooLarge (configText : List UInt8) (sourceFormat : ConfigSourceFormat)
    (sourceIdentity : List UInt8) : Bool :=
  configText.length > maximumConfigBytes ||
    (sourceFormat == .yaml && (configText.length > yamlInputBytes ||
      sourceIdentity.length > yamlAuxiliaryBytes))

/-- Queues a request. A request of the same document that is still pending is replaced, and
the replacement takes a new place in the queue. -/
def submit (documentId loadRevision : Nat) (configText : List UInt8)
    (sourceFormat : ConfigSourceFormat) (sourceIdentity : List UInt8) :
    SubmitStatus × Mailbox Artifacts :=
  if tooLarge configText sourceFormat sourceIdentity then (.configTooLarge, mailbox)
  else if mailbox.stopping then (.workerStopped, mailbox)
  else if documentId ∈ mailbox.closedDocuments then (.documentClosed, mailbox)
  else if documentId ∉ mailbox.pending.map (·.documentId) ∧ mailbox.pending.length ≥ 2 then
    (.queueCapacityExceeded, mailbox)
  else
    let replacement : Request :=
      { documentId := documentId
        loadRevision := loadRevision
        configText := configText
        sourceFormat := sourceFormat
        sourceIdentity := sourceIdentity
        enqueueSequence := mailbox.nextEnqueueSequence }
    (.accepted, { mailbox with
      pending := mailbox.pending.filter (·.documentId ≠ documentId) ++ [replacement]
      nextEnqueueSequence := mailbox.nextEnqueueSequence + 1 })

/-- Closes a document: its pending request and its results go, with their tickets. -/
def closeDocument (documentId : Nat) : Mailbox Artifacts :=
  { mailbox with
    closedDocuments := mailbox.closedDocuments.insert documentId
    pending := mailbox.pending.filter (·.documentId ≠ documentId)
    readyTickets := mailbox.readyTickets.filter fun ticket =>
      !mailbox.storedResults.any fun item => item.1 = ticket && item.2.documentId = documentId
    storedResults := mailbox.storedResults.filter (·.2.documentId ≠ documentId) }

/-- Hands out the tickets that wait, and keeps the results. -/
def drainReadyTickets : List Nat × Mailbox Artifacts :=
  (mailbox.readyTickets, { mailbox with readyTickets := [] })

/-- Hands out the result behind a ticket. -/
def takeResult (ticket : Nat) : Option (CompileCompletion Artifacts) × Mailbox Artifacts :=
  match mailbox.storedResults.find? (·.1 = ticket) with
  | none => (none, mailbox)
  | some item =>
    (some item.2, { mailbox with
      storedResults := mailbox.storedResults.filter (·.1 ≠ ticket) })

/-- The worker takes the pending request that was queued first. It waits without one. -/
def pickRequest : Option (Request × Mailbox Artifacts) :=
  if mailbox.stopping then none
  else (mailbox.pending.argmin (·.enqueueSequence)).map fun request =>
    (request, { mailbox with
      pending := mailbox.pending.erase request
      active := some (request.documentId, request.loadRevision) })

/-- The worker publishes a completion under a new ticket, unless the document has been
closed. -/
def publishCompletion (completion : Option (CompileCompletion Artifacts)) :
    Option Nat × Mailbox Artifacts :=
  let activeDocument := match mailbox.active with
    | some (documentId, _) => documentId
    | none => 0
  let idle := { mailbox with active := none }
  match completion with
  | none => (none, idle)
  | some completion =>
    if mailbox.stopping = false ∧ activeDocument ∉ mailbox.closedDocuments then
      (some mailbox.nextTicket, { idle with
        nextTicket := mailbox.nextTicket + 1
        readyTickets := mailbox.readyTickets ++ [mailbox.nextTicket]
        storedResults := mailbox.storedResults ++ [(mailbox.nextTicket, completion)] })
    else (none, idle)

/-! ### What the operations do -/

variable {mailbox}

/-- An accepted request is the last in the queue, alone for its document. -/
theorem submit_accepted {documentId loadRevision : Nat} {configText sourceIdentity : List UInt8}
    {sourceFormat : ConfigSourceFormat} {next : Mailbox Artifacts}
    (run : mailbox.submit documentId loadRevision configText sourceFormat sourceIdentity =
      (.accepted, next)) :
    documentId ∉ mailbox.closedDocuments ∧
      (documentId ∈ mailbox.pending.map (·.documentId) ∨ mailbox.pending.length < 2) ∧
      next = { mailbox with
        pending := mailbox.pending.filter (·.documentId ≠ documentId) ++
          [⟨documentId, loadRevision, configText, sourceFormat, sourceIdentity,
            mailbox.nextEnqueueSequence⟩]
        nextEnqueueSequence := mailbox.nextEnqueueSequence + 1 } := by
  unfold submit at run
  split at run
  · cases run
  split at run
  · cases run
  split at run
  · cases run
  rename_i unclosed
  split at run
  · cases run
  rename_i room
  refine ⟨unclosed, ?_, (congrArg Prod.snd run).symm⟩
  by_cases queued : documentId ∈ mailbox.pending.map (·.documentId)
  · exact .inl queued
  · exact .inr (Nat.lt_of_not_le fun full => room ⟨queued, full⟩)

/-- A refused request changes nothing. -/
theorem submit_refused {documentId loadRevision : Nat} {configText sourceIdentity : List UInt8}
    {sourceFormat : ConfigSourceFormat} {status : SubmitStatus} {next : Mailbox Artifacts}
    (run : mailbox.submit documentId loadRevision configText sourceFormat sourceIdentity =
      (status, next)) (refused : status ≠ .accepted) : next = mailbox := by
  unfold submit at run
  repeat' split at run
  all_goals cases run
  all_goals first
    | rfl
    | exact absurd rfl refused

/-- The worker picks a pending request that no other precedes. -/
theorem pickRequest_some {request : Request} {next : Mailbox Artifacts}
    (run : mailbox.pickRequest = some (request, next)) :
    request ∈ mailbox.pending ∧
      (∀ other ∈ mailbox.pending, request.enqueueSequence ≤ other.enqueueSequence) ∧
      next = { mailbox with
        pending := mailbox.pending.erase request
        active := some (request.documentId, request.loadRevision) } := by
  unfold pickRequest at run
  split at run
  · cases run
  obtain ⟨found, least, same⟩ := Option.map_eq_some_iff.mp run
  obtain ⟨rfl, rfl⟩ := Prod.mk.inj same
  exact ⟨List.argmin_mem least, fun other member => List.le_of_mem_argmin member least, rfl⟩

/-- The worker picks a request when one is pending. -/
theorem pickRequest_isSome (running : mailbox.stopping = false) (waiting : mailbox.pending ≠ []) :
    ∃ request next, mailbox.pickRequest = some (request, next) := by
  cases least : mailbox.pending.argmin (·.enqueueSequence) with
  | none => exact absurd (List.argmin_eq_none.mp least) waiting
  | some request =>
    refine ⟨request, { mailbox with
      pending := mailbox.pending.erase request
      active := some (request.documentId, request.loadRevision) }, ?_⟩
    rw [pickRequest, running, if_neg Bool.false_ne_true, least]
    rfl

theorem takeResult_some {ticket : Nat} {completion : CompileCompletion Artifacts}
    {next : Mailbox Artifacts} (run : mailbox.takeResult ticket = (some completion, next)) :
    (ticket, completion) ∈ mailbox.storedResults ∧
      next = { mailbox with storedResults := mailbox.storedResults.filter (·.1 ≠ ticket) } := by
  unfold takeResult at run
  split at run
  · cases run
  rename_i item found
  obtain ⟨same, changed⟩ := Prod.mk.inj run
  obtain rfl := Option.some.inj same
  obtain rfl := changed
  have own : item.1 = ticket := by simpa using List.find?_some found
  subst own
  exact ⟨List.mem_of_find?_eq_some found, rfl⟩

theorem takeResult_none {ticket : Nat} {next : Mailbox Artifacts}
    (run : mailbox.takeResult ticket = (none, next)) : next = mailbox := by
  unfold takeResult at run
  split at run
  · exact (congrArg Prod.snd run).symm
  · cases run

/-- A stored result is handed out for its ticket. -/
theorem takeResult_of_mem {ticket : Nat} {completion : CompileCompletion Artifacts}
    (keys : (mailbox.storedResults.map (·.1)).Nodup)
    (member : (ticket, completion) ∈ mailbox.storedResults) :
    (mailbox.takeResult ticket).1 = some completion := by
  unfold takeResult
  split
  · rename_i missing
    exact absurd (List.find?_eq_none.mp missing _ member) (by simp)
  · rename_i item found
    have own : item.1 = ticket := by simpa using List.find?_some found
    have alike := List.inj_on_of_nodup_map keys (List.mem_of_find?_eq_some found) member own
    rw [alike]

theorem publishCompletion_pending (completion : Option (CompileCompletion Artifacts)) :
    (mailbox.publishCompletion completion).2.pending = mailbox.pending ∧
      (mailbox.publishCompletion completion).2.stopping = mailbox.stopping := by
  unfold publishCompletion
  cases completion with
  | none => exact ⟨rfl, rfl⟩
  | some completion =>
    dsimp only
    rw [apply_ite Prod.snd, apply_ite pending, apply_ite stopping, ite_self, ite_self]
    exact ⟨rfl, rfl⟩

/-- A completion is published under the next ticket when its document is open. -/
theorem publishCompletion_eq {completion : CompileCompletion Artifacts} {documentId revision : Nat}
    (running : mailbox.stopping = false) (active : mailbox.active = some (documentId, revision)) :
    mailbox.publishCompletion (some completion) =
      if documentId ∈ mailbox.closedDocuments then (none, { mailbox with active := none })
      else (some mailbox.nextTicket, { mailbox with
        active := none
        nextTicket := mailbox.nextTicket + 1
        readyTickets := mailbox.readyTickets ++ [mailbox.nextTicket]
        storedResults := mailbox.storedResults ++ [(mailbox.nextTicket, completion)] }) := by
  unfold publishCompletion
  simp only [active]
  by_cases closed : documentId ∈ mailbox.closedDocuments
  · rw [if_neg fun both => both.2 closed, if_pos closed]
  · rw [if_pos ⟨running, closed⟩, if_neg closed]

end Mailbox

end ProtocolAdapter.CompileWorker
