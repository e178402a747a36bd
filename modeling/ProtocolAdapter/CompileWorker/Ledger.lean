/-
This file runs the host and the worker against the mailbox in any order, and keeps the ledger of
what each operation gave. What a run has accepted, picked, published, handed out and closed is
read from its events. The invariants relate the queue, the request that is being compiled, the
tickets and the stored results to that ledger.
-/

import ProtocolAdapter.CompileWorker.Mailbox

namespace ProtocolAdapter.CompileWorker

variable {Artifacts : Type}

/-! ### Events and runs -/

/-- An operation on the mailbox, with what it gave. -/
inductive Event (Artifacts : Type) where
  | submitted (request : Request)
  | refused (documentId : Nat) (status : SubmitStatus)
  | closed (documentId : Nat)
  | drained (tickets : List Nat)
  | taken (ticket : Nat) (completion : Option (CompileCompletion Artifacts))
  | picked (request : Request)
  | published (request : Request) (completion : Option (CompileCompletion Artifacts))
      (ticket : Option Nat)

/-- The mailbox, and the request the worker holds while it compiles without the lock. -/
structure System (Artifacts : Type) where
  mailbox : Mailbox Artifacts := {}
  compiling : Option Request := none

/-- One operation. Requests differ in their place in the queue, so a function of the request
covers compilations of one configuration that end differently. -/
inductive Step (compile : Request → CompileOutcome Artifacts) :
    System Artifacts → Event Artifacts → System Artifacts → Prop where
  | submit {system : System Artifacts} {documentId loadRevision : Nat}
      {configText sourceIdentity : List UInt8} {sourceFormat : ConfigSourceFormat}
      {next : Mailbox Artifacts}
      (call : system.mailbox.submit documentId loadRevision configText sourceFormat
        sourceIdentity = (.accepted, next)) :
      Step compile system
        (.submitted ⟨documentId, loadRevision, configText, sourceFormat, sourceIdentity,
          system.mailbox.nextEnqueueSequence⟩) { system with mailbox := next }
  | refuse {system : System Artifacts} {documentId loadRevision : Nat}
      {configText sourceIdentity : List UInt8} {sourceFormat : ConfigSourceFormat}
      {status : SubmitStatus} {next : Mailbox Artifacts}
      (call : system.mailbox.submit documentId loadRevision configText sourceFormat
        sourceIdentity = (status, next)) (refused : status ≠ .accepted) :
      Step compile system (.refused documentId status) { system with mailbox := next }
  | close (system : System Artifacts) (documentId : Nat) :
      Step compile system (.closed documentId)
        { system with mailbox := system.mailbox.closeDocument documentId }
  | drain (system : System Artifacts) :
      Step compile system (.drained system.mailbox.drainReadyTickets.1)
        { system with mailbox := system.mailbox.drainReadyTickets.2 }
  | take (system : System Artifacts) (ticket : Nat) :
      Step compile system (.taken ticket (system.mailbox.takeResult ticket).1)
        { system with mailbox := (system.mailbox.takeResult ticket).2 }
  | pick {system : System Artifacts} {request : Request} {next : Mailbox Artifacts}
      (idle : system.compiling = none) (call : system.mailbox.pickRequest = some (request, next)) :
      Step compile system (.picked request) { mailbox := next, compiling := some request }
  | publish {system : System Artifacts} {request : Request}
      (busy : system.compiling = some request) :
      Step compile system
        (.published request (completionOf request (compile request))
          (system.mailbox.publishCompletion (completionOf request (compile request))).1)
        { mailbox := (system.mailbox.publishCompletion
            (completionOf request (compile request))).2
          compiling := none }

/-- Operations one after the other, and the system they lead to. -/
inductive Path (compile : Request → CompileOutcome Artifacts) (first : System Artifacts) :
    List (Event Artifacts) → System Artifacts → Prop where
  | start : Path compile first [] first
  | step {events : List (Event Artifacts)} {event : Event Artifacts}
      {system next : System Artifacts} (path : Path compile first events system)
      (step : Step compile system event next) : Path compile first (events ++ [event]) next

/-- The operations since the worker started. -/
def Run (compile : Request → CompileOutcome Artifacts) (events : List (Event Artifacts))
    (system : System Artifacts) : Prop :=
  Path compile {} events system

/-- The compile function returns a completion that carries the document and the revision of its
request. -/
def Completes (compile : Request → CompileOutcome Artifacts) : Prop :=
  ∀ request, ∃ completion, completionOf request (compile request) = some completion ∧
    completion.Carries request

/-! ### The ledger -/

namespace Event

/-- The request an operation queues. -/
def accepts : Event Artifacts → Option Request
  | .submitted request => some request
  | _ => none

/-- The document an operation closes. -/
def closes : Event Artifacts → Option Nat
  | .closed documentId => some documentId
  | _ => none

/-- The request an operation takes from the queue. -/
def picks : Event Artifacts → Option Request
  | .picked request => some request
  | _ => none

/-- The request an operation completes, with or without a ticket. -/
def completes : Event Artifacts → Option Request
  | .published request _ _ => some request
  | _ => none

/-- The ticket an operation issues, with its request and its completion. -/
def issues : Event Artifacts → Option (Request × Nat × CompileCompletion Artifacts)
  | .published request (some completion) (some ticket) => some (request, ticket, completion)
  | _ => none

/-- The tickets an operation hands out. -/
def drains : Event Artifacts → List Nat
  | .drained tickets => tickets
  | _ => []

/-- The result an operation hands out. -/
def takes : Event Artifacts → Option (Nat × CompileCompletion Artifacts)
  | .taken ticket (some completion) => some (ticket, completion)
  | _ => none

end Event

section Ledger

variable (events : List (Event Artifacts))

/-- The requests that were queued. -/
def accepted : List Request := events.filterMap Event.accepts

/-- The documents that were closed. -/
def closed : List Nat := events.filterMap Event.closes

/-- The requests the worker took. -/
def picked : List Request := events.filterMap Event.picks

/-- The requests the worker completed. -/
def completed : List Request := events.filterMap Event.completes

/-- The tickets that were issued. -/
def issued : List (Request × Nat × CompileCompletion Artifacts) := events.filterMap Event.issues

/-- The tickets that were handed out. -/
def drained : List Nat := events.flatMap Event.drains

/-- The results that were handed out. -/
def taken : List (Nat × CompileCompletion Artifacts) := events.filterMap Event.takes

end Ledger

section Snoc

variable (events : List (Event Artifacts)) (event : Event Artifacts)

@[simp] theorem accepted_snoc :
    accepted (events ++ [event]) = accepted events ++ event.accepts.toList := by
  cases same : event.accepts <;> simp [accepted, same]

@[simp] theorem closed_snoc :
    closed (events ++ [event]) = closed events ++ event.closes.toList := by
  cases same : event.closes <;> simp [closed, same]

@[simp] theorem picked_snoc :
    picked (events ++ [event]) = picked events ++ event.picks.toList := by
  cases same : event.picks <;> simp [picked, same]

@[simp] theorem completed_snoc :
    completed (events ++ [event]) = completed events ++ event.completes.toList := by
  cases same : event.completes <;> simp [completed, same]

@[simp] theorem issued_snoc :
    issued (events ++ [event]) = issued events ++ event.issues.toList := by
  cases same : event.issues <;> simp [issued, same]

@[simp] theorem drained_snoc :
    drained (events ++ [event]) = drained events ++ event.drains := by
  simp [drained]

@[simp] theorem taken_snoc :
    taken (events ++ [event]) = taken events ++ event.takes.toList := by
  cases same : event.takes <;> simp [taken, same]

end Snoc

/-- A later request of the same document took the place of a request in the queue. -/
def Replaced (request : Request) (events : List (Event Artifacts)) : Prop :=
  ∃ before other after, events = before ++ .submitted other :: after ∧
    other.documentId = request.documentId ∧ request ∈ accepted before ∧ request ∉ picked before

/-- The document of a request was closed before the request was completed. -/
def ClosedEarly (request : Request) (events : List (Event Artifacts)) : Prop :=
  ∃ before after, events = before ++ .closed request.documentId :: after ∧
    request ∈ accepted before ∧ request ∉ completed before

theorem Replaced.snoc {request : Request} {events : List (Event Artifacts)}
    (replaced : Replaced request events) (event : Event Artifacts) :
    Replaced request (events ++ [event]) := by
  obtain ⟨before, other, after, rfl, rest⟩ := replaced
  exact ⟨before, other, after ++ [event], by rw [List.append_assoc, List.cons_append], rest⟩

theorem ClosedEarly.snoc {request : Request} {events : List (Event Artifacts)}
    (early : ClosedEarly request events) (event : Event Artifacts) :
    ClosedEarly request (events ++ [event]) := by
  obtain ⟨before, after, rfl, rest⟩ := early
  exact ⟨before, after ++ [event], by rw [List.append_assoc, List.cons_append], rest⟩

/-! ### The queue -/

/-- How the queue and the request that is being compiled follow from the ledger. -/
structure Queued (events : List (Event Artifacts)) (system : System Artifacts) : Prop where
  running : system.mailbox.stopping = false
  alone : (system.mailbox.pending.map (·.documentId)).Nodup
  short : system.mailbox.pending.length ≤ 2
  waiting : system.mailbox.pending.Sublist (accepted events)
  ordered : (accepted events).Pairwise (·.enqueueSequence < ·.enqueueSequence)
  behind : ∀ request ∈ accepted events,
    request.enqueueSequence < system.mailbox.nextEnqueueSequence
  known : ∀ request ∈ picked events, request ∈ accepted events
  inOrder : (picked events).Pairwise (·.enqueueSequence < ·.enqueueSequence)
  ahead : ∀ request ∈ picked events, ∀ other ∈ system.mailbox.pending,
    request.enqueueSequence < other.enqueueSequence
  active : system.mailbox.active =
    system.compiling.map fun request => (request.documentId, request.loadRevision)
  held : picked events = completed events ++ system.compiling.toList
  shut : ∀ documentId, documentId ∈ system.mailbox.closedDocuments ↔ documentId ∈ closed events
  unshut : ∀ request ∈ system.mailbox.pending,
    request.documentId ∉ system.mailbox.closedDocuments

theorem Queued.start : Queued ([] : List (Event Artifacts)) {} where
  running := rfl
  alone := List.nodup_nil
  short := Nat.zero_le 2
  waiting := List.Sublist.refl []
  ordered := List.Pairwise.nil
  behind := fun _ member => nomatch member
  known := fun _ member => nomatch member
  inOrder := List.Pairwise.nil
  ahead := fun _ member => nomatch member
  active := rfl
  held := rfl
  shut := fun _ => Iff.rfl
  unshut := fun _ member => nomatch member

variable {events : List (Event Artifacts)} {system next : System Artifacts}

/-- An operation on tickets and results leaves the queue. -/
theorem Queued.frame (queued : Queued events system) {event : Event Artifacts}
    (accepts : event.accepts = none) (picks : event.picks = none)
    (completes : event.completes = none) (closes : event.closes = none)
    (ready : List Nat) (stored : List (Nat × CompileCompletion Artifacts)) :
    Queued (events ++ [event]) { system with mailbox := { system.mailbox with
      readyTickets := ready
      storedResults := stored } } where
  running := queued.running
  alone := queued.alone
  short := queued.short
  waiting := by simpa [accepts] using queued.waiting
  ordered := by simpa [accepts] using queued.ordered
  behind := by simpa [accepts] using queued.behind
  known := by simpa [accepts, picks] using queued.known
  inOrder := by simpa [picks] using queued.inOrder
  ahead := by simpa [picks] using queued.ahead
  active := queued.active
  held := by simpa [picks, completes] using queued.held
  shut := by simpa [closes] using queued.shut
  unshut := queued.unshut

/-- The queue after a request takes its place at the end. -/
theorem Queued.submit (queued : Queued events system) (request : Request)
    (sequence : request.enqueueSequence = system.mailbox.nextEnqueueSequence)
    (unclosed : request.documentId ∉ system.mailbox.closedDocuments)
    (room : request.documentId ∈ system.mailbox.pending.map (·.documentId) ∨
      system.mailbox.pending.length < 2) :
    Queued (events ++ [.submitted request]) { system with mailbox := { system.mailbox with
      pending := system.mailbox.pending.filter (·.documentId ≠ request.documentId) ++ [request]
      nextEnqueueSequence := system.mailbox.nextEnqueueSequence + 1 } } where
  running := queued.running
  alone := by
    rw [List.map_append, List.map_singleton, List.nodup_append]
    refine ⟨queued.alone.sublist (List.filter_sublist.map _), List.pairwise_singleton _ _, ?_⟩
    rintro documentId member _ (_ | ⟨_, ⟨⟩⟩) rfl
    obtain ⟨other, kept, same⟩ := List.mem_map.mp member
    exact of_decide_eq_true (List.mem_filter.mp kept).2 same
  short := by
    rw [List.length_append, List.length_singleton]
    rcases room with replaces | room
    · obtain ⟨other, member, same⟩ := List.mem_map.mp replaces
      have fewer : (system.mailbox.pending.filter (·.documentId ≠ request.documentId)).length <
          system.mailbox.pending.length :=
        List.length_filter_lt_length_iff_exists.mpr ⟨other, member, by simpa using same⟩
      exact le_trans fewer queued.short
    · exact le_trans (Nat.succ_le_succ (List.length_filter_le _ _)) room
  waiting := by
    rw [accepted_snoc]
    exact (List.filter_sublist.trans queued.waiting).append (List.Sublist.refl _)
  ordered := by
    rw [accepted_snoc]
    refine List.pairwise_append.mpr ⟨queued.ordered, List.pairwise_singleton _ _, ?_⟩
    rintro other member _ (_ | ⟨_, ⟨⟩⟩)
    rw [sequence]
    exact queued.behind other member
  behind := by
    rw [accepted_snoc]
    intro other member
    rcases List.mem_append.mp member with before | last
    · exact Nat.lt_succ_of_lt (queued.behind other before)
    · obtain rfl := List.mem_singleton.mp last
      exact sequence ▸ Nat.lt_succ_self _
  known := by
    intro other member
    simp only [picked_snoc, Event.picks, Option.toList_none, List.append_nil] at member
    rw [accepted_snoc]
    exact List.mem_append_left _ (queued.known other member)
  inOrder := by simpa [Event.picks] using queued.inOrder
  ahead := by
    simp only [picked_snoc, Event.picks, Option.toList_none, List.append_nil]
    intro other member later place
    rcases List.mem_append.mp place with before | last
    · exact queued.ahead other member later (List.mem_of_mem_filter before)
    · obtain rfl := List.mem_singleton.mp last
      rw [sequence]
      exact queued.behind other (queued.known other member)
  active := queued.active
  held := by simpa [Event.picks, Event.completes] using queued.held
  shut := by simpa [Event.closes] using queued.shut
  unshut := by
    intro other member
    rcases List.mem_append.mp member with before | last
    · exact queued.unshut other (List.mem_of_mem_filter before)
    · obtain rfl := List.mem_singleton.mp last
      exact unclosed

/-- The queue after a document is closed. -/
theorem Queued.close (queued : Queued events system) (documentId : Nat) :
    Queued (events ++ [.closed documentId])
      { system with mailbox := system.mailbox.closeDocument documentId } where
  running := queued.running
  alone := queued.alone.sublist (List.filter_sublist.map _)
  short := le_trans (List.length_filter_le _ _) queued.short
  waiting := by
    simp only [accepted_snoc, Event.accepts, Option.toList_none, List.append_nil]
    exact List.filter_sublist.trans queued.waiting
  ordered := by simpa [Event.accepts] using queued.ordered
  behind := by
    simp only [accepted_snoc, Event.accepts, Option.toList_none, List.append_nil]
    exact queued.behind
  known := by simpa [Event.accepts, Event.picks] using queued.known
  inOrder := by simpa [Event.picks] using queued.inOrder
  ahead := by
    simp only [picked_snoc, Event.picks, Option.toList_none, List.append_nil]
    exact fun request member other place =>
      queued.ahead request member other (List.mem_of_mem_filter place)
  active := queued.active
  held := by simpa [Event.picks, Event.completes] using queued.held
  shut := by
    intro other
    rw [closed_snoc, List.mem_append, ← queued.shut other]
    exact List.mem_insert_iff.trans (by simp [Event.closes, or_comm])
  unshut := by
    intro request member shut
    obtain ⟨place, kept⟩ := List.mem_filter.mp member
    rcases List.mem_insert_iff.mp shut with same | earlier
    · exact of_decide_eq_true kept same
    · exact queued.unshut request place earlier

/-- The queue after the worker takes the first request. -/
theorem Queued.pick (queued : Queued events system) {request : Request}
    (idle : system.compiling = none) (member : request ∈ system.mailbox.pending)
    (first : ∀ other ∈ system.mailbox.pending,
      request.enqueueSequence ≤ other.enqueueSequence) :
    Queued (events ++ [.picked request])
      { mailbox := { system.mailbox with
          pending := system.mailbox.pending.erase request
          active := some (request.documentId, request.loadRevision) }
        compiling := some request } where
  running := queued.running
  alone := queued.alone.sublist (List.erase_sublist.map _)
  short := le_trans List.erase_sublist.length_le queued.short
  waiting := by simpa [Event.accepts] using List.erase_sublist.trans queued.waiting
  ordered := by simpa [Event.accepts] using queued.ordered
  behind := by simpa [Event.accepts] using queued.behind
  known := by
    simp only [accepted_snoc, Event.accepts, Option.toList_none, List.append_nil]
    rw [picked_snoc]
    intro other place
    rcases List.mem_append.mp place with before | last
    · exact queued.known other before
    · obtain rfl := List.mem_singleton.mp last
      exact queued.waiting.subset member
  inOrder := by
    rw [picked_snoc]
    refine List.pairwise_append.mpr ⟨queued.inOrder, List.pairwise_singleton _ _, ?_⟩
    rintro other place _ (_ | ⟨_, ⟨⟩⟩)
    exact queued.ahead other place request member
  ahead := by
    rw [picked_snoc]
    intro earlier place other waits
    rcases List.mem_append.mp place with before | last
    · exact queued.ahead earlier before other (List.mem_of_mem_erase waits)
    · obtain rfl := List.mem_singleton.mp last
      have increasing := queued.ordered.sublist queued.waiting
      have behind := first other (List.mem_of_mem_erase waits)
      refine lt_of_le_of_ne behind fun same => ?_
      have distinct : (system.mailbox.pending.map (·.enqueueSequence)).Nodup :=
        List.pairwise_map.mpr (increasing.imp fun less => Nat.ne_of_lt less)
      have alike := List.inj_on_of_nodup_map distinct member (List.mem_of_mem_erase waits) same
      exact (List.Nodup.of_map _ distinct).not_mem_erase (alike ▸ waits)
  active := rfl
  held := by
    rw [picked_snoc, completed_snoc, queued.held, idle]
    simp [Event.picks, Event.completes]
  shut := by simpa [Event.closes] using queued.shut
  unshut := fun other place => queued.unshut other (List.mem_of_mem_erase place)

/-- The queue after the worker completes its request. -/
theorem Queued.publish (queued : Queued events system) {request : Request}
    (busy : system.compiling = some request)
    (completion : Option (CompileCompletion Artifacts)) (ticket : Option Nat) (nextTicket : Nat)
    (ready : List Nat) (stored : List (Nat × CompileCompletion Artifacts)) :
    Queued (events ++ [.published request completion ticket])
      { mailbox := { system.mailbox with
          active := none
          nextTicket := nextTicket
          readyTickets := ready
          storedResults := stored }
        compiling := none } where
  running := queued.running
  alone := queued.alone
  short := queued.short
  waiting := by simpa [Event.accepts] using queued.waiting
  ordered := by simpa [Event.accepts] using queued.ordered
  behind := by simpa [Event.accepts] using queued.behind
  known := by simpa [Event.accepts, Event.picks] using queued.known
  inOrder := by simpa [Event.picks] using queued.inOrder
  ahead := by simpa [Event.picks] using queued.ahead
  active := rfl
  held := by simpa [Event.picks, Event.completes, busy] using queued.held
  shut := by simpa [Event.closes] using queued.shut
  unshut := queued.unshut

end ProtocolAdapter.CompileWorker
