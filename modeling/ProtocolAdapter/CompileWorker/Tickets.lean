/-
This file follows the tickets and the results of the compile worker. A ticket is issued once,
waits until it is drained and leads to its result until the result is taken, unless its document
is closed. Every accepted request is in the queue, with the worker or behind a ticket, or the
ledger says why not.
-/

import ProtocolAdapter.CompileWorker.Ledger

namespace ProtocolAdapter.CompileWorker

variable {Artifacts : Type} {events : List (Event Artifacts)} {system : System Artifacts}

/-! ### Tickets and results -/

/-- How the tickets and the results follow from the ledger. -/
structure Ticketed (events : List (Event Artifacts)) (mailbox : Mailbox Artifacts) : Prop where
  numbered : (issued events).Pairwise (·.2.1 < ·.2.1)
  fresh : ∀ item ∈ issued events, item.2.1 < mailbox.nextTicket
  once : ((issued events).map (·.1)).Sublist (completed events)
  carried : ∀ item ∈ issued events, item.2.2.Carries item.1
  keys : (mailbox.storedResults.map (·.1)).Nodup
  stored : ∀ item ∈ mailbox.storedResults, ∃ request, (request, item) ∈ issued events
  handed : (drained events ++ mailbox.readyTickets).Sublist ((issued events).map (·.2.1))
  tookOnce : ((taken events).map (·.1)).Nodup
  took : ∀ item ∈ taken events, ∃ request, (request, item) ∈ issued events
  gone : ∀ item ∈ taken events, item.1 ∉ mailbox.storedResults.map (·.1)
  kept : ∀ item ∈ issued events, item.2.1 ∈ mailbox.readyTickets ∨
    item.1.documentId ∉ mailbox.closedDocuments →
      item.2 ∈ mailbox.storedResults ∨ item.2 ∈ taken events
  offered : ∀ item ∈ issued events, item.1.documentId ∉ mailbox.closedDocuments →
    item.2.1 ∈ mailbox.readyTickets ∨ item.2.1 ∈ drained events
  purged : ∀ item ∈ mailbox.storedResults, item.2.documentId ∉ mailbox.closedDocuments

theorem Ticketed.start : Ticketed ([] : List (Event Artifacts)) {} where
  numbered := List.Pairwise.nil
  fresh := fun _ member => nomatch member
  once := List.Sublist.refl []
  carried := fun _ member => nomatch member
  keys := List.nodup_nil
  stored := fun _ member => nomatch member
  handed := List.Sublist.refl []
  tookOnce := List.nodup_nil
  took := fun _ member => nomatch member
  gone := fun _ member => nomatch member
  kept := fun _ member => nomatch member
  offered := fun _ member => nomatch member
  purged := fun _ member => nomatch member

variable {mailbox : Mailbox Artifacts}

/-- A ticket is issued for one request, with one completion. -/
theorem Ticketed.same (ticketed : Ticketed events mailbox)
    {first second : Request × Nat × CompileCompletion Artifacts}
    (one : first ∈ issued events) (other : second ∈ issued events)
    (ticket : first.2.1 = second.2.1) : first = second := by
  have distinct : ((issued events).map (·.2.1)).Nodup :=
    List.pairwise_map.mpr (ticketed.numbered.imp fun less => Nat.ne_of_lt less)
  exact List.inj_on_of_nodup_map distinct one other ticket

/-- An operation on the queue leaves the tickets and the results. -/
theorem Ticketed.frame (ticketed : Ticketed events mailbox) {event : Event Artifacts}
    (issues : event.issues = none) (drains : event.drains = []) (takes : event.takes = none)
    (pending : List Request) (active : Option (Nat × Nat)) (nextEnqueueSequence : Nat) :
    Ticketed (events ++ [event]) { mailbox with
      pending := pending
      active := active
      nextEnqueueSequence := nextEnqueueSequence } where
  numbered := by simpa [issues] using ticketed.numbered
  fresh := by simpa [issues] using ticketed.fresh
  once := by
    rw [issued_snoc, issues, Option.toList_none, List.append_nil, completed_snoc]
    exact ticketed.once.trans (List.sublist_append_left _ _)
  carried := by simpa [issues] using ticketed.carried
  keys := ticketed.keys
  stored := by simpa [issues] using ticketed.stored
  handed := by simpa [issues, drains] using ticketed.handed
  tookOnce := by simpa [takes] using ticketed.tookOnce
  took := by simpa [issues, takes] using ticketed.took
  gone := by simpa [takes] using ticketed.gone
  kept := by simpa [issues, takes] using ticketed.kept
  offered := by simpa [issues, drains] using ticketed.offered
  purged := ticketed.purged

/-- The tickets after the waiting ones are handed out. -/
theorem Ticketed.drain (ticketed : Ticketed events mailbox) :
    Ticketed (events ++ [.drained mailbox.readyTickets])
      { mailbox with readyTickets := [] } where
  numbered := by simpa [Event.issues] using ticketed.numbered
  fresh := by simpa [Event.issues] using ticketed.fresh
  once := by simpa [Event.issues, Event.completes] using ticketed.once
  carried := by simpa [Event.issues] using ticketed.carried
  keys := ticketed.keys
  stored := by simpa [Event.issues] using ticketed.stored
  handed := by simpa [Event.issues, Event.drains] using ticketed.handed
  tookOnce := by simpa [Event.takes] using ticketed.tookOnce
  took := by simpa [Event.issues, Event.takes] using ticketed.took
  gone := by simpa [Event.takes] using ticketed.gone
  kept := by
    simp only [issued_snoc, taken_snoc, Event.issues, Event.takes, Option.toList_none,
      List.append_nil]
    rintro item member (⟨⟨⟩⟩ | unclosed)
    exact ticketed.kept item member (.inr unclosed)
  offered := by
    simp only [issued_snoc, drained_snoc, Event.issues, Event.drains, Option.toList_none,
      List.append_nil]
    intro item member unclosed
    refine .inr (List.mem_append.mpr ?_)
    exact (ticketed.offered item member unclosed).symm
  purged := ticketed.purged

/-- The results after one of them is handed out. -/
theorem Ticketed.take (ticketed : Ticketed events mailbox) {ticket : Nat}
    {completion : CompileCompletion Artifacts}
    (found : (ticket, completion) ∈ mailbox.storedResults) :
    Ticketed (events ++ [.taken ticket (some completion)])
      { mailbox with storedResults := mailbox.storedResults.filter (·.1 ≠ ticket) } where
  numbered := by simpa [Event.issues] using ticketed.numbered
  fresh := by simpa [Event.issues] using ticketed.fresh
  once := by simpa [Event.issues, Event.completes] using ticketed.once
  carried := by simpa [Event.issues] using ticketed.carried
  keys := ticketed.keys.sublist (List.filter_sublist.map _)
  stored := by
    simp only [issued_snoc, Event.issues, Option.toList_none, List.append_nil]
    exact fun item member => ticketed.stored item (List.mem_of_mem_filter member)
  handed := by simpa [Event.issues, Event.drains] using ticketed.handed
  tookOnce := by
    rw [taken_snoc, List.map_append]
    refine List.nodup_append.mpr ⟨ticketed.tookOnce, List.pairwise_singleton _ _, ?_⟩
    rintro earlier member _ (_ | ⟨_, ⟨⟩⟩) rfl
    obtain ⟨item, took, same⟩ := List.mem_map.mp member
    exact ticketed.gone item took (same ▸ List.mem_map_of_mem found)
  took := by
    simp only [issued_snoc, taken_snoc, Event.issues, Event.takes, Option.toList_none,
      List.append_nil]
    intro item member
    rcases List.mem_append.mp member with before | last
    · exact ticketed.took item before
    · obtain rfl := List.mem_singleton.mp last
      exact ticketed.stored _ found
  gone := by
    intro item member held
    obtain ⟨other, place, same⟩ := List.mem_map.mp held
    obtain ⟨within, apart⟩ := List.mem_filter.mp place
    rw [taken_snoc] at member
    rcases List.mem_append.mp member with before | last
    · exact ticketed.gone item before (same ▸ List.mem_map_of_mem within)
    · obtain rfl := List.mem_singleton.mp last
      exact of_decide_eq_true apart same
  kept := by
    simp only [issued_snoc, taken_snoc, Event.issues, Event.takes, Option.toList_none,
      List.append_nil]
    intro item member reason
    rcases ticketed.kept item member reason with held | took
    · by_cases same : item.2.1 = ticket
      · have alike := List.inj_on_of_nodup_map ticketed.keys held found same
        exact .inr (List.mem_append_right _ (alike ▸ List.mem_singleton_self _))
      · exact .inl (List.mem_filter.mpr ⟨held, decide_eq_true same⟩)
    · exact .inr (List.mem_append_left _ took)
  offered := by simpa [Event.issues, Event.drains] using ticketed.offered
  purged := fun item member => ticketed.purged item (List.mem_of_mem_filter member)

/-- A ticket that survives the close of a document leads to no result of it. -/
theorem closeDocument_surviving {documentId : Nat}
    {item : Request × Nat × CompileCompletion Artifacts} (held : item.2 ∈ mailbox.storedResults)
    (apart : item.2.1 ∈ (mailbox.closeDocument documentId).readyTickets ∨
      item.1.documentId ≠ documentId) (carries : item.2.2.Carries item.1) :
    item.2.2.documentId ≠ documentId := by
  rcases apart with waits | apart
  · intro same
    have absent := (List.mem_filter.mp waits).2
    rw [Bool.not_eq_true', List.any_eq_false] at absent
    exact absent item.2 held (by simp [same])
  · exact carries.1 ▸ apart

/-- The tickets and the results after a document is closed. -/
theorem Ticketed.close (ticketed : Ticketed events mailbox) (documentId : Nat) :
    Ticketed (events ++ [.closed documentId]) (mailbox.closeDocument documentId) where
  numbered := by simpa [Event.issues] using ticketed.numbered
  fresh := by
    simp only [issued_snoc, Event.issues, Option.toList_none, List.append_nil]
    exact ticketed.fresh
  once := by simpa [Event.issues, Event.completes] using ticketed.once
  carried := by simpa [Event.issues] using ticketed.carried
  keys := ticketed.keys.sublist (List.filter_sublist.map _)
  stored := by
    simp only [issued_snoc, Event.issues, Option.toList_none, List.append_nil]
    exact fun item member => ticketed.stored item (List.mem_of_mem_filter member)
  handed := by
    simp only [issued_snoc, drained_snoc, Event.issues, Event.drains, Option.toList_none,
      List.append_nil]
    exact ((List.Sublist.refl _).append List.filter_sublist).trans ticketed.handed
  tookOnce := by simpa [Event.takes] using ticketed.tookOnce
  took := by simpa [Event.issues, Event.takes] using ticketed.took
  gone := by
    simp only [taken_snoc, Event.takes, Option.toList_none, List.append_nil]
    intro item member held
    obtain ⟨other, place, same⟩ := List.mem_map.mp held
    exact ticketed.gone item member (same ▸ List.mem_map_of_mem (List.mem_of_mem_filter place))
  kept := by
    simp only [issued_snoc, taken_snoc, Event.issues, Event.takes, Option.toList_none,
      List.append_nil]
    intro item member reason
    have carries := ticketed.carried item member
    have earlier : item.2.1 ∈ mailbox.readyTickets ∨
        item.1.documentId ∉ mailbox.closedDocuments :=
      reason.imp List.mem_of_mem_filter fun unclosed shut =>
        unclosed (List.mem_insert_of_mem shut)
    rcases ticketed.kept item member earlier with held | took
    · have apart := closeDocument_surviving held (reason.imp_right
        fun unclosed same => unclosed (List.mem_insert_iff.mpr (.inl same))) carries
      exact .inl (List.mem_filter.mpr ⟨held, decide_eq_true apart⟩)
    · exact .inr took
  offered := by
    simp only [issued_snoc, drained_snoc, Event.issues, Event.drains, Option.toList_none,
      List.append_nil]
    intro item member unclosed
    have apart : item.1.documentId ≠ documentId := fun same =>
      unclosed (List.mem_insert_iff.mpr (.inl same))
    have earlier : item.1.documentId ∉ mailbox.closedDocuments := fun shut =>
      unclosed (List.mem_insert_of_mem shut)
    refine (ticketed.offered item member earlier).imp_left fun waits => ?_
    refine List.mem_filter.mpr ⟨waits, ?_⟩
    rw [Bool.not_eq_true', List.any_eq_false]
    intro other held both
    obtain ⟨key, own⟩ : other.1 = item.2.1 ∧ other.2.documentId = documentId := by
      simpa using both
    obtain ⟨request, place⟩ := ticketed.stored other held
    obtain rfl := ticketed.same place member key
    exact apart ((ticketed.carried _ member).1 ▸ own)
  purged := by
    intro item member shut
    obtain ⟨held, apart⟩ := List.mem_filter.mp member
    rcases List.mem_insert_iff.mp shut with same | earlier
    · exact of_decide_eq_true apart same
    · exact ticketed.purged item held earlier

/-- The tickets and the results after a completion is published. -/
theorem Ticketed.publish (ticketed : Ticketed events mailbox) {request : Request}
    {completion : CompileCompletion Artifacts} (carries : completion.Carries request)
    (unclosed : request.documentId ∉ mailbox.closedDocuments) :
    Ticketed (events ++ [.published request (some completion) (some mailbox.nextTicket)])
      { mailbox with
        active := none
        nextTicket := mailbox.nextTicket + 1
        readyTickets := mailbox.readyTickets ++ [mailbox.nextTicket]
        storedResults := mailbox.storedResults ++ [(mailbox.nextTicket, completion)] } where
  numbered := by
    rw [issued_snoc]
    refine List.pairwise_append.mpr ⟨ticketed.numbered, List.pairwise_singleton _ _, ?_⟩
    rintro item member _ (_ | ⟨_, ⟨⟩⟩)
    exact ticketed.fresh item member
  fresh := by
    rw [issued_snoc]
    intro item member
    rcases List.mem_append.mp member with before | last
    · exact Nat.lt_succ_of_lt (ticketed.fresh item before)
    · obtain rfl := List.mem_singleton.mp last
      exact Nat.lt_succ_self _
  once := by
    rw [issued_snoc, completed_snoc, List.map_append]
    exact ticketed.once.append (List.Sublist.refl _)
  carried := by
    rw [issued_snoc]
    intro item member
    rcases List.mem_append.mp member with before | last
    · exact ticketed.carried item before
    · obtain rfl := List.mem_singleton.mp last
      exact carries
  keys := by
    rw [List.map_append]
    refine List.nodup_append.mpr ⟨ticketed.keys, List.pairwise_singleton _ _, ?_⟩
    rintro key member _ (_ | ⟨_, ⟨⟩⟩) rfl
    obtain ⟨item, held, same⟩ := List.mem_map.mp member
    obtain ⟨_, place⟩ := ticketed.stored item held
    exact Nat.ne_of_lt (ticketed.fresh _ place) same
  stored := by
    rw [issued_snoc]
    intro item member
    rcases List.mem_append.mp member with before | last
    · exact (ticketed.stored item before).imp fun _ place => List.mem_append_left _ place
    · obtain rfl := List.mem_singleton.mp last
      exact ⟨request, List.mem_append_right _ (List.mem_singleton_self _)⟩
  handed := by
    rw [issued_snoc, drained_snoc, List.map_append, Event.drains, List.append_nil,
      ← List.append_assoc]
    · exact ticketed.handed.append (List.Sublist.refl _)
    · rintro _ ⟨⟩
  tookOnce := by simpa [Event.takes] using ticketed.tookOnce
  took := by
    simp only [issued_snoc, taken_snoc, Event.takes, Option.toList_none, List.append_nil]
    exact fun item member => (ticketed.took item member).imp fun _ place =>
      List.mem_append_left _ place
  gone := by
    simp only [taken_snoc, Event.takes, Option.toList_none, List.append_nil]
    intro item member held
    rw [List.map_append] at held
    rcases List.mem_append.mp held with before | last
    · exact ticketed.gone item member before
    · obtain ⟨_, place⟩ := ticketed.took item member
      exact Nat.ne_of_lt (ticketed.fresh _ place) (List.mem_singleton.mp last)
  kept := by
    rw [issued_snoc]
    simp only [taken_snoc, Event.takes, Option.toList_none, List.append_nil]
    intro item member reason
    rcases List.mem_append.mp member with before | last
    · have earlier : item.2.1 ∈ mailbox.readyTickets ∨
          item.1.documentId ∉ mailbox.closedDocuments := by
        refine reason.imp_left fun waits => ?_
        rcases List.mem_append.mp waits with waits | new
        · exact waits
        · exact absurd (List.mem_singleton.mp new) (Nat.ne_of_lt (ticketed.fresh item before))
      exact (ticketed.kept item before earlier).imp_left fun held => List.mem_append_left _ held
    · obtain rfl := List.mem_singleton.mp last
      exact .inl (List.mem_append_right _ (List.mem_singleton_self _))
  offered := by
    rw [issued_snoc]
    simp only [drained_snoc, Event.drains, List.append_nil]
    intro item member unfinished
    rcases List.mem_append.mp member with before | last
    · exact (ticketed.offered item before unfinished).imp_left fun waits =>
        List.mem_append_left _ waits
    · obtain rfl := List.mem_singleton.mp last
      exact .inl (List.mem_append_right _ (List.mem_singleton_self _))
  purged := by
    intro item member
    rcases List.mem_append.mp member with before | last
    · exact ticketed.purged item before
    · obtain rfl := List.mem_singleton.mp last
      exact carries.1 ▸ unclosed

/-! ### What becomes of a request -/

/-- Where every accepted request is, or why it is nowhere. -/
structure Accounted (events : List (Event Artifacts)) (system : System Artifacts) : Prop where
  fate : ∀ request ∈ accepted events, request ∈ system.mailbox.pending ∨
    request ∈ picked events ∨ Replaced request events ∨ ClosedEarly request events
  done : ∀ request ∈ completed events,
    (∃ ticket completion, (request, ticket, completion) ∈ issued events) ∨
      ClosedEarly request events
  interrupted : ∀ request, system.compiling = some request →
    request.documentId ∈ system.mailbox.closedDocuments → ClosedEarly request events

theorem Accounted.start : Accounted ([] : List (Event Artifacts)) {} where
  fate := fun _ member => nomatch member
  done := fun _ member => nomatch member
  interrupted := fun _ busy => nomatch busy

/-- A request in the queue has not been picked. -/
theorem Queued.unpicked (queued : Queued events system) {request : Request}
    (member : request ∈ system.mailbox.pending) : request ∉ picked events :=
  fun taken => Nat.lt_irrefl _ (queued.ahead request taken request member)

theorem Queued.completed_subset (queued : Queued events system) :
    completed events ⊆ picked events := by
  rw [queued.held]
  exact List.subset_append_left _ _

/-- The request that is being compiled has not been completed. -/
theorem Queued.uncompleted (queued : Queued events system) {request : Request}
    (busy : system.compiling = some request) :
    request ∈ accepted events ∧ request ∉ completed events := by
  have split := queued.held
  rw [busy, Option.toList_some] at split
  refine ⟨queued.known request (split ▸ List.mem_append_right _ (List.mem_singleton_self _)), ?_⟩
  intro earlier
  have inOrder := queued.inOrder
  rw [split] at inOrder
  exact Nat.lt_irrefl _ ((List.pairwise_append.mp inOrder).2.2 request earlier request
    (List.mem_singleton_self _))

/-- An operation that leaves the queue and the compilation leaves every fate. -/
theorem Accounted.frame (accounted : Accounted events system) {event : Event Artifacts}
    {next : System Artifacts} (accepts : event.accepts = none) (picks : event.picks = none)
    (completes : event.completes = none) (pending : next.mailbox.pending = system.mailbox.pending)
    (shut : next.mailbox.closedDocuments = system.mailbox.closedDocuments)
    (compiling : next.compiling = system.compiling) :
    Accounted (events ++ [event]) next where
  fate := by
    rw [accepted_snoc, accepts, Option.toList_none, List.append_nil, picked_snoc, picks,
      Option.toList_none, List.append_nil, pending]
    exact fun request member => (accounted.fate request member).imp_right fun later =>
      later.imp_right fun why => why.imp (·.snoc event) (·.snoc event)
  done := by
    rw [completed_snoc, completes, Option.toList_none, List.append_nil, issued_snoc]
    intro request member
    refine (accounted.done request member).imp ?_ (·.snoc event)
    rintro ⟨ticket, completion, place⟩
    exact ⟨ticket, completion, List.mem_append_left _ place⟩
  interrupted := by
    rw [compiling, shut]
    exact fun request busy closed => (accounted.interrupted request busy closed).snoc event

/-- The fates after a request takes its place at the end. -/
theorem Accounted.submit (accounted : Accounted events system) (queued : Queued events system)
    (request : Request) (nextEnqueueSequence : Nat) :
    Accounted (events ++ [.submitted request]) { system with mailbox := { system.mailbox with
      pending := system.mailbox.pending.filter (·.documentId ≠ request.documentId) ++ [request]
      nextEnqueueSequence := nextEnqueueSequence } } where
  fate := by
    intro other member
    simp only [picked_snoc, Event.picks, Option.toList_none, List.append_nil]
    rw [accepted_snoc] at member
    rcases List.mem_append.mp member with before | last
    · rcases accounted.fate other before with waits | taken | replaced | early
      · by_cases same : request.documentId = other.documentId
        · exact .inr (.inr (.inl
            ⟨events, request, [], rfl, same, before, queued.unpicked waits⟩))
        · exact .inl (List.mem_append_left _
            (List.mem_filter.mpr ⟨waits, decide_eq_true (Ne.symm same)⟩))
      · exact .inr (.inl taken)
      · exact .inr (.inr (.inl (replaced.snoc _)))
      · exact .inr (.inr (.inr (early.snoc _)))
    · exact .inl (List.mem_append_right _ last)
  done := by
    simp only [completed_snoc, issued_snoc, Event.completes, Event.issues, Option.toList_none,
      List.append_nil]
    exact fun other member => (accounted.done other member).imp_right (·.snoc _)
  interrupted := fun other busy shut => (accounted.interrupted other busy shut).snoc _

/-- The fates after a document is closed. -/
theorem Accounted.close (accounted : Accounted events system) (queued : Queued events system)
    (documentId : Nat) :
    Accounted (events ++ [.closed documentId])
      { system with mailbox := system.mailbox.closeDocument documentId } where
  fate := by
    simp only [accepted_snoc, picked_snoc, Event.accepts, Event.picks, Option.toList_none,
      List.append_nil]
    intro request member
    rcases accounted.fate request member with waits | taken | replaced | early
    · by_cases same : request.documentId = documentId
      · subst same
        exact .inr (.inr (.inr ⟨events, [], rfl, member,
          fun done => queued.unpicked waits (queued.completed_subset done)⟩))
      · exact .inl (List.mem_filter.mpr ⟨waits, decide_eq_true same⟩)
    · exact .inr (.inl taken)
    · exact .inr (.inr (.inl (replaced.snoc _)))
    · exact .inr (.inr (.inr (early.snoc _)))
  done := by
    simp only [completed_snoc, issued_snoc, Event.completes, Event.issues, Option.toList_none,
      List.append_nil]
    exact fun other member => (accounted.done other member).imp_right (·.snoc _)
  interrupted := by
    intro request busy shut
    rcases List.mem_insert_iff.mp shut with rfl | earlier
    · exact ⟨events, [], rfl, queued.uncompleted busy⟩
    · exact (accounted.interrupted request busy earlier).snoc _

/-- The fates after the worker takes a request. -/
theorem Accounted.pick (accounted : Accounted events system) (queued : Queued events system)
    {request : Request} (member : request ∈ system.mailbox.pending) (active : Option (Nat × Nat)) :
    Accounted (events ++ [.picked request])
      { mailbox := { system.mailbox with
          pending := system.mailbox.pending.erase request
          active := active }
        compiling := some request } where
  fate := by
    simp only [accepted_snoc, Event.accepts, Option.toList_none, List.append_nil]
    intro other known
    rw [picked_snoc]
    rcases accounted.fate other known with waits | taken | replaced | early
    · by_cases same : other = request
      · subst same
        exact .inr (.inl (List.mem_append_right _ (List.mem_singleton_self _)))
      · exact .inl ((List.mem_erase_of_ne same).mpr waits)
    · exact .inr (.inl (List.mem_append_left _ taken))
    · exact .inr (.inr (.inl (replaced.snoc _)))
    · exact .inr (.inr (.inr (early.snoc _)))
  done := by
    simp only [completed_snoc, issued_snoc, Event.completes, Event.issues, Option.toList_none,
      List.append_nil]
    exact fun other place => (accounted.done other place).imp_right (·.snoc _)
  interrupted := by
    intro other busy shut
    obtain rfl := Option.some.inj busy
    exact absurd shut (queued.unshut _ member)

/-- The fates after the worker completes its request. -/
theorem Accounted.publish (accounted : Accounted events system) {request : Request}
    (busy : system.compiling = some request) {completion : CompileCompletion Artifacts}
    {ticket : Option Nat} (shut : ticket = none →
      request.documentId ∈ system.mailbox.closedDocuments) {next : Mailbox Artifacts}
    (pending : next.pending = system.mailbox.pending) :
    Accounted (events ++ [.published request (some completion) ticket])
      { mailbox := next, compiling := none } where
  fate := by
    simp only [accepted_snoc, picked_snoc, Event.accepts, Event.picks, Option.toList_none,
      List.append_nil]
    rw [pending]
    exact fun other member => (accounted.fate other member).imp_right fun later =>
      later.imp_right fun why => why.imp (·.snoc _) (·.snoc _)
  done := by
    intro other member
    rw [completed_snoc] at member
    rw [issued_snoc]
    rcases List.mem_append.mp member with before | last
    · refine (accounted.done other before).imp ?_ (·.snoc _)
      rintro ⟨earlier, result, place⟩
      exact ⟨earlier, result, List.mem_append_left _ place⟩
    · obtain rfl := List.mem_singleton.mp last
      cases ticket with
      | none => exact .inr ((accounted.interrupted _ busy (shut rfl)).snoc _)
      | some ticket =>
        exact .inl ⟨ticket, completion, List.mem_append_right _ (List.mem_singleton_self _)⟩
  interrupted := fun _ busy => nomatch busy

/-! ### Every run -/

/-- What holds after any operations of the host and the worker. -/
structure Tracks (events : List (Event Artifacts)) (system : System Artifacts) : Prop where
  queued : Queued events system
  ticketed : Ticketed events system.mailbox
  accounted : Accounted events system

/-- One operation keeps the invariants. -/
theorem Tracks.step {compile : Request → CompileOutcome Artifacts} (completes : Completes compile)
    (tracks : Tracks events system) {event : Event Artifacts} {next : System Artifacts}
    (step : Step compile system event next) : Tracks (events ++ [event]) next := by
  obtain ⟨queued, ticketed, accounted⟩ := tracks
  cases step with
  | submit call =>
    obtain ⟨unclosed, room, rfl⟩ := Mailbox.submit_accepted call
    exact ⟨queued.submit _ rfl unclosed room, ticketed.frame rfl rfl rfl _ _ _,
      accounted.submit queued _ _⟩
  | refuse call refused =>
    obtain rfl := Mailbox.submit_refused call refused
    exact ⟨queued.frame rfl rfl rfl rfl _ _, ticketed.frame rfl rfl rfl _ _ _,
      accounted.frame rfl rfl rfl rfl rfl rfl⟩
  | close documentId =>
    exact ⟨queued.close documentId, ticketed.close documentId, accounted.close queued documentId⟩
  | drain =>
    exact ⟨queued.frame rfl rfl rfl rfl _ _, ticketed.drain,
      accounted.frame rfl rfl rfl rfl rfl rfl⟩
  | take ticket =>
    cases found : system.mailbox.takeResult ticket with
    | mk completion next =>
      cases completion with
      | none =>
        obtain rfl := Mailbox.takeResult_none found
        exact ⟨queued.frame rfl rfl rfl rfl _ _, ticketed.frame rfl rfl rfl _ _ _,
          accounted.frame rfl rfl rfl rfl rfl rfl⟩
      | some completion =>
        obtain ⟨member, rfl⟩ := Mailbox.takeResult_some found
        exact ⟨queued.frame rfl rfl rfl rfl _ _, ticketed.take member,
          accounted.frame rfl rfl rfl rfl rfl rfl⟩
  | pick idle call =>
    obtain ⟨member, first, rfl⟩ := Mailbox.pickRequest_some call
    exact ⟨queued.pick idle member first, ticketed.frame rfl rfl rfl _ _ _,
      accounted.pick queued member _⟩
  | @publish request busy =>
    obtain ⟨completion, result, carries⟩ := completes request
    have active : system.mailbox.active = some (request.documentId, request.loadRevision) := by
      rw [queued.active, busy, Option.map_some]
    rw [result, Mailbox.publishCompletion_eq queued.running active]
    by_cases shut : request.documentId ∈ system.mailbox.closedDocuments
    · rw [if_pos shut]
      exact ⟨queued.publish busy _ _ _ _ _, ticketed.frame rfl rfl rfl _ _ _,
        accounted.publish busy (fun _ => shut) rfl⟩
    · rw [if_neg shut]
      exact ⟨queued.publish busy _ _ _ _ _, ticketed.publish carries shut,
        accounted.publish busy (by rintro ⟨⟩) rfl⟩

/-- Every run keeps the invariants. -/
theorem Run.tracks {compile : Request → CompileOutcome Artifacts} (completes : Completes compile)
    (run : Run compile events system) : Tracks events system := by
  rw [Run] at run
  induction run with
  | start => exact ⟨Queued.start, Ticketed.start, Accounted.start⟩
  | step _ step inductionHypothesis => exact inductionHypothesis.step completes step

end ProtocolAdapter.CompileWorker
