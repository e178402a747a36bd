/-
This file states what the mailbox of the compile worker promises over every run: no accepted
request is lost, no ticket and no result is given twice, requests are taken in the order of the
queue, and a closed document never comes back. The worker alone can always empty the queue.
-/

import Mathlib.Data.List.Perm.Subperm
import ProtocolAdapter.CompileWorker.Tickets

namespace ProtocolAdapter.CompileWorker

variable {Artifacts : Type} {compile : Request → CompileOutcome Artifacts}
variable {events later : List (Event Artifacts)} {first system next : System Artifacts}

/-! ### Parts of a run -/

theorem Path.append (path : Path compile first events system)
    (rest : Path compile system later next) : Path compile first (events ++ later) next := by
  induction rest with
  | start => exact (List.append_nil events).symm ▸ path
  | step _ step inductionHypothesis =>
    rw [← List.append_assoc]
    exact inductionHypothesis.step step

theorem Path.single {event : Event Artifacts} (step : Step compile first event next) :
    Path compile first [event] next :=
  Path.start.step step

/-- A run passes through a system after any part of its operations. -/
theorem Path.split (path : Path compile first events next) :
    ∀ before after, events = before ++ after →
      ∃ system, Path compile first before system ∧ Path compile system after next := by
  induction path with
  | start =>
    intro before after same
    obtain ⟨rfl, rfl⟩ := List.append_eq_nil_iff.mp same.symm
    exact ⟨first, .start, .start⟩
  | @step events event system next path step inductionHypothesis =>
    intro before after same
    rcases List.eq_nil_or_concat after with rfl | ⟨shorter, last, rfl⟩
    · rw [List.append_nil] at same
      exact ⟨next, same ▸ path.step step, .start⟩
    · rw [List.concat_eq_append, ← List.append_assoc] at same
      obtain ⟨same, ends⟩ := List.append_inj' same rfl
      obtain ⟨middle, one, two⟩ := inductionHypothesis before shorter same
      rw [List.concat_eq_append, ← List.singleton_inj.mp ends]
      exact ⟨middle, one, two.step step⟩

/-- Every operation of a run is a step from the system its prefix leads to. -/
theorem Path.at {before after : List (Event Artifacts)} {event : Event Artifacts}
    (path : Path compile first (before ++ event :: after) next) :
    ∃ system reached, Path compile first before system ∧ Step compile system event reached ∧
      Path compile reached after next := by
  obtain ⟨reached, front, rest⟩ := path.split (before ++ [event]) after
    (by rw [List.append_assoc, List.singleton_append])
  generalize same : before ++ [event] = events at front
  cases front with
  | start => exact absurd same (List.append_ne_nil_of_right_ne_nil _ (List.cons_ne_nil _ _))
  | @step earlier last system _ front step =>
    obtain ⟨rfl, ends⟩ := List.append_inj' same rfl
    obtain rfl := List.singleton_inj.mp ends
    exact ⟨system, reached, front, step, rest⟩

/-! ### The worker alone -/

/-- Whether an operation is a critical section of the worker. -/
def Event.ofWorker : Event Artifacts → Bool
  | .picked _ => true
  | .published _ _ _ => true
  | _ => false

/-- The critical sections the worker needs to finish what is queued. -/
def System.work (system : System Artifacts) : Nat :=
  2 * system.mailbox.pending.length + system.compiling.toList.length

/-- As long as there is work, the worker has a step, and the step leaves less work. -/
theorem worker_progresses (running : system.mailbox.stopping = false) (busy : 0 < system.work) :
    ∃ event next, Step compile system event next ∧ event.ofWorker ∧
      next.mailbox.stopping = false ∧ next.work < system.work := by
  cases compiling : system.compiling with
  | some request =>
    refine ⟨_, _, .publish compiling, rfl, ?_, ?_⟩
    · rw [(Mailbox.publishCompletion_pending _).2, running]
    · rw [System.work, System.work, (Mailbox.publishCompletion_pending _).1, compiling]
      exact Nat.lt_succ_self _
  | none =>
    have waiting : system.mailbox.pending ≠ [] := by
      rintro empty
      rw [System.work, empty, compiling] at busy
      exact Nat.lt_irrefl 0 busy
    obtain ⟨request, next, call⟩ := Mailbox.pickRequest_isSome running waiting
    refine ⟨_, _, .pick compiling call, rfl, ?_, ?_⟩
    · obtain ⟨_, _, rfl⟩ := Mailbox.pickRequest_some call
      exact running
    · obtain ⟨member, _, rfl⟩ := Mailbox.pickRequest_some call
      rw [System.work, System.work, compiling, List.length_erase_of_mem member]
      have positive := List.length_pos_of_mem member
      simp only [Option.toList_some, Option.toList_none, List.length_singleton, List.length_nil]
      omega

/-- The worker alone empties the queue and completes what it holds. -/
theorem worker_settles (running : system.mailbox.stopping = false) :
    ∃ later idle, Path compile system later idle ∧ (∀ event ∈ later, event.ofWorker) ∧
      later.length ≤ system.work ∧ idle.mailbox.pending = [] ∧ idle.compiling = none := by
  induction size : system.work using Nat.strong_induction_on generalizing system with
  | _ work inductionHypothesis =>
    subst size
    rcases Nat.eq_zero_or_pos system.work with idle | busy
    · obtain ⟨empty, free⟩ := Nat.add_eq_zero_iff.mp idle
      refine ⟨[], system, .start, List.forall_mem_nil _, Nat.zero_le _, ?_, ?_⟩
      · exact List.length_eq_zero_iff.mp (by omega)
      · exact Option.toList_eq_nil_iff.mp (List.length_eq_zero_iff.mp free)
    · obtain ⟨event, next, step, own, running, less⟩ :=
        @worker_progresses _ compile _ running busy
      obtain ⟨later, idle, path, owns, length, settled⟩ :=
        inductionHypothesis next.work less running rfl
      refine ⟨event :: later, idle, (Path.single step).append path, ?_, ?_, settled⟩
      · exact List.forall_mem_cons.mpr ⟨own, owns⟩
      · exact le_trans (Nat.succ_le_succ length) less

/-! ### The order of the queue -/

/-- What is in the queue, or taken from it, was there before or has been accepted since. -/
theorem Step.from_queue {event : Event Artifacts} (step : Step compile system event next) :
    (∀ request ∈ next.mailbox.pending,
      request ∈ system.mailbox.pending ∨ event.accepts = some request) ∧
    ∀ request, event.picks = some request → request ∈ system.mailbox.pending := by
  cases step with
  | submit call =>
    obtain ⟨_, _, rfl⟩ := Mailbox.submit_accepted call
    refine ⟨fun request member => ?_, fun _ picks => by cases picks⟩
    rcases List.mem_append.mp member with before | last
    · exact .inl (List.mem_of_mem_filter before)
    · exact .inr (congrArg some (List.mem_singleton.mp last).symm)
  | refuse call refused =>
    obtain rfl := Mailbox.submit_refused call refused
    exact ⟨fun _ member => .inl member, fun _ picks => by cases picks⟩
  | close documentId =>
    exact ⟨fun _ member => .inl (List.mem_of_mem_filter member), fun _ picks => by cases picks⟩
  | drain => exact ⟨fun _ member => .inl member, fun _ picks => by cases picks⟩
  | take ticket =>
    refine ⟨fun request member => .inl ?_, fun request picks => ?_⟩
    · cases found : system.mailbox.takeResult ticket with
      | mk completion next =>
        rw [found] at member
        cases completion with
        | none => exact Mailbox.takeResult_none found ▸ member
        | some completion =>
          obtain ⟨_, rfl⟩ := Mailbox.takeResult_some found
          exact member
    · exact absurd picks (by simp [Event.picks])
  | pick idle call =>
    obtain ⟨member, _, rfl⟩ := Mailbox.pickRequest_some call
    refine ⟨fun _ place => .inl (List.mem_of_mem_erase place), fun request picks => ?_⟩
    exact Option.some.inj picks ▸ member
  | publish busy =>
    refine ⟨fun request member => .inl ?_, fun _ picks => by cases picks⟩
    exact (Mailbox.publishCompletion_pending _).1 ▸ member

/-- What is in the queue after a part of a run, or was taken in it, was in the queue before or
has been accepted since. -/
theorem Path.from_queue (path : Path compile first events next) :
    (∀ request ∈ next.mailbox.pending,
      request ∈ first.mailbox.pending ∨ request ∈ accepted events) ∧
    ∀ request ∈ picked events, request ∈ first.mailbox.pending ∨ request ∈ accepted events := by
  induction path with
  | start => exact ⟨fun _ member => .inl member, fun _ member => by cases member⟩
  | @step events event system next _ step inductionHypothesis =>
    obtain ⟨waits, taken⟩ := inductionHypothesis
    rw [accepted_snoc, picked_snoc]
    refine ⟨fun request member => ?_, fun request member => ?_⟩
    · rcases step.from_queue.1 request member with before | last
      · exact (waits request before).imp_right fun known => List.mem_append_left _ known
      · exact .inr (List.mem_append_right _ (Option.mem_toList.mpr last))
    · rcases List.mem_append.mp member with before | last
      · exact (taken request before).imp_right fun known => List.mem_append_left _ known
      · exact (waits request (step.from_queue.2 request (Option.mem_toList.mp last))).imp_right
          fun known => List.mem_append_left _ known

variable {before after : List (Event Artifacts)} {request : Request}

/-- When the worker takes a request, no earlier one is left. -/
theorem earlier_first (completes : Completes compile)
    (run : Run compile (before ++ .picked request :: after) system) {other : Request}
    (known : other ∈ accepted before) (earlier : other.enqueueSequence < request.enqueueSequence) :
    other ∈ picked before ∨ Replaced other before ∨ ClosedEarly other before := by
  obtain ⟨reached, _, front, step, _⟩ := run.at
  have tracks := Run.tracks completes front
  refine (tracks.accounted.fate other known).resolve_left fun waits => ?_
  cases step with
  | pick _ call =>
    have least := (Mailbox.pickRequest_some call).2.1 other waits
    exact Nat.lt_irrefl _ (Nat.lt_of_lt_of_le earlier least)

/-- While a request waits in the queue, the worker takes at most one other. -/
theorem waits_for_one (completes : Completes compile)
    (run : Run compile (before ++ .submitted request :: after) system)
    (waits : request ∈ system.mailbox.pending) : (picked after).length ≤ 1 := by
  obtain ⟨earlier, reached, front, step, rest⟩ := run.at
  have start := (Run.tracks completes (front.step step)).queued
  have finish := (Run.tracks completes run).queued
  have ordered := finish.ordered
  have inOrder := finish.inOrder
  have known : accepted (before ++ .submitted request :: after) =
      accepted before ++ request :: accepted after := by simp [accepted, Event.accepts]
  rw [known] at ordered
  have later : ∀ other ∈ accepted after, request.enqueueSequence < other.enqueueSequence :=
    fun _ => List.rel_of_pairwise_cons (List.pairwise_append.mp ordered).2.1
  have split : picked (before ++ .submitted request :: after) = picked before ++ picked after := by
    rw [picked, List.filterMap_append, List.filterMap_cons_none rfl]
    rfl
  rw [split] at inOrder
  have distinct : (request :: picked after).Nodup := by
    refine List.nodup_cons.mpr ⟨fun taken => ?_, ?_⟩
    · exact finish.unpicked waits (split ▸ List.mem_append_right _ taken)
    · exact (List.pairwise_append.mp inOrder).2.1.imp fun less same =>
        Nat.ne_of_lt less (congrArg _ same)
  have within : request :: picked after ⊆ reached.mailbox.pending := by
    refine List.cons_subset.mpr ⟨?_, fun other taken => ?_⟩
    · exact (rest.from_queue.1 request waits).resolve_right fun again =>
        Nat.lt_irrefl _ (later request again)
    · refine (rest.from_queue.2 other taken).resolve_right fun again => ?_
      have ahead := finish.ahead other (split ▸ List.mem_append_right _ taken) request waits
      exact Nat.lt_asymm ahead (later other again)
  exact Nat.le_of_succ_le_succ (le_trans (List.subperm_of_subset distinct within).length_le
    start.short)

/-! ### Closed documents -/

/-- After a document is closed no result of it is handed out. -/
theorem taken_closed (completes : Completes compile) {documentId : Nat}
    (run : Run compile (before ++ .closed documentId :: after) system) :
    ∀ item ∈ taken after, item.2.documentId ≠ documentId := by
  rintro ⟨ticket, completion⟩ member
  obtain ⟨event, place, takes⟩ := List.mem_filterMap.mp member
  obtain ⟨front, back, rfl⟩ := List.append_of_mem place
  rw [← List.cons_append, ← List.append_assoc] at run
  obtain ⟨reached, _, path, step, _⟩ := run.at
  have tracks := Run.tracks completes path
  have shut : documentId ∈ reached.mailbox.closedDocuments :=
    (tracks.queued.shut documentId).mpr
      (List.mem_filterMap.mpr ⟨.closed documentId, by simp, rfl⟩)
  cases step with
  | take ticket =>
    cases found : reached.mailbox.takeResult ticket with
    | mk result next =>
      rw [found] at takes
      cases result with
      | none => cases takes
      | some result =>
        obtain ⟨held, _⟩ := Mailbox.takeResult_some found
        cases takes
        exact fun same => tracks.ticketed.purged _ held (same ▸ shut)
  | _ => cases takes

/-- A ticket of a closed document is handed out only when its result had been taken before. -/
theorem drained_closed (completes : Completes compile) {documentId : Nat}
    (run : Run compile (before ++ .closed documentId :: after) system) :
    ∀ ticket ∈ drained after, ∀ item ∈ issued (before ++ .closed documentId :: after),
      item.2.1 = ticket → item.1.documentId = documentId → item.2 ∈ taken before := by
  rintro ticket member item known rfl own
  have whole := (Run.tracks completes run).ticketed
  obtain ⟨event, place, drains⟩ := List.mem_flatMap.mp member
  obtain ⟨front, back, rfl⟩ := List.append_of_mem place
  have regroup : before ++ .closed documentId :: (front ++ event :: back) =
      (before ++ .closed documentId :: front) ++ event :: back := by simp
  rw [regroup] at run known whole
  obtain ⟨reached, _, path, step, _⟩ := run.at
  have tracks := Run.tracks completes path
  cases step with
  | drain =>
    obtain ⟨other, placed, same⟩ := List.mem_map.mp
      (tracks.ticketed.handed.subset (List.mem_append_right _ drains))
    have alike : other = item := by
      refine whole.same ?_ known same
      rw [issued, List.filterMap_append]
      exact List.mem_append_left _ placed
    subst alike
    have result := tracks.ticketed.kept other placed (.inl drains)
    rcases result with held | took
    · refine absurd ((tracks.queued.shut documentId).mpr ?_) (own ▸
        (tracks.ticketed.carried other placed).1 ▸ tracks.ticketed.purged _ held)
      exact List.mem_filterMap.mpr ⟨.closed documentId, by simp, rfl⟩
    · have split : taken (before ++ .closed documentId :: front) = taken before ++ taken front := by
        rw [taken, List.filterMap_append, List.filterMap_cons_none rfl]
        rfl
      rw [split] at took
      refine (List.mem_append.mp took).resolve_right fun again => ?_
      exact taken_closed completes path _ again ((tracks.ticketed.carried other placed).1.trans own)
  | _ => cases drains

/-! ### The mailbox over every run -/

/-- In every run at most two requests wait; the worker takes them in the order of the queue, and
a waiting request lets at most one other go first; a request has at most one ticket, and one
ticket unless it is replaced, closed early or still on its way, and the worker alone can bring
it there; a ticket is handed out once and its result once, and neither is lost while the
document is open; and a closed document gives no result any more. -/
theorem mailbox_delivers (completes : Completes compile) (run : Run compile events system) :
    system.mailbox.pending.length ≤ 2 ∧
      (picked events).Pairwise (·.enqueueSequence < ·.enqueueSequence) ∧
      (∀ before request after, events = before ++ .picked request :: after →
        ∀ other ∈ accepted before, other.enqueueSequence < request.enqueueSequence →
          other ∈ picked before ∨ Replaced other before ∨ ClosedEarly other before) ∧
      (∀ before request after, events = before ++ .submitted request :: after →
        request ∈ system.mailbox.pending → (picked after).length ≤ 1) ∧
      ((issued events).map (·.1)).Nodup ∧
      (∀ request ∈ accepted events, ¬Replaced request events → ¬ClosedEarly request events →
        request ∈ system.mailbox.pending ∨ system.compiling = some request ∨
          ∃! item, item ∈ issued events ∧ item.1 = request) ∧
      (∃ later idle, Path compile system later idle ∧ (∀ event ∈ later, event.ofWorker) ∧
        later.length ≤ system.work ∧ idle.mailbox.pending = [] ∧ idle.compiling = none) ∧
      (drained events).Nodup ∧
      (∀ ticket ∈ drained events, ∃ item ∈ issued events, item.2.1 = ticket) ∧
      ((taken events).map (·.1)).Nodup ∧
      (∀ item ∈ taken events, ∃ request, (request, item) ∈ issued events) ∧
      (∀ item ∈ issued events, item.1.documentId ∉ closed events →
        (item.2.1 ∈ system.mailbox.readyTickets ∨ item.2.1 ∈ drained events) ∧
          (item.2 ∈ taken events ∨
            (system.mailbox.takeResult item.2.1).1 = some item.2.2)) ∧
      ∀ before documentId after, events = before ++ .closed documentId :: after →
        (∀ item ∈ taken after, item.2.documentId ≠ documentId) ∧
          ∀ ticket ∈ drained after, ∀ item ∈ issued events, item.2.1 = ticket →
            item.1.documentId = documentId → item.2 ∈ taken before := by
  have tracks := Run.tracks completes run
  obtain ⟨queued, ticketed, accounted⟩ := tracks
  have inOrder : (completed events).Pairwise (·.enqueueSequence < ·.enqueueSequence) :=
    (List.pairwise_append.mp (queued.held ▸ queued.inOrder)).1
  have oneEach : ((issued events).map (·.1)).Nodup :=
    (inOrder.imp fun less same => Nat.ne_of_lt less (congrArg _ same)).sublist ticketed.once
  have tickets : (drained events ++ system.mailbox.readyTickets).Nodup :=
    List.Nodup.sublist ticketed.handed
      (List.pairwise_map.mpr (ticketed.numbered.imp fun less => Nat.ne_of_lt less))
  refine ⟨queued.short, queued.inOrder, ?_, ?_, oneEach, ?_, worker_settles queued.running,
    (List.nodup_append.mp tickets).1, ?_, ticketed.tookOnce, ticketed.took, ?_, ?_⟩
  · rintro before request after rfl other known earlier
    exact earlier_first completes run known earlier
  · rintro before request after rfl waits
    exact waits_for_one completes run waits
  · intro request known kept unfinished
    rcases accounted.fate request known with waits | taken | replaced | early
    · exact .inl waits
    · rw [queued.held] at taken
      rcases List.mem_append.mp taken with done | busy
      · obtain ⟨ticket, completion, place⟩ := (accounted.done request done).resolve_right unfinished
        refine .inr (.inr ⟨(request, ticket, completion), ⟨place, rfl⟩, ?_⟩)
        rintro item ⟨other, same⟩
        exact List.inj_on_of_nodup_map oneEach other place same
      · exact .inr (.inl (Option.mem_toList.mp busy))
    · exact absurd replaced kept
    · exact absurd early unfinished
  · intro ticket member
    obtain ⟨item, place, same⟩ := List.mem_map.mp
      (ticketed.handed.subset (List.mem_append_left _ member))
    exact ⟨item, place, same⟩
  · intro item place unclosed
    rw [← queued.shut] at unclosed
    refine ⟨ticketed.offered item place unclosed, ?_⟩
    exact (ticketed.kept item place (.inr unclosed)).symm.imp_right
      (Mailbox.takeResult_of_mem ticketed.keys)
  · rintro before documentId after rfl
    exact ⟨taken_closed completes run, drained_closed completes run⟩

/-- A compile function that finds nothing to report. -/
def quietCompile (request : Request) : CompileOutcome Unit :=
  .returned (some
    { documentId := request.documentId
      loadRevision := request.loadRevision })

theorem quietCompile_completes : Completes quietCompile :=
  fun _ => ⟨_, rfl, rfl, rfl⟩

/-- An empty object, as the first configuration of a document. -/
def firstRequest : Request := ⟨7, 1, [0x7b, 0x7d], .json, [], 1⟩

/-- A configuration is queued, compiled, announced and taken, and its document is closed. -/
def quietEvents : List (Event Unit) :=
  [.submitted firstRequest, .picked firstRequest,
    .published firstRequest (some ⟨7, 1, none, none⟩) (some 1), .drained [1],
    .taken 1 (some ⟨7, 1, none, none⟩), .closed 7, .taken 1 none]

theorem quietEvents_run : ∃ system, Run quietCompile quietEvents system := by
  have accepted := Path.start.step
    (@Step.submit Unit quietCompile {} 7 1 [0x7b, 0x7d] [] .json _ rfl)
  have picked := accepted.step (.pick rfl (rfl : _ = some (firstRequest, _)))
  have published := picked.step (.publish rfl)
  have handed := (published.step (.drain _)).step (.take _ 1)
  exact ⟨_, (handed.step (.close _ 7)).step (.take _ 1)⟩

theorem mailbox_delivers_quiet :
    (∃ system, Run quietCompile quietEvents system) ∧ (drained quietEvents).Nodup ∧
      ((taken quietEvents).map (·.1)).Nodup ∧
      ∃ item ∈ issued quietEvents, item.2.1 = 1 := by
  obtain ⟨system, run⟩ := quietEvents_run
  obtain ⟨_, _, _, _, _, _, _, once, known, takenOnce, _⟩ :=
    mailbox_delivers quietCompile_completes run
  exact ⟨⟨system, run⟩, once, takenOnce, known 1 (by decide)⟩

end ProtocolAdapter.CompileWorker
