/-
This file is about callbacks that call hosts. A call of a host that is not yet back is linked in
the scopes of the thread while a callback of it runs; a call on such a host is refused and changes
nothing. So every host of a thread sees a run of the other calls, whatever the callbacks do.
-/

import ProtocolAdapter.PublicApi.HostIsolation

namespace ProtocolAdapter.PublicApi

open Foundation Description

open Framing (pushStreamChunkWith_plain)

/-! ### One call -/

section

variable {σ : Type} {host next : HostEndpoint} {call : HostCall σ} {outcome : HostOutcome σ}

/-- A call that may not begin is answered why, and does nothing. -/
theorem call_refused {status : HostStatus}
    (refusal : call.context.refusal host.scope = some status) :
    host.call call =
      some ({ reply := call.request.refused status, memory := call.memory }, host) := by
  obtain ⟨request, callbacks, memory, context⟩ := call
  dsimp only at refusal
  cases request with
  | _ =>
    simp [HostEndpoint.call, HostEndpoint.find, HostEndpoint.observe, HostEndpoint.reset,
      HostEndpoint.decode, HostEndpoint.push, HostEndpoint.continue, HostEndpoint.encode, refusal,
      HostRequest.refused, HostEndpoint.refuse, OperationEnd.outcome]

/-- A call is refused while a callback of its host runs on the thread. -/
theorem call_reentrant (linked : host.scope ∈ call.context.scopes) :
    host.call call =
      some ({ reply := call.request.refused .reentrantCall, memory := call.memory }, host) := by
  refine call_refused ?_
  unfold CallContext.refusal
  rw [if_pos (isCallbackOwnerActive_eq_true.mpr linked)]

/-- What the callbacks of a call keep holds of the memory that the call leaves. -/
theorem call_memory {kept : σ → Prop}
    (sunk : ∀ sink ∈ call.callbacks.sink,
      Keeps (callbackScope host.scope call.context.scopes) kept sink)
    (watched : ∀ observer ∈ call.callbacks.observer,
      Keeps (callbackScope host.scope call.context.scopes) kept observer)
    (held : kept call.memory) (ran : host.call call = some (outcome, next)) :
    kept outcome.memory := by
  cases call_stepped ran with
  | quiet => exact held
  | renewed => exact held
  | stuck => exact held
  | worked request free resolved bound working works =>
    cases works with
    | decoded request action whole present handles =>
      exact handles.memory kept (sunk _ present) watched held
    | pushed submits action framing present run =>
      obtain ⟨-, deliveries⟩ := pushStreamChunkWith_plain run
      obtain ⟨candidates, handles, -⟩ := deliveries_handled deliveries
      exact handles.memory (sunk _ present) watched held
    | unencoded => exact held
    | encoded request action run succeeded present shown delivers =>
      obtain ⟨-, -, -, keeps⟩ := invokeBusiness_eq delivers
      exact keeps kept (sunk _ present) held

end

/-! ### Threads -/

/-- A call that was made on a thread: the hosts of the calls that were not yet back when it began,
its reply, and its host before and behind it. -/
structure MadeCall where
  owner : Nat
  request : HostRequest
  inside : List Nat
  reply : HostReply
  before : HostEndpoint
  after : HostEndpoint

/-- Whether a call began in a callback of another call on its host. -/
def MadeCall.nested (made : MadeCall) : Bool :=
  made.inside.contains made.owner

/-- A thread: the memory of its program, the hosts it can call, and the calls it has made, in the
order in which they came back. -/
structure Thread (σ : Type) where
  memory : σ
  hosts : List HostEndpoint
  calls : List MadeCall := []

/-- What the program of a thread does, or a callback that runs on it. It ends and leaves its
memory, or it calls a host. The callbacks of such a call do something of this kind again, and what
comes behind the call depends on its reply. -/
inductive CallbackBody (σ : Type) where
  | returns (action : HostCallbackAction) (memory : σ)
  | throws (memory : σ)
  | calls (owner : Nat) (request : HostRequest)
      (sink : Option (σ → HostOutputView → RecordReading → CallbackBody σ))
      (observer : Option (σ → HostCandidateView → RecordReading → CallbackBody σ)) (memory : σ)
      (next : HostReply → σ → CallbackBody σ)

section

variable {σ : Type}

/-- What holds of a body when it holds of the bodies it consists of holds of every body. -/
theorem CallbackBody.induct {motive : CallbackBody σ → Prop}
    (returns : ∀ action memory, motive (.returns action memory))
    (throws : ∀ memory, motive (.throws memory))
    (calls : ∀ owner request sink observer memory next,
      (∀ body ∈ sink, ∀ memory view record, motive (body memory view record)) →
      (∀ body ∈ observer, ∀ memory view record, motive (body memory view record)) →
      (∀ reply memory, motive (next reply memory)) →
        motive (.calls owner request sink observer memory next)) (body : CallbackBody σ) :
    motive body :=
  @CallbackBody.rec σ motive
    (fun sink => ∀ body ∈ sink, ∀ memory view record, motive (body memory view record))
    (fun observer => ∀ body ∈ observer, ∀ memory view record, motive (body memory view record))
    returns throws calls
    (fun _ absent => absurd absent (Option.not_mem_none _))
    (fun _ holds _ same => Option.some.inj same ▸ holds)
    (fun _ absent => absurd absent (Option.not_mem_none _))
    (fun _ holds _ same => Option.some.inj same ▸ holds) body

/-- The host of a thread with a scope. -/
def Thread.host (thread : Thread σ) (scope : Nat) : Option HostEndpoint :=
  thread.hosts.find? fun host => host.scope = scope

/-- Leaves a host behind a call. -/
def Thread.leave (thread : Thread σ) (next : HostEndpoint) : Thread σ :=
  { thread with
    hosts := thread.hosts.map fun host => if host.scope = next.scope then next else host }

/-- Calls a host of a thread. Its lease is taken while another call of it is not yet back. -/
def Thread.enter (thread : Thread σ) (inside scopes : List Nat) (owner : Nat)
    (request : HostRequest) (callbacks : HostCallbacks (Thread σ)) :
    Access (HostReply × Thread σ) := do
  let host ← thread.host owner
  let (outcome, next) ← host.call
    { request := request
      callbacks := callbacks
      memory := thread
      context :=
        { scopes := scopes
          inUse := inside.contains owner
          alive := fun scope => (thread.host scope).isSome } }
  some (outcome.reply, { outcome.memory.leave next with
    calls := outcome.memory.calls ++
      [⟨owner, request, inside, outcome.reply, host, next⟩] })

/-- Runs a body on a thread, inside calls that are not yet back. A host gives its callbacks the
scopes they run in. A body that calls what is no host of the thread ends there. -/
def CallbackBody.run (body : CallbackBody σ) (inside scopes : List Nat) (thread : Thread σ) :
    CallbackEnd × Thread σ :=
  match body with
  | .returns action memory => (.returned action, { thread with memory := memory })
  | .throws memory => (.threw, { thread with memory := memory })
  | .calls owner request sink observer memory next =>
    let callbacks : HostCallbacks (Thread σ) :=
      { sink := match sink with
          | none => none
          | some body => some fun scopes thread view record =>
            (body thread.memory view record).run (owner :: inside) scopes thread
        observer := match observer with
          | none => none
          | some body => some fun scopes thread view record =>
            (body thread.memory view record).run (owner :: inside) scopes thread }
    let thread := { thread with memory := memory }
    (thread.enter inside scopes owner request callbacks).elim (.threw, thread) fun ended =>
      (next ended.1 ended.2.memory).run inside scopes ended.2
termination_by structural body

/-- A callback that a body describes, for a call inside others. -/
def callbackOf {View : Type} (inside : List Nat)
    (body : σ → View → RecordReading → CallbackBody σ) : HostCallback (Thread σ) View :=
  fun scopes thread view record => (body thread.memory view record).run inside scopes thread

theorem CallbackBody.run_calls (owner : Nat) (request : HostRequest)
    (sink : Option (σ → HostOutputView → RecordReading → CallbackBody σ))
    (observer : Option (σ → HostCandidateView → RecordReading → CallbackBody σ)) (memory : σ)
    (next : HostReply → σ → CallbackBody σ) (inside scopes : List Nat) (thread : Thread σ) :
    (calls owner request sink observer memory next).run inside scopes thread =
      ({ thread with memory := memory }.enter inside scopes owner request
        { sink := sink.map (callbackOf (owner :: inside))
          observer := observer.map (callbackOf (owner :: inside)) }).elim
        (.threw, { thread with memory := memory }) fun ended =>
          (next ended.1 ended.2.memory).run inside scopes ended.2 := by
  cases sink <;> cases observer <;> rfl

theorem Thread.host_scope {thread : Thread σ} {scope : Nat} {host : HostEndpoint}
    (found : thread.host scope = some host) : host.scope = scope := by
  simpa using List.find?_some found

/-- What a thread finds when a host has been left behind a call. -/
theorem Thread.leave_host (thread : Thread σ) (next : HostEndpoint) (scope : Nat) :
    (thread.leave next).host scope =
      (thread.host scope).map fun host => if host.scope = next.scope then next else host := by
  unfold Thread.host Thread.leave
  rw [List.find?_map]
  congr 2
  funext host
  rw [Function.comp_apply]
  split
  · rename_i same
    rw [same]
  · rfl

end

/-! ### What a thread has done -/

/-- What a thread has done between two moments, inside calls that are not yet back. The nested
ones of its calls were refused and have left their host as it was, and every host has seen the
others of its calls, one after the other. -/
structure Drives {σ : Type} (inside : List Nat) (thread after : Thread σ)
    (made : List MadeCall) : Prop where
  logged : after.calls = thread.calls ++ made
  within : ∀ call ∈ made, inside ⊆ call.inside
  refused : ∀ call ∈ made, call.nested = true →
    call.reply = call.request.refused .reentrantCall ∧ call.after = call.before
  sees : ∀ owner host, thread.host owner = some host →
    ∃ (events : List (HostCall (Thread σ) × HostOutcome (Thread σ))) (last : HostEndpoint),
      Trace HostEndpoint.call host events last ∧ after.host owner = some last ∧
      events.map (fun event => (event.1.request, event.2.reply)) =
        (made.filter fun call => call.owner = owner && !call.nested).map
          fun call => (call.request, call.reply)

section

variable {σ : Type} {inside scopes : List Nat} {thread middle after : Thread σ}
  {made first second : List MadeCall}

/-- What only writes the memory makes no calls. -/
theorem Drives.still (memory : σ) : Drives inside thread { thread with memory := memory } [] where
  logged := (List.append_nil _).symm
  within _ none := by cases none
  refused _ none := by cases none
  sees _ host found := ⟨[], host, .nil host, found, rfl⟩

theorem Drives.trans (earlier : Drives inside thread middle first)
    (later : Drives inside middle after second) :
    Drives inside thread after (first ++ second) where
  logged := by rw [later.logged, earlier.logged, List.append_assoc]
  within := List.forall_mem_append.mpr ⟨earlier.within, later.within⟩
  refused := List.forall_mem_append.mpr ⟨earlier.refused, later.refused⟩
  sees owner host found := by
    obtain ⟨events, reached, trace, there, same⟩ := earlier.sees owner host found
    obtain ⟨others, last, rest, ends, equal⟩ := later.sees owner reached there
    refine ⟨events ++ others, last, trace.append rest, ends, ?_⟩
    rw [List.map_append, List.filter_append, List.map_append, same, equal]

/-- A host of which a call is not yet back sees none of the calls inside it. -/
theorem Drives.unseen {owner : Nat} (drives : Drives inside thread after made)
    (busy : owner ∈ inside) :
    (made.filter fun call => call.owner = owner && !call.nested) = [] := by
  refine List.filter_eq_nil_iff.mpr fun call member => ?_
  simp only [MadeCall.nested, Bool.and_eq_true, decide_eq_true_eq, Bool.not_eq_true',
    List.contains_eq_mem, decide_eq_false_iff_not, not_and, not_not]
  rintro rfl
  exact drives.within call member busy

theorem Drives.waits {owner : Nat} {host : HostEndpoint} (drives : Drives inside thread after made)
    (busy : owner ∈ inside) (found : thread.host owner = some host) :
    after.host owner = some host := by
  obtain ⟨events, last, trace, there, same⟩ := drives.sees owner host found
  rw [drives.unseen busy, List.map_nil, List.map_eq_nil_iff] at same
  subst same
  cases trace
  exact there

/-- A host that is left as it was is found as it was. -/
theorem Thread.leave_same {host other : HostEndpoint} {owner : Nat}
    (found : thread.host host.scope = some host) (there : thread.host owner = some other) :
    (thread.leave host).host owner = some other := by
  rw [Thread.leave_host, there, Option.map_some]
  split
  · rename_i same
    rw [← Thread.host_scope there, same, found] at there
    exact there
  · rfl

/-- A nested call that was refused, and has left its host as it was. -/
theorem Drives.nested {host : HostEndpoint} {request : HostRequest} {call : MadeCall}
    (found : thread.host host.scope = some host) (nested : host.scope ∈ inside)
    (same : call = ⟨host.scope, request, inside, request.refused .reentrantCall, host, host⟩) :
    Drives inside thread { thread.leave host with calls := thread.calls ++ [call] } [call] where
  logged := rfl
  within := List.forall_mem_singleton.mpr (same ▸ List.Subset.refl inside)
  refused := List.forall_mem_singleton.mpr fun _ => same ▸ ⟨rfl, rfl⟩
  sees _ other there :=
    ⟨[], other, .nil other, Thread.leave_same found there, by simp [same, MadeCall.nested, nested]⟩

/-- A call that was not nested, behind the calls that its callbacks have made inside it. -/
theorem Drives.entered {host next : HostEndpoint} {call : HostCall (Thread σ)}
    {outcome : HostOutcome (Thread σ)} (found : thread.host host.scope = some host)
    (free : host.scope ∉ inside) (ran : host.call call = some (outcome, next))
    (drives : Drives (host.scope :: inside) thread outcome.memory made) :
    Drives inside thread
      { outcome.memory.leave next with
        calls := outcome.memory.calls ++
          [⟨host.scope, call.request, inside, outcome.reply, host, next⟩] }
      (made ++ [⟨host.scope, call.request, inside, outcome.reply, host, next⟩]) where
  logged := by rw [← List.append_assoc, ← drives.logged]
  within := List.forall_mem_append.mpr
    ⟨fun call member => List.Subset.trans (List.subset_cons_self _ _) (drives.within call member),
      List.forall_mem_singleton.mpr (List.Subset.refl inside)⟩
  refused := by
    refine List.forall_mem_append.mpr ⟨drives.refused, List.forall_mem_singleton.mpr fun own => ?_⟩
    exact absurd (by simpa [MadeCall.nested] using own) free
  sees owner other there := by
    have left := Thread.leave_host outcome.memory next owner
    rw [(call_keeps ran).1] at left
    rw [List.filter_append]
    by_cases own : owner = host.scope
    · -- the host itself has waited for its callbacks, and sees the one call
      subst own
      obtain rfl := Option.some.inj (there.symm.trans found)
      rw [drives.waits List.mem_cons_self found, Option.map_some, if_pos rfl] at left
      rw [drives.unseen List.mem_cons_self]
      exact ⟨[_], next, .cons ran (.nil next), left, by simp [MadeCall.nested, free]⟩
    · obtain ⟨events, last, trace, reached, same⟩ := drives.sees owner other there
      rw [reached, Option.map_some, Thread.host_scope reached, if_neg own] at left
      exact ⟨events, last, trace, left, by simp [same, Ne.symm own]⟩

/-- What a call of a host does on a thread when its callbacks only make calls. -/
theorem Thread.enter_drives (linked : inside ⊆ scopes) {owner : Nat} {request : HostRequest}
    {callbacks : HostCallbacks (Thread σ)} {reply : HostReply}
    (sunk : ∀ sink ∈ callbacks.sink, ∀ {scopes : List Nat}, owner :: inside ⊆ scopes →
      ∀ now view record, ∃ made, Drives (owner :: inside) now (sink scopes now view record).2 made)
    (watched : ∀ observer ∈ callbacks.observer, ∀ {scopes : List Nat}, owner :: inside ⊆ scopes →
      ∀ now view record,
        ∃ made, Drives (owner :: inside) now (observer scopes now view record).2 made)
    (entered : thread.enter inside scopes owner request callbacks = some (reply, after)) :
    ∃ made, Drives inside thread after made := by
  obtain ⟨host, found, entered⟩ := Option.bind_eq_some_iff.mp entered
  obtain ⟨⟨outcome, next⟩, ran, same⟩ := Option.bind_eq_some_iff.mp entered
  obtain ⟨rfl, rfl⟩ := Prod.mk.inj (Option.some.inj same)
  obtain rfl := Thread.host_scope found
  by_cases nested : host.scope ∈ inside
  · -- the scopes of the thread refuse the call before a callback of it runs
    have refused := ran.symm.trans (call_reentrant (linked nested))
    obtain ⟨rfl, rfl⟩ := Prod.mk.inj (Option.some.inj refused)
    exact ⟨_, .nested found nested rfl⟩
  have deeper : host.scope :: inside ⊆ callbackScope host.scope scopes :=
    List.cons_subset_cons _ linked
  -- the callbacks of the call make their calls inside it
  obtain ⟨made, drives⟩ : ∃ made, Drives (host.scope :: inside) thread outcome.memory made := by
    refine @call_memory _ host next _ outcome
      (fun now => ∃ made, Drives (host.scope :: inside) thread now made) ?_ ?_ ⟨[], .still _⟩ ran
    · rintro sink own now view record ⟨made, drives⟩
      obtain ⟨others, later⟩ := sunk sink own deeper now view record
      exact ⟨made ++ others, drives.trans later⟩
    · rintro observer own now view record ⟨made, drives⟩
      obtain ⟨others, later⟩ := watched observer own deeper now view record
      exact ⟨made ++ others, drives.trans later⟩
  exact ⟨_, .entered found nested ran drives⟩

/-- Whatever a body does, it only makes calls. -/
theorem CallbackBody.run_drives (body : CallbackBody σ) :
    ∀ {inside scopes : List Nat}, inside ⊆ scopes → ∀ thread,
      ∃ made, Drives inside thread (body.run inside scopes thread).2 made := by
  induction body using CallbackBody.induct with
  | returns action memory => exact fun _ thread => ⟨[], .still memory⟩
  | throws memory => exact fun _ thread => ⟨[], .still memory⟩
  | calls owner request sink observer memory next sunk watched later =>
    intro inside scopes linked thread
    rw [CallbackBody.run_calls]
    cases entered : Thread.enter _ inside scopes owner request _ with
    | none => exact ⟨[], .still memory⟩
    | some ended =>
      obtain ⟨made, drives⟩ := Thread.enter_drives linked
        (fun function own scopes deeper now view record => by
          obtain ⟨body, has, rfl⟩ := Option.map_eq_some_iff.mp own
          exact sunk body has now.memory view record deeper now)
        (fun function own scopes deeper now view record => by
          obtain ⟨body, has, rfl⟩ := Option.map_eq_some_iff.mp own
          exact watched body has now.memory view record deeper now) entered
      obtain ⟨others, rest⟩ := later ended.1 ended.2.memory linked ended.2
      exact ⟨_, ((Drives.still memory).trans drives).trans rest⟩

/-- Whatever the program of a thread does, with callbacks that call hosts again: a call on a host
that a callback of it makes, directly or through other hosts, is refused and leaves the host as it
was, and every host is left as a run of the other calls on it leaves it, with their replies. -/
theorem nested_call_refused (program : CallbackBody σ) (thread : Thread σ) :
    ∃ made, Drives [] thread (program.run [] [] thread).2 made :=
  program.run_drives (List.Subset.refl []) thread

/-- A decode on one host, whose sink decodes on a second one, whose sink resets the channel of the
first. -/
def chainedBody : CallbackBody Unit :=
  let decode (owner : Nat) (sink : CallbackBody Unit) : CallbackBody Unit :=
    .calls owner (.decode ⟨owner, 0, 1, true⟩ ⟨some 65536, [80, 49]⟩) (some fun _ _ _ => sink)
      none () fun _ _ => .returns .continue ()
  decode 7 (decode 8 (.calls 7 (.reset ⟨7, 0, 1, true⟩) none none () fun _ _ =>
    .returns .continue ()))

example : (pingHost.map fun host =>
    ((chainedBody.run [] [] { memory := (), hosts := [host, { host with scope := 8 }] }).2.calls.map
      fun call => (call.owner, call.nested, call.reply.hostStatus))) =
        some [(7, true, .reentrantCall), (8, false, .ok), (7, false, .ok)] := by
  decide +kernel

end

end ProtocolAdapter.PublicApi
