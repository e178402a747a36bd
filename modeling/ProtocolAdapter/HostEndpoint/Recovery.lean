/-
This file compares two sessions whose channels differ in their generation, and in what no
call shows of them. Call by call the two give the same results, up to the generation that
the results of decodes and pushes and the views of the callbacks carry.
-/

import ProtocolAdapter.HostEndpoint.Channels

namespace ProtocolAdapter.HostEndpoint

open Codec Framing Foundation

/-! ### Generations -/

/-- An output of a later generation. -/
def Output.later (output : Output) (shift : Nat) : Output :=
  { output with generation := output.generation + shift }

/-- A candidate of a later generation. -/
def Candidate.later (candidate : Candidate) (shift : Nat) : Candidate :=
  { candidate with generation := candidate.generation + shift }

/-- A result of a later generation. -/
def Result.later (result : Result) (shift : Nat) : Result :=
  { result with generation := result.generation + shift }

section

variable {σ : Type}

/-- A sink that takes every output for one of a later generation. -/
def laterSink (sink : Callback σ Output) (shift : Nat) : Callback σ Output := fun host output =>
  sink host (output.later shift)

/-- An observer that takes every candidate for one of a later generation. -/
def laterObserver (observer : Option (Callback σ Candidate)) (shift : Nat) :
    Option (Callback σ Candidate) :=
  observer.map fun observer host candidate => observer host (candidate.later shift)

/-- Callbacks that take every view for one of a later generation. -/
def Callbacks.later (callbacks : Callbacks σ) (shift : Nat) : Callbacks σ where
  sink := callbacks.sink.map fun sink => laterSink sink shift
  observer := laterObserver callbacks.observer shift

/-- A call whose callbacks take every view for one of a later generation. -/
def Call.later (call : Call σ) (shift : Nat) : Call σ :=
  match call with
  | .decode handle bytes callbacks => .decode handle bytes (callbacks.later shift)
  | .push handle bytes callbacks => .push handle bytes (callbacks.later shift)
  | .encode handle messageId values sink =>
    .encode handle messageId values (sink.map fun sink => laterSink sink shift)
  | .reset handle => .reset handle

/-- The operations of a call that a reset channel shares with a created one. -/
def Call.Operates (call : Call σ) (handle : Handle) : Prop :=
  match call with
  | .decode other _ _ | .push other _ _ | .encode other _ _ _ => other = handle
  | .reset _ => False

/-- How much the generation in the result of a call grows with that of its channel. An encode does
not tell the generation. -/
def Call.carried (call : Call σ) (shift : Nat) : Nat :=
  match call with
  | .decode _ _ _ | .push _ _ _ => shift
  | .encode _ _ _ _ | .reset _ => 0

theorem rel_isSome {α β : Type} {related : α → β → Prop} {left : Option α} {right : Option β}
    (same : Option.Rel related left right) : right.isSome = left.isSome := by
  cases same <;> rfl

/-! ### Mirrored channels -/

/-- Two channels that differ in their generation, by the given amount, and in what no call
shows of them. -/
structure Channel.Mirrors (plan : PlanBundle) (shift : Nat) (channel fresh : Channel) :
    Prop where
  binding : fresh.binding = channel.binding
  generation : channel.generation = fresh.generation + shift
  faulted : fresh.faulted = channel.faulted
  core : channel.core.IdleFor plan
  freshCore : fresh.core.IdleFor plan
  framer : Option.Rel StreamFramingWorkspace.Alike channel.framer fresh.framer
  frameData : fresh.frameData = channel.frameData
  fields : channel.fields.SameRoom fresh.fields

/-- Two attempts on mirrored channels, for the same host. -/
structure Attempt.Mirrors (plan : PlanBundle) (shift : Nat) (attempt fresh : Attempt σ) :
    Prop where
  channel : Channel.Mirrors plan shift attempt.channel fresh.channel
  result : attempt.result = fresh.result.later shift
  host : fresh.host = attempt.host

variable {plan : PlanBundle} {shift : Nat} {sink : Callback σ Output}
  {observer : Option (Callback σ Candidate)}

theorem Channel.Mirrors.fault {channel fresh : Channel}
    (mirrors : Channel.Mirrors plan shift channel fresh) :
    Channel.Mirrors plan shift { channel with faulted := true } { fresh with faulted := true } :=
  { mirrors with faulted := rfl }

theorem Channel.Descends.refl {channel : Channel} (idle : channel.core.IdleFor plan) :
    Channel.Descends plan channel channel where
  binding := rfl
  core := idle
  framer := by
    cases channel.framer with
    | none => exact .none
    | some framer => exact .some .start
  frameData := rfl
  fields := ⟨rfl, rfl⟩

theorem deliver_mirrors (output : Output) {attempt fresh : Attempt σ}
    (mirrors : Attempt.Mirrors plan shift attempt fresh) :
    (deliver plan (laterSink sink shift) output fresh).1 = (deliver plan sink output attempt).1 ∧
      Attempt.Mirrors plan shift (deliver plan sink output attempt).2
        (deliver plan (laterSink sink shift) output fresh).2 := by
  obtain ⟨channel, result, host⟩ := mirrors
  simp only [deliver, laterSink, Output.later, host, ← channel.generation]
  cases sink attempt.host { output with
      plan := some plan.address, generation := attempt.channel.generation } with
  | mk answer after =>
    cases answer with
    | returned action => exact ⟨rfl, channel, by simp only [result, Result.later], rfl⟩
    | threw => exact ⟨rfl, channel.fault, by simp only [result, Result.later], rfl⟩

theorem observeCandidate_mirrors (candidate : Candidate) {attempt fresh : Attempt σ}
    (mirrors : Attempt.Mirrors plan shift attempt fresh) :
    (observeCandidate (laterObserver observer shift) candidate fresh).1 =
        (observeCandidate observer (candidate.later shift) attempt).1 ∧
      Attempt.Mirrors plan shift (observeCandidate observer (candidate.later shift) attempt).2
        (observeCandidate (laterObserver observer shift) candidate fresh).2 := by
  cases observer with
  | none => exact ⟨rfl, mirrors⟩
  | some function =>
    obtain ⟨channel, result, host⟩ := mirrors
    simp only [observeCandidate, laterObserver, Option.map_some, host]
    cases function attempt.host (candidate.later shift) with
    | mk answer after =>
      cases answer with
      | returned action => exact ⟨rfl, channel, by simp only [result, Result.later], rfl⟩
      | threw => exact ⟨rfl, channel.fault, by simp only [result, Result.later], rfl⟩

theorem handOver_mirrors (candidate : Candidate) {attempt fresh : Attempt σ}
    (mirrors : Attempt.Mirrors plan shift attempt fresh) :
    (handOver plan (laterSink sink shift) (laterObserver observer shift) candidate fresh).1 =
        (handOver plan sink observer (candidate.later shift) attempt).1 ∧
      Attempt.Mirrors plan shift
        (handOver plan sink observer (candidate.later shift) attempt).2
        (handOver plan (laterSink sink shift) (laterObserver observer shift) candidate
          fresh).2 := by
  have shown := @observeCandidate_mirrors σ plan shift observer candidate _ _ mirrors
  unfold handOver
  cases freshShown : observeCandidate (laterObserver observer shift) candidate fresh with
  | mk freshAnswer freshAttempt =>
    cases thenShown : observeCandidate observer (candidate.later shift) attempt with
    | mk thenAnswer thenAttempt =>
      rw [freshShown, thenShown] at shown
      obtain ⟨answer, mirrored⟩ := shown
      simp only at answer mirrored
      subst answer
      cases freshAnswer with
      | none => exact ⟨rfl, mirrored⟩
      | some continues =>
        by_cases refused : candidate.decoded.status ≠ .ok
        · have refusedLater : (candidate.later shift).decoded.status ≠ .ok := refused
          simp only [if_pos refused, if_pos refusedLater]
          exact ⟨trivial, mirrored⟩
        · have refusedLater : ¬(candidate.later shift).decoded.status ≠ .ok := refused
          have delivered := @deliver_mirrors σ plan shift sink
            { messageIndex := candidate.decoded.messageIndex, fields := candidate.fields } _ _
            mirrored
          simp only [if_neg refused, if_neg refusedLater]
          exact ⟨congrArg (· && continues) delivered.1, delivered.2⟩

theorem candidateOf_later {bytes : ByteView} {reply freshReply : DecodeReply} {generation : Nat}
    (alike : reply.Alike freshReply) :
    candidateOf plan (generation + shift) bytes reply =
      (candidateOf plan generation bytes freshReply).later shift := by
  simp only [candidateOf, Candidate.later, DecodeReply.rawIntegers, alike.result, alike.rawMessage]
  rw [← alike.fields, alike.result]

/-- Mirrored attempts decode a candidate alike. -/
theorem decodeCandidate_mirrors (valid : PlanValid plan) (pipeline : Nat) (bytes : ByteView)
    {attempt fresh after : Attempt σ} {continues : Bool}
    (mirrors : Attempt.Mirrors plan shift attempt fresh)
    (run : decodeCandidate plan pipeline bytes sink observer attempt = some (continues, after)) :
    ∃ freshAfter, decodeCandidate plan pipeline bytes (laterSink sink shift)
        (laterObserver observer shift) fresh = some (continues, freshAfter) ∧
      Attempt.Mirrors plan shift after freshAfter := by
  obtain ⟨channel, result, host⟩ := mirrors
  obtain ⟨core, idle, runs⟩ :=
    decodeCandidate_replies valid pipeline bytes sink observer channel.core
  obtain ⟨freshCore, freshIdle, freshRuns⟩ := decodeCandidate_replies valid pipeline bytes
    (laterSink sink shift) (laterObserver observer shift) channel.freshCore
  have alike := @decodeReply_alike plan bytes _ _ valid pipeline channel.fields
  have decoded : Attempt.Mirrors plan shift
      (attempt.decoded core (decodeReply plan pipeline bytes attempt.channel.fields))
      (fresh.decoded freshCore (decodeReply plan pipeline bytes fresh.channel.fields)) := by
    refine ⟨{ channel with
      core := idle
      freshCore := freshIdle
      fields := ⟨channel.fields.data, alike.length⟩ }, ?_, host⟩
    simp only [Attempt.decoded, Result.decoded, alike.result, result, Result.later]
    split <;> rfl
  have handed := @handOver_mirrors σ plan shift sink observer
    (candidateOf plan fresh.channel.generation bytes
      (decodeReply plan pipeline bytes fresh.channel.fields)) _ _ decoded
  rw [← candidateOf_later alike, ← channel.generation] at handed
  have reached := runs.symm.trans run
  simp only [Option.some.injEq] at reached
  rw [reached] at handed
  obtain ⟨answer, mirrored⟩ := handed
  refine ⟨_, freshRuns.trans ?_, mirrored⟩
  exact congrArg some (Prod.ext answer rfl)

/-- The framer of a mirrored channel hands over the same candidates. -/
theorem candidateSink_agree (valid : PlanValid plan) (pipeline : Nat) (frameData : Option Nat) :
    SinksAgree (Attempt.Mirrors (σ := σ) plan shift)
      (candidateSink plan pipeline frameData sink observer)
      (candidateSink plan pipeline frameData (laterSink sink shift)
        (laterObserver observer shift)) := by
  intro attempt fresh frame action after mirrors asked
  unfold candidateSink at asked ⊢
  obtain ⟨⟨continues, reached⟩, run, asked⟩ := Option.bind_eq_some_iff.mp asked
  obtain ⟨freshReached, freshRun, mirrored⟩ := decodeCandidate_mirrors valid pipeline
    { data := frameData, bytes := frame } mirrors run
  simp only [Option.some.injEq, Prod.mk.injEq] at asked
  obtain ⟨rfl, rfl⟩ := asked
  rw [freshRun, Option.bind_eq_bind, Option.bind_some]
  exact ⟨freshReached, rfl, mirrored⟩

theorem pushChannel_mirrors (valid : PlanValid plan) (pipeline : Nat)
    {framer freshFramer : StreamFramingWorkspace} (bytes : ByteView)
    {attempt fresh after : Attempt σ} (mirrors : Attempt.Mirrors plan shift attempt fresh)
    (alike : framer.Alike freshFramer)
    (run : pushChannel plan pipeline framer bytes sink observer attempt = some after) :
    ∃ freshAfter, pushChannel plan pipeline freshFramer bytes (laterSink sink shift)
        (laterObserver observer shift) fresh = some freshAfter ∧
      Attempt.Mirrors plan shift after freshAfter := by
  unfold pushChannel at run ⊢
  obtain ⟨⟨middle, final⟩, pushed, run⟩ := Option.bind_eq_some_iff.mp run
  have agree := @candidateSink_agree σ plan shift sink observer valid pipeline
    attempt.channel.frameData
  obtain ⟨freshMiddle, last, freshPushed, mirrored, ends⟩ :=
    pushStreamChunkWith_alike agree mirrors alike pushed
  rw [mirrors.channel.frameData, freshPushed, Option.bind_eq_bind, Option.bind_some]
  obtain ⟨channel, result, host⟩ := mirrored
  have moved : Channel.Mirrors plan shift { middle.channel with framer := final.workspace }
      { freshMiddle.channel with framer := last.workspace } :=
    { channel with framer := .some ends.workspace }
  simp only [ends.result] at run ⊢
  split at run
  · rename_i failed
    obtain rfl := Option.some.inj run
    rw [if_pos failed]
    exact ⟨_, rfl, moved.fault, by simp only [result, Result.later], host⟩
  · rename_i succeeded
    obtain rfl := Option.some.inj run
    rw [if_neg succeeded]
    exact ⟨_, rfl, moved, by simp only [result, Result.later], host⟩

/-! ### Mirrored sessions -/

/-- Two sessions with mirrored decode channels at the place of a handle. -/
structure Session.Mirrors (plan : PlanBundle) (shift : Nat) (handle : Handle)
    (session fresh : Session) : Prop where
  owner : session.plan = plan
  freshOwner : fresh.plan = plan
  bindings : fresh.bindings = session.bindings
  idle : session.busy = false
  freshIdle : fresh.busy = false
  scope : handle.scope = some session.identity
  freshScope : handle.scope = some fresh.identity
  channels : ∃ channel freshChannel binding, session.channels[handle.channel]? = some channel ∧
    fresh.channels[handle.channel]? = some freshChannel ∧
    session.bindings[channel.binding]? = some binding ∧ binding.action = .decode ∧
    Channel.Mirrors plan shift channel freshChannel

/-- Two operations on mirrored sessions, for the same host, whose results tell generations that
differ by what they carry. -/
structure OperationEnd.Mirrors (plan : PlanBundle) (shift carried : Nat) (handle : Handle)
    (done fresh : OperationEnd σ) : Prop where
  result : done.result = fresh.result.later carried
  host : fresh.host = done.host
  session : Session.Mirrors plan shift handle done.session fresh.session

variable {handle : Handle} {session fresh : Session}

theorem Session.Mirrors.refuse (mirrors : Session.Mirrors plan shift handle session fresh)
    {carried : Nat} {result freshResult : Result} (same : result = freshResult.later carried)
    (status : Status) (host : σ) :
    OperationEnd.Mirrors plan shift carried handle (session.refuse result status host)
      (fresh.refuse freshResult status host) where
  result := by rw [same]; rfl
  host := rfl
  session := mirrors

/-- A channel that is put back keeps the sessions mirrored. -/
theorem Session.Mirrors.withChannel (mirrors : Session.Mirrors plan shift handle session fresh)
    {channel freshChannel : Channel} {binding : Binding}
    (bound : session.bindings[channel.binding]? = some binding) (decodes : binding.action = .decode)
    (mirrored : Channel.Mirrors plan shift channel freshChannel) :
    Session.Mirrors plan shift handle (session.withChannel handle.channel channel)
      (fresh.withChannel handle.channel freshChannel) where
  owner := mirrors.owner
  freshOwner := mirrors.freshOwner
  bindings := mirrors.bindings
  idle := rfl
  freshIdle := rfl
  scope := mirrors.scope
  freshScope := mirrors.freshScope
  channels := by
    obtain ⟨old, freshOld, -, found, freshFound, -⟩ := mirrors.channels
    refine ⟨channel, freshChannel, binding, ?_, ?_, bound, decodes, mirrored⟩
    · exact List.getElem?_set_self (List.getElem?_eq_some_iff.mp found).1
    · exact List.getElem?_set_self (List.getElem?_eq_some_iff.mp freshFound).1

theorem Session.Mirrors.resolved {channel : Channel}
    (mirrors : Session.Mirrors plan shift handle session fresh)
    (found : session.channels[handle.channel]? = some channel) :
    session.resolve handle = some (handle.channel, channel) :=
  resolve_eq_some.mpr ⟨mirrors.scope, rfl, found⟩

theorem Session.Mirrors.freshResolved {channel : Channel}
    (mirrors : Session.Mirrors plan shift handle session fresh)
    (found : fresh.channels[handle.channel]? = some channel) :
    fresh.resolve handle = some (handle.channel, channel) :=
  resolve_eq_some.mpr ⟨mirrors.freshScope, rfl, found⟩

theorem Session.Mirrors.decode (valid : PlanValid plan)
    (mirrors : Session.Mirrors plan shift handle session fresh) (bytes : ByteView)
    (callbacks : Callbacks σ) (host : σ) {done : OperationEnd σ}
    (run : session.decode handle bytes callbacks host = some done) :
    ∃ freshDone, fresh.decode handle bytes (callbacks.later shift) host = some freshDone ∧
      OperationEnd.Mirrors plan shift shift handle done freshDone := by
  obtain ⟨channel, freshChannel, binding, found, freshFound, bound, decodes, mirrored⟩ :=
    mirrors.channels
  have same : { generation := channel.generation : Result } =
      ({ generation := freshChannel.generation : Result }).later shift := by
    rw [mirrored.generation]
    rfl
  have framed := rel_isSome mirrored.framer
  unfold Session.decode at run ⊢
  rw [mirrors.idle, if_neg (by simp), mirrors.resolved found] at run
  rw [mirrors.freshIdle, if_neg (by simp), mirrors.freshResolved freshFound]
  simp only [bound, mirrors.bindings, mirrored.binding, framed, mirrored.faulted, decodes,
    ne_eq, not_true_eq_false, if_false, Option.bind_eq_bind, Option.bind_some] at run ⊢
  by_cases stream : channel.framer.isSome = true
  · rw [if_pos stream] at run ⊢
    obtain rfl := Option.some.inj run
    exact ⟨_, rfl, mirrors.refuse same _ _⟩
  rw [if_neg stream] at run ⊢
  by_cases faulted : channel.faulted = true
  · rw [if_pos faulted] at run ⊢
    obtain rfl := Option.some.inj run
    exact ⟨_, rfl, mirrors.refuse same _ _⟩
  rw [if_neg faulted] at run ⊢
  obtain ⟨sink, observer⟩ := callbacks
  cases sink with
  | none =>
    obtain rfl := Option.some.inj run
    exact ⟨_, rfl, mirrors.refuse same _ _⟩
  | some sink =>
    simp only [Callbacks.later, Option.map_some] at run ⊢
    by_cases refused : bytes.data = none ∧ ¬bytes.size = 0
    · rw [if_pos refused] at run ⊢
      obtain rfl := Option.some.inj run
      exact ⟨_, rfl, mirrors.refuse same _ _⟩
    rw [if_neg refused] at run ⊢
    obtain ⟨⟨continues, after⟩, decoded, run⟩ := Option.bind_eq_some_iff.mp run
    obtain rfl := Option.some.inj run
    rw [mirrors.owner] at decoded
    have begun : Attempt.Mirrors plan shift
        ⟨channel, { status := .ok, generation := channel.generation }, host⟩
        ⟨freshChannel, { status := .ok, generation := freshChannel.generation }, host⟩ :=
      ⟨mirrored, by simp only [mirrored.generation, Result.later], rfl⟩
    obtain ⟨freshAfter, freshDecoded, reached⟩ :=
      decodeCandidate_mirrors valid binding.pipeline bytes begun decoded
    rw [mirrors.freshOwner, freshDecoded, Option.bind_some]
    obtain ⟨_, _, run, kept⟩ := decodeCandidate_ends valid binding.pipeline bytes sink observer
      ⟨channel, { status := .ok, generation := channel.generation }, host⟩ (.refl mirrored.core)
    obtain ⟨-, rfl⟩ := Prod.mk.inj (Option.some.inj (run.symm.trans decoded))
    exact ⟨_, rfl, reached.result, reached.host, mirrors.withChannel (kept.binding ▸ bound) decodes
      reached.channel⟩

theorem Session.Mirrors.push (valid : PlanValid plan)
    (mirrors : Session.Mirrors plan shift handle session fresh) (bytes : ByteView)
    (callbacks : Callbacks σ) (host : σ) {done : OperationEnd σ}
    (run : session.push handle bytes callbacks host = some done) :
    ∃ freshDone, fresh.push handle bytes (callbacks.later shift) host = some freshDone ∧
      OperationEnd.Mirrors plan shift shift handle done freshDone := by
  obtain ⟨channel, freshChannel, binding, found, freshFound, bound, decodes, mirrored⟩ :=
    mirrors.channels
  have same : { generation := channel.generation : Result } =
      ({ generation := freshChannel.generation : Result }).later shift := by
    rw [mirrored.generation]
    rfl
  unfold Session.push at run ⊢
  rw [mirrors.idle, if_neg (by simp), mirrors.resolved found] at run
  rw [mirrors.freshIdle, if_neg (by simp), mirrors.freshResolved freshFound]
  simp only [bound, mirrors.bindings, mirrored.binding, mirrored.faulted, decodes,
    ne_eq, not_true_eq_false, if_false, Option.bind_eq_bind, Option.bind_some] at run ⊢
  have framers := mirrored.framer
  cases framed : channel.framer with
  | none =>
    cases freshFramed : freshChannel.framer with
    | some freshFramer =>
      rw [framed, freshFramed] at framers
      cases framers
    | none =>
      simp only [framed] at run
      obtain rfl := Option.some.inj run
      exact ⟨_, rfl, mirrors.refuse same _ _⟩
  | some framer =>
    cases freshFramed : freshChannel.framer with
    | none =>
      rw [framed, freshFramed] at framers
      cases framers
    | some freshFramer =>
      have alike : framer.Alike freshFramer := by
        rw [framed, freshFramed] at framers
        cases framers
        assumption
      simp only [framed] at run
      simp only [alike.observe]
      by_cases faulted : channel.faulted = true
      · rw [if_pos faulted] at run ⊢
        obtain rfl := Option.some.inj run
        exact ⟨_, rfl, mirrors.refuse same _ _⟩
      rw [if_neg faulted] at run ⊢
      obtain ⟨sink, observer⟩ := callbacks
      cases sink with
      | none =>
        obtain rfl := Option.some.inj run
        exact ⟨_, rfl, mirrors.refuse same _ _⟩
      | some sink =>
        simp only [Callbacks.later, Option.map_some] at run ⊢
        by_cases refused : (bytes.data = none ∧ ¬bytes.size = 0) ∨
            (bytes.size = 0 ∧ framer.observe.hasInternalWork = false)
        · rw [if_pos refused] at run ⊢
          obtain rfl := Option.some.inj run
          exact ⟨_, rfl, mirrors.refuse same _ _⟩
        rw [if_neg refused] at run ⊢
        obtain ⟨after, pushed, run⟩ := Option.bind_eq_some_iff.mp run
        obtain rfl := Option.some.inj run
        rw [mirrors.owner] at pushed
        have begun : Attempt.Mirrors plan shift
            ⟨channel,
              { status := .ok, generation := channel.generation, framingAttempted := true }, host⟩
            ⟨freshChannel,
              { status := .ok, generation := freshChannel.generation, framingAttempted := true },
              host⟩ :=
          ⟨mirrored, by simp only [mirrored.generation, Result.later], rfl⟩
        obtain ⟨freshAfter, freshPushed, reached⟩ :=
          pushChannel_mirrors valid binding.pipeline bytes begun alike pushed
        rw [mirrors.freshOwner, freshPushed, Option.bind_some]
        obtain ⟨_, run, kept⟩ := pushChannel_ends valid binding.pipeline bytes sink observer
          ⟨channel,
            { status := .ok, generation := channel.generation, framingAttempted := true }, host⟩
          (.refl mirrored.core) framed
        obtain rfl := Option.some.inj (run.symm.trans pushed)
        exact ⟨_, rfl, reached.result, reached.host,
          mirrors.withChannel (kept.binding ▸ bound) decodes reached.channel⟩

theorem Session.Mirrors.encode (mirrors : Session.Mirrors plan shift handle session fresh)
    (messageId : String) (values : NamedValues) (business : Option (Callback σ Output)) (host : σ)
    {done : OperationEnd σ}
    (run : session.encode handle messageId values business host = some done) :
    ∃ freshDone, fresh.encode handle messageId values
        (business.map fun business => laterSink business shift) host = some freshDone ∧
      OperationEnd.Mirrors plan shift 0 handle done freshDone := by
  obtain ⟨channel, freshChannel, binding, found, freshFound, bound, decodes, mirrored⟩ :=
    mirrors.channels
  unfold Session.encode at run ⊢
  rw [mirrors.idle, if_neg (by simp), mirrors.resolved found] at run
  rw [mirrors.freshIdle, if_neg (by simp), mirrors.freshResolved freshFound]
  simp only [bound, mirrors.bindings, mirrored.binding, decodes, Option.bind_eq_bind,
    Option.bind_some] at run ⊢
  rw [if_pos (by simp)] at run ⊢
  obtain rfl := Option.some.inj run
  have same : ({} : Result) = ({} : Result).later 0 := rfl
  exact ⟨_, rfl, mirrors.refuse same _ _⟩

/-- A call on mirrored channels has the same result. -/
theorem Session.Mirrors.call (valid : PlanValid plan)
    (mirrors : Session.Mirrors plan shift handle session fresh) {call : Call σ}
    (operates : call.Operates handle) (host : σ) {done : OperationEnd σ}
    (run : session.call host call = some done) :
    ∃ freshDone, fresh.call host (call.later shift) = some freshDone ∧
      OperationEnd.Mirrors plan shift (call.carried shift) handle done freshDone := by
  cases call with
  | decode other bytes callbacks =>
    obtain rfl : other = handle := operates
    exact mirrors.decode valid bytes callbacks host run
  | push other bytes callbacks =>
    obtain rfl : other = handle := operates
    exact mirrors.push valid bytes callbacks host run
  | encode other messageId values business =>
    obtain rfl : other = handle := operates
    exact mirrors.encode messageId values business host run
  | reset other => exact absurd operates not_false

/-- Calls on mirrored channels have the same results. -/
theorem Session.Mirrors.run (valid : PlanValid plan) :
    ∀ (calls : List (Call σ)) {session fresh after : Session} {host last : σ}
      {results : List Result}, Session.Mirrors plan shift handle session fresh →
      (∀ call ∈ calls, call.Operates handle) →
      session.run host calls = some (results, after, last) →
      ∃ freshResults freshAfter,
        fresh.run host (calls.map (·.later shift)) = some (freshResults, freshAfter, last) ∧
          results = calls.zipWith (fun call result => result.later (call.carried shift))
            freshResults := by
  intro calls
  induction calls with
  | nil =>
    intro session fresh after host last results mirrors operate run
    obtain ⟨rfl, rfl, rfl⟩ : [] = results ∧ session = after ∧ host = last := by
      simpa [Session.run] using run
    exact ⟨[], fresh, rfl, rfl⟩
  | cons call rest inductionHypothesis =>
    intro session fresh after host last results mirrors operate run
    rw [Session.run] at run
    obtain ⟨done, called, run⟩ := Option.bind_eq_some_iff.mp run
    obtain ⟨⟨later, reached, final⟩, runs, run⟩ := Option.bind_eq_some_iff.mp run
    obtain ⟨rfl, rfl, rfl⟩ : done.result :: later = results ∧ reached = after ∧ final = last := by
      simpa using run
    obtain ⟨here, others⟩ := List.forall_mem_cons.mp operate
    obtain ⟨freshDone, freshCalled, mirrored⟩ := mirrors.call valid here host called
    rw [← mirrored.host] at runs
    obtain ⟨freshResults, freshAfter, freshRuns, equal⟩ :=
      inductionHypothesis mirrored.session others runs
    refine ⟨freshDone.result :: freshResults, freshAfter, ?_, ?_⟩
    · rw [List.map_cons, Session.run, freshCalled, Option.bind_eq_bind, Option.bind_some,
        freshRuns]
      rfl
    · rw [List.zipWith_cons_cons, equal, mirrored.result]

end

end ProtocolAdapter.HostEndpoint
