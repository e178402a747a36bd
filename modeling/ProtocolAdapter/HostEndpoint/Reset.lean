/-
This file shows how far a reset recovers a channel. A decode channel that was reset mirrors
the channel of the session that was created, so every further call on it is executed and
gives what it would have given there. An encode channel cannot be reset.
-/

import ProtocolAdapter.Codec.EncodeOutcome
import ProtocolAdapter.Framing.Streaming
import ProtocolAdapter.HostEndpoint.Recovery

namespace ProtocolAdapter.HostEndpoint

open Codec Framing Foundation

/-! ### A reset -/

theorem resetStreamFramingWorkspace_reachable {plan : PlanBundle} {pipelineIndex : Nat}
    {framing : FrozenFramingPlan} {limits : EffectiveLimits} {workspace : StreamFramingWorkspace}
    (reachable : Reachable (.fresh plan pipelineIndex framing limits) workspace) :
    resetStreamFramingWorkspace plan workspace pipelineIndex = (.ok, workspace.resetCandidate) := by
  have fresh := resetCandidate_binding
    { planScope := plan.address
      framing := framing
      pipelineIndex := pipelineIndex
      buffer := List.replicate (frameCapacity framing) 0
      maxSubmitBytes := limits.maxSubmit
      maxFramesPerSubmit := limits.maxFrames
      maxWorkUnits := limits.maxWork
      maxSessionMemoryBytes := limits.maxSession }
  obtain ⟨planScope, -, index, -, -, -, inUse, inCallback⟩ := fresh.trans reachable.binding
  simp [resetStreamFramingWorkspace, planScope, index, inUse, inCallback]

section

variable {target : TargetLayout} {draft : PlanDraftData} {plan : PlanBundle}
  {created session : Session}

/-- A decode channel that is reset mirrors the channel that was created. -/
theorem Located.reset (frozen : FrozenFrom target draft plan)
    (descends : created.Descends session) (owner : session.plan = plan) {handle : Handle}
    {channel old : Channel} {binding : Binding} {pipeline : FrozenPipelinePlan}
    (located : Located plan created session handle.channel channel old binding pipeline)
    (scope : handle.scope = some session.identity) (decodes : binding.action = .decode)
    (bounded : channel.generation < maxUint64) :
    ∃ renewed, session.reset handle = some (.ok, session.withChannel handle.channel renewed) ∧
      Channel.Descends plan old renewed ∧ renewed.generation = channel.generation + 1 ∧
      Channel.Mirrors plan (channel.generation + 1) renewed old := by
  have mirrored : ∀ framer, Option.Rel StreamFramingWorkspace.Alike framer old.framer →
      Channel.Mirrors plan (channel.generation + 1)
        { channel with generation := channel.generation + 1, faulted := false, framer := framer }
        old := fun framer alike =>
    { binding := located.descends.binding.symm
      generation := by rw [located.opened.generation, Nat.zero_add]
      faulted := located.opened.faulted
      core := located.descends.core
      freshCore := by
        rw [located.opened.core]
        exact ExecutionWorkspace.fresh_idleFor plan
      framer := alike
      frameData := located.descends.frameData.symm
      fields := ⟨located.descends.fields.data.symm, located.descends.fields.length.symm⟩ }
  unfold Session.reset
  rw [descends.idle, if_neg (by simp), resolve_eq_some.mpr ⟨scope, rfl, located.found⟩]
  simp only [located.bound, Option.bind_eq_bind, Option.bind_some, decodes, ne_eq,
    not_true_eq_false, if_false, if_neg bounded.ne]
  have kept := located.descends.framer
  cases framed : channel.framer with
  | none =>
    rw [framed] at kept
    have without : old.framer = none := by
      generalize old.framer = first at kept
      cases kept
      rfl
    refine ⟨_, rfl, { located.descends with framer := ?_ }, rfl, mirrored none ?_⟩
    · rw [without]
      exact .none
    · rw [without]
      exact .none
  | some framer =>
    rw [framed] at kept
    cases made : old.framer with
    | none =>
      rw [made] at kept
      cases kept
    | some first =>
      rw [made] at kept
      cases kept with
      | some reachable =>
        obtain ⟨-, overrides, allocated, opened⟩ := located.framer first made
        obtain ⟨-, framing, limits, bound, -, -, -, rfl⟩ :=
          createStreamFramingWorkspace_workspace opened
        have alike := reachable.resetCandidate_alike (streamValid_of_streamFraming frozen bound)
        simp only [owner, resetStreamFramingWorkspace_reachable reachable]
        have moved : Reachable (.fresh plan binding.pipeline framing limits)
            framer.resetCandidate := by
          have next := reachable.reset plan binding.pipeline
          rwa [resetStreamFramingWorkspace_reachable reachable] at next
        exact ⟨_, rfl, { located.descends with framer := made ▸ .some moved }, rfl,
          mirrored _ (made ▸ .some alike)⟩

end

/-! ### Execution -/

/-- A result of a call that the codec or the framer has worked on. -/
structure Result.Executed (result : Result) : Prop where
  attempted : result.codecAttempted = true ∨ result.framingAttempted = true
  status : result.status ≠ .resetRequired

/-- The action of the channel a handle names. -/
def Session.actionOf (session : Session) (handle : Handle) : Option Action := do
  let (_, channel) ← session.resolve handle
  let binding ← session.bindings[channel.binding]?
  some binding.action

section

variable {σ : Type}

/-- A decode or a push that suits the input kind of the channel and has all its arguments. -/
def Call.WellFormed (call : Call σ) (session : Session) (handle : Handle) : Prop :=
  match call with
  | .decode other bytes callbacks =>
    other = handle ∧ (session.observe handle).stream = false ∧ callbacks.sink.isSome = true ∧
      (bytes.data ≠ none ∨ bytes.size = 0)
  | .push other bytes callbacks =>
    other = handle ∧ (session.observe handle).stream = true ∧ callbacks.sink.isSome = true ∧
      bytes.data ≠ none ∧ bytes.size ≠ 0
  | .encode _ _ _ _ | .reset _ => False

variable {plan : PlanBundle} {sink : Callback σ Output} {observer : Option (Callback σ Candidate)}

theorem deliver_executed (output : Output) {attempt : Attempt σ}
    (executed : attempt.result.Executed) :
    (deliver plan sink output attempt).2.result.Executed := by
  unfold deliver
  simp only
  split
  · exact ⟨executed.attempted, executed.status⟩
  · exact ⟨executed.attempted, by simp⟩

theorem observeCandidate_executed (candidate : Candidate) {attempt : Attempt σ}
    (executed : attempt.result.Executed) :
    (observeCandidate observer candidate attempt).2.result.Executed := by
  unfold observeCandidate
  split
  · exact executed
  · split
    · exact ⟨executed.attempted, executed.status⟩
    · exact ⟨executed.attempted, by simp⟩

theorem handOver_executed (candidate : Candidate) {attempt : Attempt σ}
    (executed : attempt.result.Executed) :
    (handOver plan sink observer candidate attempt).2.result.Executed := by
  have shown : (observeCandidate observer candidate attempt).2.result.Executed :=
    observeCandidate_executed candidate executed
  unfold handOver
  cases answer : observeCandidate observer candidate attempt with
  | mk continues after =>
    rw [answer] at shown
    cases continues with
    | none => exact shown
    | some continues =>
      simp only
      split
      · exact shown
      · exact deliver_executed _ shown

theorem decoded_executed {result : Result} (status : CodecStatus)
    (started : result.status ≠ .resetRequired) : (result.decoded status).Executed := by
  unfold Result.decoded
  simp only
  split
  · exact ⟨.inl rfl, by simp⟩
  · exact ⟨.inl rfl, started⟩

theorem decodeCandidate_executed (valid : PlanValid plan) {pipeline : Nat} {bytes : ByteView}
    {attempt after : Attempt σ} {continues : Bool} (idle : attempt.channel.core.IdleFor plan)
    (started : attempt.result.status ≠ .resetRequired)
    (run : decodeCandidate plan pipeline bytes sink observer attempt = some (continues, after)) :
    after.result.Executed := by
  obtain ⟨core, -, replies⟩ := decodeCandidate_replies valid pipeline bytes sink observer idle
  have handed := Option.some.inj (replies.symm.trans run)
  have executed := @handOver_executed σ plan sink observer
    (candidateOf plan attempt.channel.generation bytes
      (decodeReply plan pipeline bytes attempt.channel.fields))
    (attempt.decoded core (decodeReply plan pipeline bytes attempt.channel.fields))
    (decoded_executed _ started)
  rw [handed] at executed
  exact executed

theorem pushChannel_executed (valid : PlanValid plan) {pipeline : Nat}
    {framer : StreamFramingWorkspace} {bytes : ByteView} {attempt after : Attempt σ}
    (idle : attempt.channel.core.IdleFor plan) (started : attempt.result.Executed)
    (run : pushChannel plan pipeline framer bytes sink observer attempt = some after) :
    after.result.Executed := by
  have answers : Answers
      (fun attempt : Attempt σ => attempt.channel.core.IdleFor plan ∧ attempt.result.Executed)
      (candidateSink plan pipeline attempt.channel.frameData sink observer) := by
    intro attempt frame ⟨idle, executed⟩
    have descends : Channel.Descends plan attempt.channel attempt.channel := .refl idle
    obtain ⟨continues, after, run, kept⟩ := decodeCandidate_ends valid pipeline
      { data := _, bytes := frame } sink observer attempt descends
    refine ⟨if continues then .continue else .stop, after, ?_, kept.core,
      decodeCandidate_executed valid idle executed.status run⟩
    unfold candidateSink
    rw [run]
    rfl
  obtain ⟨middle, final, pushed, -, executed⟩ :=
    pushStreamChunkWith_ends answers plan framer pipeline bytes ⟨idle, started⟩
  unfold pushChannel at run
  rw [pushed, Option.bind_eq_bind, Option.bind_some] at run
  simp only at run
  split at run
  · obtain rfl := Option.some.inj run
    exact ⟨executed.attempted, by simp⟩
  · obtain rfl := Option.some.inj run
    exact ⟨executed.attempted, executed.status⟩

/-- A well-formed call on a channel that is not faulted is executed. -/
theorem call_executed (valid : PlanValid plan) {created session : Session}
    (opened : created.Opened plan) (descends : created.Descends session) {handle : Handle}
    (decodes : session.actionOf handle = some .decode)
    (ready : (session.observe handle).resetRequired = false) {call : Call σ}
    (wellFormed : call.WellFormed session handle) {host : σ} {done : OperationEnd σ}
    (run : session.call host call = some done) : done.result.Executed := by
  obtain ⟨⟨index, channel⟩, resolved, within⟩ := Option.bind_eq_some_iff.mp decodes
  obtain ⟨binding, bound, acts⟩ := Option.bind_eq_some_iff.mp within
  obtain ⟨scope, rfl, found⟩ := resolve_eq_some.mp resolved
  have core := (descends.channels handle.channel _ channel
    (List.getElem?_eq_getElem (descends.count ▸ (List.getElem?_eq_some_iff.mp found).1))
    found).core
  have action : binding.action = .decode := Option.some.inj acts
  have seen : session.observe handle =
      { status := .ok
        generation := channel.generation
        resetRequired := channel.faulted
        stream := channel.framer.isSome
        framing := (channel.framer.map (·.observe)).getD {} } := by
    rw [Session.observe, descends.idle, if_neg (by simp), resolved]
  rw [seen] at ready
  simp only at ready
  cases call with
  | encode | reset => exact absurd wellFormed not_false
  | decode other bytes callbacks =>
    obtain ⟨rfl, stream, present, given⟩ := wellFormed
    obtain ⟨sink, provided⟩ := Option.isSome_iff_exists.mp present
    rw [seen] at stream
    simp only at stream
    have refused : ¬(bytes.data = none ∧ bytes.size ≠ 0) := fun ⟨null, size⟩ =>
      given.elim (· null) (size ·)
    rw [Session.call, Session.decode, descends.idle, if_neg (by simp), resolved] at run
    simp only [bound, Option.bind_eq_bind, Option.bind_some, action, ne_eq, not_true_eq_false,
      if_false, stream, ready, Bool.false_eq_true, provided, if_neg refused] at run
    obtain ⟨⟨continues, after⟩, decoded, run⟩ := Option.bind_eq_some_iff.mp run
    obtain rfl := Option.some.inj run
    rw [descends.plan, opened.plan] at decoded
    rw [opened.plan] at core
    exact decodeCandidate_executed valid (by exact core) (by simp) decoded
  | push other bytes callbacks =>
    obtain ⟨rfl, stream, present, data, size⟩ := wellFormed
    obtain ⟨sink, provided⟩ := Option.isSome_iff_exists.mp present
    rw [seen] at stream
    obtain ⟨framer, framed⟩ := Option.isSome_iff_exists.mp stream
    rw [Session.call, Session.push, descends.idle, if_neg (by simp), resolved] at run
    simp only [bound, Option.bind_eq_bind, Option.bind_some, action, ne_eq, not_true_eq_false,
      if_false, framed, ready, Bool.false_eq_true, provided, data, size, false_and, or_self]
      at run
    obtain ⟨after, pushed, run⟩ := Option.bind_eq_some_iff.mp run
    obtain rfl := Option.some.inj run
    rw [descends.plan, opened.plan] at pushed
    rw [opened.plan] at core
    exact pushChannel_executed valid (by exact core) ⟨.inr rfl, by simp⟩ pushed

end

/-! ### Recovery -/

/-- What a reset makes of a decode channel: it is ready, one generation further, the other
channels are as they were, and calls are executed with the results they would have had on
the session that was created. -/
structure Session.Recovered (created session renewed : Session) (handle : Handle) : Prop where
  status : (renewed.observe handle).status = .ok
  ready : (renewed.observe handle).resetRequired = false
  generation : (renewed.observe handle).generation = (session.observe handle).generation + 1
  others : ∀ index, index ≠ handle.channel → renewed.channels[index]? = session.channels[index]?
  executes : ∀ {σ : Type} (call : Call σ) (host : σ), call.WellFormed renewed handle →
    ∃ done, renewed.call host call = some done ∧ done.result.Executed
  results : ∀ {σ : Type} (calls : List (Call σ)) (host : σ),
    (∀ call ∈ calls, call.Operates handle) →
      ∃ after last freshResults freshAfter,
        created.run host (calls.map (·.later (renewed.observe handle).generation)) =
            some (freshResults, freshAfter, last) ∧
          renewed.run host calls =
            some (calls.zipWith (fun call result =>
              result.later (call.carried (renewed.observe handle).generation)) freshResults,
                after, last)

/-- A busy session refuses every call, and nothing changes. -/
theorem call_busy {σ : Type} {session : Session} (busy : session.busy = true) (host : σ)
    (call : Call σ) : session.call host call = some ⟨{ status := .busy }, session, host⟩ := by
  cases call with
  | decode handle bytes callbacks => rw [Session.call, Session.decode, if_pos busy]; rfl
  | push handle bytes callbacks => rw [Session.call, Session.push, if_pos busy]; rfl
  | encode handle messageId values sink => rw [Session.call, Session.encode, if_pos busy]; rfl
  | reset handle => rw [Session.call, Session.reset, if_pos busy]; rfl

theorem observe_required {session : Session} {handle : Handle}
    (required : (session.observe handle).resetRequired = true) :
    session.busy = false ∧ ∃ channel, session.resolve handle = some (handle.channel, channel) ∧
      (session.observe handle).generation = channel.generation := by
  unfold Session.observe at required ⊢
  by_cases busy : session.busy = true
  · rw [if_pos busy] at required
    cases required
  · rw [if_neg busy] at required ⊢
    cases resolved : session.resolve handle with
    | none =>
      rw [resolved] at required
      cases required
    | some place =>
      obtain ⟨index, channel⟩ := place
      obtain ⟨-, rfl, -⟩ := resolve_eq_some.mp resolved
      exact ⟨by simpa using busy, channel, rfl, rfl⟩

theorem observe_withChannel {session : Session} {handle : Handle} {channel old : Channel}
    (scope : handle.scope = some session.identity)
    (found : session.channels[handle.channel]? = some old) :
    (session.withChannel handle.channel channel).resolve handle =
        some (handle.channel, channel) ∧
      (session.withChannel handle.channel channel).observe handle =
        { status := .ok
          generation := channel.generation
          resetRequired := channel.faulted
          stream := channel.framer.isSome
          framing := (channel.framer.map (·.observe)).getD {} } := by
  have resolved : (session.withChannel handle.channel channel).resolve handle =
      some (handle.channel, channel) :=
    resolve_eq_some.mpr ⟨scope, rfl, List.getElem?_set_self (List.getElem?_eq_some_iff.mp found).1⟩
  refine ⟨resolved, ?_⟩
  rw [Session.observe, if_neg (by simp [Session.withChannel]), resolved]

/-- A decode channel that mirrors the channel that was created has recovered. -/
theorem Located.recovered {plan : PlanBundle} {created session : Session} {handle : Handle}
    {channel old renewed : Channel} {binding : Binding} {pipeline : FrozenPipelinePlan}
    (valid : PlanValid plan) (planned : PlanListed plan) (opened : created.Opened plan)
    (descends : created.Descends session)
    (located : Located plan created session handle.channel channel old binding pipeline)
    (scope : handle.scope = some session.identity) (decodes : binding.action = .decode)
    (kept : Channel.Descends plan old renewed)
    (advanced : renewed.generation = (session.observe handle).generation + 1)
    (mirrors : Channel.Mirrors plan ((session.observe handle).generation + 1) renewed old) :
    created.Recovered session (session.withChannel handle.channel renewed) handle := by
  obtain ⟨resolved, seen⟩ :=
    @observe_withChannel session handle renewed _ scope located.found
  have after := located.keep opened descends kept
  have bound : session.bindings[renewed.binding]? = some binding := by
    rw [← mirrors.binding, ← located.descends.binding]
    exact located.bound
  have ready : renewed.faulted = false := mirrors.faulted.symm.trans located.opened.faulted
  refine ⟨by rw [seen], by rw [seen]; exact ready, by rw [seen]; exact advanced, ?_, ?_, ?_⟩
  · intro index other
    exact List.getElem?_set_ne other.symm
  · intro σ call host wellFormed
    obtain ⟨done, run, -⟩ := call_ends valid planned opened after host call
    refine ⟨done, run, call_executed valid opened after ?_ (by rw [seen]; exact ready)
      wellFormed run⟩
    have listed : (session.withChannel handle.channel renewed).bindings[renewed.binding]? =
        some binding := bound
    simp only [Session.actionOf, resolved, listed, decodes, Option.bind_eq_bind,
      Option.bind_some]
  · intro σ calls host operate
    have mirrored : Session.Mirrors plan ((session.observe handle).generation + 1) handle
        (session.withChannel handle.channel renewed) created :=
      { owner := after.plan.trans opened.plan
        freshOwner := opened.plan
        bindings := after.bindings.symm
        idle := rfl
        freshIdle := opened.idle
        scope := scope
        freshScope := scope.trans (congrArg some descends.identity)
        channels := ⟨renewed, old, binding,
          List.getElem?_set_self (List.getElem?_eq_some_iff.mp located.found).1,
          located.before, bound, decodes, mirrors⟩ }
    obtain ⟨results, final, last, run, -⟩ := run_ends valid planned opened calls _ host after
    obtain ⟨freshResults, freshFinal, freshRun, equal⟩ :=
      mirrored.run valid calls operate run
    rw [seen, advanced]
    exact ⟨final, last, freshResults, freshFinal, freshRun, equal ▸ run⟩

/-- Whatever calls have led to it, and however their callbacks ended: a decode channel that
requires a reset is recovered by one, and an encode channel cannot be reset. -/
theorem reset_recovers {σ : Type} {target : TargetLayout} {budgeted : BudgetedPlanDraft}
    {storage : Option Nat} {plan : PlanBundle} {allocator : Allocator} {sizes : SessionSizes}
    {specs : List BindingSpec} {limits : Limits} {created session : Session} {host last : σ}
    {before : List (Call σ)} {results : List Result} {handle : Handle}
    (frozen : freeze target budgeted storage = .ok plan)
    (made : Makes (Session.create allocator sizes plan specs limits) created)
    (ran : created.run host before = some (results, session, last))
    (required : (session.observe handle).resetRequired = true)
    (bounded : (session.observe handle).generation < maxUint64) :
    (session.actionOf handle = some .decode ∧ ∃ renewed,
        session.reset handle = some (.ok, renewed) ∧ created.Recovered session renewed handle) ∨
      (session.actionOf handle = some .encode ∧
        session.reset handle = some (.invalidBinding, session)) := by
  have valid := planValid_of_freeze frozen
  have source := frozenFrom_of_freezeImpl frozen
  have planned := planListed_of_frozen source
  have opened := create_opened made
  obtain ⟨answers, reached, final, runs, descends⟩ :=
    run_ends valid planned opened before created host opened.descends
  obtain ⟨-, same, -⟩ : answers = results ∧ reached = session ∧ final = last := by
    simpa using runs.symm.trans ran
  rw [same] at descends
  obtain ⟨idle, channel, resolved, generation⟩ := observe_required required
  obtain ⟨scope, -, found⟩ := resolve_eq_some.mp resolved
  obtain ⟨old, binding, pipeline, located⟩ := descends.locate opened found
  have acts : session.actionOf handle = some binding.action := by
    simp only [Session.actionOf, resolved, located.bound, Option.bind_eq_bind, Option.bind_some]
  rw [acts]
  cases decodes : binding.action with
  | encode =>
    refine .inr ⟨rfl, ?_⟩
    rw [Session.reset, if_neg (by simp [idle]), resolved]
    simp [located.bound, decodes]
  | decode =>
    refine .inl ⟨rfl, ?_⟩
    rw [generation] at bounded
    obtain ⟨renewed, reset, kept, advanced, mirrored⟩ := located.reset source descends
      (descends.plan.trans opened.plan) scope decodes bounded
    exact ⟨_, reset, located.recovered valid planned opened descends scope decodes kept
      (by rw [generation]; exact advanced) (by rw [generation]; exact mirrored)⟩

/-! ### A sample session -/

/-- What an allocator without failures answers. -/
def sampleAllocator : Allocator where
  identity := 1
  tables := true
  binding := fun _ => true
  vectors := fun index => some ⟨1024 * (index + 1), 8192 * (index + 1), 65536 * (index + 1), 64⟩
  framer := fun _ => true
  core := fun _ => true

/-- Sizes of the objects of a session. -/
def sampleSizes : SessionSizes := ⟨64, 128, 8, 96, 160, 256⟩

/-- An endpoint that decodes a stream of the sample pipeline, and encodes on it. -/
def sampleSpecs : List BindingSpec :=
  [{ endpoint := [0x61], pipeline := "main" },
    { endpoint := [0x61], action := .encode, pipeline := "main" }]

/-- A session of the sample plan. -/
def sampleSession : Session :=
  match (Session.create sampleAllocator sampleSizes samplePlan sampleSpecs {}).run with
  | some (.ok session) => session
  | _ => { plan := samplePlan, identity := 0 }

theorem sampleSession_made :
    Makes (Session.create sampleAllocator sampleSizes samplePlan sampleSpecs {}) sampleSession := by
  have made : ((Session.create sampleAllocator sampleSizes samplePlan sampleSpecs {}).run.map
      (fun outcome => outcome.isOk)) = some true := by decide +kernel
  unfold Makes sampleSession
  cases run : (Session.create sampleAllocator sampleSizes samplePlan sampleSpecs {}).run with
  | none => simp [run] at made
  | some outcome =>
    cases outcome with
    | error status => simp [run, Except.isOk, Except.toBool] at made
    | ok session => rfl

/-- The callbacks of a host whose sink throws. -/
def throwing : Callbacks Unit where
  sink := some fun _ _ => (.threw, ())

/-- A push of the sample stream whose sink throws. -/
def samplePush : Call Unit :=
  .push ⟨some 1, 0⟩
    { data := some 64, bytes := [0xAA, 0x55, 9, 0xD3, 0xFF, 0xFE, 0x68, 0x69, 0xAA] }
    throwing

/-- An encode of the sample values whose sink throws. -/
def sampleEncode : Call Unit :=
  .encode ⟨some 1, 1⟩ "report"
    { data := some 2048
      values := [
        ⟨"mode", { valueKind := .uint64, uint64Value := 3 }⟩,
        ⟨"level", { valueKind := .int64, int64Value := -2 }⟩,
        ⟨"body", { valueKind := .bytes, bytesValue := { data := some 70, bytes := [0x68] } }⟩] }
    (some fun _ _ => (.threw, ()))


/-- The sample session after some calls of a host without state. -/
def ranSession (calls : List (Call Unit)) : Session :=
  match sampleSession.run () calls with
  | some (_, session, _) => session
  | none => sampleSession

theorem ranSession_ran {calls : List (Call Unit)}
    (ends : (sampleSession.run () calls).isSome = true) :
    ∃ results, sampleSession.run () calls = some (results, ranSession calls, ()) := by
  unfold ranSession
  cases run : sampleSession.run () calls with
  | none => simp [run] at ends
  | some outcome => exact ⟨outcome.1, rfl⟩

theorem reset_recovers_sample :
    (ranSession [samplePush]).actionOf ⟨some 1, 0⟩ = some .decode ∧
      ((ranSession [samplePush]).observe ⟨some 1, 0⟩).resetRequired = true ∧
      ∃ renewed, (ranSession [samplePush]).reset ⟨some 1, 0⟩ = some (.ok, renewed) ∧
        sampleSession.Recovered (ranSession [samplePush]) renewed ⟨some 1, 0⟩ := by
  have ends : (sampleSession.run () [samplePush]).isSome = true := by decide +kernel
  obtain ⟨results, ran⟩ := ranSession_ran ends
  have required : ((ranSession [samplePush]).observe ⟨some 1, 0⟩).resetRequired = true := by
    decide +kernel
  have acts : (ranSession [samplePush]).actionOf ⟨some 1, 0⟩ = some .decode := by decide +kernel
  have recovers := reset_recovers sampleBudgeted_freezes sampleSession_made ran required
    (by decide +kernel)
  refine ⟨acts, required, ?_⟩
  rcases recovers with ⟨-, recovered⟩ | ⟨encodes, -⟩
  · exact recovered
  · rw [acts] at encodes
    cases encodes

/-- An encode channel whose sink has thrown requires a reset, cannot be reset, and answers
the next encode with that requirement. -/
theorem reset_encode_refused :
    Makes (Session.create sampleAllocator sampleSizes samplePlan sampleSpecs {}) sampleSession ∧
      (∃ results, sampleSession.run () [sampleEncode] =
        some (results, ranSession [sampleEncode], ())) ∧
      ((ranSession [sampleEncode]).observe ⟨some 1, 1⟩).resetRequired = true ∧
      ((ranSession [sampleEncode]).observe ⟨some 1, 1⟩).generation < maxUint64 ∧
      ((ranSession [sampleEncode]).reset ⟨some 1, 1⟩).map (·.1) = some .invalidBinding ∧
      ((ranSession [sampleEncode]).run () [.reset ⟨some 1, 1⟩, sampleEncode]).map
        (fun ran => ran.1.map (·.status)) = some [.invalidBinding, .resetRequired] :=
  ⟨sampleSession_made, ranSession_ran (by decide +kernel), by decide +kernel, by decide +kernel,
    by decide +kernel, by decide +kernel⟩

end ProtocolAdapter.HostEndpoint
