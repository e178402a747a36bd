/-
This file says what the operations of a session keep. Whatever a host calls and however
its callbacks behave, every call ends, every channel stays bound as it was created, its
codec workspace is idle between calls, and its framer is one that calls and resets lead to.
-/

import ProtocolAdapter.Codec.History
import ProtocolAdapter.HostEndpoint.Operations

namespace ProtocolAdapter.HostEndpoint

open Codec Framing Foundation

/-! ### Channels -/

/-- What a channel keeps of the channel it was created as. -/
structure Channel.Descends (plan : PlanBundle) (created channel : Channel) : Prop where
  binding : channel.binding = created.binding
  core : channel.core.IdleFor plan
  framer : Option.Rel Reachable created.framer channel.framer
  frameData : channel.frameData = created.frameData
  fields : created.fields.SameRoom channel.fields

section

variable {σ : Type} {plan : PlanBundle} {created channel : Channel}

theorem Channel.Descends.fault (descends : Channel.Descends plan created channel) :
    Channel.Descends plan created { channel with faulted := true } :=
  { descends with }

/-! ### Candidates -/

/-- The view of a candidate that a decode replied to. -/
def candidateOf (plan : PlanBundle) (generation : Nat) (bytes : ByteView) (reply : DecodeReply) :
    Candidate where
  generation := generation
  plan := some plan.address
  frame := bytes
  decoded := reply.result
  fields := if reply.result.status = .ok then reply.slots.take reply.result.fieldCount else []
  rawIntegers :=
    if reply.result.status = .ok then (reply.rawIntegers plan bytes.bytes).map some else []

/-- An attempt after its codec has replied. -/
def Attempt.decoded (attempt : Attempt σ) (core : ExecutionWorkspace) (reply : DecodeReply) :
    Attempt σ where
  channel := { attempt.channel with
    core := core, fields := { attempt.channel.fields with slots := reply.slots } }
  result := attempt.result.decoded reply.result.status
  host := attempt.host

theorem lastRawIntegers_of_reports {workspace : ExecutionWorkspace} {values : List RawIntegerValue}
    (reports : workspace.Reports plan values) :
    lastRawIntegers plan workspace = some (values.map some) := by
  obtain ⟨count, read⟩ := reports
  have answers : workspace.getLastRawInteger plan = fun index => pure values[index]? :=
    funext read
  unfold lastRawIntegers
  rw [count, answers, List.mapM_pure]
  refine congrArg some (List.ext_getElem? fun index => ?_)
  rw [List.getElem?_map, List.getElem?_map]
  by_cases inside : index < values.length
  · rw [List.getElem?_range inside, List.getElem?_eq_getElem inside]
    simp [inside]
  · rw [List.getElem?_eq_none (by rw [List.length_range]; omega),
      List.getElem?_eq_none (by omega)]
    rfl

/-- A candidate is decoded as the codec replies, and then handed over. -/
theorem decodeCandidate_replies (valid : PlanValid plan) (pipeline : Nat) (bytes : ByteView)
    (sink : Callback σ Output) (observer : Option (Callback σ Candidate)) {attempt : Attempt σ}
    (idle : attempt.channel.core.IdleFor plan) :
    ∃ core, core.IdleFor plan ∧
      decodeCandidate plan pipeline bytes sink observer attempt =
        (let reply := decodeReply plan pipeline bytes attempt.channel.fields
        some (handOver plan sink observer
          (candidateOf plan attempt.channel.generation bytes reply)
          (attempt.decoded core reply))) := by
  obtain ⟨call, run, result, slots, after, reports⟩ :=
    decodeCompleteRecord_replies valid idle pipeline bytes attempt.channel.fields
  refine ⟨call.workspace, after, ?_⟩
  unfold decodeCandidate
  rw [run, Option.bind_eq_bind, Option.bind_some]
  simp only [result, slots, lastRawIntegers_of_reports reports]
  by_cases accepted :
      (decodeReply plan pipeline bytes attempt.channel.fields).result.status = .ok
  · simp only [accepted, if_true, Option.bind_eq_bind, Option.bind_some, candidateOf,
      Attempt.decoded]
  · simp only [accepted, if_false, Option.bind_eq_bind, Option.bind_some, candidateOf,
      Attempt.decoded]

theorem observeCandidate_channel (observer : Option (Callback σ Candidate))
    (candidate : Candidate) (attempt : Attempt σ) :
    (observeCandidate observer candidate attempt).2.channel = attempt.channel ∨
      (observeCandidate observer candidate attempt).2.channel =
        { attempt.channel with faulted := true } := by
  unfold observeCandidate
  split
  · exact .inl rfl
  · split
    · exact .inl rfl
    · exact .inr rfl

theorem deliver_channel (sink : Callback σ Output) (output : Output) (attempt : Attempt σ) :
    (deliver plan sink output attempt).2.channel = attempt.channel ∨
      (deliver plan sink output attempt).2.channel = { attempt.channel with faulted := true } := by
  unfold deliver
  simp only
  split
  · exact .inl rfl
  · exact .inr rfl

theorem observeCandidate_descends {observer : Option (Callback σ Candidate)}
    {candidate : Candidate} {attempt : Attempt σ}
    (descends : Channel.Descends plan created attempt.channel) :
    Channel.Descends plan created (observeCandidate observer candidate attempt).2.channel := by
  rcases observeCandidate_channel observer candidate attempt with same | same
  · rw [same]
    exact descends
  · rw [same]
    exact descends.fault

theorem deliver_descends {sink : Callback σ Output} {output : Output} {attempt : Attempt σ}
    (descends : Channel.Descends plan created attempt.channel) :
    Channel.Descends plan created (deliver plan sink output attempt).2.channel := by
  rcases deliver_channel sink output attempt with same | same
  · rw [same]
    exact descends
  · rw [same]
    exact descends.fault

theorem handOver_descends {sink : Callback σ Output} {observer : Option (Callback σ Candidate)}
    {candidate : Candidate} {attempt : Attempt σ}
    (descends : Channel.Descends plan created attempt.channel) :
    Channel.Descends plan created (handOver plan sink observer candidate attempt).2.channel := by
  have observed : Channel.Descends plan created
      (observeCandidate observer candidate attempt).2.channel := observeCandidate_descends descends
  unfold handOver
  cases shown : observeCandidate observer candidate attempt with
  | mk answer attempt =>
    rw [shown] at observed
    cases answer with
    | none => exact observed
    | some continues =>
      simp only
      split
      · exact observed
      · exact deliver_descends observed

/-- A candidate keeps its channel. -/
theorem decodeCandidate_ends (valid : PlanValid plan) (pipeline : Nat) (bytes : ByteView)
    (sink : Callback σ Output) (observer : Option (Callback σ Candidate)) (attempt : Attempt σ)
    (descends : Channel.Descends plan created attempt.channel) :
    ∃ continues after, decodeCandidate plan pipeline bytes sink observer attempt =
      some (continues, after) ∧ Channel.Descends plan created after.channel := by
  obtain ⟨core, idle, run⟩ :=
    decodeCandidate_replies valid pipeline bytes sink observer descends.core
  refine ⟨_, _, run, handOver_descends { descends with
    core := idle, fields := ⟨descends.fields.data, ?_⟩ }⟩
  exact (decodeReply_slots_length valid pipeline).trans descends.fields.length

/-! ### Pushes and encodes -/

/-- The framer asks about candidates only, so it leaves the rest of the channel to them. -/
theorem candidateSink_answers (valid : PlanValid plan) (pipeline : Nat) (frameData : Option Nat)
    (sink : Callback σ Output) (observer : Option (Callback σ Candidate)) :
    Answers (fun attempt : Attempt σ => Channel.Descends plan created attempt.channel)
      (candidateSink plan pipeline frameData sink observer) := by
  intro attempt frame descends
  obtain ⟨continues, after, run, kept⟩ := decodeCandidate_ends valid pipeline
    { data := frameData, bytes := frame } sink observer attempt descends
  refine ⟨if continues then .continue else .stop, after, ?_, kept⟩
  unfold candidateSink
  rw [run]
  rfl

theorem pushChannel_ends (valid : PlanValid plan) (pipeline : Nat)
    {framer : StreamFramingWorkspace} (bytes : ByteView) (sink : Callback σ Output)
    (observer : Option (Callback σ Candidate)) (attempt : Attempt σ)
    (descends : Channel.Descends plan created attempt.channel)
    (framed : attempt.channel.framer = some framer) :
    ∃ after, pushChannel plan pipeline framer bytes sink observer attempt = some after ∧
      Channel.Descends plan created after.channel := by
  have answers : Answers (fun attempt : Attempt σ => Channel.Descends plan created attempt.channel)
      (candidateSink plan pipeline attempt.channel.frameData sink observer) :=
    candidateSink_answers valid pipeline attempt.channel.frameData sink observer
  obtain ⟨after, final, run, kept⟩ :=
    pushStreamChunkWith_ends answers plan framer pipeline bytes descends
  obtain ⟨⟨function, pushed⟩, -⟩ := pushStreamChunkWith_plain run
  have reached : Option.Rel Reachable created.framer (some final.workspace) := by
    have before := framed ▸ descends.framer
    generalize created.framer = old at before
    cases before with
    | some reachable => exact .some (.submit reachable _ _ _ _ _ pushed)
  have moved : Channel.Descends plan created { after.channel with framer := final.workspace } :=
    { kept with framer := reached }
  unfold pushChannel
  rw [run, Option.bind_eq_bind, Option.bind_some]
  simp only
  split
  · exact ⟨_, rfl, moved.fault⟩
  · exact ⟨_, rfl, moved⟩

theorem encodeChannel_ends (valid : PlanValid plan) (pipeline message count : Nat)
    (sink : Callback σ Output) (attempt : Attempt σ)
    (descends : Channel.Descends plan created attempt.channel) :
    ∃ after, encodeChannel plan pipeline message count sink attempt = some after ∧
      Channel.Descends plan created after.channel := by
  obtain ⟨call, run, -, -, idle, -⟩ := encodeCompleteRecord_replies valid descends.core pipeline
    message { attempt.channel.values with values := attempt.channel.values.values.take count }
    attempt.channel.bytes
  unfold encodeChannel
  simp only
  rw [run, Option.bind_eq_bind, Option.bind_some]
  split
  · exact ⟨_, rfl, deliver_descends { descends with core := idle }⟩
  · exact ⟨_, rfl, { descends with core := idle }⟩

end

/-! ### Sessions -/

/-- What a session keeps of the session that was created. -/
structure Session.Descends (created session : Session) : Prop where
  plan : session.plan = created.plan
  identity : session.identity = created.identity
  bindings : session.bindings = created.bindings
  idle : session.busy = false
  count : session.channels.length = created.channels.length
  channels : ∀ (index : Nat) old channel, created.channels[index]? = some old →
    session.channels[index]? = some channel → Channel.Descends created.plan old channel

/-! ### Creation -/

/-- A creation that succeeds with a value. -/
def Makes {α : Type} (creation : Creation α) (value : α) : Prop :=
  creation.run = some (.ok value)

section

variable {α β : Type}

theorem makes_bind {first : Creation α} {next : α → Creation β} {value : β} :
    Makes (first >>= next) value ↔ ∃ middle, Makes first middle ∧ Makes (next middle) value := by
  unfold Makes
  rw [ExceptT.run_bind]
  cases first.run with
  | none => simp
  | some outcome =>
    cases outcome with
    | error status => simp
    | ok middle => simp

@[simp] theorem makes_pure {made value : α} : Makes (pure made) value ↔ made = value := by
  simp [Makes]

@[simp] theorem makes_throw {status : Status} {value : α} :
    ¬Makes (throw status : Creation α) value := by
  simp [Makes]

theorem makes_access {read : Access α} {value : α} :
    Makes (liftM read : Creation α) value ↔ read = some value := by
  unfold Makes
  cases read with
  | none => simp [liftM, monadLift, MonadLift.monadLift, ExceptT.lift, ExceptT.run, ExceptT.mk]
  | some value =>
    simp [liftM, monadLift, MonadLift.monadLift, ExceptT.lift, ExceptT.run, ExceptT.mk]

end

/-- A channel as it is created for a binding. -/
structure Channel.Opened (plan : PlanBundle) (bindings : List Binding) (channel : Channel) :
    Prop where
  generation : channel.generation = 0
  faulted : channel.faulted = false
  core : channel.core = .fresh plan
  bound : ∃ binding pipeline, bindings[channel.binding]? = some binding ∧
    plan.pipelines[binding.pipeline]? = some pipeline ∧
    ∀ framer, channel.framer = some framer → binding.action = .decode ∧
      ∃ overrides allocated,
        (createStreamFramingWorkspace plan binding.pipeline overrides allocated).workspace =
          some framer

/-- A session as it is created. -/
structure Session.Opened (owner : PlanBundle) (session : Session) : Prop where
  plan : session.plan = owner
  idle : session.busy = false
  channels : ∀ channel ∈ session.channels, Channel.Opened owner session.bindings channel

theorem charge_makes {session charged : Session} {limits : Limits} {count width : Nat}
    (made : Makes (session.charge limits count width) charged) :
    ∃ accounted, charged = { session with accounted := accounted } := by
  unfold Session.charge at made
  split at made
  · exact absurd made makes_throw
  · rename_i accounted _
    exact ⟨accounted, (makes_pure.mp made).symm⟩

@[simp] theorem makes_failIf {condition : Prop} [Decidable condition] {status : Status}
    {value : Unit} : Makes (failIf condition status) value ↔ ¬condition := by
  unfold failIf
  split
  · rename_i holds
    simp [holds]
  · rename_i fails
    simp [fails]

section

variable {allocator : Allocator} {sizes : SessionSizes} {limits : Limits} {spec : BindingSpec}
  {session opened : Session}

theorem bindPipeline_makes {pipeline : Nat}
    (made : Makes (bindPipeline limits session spec) pipeline) :
    ∃ bound, session.plan.pipelines[pipeline]? = some bound := by
  unfold bindPipeline at made
  simp only [makes_bind, makes_failIf] at made
  obtain ⟨-, -, -, -, -, -, made⟩ := made
  split at made
  · exact absurd made makes_throw
  · simp only [makes_bind, makes_access, makes_pure] at made
    obtain ⟨bound, found, -, -, -, -, rfl⟩ := made
    exact ⟨bound, found⟩

theorem openFramer_makes {pipeline : Nat} {framer : StreamFramingWorkspace}
    (made : Makes (openFramer allocator limits session spec pipeline) (opened, framer)) :
    (∃ accounted, opened = { session with accounted := accounted }) ∧
      ∃ overrides allocated,
        (createStreamFramingWorkspace session.plan pipeline overrides allocated).workspace =
          some framer := by
  unfold openFramer at made
  simp only [makes_bind, makes_failIf] at made
  obtain ⟨-, -, -, -, made⟩ := made
  split at made
  · rename_i workspace apiStatus created
    simp only [makes_bind, makes_pure, Prod.mk.injEq] at made
    obtain ⟨charged, charge, rfl, rfl⟩ := made
    exact ⟨charge_makes charge, _, _, created⟩
  · exact absurd made makes_throw
  · exact absurd made makes_throw

theorem append_makes {channel : Channel}
    (made : Makes (session.append allocator channel) opened) :
    opened = { session with
      channels := session.channels ++ [{ channel with core := .fresh session.plan }] } := by
  unfold Session.append at made
  simp only [makes_bind, makes_failIf, makes_pure] at made
  obtain ⟨-, -, rfl⟩ := made
  rfl

/-- A session that has grown by a channel of a binding. -/
def GrowsBy (session opened : Session) (binding : Nat) (channel : Channel) : Prop :=
  ∃ accounted, opened = { session with
      accounted := accounted
      channels := session.channels ++ [channel] } ∧
    channel.binding = binding ∧ Channel.Opened session.plan session.bindings channel

theorem openChannel_makes {index pipeline : Nat} {binding : Binding}
    {bound : FrozenPipelinePlan} (found : session.bindings[index]? = some binding)
    (same : binding.pipeline = pipeline) (action : binding.action = spec.action)
    (listed : session.plan.pipelines[pipeline]? = some bound)
    (made : Makes (openChannel allocator sizes limits spec index pipeline session) opened) :
    ∃ channel, GrowsBy session opened index channel := by
  unfold openChannel at made
  simp only [makes_bind] at made
  subst same
  obtain ⟨first, charged, second, chargedAgain, made⟩ := made
  obtain ⟨_, rfl⟩ := charge_makes charged
  obtain ⟨_, rfl⟩ := charge_makes chargedAgain
  cases kind : spec.action with
  | decode =>
    simp only [kind, makes_bind] at made
    obtain ⟨third, charged, made⟩ := made
    obtain ⟨_, rfl⟩ := charge_makes charged
    split at made
    · exact absurd made makes_throw
    · rename_i memory _
      simp only [makes_bind, makes_access] at made
      obtain ⟨_, -, profile, -, made⟩ := made
      split at made
      · simp only [makes_bind] at made
        obtain ⟨⟨framed, framer⟩, openedFramer, made⟩ := made
        obtain ⟨⟨_, rfl⟩, created⟩ := openFramer_makes openedFramer
        obtain rfl := append_makes made
        refine ⟨_, _, rfl, rfl, rfl, rfl, rfl, binding, bound, found, listed, ?_⟩
        intro other equal
        obtain rfl := Option.some.inj equal
        exact ⟨action.trans kind, created⟩
      · obtain rfl := append_makes made
        refine ⟨_, _, rfl, rfl, rfl, rfl, rfl, binding, bound, found, listed, ?_⟩
        intro framer equal
        cases equal
  | encode =>
    simp only [kind, makes_bind, makes_failIf] at made
    obtain ⟨-, -, third, charged, fourth, chargedAgain, made⟩ := made
    obtain ⟨_, rfl⟩ := charge_makes charged
    obtain ⟨_, rfl⟩ := charge_makes chargedAgain
    split at made
    · exact absurd made makes_throw
    · obtain rfl := append_makes made
      refine ⟨_, _, rfl, rfl, rfl, rfl, rfl, binding, bound, found, listed, ?_⟩
      intro framer equal
      cases equal

theorem GrowsBy.keeps {owner : PlanBundle} {index : Nat} {channel : Channel}
    (grows : GrowsBy session opened index channel) (before : session.Opened owner) :
    opened.Opened owner ∧ opened.bindings = session.bindings ∧ opened.plan = session.plan := by
  obtain ⟨_, rfl, -, added⟩ := grows
  refine ⟨⟨before.plan, before.idle, fun other member => ?_⟩, rfl, rfl⟩
  rcases List.mem_append.mp member with old | new
  · exact before.channels other old
  · obtain rfl := List.mem_singleton.mp new
    exact before.plan ▸ added

theorem openChannels_makes {owner : PlanBundle} {index : Nat} (binding : Binding)
    (bound : FrozenPipelinePlan) (action : binding.action = spec.action) :
    ∀ (streams : List Nat) (session opened : Session), session.Opened owner →
      session.bindings[index]? = some binding →
      session.plan.pipelines[binding.pipeline]? = some bound →
      Makes (streams.foldlM (fun session _ =>
        openChannel allocator sizes limits spec index binding.pipeline session) session) opened →
      opened.Opened owner ∧ opened.bindings = session.bindings := by
  intro streams
  induction streams with
  | nil =>
    intro session opened before found listed made
    rw [List.foldlM_nil, makes_pure] at made
    subst made
    exact ⟨before, rfl⟩
  | cons stream rest ih =>
    intro session opened before found listed made
    rw [List.foldlM_cons, makes_bind] at made
    obtain ⟨next, first, made⟩ := made
    obtain ⟨channel, grows⟩ := openChannel_makes found rfl action listed first
    obtain ⟨after, bindings, plan⟩ := GrowsBy.keeps grows before
    obtain ⟨final, kept⟩ := ih next opened after (bindings ▸ found) (plan ▸ listed) made
    exact ⟨final, kept.trans bindings⟩

/-- A channel stays open when bindings are added. -/
theorem Channel.Opened.append {owner : PlanBundle} {bindings more : List Binding}
    {channel : Channel} (before : Channel.Opened owner bindings channel) :
    Channel.Opened owner (bindings ++ more) channel := by
  obtain ⟨binding, pipeline, found, rest⟩ := before.bound
  have inside := (List.getElem?_eq_some_iff.mp found).1
  exact { before with
    bound := ⟨binding, pipeline, (List.getElem?_append_left inside).trans found, rest⟩ }

theorem openBinding_makes {owner : PlanBundle} (before : session.Opened owner)
    (made : Makes (openBinding allocator sizes limits session spec) opened) :
    opened.Opened owner := by
  unfold openBinding at made
  simp only [makes_bind, makes_failIf] at made
  obtain ⟨pipeline, bound, charged, charge, -, -, made⟩ := made
  obtain ⟨accounted, rfl⟩ := charge_makes charge
  obtain ⟨found, listed⟩ := bindPipeline_makes bound
  have member : (session.bindings ++ [⟨spec.endpoint, spec.action, pipeline,
      session.channels.length, spec.streams⟩] : List Binding)[session.bindings.length]? =
        some ⟨spec.endpoint, spec.action, pipeline, session.channels.length, spec.streams⟩ :=
    List.getElem?_concat_length
  have ready : Session.Opened owner { session with
      accounted := accounted
      bindings := session.bindings ++ [⟨spec.endpoint, spec.action, pipeline,
        session.channels.length, spec.streams⟩] } :=
    ⟨before.plan, before.idle, fun channel among => (before.channels channel among).append⟩
  exact (openChannels_makes _ found rfl _ _ _ ready member listed made).1

theorem openBindings_makes {owner : PlanBundle} :
    ∀ (specs : List BindingSpec) (session opened : Session), session.Opened owner →
      Makes (specs.foldlM (openBinding allocator sizes limits) session) opened →
      opened.Opened owner := by
  intro specs
  induction specs with
  | nil =>
    intro session opened before made
    rw [List.foldlM_nil, makes_pure] at made
    exact made ▸ before
  | cons spec rest ih =>
    intro session opened before made
    rw [List.foldlM_cons, makes_bind] at made
    obtain ⟨next, first, made⟩ := made
    exact ih next opened (openBinding_makes before first) made

end

/-- A created session is open. -/
theorem create_opened {allocator : Allocator} {sizes : SessionSizes} {plan : PlanBundle}
    {specs : List BindingSpec} {limits : Limits} {session : Session}
    (made : Makes (Session.create allocator sizes plan specs limits) session) :
    session.Opened plan := by
  unfold Session.create at made
  simp only [makes_bind, makes_failIf] at made
  obtain ⟨-, -, -, -, -, -, made⟩ := made
  split at made
  · exact absurd made makes_throw
  · simp only [makes_bind, makes_failIf] at made
    obtain ⟨first, charged, second, chargedAgain, -, -, made⟩ := made
    obtain ⟨_, rfl⟩ := charge_makes charged
    obtain ⟨_, rfl⟩ := charge_makes chargedAgain
    refine openBindings_makes specs _ _ ⟨rfl, rfl, ?_⟩ made
    intro channel member
    cases member

/-! ### Calls -/

theorem supports_ends (plan : PlanBundle) {message : Nat} (action : Action)
    (inside : message < plan.messageExecutionPlans.length) :
    ∃ answer, supports plan message action = some answer := by
  unfold supports
  split
  · exact ⟨_, rfl⟩
  · rw [List.getElem?_eq_getElem inside]
    cases action <;> exact ⟨_, rfl⟩

/-- The messages that the pipelines of a plan list exist. -/
def PlanListed (plan : PlanBundle) : Prop :=
  ∀ pipeline ∈ plan.pipelines, ∀ messageIndex ∈ pipeline.messageIndices,
    messageIndex < plan.messages.length ∧ messageIndex < plan.messageExecutionPlans.length

theorem planListed_of_frozen {target : TargetLayout} {draft : PlanDraftData} {plan : PlanBundle}
    (frozen : FrozenFrom target draft plan) : PlanListed plan := by
  intro pipeline member messageIndex among
  obtain ⟨index, found⟩ := List.mem_iff_getElem?.mp member
  obtain ⟨execution, framing, -, prepared⟩ := frozen.pipelinePrepared found
  obtain ⟨message, descriptor, checked⟩ := prepared.checked among
  have inside := (List.getElem?_eq_some_iff.mp checked.foundPrepared).1
  refine ⟨?_, inside⟩
  rw [frozen.messages, List.length_map, ← frozen.executions.1]
  exact inside

theorem Session.Opened.descends {plan : PlanBundle} {session : Session}
    (opened : session.Opened plan) : session.Descends session where
  plan := rfl
  identity := rfl
  bindings := rfl
  idle := opened.idle
  count := rfl
  channels := fun index old channel found same => by
    obtain rfl := Option.some.inj (found.symm.trans same)
    have created := opened.channels old (List.mem_of_getElem? found)
    refine ⟨rfl, ?_, ?_, rfl, rfl, rfl⟩
    · rw [created.core, opened.plan]
      exact ExecutionWorkspace.fresh_idleFor plan
    · cases old.framer with
      | none => exact .none
      | some framer => exact .some .start

section

variable {σ : Type} {created session : Session} {plan : PlanBundle}

theorem resolve_eq_some {handle : Handle} {index : Nat} {channel : Channel} :
    session.resolve handle = some (index, channel) ↔
      handle.scope = some session.identity ∧ handle.channel = index ∧
        session.channels[index]? = some channel := by
  unfold Session.resolve
  split
  · rename_i scope
    rw [Option.map_eq_some_iff]
    constructor
    · rintro ⟨found, listed, equal⟩
      obtain ⟨rfl, rfl⟩ := Prod.mk.inj equal
      exact ⟨scope, rfl, listed⟩
    · rintro ⟨-, rfl, listed⟩
      exact ⟨channel, listed, rfl⟩
  · rename_i scope
    simp [scope]

/-- A channel of a session, the channel it was created as, and its binding. -/
structure Located (plan : PlanBundle) (created session : Session) (index : Nat)
    (channel old : Channel) (binding : Binding) (pipeline : FrozenPipelinePlan) : Prop where
  before : created.channels[index]? = some old
  found : session.channels[index]? = some channel
  descends : Channel.Descends plan old channel
  opened : Channel.Opened plan created.bindings old
  bound : session.bindings[channel.binding]? = some binding
  planned : plan.pipelines[binding.pipeline]? = some pipeline
  framer : ∀ framer, old.framer = some framer → binding.action = .decode ∧
    ∃ overrides allocated,
      (createStreamFramingWorkspace plan binding.pipeline overrides allocated).workspace =
        some framer

theorem Session.Descends.locate (opened : created.Opened plan) (descends : created.Descends session)
    {index : Nat} {channel : Channel} (found : session.channels[index]? = some channel) :
    ∃ old binding pipeline, Located plan created session index channel old binding pipeline := by
  have inside := (List.getElem?_eq_some_iff.mp found).1
  rw [descends.count] at inside
  have listed := List.getElem?_eq_getElem inside
  have keeps := descends.channels index _ channel listed found
  rw [opened.plan] at keeps
  have first := opened.channels _ (List.getElem_mem inside)
  obtain ⟨binding, pipeline, bound, planned, framer⟩ := first.bound
  refine ⟨_, binding, pipeline, listed, found, keeps, first, ?_, planned, framer⟩
  rw [descends.bindings, keeps.binding]
  exact bound

/-- An operation that keeps its channel keeps the session. -/
theorem Session.Descends.withChannel (descends : created.Descends session) {index : Nat}
    {channel : Channel}
    (kept : ∀ old, created.channels[index]? = some old →
      Channel.Descends created.plan old channel) :
    created.Descends (session.withChannel index channel) where
  plan := descends.plan
  identity := descends.identity
  bindings := descends.bindings
  idle := rfl
  count := (List.length_set ..).trans descends.count
  channels := fun position old other created found => by
    rw [Session.withChannel, List.getElem?_set] at found
    split at found
    · rename_i same
      split at found
      · subst same
        exact Option.some.inj found ▸ kept old created
      · cases found
    · exact descends.channels position old other created found

theorem Located.keep {index : Nat} {channel old next : Channel} {binding : Binding}
    {pipeline : FrozenPipelinePlan} (opened : created.Opened plan)
    (descends : created.Descends session)
    (located : Located plan created session index channel old binding pipeline)
    (kept : Channel.Descends plan old next) :
    created.Descends (session.withChannel index next) := by
  refine descends.withChannel fun other found => ?_
  obtain rfl := Option.some.inj (located.before.symm.trans found)
  exact opened.plan ▸ kept

/-- An operation that ends, and leaves the session as its descendant. -/
def Ends (created : Session) (operation : Access (OperationEnd σ)) : Prop :=
  ∃ done, operation = some done ∧ created.Descends done.session

theorem ends_refuse (descends : created.Descends session) (result : Result) (status : Status)
    (host : σ) : Ends created (some (session.refuse result status host)) :=
  ⟨_, rfl, descends⟩

theorem decode_ends (valid : PlanValid plan) (opened : created.Opened plan)
    (descends : created.Descends session) (handle : Handle) (bytes : ByteView)
    (callbacks : Callbacks σ) (host : σ) :
    Ends created (session.decode handle bytes callbacks host) := by
  unfold Session.decode
  rw [descends.idle, if_neg (by simp)]
  cases resolved : session.resolve handle with
  | none => exact ends_refuse descends _ _ _
  | some found =>
    obtain ⟨index, channel⟩ := found
    obtain ⟨-, -, found⟩ := resolve_eq_some.mp resolved
    obtain ⟨old, binding, pipeline, located⟩ := descends.locate opened found
    simp only [located.bound, Option.bind_eq_bind, Option.bind_some]
    split
    · exact ends_refuse descends _ _ _
    split
    · exact ends_refuse descends _ _ _
    split
    · exact ends_refuse descends _ _ _
    split
    · exact ends_refuse descends _ _ _
    split
    · exact ends_refuse descends _ _ _
    · rename_i sink _ _
      have plan := descends.plan.trans opened.plan
      obtain ⟨continues, after, run, kept⟩ := decodeCandidate_ends valid binding.pipeline bytes sink
        callbacks.observer ⟨channel, { status := .ok, generation := channel.generation }, host⟩
        located.descends
      rw [plan, run, Option.bind_some]
      exact ⟨_, rfl, located.keep opened descends kept⟩

theorem push_ends (valid : PlanValid plan) (opened : created.Opened plan)
    (descends : created.Descends session) (handle : Handle) (bytes : ByteView)
    (callbacks : Callbacks σ) (host : σ) :
    Ends created (session.push handle bytes callbacks host) := by
  unfold Session.push
  rw [descends.idle, if_neg (by simp)]
  cases resolved : session.resolve handle with
  | none => exact ends_refuse descends _ _ _
  | some found =>
    obtain ⟨index, channel⟩ := found
    obtain ⟨-, -, found⟩ := resolve_eq_some.mp resolved
    obtain ⟨old, binding, pipeline, located⟩ := descends.locate opened found
    simp only [located.bound, Option.bind_eq_bind, Option.bind_some]
    split
    · exact ends_refuse descends _ _ _
    cases framed : channel.framer with
    | none => exact ends_refuse descends _ _ _
    | some framer =>
      simp only
      split
      · exact ends_refuse descends _ _ _
      split
      · exact ends_refuse descends _ _ _
      split
      · exact ends_refuse descends _ _ _
      · rename_i sink _ _
        have plan := descends.plan.trans opened.plan
        obtain ⟨after, run, kept⟩ := pushChannel_ends valid binding.pipeline bytes sink
          callbacks.observer
          ⟨channel, { { generation := channel.generation : Result } with
            status := .ok, framingAttempted := true }, host⟩ located.descends framed
        rw [plan, run, Option.bind_some]
        exact ⟨_, rfl, located.keep opened descends kept⟩

theorem encode_ends (valid : PlanValid plan) (planned : PlanListed plan)
    (opened : created.Opened plan) (descends : created.Descends session) (handle : Handle)
    (messageId : String) (values : NamedValues) (sink : Option (Callback σ Output)) (host : σ) :
    Ends created (session.encode handle messageId values sink host) := by
  unfold Session.encode
  rw [descends.idle, if_neg (by simp)]
  cases resolved : session.resolve handle with
  | none => exact ends_refuse descends _ _ _
  | some found =>
    obtain ⟨index, channel⟩ := found
    obtain ⟨-, -, found⟩ := resolve_eq_some.mp resolved
    obtain ⟨old, binding, pipeline, located⟩ := descends.locate opened found
    have same := descends.plan.trans opened.plan
    simp only [located.bound, Option.bind_eq_bind, Option.bind_some]
    split
    · exact ends_refuse descends _ _ _
    split
    · exact ends_refuse descends _ _ _
    obtain ⟨ids, listed, among⟩ := mapM_listed (fun candidate =>
      plan.messages[candidate]?.map fun message => (message, candidate)) pipeline.messageIndices
        (fun candidate member => by
          have inside := (planned pipeline (List.mem_of_getElem? located.planned) _ member).1
          rw [List.getElem?_eq_getElem inside]
          exact ⟨_, rfl⟩)
    rw [same, located.planned, Option.bind_some, listed, Option.bind_some]
    cases chosen : (ids.filter (·.1.id == messageId)).getLast? with
    | none => exact ends_refuse descends _ _ _
    | some choice =>
      obtain ⟨message, messageIndex⟩ := choice
      obtain ⟨candidate, member, equal⟩ :=
        among _ (List.mem_filter.mp (List.mem_of_getLast? chosen)).1
      obtain ⟨_, -, equal⟩ := Option.map_eq_some_iff.mp equal
      obtain ⟨-, rfl⟩ := Prod.mk.inj equal
      obtain ⟨answer, supported⟩ := supports_ends plan .encode
        (planned pipeline (List.mem_of_getElem? located.planned) _ member).2
      simp only
      rw [supported, Option.bind_some]
      split
      · exact ends_refuse descends _ _ _
      cases sink with
      | none => exact ends_refuse descends _ _ _
      | some business =>
      simp only
      split
      · exact ends_refuse descends _ _ _
      split
      · exact ⟨_, rfl, located.keep opened descends { located.descends with }⟩
      · obtain ⟨after, run, kept⟩ := encodeChannel_ends valid binding.pipeline candidate
          values.values.length business
          ⟨{ channel with values := { channel.values with values := (resolveValues plan candidate
            message.fields values.values.zipIdx channel.values.values).2 } }, {}, host⟩
          { located.descends with }
        rw [run, Option.bind_some]
        exact ⟨_, rfl, located.keep opened descends kept⟩

theorem reset_ends (opened : created.Opened plan) (descends : created.Descends session)
    (handle : Handle) :
    ∃ status after, session.reset handle = some (status, after) ∧ created.Descends after := by
  unfold Session.reset
  rw [descends.idle, if_neg (by simp)]
  cases resolved : session.resolve handle with
  | none => exact ⟨_, _, rfl, descends⟩
  | some found =>
    obtain ⟨index, channel⟩ := found
    obtain ⟨-, -, found⟩ := resolve_eq_some.mp resolved
    obtain ⟨old, binding, pipeline, located⟩ := descends.locate opened found
    simp only [located.bound, Option.bind_eq_bind, Option.bind_some]
    split
    · exact ⟨_, _, rfl, descends⟩
    split
    · exact ⟨_, _, rfl, descends⟩
    cases framed : channel.framer with
    | none =>
      exact ⟨_, _, rfl, located.keep opened descends
        { located.descends with framer := framed ▸ located.descends.framer }⟩
    | some framer =>
      have moved : Option.Rel Reachable old.framer
          (some (resetStreamFramingWorkspace session.plan framer binding.pipeline).2) := by
        have before := framed ▸ located.descends.framer
        generalize old.framer = first at before
        cases before with
        | some reachable => exact .some (.reset reachable _ _)
      simp only
      split
      · rename_i after reset
        rw [reset] at moved
        exact ⟨_, _, rfl, located.keep opened descends { located.descends with framer := moved }⟩
      · rename_i after reset
        rw [reset] at moved
        exact ⟨_, _, rfl, located.keep opened descends { located.descends with framer := moved }⟩

/-- Every call ends. -/
theorem call_ends (valid : PlanValid plan) (planned : PlanListed plan)
    (opened : created.Opened plan) (descends : created.Descends session) (host : σ)
    (call : Call σ) : Ends created (session.call host call) := by
  cases call with
  | decode handle bytes callbacks =>
    exact decode_ends valid opened descends handle bytes callbacks host
  | push handle bytes callbacks => exact push_ends valid opened descends handle bytes callbacks host
  | encode handle messageId values sink =>
    exact encode_ends valid planned opened descends handle messageId values sink host
  | reset handle =>
    obtain ⟨status, after, run, kept⟩ := reset_ends opened descends handle
    refine ⟨⟨{ status := status }, after, host⟩, ?_, kept⟩
    rw [Session.call, run]
    rfl

/-- Every run of calls ends. -/
theorem run_ends (valid : PlanValid plan) (planned : PlanListed plan)
    (opened : created.Opened plan) :
    ∀ (calls : List (Call σ)) (session : Session) (host : σ), created.Descends session →
      ∃ results after last, session.run host calls = some (results, after, last) ∧
        created.Descends after := by
  intro calls
  induction calls with
  | nil =>
    intro session host descends
    exact ⟨_, _, _, rfl, descends⟩
  | cons call rest ih =>
    intro session host descends
    obtain ⟨done, first, kept⟩ := call_ends valid planned opened descends host call
    obtain ⟨results, after, last, runs, kept⟩ := ih done.session done.host kept
    refine ⟨done.result :: results, after, last, ?_, kept⟩
    rw [Session.run, first, Option.bind_eq_bind, Option.bind_some, runs]
    rfl

end

end ProtocolAdapter.HostEndpoint
