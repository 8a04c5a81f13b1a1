import Pluribus.Cognition.Tick

namespace Pluribus.Cognition

open Lib Pluribus.Core Storage

/-- An agent's installation: its router before anything is registered, the cognition component
and the providers. -/
structure Setup where
  router : Router
  principal : PrincipalRef
  cognition : Registration
  providers : List Registration
  wholeStream : cognition.subscriptions.wholeStream = true
  narrow : ∀ p ∈ providers, p.subscriptions.wholeStream = false
  distinct : ((cognition :: providers).map (·.instanceId)).Nodup

namespace Setup

variable (setup : Setup)

def stream : StreamId := setup.router.streamId

def components : List Registration := setup.cognition :: setup.providers

def cursor (store : Store) (id : String) : Nat := store.cursor ⟨setup.stream, id⟩

end Setup

/-- One operation of the agent with its answer, and the store it met. -/
structure Moment where
  op : AgentOp
  answer : op.Res
  store : Store

/-- The agent's memory, the store it shares with others, the batches ever handed to a worker and
the operations so far, the last one first. -/
structure World where
  agent : Agent
  store : Store
  handed : List (String × List CommittedEvent)
  history : List Moment

/-- The types of the records only the host writes and that others may not imitate. -/
def hostTypes : List String := ["policy.decision", "component.failed"]

example : ∀ eventType ∈ hostTypes, eventType ∈ RESERVED_EVENT_TYPES := by decide

/-- What everyone but the agent's loop does to the store: events of other types than the host's
are appended, and a worker moves its instance's cursor into the batch it was handed. -/
structure Outside (setup : Setup) (handed : List (String × List CommittedEvent)) (store store' : Store) : Prop where
  grows : store.log.events <+: store'.log.events
  foreign : ∀ event ∈ store'.log.events, event ∈ store.log.events ∨ event.request.eventType ∉ hostTypes
  forward : ∀ id, setup.cursor store id ≤ setup.cursor store' id
  delivered : ∀ id, setup.cursor store' id = setup.cursor store id ∨
    ∃ batch first last, (id, batch) ∈ handed ∧ batch.head? = some first ∧ batch.getLast? = some last ∧
      first.sequence ≤ setup.cursor store' id ∧ setup.cursor store' id ≤ last.sequence

theorem Outside.refl (setup : Setup) (handed : List (String × List CommittedEvent)) (store : Store) :
    Outside setup handed store store :=
  ⟨List.prefix_refl _, fun _ h => .inl h, fun _ => le_rfl, fun _ => .inl rfl⟩

theorem Outside.trans {setup : Setup} {handed : List (String × List CommittedEvent)} {store₁ store₂ store₃ : Store}
    (h₁ : Outside setup handed store₁ store₂) (h₂ : Outside setup handed store₂ store₃) :
    Outside setup handed store₁ store₃ where
  grows := h₁.grows.trans h₂.grows
  foreign event hevent := (h₂.foreign event hevent).elim (h₁.foreign event) .inr
  forward id := (h₁.forward id).trans (h₂.forward id)
  delivered id := by
    rcases h₂.delivered id with hsame | hmoved
    · rw [hsame]
      exact h₁.delivered id
    · exact .inr hmoved

/-- The instance's commit of a new checkpoint with the given events. -/
def Skips (setup : Setup) (id : String) (checkpoint : Nat) (events : List AppendRequest) (w : World)
    (r : Except Runtime.RuntimeError Unit) (w' : World) : Prop :=
  match r with
  | .ok () => ∃ draws expected receipt store',
      w.store.commit draws ⟨⟨setup.stream, id⟩, expected, some checkpoint, [], events⟩ = .ok (receipt, store') ∧
        w' = { w with store := store' }
  | .error _ => w' = w

namespace AgentOp

def Effect (setup : Setup) : (op : AgentOp) → World → op.Res → World → Prop
  | memory, w, agent, w' => agent = w.agent ∧ w' = w
  | update f, w, _, w' => w' = { w with agent := f w.agent }
  | store op, w, r, w' => ∃ store', op.Answers w.store r store' ∧ w' = { w with store := store' }
  | checkpoint id, w, position, w' => position ≤ setup.cursor w.store id ∧ w' = w
  | spawn id batch, w, _, w' => w' = { w with handed := (id, batch) :: w.handed }
  | handle id batch, w, _, w' => ∃ store', Outside setup [(id, batch)] w.store store' ∧ w' = { w with store := store' }
  | skip id position, w, r, w' => Skips setup id position [] w r w'
  | skipWithEvents id position events, w, r, w' => Skips setup id position events w r w'
  | instantiate _, w, _, w' => ∃ store', Outside setup [] w.store store' ∧ w' = { w with store := store' }
  | restart _, w, _, w' => ∃ store', Outside setup [] w.store store' ∧ w' = { w with store := store' }
  | _, w, _, w' => w' = w

def Answers (setup : Setup) (op : AgentOp) (w : World) (r : op.Res) (w' : World) : Prop :=
  ∃ w₁, op.Effect setup w r w₁ ∧ w' = { w₁ with history := ⟨op, r, w.store⟩ :: w.history }

end AgentOp

def projected (s : StreamId) (log : Log) : List CommittedEvent :=
  (log.stream s).filter (·.request.eventType ∈ DispatchProjection.types)

/-- What holds of the agent's memory against the log throughout. -/
structure Coherent (setup : Setup) (w : World) : Prop where
  stream : w.agent.streamId = setup.stream
  routed : w.agent.router.streamId = setup.stream
  registered : ∀ r ∈ w.agent.router.registrations, r ∈ setup.components
  external : ∀ r ∈ w.agent.router.registrations, r.subscriptions.wholeStream = false →
    w.agent.external.contains r.instanceId
  workers : ∀ id batch, (id, batch) ∈ w.agent.workers → batch = [] ∨ (id, batch) ∈ w.handed
  handed : ∀ id batch, (id, batch) ∈ w.handed → ∃ e ∈ w.store.log.stream setup.stream, batch = [e]
  failures : ∀ failure ∈ w.store.log.stream setup.stream, failure.request.eventType = "component.failed" →
    ∀ p ∈ setup.providers, payloadField failure "instanceId" = some p.instanceId →
      ∀ id, failure.request.causationId = some id → ∃ e, (p.instanceId, [e]) ∈ w.handed ∧ e.eventId = id
  projection : ∃ seen, seen <+: projected setup.stream w.store.log ∧ w.agent.projection = .ofEvents seen

section Requests

variable (s : StreamId) (log : Log)

/-- The request names a capability the provider provides. -/
def Registration.Serves (p : Registration) (r : CommittedEvent) : Prop :=
  r.request.eventType = "capability.requested" ∧
    ∃ capability ∈ p.subscriptions.capabilities, payloadField r "capability" = some capability

def HasRecord (kind : String) (request : EventId) : Prop :=
  ∃ event ∈ log.stream s, event.request.eventType = kind ∧ event.request.causationId = some request

def HasResult (request : EventId) : Prop := ∃ event ∈ log.stream s, Terminates request event

/-- The request was decided, and not in the instance's favour. -/
def Withheld (id : String) (request : EventId) : Prop :=
  ∃ event ∈ log.stream s, event.request.eventType = "policy.decision" ∧
    event.request.causationId = some request ∧ payloadField event "provider" ≠ some id

/-- The request needs nothing more from the instance: it has a result, it has been attempted, or
it was decided otherwise. -/
def Settled (id : String) (request : EventId) : Prop :=
  HasResult s log request ∨ HasRecord s log "activity.attempted" request ∨ Withheld s log id request

end Requests

/-- The moments since the agent last read the instance's position. -/
def passOf (id : String) (history : List Moment) : List Moment :=
  history.takeWhile fun moment => match moment.op with
    | .checkpoint i => i ≠ id
    | _ => true

def World.pass (w : World) (id : String) : List Moment := passOf id w.history

/-- Everything the gate promises of a request that is handed to an instance. -/
structure Gated (setup : Setup) (id : String) (r : CommittedEvent) (w : World) : Prop where
  decided : ∃ event ∈ w.store.log.stream setup.stream, event.request.eventType = "policy.decision" ∧
    event.request.causationId = some r.eventId ∧ payloadField event "provider" = some id
  attempted : HasRecord setup.stream w.store.log "activity.attempted" r.eventId
  unanswered : ∃ moment ∈ w.pass id, ¬ HasResult setup.stream moment.store.log r.eventId
  deadline : ∀ deadline, jsonNumber r "deadlineAtMs" = some deadline → w.agent.admissionNowMs < deadline
  allowed : ∃ authority store capability, ⟨.resolve r, .ok authority, store⟩ ∈ w.pass id ∧
    payloadField r "capability" = some capability ∧
    w.agent.router.decideRequest r capability authority w.agent.admissionNowMs = .deliver id
  revision : ∀ job, payloadField r "jobId" = some job → ∃ moment ∈ w.pass id, ∀ entry,
    ((moment.store.log.stream setup.stream).filterMap (jobRecord setup.cognition.instanceId job)).getLast? = some entry →
      jsonNumber r "revision" = some entry.1
  observed : ∃ moment ∈ w.pass id, ∀ event ∈ moment.store.log.stream setup.stream,
    event.request.eventType = "observation.received" →
      event.sequence ≤ setup.cursor moment.store setup.cognition.instanceId

/-- Every request for the provider up to the position is behind its cursor, settled or still
undecided. -/
def Examined (setup : Setup) (p : Registration) (position : Nat) (w : World) : Prop :=
  ∀ r ∈ w.store.log.stream setup.stream, p.Serves r → r.sequence ≤ position →
    r.sequence ≤ setup.cursor w.store p.instanceId ∨ Settled setup.stream w.store.log p.instanceId r.eventId ∨
      ¬ HasRecord setup.stream w.store.log "policy.decision" r.eventId

/-- A provider's cursor moves to the end of a batch it was handed, or past examined requests. -/
def Covered (setup : Setup) (id : String) (position : Nat) (w : World) : Prop :=
  ∀ p ∈ setup.providers, p.instanceId = id →
    (∃ e, (id, [e]) ∈ w.handed ∧ position = e.sequence) ∨ Examined setup p position w

/-- A failure recorded of a provider is caused by an event that was handed to it. -/
def FailureJustified (setup : Setup) (request : AppendRequest) (w : World) : Prop :=
  request.eventType = "component.failed" → ∀ p ∈ setup.providers, ∀ value,
    request.payload = .canonicalJson (.json value) → value.getStr "instanceId" = some p.instanceId →
      ∀ id, request.causationId = some id → ∃ e, (p.instanceId, [e]) ∈ w.handed ∧ e.eventId = id

def AgentOp.Demands (setup : Setup) : AgentOp → World → Prop
  | update f, w => Coherent setup { w with agent := f w.agent }
  | store (.append request), w => FailureJustified setup request w
  | spawn id batch, w => ∃ e ∈ w.store.log.stream setup.stream, batch = [e] ∧ Covered setup id e.sequence w ∧
      (e.request.eventType = "capability.requested" → setup.cognition ∈ w.agent.router.registrations →
        Gated setup id e w)
  | handle id _, _ => ∀ p ∈ setup.providers, p.instanceId ≠ id
  | skip id position, w => Covered setup id position w
  | skipWithEvents id position events, w => Covered setup id position w ∧
      ∀ request ∈ events, request.eventType ∉ hostTypes
  | _, _ => True

/-- The append meets no event of another type or about another event under its key. -/
def Undisplaced (log : Log) (request : AppendRequest) : Prop :=
  ∀ event, log.existing request = some event →
    event.request.eventType = request.eventType ∧ event.request.causationId = request.causationId

/-- Runs of the loop among other writers in which no append of the loop is displaced. -/
def agentContract (setup : Setup) : Contract AgentOp AgentOp.Res World where
  good := Coherent setup
  interferes w w' := ∃ store', Outside setup w.handed w.store store' ∧ w' = { w with store := store' }
  demands := AgentOp.Demands setup
  answers op w r w' := op.Answers setup w r w' ∧
    ∀ request, op = .store (.append request) → Undisplaced w.store.log request
  interferes_refl w := ⟨w.store, .refl .., rfl⟩
  interferes_trans := by
    rintro u v w ⟨store₁, h₁, rfl⟩ ⟨store₂, h₂, rfl⟩
    exact ⟨store₂, h₁.trans h₂, rfl⟩

end Pluribus.Cognition
