import Mathlib.Algebra.Ring.Nat
import Pluribus.Cognition.Agent

namespace Pluribus.Cognition.Agent

open Lib Pluribus.Core Storage Pluribus.Runtime AgentM

def refresh : Nat → AgentM Unit
  | 0 => pure ()
  | n + 1 => do
    let agent ← get
    let page ← route (agent.router.ofTypes DispatchProjection.types 1000 agent.projection.through)
    if page.isEmpty then pure ()
    else do
      let absorbed := agent.projection.absorb page
      modify ({ · with projection := absorbed.1 })
      match absorbed.2 with
      | none => refresh n
      | some error => throw (.router error)

def resultFor (request : EventId) : AgentM (Option CommittedEvent) := do
  refresh Router.scanLimit
  let agent ← get
  match agent.projection.results.find request with
  | none => pure none
  | some id => route (Router.ask (.get id))

def appendHealth (kind : String) (payload : List (String × Json)) : AgentM Unit := do
  let agent ← get
  let _ ← route (agent.router.appendHealth kind (Json.ofFields payload))
  return ()

def markResourceRestartFailure (id reason : String) : AgentM Unit := do
  appendHealth "component.failed" [
    ("instanceId", .string id),
    ("reason", .string reason),
    ("code", .string "resource-exhausted"),
    ("health", .string "unhealthy")]
  modify fun agent => { agent with failed := agent.failed.insert id reason }

def effectStatus (source : CommittedEvent) : String :=
  if source.request.eventType ∈ ["model.requested", "capability.requested", "code.evaluate-requested"] then
    "outcome-unknown"
  else "not-started"

def giveUp (id key : String) (source : CommittedEvent) (resource : ResourceExhaustion) : AgentM Unit := do
  let agent ← get
  let deferred ← route (agent.router.resourceExhaustionRequest id source 0 (Json.ofFields (resourceJson resource))
    (effectStatus source) "deferred-before-cursor" resource.jobId resource.sessionId)
  if agent.instances.contains id then do
    guest (perform (.skipWithEvents id source.sequence [deferred]))
    modify fun agent => { agent with backoff := agent.backoff.erase key }
  else throw (.unknownInstance id)

def retryLater (id key : String) (request : Option EventId) (failures : Nat) (error : RuntimeError) :
    AgentM Unit := do
  let agent ← get
  let delay : Nat := min (1000 * 2 ^ min (failures - 1) 6) 60000
  let retryAt : Int := min (agent.admissionNowMs + delay) i64Max
  appendHealth "component.backoff" [
    ("instanceId", .string id),
    ("requestEventId", Json.ofOption .string request),
    ("phase", Json.ofOption (.string ·.phase) error.resourceExhaustion),
    ("reason", .string error.message),
    ("failures", Json.ofNat failures),
    ("retryAtMs", Json.ofInt retryAt)]
  modify fun agent => { agent with backoff := agent.backoff.insert key (failures, retryAt) }

def deferDelivery (id : String) (batch : List CommittedEvent) (error : RuntimeError) : AgentM Unit := do
  let agent ← get
  let resource := error.resourceExhaustion
  let request := resource.bind fun _ => batch.head?.map (·.eventId)
  let key := (request.map (backoffKey id)).getD id
  let failures := ((agent.backoff.find key).map fun (n, _) => min (n + 1) (if resource.isSome then 3 else 32)).getD 1
  modify fun agent =>
    if resource.isSome then { agent with reducedBatches := agent.reducedBatches.insert id () } else agent
  match resource, batch with
  | some _, [] =>
    if 3 ≤ failures then do
      markResourceRestartFailure id error.message
      modify fun agent => { agent with backoff := agent.backoff.erase key }
    else retryLater id key request failures error
  | some exhausted, [source] =>
    if 3 ≤ failures then giveUp id key source exhausted else retryLater id key request failures error
  | _, _ => retryLater id key request failures error

end Pluribus.Cognition.Agent
