import Pluribus.Core.Event
import Pluribus.Lib.Transaction

namespace Pluribus.Core

open Lib

/-- Event types the core owns. A plugin may never propose one directly. -/
def RESERVED_EVENT_TYPES : List String := [
  "component.failed", "component.backoff", "component.recovered", "cognition.resource-exhausted",
  "operator.job-control", "operator.attempt-reconciled", "observation.received", "policy.decision",
  "credential.enrollment.requested", "activity.attempted", "activity.unknown", "capability.denied",
  "capability.timed-out", "capability.cancelled", "stream.closed", "agent.failed"]

def PLUGIN_EVENT_TYPES : List String := [
  "credential.enrollment.started", "http.request.received", "http.response.requested",
  "capability.requested", "model.requested", "capability.output", "capability.completed",
  "capability.failed", "model.stream", "model.completed", "model.failed", "cognition.checkpoint",
  "cognition.job-updated", "cognition.observation-associated", "cognition.cancel-requested",
  "cognition.completed", "cognition.failed", "memory.remembered", "memory.superseded",
  "memory.forgotten", "code.close-requested", "code.closed", "code.evaluate-requested",
  "code.yielded", "code.resumed", "code.completed", "code.failed", "timer.set", "timer.cancel",
  "timer.fired", "schedule.updated"]

def DECLARED_SCHEMAS : List (String × String) := [
  ("operator.job-control", "pluribus.operator-job-control/1"),
  ("operator.attempt-reconciled", "pluribus.operator-attempt-reconciled/1"),
  ("component.backoff", "pluribus.component-health/1"),
  ("component.recovered", "pluribus.component-health/1"),
  ("cognition.resource-exhausted", "pluribus.cognition-resource-exhausted/1"),
  ("activity.attempted", "pluribus.activity-attempt/1"),
  ("activity.unknown", "pluribus.activity-attempt/1"),
  ("cognition.checkpoint", "pluribus.cognition-checkpoint/1"),
  ("cognition.job-updated", "pluribus.job/1"),
  ("cognition.observation-associated", "pluribus.observation-association/1"),
  ("cognition.cancel-requested", "pluribus.cognition-cancel/1")]

inductive Ownership where
  | core
  | plugin
deriving DecidableEq, Repr

structure EventTypeDeclaration where
  ownership : Ownership
  payloadSchema : Option String
deriving DecidableEq, Repr

structure EventTypeRegistry where
  types : Table String EventTypeDeclaration
deriving DecidableEq, Repr

def EventTypeRegistry.core : EventTypeRegistry where
  types :=
    let declare (ownership : Ownership) (eventType : String) :=
      (eventType, EventTypeDeclaration.mk ownership (Table.find DECLARED_SCHEMAS eventType))
    RESERVED_EVENT_TYPES.map (declare .core) ++ PLUGIN_EVENT_TYPES.map (declare .plugin)

inductive RegistryError where
  | unknown (eventType : String)
  | reserved (eventType : String)
  | notGranted (eventType : String)
  | schemaMismatch (eventType expected actual : String)
deriving DecidableEq, Repr

def RegistryError.toString : RegistryError → String
  | .unknown eventType => "unknown event type: " ++ eventType
  | .reserved eventType => "event type is core-owned: " ++ eventType
  | .notGranted eventType => "instance may not emit " ++ eventType
  | .schemaMismatch eventType expected actual =>
    "event type " ++ eventType ++ " carries schema " ++ expected ++ ", proposal used " ++ actual

def matchesPattern (pattern eventType : String) : Bool :=
  if pattern = "*" then true
  else if Text.endsWith ".*" pattern then
    (Text.after pattern.toList.dropLast.dropLast eventType.toList).any fun rest => rest.head? = some '.'
  else pattern = eventType

namespace EventTypeRegistry

def declaration (registry : EventTypeRegistry) (request : AppendRequest) :
    Except RegistryError EventTypeDeclaration :=
  match registry.types.find request.eventType with
  | none => .error (.unknown request.eventType)
  | some declaration => .ok declaration

def validate (registry : EventTypeRegistry) (request : AppendRequest) : Except RegistryError Unit := do
  let declaration ← registry.declaration request
  match declaration.payloadSchema with
  | none => .ok ()
  | some schema =>
    if schema ≠ request.payloadSchema then
      .error (.schemaMismatch request.eventType schema request.payloadSchema)
    else .ok ()

def authorize (registry : EventTypeRegistry) (request : AppendRequest) (granted : List String) :
    Except RegistryError Unit := do
  registry.validate request
  let declaration ← registry.declaration request
  -- connectors need an exact observation grant; wildcards confer no intake authority
  let connectorObservation := request.eventType = "observation.received" && granted.contains "observation.received"
  if declaration.ownership = .core && !connectorObservation then
    .error (.reserved request.eventType)
  else if !granted.any (matchesPattern · request.eventType) then
    .error (.notGranted request.eventType)
  else .ok ()

theorem core_reserved : ∀ eventType ∈ RESERVED_EVENT_TYPES,
    (core.types.find eventType).any (fun declaration => declaration.ownership = .core) = true := by
  decide

theorem authorize_reserved {request : AppendRequest} {granted : List String}
    (h : core.authorize request granted = .ok ()) (hreserved : request.eventType ∈ RESERVED_EVENT_TYPES) :
    request.eventType = "observation.received" := by
  obtain ⟨_, -, h⟩ := except_bind_ok.mp h
  obtain ⟨declaration, hdeclaration, h⟩ := except_bind_ok.mp h
  have hcore : declaration.ownership = .core := by
    have hfind := core_reserved request.eventType hreserved
    unfold EventTypeRegistry.declaration at hdeclaration
    split at hdeclaration
    · cases hdeclaration
    · rename_i found hfound
      cases hdeclaration
      simpa [hfound] using hfind
  by_contra hne
  simp [hcore, hne] at h

end EventTypeRegistry

end Pluribus.Core
