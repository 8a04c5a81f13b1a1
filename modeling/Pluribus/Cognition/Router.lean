import Pluribus.Cognition.Subscriptions
import Pluribus.Storage.Ops

namespace Pluribus.Cognition

open Lib Pluribus.Core Storage

inductive RouterError where
  | unknownInstance (id : String)
  | storage (message : String)
deriving DecidableEq, Repr

inductive Routed where
  | deliver (instanceId : String)
  | noProvider (reason : String)
  | denied (reason : String)
deriving DecidableEq, Repr

def Routed.allowed : Routed → Bool
  | .deliver _ => true
  | _ => false

def Routed.provider : Routed → Option String
  | .deliver instanceId => some instanceId
  | _ => none

def Routed.reason : Routed → Option String
  | .deliver _ => none
  | .noProvider reason | .denied reason => some reason

def denialReason : DenialReason → String
  | .missingGrant => "no grant for this capability"
  | .constraintMismatch => "constraints reject the request"
  | .expired => "authority expired"
  | .depthExceeded => "recursion depth exhausted"
  | .policyError message => "policy error: " ++ message

/-- Maps committed events onto instances, gating requests through authority. -/
structure Router where
  streamId : StreamId
  agent : PrincipalRef
  registrations : List Registration
  registry : EventTypeRegistry
  constraints : ConstraintPolicy

abbrev RouterM := StoreM RouterError

namespace Router

def ask (op : StoreOp) : RouterM op.Value := StoreM.ask (fun error => .storage error.toString) op

/-- More pages than any stream has: a page moves on by at least one event. -/
def scanLimit : Nat := i64Max

/-- Reads a stream page by page until `visit` answers or the pages end. -/
def pages {σ β : Type} (next : Nat → RouterM (List CommittedEvent))
    (visit : σ → List CommittedEvent → RouterM (σ ⊕ β)) (finish : σ → RouterM β) : Nat → Nat → σ → RouterM β
  | 0, _, s => finish s
  | n + 1, after, s => do
    let page ← next after
    match page.getLast? with
    | none => finish s
    | some last =>
      match ← visit s page with
      | .inl s' => pages next visit finish n last.sequence s'
      | .inr b => pure b

variable (router : Router)

def registration (instanceId : String) : Option Registration :=
  router.registrations.find? (·.instanceId = instanceId)

def ofTypes (eventTypes : List String) (limit after : Nat) : RouterM (List CommittedEvent) :=
  ask (.query router.streamId { afterSequence := some after, eventTypes := eventTypes } limit)

def hostRecord (eventType payloadSchema : String) (payload : Json) (source : Option CommittedEvent)
    (key : Option String) : AppendRequest where
  streamId := router.streamId
  streamKind := .agent
  observedAtMs := none
  eventType := eventType
  payloadSchema := payloadSchema
  payload := .canonicalJson (.json payload)
  actor := ⟨.node, router.agent.id⟩
  authorityId := source.bind (·.request.authorityId)
  activityId := source.bind (·.request.activityId)
  correlationId := source.bind (·.request.correlationId)
  causationId := source.map (·.eventId)
  deduplicationKey := key

def validated (request : AppendRequest) : RouterM AppendRequest :=
  match router.registry.validate request with
  | .ok () => pure request
  | .error error => throw (.storage error.toString)

def argumentsOf (event : CommittedEvent) : Json :=
  match event.request.payload with
  | .canonicalJson (.json value) => value.index "arguments"
  | _ => .null

def providers (capability : CapabilityName) : List Registration :=
  router.registrations.filter (·.subscriptions.capabilities.contains capability)

/-- What the registrations and the authority say about a request for the capability. -/
def decideRequest (event : CommittedEvent) (capability : CapabilityName) (authority : Authority) (nowMs : Int) :
    Routed :=
  match router.providers capability with
  | [] => .noProvider ("no instance provides " ++ capability)
  | [registration] =>
    let bindings := registration.subscriptions.constraintBindings.find capability
    match authority.decide capability ⟨.component, registration.instanceId⟩
        (ProjectedConstraints.allows router.constraints bindings (.json (argumentsOf event))) nowMs with
    | .allow _ => .deliver registration.instanceId
    | .deny reason => .denied (denialReason reason)
  | _ => .noProvider ("multiple providers for " ++ capability)

def decisionRecord (event : CommittedEvent) (capability : CapabilityName) (routed : Routed) : AppendRequest :=
  router.hostRecord "policy.decision" "pluribus.policy-decision/1"
    (Json.ofFields [
      ("capability", .string capability),
      ("allowed", .bool routed.allowed),
      ("provider", Json.ofOption .string routed.provider),
      ("reason", Json.ofOption .string routed.reason),
      ("requestEventId", .string event.eventId)])
    (some event) (some ("policy:" ++ event.eventId))

def appendDecision (event : CommittedEvent) (capability : CapabilityName) (routed : Routed) : RouterM Unit := do
  let request ← router.validated (router.decisionRecord event capability routed)
  let _ ← ask (.append request)
  return ()

def denialRecord (event : CommittedEvent) (reason : String) : AppendRequest :=
  router.hostRecord "capability.denied" "pluribus.capability-denied/1"
    (Json.ofFields [("requestEventId", .string event.eventId), ("reason", .string reason)])
    (some event) (some ("denied:" ++ event.eventId))

def appendDenial (event : CommittedEvent) (reason : String) : RouterM CommittedEvent :=
  ask (.append (router.denialRecord event reason))

def appendHealth (kind : String) (payload : Json) : RouterM CommittedEvent :=
  ask (.append (router.hostRecord kind "pluribus.component-health/1" payload none none))

def attemptRecord (source : CommittedEvent) (kind : String) (payload : Json) (key : String) : AppendRequest :=
  router.hostRecord kind
    (if Text.startsWith "activity." kind then "pluribus.activity-attempt/1" else "pluribus.activity-failure/1")
    payload (some source) (some key)

def attemptEvent (source : CommittedEvent) (kind : String) (payload : Json) (key : String) :
    RouterM CommittedEvent := do
  let request ← router.validated (router.attemptRecord source kind payload key)
  ask (.append request)

def textField (event : CommittedEvent) (field : String) : Json :=
  Json.ofOption .string (payloadField event field)

def classification (request : CommittedEvent) (provider : String) : Option Idempotency :=
  (router.registration provider).bind fun registration =>
    (payloadField request "capability").bind registration.subscriptions.idempotency.find

def attemptKey (request : CommittedEvent) : String := "attempt:" ++ request.eventId

def interruptAttempt (request : CommittedEvent) (provider : String) : RouterM Unit := do
  let _ ← router.attemptEvent request "activity.unknown"
    (Json.ofFields [
      ("requestEventId", .string request.eventId),
      ("provider", .string provider),
      ("attemptId", .string (attemptKey request)),
      ("status", .string "unknown")])
    ("unknown:" ++ request.eventId)
  let kind :=
    if request.request.eventType = "model.requested" then "model.failed"
    else if request.request.eventType = "code.evaluate-requested" then "code.failed"
    else "capability.failed"
  let _ ← router.attemptEvent request kind
    (Json.ofFields [
      ("requestEventId", .string request.eventId),
      ("call_id", textField request "call_id"),
      ("sessionId", textField request "sessionId"),
      ("code", .string "outcome-unknown"),
      ("message", .string "admitted attempt has no committed outcome; reconciliation required")])
    ("interrupted:" ++ request.eventId)
  return ()

def admissionRecord (request : CommittedEvent) (provider claim : String) : AppendRequest :=
  router.attemptRecord request "activity.attempted"
    (Json.ofFields [
      ("admissionClaim", .string claim),
      ("requestEventId", .string request.eventId),
      ("provider", .string provider),
      ("attemptId", .string (attemptKey request)),
      ("status", .string "running"),
      ("jobId", textField request "jobId"),
      ("revision", Json.ofOption Json.ofInt (jsonNumber request "revision")),
      ("idempotency", .string ((router.classification request provider).getD .nonIdempotent).text),
      ("idempotencyKey", Json.ofOption .string request.request.deduplicationKey),
      ("deadlineAtMs", Json.ofOption Json.ofInt (jsonNumber request "deadlineAtMs")),
      ("cancellation", .string "not-requested")])
    (attemptKey request)

def causedBy (request : EventId) (event : CommittedEvent) : Bool := event.request.causationId = some request

/-- Whoever appends the attempt first finds its own claim in the answer. -/
def claimAttempt (request : CommittedEvent) (provider claim : String) : RouterM Bool := do
  let record ← router.validated (router.admissionRecord request provider claim)
  let admitted ← ask (.append record)
  return payloadField admitted "admissionClaim" = some claim

/-- Records admission before a provider can cross an effect boundary. `claim` is drawn for
this call. -/
def admitAttempt (request : CommittedEvent) (provider claim : String) : RouterM Bool :=
  pages (router.ofTypes ["activity.attempted"] 100)
    (fun (_ : Unit) page =>
      if page.any (causedBy request.eventId) then
        if router.classification request provider = some .inherent then return .inr true
        else do
          router.interruptAttempt request provider
          return .inr false
      else return .inl ())
    (fun _ => router.claimAttempt request provider claim) scanLimit 0 ()

end Router

end Pluribus.Cognition
