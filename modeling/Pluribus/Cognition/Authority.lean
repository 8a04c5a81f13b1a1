import Pluribus.Core.Authority
import Pluribus.Storage.Log

namespace Pluribus.Cognition

open Lib Pluribus.Core Storage

/-- One configured way in and out: the component that delivers observations and the
component that answers them. -/
structure Connector where
  provider : String
  inheritsOrigin : Bool
  ingress : String
  reply : String
  replyCapabilities : List CapabilityName
deriving DecidableEq, Repr

structure OriginAuthority where
  agent : PrincipalRef
  connectors : List Connector
  grants : Grants
  maxDepth : Nat
deriving DecidableEq, Repr

namespace OriginAuthority

def connectorOf (a : OriginAuthority) (event : CommittedEvent) : Except String Connector :=
  match a.connectors.find? fun connector => event.request.actor = ⟨.component, connector.ingress⟩ with
  | some connector => .ok connector
  | none => .error "unrecognized observation connector"

def observationValue (event : CommittedEvent) : Except String Json :=
  match event.request.payload with
  | .canonicalJson bytes => bytes.parse
  | .blob _ => .error "invalid observation"

def isTrusted (value : Json) : Bool := (value.get "trusted").all (· = .bool true)

def conversationConstraints (conversation : String) : ConstraintSet :=
  .json (.object [("conversation_ids", .array [.string conversation])])

def replyGrant (connector : Connector) (conversation : String) (capability : CapabilityName) : Grant :=
  ⟨capability, some ⟨.component, connector.reply⟩, conversationConstraints conversation⟩

def issuedGrants (a : OriginAuthority) (connector : Connector) (conversation : String) (trusted : Bool) : Grants :=
  if trusted then
    connector.replyCapabilities.foldl
      (fun grants capability => grants.insert capability [replyGrant connector conversation capability]) a.grants
  else []

def issue (a : OriginAuthority) (event : CommittedEvent) : Except String Authority := do
  let connector ← a.connectorOf event
  let value ← observationValue event
  if value.index "provider" ≠ .string connector.provider then .error "unsupported origin"
  else
    match (value.index "conversationId").asStr with
    | none => .error "missing conversation"
    | some conversation =>
      match (value.index "externalSenderId").asStr with
      | none => .error "missing sender"
      | some sender =>
        let principal : PrincipalRef := ⟨.human, connector.provider ++ ":" ++ sender⟩
        let trusted := isTrusted value
        .ok {
          schema := Authority.SCHEMA
          authorityId := "origin:" ++ event.eventId
          agent := a.agent
          origin := {
            kind := .connector
            principal := some principal
            connector := some event.request.actor
            conversationId := some conversation
            sourceEventId := event.eventId
            trusted := trusted }
          delegationChain := []
          grants := a.issuedGrants connector conversation trusted
          audiences :=
            if trusted && connector.reply ≠ "" then
              [⟨⟨.component, connector.reply⟩, conversation, [principal]⟩]
            else []
          parentAuthority := none
          issuedAtMs := event.recordedAtMs
          expiresAtMs := none
          maxDepth := a.maxDepth
          currentDepth := 0 }

def agreesOn (value expected : Json) : Bool :=
  (["provider", "externalSenderId", "conversationId"].all fun field => value.index field = expected.index field) &&
    isTrusted value = isTrusted expected

/-- What the walk expects of the next observation: the identifier a derived observation
named and the derived observation itself. -/
abbrev Inherited := Option (String × Json)

def changesOrigin (inherited : Inherited) (event : CommittedEvent) (value : Json) : Bool :=
  inherited.any fun expected => event.eventId ≠ expected.1 || !agreesOn value expected.2

inductive Visit where
  | issued (authority : Authority)
  | follow (inherited : Inherited)

def visit (a : OriginAuthority) (origin : CommittedEvent) (inherited : Inherited) : Except String Visit :=
  if origin.request.streamId ≠ a.agent.id then .error "origin belongs to another agent"
  else if origin.request.eventType ≠ "observation.received" then .ok (.follow inherited)
  else do
    let connector ← a.connectorOf origin
    let value ← observationValue origin
    if changesOrigin inherited origin value then .error "derived observation changes its origin"
    else if connector.inheritsOrigin then
      match (value.index "originEventId").asStr with
      | none => .error "derived observation requires originEventId"
      | some id => .ok (.follow (some (id, value)))
    else (a.issue origin).map .issued

/-- `failure` is what the store answers in place of the event, if it fails. -/
def parentOf (failure : Option AppendError) (log : Log) (origin : CommittedEvent) : Except String CommittedEvent :=
  match origin.request.causationId with
  | none => .error "request has no observation origin"
  | some cause =>
    match failure with
    | some error => .error error.toString
    | none =>
      match log.get cause with
      | none => .error "origin not found"
      | some parent =>
        if parent.sequence ≥ origin.sequence then .error "invalid origin chain" else .ok parent

def walk (a : OriginAuthority) (failures : Nat → Option AppendError) (log : Log) :
    Nat → CommittedEvent → Inherited → Except String Authority
  | 0, _, _ => .error "origin chain exceeds limit"
  | n + 1, origin, inherited => do
    match ← a.visit origin inherited with
    | .issued authority => .ok authority
    | .follow inherited => do
      let parent ← parentOf (failures n) log origin
      a.walk failures log n parent inherited

def resolve (a : OriginAuthority) (failures : Nat → Option AppendError) (log : Log) (event : CommittedEvent) :
    Except String Authority :=
  a.walk failures log 4096 event none

end OriginAuthority

end Pluribus.Cognition
