import Pluribus.Core.Registry

namespace Pluribus.Runtime

open Lib Pluribus.Core

structure ResourceExhaustion where
  resource : String
  currentBytes : Nat
  requestedBytes : Nat
  limitBytes : Nat
  phase : String
  jobId : Option String
  sessionId : Option String
deriving DecidableEq, Repr

structure RuntimeError where
  message : String
  trapped : Bool := false
  resourceExhaustion : Option ResourceExhaustion := none
deriving DecidableEq, Repr

def RuntimeError.trap (message : String) : RuntimeError := { message := message, trapped := true }

structure Proposal where
  eventType : String
  payloadSchema : String
  payload : EventPayload
  idempotencyKey : Option String
  causationId : Option EventId
deriving DecidableEq, Repr

/-- Host-assigned provenance. It stamps proposed events, so a plugin cannot forge its own. -/
structure Delivery where
  instanceId : String
  agentId : String
  authorityId : AuthorityId
  activityId : String
  correlationId : String
  originEventId : EventId
  visibleBlobs : List BlobRef
deriving DecidableEq, Repr

/-- What the host keeps for one instance and reads when the instance calls it. -/
structure HostState where
  delivery : Delivery
  emits : List String
  registry : EventTypeRegistry
  model : Option String
  identity : Option String
  replaying : Bool
  emitCall : Bool
  activeUploads : List String
  visibleBlobs : List BlobRef
deriving DecidableEq, Repr

def HostState.bare (instanceId agentId : String) (emits : List String) : HostState where
  delivery := ⟨instanceId, agentId, "authority", "activity", "correlation", "event-0", []⟩
  emits := emits
  registry := EventTypeRegistry.core
  model := none
  identity := none
  replaying := false
  emitCall := true
  activeUploads := []
  visibleBlobs := []

/-- A JSON object shaped like a blob reference. Both spellings of the media type are accepted. -/
def blobRefFrom (fields : List (String × Json)) : Option BlobRef := do
  let algorithm ← (← Table.find fields "algorithm").asStr
  let digest ← (← Table.find fields "digest").asStr
  let size ← (← Table.find fields "size").asU64
  let mediaType ← (← ((Table.find fields "media_type").or (Table.find fields "media-type")).or
    (Table.find fields "mediaType")).asStr
  return ⟨algorithm, digest, size, mediaType⟩

mutual

def collectBlobRefs : Json → List BlobRef
  | .object fields => (blobRefFrom fields).toList ++ collectFields fields
  | .array items => collectItems items
  | _ => []

def collectItems : List Json → List BlobRef
  | [] => []
  | item :: rest => collectBlobRefs item ++ collectItems rest

def collectFields : List (String × Json) → List BlobRef
  | [] => []
  | (_, value) :: rest => collectBlobRefs value ++ collectFields rest

end

def payloadBlobs : EventPayload → List BlobRef
  | .blob blob => [blob]
  | .canonicalJson (.json value) => collectBlobRefs value
  | .canonicalJson (.other _ _) => []

def isValid (blob : BlobRef) : Bool :=
  match validateBlobRef blob with
  | .ok () => true
  | .error _ => false

def sameBlobContent (left right : BlobRef) : Bool :=
  left.algorithm = right.algorithm && left.digest = right.digest && left.size = right.size

def authorizeBlobReferences (payload : EventPayload) (visibleBlobs : List BlobRef) : Except RuntimeError Unit :=
  match payload with
  | .canonicalJson (.other _ message) => .error { message := "invalid proposal JSON: " ++ message }
  | _ =>
    if ((payloadBlobs payload).filter isValid).any fun blob => !visibleBlobs.any (sameBlobContent blob) then
      .error { message := "proposal references a blob not visible to this delivery" }
    else .ok ()

def corePayload : EventPayload → Except RuntimeError EventPayload
  | .canonicalJson bytes => .ok (.canonicalJson bytes)
  | .blob blob =>
    match validateBlobRef blob with
    | .ok () => .ok (.blob blob)
    | .error error => .error { message := "invalid proposal payload: " ++ error.toString }

theorem corePayload_ok {payload core : EventPayload} (h : corePayload payload = .ok core) : core = payload := by
  cases payload with
  | canonicalJson bytes => cases h; rfl
  | blob blob =>
    cases hvalid : validateBlobRef blob with
    | ok _ => simp only [corePayload, hvalid, Except.ok.injEq] at h; exact h.symm
    | error e => simp [corePayload, hvalid] at h

def identityContent (identity : String) : Json :=
  Json.ofFields [("kind", .string "text"), ("text", .string identity)]

/-- The agent's instructions go first into the system message, which is made if there is none. -/
def instruct (identity : String) : List Json → Except RuntimeError (List Json)
  | .object fields :: rest =>
    if Table.find fields "role" = some (.string "system") then
      match Table.find fields "content" with
      | some (.array items) =>
        .ok (.object (Table.insert "content" (.array (identityContent identity :: items)) fields) :: rest)
      | _ => .error { message := "system message requires content" }
    else .ok (systemMessage :: .object fields :: rest)
  | messages => .ok (systemMessage :: messages)
where
  systemMessage : Json :=
    Json.ofFields [("role", .string "system"), ("content", .array [identityContent identity])]

namespace HostState

variable (host : HostState)

def chooseModel (object : List (String × Json)) : Except RuntimeError (List (String × Json)) :=
  if (Table.find object "model").isSome then .ok object
  else
    match host.model with
    | some model => .ok (Table.insert "model" (.string model) object)
    | none => .error { message := "no host model configured" }

def addIdentity (object : List (String × Json)) : Except RuntimeError (List (String × Json)) :=
  match host.identity.filter (· ≠ "") with
  | none => .ok object
  | some identity =>
    match Table.find object "messages" with
    | some (.array messages) => do
      let messages ← instruct identity messages
      return Table.insert "messages" (.array messages) object
    | _ => .error { message := "model request requires messages" }

def completeModelRequest (value : Json) : Except RuntimeError Json :=
  match value with
  | .object object => do
    let object ← host.chooseModel object
    let object ← host.addIdentity object
    return .object object
  | _ => .error { message := "model request must be an object" }

def completePayload (eventType : String) (payload : EventPayload) : Except RuntimeError EventPayload :=
  match payload with
  | .canonicalJson (.json value) =>
    if eventType = "model.requested" then do
      let value ← host.completeModelRequest value
      return .canonicalJson (.json value)
    else .ok payload
  | _ => .ok payload

def stamp (proposal : Proposal) (causationId : Option EventId) (derivedKey : Option String)
    (payload : EventPayload) : AppendRequest where
  streamId := host.delivery.agentId
  streamKind := .agent
  observedAtMs := none
  eventType := proposal.eventType
  payloadSchema := proposal.payloadSchema
  payload := payload
  actor := ⟨.component, host.delivery.instanceId⟩
  authorityId := some host.delivery.authorityId
  activityId := some host.delivery.activityId
  correlationId := some host.delivery.correlationId
  causationId := causationId
  deduplicationKey := proposal.idempotencyKey.or derivedKey

def authorized (request : AppendRequest) : Except RuntimeError AppendRequest :=
  match host.registry.authorize request host.emits with
  | .ok () => .ok request
  | .error error => .error { message := error.toString }

/-- Converts a proposal into an append request, stamping every field a plugin must not control. -/
def appendRequest (proposal : Proposal) (causation : Option EventId) (derivedKey : Option String) :
    Except RuntimeError AppendRequest :=
  if host.replaying then .error { message := "events cannot be appended during replay" }
  else if (proposal.causationId.or causation).isNone && !host.emitCall then
    .error { message := "proposal needs an explicit causation ID when a batch carries several events" }
  else do
    let payload ← corePayload proposal.payload
    authorizeBlobReferences payload host.visibleBlobs
    let payload ← host.completePayload proposal.eventType payload
    host.authorized (host.stamp proposal (proposal.causationId.or causation) derivedKey payload)

theorem authorized_ok {request request' : AppendRequest} (h : host.authorized request = .ok request') :
    request' = request ∧ host.registry.authorize request host.emits = .ok () := by
  unfold authorized at h
  split at h
  · rename_i hauthorized
    cases h
    exact ⟨rfl, hauthorized⟩
  · cases h

/-- What the host has checked and stamped when a proposal becomes a request. -/
structure Stamped (proposal : Proposal) (derivedKey : Option String) (request : AppendRequest) : Prop where
  streamId : request.streamId = host.delivery.agentId
  streamKind : request.streamKind = .agent
  actor : request.actor = ⟨.component, host.delivery.instanceId⟩
  eventType : request.eventType = proposal.eventType
  key : request.deduplicationKey = proposal.idempotencyKey.or derivedKey
  blobs : authorizeBlobReferences proposal.payload host.visibleBlobs = .ok ()
  payload : host.completePayload proposal.eventType proposal.payload = .ok request.payload
  authorized : host.registry.authorize request host.emits = .ok ()

theorem appendRequest_stamp {proposal : Proposal} {causation : Option EventId} {derivedKey : Option String}
    {request : AppendRequest} (h : host.appendRequest proposal causation derivedKey = .ok request) :
    ∃ payload, host.completePayload proposal.eventType proposal.payload = .ok payload ∧
      request = host.stamp proposal (proposal.causationId.or causation) derivedKey payload := by
  unfold appendRequest at h
  split at h
  · cases h
  split at h
  · cases h
  obtain ⟨payload, hcore, h₁⟩ := except_bind_ok.mp h
  rw [corePayload_ok hcore] at h₁
  obtain ⟨_, -, h₂⟩ := except_bind_ok.mp h₁
  obtain ⟨completed, hpayload, h₃⟩ := except_bind_ok.mp h₂
  exact ⟨completed, hpayload, (host.authorized_ok h₃).1⟩

theorem appendRequest_ok {proposal : Proposal} {causation : Option EventId} {derivedKey : Option String}
    {request : AppendRequest} (h : host.appendRequest proposal causation derivedKey = .ok request) :
    host.Stamped proposal derivedKey request := by
  unfold appendRequest at h
  split at h
  · cases h
  split at h
  · cases h
  obtain ⟨payload, hcore, h₁⟩ := except_bind_ok.mp h
  rw [corePayload_ok hcore] at h₁
  obtain ⟨_, hblobs, h₂⟩ := except_bind_ok.mp h₁
  obtain ⟨completed, hpayload, h₃⟩ := except_bind_ok.mp h₂
  obtain ⟨rfl, hauthorized⟩ := host.authorized_ok h₃
  exact ⟨rfl, rfl, rfl, rfl, rfl, hblobs, hpayload, hauthorized⟩

end HostState

def Proposal.keyed (p : Proposal) : String × Proposal := (p.idempotencyKey.getD "", p)

end Pluribus.Runtime
