import Pluribus.Core.Event

namespace Pluribus.Storage.Row

open Lib Pluribus.Core

structure EventRow where
  schema : String
  eventId : String
  streamId : String
  streamKind : Int
  sequence : Int
  recordedAtMs : Int
  observedAtMs : Option Int
  eventType : String
  payloadSchema : String
  payloadKind : Int
  payloadJson : Option JsonBytes
  blobDigest : Option String
  blobSize : Option Nat
  blobMediaType : Option String
  actorKind : Int
  actorId : String
  authorityId : Option String
  activityId : Option String
  correlationId : Option String
  causationId : Option String
  deduplicationKey : Option String
deriving DecidableEq, Repr

def encodeStreamKind : StreamKind → Int
  | .agent => 0
  | .node => 1

def decodeStreamKind (value : Int) : Except String StreamKind :=
  if value = 0 then .ok .agent
  else if value = 1 then .ok .node
  else .error ("stream kind " ++ value.repr)

def encodePrincipalKind : PrincipalKind → Int
  | .human => 0
  | .agent => 1
  | .node => 2
  | .component => 3
  | .external => 4

def decodePrincipalKind (value : Int) : Except String PrincipalKind :=
  if value = 0 then .ok .human
  else if value = 1 then .ok .agent
  else if value = 2 then .ok .node
  else if value = 3 then .ok .component
  else if value = 4 then .ok .external
  else .error ("principal kind " ++ value.repr)

structure EncodedPayload where
  kind : Int
  json : Option JsonBytes
  digest : Option String
  size : Option Nat
  mediaType : Option String
deriving DecidableEq, Repr

def encodePayload : EventPayload → EncodedPayload
  | .canonicalJson bytes => ⟨0, some bytes, none, none, none⟩
  | .blob blob => ⟨1, none, some blob.digest, some blob.size, some blob.mediaType⟩

def required {α : Type} (value : Option α) (name : String) : Except String α :=
  match value with
  | some value => .ok value
  | none => .error ("missing " ++ name)

def decodePayload (row : EventRow) : Except String EventPayload :=
  if row.payloadKind = 0 then do
    let bytes ← required row.payloadJson "payload JSON"
    pure (.canonicalJson bytes)
  else if row.payloadKind = 1 then do
    let size ← required row.blobSize "blob size"
    let digest ← required row.blobDigest "blob digest"
    let mediaType ← required row.blobMediaType "blob media type"
    pure (.blob ⟨sha256Algorithm, digest, size, mediaType⟩)
  else .error ("payload kind " ++ row.payloadKind.repr)

def decodeEvent (row : EventRow) : Except String CommittedEvent := do
  let payload ← decodePayload row
  if row.sequence < 0 then .error "out of range integral type conversion attempted"
  let streamKind ← decodeStreamKind row.streamKind
  let actorKind ← decodePrincipalKind row.actorKind
  pure {
    schema := row.schema
    eventId := row.eventId
    sequence := row.sequence.toNat
    recordedAtMs := row.recordedAtMs
    request := {
      streamId := row.streamId
      streamKind := streamKind
      observedAtMs := row.observedAtMs
      eventType := row.eventType
      payloadSchema := row.payloadSchema
      payload := payload
      actor := ⟨actorKind, row.actorId⟩
      authorityId := row.authorityId
      activityId := row.activityId
      correlationId := row.correlationId
      causationId := row.causationId
      deduplicationKey := row.deduplicationKey } }

def encodeEvent (request : AppendRequest) (eventId : EventId) (sequence recordedAtMs : Int) : EventRow :=
  let payload := encodePayload request.payload
  { schema := CommittedEvent.SCHEMA
    eventId := eventId
    streamId := request.streamId
    streamKind := encodeStreamKind request.streamKind
    sequence := sequence
    recordedAtMs := recordedAtMs
    observedAtMs := request.observedAtMs
    eventType := request.eventType
    payloadSchema := request.payloadSchema
    payloadKind := payload.kind
    payloadJson := payload.json
    blobDigest := payload.digest
    blobSize := payload.size
    blobMediaType := payload.mediaType
    actorKind := encodePrincipalKind request.actor.kind
    actorId := request.actor.id
    authorityId := request.authorityId
    activityId := request.activityId
    correlationId := request.correlationId
    causationId := request.causationId
    deduplicationKey := request.deduplicationKey }

def EventRow.check (row : EventRow) : Bool :=
  (row.streamKind = 0 ∨ row.streamKind = 1) ∧ 0 < row.sequence ∧
  row.eventType ≠ "" ∧ row.payloadSchema ≠ "" ∧
  (0 ≤ row.actorKind ∧ row.actorKind ≤ 4) ∧ row.deduplicationKey ≠ some "" ∧
  ((row.payloadKind = 0 ∧ row.payloadJson.isSome ∧
      row.blobDigest = none ∧ row.blobSize = none ∧ row.blobMediaType = none) ∨
    (row.payloadKind = 1 ∧ row.payloadJson = none ∧
      row.blobDigest.isSome ∧ row.blobSize.isSome ∧ row.blobMediaType.isSome))

theorem decodeStreamKind_encode (kind : StreamKind) :
    decodeStreamKind (encodeStreamKind kind) = .ok kind := by
  cases kind <;> rfl

theorem encodeStreamKind_inj {left right : StreamKind}
    (h : encodeStreamKind left = encodeStreamKind right) : left = right := by
  cases left <;> cases right <;> first | rfl | cases h

theorem decodePrincipalKind_encode (kind : PrincipalKind) :
    decodePrincipalKind (encodePrincipalKind kind) = .ok kind := by
  cases kind <;> rfl

/-- The algorithm of a blob is not stored: validation pins it down before a row is written. -/
theorem decodePayload_encode {request : AppendRequest} (hvalid : request.validate = .ok ())
    (eventId : EventId) (sequence recordedAtMs : Int) :
    decodePayload (encodeEvent request eventId sequence recordedAtMs) = .ok request.payload := by
  cases hp : request.payload with
  | canonicalJson bytes => simp [decodePayload, encodeEvent, encodePayload, hp, required, bind, Except.bind, pure, Except.pure]
  | blob blob =>
    have halg : validateBlobRef blob = .ok () := by
      unfold AppendRequest.validate at hvalid
      rw [hp] at hvalid
      split at hvalid
      · cases hvalid
      split at hvalid
      · cases hvalid
      split at hvalid
      · cases hvalid
      split at hvalid
      · cases hvalid
      cases hb : validateBlobRef blob with
      | ok u => rfl
      | error e => simp [hb] at hvalid
    have ha := validateBlobRef_algorithm halg
    obtain ⟨algorithm, digest, size, mediaType⟩ := blob
    subst ha
    simp [decodePayload, encodeEvent, encodePayload, hp, required, bind, Except.bind, pure, Except.pure]

theorem decodeEvent_encode {request : AppendRequest} (hvalid : request.validate = .ok ())
    (eventId : EventId) {sequence : Int} (hseq : 0 < sequence) (recordedAtMs : Int) :
    decodeEvent (encodeEvent request eventId sequence recordedAtMs) =
      .ok ⟨CommittedEvent.SCHEMA, eventId, sequence.toNat, recordedAtMs, request⟩ := by
  have hneg : ¬ sequence < 0 := by omega
  have hpayload := decodePayload_encode hvalid eventId sequence recordedAtMs
  unfold decodeEvent
  rw [hpayload]
  simp [encodeEvent, hneg, decodeStreamKind_encode, decodePrincipalKind_encode, bind, Except.bind, pure,
    Except.pure]

end Pluribus.Storage.Row
