import Pluribus.Lib.Json

namespace Pluribus.Core

open Lib

def i64Max : Nat := 9223372036854775807
def u64Max : Nat := 18446744073709551615

abbrev EventId := String
abbrev StreamId := String
abbrev AuthorityId := String

inductive StreamKind where
  | agent
  | node
deriving DecidableEq, Repr

inductive PrincipalKind where
  | human
  | agent
  | node
  | component
  | external
deriving DecidableEq, Repr

structure PrincipalRef where
  kind : PrincipalKind
  id : String
deriving DecidableEq, Repr

structure BlobRef where
  algorithm : String
  digest : String
  size : Nat
  mediaType : String
deriving DecidableEq, Repr

inductive BlobError where
  | notFound
  | conflict (expectedOffset actualOffset : Nat)
  | invalid (message : String)
  | resourceExhausted (message : String)
  | corrupt (message : String)
  | storage (message : String)
deriving DecidableEq, Repr

def BlobError.toString : BlobError → String
  | .notFound => "blob or upload not found"
  | .conflict expected actual =>
    "blob offset conflict: expected " ++ expected.repr ++ ", got " ++ actual.repr
  | .invalid message => "invalid blob operation: " ++ message
  | .resourceExhausted message => "blob resource exhausted: " ++ message
  | .corrupt message => "corrupt blob: " ++ message
  | .storage message => "blob storage failed: " ++ message

def sha256Algorithm : String := "sha256"

def isLowerHex (c : Char) : Bool :=
  ('0' ≤ c ∧ c ≤ '9') ∨ ('a' ≤ c ∧ c ≤ 'f')

def isAsciiControl (c : Char) : Bool :=
  c.toNat < 32 ∨ c.toNat = 127

def validateMediaType (mediaType : String) : Except BlobError Unit :=
  let chars := mediaType.toList
  if chars.isEmpty || !chars.all (·.toNat < 128) || chars.any isAsciiControl then
    .error (.invalid "media type must be non-empty ASCII")
  else .ok ()

def validateBlobRef (blob : BlobRef) : Except BlobError Unit :=
  if blob.algorithm ≠ sha256Algorithm then
    .error (.invalid "unsupported digest algorithm")
  else if blob.digest.toList.length ≠ 64 ∨ ¬ blob.digest.toList.all isLowerHex then
    .error (.invalid "SHA-256 digest must be 64 lowercase hexadecimal characters")
  else validateMediaType blob.mediaType

theorem validateBlobRef_algorithm {blob : BlobRef} (h : validateBlobRef blob = .ok ()) :
    blob.algorithm = sha256Algorithm := by
  by_contra hne
  simp [validateBlobRef, hne] at h

inductive EventPayload where
  | canonicalJson (bytes : JsonBytes)
  | blob (ref : BlobRef)
deriving DecidableEq, Repr

/-- An event before the store assigns ordering and identity. -/
structure AppendRequest where
  streamId : StreamId
  streamKind : StreamKind
  observedAtMs : Option Int
  eventType : String
  payloadSchema : String
  payload : EventPayload
  actor : PrincipalRef
  authorityId : Option AuthorityId
  activityId : Option String
  correlationId : Option String
  causationId : Option EventId
  deduplicationKey : Option String
deriving DecidableEq, Repr

inductive AppendError where
  | invalidEvent (message : String)
  | storage (message : String)
deriving DecidableEq, Repr

def AppendError.toString : AppendError → String
  | .invalidEvent message => "invalid event: " ++ message
  | .storage message => "event storage failed: " ++ message

def AppendRequest.validate (request : AppendRequest) : Except AppendError Unit :=
  if request.streamId = "" then .error (.invalidEvent "stream ID is empty")
  else if request.eventType = "" then .error (.invalidEvent "event type is empty")
  else if request.payloadSchema = "" then .error (.invalidEvent "payload schema is empty")
  else if request.deduplicationKey = some "" then
    .error (.invalidEvent "deduplication key is empty")
  else match request.payload with
    | .blob blob =>
      match validateBlobRef blob with
      | .ok () => .ok ()
      | .error error => .error (.invalidEvent error.toString)
    | .canonicalJson _ => .ok ()

structure CommittedEvent where
  schema : String
  eventId : EventId
  sequence : Nat
  recordedAtMs : Int
  request : AppendRequest
deriving DecidableEq, Repr

def CommittedEvent.SCHEMA : String := "pluribus.event/1"

structure EventQuery where
  afterSequence : Option Nat := none
  beforeSequence : Option Nat := none
  eventTypes : List String := []
  textQuery : Option String := none
  descending : Bool := false
  correlationId : Option String := none
  activityId : Option String := none
  recordedFromMs : Option Int := none
  recordedToMs : Option Int := none
deriving DecidableEq, Repr

def EventQuery.matches (query : EventQuery) (event : CommittedEvent) : Bool :=
  !(query.afterSequence.any (event.sequence ≤ ·)) &&
  !(query.beforeSequence.any (event.sequence ≥ ·)) &&
  (query.eventTypes.isEmpty || query.eventTypes.contains event.request.eventType) &&
  (query.correlationId.isNone || query.correlationId = event.request.correlationId) &&
  (query.activityId.isNone || query.activityId = event.request.activityId) &&
  !(query.recordedFromMs.any (event.recordedAtMs < ·)) &&
  !(query.recordedToMs.any (event.recordedAtMs > ·))

theorem EventQuery.matches_types {after : Nat} {eventTypes : List String} {event : CommittedEvent} :
    ({ afterSequence := some after, eventTypes := eventTypes } : EventQuery).matches event = true ↔
      after < event.sequence ∧ (eventTypes = [] ∨ event.request.eventType ∈ eventTypes) := by
  simp [EventQuery.matches]

end Pluribus.Core
