import Pluribus.Runtime.Proposal
import Pluribus.Storage.Model

namespace Pluribus.Runtime

open Lib Pluribus.Core Storage List

inductive ErrorCode where
  | invalidArgument
  | notFound
  | permissionDenied
  | unsupported
  | conflict
  | unavailable
  | resourceExhausted
  | cancelled
  | deadlineExceeded
  | internal
deriving DecidableEq, Repr

structure HostError where
  code : ErrorCode
  message : String
deriving DecidableEq, Repr

def blobError (error : BlobError) : HostError where
  code :=
    match error with
    | .notFound => .notFound
    | .conflict _ _ => .conflict
    | .invalid _ => .invalidArgument
    | .resourceExhausted _ => .resourceExhausted
    | .corrupt _ | .storage _ => .internal
  message := error.toString

def MAX_EVENT_PAGE : Nat := 1000
def MAX_BLOB_CHUNK_BYTES : Nat := 1024 * 1024

/-- A request to an HTTP endpoint is shown to its sender and to the consumer it names. -/
def httpRequestVisible (event : CommittedEvent) (instanceId : String) : Bool :=
  if event.request.eventType ≠ "http.request.received" || event.request.actor.id = instanceId then true
  else
    match event.request.payload with
    | .canonicalJson (.json value) => (value.index "consumer").asStr = some instanceId
    | _ => false

def eventConversationId (event : CommittedEvent) : Option String :=
  match event.request.payload with
  | .canonicalJson (.json value) =>
    (value.index "conversationId").asStr.or ((value.index "arguments").index "conversationId").asStr
  | _ => none

structure Filter where
  afterSequence : Option Nat
  beforeSequence : Option Nat
  eventTypes : List String
  textQuery : Option String
  descending : Bool
  correlationId : Option String
  activityId : Option String
  recordedFromMs : Option Int
  recordedToMs : Option Int
  conversationId : Option String
deriving DecidableEq, Repr

def Filter.query (filter : Filter) : EventQuery where
  afterSequence := filter.afterSequence
  beforeSequence := filter.beforeSequence
  eventTypes := filter.eventTypes
  textQuery := filter.textQuery
  descending := filter.descending
  correlationId := filter.correlationId
  activityId := filter.activityId
  recordedFromMs := filter.recordedFromMs
  recordedToMs := filter.recordedToMs

def Filter.searching (filter : Filter) : Bool :=
  filter.textQuery.isSome || filter.beforeSequence.isSome || filter.conversationId.isSome || filter.descending

structure Page where
  events : List CommittedEvent
  nextSequence : Option Nat
deriving DecidableEq, Repr

namespace HostState

variable (host : HostState)

def sees (event : CommittedEvent) : Bool := httpRequestVisible event host.delivery.instanceId

def revealEventBlobs (events : List CommittedEvent) : HostState :=
  let found := (events.filter host.sees).flatMap fun event => payloadBlobs event.request.payload
  { host with visibleBlobs := host.visibleBlobs ++ found.filter isValid }

def append (store : Store) (eventId : EventId) (recordedAtMs : Int) (proposal : Proposal) :
    Except HostError (Nat × Store) :=
  if proposal.idempotencyKey.isNone then
    .error ⟨.invalidArgument, "append requires an idempotency key so a redelivery deduplicates"⟩
  else
    match host.appendRequest proposal (some host.delivery.originEventId) none with
    | .error error => .error ⟨.permissionDenied, error.message⟩
    | .ok request =>
      match store.append eventId recordedAtMs request with
      | .error error => .error ⟨.internal, "cannot append: " ++ error.toString⟩
      | .ok (event, store') => .ok (event.sequence, store')

theorem append_ok {store store' : Store} {eventId : EventId} {recordedAtMs : Int} {proposal : Proposal}
    {sequence : Nat} (h : host.append store eventId recordedAtMs proposal = .ok (sequence, store')) :
    ∃ request event, host.appendRequest proposal (some host.delivery.originEventId) none = .ok request ∧
      sequence = event.sequence ∧ store.append eventId recordedAtMs request = .ok (event, store') := by
  unfold append at h
  split at h
  · cases h
  split at h
  · cases h
  rename_i request hrequest
  split at h
  · cases h
  · rename_i event store'' hevent
    cases h
    exact ⟨request, event, hrequest, rfl, hevent⟩

def get (log : Log) (eventId : EventId) : Except HostError CommittedEvent × HostState :=
  match (log.get eventId).filter fun event => event.request.streamId = host.delivery.agentId && host.sees event with
  | none => (.error ⟨.notFound, "no such event"⟩, host)
  | some event => (.ok event, host.revealEventBlobs [event])

def query (log : Log) (search : Log.Search) (filter : Filter) (limit : Nat) : Except HostError Page × HostState :=
  if filter.textQuery.any (4096 < ·.utf8ByteSize) then
    (.error ⟨.invalidArgument, "search text is too long"⟩, host)
  else if limit = 0 then (.ok ⟨[], none⟩, host)
  else
    let requested := min limit MAX_EVENT_PAGE
    let events := log.query search host.delivery.agentId filter.query
      (if filter.searching then MAX_EVENT_PAGE else requested)
    let selected := (events.filter fun event =>
      host.sees event && filter.conversationId.all fun wanted => eventConversationId event = some wanted).take requested
    let last := if filter.searching then selected.getLast?.or events.getLast? else events.getLast?
    (.ok ⟨selected, last.map (·.sequence)⟩, host.revealEventBlobs selected)

/-- A query that does not search and meets nothing hidden answers with its page of the log. -/
theorem query_plain {log : Log} {search : Log.Search} {filter : Filter} {limit : Nat} {rest : List CommittedEvent}
    (hsearching : filter.searching = false) (hlimit : limit ≠ 0 ∧ limit ≤ MAX_EVENT_PAGE)
    (hquery : log.query search host.delivery.agentId filter.query limit = rest.take limit)
    (hsees : ∀ event ∈ rest, host.sees event = true) :
    (host.query log search filter limit).1 = .ok ⟨rest.take limit, (rest.take limit).getLast?.map (·.sequence)⟩ := by
  obtain ⟨⟨⟨htext, -⟩, hconversation⟩, -⟩ : ((filter.textQuery = none ∧ filter.beforeSequence = none) ∧
      filter.conversationId = none) ∧ filter.descending = false := by simpa [Filter.searching] using hsearching
  have hseen : (rest.take limit).filter (fun event => host.sees event && filter.conversationId.all fun wanted =>
      eventConversationId event = some wanted) = rest.take limit := by
    refine filter_eq_self.mpr fun event hevent => ?_
    simp [hconversation, hsees event (mem_of_mem_take hevent)]
  unfold query
  simp only [htext, Option.any_none, Bool.false_eq_true, if_false, hsearching, hlimit.1, min_eq_left hlimit.2, hquery, hseen,
    take_take, min_self]

def ensureVisibleBlob (blob : BlobRef) : Except HostError Unit :=
  match validateBlobRef blob with
  | .error error => .error (blobError error)
  | .ok () =>
    if host.visibleBlobs.contains blob then .ok ()
    else .error ⟨.permissionDenied, "blob is not visible to this delivery"⟩

def openWrite (upload : Except BlobError String) : Except HostError String × HostState :=
  match upload with
  | .error error => (.error (blobError error), host)
  | .ok handle => (.ok handle, { host with activeUploads := handle :: host.activeUploads })

/-- `blobs.finish`; `stored` is what the blob store makes of the upload. -/
def finish (handle : String) (stored : Except BlobError BlobRef) : Except HostError BlobRef × HostState :=
  if host.activeUploads.contains handle then
    let host' := { host with activeUploads := host.activeUploads.filter (· ≠ handle) }
    match stored with
    | .error error => (.error (blobError error), host')
    | .ok blob => (.ok blob, { host' with visibleBlobs := host'.visibleBlobs ++ [blob] })
  else (.error ⟨.permissionDenied, "upload does not belong to this delivery"⟩, host)

def put (size : Nat) (stored : Except BlobError BlobRef) : Except HostError BlobRef × HostState :=
  if MAX_BLOB_CHUNK_BYTES < size then
    (.error ⟨.resourceExhausted, "use open-write for content above 1 MiB"⟩, host)
  else
    match stored with
    | .error error => (.error (blobError error), host)
    | .ok blob => (.ok blob, { host with visibleBlobs := host.visibleBlobs ++ [blob] })

def resolveVisible (digest : String) : Except HostError BlobRef :=
  if digest.toList.length ≠ 64 ∨ ¬ digest.toList.all isLowerHex then
    .error ⟨.invalidArgument, "invalid SHA-256 digest"⟩
  else
    match host.visibleBlobs.filter fun blob => blob.algorithm = sha256Algorithm && blob.digest = digest with
    | [] => .error ⟨.permissionDenied, "blob is not visible to this delivery"⟩
    | blob :: others =>
      if others.any (· ≠ blob) then .error ⟨.invalidArgument, "visible blob digest is ambiguous"⟩ else .ok blob

/-- `blobs.read`; `content` is what the blob store holds under the reference. -/
def read {α : Type} (blob : BlobRef) (content : Except BlobError α) : Except HostError α :=
  match host.ensureVisibleBlob blob with
  | .error error => .error error
  | .ok () =>
    match content with
    | .error error => .error (blobError error)
    | .ok chunk => .ok chunk

def releaseHandles : HostState := { host with activeUploads := [] }

end HostState

end Pluribus.Runtime
