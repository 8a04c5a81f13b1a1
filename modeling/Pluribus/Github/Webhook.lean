import Pluribus.Github.Auth
import Pluribus.Runtime.Commit
import Pluribus.Runtime.Imports

namespace Pluribus.Github

open Lib Pluribus.Core Storage Pluribus.Runtime

def header (lib : Library) (request : Json) (name : String) : Option String :=
  match (request.index "headers").asArray with
  | none => none
  | some headers =>
    match headers.filter fun pair => (pair.nth 0).asStr.any fun s => Http.eqIgnoreAsciiCase s name with
    | [pair] => ((pair.nth 1).asStr.bind lib.decode).bind Text.fromUtf8
    | _ => none

def isKind (s : String) : Bool :=
  s ≠ "" && Text.bytes s < 128 && s.toList.all fun c => c.isLower || c.isDigit || c = '_'

def isDelivery (s : String) : Bool :=
  s ≠ "" && Text.bytes s < 128 && s.toList.all fun c => c.isAlphanum || c = '-'

def isLifecycle (kind : String) : Bool := kind = "installation" || Text.startsWith "installation_" kind

def owns (owner : String) (v : Json) : Bool :=
  ((v.index "login").asStr.any fun s => Http.eqIgnoreAsciiCase s owner) &&
    [some "User", some "Organization"].contains (v.index "type").asStr

structure Verified where
  appId : Json
  installationId : Json
  repositoryAuthorized : Bool

def namesInstallation (verified : Verified) (body : Json) (account : Json → Bool) : Bool :=
  match body.get "installation" with
  | none | some .null => true
  | some (.object fields) =>
    ((Json.object fields).get "account").all account &&
      ((Json.object fields).get "id").all fun id => verified.installationId.asU64 = id.asU64
  | some _ => false

def repositoryMatches (owner : String) (verified : Verified) (body : Json) : Bool :=
  (((body.index "repository").index "id").asU64.any (0 < ·)) && verified.repositoryAuthorized &&
    owns owner ((body.index "repository").index "owner") && namesInstallation verified body fun _ => true

def appMatches (verified : Verified) (body : Json) : Bool :=
  let hook := (body.index "hook").index "type" = .string "App"
  match ((body.index "app_id").asU64.or ((body.index "hook").index "app_id").asU64).or
      ((body.index "installation").index "app_id").asU64 with
  | none => hook
  | some id => hook && verified.appId.asU64 = some id

def admitted (body : Json) (kind owner : String) (verified : Verified) : Bool :=
  if kind = "ping" then
    (body.index "hook").isObject && (body.index "hook_id").asU64.isSome &&
      if (body.index "repository").isObject then repositoryMatches owner verified body
      else appMatches verified body && namesInstallation verified body (owns owner)
  else if isLifecycle kind then
    owns owner ((body.index "installation").index "account") &&
      (body.index "installation").index "app_id" = verified.appId
  else repositoryMatches owner verified body

section Checks

variable (lib : Library) (around : Surroundings) (config : Config) (stored : Option Bytes)

structure Checked where
  kind : String
  id : String
  previous : Option Bytes
  doc : Json
  body : Json

def refuse {α : Type} (status : Nat) : Option α → Except Nat α
  | some a => .ok a
  | none => .error status

def repositoryAuthorized (kind : String) (doc body : Json) : Except Nat Bool :=
  if isLifecycle kind || !(body.index "repository").isObject then .ok false
  else do
    let repositoryId ← refuse 403 (((body.index "repository").index "id").asU64.filter (0 < ·))
    let exported := (doc.index "exports").index "installation-token"
    let token ← refuse 503 (nonEmpty (exported.index "value").asStr)
    if (doc.index "installation_id").asU64.isNone ||
        (exported.index "expires_at_ms").asI64.all (fun expires => expires ≤ around.checkedAt + 30000) then .error 503
    else
      match authorizeRepository around repositoryId token with
      | .ok true => return true
      | .ok false => .error 403
      | .error _ => .error 503

/-- The checks before anything happens; a request that fails one of them is answered with its status. -/
def checked (request : Json) : Except Nat Checked := do
  if request.index "method" ≠ .string "POST" then .error 405
  else
    let signature ← refuse 401 (header lib request "x-hub-signature-256")
    let kind ← refuse 400 ((header lib request "x-github-event").filter isKind)
    let id ← refuse 400 ((header lib request "x-github-delivery").filter isDelivery)
    let (previous, doc) ← (load lib around stored).mapError fun _ => 503
    let secret ← refuse 503 ((doc.index "app").index "webhook_secret").asStr
    let bytes ← refuse 400 (lib.decode ((request.index "body").asStr.getD ""))
    if !verify lib secret signature bytes then .error 401
    else
      let body ← refuse 400 (lib.fromSlice bytes)
      let authorized ← repositoryAuthorized around kind doc body
      if !admitted body kind config.owner ⟨(doc.index "app").index "id", doc.index "installation_id", authorized⟩ then
        .error 403
      else if isLifecycle kind && ((body.index "installation").index "id").asU64.all (· = 0) then .error 403
      else return ⟨kind, id, previous, doc, body⟩

def lifecycleDoc (doc body : Json) : Json :=
  if [some "deleted", some "suspend"].contains (body.index "action").asStr then clearInstallation doc
  else
    (if doc.index "installation_id" ≠ (body.index "installation").index "id" then doc.set "exports" (.object []) else doc).set
      "installation_id" ((body.index "installation").index "id")

end Checks

section Scan

variable (config : Config) (host : HostState) (search : Log.Search) (log : Log)

def value (event : CommittedEvent) : Except String Json :=
  match event.request.payload with
  | .canonicalJson bytes => bytes.parse.mapError fun _ => "invalid event"
  | .blob _ => .error "JSON event required"

def observationsAfter (after : Option Nat) : Filter where
  afterSequence := after
  beforeSequence := none
  eventTypes := ["observation.received"]
  textQuery := none
  descending := false
  correlationId := none
  activityId := none
  recordedFromMs := none
  recordedToMs := none
  conversationId := none

def inspect (id : String) (rawBody : Json) (previous : CommittedEvent) : Except String (Option Nat) :=
  if previous.request.actor.id = host.delivery.instanceId && previous.request.eventType = "observation.received" then do
    let old ← value previous
    if old.index "provider" = .string "github" && old.index "routeId" = .string config.routeId &&
        old.index "deliveryId" = .string id then
      return some (if old.index "rawBody" = rawBody then 200 else 409)
    else return none
  else .ok none

def inspectAll (id : String) (rawBody : Json) : List CommittedEvent → Except String (Option Nat)
  | [] => .ok none
  | event :: rest =>
    match inspect config host id rawBody event with
    | .ok none => inspectAll id rawBody rest
    | found => found

/-- The scan of what was observed, page by page; `none` when it takes more pages than it is given. -/
def scan (id : String) (rawBody : Json) : Nat → Option Nat → Option (Except String (Option Nat))
  | 0, _ => none
  | pages + 1, after =>
    match (host.query log search (observationsAfter after) 1).1 with
    | .error error => some (.error error.message)
    | .ok page =>
      if page.events.isEmpty then some (.ok none)
      else
        match inspectAll config host id rawBody page.events with
        | .ok none =>
          if page.nextSequence.isNone || page.nextSequence = after then some (.ok none)
          else scan id rawBody pages page.nextSequence
        | found => some found

end Scan

section Handle

variable (lib : Library) (config : Config) (host : HostState) (search : Log.Search) (log : Log)

def proposal (kind : String) (value : Json) (cause : Option EventId) : Proposal where
  eventType := kind
  payloadSchema := "pluribus." ++ kind ++ "/1"
  payload := .canonicalJson (.json value)
  idempotencyKey := none
  causationId := cause

def timer (due : Int) (cause : Option EventId) : Proposal :=
  { proposal "timer.set" (Json.ofFields [("dueAtMs", Json.ofInt due)]) cause with payloadSchema := "pluribus.timer-set/1" }

def observationKey (routeId id : String) : String := "github:" ++ routeId ++ ":" ++ id

def observationJson (request : Json) (delivery : Checked) : Json :=
  let body := delivery.body
  let repo := ((body.index "repository").index "full_name").asStr.getD config.owner
  Json.ofFields [
    ("provider", .string "github"),
    ("trusted", .bool false),
    ("routeId", .string config.routeId),
    ("deliveryId", .string delivery.id),
    ("event", .string delivery.kind),
    ("action", body.index "action"),
    ("repository", body.index "repository"),
    ("conversationId", .string ("github:" ++ repo)),
    ("externalSenderId", .string ((body.index "sender").index "id").text),
    ("observedAtMs", request.index "receivedAtMs"),
    ("message", Json.ofFields [("text", .string ("GitHub " ++ delivery.kind ++ " " ++
      (body.index "action").asStr.getD "" ++ " in " ++ repo))]),
    ("payload", body),
    ("rawBody", request.index "body")]

def observation (request : Json) (delivery : Checked) : Proposal :=
  { proposal "observation.received" (observationJson config request delivery) none with
    idempotencyKey := some (observationKey config.routeId delivery.id) }

def observe (request : Json) (delivery : Checked) : Except String (Nat × Option Proposal) :=
  match scan config host search log delivery.id (request.index "body") (log.events.length + 1) none with
  | none => .error "scan does not end"
  | some (.error error) => .error error
  | some (.ok (some status)) => .ok (status, none)
  | some (.ok none) => .ok (200, some (observation config request delivery))

def normalize (around : Surroundings) (stored : Option Bytes) (request : Json) :
    Except String (Nat × Option Proposal) × Option Bytes :=
  match checked lib around config stored request with
  | .error status => (.ok (status, none), stored)
  | .ok delivery =>
    if isLifecycle delivery.kind then
      match save lib around stored delivery.previous (lifecycleDoc delivery.doc delivery.body) with
      | (.error error, stored) => (.error error, stored)
      | (.ok (), stored) => (observe config host search log request delivery, stored)
    else (observe config host search log request delivery, stored)

/-- What a delivery puts out so far, the bodies of the observations in it, and the time the next refresh is due. -/
structure Handling where
  events : List Proposal
  mutations : List StateMutation
  staged : Table String Json
  active : Option Int

def refreshState (due : Int) : StateMutation := .set "refresh/due" (lib.toVec (Json.ofInt due))

def answer (event : CommittedEvent) (status : Nat) : Proposal :=
  proposal "http.response.requested" (Json.ofFields [
    ("requestEventId", .string event.eventId), ("status", Json.ofNat status), ("body", .string "")]) (some event.eventId)

def Handling.webhook (h : Handling) (around : Surroundings) (stored : Option Bytes) (event : CommittedEvent)
    (request : Json) : Except String Handling × Option Bytes :=
  match normalize lib config host search log around stored request with
  | (.error error, stored) => (.error error, stored)
  | (.ok (status, none), stored) => (.ok { h with events := h.events ++ [answer event status] }, stored)
  | (.ok (status, some p), stored) =>
    let key := p.idempotencyKey.getD ""
    match h.staged.find key with
    | some body =>
      (.ok { h with events := h.events ++ [answer event (if body = request.index "body" then 200 else 409)] }, stored)
    | none =>
      (.ok { h with
        events := h.events ++ [{ p with causationId := some event.eventId }, answer event status]
        staged := Table.insert key (request.index "body") h.staged }, stored)

def Handling.request (h : Handling) (around : Surroundings) (stored : Option Bytes) (event : CommittedEvent)
    (request : Json) : Except String Handling × Option Bytes :=
  if request.index "routeId" ≠ .string config.routeId || request.index "consumer" ≠ .string host.delivery.instanceId then
    (.ok h, stored)
  else if (Text.split '?' ((request.index "target").asStr.getD "").toList).head? ≠ some "/events".toList then
    (.ok { h with events := h.events ++ [proposal "http.response.requested"
      ((response lib 404 "Not found").set "requestEventId" (.string event.eventId)) (some event.eventId)] }, stored)
  else h.webhook lib config host search log around stored event request

def Handling.timerFired (h : Handling) (around : Surroundings) (stored : Option Bytes) (event : CommittedEvent)
    (fired : Json) : Handling × Option Bytes :=
  if h.active.isSome && h.active = (fired.index "dueAtMs").asI64 then
    ({ h with
        active := some (around.now + 60000)
        mutations := h.mutations ++ [refreshState lib (around.now + 60000)]
        events := h.events ++ [timer (around.now + 60000) (some event.eventId)] },
      refresh lib around config stored)
  else (h, stored)

def Handling.enrollment (h : Handling) (around : Surroundings) (stored : Option Bytes) (event : CommittedEvent)
    (request : Json) : Handling × Option Bytes :=
  if event.request.actor.kind ≠ .node || event.request.actor.id ≠ "credential-cli" ||
      request.index "component" ≠ .string host.delivery.instanceId || request.index "credential" ≠ .string config.app then
    (h, stored)
  else
    let (result, stored) := enroll lib around ((request.index "enrollment").asStr.getD "") stored
    let payload := match result with
      | .ok url => Json.ofFields [("url", .string url)]
      | .error _ => Json.ofFields [("error", .string "enrollment unavailable")]
    ({ h with events := h.events ++ [proposal "credential.enrollment.started" payload (some event.eventId)] }, stored)

def Handling.event (h : Handling) (around : Surroundings) (stored : Option Bytes) (event : CommittedEvent) :
    Except String Handling × Option Bytes :=
  if event.request.eventType = "timer.fired" then
    match value event with
    | .error error => (.error error, stored)
    | .ok fired => let (h, stored) := h.timerFired lib config around stored event fired; (.ok h, stored)
  else if event.request.eventType = "credential.enrollment.requested" then
    match value event with
    | .error error => (.error error, stored)
    | .ok request => let (h, stored) := h.enrollment lib config host around stored event request; (.ok h, stored)
  else if event.request.eventType ≠ "http.request.received" || event.request.actor.id ≠ config.httpInstance then
    (.ok h, stored)
  else
    match value event with
    | .error error => (.error error, stored)
    | .ok request => h.request lib config host search log around stored event request

/-- The events of a delivery in order, up to the first error. What was stored on the way stays stored. -/
def Handling.all (h : Handling) (stored : Option Bytes) :
    List (CommittedEvent × Surroundings) → Except String Handling × Option Bytes
  | [] => (.ok h, stored)
  | (event, around) :: rest =>
    match h.event lib config host search log around stored event with
    | (.error error, stored) => (.error error, stored)
    | (.ok h, stored) => all h stored rest

def refreshDue (state : Option Bytes) : Except String (Option Int) :=
  match state with
  | none => .ok none
  | some bytes =>
    match (lib.fromSlice bytes).bind Json.asI64 with
    | some due => .ok (some due)
    | none => .error "invalid refresh state"

def handle (state stored : Option Bytes) (input : List (CommittedEvent × Surroundings)) :
    Except String GuestOutcome × Option Bytes :=
  match refreshDue lib state with
  | .error error => (.error error, stored)
  | .ok active =>
    let (result, stored) := Handling.all lib config host search log ⟨[], [], [], active⟩ stored input
    (result.map fun h => ⟨h.events, h.mutations, input.getLast?.map (·.1.sequence)⟩, stored)

end Handle

end Pluribus.Github
