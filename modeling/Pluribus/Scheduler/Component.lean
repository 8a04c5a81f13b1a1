import Pluribus.Runtime.Commit
import Pluribus.Runtime.Imports
import Pluribus.Scheduler.Management

namespace Pluribus.Scheduler

open Lib Pluribus.Core Storage Pluribus.Runtime

def PAGE : Nat := 64

/-- The scheduler's state: how far the log has been read, and the timers and schedules under
their ids. -/
structure Projection where
  through : Nat
  timers : Map String Timer
  schedules : Schedules

def Projection.empty : Projection := ⟨0, .empty, .empty⟩

inductive Mutation where
  | setTimer (id : String) (timer : Timer)
  | deleteTimer (id : String)
  | setSchedule (id : String) (s : Schedule)
  | deleteSchedule (id : String)
  | setThrough (sequence : Nat)
deriving DecidableEq, Repr

namespace Mutation

def key : Mutation → String
  | .setTimer id _ | .deleteTimer id => "timer:" ++ id
  | .setSchedule id _ | .deleteSchedule id => "schedule:" ++ id
  | .setThrough _ => "projection-through"

def valueBytes : Mutation → Nat
  | .setTimer _ timer => Text.bytes (Json.ofFields [("request", .string timer.request), ("owner", .string timer.owner),
      ("due", Json.ofInt timer.due)]).text
  | .setSchedule _ s => Text.bytes s.toJson.text
  | .setThrough sequence => Text.bytes (Json.ofNat sequence).text
  | .deleteTimer _ | .deleteSchedule _ => 0

end Mutation

def Projection.apply (kept : Projection) : Mutation → Projection
  | .setTimer id timer => { kept with timers := kept.timers.insert id timer }
  | .deleteTimer id => { kept with timers := kept.timers.erase id }
  | .setSchedule id s => { kept with schedules := kept.schedules.insert id s }
  | .deleteSchedule id => { kept with schedules := kept.schedules.erase id }
  | .setThrough sequence => { kept with through := sequence }

def Projection.applyAll (kept : Projection) (mutations : List Mutation) : Projection :=
  mutations.foldl Projection.apply kept

def scheduleMutation (id : String) : Option Schedule → Mutation
  | some s => .setSchedule id s
  | none => .deleteSchedule id

def invalid (message : String) : HostError := ⟨.invalidArgument, message⟩

def internal (message : String) : HostError := ⟨.internal, message⟩

def payload (event : CommittedEvent) : Except HostError Json :=
  match event.request.payload with
  | .canonicalJson bytes => bytes.parse.mapError invalid
  | .blob _ => .error (invalid "JSON required")

def proposal (kind : String) (value : Json) (cause : EventId) (key : Option String) : Proposal where
  eventType := kind
  payloadSchema := "pluribus." ++ kind ++ "/1"
  payload := .canonicalJson (.json value)
  idempotencyKey := key
  causationId := some cause

section Origin

/-- Who an observation comes from, and whether it is trusted. -/
def originFields (value : Json) : Except HostError Fields := do
  let _ ← (text value "provider" 1024).mapError invalid
  let _ ← (text value "externalSenderId" 1024).mapError invalid
  let _ ← (text value "conversationId" 1024).mapError invalid
  return (((Fields.set "provider" (value.index "provider") []).set
    "externalSenderId" (value.index "externalSenderId")).set
    "conversationId" (value.index "conversationId")).set
    "trusted" ((value.get "trusted").getD (.bool true))

variable (host : HostState) (log : Log)

/-- The nearest observation behind an event, after at most so many events. -/
def originWithin : Nat → CommittedEvent → Except HostError (EventId × Fields)
  | 0, _ => .error (invalid "origin chain exceeds limit")
  | n + 1, event =>
    if event.request.eventType = "observation.received" then do
      let value ← payload event
      let origin ← originFields value
      return (event.eventId, origin)
    else
      match event.request.causationId with
      | none => .error (invalid "schedule requires an observation origin")
      | some cause => do
        let parent ← (host.get log cause).1
        if parent.sequence ≥ event.sequence then .error (invalid "invalid origin chain")
        else originWithin n parent

def origin (request : CommittedEvent) : Except HostError (EventId × Fields) := originWithin host log 4096 request

end Origin

section Refresh

def projectedTypes : List String := ["timer.set", "timer.cancel", "timer.fired", "schedule.updated"]

def refreshFilter (through : Nat) : Filter where
  afterSequence := some through
  beforeSequence := none
  eventTypes := projectedTypes
  textQuery := none
  descending := false
  correlationId := none
  activityId := none
  recordedFromMs := none
  recordedToMs := none
  conversationId := none

/-- The timers while a page is read, and what the page changes. -/
structure Replay where
  timers : Map String Timer
  mutations : List Mutation

variable (lib : Library)

/-- A snapshot in the log; null stands for a schedule that was deleted. -/
def snapshot (value : Json) : Except HostError (Option Schedule) :=
  match value with
  | .null => .ok none
  | value =>
    match Schedule.fromJson value with
    | some s => .ok (some s)
    | none => .error (internal (lib.decodeError value))

def replaySet (r : Replay) (event : CommittedEvent) (value : Json) : Replay :=
  match (value.index "dueAtMs").asI64 with
  | none => r
  | some due =>
    let timer : Timer := ⟨event.eventId, event.request.actor.id, due⟩
    ⟨r.timers.insert event.eventId timer, r.mutations ++ [.setTimer event.eventId timer]⟩

/-- A timer ends when it has fired or when its owner cancels it. -/
def replayEnd (r : Replay) (event : CommittedEvent) (value : Json) : Replay :=
  match (value.index "requestEventId").asStr with
  | none => r
  | some id =>
    if event.request.eventType = "timer.fired" ||
        (r.timers.find id).any fun timer => timer.owner = event.request.actor.id then
      ⟨r.timers.erase id, r.mutations ++ [.deleteTimer id]⟩
    else r

def replaySnapshot (r : Replay) (value : Json) : Except HostError Replay :=
  match (value.index "id").asStr with
  | none => .error (internal "snapshot missing id")
  | some id => (snapshot lib (value.index "schedule")).map fun s =>
    { r with mutations := r.mutations ++ [scheduleMutation id s] }

def replay (instanceId : String) (r : Replay) (event : CommittedEvent) : Except HostError Replay := do
  let value ← payload event
  if event.request.eventType = "timer.set" then .ok (replaySet r event value)
  else if event.request.eventType = "timer.cancel" || event.request.eventType = "timer.fired" then
    .ok (replayEnd r event value)
  else if event.request.eventType = "schedule.updated" && event.request.actor.id = instanceId then
    replaySnapshot lib r value
  else .ok r

def refresh (host : HostState) (search : Log.Search) (log : Log) (kept : Projection) :
    Except HostError (Option (List CommittedEvent × List Mutation)) := do
  let page ← (host.query log search (refreshFilter kept.through) PAGE).1
  match page.events.getLast? with
  | none => return none
  | some last => do
    let r ← page.events.foldlM (replay lib host.delivery.instanceId) ⟨kept.timers, []⟩
    return some (page.events, r.mutations ++ [.setThrough last.sequence])

end Refresh

/-- What a pass over timers and schedules puts out, and when the next of them is due. -/
structure Firing where
  output : List Proposal
  mutations : List Mutation
  next : Int

def timerFired (timer : Timer) : Proposal :=
  proposal "timer.fired" (Json.ofFields [("requestEventId", .string timer.request), ("dueAtMs", Json.ofInt timer.due)])
    timer.request (some ("timer:" ++ timer.request))

def snapshotJson (id : String) (s : Option Schedule) : Json :=
  Json.ofFields [("id", .string id), ("schedule", Json.ofOption Schedule.toJson s)]

def fireTimer (now : Int) (f : Firing) (row : String × Timer) : Firing :=
  if row.2.due ≤ now ∧ f.output.length < PAGE then
    { f with output := f.output ++ [timerFired row.2], mutations := f.mutations ++ [.deleteTimer row.1] }
  else { f with next := min f.next row.2.due }

def occurrenceProposals (key : String) (observation : Json) (s : Schedule) : List Proposal :=
  [proposal "observation.received" observation s.cause (some key),
    proposal "schedule.updated" (snapshotJson s.id (some s)) s.cause (some (key ++ ":state"))]

def nextDue (next : Int) (s : Schedule) : Int :=
  match s.nextAtMs with
  | some due => if s.paused then next else min next due.val
  | none => next

def fireSchedule (lib : Library) (now : Int) (f : Firing) (s : Schedule) : Firing :=
  match if f.output.length < PAGE then s.occurrence lib now else none with
  | some ((key, observation), s') =>
    ⟨f.output ++ occurrenceProposals key observation s', f.mutations ++ [.setSchedule s'.id s'], nextDue f.next s'⟩
  | none => { f with next := nextDue f.next s }

def fire (lib : Library) (kept : Projection) (now : Int) : Firing :=
  kept.schedules.values.foldl (fireSchedule lib now)
    (kept.timers.rows.foldl (fireTimer now) ⟨[], [], min (now + 1000) 9223372036854775807⟩)

section Handle

/-- What a delivery puts out. The calls that changed something are kept for the record, with what
they changed. -/
structure Handling where
  schedules : Schedules
  events : List Proposal
  mutations : List Mutation
  changes : List (Call × String × Option Schedule)

variable (lib : Library) (host : HostState) (log : Log)

def callOf (event : CommittedEvent) (request : Json) (capability : String) (now : Int) : Except HostError Call := do
  let (originId, origin) ← origin host log event
  return ⟨capability, request.index "arguments", event.eventId, originId, origin, now⟩

def completed (event : CommittedEvent) (value : Json) : Proposal :=
  proposal "capability.completed" (Json.ofFields [("requestEventId", .string event.eventId), ("output", value)])
    event.eventId none

def failed (event : CommittedEvent) (reason : String) : Proposal :=
  proposal "capability.failed" (Json.ofFields [("requestEventId", .string event.eventId), ("reason", .string reason)])
    event.eventId none

def Handling.answer (h : Handling) (event : CommittedEvent) (call : Call) (value : Json) (change : Change)
    (schedules : Schedules) : Handling :=
  match change with
  | none => { h with schedules := schedules, events := h.events ++ [completed event value] }
  | some (id, s) =>
    { schedules := schedules
      events := h.events ++ [proposal "schedule.updated" (snapshotJson id s) event.eventId none, completed event value]
      mutations := h.mutations ++ [scheduleMutation id s]
      changes := h.changes ++ [(call, id, s)] }

def Handling.serve (h : Handling) (event : CommittedEvent) (request : Json) (capability : String) (now : Int) :
    Handling :=
  match callOf host log event request capability now with
  | .error error => { h with events := h.events ++ [failed event error.message] }
  | .ok call =>
    match manage lib h.schedules call with
    | .error message => { h with events := h.events ++ [failed event message] }
    | .ok ((value, change), schedules) => h.answer event call value change schedules

/-- One event of a delivery, with the time the clock shows when it is reached. -/
def Handling.event (h : Handling) (delivered : CommittedEvent × Int) : Except HostError Handling :=
  if delivered.1.request.eventType ≠ "capability.requested" then .ok h
  else do
    let request ← payload delivered.1
    match (request.index "capability").asStr.filter (Text.startsWith "schedule.") with
    | none => return h
    | some capability => return h.serve lib host log delivered.1 request capability delivered.2

def handle (kept : Projection) (delivered : List (CommittedEvent × Int)) : Except HostError Handling :=
  delivered.foldlM (Handling.event lib host log) ⟨kept.schedules, [], [], []⟩

end Handle

end Pluribus.Scheduler
