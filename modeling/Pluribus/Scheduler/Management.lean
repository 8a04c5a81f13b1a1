import Pluribus.Lib.Map
import Pluribus.Lib.Transaction
import Pluribus.Scheduler.Schedule

namespace Pluribus.Scheduler

open Lib Pluribus.Core

def text (value : Json) (field : String) (max : Nat) : Except String String :=
  match (value.index field).asStr.filter fun s => !Text.blank s && s.utf8ByteSize ≤ max with
  | some s => .ok s
  | none => .error (field ++ " must contain 1.." ++ max.repr ++ " bytes")

abbrev Change := Option (String × Option Schedule)

/-- The schedules by their ids, which is the order of their keys in the state. -/
abbrev Schedules := Map String Schedule

/-- A management call: the capability with its arguments, the request that makes it, the nearest
observation behind the request and the time. -/
structure Call where
  capability : String
  args : Json
  requestId : EventId
  originId : EventId
  origin : Fields
  now : Int

section Manage

variable (lib : Library)

/-- `serde_json::from_value`; its message is the library's. -/
def readTiming (value : Json) : Except String Timing :=
  match Timing.fromJson value with
  | some timing => .ok timing
  | none => .error (lib.decodeError value)

def listed (schedules : Schedules) (call : Call) : Json :=
  let limit := max 1 (min ((call.args.index "limit").asU64.getD 50) 100)
  let after := (call.args.index "after").asStr.getD ""
  let rows := schedules.values.filter fun s => after < s.id && s.ownedBy call.origin
  let page := rows.take limit
  let next := if (rows.drop limit).isEmpty then none else page.getLast?.map (·.id)
  Json.ofFields [("schedules", .array (page.map Schedule.toJson)), ("nextAfter", Json.ofOption .string next)]

def create (call : Call) : Except String Schedule := do
  let name ← text call.args "name" 200
  let prompt ← text call.args "prompt" 8192
  let timing ← readTiming lib (call.args.index "timing")
  let due ← timing.first lib call.now
  return {
    id := call.requestId
    revision := 1
    name := name
    prompt := prompt
    timing := timing
    nextAtMs := some due
    lastAtMs := none
    paused := false
    error := none
    originEventId := call.originId
    origin := call.origin
    cause := call.requestId }

def updatedText (call : Call) (field : String) (max : Nat) (current : String) : Except String String :=
  if (call.args.get field).isSome then text call.args field max else .ok current

def updatedTiming (call : Call) (s : Schedule) : Except String Schedule :=
  match call.args.get "timing" with
  | none => .ok s
  | some value => do
    let timing ← readTiming lib value
    let due ← timing.first lib call.now
    return { s with nextAtMs := some due, timing := timing, error := none }

def edited (call : Call) (s : Schedule) : Except String Schedule :=
  if call.capability = "schedule.pause" then .ok { s with paused := true }
  else if call.capability = "schedule.resume" then
    if s.nextAtMs.isNone then .error "completed or failed schedule requires a new timing rule"
    else .ok { s with paused := false }
  else if call.capability = "schedule.update" then do
    let name ← updatedText call "name" 200 s.name
    let prompt ← updatedText call "prompt" 8192 s.prompt
    updatedTiming lib call { s with name := name, prompt := prompt }
  else .error "unknown schedule capability"

/-- A change is a new revision, caused by the request and bound to its origin. -/
def revised (call : Call) (s : Schedule) : Except String Schedule :=
  if s.revision = u64Max then .error "revision exhausted"
  else .ok { s with
    revision := s.revision + 1
    cause := call.requestId
    originEventId := call.originId
    origin := call.origin }

def manage (schedules : Schedules) (call : Call) : Except String ((Json × Change) × Schedules) :=
  if call.capability = "schedule.list" then .ok ((listed schedules call, none), schedules)
  else if call.capability = "schedule.create" then do
    let s ← create lib call
    return ((s.toJson, some (s.id, some s)), schedules.insert s.id s)
  else do
    let id ← text call.args "id" 256
    match (schedules.find id).filter (·.ownedBy call.origin) with
    | none => .error "schedule not found in this conversation"
    | some s =>
      if call.capability = "schedule.get" then .ok ((s.toJson, none), schedules)
      else if call.capability = "schedule.delete" then
        .ok ((Json.ofFields [("id", .string id), ("deleted", .bool true)], some (id, none)), schedules.erase id)
      else do
        let changed ← edited lib call s
        let s' ← revised call changed
        return ((s'.toJson, some (id, some s')), schedules.insert id s')

end Manage

section Specs

variable {lib : Library} {schedules schedules' : Schedules} {call : Call} {s s' : Schedule}

/-- Every change a call can make: a schedule is created, deleted, or becomes its next revision. -/
inductive Changed (lib : Library) (schedules : Schedules) (call : Call) : String → Option Schedule → Prop
  | created {s : Schedule} (hcapability : call.capability = "schedule.create") (h : create lib call = .ok s) :
      Changed lib schedules call s.id (some s)
  | deleted {id : String} {s : Schedule} (hfind : schedules.find id = some s) (howned : s.ownedBy call.origin = true) :
      Changed lib schedules call id none
  | edited {id : String} {s changed s' : Schedule} (hcapability : call.capability ≠ "schedule.create")
      (hfind : schedules.find id = some s) (howned : s.ownedBy call.origin = true)
      (hedited : edited lib call s = .ok changed) (hrevised : revised call changed = .ok s') :
      Changed lib schedules call id (some s')

def Schedules.put (schedules : Schedules) (id : String) : Option Schedule → Schedules
  | some s => schedules.insert id s
  | none => schedules.erase id

theorem Schedules.find_put (schedules : Schedules) (id k : String) (s : Option Schedule) :
    (schedules.put id s).find k = if k = id then s else schedules.find k := by
  cases s with
  | none => exact schedules.find_erase id k
  | some s =>
    simp only [put, Map.find_insert, eq_comm]

theorem manage_ok {value : Json} {change : Change} (h : manage lib schedules call = .ok ((value, change), schedules')) :
    (change = none ∧ schedules' = schedules) ∨
      ∃ id s, change = some (id, s) ∧ Changed lib schedules call id s ∧ schedules' = schedules.put id s := by
  unfold manage at h
  split at h
  · cases h
    exact .inl ⟨rfl, rfl⟩
  split at h
  · rename_i hcreate
    obtain ⟨s, hs, h⟩ := except_bind_ok.mp h
    cases h
    exact .inr ⟨_, _, rfl, .created hcreate hs, rfl⟩
  rename_i hcreate
  obtain ⟨id, -, h⟩ := except_bind_ok.mp h
  split at h
  · cases h
  rename_i s hfind
  obtain ⟨hfind, howned⟩ := Option.filter_eq_some_iff.mp hfind
  split at h
  · cases h
    exact .inl ⟨rfl, rfl⟩
  split at h
  · cases h
    exact .inr ⟨_, _, rfl, .deleted hfind howned, rfl⟩
  obtain ⟨changed, hedited, h⟩ := except_bind_ok.mp h
  obtain ⟨s', hrevised, h⟩ := except_bind_ok.mp h
  cases h
  exact .inr ⟨_, _, rfl, .edited hcreate hfind howned hedited hrevised, rfl⟩

theorem create_ok (h : create lib call = .ok s) : ∃ name prompt timing due, timing.first lib call.now = .ok due ∧
    s = ⟨call.requestId, 1, name, prompt, timing, some due, none, false, none, call.originId, call.origin,
      call.requestId⟩ := by
  obtain ⟨name, -, h⟩ := except_bind_ok.mp h
  obtain ⟨prompt, -, h⟩ := except_bind_ok.mp h
  obtain ⟨timing, -, h⟩ := except_bind_ok.mp h
  obtain ⟨due, hdue, h⟩ := except_bind_ok.mp h
  cases h
  exact ⟨name, prompt, timing, due, hdue, rfl⟩

theorem revised_ok (h : revised call s = .ok s') :
    s' = { s with
      revision := s.revision + 1
      cause := call.requestId
      originEventId := call.originId
      origin := call.origin } := by
  unfold revised at h
  split at h
  · cases h
  · exact (Except.ok.inj h).symm

end Specs

end Pluribus.Scheduler
