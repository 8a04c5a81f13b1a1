import Pluribus.Core.Event
import Pluribus.Lib.JsonText
import Pluribus.Lib.Results

namespace Pluribus.Scheduler

open Lib Pluribus.Core Json

structure Timer where
  request : EventId
  owner : String
  due : Int
deriving DecidableEq, Repr

/-- A time in milliseconds that a signed 64-bit integer can hold. -/
abbrev Millis := { ms : Int // -9223372036854775808 ≤ ms ∧ ms ≤ 9223372036854775807 }

def Millis.of (ms : Int) : Option Millis :=
  if h : -9223372036854775808 ≤ ms ∧ ms ≤ 9223372036854775807 then some ⟨ms, h⟩ else none

def Millis.toJson (ms : Millis) : Json := Json.ofInt ms.val

def Millis.fromJson (value : Json) : Option Millis := value.asI64.bind Millis.of

theorem Millis.of_val (ms : Millis) : Millis.of ms.val = some ms := dif_pos ms.property

theorem Millis.fromJson_toJson (ms : Millis) : Millis.fromJson ms.toJson = some ms := by
  have hread : (ofInt ms.val).asI64 = some ms.val := by
    unfold ofInt
    split
    · rename_i hsign
      have hfits : ms.val.toNat ≤ 9223372036854775807 := by
        omega
      simp [asI64, hfits, hsign]
    · rfl
  simp [fromJson, toJson, hread, Millis.of_val]

/-- What other libraries answer: time stamps, time zones and cron expressions, the next time of an
expression in a zone after a given moment, and the message about a value that does not decode. -/
structure Library where
  Zone : Type
  Cron : Type
  parseFromRfc3339 : String → Except String Millis
  zoneFromStr : String → Except String Zone
  cronFromStr : String → Except String Cron
  inRange : Int → Bool
  findNextOccurrence : Cron → Zone → Int → Except String Millis
  decodeError : Json → String

inductive Timing where
  | atTime (text : String)
  | after (milliseconds : Millis)
  | cron (expression timezone : String)
deriving DecidableEq, Repr

def words (text : String) : List (List Char) := (text.toList.splitOnP Text.isSpace).filter (!·.isEmpty)

namespace Timing

section Times

variable (lib : Library)

def next (timing : Timing) (now : Int) : Except String (Option Millis) :=
  match timing with
  | .cron expression timezone =>
    if (words expression).length ≠ 5 then .error "cron requires five fields: minute hour day month weekday"
    else do
      let zone ← lib.zoneFromStr timezone
      let cron ← lib.cronFromStr expression
      if !lib.inRange now then .error "timestamp out of range"
      else (lib.findNextOccurrence cron zone now).map some
  | _ => .ok none

def future (now : Int) (due : Millis) : Except String Millis :=
  if due.val ≤ now then .error "scheduled time must be in the future" else .ok due

def first (timing : Timing) (now : Int) : Except String Millis :=
  match timing with
  | .atTime text => do future now (← lib.parseFromRfc3339 text)
  | .after milliseconds =>
    if 0 < milliseconds.val then
      match Millis.of (now + milliseconds.val) with
      | none => .error "delay exceeds timestamp range"
      | some due => future now due
    else .error "milliseconds must be positive"
  | .cron _ _ => do
    match ← timing.next lib now with
    | none => .error "cron has no next occurrence"
    | some due => .ok due

end Times

def toJson : Timing → Json
  | .atTime text => Json.ofFields [("kind", .string "at"), ("at", .string text)]
  | .after milliseconds => Json.ofFields [("kind", .string "after"), ("milliseconds", milliseconds.toJson)]
  | .cron expression timezone =>
    Json.ofFields [("kind", .string "cron"), ("expression", .string expression), ("timezone", .string timezone)]

/-- The fields a rule of each kind has besides its kind, in the order of their declaration. -/
def fieldNames (kind : String) : Option (List String) :=
  if kind = "at" then some ["at"]
  else if kind = "after" then some ["milliseconds"]
  else if kind = "cron" then some ["expression", "timezone"]
  else none

def ofKind (kind : String) (fields : Fields) : Option Timing :=
  if kind = "at" then (Table.find fields "at").bind Json.asStr |>.map .atTime
  else if kind = "after" then (Table.find fields "milliseconds").bind Millis.fromJson |>.map .after
  else do
    let expression ← (Table.find fields "expression").bind Json.asStr
    let timezone ← (Table.find fields "timezone").bind Json.asStr
    return .cron expression timezone

/-- A rule is read from an object without unknown fields, or from an array of its kind and the
values of its fields. -/
def fromJson : Json → Option Timing
  | .object fields => do
    let kind ← (Table.find fields "kind").bind Json.asStr
    let names ← fieldNames kind
    if fields.all fun field => field.1 = "kind" || names.contains field.1 then ofKind kind fields else none
  | .array (.string kind :: items) => do
    let names ← fieldNames kind
    if items.length = names.length then ofKind kind (names.zip items) else none
  | _ => none

theorem toJson_eq (timing : Timing) : timing.toJson = .object (match timing with
    | .atTime text => [("at", .string text), ("kind", .string "at")]
    | .after milliseconds => [("kind", .string "after"), ("milliseconds", milliseconds.toJson)]
    | .cron expression timezone =>
      [("expression", .string expression), ("kind", .string "cron"), ("timezone", .string timezone)]) := by
  have hat : ("at" : String) < "kind" := by decide
  have hmilliseconds : ¬ ("milliseconds" : String) < "kind" := by decide
  have hexpression : ("expression" : String) < "kind" := by decide
  have htimezone : ¬ ("timezone" : String) < "expression" ∧ ¬ ("timezone" : String) < "kind" := by decide
  cases timing <;>
    simp only [toJson, ofFields, List.foldl_cons, List.foldl_nil, Table.insert, String.reduceEq, hat,
      hmilliseconds, hexpression, htimezone, if_true, if_false]

theorem fromJson_toJson (timing : Timing) : fromJson timing.toJson = some timing := by
  rw [toJson_eq]
  cases timing <;> simp [fromJson, fieldNames, ofKind, Table.find_cons, asStr, Millis.fromJson_toJson]

end Timing

/-- A schedule as it is kept and as every snapshot in the log shows it. The origin is the object
`origin` makes of an observation. -/
structure Schedule where
  id : String
  revision : Nat
  name : String
  prompt : String
  timing : Timing
  nextAtMs : Option Millis
  lastAtMs : Option Millis
  paused : Bool
  error : Option String
  originEventId : EventId
  origin : Fields
  cause : EventId
deriving DecidableEq, Repr

namespace Schedule

variable (s : Schedule)

def key (due : Millis) : String := "schedule:" ++ s.id ++ ":" ++ s.revision.repr ++ ":" ++ due.val.repr

/-- What an occurrence tells the agent: the origin of the schedule with the prompt and the times. -/
def observation (due : Millis) (now : Int) : Json :=
  .object <| ((s.origin.set "originEventId" (.string s.originEventId)).set "message"
      (Json.ofFields [("text", .string s.prompt)])).set "schedule"
    (Json.ofFields [("id", .string s.id), ("name", .string s.name), ("revision", Json.ofNat s.revision),
      ("scheduledAtMs", due.toJson), ("emittedAtMs", Json.ofInt now)])

def due (now : Int) : Option Millis := s.nextAtMs.filter fun due => due.val ≤ now && !s.paused

def advance (lib : Library) (due : Millis) (now : Int) : Schedule :=
  match s.timing.next lib now with
  | .ok next => { s with lastAtMs := some due, nextAtMs := next }
  | .error message => { s with lastAtMs := some due, nextAtMs := none, error := some message }

def occurrence (lib : Library) (now : Int) : Option ((String × Json) × Schedule) :=
  (s.due now).map fun due => ((s.key due, s.observation due now), s.advance lib due now)

def ownedBy (origin : Fields) : Bool :=
  ["provider", "externalSenderId", "conversationId"].all fun field => s.origin.index field = origin.index field

def toJson : Json :=
  Json.ofFields [("id", .string s.id), ("revision", Json.ofNat s.revision), ("name", .string s.name),
    ("prompt", .string s.prompt), ("timing", s.timing.toJson), ("nextAtMs", Json.ofOption Millis.toJson s.nextAtMs),
    ("lastAtMs", Json.ofOption Millis.toJson s.lastAtMs), ("paused", .bool s.paused),
    ("error", Json.ofOption .string s.error), ("originEventId", .string s.originEventId),
    ("origin", .object s.origin), ("cause", .string s.cause)]

def optional {α : Type} (read : Json → Option α) : Json → Option (Option α)
  | .null => some none
  | value => (read value).map some

/-- An origin that is no object, with which the source could not fire the schedule, is refused. -/
def ofObject (value : Json) : Option Schedule := do
  let id ← value.getStr "id"
  let revision ← (value.get "revision").bind Json.asU64
  let name ← value.getStr "name"
  let prompt ← value.getStr "prompt"
  let timing ← (value.get "timing").bind Timing.fromJson
  let nextAtMs ← optional Millis.fromJson (value.index "nextAtMs")
  let lastAtMs ← optional Millis.fromJson (value.index "lastAtMs")
  let paused ← (value.get "paused").bind Json.asBool
  let error ← optional Json.asStr (value.index "error")
  let originEventId ← value.getStr "originEventId"
  let origin ← (value.get "origin").bind fun
    | .object fields => some fields
    | _ => none
  let cause ← value.getStr "cause"
  return ⟨id, revision, name, prompt, timing, nextAtMs, lastAtMs, paused, error, originEventId, origin, cause⟩

def fieldNames : List String :=
  ["id", "revision", "name", "prompt", "timing", "nextAtMs", "lastAtMs", "paused", "error", "originEventId", "origin",
    "cause"]

/-- A schedule is read from an object, or from an array of the values of its fields. -/
def fromJson : Json → Option Schedule
  | .array items => if items.length = fieldNames.length then ofObject (.object (fieldNames.zip items)) else none
  | value => ofObject value

theorem optional_millis (ms : Option Millis) :
    optional Millis.fromJson (ofOption Millis.toJson ms) = some ms := by
  cases ms with
  | none => rfl
  | some ms =>
    have hnumber : ∃ n, ms.toJson = .number n := by
      unfold Millis.toJson ofInt
      split <;> exact ⟨_, rfl⟩
    obtain ⟨n, hn⟩ := hnumber
    have hread := Millis.fromJson_toJson ms
    rw [hn] at hread
    simp [ofOption, hn, optional, hread]

theorem optional_string (text : Option String) : optional asStr (ofOption .string text) = some text := by
  cases text <;> rfl

theorem fromJson_toJson : fromJson s.toJson = some s := by
  change ofObject s.toJson = some s
  simp [ofObject, toJson, getStr, index, get_ofFields, asStr, asBool, ofNat, asU64,
    Timing.fromJson_toJson, optional_millis, optional_string]

section Occurrence

variable {s} {lib : Library} {now : Int}

variable (s lib) in
theorem advance_same (due : Millis) (now : Int) : ∃ next error,
    s.advance lib due now = { s with lastAtMs := some due, nextAtMs := next, error := error } := by
  unfold advance
  split
  · exact ⟨_, s.error, rfl⟩
  · exact ⟨none, _, rfl⟩

end Occurrence

end Schedule

end Pluribus.Scheduler
