import Pluribus.Rlm.Prompts

namespace Pluribus.Rlm

open Lib List

def MAX_CELL_YIELDS : Nat := 256
def MAX_DEPTH : Nat := 4
def MAX_CHILD_CONTEXT : Nat := 64 * 1024
def MAX_TURN_IMAGES : Nat := 8
def MAX_IMAGE_BYTES : Nat := 20 * 1024 * 1024

structure BlobRef where
  algorithm : String
  digest : String
  size : Nat
  mediaType : String
deriving DecidableEq, Repr

def mediaTypeSpellings : List String := ["media-type", "media_type", "mediaType"]

def BlobRef.ofJson : Json → Option BlobRef
  | .object fields =>
    match mediaTypeSpellings.filterMap (Table.find fields) with
    | [mediaType] => do
      return ⟨← (← Table.find fields "algorithm").asStr, ← (← Table.find fields "digest").asStr,
        ← (← Table.find fields "size").asU64, ← mediaType.asStr⟩
    | _ => none
  | .array [algorithm, digest, size, mediaType] => do
    return ⟨← algorithm.asStr, ← digest.asStr, ← size.asU64, ← mediaType.asStr⟩
  | _ => none

def BlobRef.imagePart (blob : BlobRef) : Json := .object [
  ("blob", .object [
    ("algorithm", .string blob.algorithm),
    ("digest", .string blob.digest),
    ("media_type", .string blob.mediaType),
    ("size", Json.ofNat blob.size)]),
  ("kind", .string "image")]

def BlobRef.attachment (blob : BlobRef) : Json := .object [
  ("algorithm", .string blob.algorithm),
  ("digest", .string blob.digest),
  ("media-type", .string blob.mediaType),
  ("size", Json.ofNat blob.size)]

def textPart (text : String) : Json := .object [("kind", .string "text"), ("text", .string text)]

def speech (role : String) (content : List Json) : Json := .object [("content", .array content), ("role", .string role)]

inductive Turn where
  | words (text : String)
  | envelope (value : Json) (images : List BlobRef)

/-- A message after the first two: a text of the engine, a text that ends with a value, a tool
result, or what the model sent. -/
inductive Message where
  | user (text : String)
  | note (lead : String) (value : Json)
  | result (callId : Json) (schema : String) (output error : Json)
  | said (value : Json)

/-- The messages of a task: the system message, the current turn and what followed. -/
structure History where
  system : Prompt
  turn : Turn
  rest : List Message

def Turn.toJson : Turn → Json
  | .words text => speech "user" [textPart text]
  | .envelope value images => speech "user" (textPart value.text :: images.map BlobRef.imagePart)

def Message.toJson : Message → Json
  | .user text => speech "user" [textPart text]
  | .note lead value => speech "user" [textPart (lead ++ value.text)]
  | .result callId schema output error => speech "tool" [.object [
      ("call_id", callId),
      ("error", error),
      ("kind", .string "tool-result"),
      ("output", output),
      ("output_schema", .string schema)]]
  | .said value => value

def History.toJson (history : History) : List Json :=
  speech "system" [textPart history.system.text] :: history.turn.toJson :: history.rest.map Message.toJson

def History.push (message : Message) (history : History) : History := { history with rest := history.rest ++ [message] }

def History.compacted (history : History) : History := ⟨.work, history.turn, []⟩

def Turn.bytes : Turn → Nat
  | .words text => (speech "user" [textPart text]).bytes
  | .envelope value images => (speech "user" (textPart "" :: images.map BlobRef.imagePart)).bytes + value.quotedBytes

def Message.bytes : Message → Nat
  | .note lead value => (speech "user" [textPart lead]).bytes + value.quotedBytes
  | message => message.toJson.bytes

def History.itemBytes (history : History) : Nat :=
  (speech "system" [textPart ""]).bytes + history.system.bytes + history.turn.bytes +
    (history.rest.map Message.bytes).sum + (history.rest.length + 1)

def History.bytes (history : History) : Nat := 2 + history.itemBytes

theorem bytes_speech (role a b : String) (content : List Json)  :
    (speech role (textPart (a ++ b) :: content)).bytes =
      (speech role (textPart a :: content)).bytes + Text.escapedBytes b := by
  have hquoted : Json.quotedWeight (fun _ => 1) (a ++ b) = Json.quotedWeight (fun _ => 1) a + Text.escapedBytes b := by
    have h := Text.escapedBytes_append a b
    simp only [Text.escapedBytes] at h
    rw [Json.quotedWeight, h, Json.quotedWeight, Text.escapedBytes]
    omega
  simp only [speech, textPart, Json.bytes, Json.weigh, Json.fieldsWeight, Json.itemsWeight, hquoted, length_cons]
  omega

theorem bytes_speech_text (role text : String) (content : List Json)  :
    (speech role (textPart text :: content)).bytes =
      (speech role (textPart "" :: content)).bytes + Text.escapedBytes text := by
  have h := bytes_speech role "" text content
  rwa [String.empty_append] at h

theorem Turn.bytes_toJson (turn : Turn) : turn.toJson.bytes = turn.bytes := by
  cases turn with
  | words text => rfl
  | envelope value images => rw [toJson, bytes_speech_text, Json.escapedBytes_text, bytes]

theorem Message.bytes_toJson (message : Message) : message.toJson.bytes = message.bytes := by
  cases message with
  | note lead value => rw [toJson, bytes_speech, Json.escapedBytes_text, bytes]
  | user | result | said => rfl

theorem itemsWeight_map {α : Type} (f : α → Json) (items : List α) :
    Json.itemsWeight (fun _ => 1) (items.map f) = (items.map fun item => (f item).bytes).sum := by
  induction items with
  | nil => rfl
  | cons item rest ih => rw [map_cons, Json.itemsWeight, ih, map_cons, sum_cons, Json.bytes]

theorem History.bytes_toJson (history : History) : (Json.array history.toJson).bytes = history.bytes := by
  have hsystem := bytes_speech_text "system" history.system.text []
  have hturn := history.turn.bytes_toJson
  have hrest : Json.itemsWeight (fun _ => 1) (history.rest.map Message.toJson) = (history.rest.map Message.bytes).sum := by
    rw [itemsWeight_map]
    exact congrArg List.sum (map_congr_left fun message _ => message.bytes_toJson)
  rw [Prompt.bytes_text, Json.bytes] at hsystem
  rw [Json.bytes] at hturn
  rw [Json.bytes, Json.weigh, toJson, Json.itemsWeight, Json.itemsWeight, hsystem, hturn, hrest, Json.commas, bytes,
    itemBytes]
  simp only [length_cons, length_map]
  omega

def messageField (value : Json) : String :=
  match ((value.index "message").index "text").asStr with
  | some _ => "text"
  | none => "caption"

def messageText (value : Json) : String := (((value.index "message").index (messageField value)).asStr).getD ""

def omitted (id key : String) (bytes : Nat) : Json := .object [
  ("bytes", Json.ofNat bytes),
  ("eventId", .string id),
  ("jsonPointer", .string ("/" ++ Text.pointerToken key)),
  ("payloadOmitted", .bool true)]

def boundedFields (id : String) (value : Json) : Nat → List (String × Json) → List (String × Json)
  | _, [] => []
  | used, (key, field) :: rest =>
    let bytes := field.bytes
    if bytes > 16 * 1024 ∨ used + bytes > 48 * 1024 then
      let reference := omitted id key bytes
      let kept := if key = "message" then
          .object [("source", reference), ("text", .string (Text.take 4096 (messageText value)))]
        else reference
      (key, kept) :: boundedFields id value used rest
    else (key, field) :: boundedFields id value (used + bytes) rest

def boundedObservation (id : String) (value : Json) : Json :=
  if value.bytes ≤ 128 * 1024 then value
  else
    match value with
    | .object fields => .object (boundedFields id value 0 fields)
    | _ => value

def readyBlobs (observation : Json) : List BlobRef :=
  match observation.index "media" with
  | .array items =>
    (items.filter fun item => item.index "status" = .string "ready").filterMap fun item =>
      (item.get "blob").bind BlobRef.ofJson
  | _ => []

def imageParts (observation : Json) : List BlobRef :=
  ((readyBlobs observation).filter fun blob =>
    Text.startsWith "image/" blob.mediaType && blob.size ≤ MAX_IMAGE_BYTES).take MAX_TURN_IMAGES

def attachmentRefs (observation : Json) : List Json :=
  (((readyBlobs observation).filter fun blob =>
    blob.algorithm = "sha256" && Text.bytes blob.digest = 64 &&
      blob.digest.toList.all (fun c => ('0' ≤ c && c ≤ '9') || ('a' ≤ c && c ≤ 'f')) && blob.mediaType ≠ "").take
    32).map BlobRef.attachment

def conversationKey (value : Json) : String :=
  (Json.array [value.index "provider", value.index "externalSenderId", value.index "conversationId"]).text

def sameConversation (original value : Json) : Bool :=
  original.index "externalSenderId" = value.index "externalSenderId" &&
    original.index "provider" = value.index "provider" &&
    original.index "conversationId" = value.index "conversationId"

def replyRequest (observation text : Json) : Option Fields := do
  let provider ← (observation.index "provider").asStr
  let conversation ← (observation.index "conversationId").asStr
  return [
    ("arguments", .object [("conversationId", .string conversation), ("text", text)]),
    ("capability", .string (provider ++ ".reply"))]

structure Window where
  after : Nat
  limit : Nat
deriving DecidableEq, Repr

def Window.toJson (window : Window) : Json :=
  .object [("after", Json.ofNat window.after), ("limit", Json.ofNat window.limit)]

structure Task where
  codeRequestId : Option String := none
  codeEventId : Option String := none
  resourceFailures : Nat := 0
  cellStarted : Bool := false
  controlErrors : Nat := 0
  cellSource : String := ""
  lastCell : Option Nat := none
  repeatedCells : Nat := 0
  cellRevision : Nat
  revision : Nat
  decisionRevision : Nat
  association : Option String := none
  root : String
  origin : String
  context : Fields
  messages : History
  parent : Option (String × Json)
  depth : Nat
  toolId : String := ""
  pending : Option Fields := none
  yields : Nat := 0
  window : Option Window
  compacting : Bool := false
  compactionErrors : Nat := 0
  compactionProvenanceError : Option String := none
  checkpointProvenanceError : Option String := none
  checkpointProvenanceVerified : Bool := false

namespace Task

variable (task : Task)

def setContext (key : String) (value : Json) : Task := { task with context := task.context.set key value }

def push (message : Message) : Task := { task with messages := task.messages.push message }

/-- A task that holds work of its own: neither a child query nor the routing of an observation. -/
def isRoot : Bool := task.parent.isNone && task.association.isNone

end Task

/-- The key under which a root task holds the observation of its current turn. -/
def triggerInput (task : Task) : String :=
  if (Table.find task.context "latestObservation").isSome then "latestObservation" else "observation"

/-- An envelope under construction, with the bytes left for it; a router has no limit. -/
structure Envelope where
  fields : Fields
  remaining : Option Nat

def Envelope.put (key : String) (value : Json) (pointer : String) (envelope : Envelope) : Envelope :=
  match envelope.remaining with
  | none => { envelope with fields := envelope.fields.set key value }
  | some remaining =>
    let bytes := value.bytes
    if bytes ≤ remaining then ⟨envelope.fields.set key value, some (remaining - bytes)⟩
    else
      { envelope with fields := envelope.fields.set key (.object [
          ("bytes", Json.ofNat bytes),
          ("contextPointer", .string pointer)]) }

def Envelope.putField (context : Fields) (envelope : Envelope) (key : String) : Envelope :=
  match Table.find context key with
  | some value => envelope.put key value ("/" ++ key)
  | none => envelope

/-- Adds the working summary whose sources the host has checked. -/
def Envelope.putSummary (context : Fields) (envelope : Envelope) : Envelope :=
  if (context.index "workingSummaryProvenance").index "verified" = .bool true then
    envelope.putField context "workingSummary"
  else envelope

def jobSummary (job : Json) : Json := .object [
  ("blockers", job.index "blockers"),
  ("completedSteps", job.index "completed_steps"),
  ("details", .object [("bytes", Json.ofNat job.bytes), ("contextPointer", .string "/job")]),
  ("id", job.index "id"),
  ("nextStep", job.index "next_step"),
  ("objective", job.index "objective"),
  ("outstandingQuestion", job.index "outstanding_question"),
  ("recentReply", job.index "recent_reply"),
  ("revision", job.index "revision"),
  ("status", job.index "status")]

/-- What a root is shown: the text of its input before the transport metadata. -/
def rootEnvelope (task : Task) (envelope : Envelope) : Envelope :=
  let context := task.context
  let input := triggerInput task
  let observation := context.index input
  let field := messageField observation
  let job := context.index "job"
  let envelope := envelope.put "message" ((observation.index "message").index field) ("/" ++ input ++ "/message/" ++ field)
  let envelope := envelope.put "observationEventId" (context.index "observationEventId") "/observationEventId"
  let envelope := envelope.put "outstandingQuestion" (job.index "outstanding_question") "/job/outstanding_question"
  let envelope := envelope.put "components" (context.index "components") "/components"
  let envelope := envelope.put "tools" (context.index "tools") "/tools"
  let envelope := envelope.put "job" (jobSummary job) "/job"
  let envelope := envelope.put "recentConversation" (context.index "recentConversation") "/recentConversation"
  let envelope := envelope.putField context "checkpoint"
  let envelope := envelope.putSummary context
  envelope.put "input" observation ("/" ++ input)

/-- The bounded projection of a task that its prompt and its cells share. -/
def turnContext (task : Task) (nowMs : Int) : Json :=
  let context := task.context
  let role := if task.association.isSome then "router" else if task.parent.isSome then "child" else "root"
  let envelope : Envelope := ⟨[
    ("nowMs", Json.ofInt nowMs),
    ("role", .string role),
    ("schema", .string "pluribus.turn/1")], if task.association.isSome then none else some (24 * 1024)⟩
  let envelope := envelope.put "trigger" (context.index "trigger") "/trigger"
  let envelope := ["resourceRecovery", "reconciliation"].foldl (Envelope.putField context) envelope
  let envelope :=
    if task.association.isSome then
      ["observation", "jobs", "recentClarifications"].foldl (fun envelope key =>
        envelope.put key ((context.index "routing").index key) ("/routing/" ++ key)) envelope
    else if task.parent.isSome then
      (["question", "context", "range", "checkpoint"].foldl (Envelope.putField context) envelope).putSummary context
    else rootEnvelope task envelope
  .object envelope.fields

end Pluribus.Rlm
