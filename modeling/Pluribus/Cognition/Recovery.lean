import Pluribus.Cognition.Router
import Pluribus.Runtime.Proposal

namespace Pluribus.Cognition

open Lib Pluribus.Core Storage Pluribus.Runtime

def resourceJson (resource : ResourceExhaustion) : List (String × Json) :=
  [("resource", .string resource.resource),
    ("currentBytes", Json.ofNat resource.currentBytes),
    ("requestedBytes", Json.ofNat resource.requestedBytes),
    ("limitBytes", Json.ofNat resource.limitBytes),
    ("phase", .string resource.phase)]

def compactKeys : List String :=
  ["provider", "externalSenderId", "conversationId", "jobId", "sessionId", "rlmSession", "call_id", "callId",
    "requestEventId", "revision"]

def compactField (value : Json) (key : String) : Option (String × Json) :=
  match value.get key with
  | some (.string text) => some (key, .string (Text.take 256 text))
  | some (.number n) => some (key, .number n)
  | some (.bool b) => some (key, .bool b)
  | _ => none

def messageText (value : Json) : Option (String × String) :=
  let located (path key : String) : Option String :=
    ((value.pointer path).bind Json.asStr).or ((value.get key).bind Json.asStr)
  ((located "/message/text" "text").map (("text", ·))).or ((located "/message/caption" "caption").map (("caption", ·)))

def compactPayload (source : CommittedEvent) (value : Json) : Json :=
  Json.ofFields (compactKeys.filterMap (compactField value) ++
    match messageText value with
    | none => []
    | some (field, message) =>
      [("message", Json.ofFields [(field, .string (Text.take 4096 message))]),
        ("source", Json.ofFields [("eventId", .string source.eventId), ("payloadOmitted", .bool true)])])

def deferredInput (source : CommittedEvent) : Json :=
  Json.ofFields ([
    ("eventId", .string source.eventId),
    ("eventType", .string source.request.eventType),
    ("sequence", Json.ofNat source.sequence)] ++
    match source.request.payload with
    | .canonicalJson (.json value) => [("payload", compactPayload source value)]
    | _ => [])

namespace Router

variable (router : Router)

/-- Builds the host-owned deferred event for an atomic delivery commit. -/
def resourceExhaustionRequest (instanceId : String) (source : CommittedEvent) (remainingAttempts : Nat)
    (resource : Json) (effectStatus checkpointStatus : String) (jobId sessionId : Option String) :
    RouterM AppendRequest :=
  router.validated (router.hostRecord "cognition.resource-exhausted" "pluribus.cognition-resource-exhausted/1"
    (Json.ofFields [
      ("instanceId", .string instanceId),
      ("requestEventId", .string source.eventId),
      ("inputEventId", .string source.eventId),
      ("input", deferredInput source),
      ("jobId", Json.ofOption .string (jobId.or (payloadField source "jobId"))),
      ("sessionId", Json.ofOption .string (sessionId.or (payloadField source "sessionId"))),
      ("code", .string "resource-exhausted"),
      ("resource", resource),
      ("remainingAttempts", Json.ofNat remainingAttempts),
      ("effectStatus", .string effectStatus),
      ("checkpointStatus", .string checkpointStatus),
      ("deferred", .bool true)])
    (some source) (some ("cognition-resource-exhausted:" ++ instanceId ++ ":" ++ source.eventId)))

end Router

end Pluribus.Cognition
