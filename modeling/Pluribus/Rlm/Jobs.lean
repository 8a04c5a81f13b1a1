import Pluribus.Lib.JsonText
import Pluribus.Lib.Map

namespace Pluribus.Rlm

open Lib

/-- The names of the event types the engine tells apart. -/
def toldApart : List String :=
  ["operator.job-control", "operator.attempt-reconciled", "observation.received", "timer.set", "timer.fired",
    "timer.cancel", "model.requested", "model.completed", "model.failed", "code.evaluate-requested", "code.resumed",
    "code.yielded", "code.completed", "code.failed", "code.close-requested", "capability.requested",
    "capability.completed", "capability.failed", "capability.denied", "capability.timed-out",
    "capability.cancelled", "activity.attempted", "activity.unknown", "cognition.resource-exhausted",
    "cognition.cancel-requested", "cognition.completed", "cognition.failed"]

/-- The event types the engine tells apart; every other type goes by its name. -/
inductive Kind where
  | operatorJobControl | operatorAttemptReconciled
  | observationReceived
  | timerSet | timerFired | timerCancel
  | modelRequested | modelCompleted | modelFailed
  | codeEvaluateRequested | codeResumed | codeYielded | codeCompleted | codeFailed | codeCloseRequested
  | capabilityRequested | capabilityCompleted | capabilityFailed | capabilityDenied | capabilityTimedOut
  | capabilityCancelled
  | activityAttempted | activityUnknown
  | cognitionResourceExhausted | cognitionCancelRequested | cognitionCompleted | cognitionFailed
  | other (name : String) (hname : name ∉ toldApart)
deriving DecidableEq, Repr

namespace Kind

def name : Kind → String
  | operatorJobControl => "operator.job-control"
  | operatorAttemptReconciled => "operator.attempt-reconciled"
  | observationReceived => "observation.received"
  | timerSet => "timer.set"
  | timerFired => "timer.fired"
  | timerCancel => "timer.cancel"
  | modelRequested => "model.requested"
  | modelCompleted => "model.completed"
  | modelFailed => "model.failed"
  | codeEvaluateRequested => "code.evaluate-requested"
  | codeResumed => "code.resumed"
  | codeYielded => "code.yielded"
  | codeCompleted => "code.completed"
  | codeFailed => "code.failed"
  | codeCloseRequested => "code.close-requested"
  | capabilityRequested => "capability.requested"
  | capabilityCompleted => "capability.completed"
  | capabilityFailed => "capability.failed"
  | capabilityDenied => "capability.denied"
  | capabilityTimedOut => "capability.timed-out"
  | capabilityCancelled => "capability.cancelled"
  | activityAttempted => "activity.attempted"
  | activityUnknown => "activity.unknown"
  | cognitionResourceExhausted => "cognition.resource-exhausted"
  | cognitionCancelRequested => "cognition.cancel-requested"
  | cognitionCompleted => "cognition.completed"
  | cognitionFailed => "cognition.failed"
  | other name _ => name

/-- Types that tell how an activity went: a name ending in `.completed`, `.failed`, `.cancelled` or
`.denied`, and the two of the activity itself. -/
def settles : Kind → Bool
  | modelCompleted | codeCompleted | capabilityCompleted | cognitionCompleted => true
  | modelFailed | codeFailed | capabilityFailed | cognitionFailed => true
  | capabilityCancelled | capabilityDenied | activityUnknown | activityAttempted => true
  | other name _ => [".completed", ".failed", ".cancelled", ".denied"].any (Text.endsWith · name)
  | _ => false

def requests : Kind → Bool
  | modelRequested | codeEvaluateRequested | capabilityRequested => true
  | _ => false

def resultPrefix : Kind → Option String
  | codeCompleted | codeFailed | codeYielded => some "code"
  | capabilityCompleted | capabilityFailed | capabilityDenied | capabilityCancelled | capabilityTimedOut =>
    some "capability"
  | cognitionResourceExhausted => some "cognition"
  | _ => none

end Kind

inductive JobStatus where
  | runnable | running | waitingInput | waitingTime | pausedBudget | waitingActivity
  | completed | failed | cancelled
deriving DecidableEq, Repr

namespace JobStatus

def text : JobStatus → String
  | runnable => "runnable"
  | running => "running"
  | waitingInput => "waiting-input"
  | waitingTime => "waiting-time"
  | pausedBudget => "paused-budget"
  | waitingActivity => "waiting-activity"
  | completed => "completed"
  | failed => "failed"
  | cancelled => "cancelled"

def ended : JobStatus → Bool
  | completed | failed | cancelled => true
  | _ => false

def idle : JobStatus → Bool
  | waitingInput | waitingTime | pausedBudget | completed | failed | cancelled => true
  | _ => false

def suspended : JobStatus → Bool
  | waitingTime | pausedBudget => true
  | _ => false

end JobStatus

inductive WaitReason where
  | awaitingUser | providerError | scheduled | budget
deriving DecidableEq, Repr

def WaitReason.text : WaitReason → String
  | awaitingUser => "awaiting-user"
  | providerError => "provider-error"
  | scheduled => "scheduled"
  | budget => "budget"

structure Wake where
  token : String
  request : Option String
  revision : Nat
  dueAtMs : Int
deriving DecidableEq, Repr

def optionalText (value : Option String) : Json := Json.ofOption .string value

def Wake.toJson (wake : Wake) : Json := .object [
  ("due_at_ms", Json.ofInt wake.dueAtMs),
  ("request", optionalText wake.request),
  ("revision", Json.ofNat wake.revision),
  ("token", .string wake.token)]

structure Job where
  activities : Map String Fields
  id : String
  objective : String
  completionConditions : Json
  origin : String
  sources : List String
  revision : Nat
  incorporatedSequence : Nat
  status : JobStatus
  waitReason : Option WaitReason
  outstandingQuestion : Option String
  recentReply : Option String
  completedSteps : Json
  nextStep : Json
  blockers : Json
  notes : Json
  checkpoint : Json
  checkpointVersion : Nat
  cycleStartedMs : Int
  retryCount : Nat
  wake : Option Wake

def Job.toJson (job : Job) : Json := .object [
  ("activities", .object (job.activities.rows.map fun activity => (activity.1, .object activity.2))),
  ("blockers", job.blockers),
  ("checkpoint", job.checkpoint),
  ("checkpoint_version", Json.ofNat job.checkpointVersion),
  ("completed_steps", job.completedSteps),
  ("completion_conditions", job.completionConditions),
  ("cycle_started_ms", Json.ofInt job.cycleStartedMs),
  ("id", .string job.id),
  ("incorporated_sequence", Json.ofNat job.incorporatedSequence),
  ("next_step", job.nextStep),
  ("notes", job.notes),
  ("objective", .string job.objective),
  ("origin", .string job.origin),
  ("outstanding_question", optionalText job.outstandingQuestion),
  ("recent_reply", optionalText job.recentReply),
  ("retry_count", Json.ofNat job.retryCount),
  ("revision", Json.ofNat job.revision),
  ("sources", .array (job.sources.map .string)),
  ("status", .string job.status.text),
  ("wait_reason", optionalText (job.waitReason.map WaitReason.text)),
  ("wake", Json.ofOption Wake.toJson job.wake)]

inductive ObservationStatus where
  | pending | incorporated | waitingInput
deriving DecidableEq, Repr

structure Observation where
  outstandingQuestion : Option String
  id : String
  sequence : Nat
  value : Json
  status : ObservationStatus
  job : Option String
deriving DecidableEq

/-- A result as a job keeps it: large ones only by reference. -/
def activityResult (eventId : String) (value : Json) : Json :=
  if value.bytes ≤ 1024 then value
  else
    let short (field : String) : List (String × Json) :=
      match (value.index field).asStr with
      | some text => if Text.bytes text ≤ 128 then [(field, .string text)] else []
      | none => []
    .object (short "code" ++ [("eventId", .string eventId), ("inline", .bool false)] ++ short "outcome")

def unresolved (activity : Fields) : Bool :=
  activity.index "status" = .string "activity.unknown" ||
    (activity.index "result").index "code" = .string "outcome-unknown" ||
    (activity.index "result").index "outcome" = .string "unknown"

def outstanding (activity : Fields) : Bool :=
  activity.index "status" = .string "queued" || activity.index "status" = .string "running"

/-- Whether an observation may be routed to the job without its being named. -/
def automaticallyRoutable (job : Job) : Bool :=
  !(job.status.ended || (job.status = .waitingInput && job.waitReason = some .providerError))

def resultKey (kind : Kind) (id : String) (value : Json) : Option String :=
  kind.resultPrefix.map fun head => head ++ ":" ++ (value.getStr "requestEventId").getD id

end Pluribus.Rlm
