import Mathlib.Data.List.Sort
import Pluribus.Rlm.Turn

namespace Pluribus.Rlm

open Lib

def toolCalls (message : Json) : List Json :=
  match message.index "content" with
  | .array parts => parts.filter fun part => part.index "kind" = .string "tool-call"
  | _ => []

def filled (value : Json) : Bool :=
  match value.asStr with
  | some text => !Text.blank text
  | none => false

inductive Action where
  | new | amend | cancel | clarify
deriving DecidableEq, Repr

def Action.ofJson (value : Json) : Option Action :=
  match value.asStr with
  | some "new" => some .new
  | some "amend" => some .amend
  | some "cancel" => some .cancel
  | some "clarify" => some .clarify
  | _ => none

def Action.targets : Action → Bool
  | amend | cancel => true
  | _ => false

def validateAssociation (value : Json) : Bool :=
  match value with
  | .object fields =>
    if !Table.contains "jobId" fields ||
        fields.any fun field => field.1 ∉ ["action", "jobId", "question", "resolvesObservationId"] then false
    else
      let action := Action.ofJson (value.index "action")
      let resolved := Table.contains "resolvesObservationId" fields
      if resolved &&
          (!(action = some .new || action = some .amend || action = some .cancel) ||
            !filled (value.index "resolvesObservationId")) then false
      else
        let count := fields.length - if resolved then 1 else 0
        match action with
        | some .amend | some .cancel => count = 2 && filled (value.index "jobId")
        | some .new => count = 2 && value.index "jobId" = .null
        | some .clarify => count = 3 && value.index "jobId" = .null && filled (value.index "question")
        | none => false
  | _ => false

def isString (value : Json) : Bool := value.asStr.isSome

def isArray : Json → Bool
  | .array _ => true
  | _ => false

def isObject : Json → Bool
  | .object _ => true
  | _ => false

def validControlField : String → Json → Bool
  | "action", value => ["complete", "wait", "fail"].any fun action => value = .string action
  | "reply", value => value = .null || isString value
  | "note", value | "nextStep", value => isString value
  | "question", value => filled value
  | "completedSteps", value | "blockers", value | "completionConditions", value => isArray value
  | "waitFor", value => value = .string "input"
  | "dueAtMs", value => value.asI64.isSome
  | _, _ => false

def validateControl (value : Json) (child : Bool) : Except String Unit :=
  match value with
  | .object fields =>
    if child then
      if fields.length = 1 && isString (value.index "result") then .ok ()
      else .error "Child yield requires only a string result"
    else if !fields.all fun field => validControlField field.1 field.2 then
      .error "Invalid yield field or type; follow the yield schema"
    else
      let waitFor := Table.contains "waitFor" fields
      let dueAtMs := Table.contains "dueAtMs" fields
      if decide (value.index "waitFor" = .string "input") ≠ Table.contains "question" fields then
        .error "Waiting for user input requires a specific question; other decisions forbid question"
      else if (value.index "action" = .string "wait" && (waitFor ^^ dueAtMs)) ||
          ((value.index "action" = .string "complete" || value.index "action" = .string "fail") &&
            !waitFor && !dueAtMs) then .ok ()
      else .error "Invalid action or wait target; wait requires exactly one waitFor=input or dueAtMs"
  | _ => .error "yield arguments must be an object"

def toolItem (role : Json) (item : Json) (pending : List String) : Option (List String) :=
  if item.index "kind" = .string "tool-call" then
    match (item.index "call_id").asStr with
    | some id => if id = "" ∨ role ≠ .string "assistant" ∨ id ∈ pending then none else some (id :: pending)
    | none => none
  else if item.index "kind" = .string "tool-result" then
    match (item.index "call_id").asStr with
    | some id => if role ≠ .string "tool" ∨ id ∉ pending then none else some (pending.erase id)
    | none => none
  else some pending

def contentItems (message : Json) : List Json :=
  match message.index "content" with
  | .array items => items
  | _ => []

def toolMessage (pending : List String) (message : Json) : Option (List String) :=
  if message.index "role" ≠ .string "tool" ∧ pending ≠ [] then none
  else (contentItems message).foldlM (fun pending item => toolItem (message.index "role") item pending) pending

/-- The calls open after the messages, if each one may stand where it does. -/
def openCalls (messages : List Json) : Option (List String) := messages.foldlM toolMessage []

/-- Every tool call is answered once, directly after it. -/
def validToolHistory (messages : List Json) : Bool := openCalls messages = some []

def unanswered (messages : List Json) : List String :=
  ((messages.flatMap contentItems).foldl (fun pending item =>
    match (item.index "call_id").asStr with
    | some id =>
      if item.index "kind" = .string "tool-call" then (if id ∈ pending then pending else id :: pending)
      else if item.index "kind" = .string "tool-result" then pending.erase id
      else pending
    | none => pending) []).insertionSort (· ≤ ·)

end Pluribus.Rlm
