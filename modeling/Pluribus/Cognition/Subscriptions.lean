import Pluribus.Core.Authority
import Pluribus.Core.Registry

namespace Pluribus.Cognition

open Lib Pluribus.Core

def payloadField (event : CommittedEvent) (field : String) : Option String :=
  match event.request.payload with
  | .canonicalJson (.json value) => value.getStr field
  | _ => none

def jsonNumber (event : CommittedEvent) (field : String) : Option Int :=
  match event.request.payload with
  | .canonicalJson (.json value) => (value.get field).bind Json.asI64
  | _ => none

inductive Idempotency where
  | inherent
  | keyed
  | nonIdempotent
deriving DecidableEq, Repr

def Idempotency.text : Idempotency → String
  | .inherent => "inherent"
  | .keyed => "keyed"
  | .nonIdempotent => "non-idempotent"

/-- One part of a selector: what the pointer finds in the arguments, after the leading text. -/
structure ConstraintPart where
  pointer : String
  lead : String
  optional : Bool
deriving DecidableEq, Repr

structure ConstraintBinding where
  parts : List ConstraintPart
  required : Bool
deriving DecidableEq, Repr

/-- What an instance receives, derived from its manifest. -/
structure Subscriptions where
  idempotency : Table CapabilityName Idempotency
  wholeStream : Bool
  eventTypes : List String
  capabilities : List CapabilityName
  models : List String
  constraintBindings : Table CapabilityName (Table String ConstraintBinding)
deriving DecidableEq, Repr

structure Registration where
  instanceId : String
  subscriptions : Subscriptions
deriving DecidableEq, Repr

/-- Interprets the constraints of a grant; the second form also sees projected selectors. -/
structure ConstraintPolicy where
  allows : Grant → JsonBytes → Except String Bool
  allowsProjected : Grant → JsonBytes → JsonBytes → Except String Bool

namespace ProjectedConstraints

def selector (request : Json) : List ConstraintPart → Option String
  | [] => some ""
  | part :: rest =>
    match request.pointer part.pointer with
    | none => if part.optional then selector request rest else none
    | some (.string value) => (selector request rest).map (part.lead ++ value ++ ·)
    | some (.number value) => (selector request rest).map (part.lead ++ value.toString ++ ·)
    | some _ => none

def selectors (constraints request : Json) : Table String ConstraintBinding → Option (List (String × Json))
  | [] => some []
  | (key, binding) :: rest =>
    if (constraints.get key).isNone then
      if binding.required then none else selectors constraints request rest
    else if binding.parts = [] then none
    else
      match selector request binding.parts with
      | none => none
      | some text => (selectors constraints request rest).map ((key, .string text) :: ·)

def allows (policy : ConstraintPolicy) (bindings : Option (Table String ConstraintBinding)) (request : JsonBytes)
    (grant : Grant) : Except String Bool := do
  let constraints ← grant.constraints.parse
  match constraints with
  | .object _ =>
    let requestValue ← request.parse
    match selectors constraints requestValue (bindings.getD []) with
    | none => .ok false
    | some fields => policy.allowsProjected grant request (.json (Json.ofFields fields))
  | _ => .error "constraints must be an object"

end ProjectedConstraints

end Pluribus.Cognition
