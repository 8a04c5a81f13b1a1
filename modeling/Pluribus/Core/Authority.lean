import Pluribus.Core.Event

namespace Pluribus.Core

open Lib

abbrev CapabilityName := String

abbrev ConstraintSet := JsonBytes

structure Grant where
  capability : CapabilityName
  provider : Option PrincipalRef
  constraints : ConstraintSet
deriving DecidableEq, Repr

structure Audience where
  connector : PrincipalRef
  conversationId : String
  recipients : List PrincipalRef
deriving DecidableEq, Repr

inductive OriginKind where
  | autonomous
  | connector
deriving DecidableEq, Repr

structure Origin where
  kind : OriginKind
  principal : Option PrincipalRef
  connector : Option PrincipalRef
  conversationId : Option String
  sourceEventId : EventId
  trusted : Bool
deriving DecidableEq, Repr

structure Delegation where
  origin : PrincipalRef
  target : PrincipalRef
  onBehalfOf : Option PrincipalRef
  purpose : String
  sourceEventId : EventId
deriving DecidableEq, Repr

abbrev Grants := Table CapabilityName (List Grant)

structure Authority where
  schema : String
  authorityId : AuthorityId
  agent : PrincipalRef
  origin : Origin
  delegationChain : List Delegation
  grants : Grants
  audiences : List Audience
  parentAuthority : Option AuthorityId
  issuedAtMs : Int
  expiresAtMs : Option Int
  maxDepth : Nat
  currentDepth : Nat
deriving DecidableEq, Repr

def Authority.SCHEMA : String := "pluribus.authority/1"

inductive DenialReason where
  | missingGrant
  | constraintMismatch
  | expired
  | depthExceeded
  | policyError (message : String)
deriving DecidableEq, Repr

inductive Decision where
  | allow (grant : Grant)
  | deny (reason : DenialReason)
deriving DecidableEq, Repr

namespace Authority

def isExpiredAt (authority : Authority) (nowMs : Int) : Bool :=
  authority.expiresAtMs.any fun expiry => nowMs ≥ expiry

/-- The first matching grant the policy allows. Of several policy errors the last is kept. -/
def decideGrants (allows : Grant → Except String Bool) (seen : Bool) (policyError : Option String) :
    List Grant → Decision
  | [] =>
    match policyError with
    | some message => .deny (.policyError message)
    | none => if seen then .deny .constraintMismatch else .deny .missingGrant
  | grant :: rest =>
    match allows grant with
    | .ok true => .allow grant
    | .ok false => decideGrants allows true policyError rest
    | .error message => decideGrants allows true (some message) rest

def decide (authority : Authority) (capability : CapabilityName) (provider : PrincipalRef)
    (allows : Grant → Except String Bool) (nowMs : Int) : Decision :=
  if authority.isExpiredAt nowMs then .deny .expired
  else if authority.currentDepth > authority.maxDepth then .deny .depthExceeded
  else
    match authority.grants.find capability with
    | none => .deny .missingGrant
    | some grants =>
      decideGrants allows false none
        (grants.filter fun grant => grant.provider.all (· = provider))

end Authority

end Pluribus.Core
