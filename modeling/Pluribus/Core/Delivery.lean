import Mathlib.Data.List.Nodup
import Pluribus.Core.Event

namespace Pluribus.Core

abbrev StateNamespace := String
abbrev Bytes := List UInt8

inductive StateMutation where
  | set (key : String) (value : Bytes)
  | delete (key : String)
deriving DecidableEq, Repr

inductive StateError where
  | conflict (expected actual : Nat)
  | invalid (message : String)
  | storage (message : String)
deriving DecidableEq, Repr

def StateError.toString : StateError → String
  | .conflict expected actual =>
    "state revision conflict: expected " ++ expected.repr ++ ", actual " ++ actual.repr
  | .invalid message => "invalid state operation: " ++ message
  | .storage message => "state storage failed: " ++ message

/-- Identifies one plugin instance's delivery cursor over one stream. -/
structure CursorKey where
  streamId : StreamId
  «namespace» : StateNamespace
deriving DecidableEq, Repr

/-- One atomic unit of work: the events a delivery proposed, the state it mutated, and the
cursor advance that records the delivery as handled. -/
structure DeliveryCommit where
  cursor : CursorKey
  expectedCheckpoint : Nat
  checkpoint : Option Nat
  mutations : List StateMutation
  events : List AppendRequest
deriving DecidableEq, Repr

structure DeliveryReceipt where
  events : List CommittedEvent
  checkpoint : Nat
  revision : Nat
deriving DecidableEq, Repr

inductive DeliveryError where
  | conflict (expected actual : Nat)
  | regressed (origin target : Nat)
  | invalid (message : String)
  | append (error : AppendError)
  | state (error : StateError)
  | storage (message : String)
deriving DecidableEq, Repr

def DeliveryError.toString : DeliveryError → String
  | .conflict expected actual =>
    "delivery checkpoint conflict: expected " ++ expected.repr ++ ", actual " ++ actual.repr
  | .regressed origin target =>
    "delivery checkpoint regressed: " ++ origin.repr ++ " to " ++ target.repr
  | .invalid message => "invalid delivery: " ++ message
  | .append error => error.toString
  | .state error => error.toString
  | .storage message => "delivery storage failed: " ++ message

def DeliveryCommit.validateEvents (stream : StreamId) : List AppendRequest → Except DeliveryError Unit
  | [] => .ok ()
  | event :: rest =>
    if event.streamId ≠ stream then .error (.invalid "event targets another stream")
    else match event.validate with
      | .error error => .error (.append error)
      | .ok () => validateEvents stream rest

def DeliveryCommit.keys (commit : DeliveryCommit) : List String :=
  commit.events.filterMap (·.deduplicationKey)

def DeliveryCommit.validate (commit : DeliveryCommit) : Except DeliveryError Unit :=
  if commit.cursor.streamId = "" then .error (.invalid "stream ID is empty")
  else if commit.cursor.namespace = "" then .error (.invalid "namespace is empty")
  else match commit.checkpoint.filter (· < commit.expectedCheckpoint) with
    | some checkpoint => .error (.regressed commit.expectedCheckpoint checkpoint)
    | none =>
      match validateEvents commit.cursor.streamId commit.events with
      | .error error => .error error
      | .ok () =>
        if commit.keys.Nodup then .ok ()
        else .error (.invalid "batch repeats a deduplication key")

theorem validateEvents_ok {stream : StreamId} {events : List AppendRequest}
    (h : DeliveryCommit.validateEvents stream events = .ok ()) :
    ∀ event ∈ events, event.streamId = stream ∧ event.validate = .ok () := by
  induction events with
  | nil => simp
  | cons event rest ih =>
    unfold DeliveryCommit.validateEvents at h
    split at h
    · cases h
    · rename_i hstream
      split at h
      · cases h
      · rename_i hvalid
        intro e he
        cases he with
        | head => exact ⟨not_not.mp hstream, hvalid⟩
        | tail _ he => exact ih h e he

/-- What a valid commit promises: a cursor that does not regress, events on the cursor's
own stream, and no deduplication key twice. -/
structure DeliveryCommit.Valid (commit : DeliveryCommit) : Prop where
  monotone : ∀ checkpoint ∈ commit.checkpoint, commit.expectedCheckpoint ≤ checkpoint
  events : ∀ event ∈ commit.events, event.streamId = commit.cursor.streamId ∧ event.validate = .ok ()
  keys : commit.keys.Nodup

theorem validate_ok {commit : DeliveryCommit} (h : commit.validate = .ok ()) : commit.Valid := by
  unfold DeliveryCommit.validate at h
  split at h
  · cases h
  split at h
  · cases h
  split at h
  · cases h
  rename_i hfilter
  split at h
  · cases h
  rename_i hevents
  split at h
  · rename_i hkeys
    refine ⟨?_, validateEvents_ok hevents, hkeys⟩
    intro checkpoint hc
    by_contra hlt
    simp only [Option.mem_def] at hc
    simp [hc, Option.filter, Nat.lt_of_not_le hlt] at hfilter
  · cases h

end Pluribus.Core
