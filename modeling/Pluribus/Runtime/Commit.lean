import Pluribus.Runtime.Proposal
import Pluribus.Storage.Model

namespace Pluribus.Runtime

open Lib Pluribus.Core Storage

def MAX_STATE_KEY_BYTES : Nat := 512
def MAX_STATE_VALUE_BYTES : Nat := 1024 * 1024
def MAX_STATE_MUTATIONS : Nat := 256
def MAX_OUTCOME_EVENTS : Nat := 1000

structure GuestOutcome where
  events : List Proposal
  mutations : List StateMutation
  checkpoint : Option Nat
deriving DecidableEq, Repr

structure Outcome where
  events : List CommittedEvent
  checkpoint : Nat
deriving DecidableEq, Repr

inductive CommitPhase where
  | init
  | handle
  | stop
deriving DecidableEq, Repr

def CommitPhase.derivedKey (phase : CommitPhase) (instanceId : String) (checkpoint ordinal : Nat) : String :=
  let handled := instanceId ++ ":" ++ checkpoint.repr ++ ":" ++ ordinal.repr
  match phase with
  | .handle => handled
  | .init => handled ++ ":init"
  | .stop => handled ++ ":stop"

def convertMutation (mutation : StateMutation) : Except RuntimeError StateMutation :=
  match mutation with
  | .set key value =>
    if MAX_STATE_KEY_BYTES < key.utf8ByteSize then .error { message := "state key exceeds 512 bytes" }
    else if MAX_STATE_VALUE_BYTES < value.length then .error { message := "state value exceeds 1 MiB" }
    else .ok mutation
  | .delete key =>
    if MAX_STATE_KEY_BYTES < key.utf8ByteSize then .error { message := "state key exceeds 512 bytes" }
    else .ok mutation

def convertMutations (mutations : List StateMutation) : Except RuntimeError (List StateMutation) :=
  if MAX_STATE_MUTATIONS < mutations.length then .error { message := "outcome proposes too many mutations" }
  else mutations.mapM convertMutation

namespace HostState

variable (host : HostState)

def requests (cause : Option EventId) (phase : CommitPhase) (checkpoint : Nat) :
    Nat → List Proposal → Except RuntimeError (List AppendRequest)
  | _, [] => .ok []
  | ordinal, proposal :: rest => do
    let request ← host.appendRequest proposal cause
      (some (phase.derivedKey host.delivery.instanceId checkpoint ordinal))
    let others ← requests cause phase checkpoint (ordinal + 1) rest
    return request :: others

def cursor : CursorKey := ⟨host.delivery.agentId, host.delivery.instanceId⟩

/-- One delivery transaction: the outcome's events, mutations and checkpoint, or nothing. -/
def transact (failed : String) (store : Store) (draws : Draws) (cause : Option EventId) (phase : CommitPhase)
    (checkpoint : Nat) (outcome : GuestOutcome) : Except RuntimeError (Outcome × Store) := do
  let events ← host.requests cause phase checkpoint 0 outcome.events
  let mutations ← convertMutations outcome.mutations
  match store.commit draws ⟨host.cursor, checkpoint, outcome.checkpoint, mutations, events⟩ with
  | .error error => .error { message := failed ++ error.toString }
  | .ok (receipt, store') => .ok (⟨receipt.events, receipt.checkpoint⟩, store')

theorem mem_requests {cause : Option EventId} {phase : CommitPhase} {checkpoint ordinal : Nat}
    {proposals : List Proposal} {requests : List AppendRequest}
    (h : host.requests cause phase checkpoint ordinal proposals = .ok requests) {request : AppendRequest}
    (hrequest : request ∈ requests) :
    ∃ proposal ∈ proposals, ∃ key, host.appendRequest proposal cause key = .ok request := by
  induction proposals generalizing ordinal requests with
  | nil =>
    cases h
    cases hrequest
  | cons proposal rest ih =>
    obtain ⟨first, hfirst, h₁⟩ := except_bind_ok.mp h
    obtain ⟨others, hothers, h₂⟩ := except_bind_ok.mp h₁
    cases h₂
    cases hrequest with
    | head => exact ⟨proposal, List.mem_cons_self, _, hfirst⟩
    | tail _ hmem =>
      obtain ⟨p, hp, key, hkey⟩ := ih hothers hmem
      exact ⟨p, List.mem_cons_of_mem _ hp, key, hkey⟩

theorem transact_ok {failed : String} {store store' : Store} {draws : Draws} {cause : Option EventId}
    {phase : CommitPhase} {checkpoint : Nat} {outcome : GuestOutcome} {answer : Outcome}
    (h : host.transact failed store draws cause phase checkpoint outcome = .ok (answer, store')) :
    ∃ commit receipt, store.commit draws commit = .ok (receipt, store') ∧
      host.requests cause phase checkpoint 0 outcome.events = .ok commit.events ∧
      commit.cursor = host.cursor ∧ commit.expectedCheckpoint = checkpoint ∧
      commit.checkpoint = outcome.checkpoint ∧ answer = ⟨receipt.events, receipt.checkpoint⟩ := by
  obtain ⟨events, hevents, h₁⟩ := except_bind_ok.mp h
  obtain ⟨mutations, -, h₂⟩ := except_bind_ok.mp h₁
  split at h₂
  · cases h₂
  · rename_i receipt store'' hcommit
    cases h₂
    exact ⟨_, receipt, hcommit, hevents, rfl, rfl, rfl, rfl⟩

end HostState

end Pluribus.Runtime
