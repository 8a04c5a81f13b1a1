import Pluribus.Lib.Rendezvous
import Pluribus.Lib.Trace
import Pluribus.Runtime.Commit
import Pluribus.Runtime.Imports

namespace Pluribus.Runtime

open Lib Pluribus.Core Storage

inductive Wake where
  | events (batch : List CommittedEvent)
  | stop
deriving DecidableEq, Repr

/-- An error as a guest reports it. Details count where they describe an exhausted resource. -/
structure GuestError where
  code : ErrorCode
  message : String
  details : Option ResourceExhaustion
deriving DecidableEq, Repr

def ErrorCode.text : ErrorCode → String
  | .invalidArgument => "invalid-argument"
  | .notFound => "not-found"
  | .permissionDenied => "permission-denied"
  | .unsupported => "unsupported"
  | .conflict => "conflict"
  | .unavailable => "unavailable"
  | .resourceExhausted => "resource-exhausted"
  | .cancelled => "cancelled"
  | .deadlineExceeded => "deadline-exceeded"
  | .internal => "internal"

def pluginFailure (error : GuestError) : RuntimeError where
  message := error.code.text ++ ": " ++ error.message
  resourceExhaustion := if error.code = .resourceExhausted then error.details else none

def streamDenied : HostError := ⟨.permissionDenied, "local streams require an endpoint grant"⟩

/-- The events of one delivery. The host delivers no empty batch. -/
abbrev Batch := { events : List CommittedEvent // events ≠ [] }

/-- One instance and its source task. `slot` carries the deliveries: the command channel, the
pending batch, the call that waits for its reply, and the replies sent. -/
structure Runner where
  host : HostState
  store : Store
  checkpoint : Nat
  slot : Rendezvous Batch (Except RuntimeError Outcome)
  stopCommand : Bool
  startup : Bool
  started : Option GuestOutcome
  initialized : Bool
  idle : Bool
  active : Bool
  stopping : Bool
  cancelled : Bool
  shutdown : Bool
  waiting : Nat
  committing : Option GuestOutcome
  output : List (Except RuntimeError Outcome)

namespace Runner

def instantiate (host : HostState) (store : Store)
    (slot : Rendezvous Batch (Except RuntimeError Outcome)) : Runner where
  host := { host with replaying := false, emitCall := false, activeUploads := [],
                      visibleBlobs := host.delivery.visibleBlobs }
  store := store
  checkpoint := store.cursor host.cursor
  slot := slot
  stopCommand := false
  startup := false
  started := none
  initialized := false
  idle := true
  active := false
  stopping := false
  cancelled := false
  shutdown := false
  waiting := 0
  committing := none
  output := []

variable (r : Runner)

/-- Cancellation reaches a delivery; a source loop between deliveries only ends on shutdown. -/
def interrupted : Bool :=
  if r.active && r.slot.pending.isNone then r.shutdown else r.cancelled

def ready (events : List Proposal) (mutations : List StateMutation) : Except HostError Unit × Runner :=
  if r.host.replaying || r.active || !r.startup then
    (.error ⟨.conflict, "ready is only valid once during startup"⟩, r)
  else (.ok (), { r with startup := false, started := some ⟨events, mutations, none⟩ })

/-- The start of `next`: an answer at once, or a call that waits. -/
def next : Option (Except HostError Wake) × Runner :=
  if r.shutdown then (some (.ok .stop), { r with stopping := true })
  else if !r.active || r.stopping || r.host.replaying || r.interrupted then (some (.error streamDenied), r)
  else if r.slot.pending.isSome then
    (some (.error ⟨.conflict, "commit or reject delivery before waiting"⟩), r)
  else (none, { r with waiting := r.waiting + 1 })

def shown (event : CommittedEvent) : CommittedEvent :=
  if r.host.sees event then event
  else { event with request := { event.request with payload := .canonicalJson (.json (.object [])) } }

/-- A waiting `next` takes the delivery from the channel. -/
def receive (batch : Batch) : Wake × Runner :=
  (.events (batch.val.map r.shown), { r with
    waiting := r.waiting - 1
    host := { r.host.revealEventBlobs batch.val with emitCall := false }
    slot := r.slot.take })

/-- A waiting `next` takes the stop command, or notices the shutdown. -/
def halt : Wake × Runner :=
  (.stop, { r with waiting := r.waiting - 1, stopCommand := false, stopping := true })

/-- What `commit` checks of an outcome; the cause of its events if it passes. -/
def commitCause (outcome : GuestOutcome) : Except RuntimeError (Option EventId) :=
  if MAX_OUTCOME_EVENTS < outcome.events.length then .error { message := "outcome proposes too many events" }
  else
    match r.slot.pending with
    | some (batch, _) =>
      let low := (batch.val.head?.map (·.sequence)).getD 0
      let high := (batch.val.getLast?.map (·.sequence)).getD 0
      if outcome.checkpoint.any fun c => low ≤ c && c ≤ high then
        .ok (match batch.val with
          | [event] => some event.eventId
          | _ => none)
      else .error { message := "checkpoint must identify a delivered event" }
    | none =>
      if outcome.checkpoint.isSome then
        .error { message := "external commit cannot advance delivery checkpoint" }
      else if outcome.events.any fun event => event.idempotencyKey.all (· = "") then
        .error { message := "external events require idempotency keys" }
      else .ok none

/-- `commit` up to the point where it waits for the gate. -/
def commit (outcome : GuestOutcome) : Option HostError × Runner :=
  if !r.active || r.host.replaying then (some streamDenied, r)
  else if r.slot.pending.isSome && r.interrupted then (some ⟨.cancelled, "call cancelled"⟩, r)
  else
    match r.commitCause outcome with
    | .error error => (some ⟨.internal, error.message⟩, r)
    | .ok _ => (none, { r with committing := some outcome })

def settle (answer : Outcome) (store : Store) : Runner :=
  { r with store := store, checkpoint := answer.checkpoint }

def transaction (draws : Draws) (outcome : GuestOutcome) : Except RuntimeError (Outcome × Store) :=
  match r.commitCause outcome with
  | .error error => .error error
  | .ok cause =>
    r.host.transact "cannot commit source output: " r.store draws cause .handle r.checkpoint outcome

def publish (answer : Outcome) : Runner :=
  match r.slot.pending with
  | some (_, id) => { r with slot := r.slot.answer id (.ok answer) }
  | none => if answer.events = [] then r else { r with output := r.output ++ [.ok answer] }

def finishCommit (draws : Draws) (outcome : GuestOutcome) : Except HostError Unit × Runner :=
  match r.transaction draws outcome with
  | .error error => (.error ⟨.internal, error.message⟩, { r with committing := none })
  | .ok (answer, store) =>
    (.ok (), { (r.settle answer store).publish answer with
      committing := none
      host := { r.host with emitCall := true } })

def reject (error : GuestError) : Except HostError Unit × Runner :=
  match r.slot.pending with
  | none => (.error ⟨.conflict, "no internal delivery"⟩, r)
  | some (_, id) => (.ok (), { r with
      slot := r.slot.answer id (.error (pluginFailure error))
      host := { r.host with emitCall := true } })

/-- The source task ends. A loop that ends before shutdown has failed. A delivery still
pending is answered with the failure; without one its reply channel is dropped. -/
def finishTask (result : Except RuntimeError Unit) : Runner :=
  let result := if r.stopping then result else
    match result with
    | .ok () => .error (RuntimeError.trap "source loop exited before shutdown")
    | .error error => .error error
  let failure := match result with
    | .ok () => RuntimeError.trap "source task stopped during delivery"
    | .error error => error
  { r with
    active := false
    host := r.host.releaseHandles
    slot := match r.slot.pending with
      | some (_, id) => r.slot.answer id (.error failure)
      | none => r.slot
    output := match result with
      | .ok () => r.output
      | .error error => r.output ++ [.error error] }

def deliver (batch : Batch) : Runner := { r with slot := r.slot.post batch }

/-- A commit of the host itself: the cursor moves and the given events are recorded. -/
def hostCommit (failed : String) (draws : Draws) (checkpoint : Nat) (events : List AppendRequest) :
    Except RuntimeError Outcome × Runner :=
  match r.store.commit draws ⟨r.host.cursor, r.checkpoint, some checkpoint, [], events⟩ with
  | .error error => (.error { message := failed ++ error.toString }, r)
  | .ok (receipt, store) =>
    (.ok ⟨receipt.events, receipt.checkpoint⟩, r.settle ⟨receipt.events, receipt.checkpoint⟩ store)

def skip (draws : Draws) (checkpoint : Nat) : Except RuntimeError Outcome × Runner :=
  r.hostCommit (if r.idle then "cannot skip delivery: " else "") draws checkpoint []

def skipWithEvents (draws : Draws) (checkpoint : Nat) (events : List AppendRequest) :
    Except RuntimeError Outcome × Runner :=
  r.hostCommit "cannot skip delivery: " draws checkpoint events

def coreCommit (draws : Draws) (cause : Option EventId) (phase : CommitPhase) (outcome : GuestOutcome) :
    Except RuntimeError Outcome × Runner :=
  if MAX_OUTCOME_EVENTS < outcome.events.length then
    (.error { message := "outcome proposes too many events" }, r)
  else
    match r.host.transact "cannot commit delivery: " r.store draws cause phase r.checkpoint outcome with
    | .error error => (.error error, r)
    | .ok (answer, store) => (.ok answer, r.settle answer store)

def cancel : Runner := { r with cancelled := true }

/-- Re-arms for the next delivery. Shutdown survives it. -/
def reset : Runner := { r with cancelled := false }

def stop : Runner := { r with cancelled := true, shutdown := true, stopCommand := !r.idle }

/-- Commits the startup output the guest has submitted with `ready`. -/
def init (draws : Draws) (outcome : GuestOutcome) : Except RuntimeError Outcome × Runner :=
  let done := r.coreCommit draws (some r.host.delivery.originEventId) .init outcome
  (done.1, { done.2 with started := none, initialized := done.1.isOk })

def start : Runner :=
  { r with idle := false, initialized := false, active := true, stopping := false, startup := false,
           stopCommand := false, host := { r.host with emitCall := true } }

/-- The final call of a stopped instance, with its own deadline. -/
def lastCommit (draws : Draws) (outcome : GuestOutcome) : Except RuntimeError Outcome × Runner :=
  let done := r.coreCommit draws none .stop outcome
  (done.1, done.2.reset)

inductive Actor where
  | guest
  | host
  | others
deriving DecidableEq, Repr

/-- One step of the protocol. The guest is held while a `commit` of its is at work. The host
holds the instance exclusively, so it sends a delivery, skips or stops only when no delivery
waits for its reply; it may cancel at any time, also for shutdown, but re-arms only when no delivery
waits. A call it drops takes the instance with it.
Other writers leave the instance's cursor alone. -/
inductive Step : Actor → Runner → Runner → Prop
  | ready {r : Runner} (hfree : r.committing = none) (events : List Proposal) (mutations : List StateMutation) :
      Step .guest r (r.ready events mutations).2
  | next {r : Runner} (hfree : r.committing = none) : Step .guest r r.next.2
  | receive {r : Runner} {batch : Batch} {id : Nat} (hfree : r.committing = none)
      (hwaiting : 0 < r.waiting) (hinbox : r.slot.inbox = some (batch, id)) : Step .guest r (r.receive batch).2
  | halt {r : Runner} (hfree : r.committing = none) (hwaiting : 0 < r.waiting)
      (hstop : r.stopCommand = true ∨ r.shutdown = true) : Step .guest r r.halt.2
  | forget {r : Runner} (hfree : r.committing = none) (hwaiting : 0 < r.waiting) :
      Step .guest r { r with waiting := r.waiting - 1 }
  | commit {r : Runner} (hfree : r.committing = none) (outcome : GuestOutcome) : Step .guest r (r.commit outcome).2
  | finishCommit {r : Runner} {outcome : GuestOutcome} (h : r.committing = some outcome) (draws : Draws) :
      Step .guest r (r.finishCommit draws outcome).2
  | reject {r : Runner} (hfree : r.committing = none) (error : GuestError) : Step .guest r (r.reject error).2
  | finishTask {r : Runner} (hfree : r.committing = none) (hactive : r.active = true)
      (result : Except RuntimeError Unit) : Step .guest r (r.finishTask result)
  | begin {r : Runner} (hidle : r.idle = true) : Step .host r { r with startup := true }
  | init {r : Runner} {outcome : GuestOutcome} (hidle : r.idle = true) (hcalling : r.slot.calling = none)
      (hstarted : r.started = some outcome) (draws : Draws) : Step .host r (r.init draws outcome).2
  | replay {r : Runner} (hidle : r.idle = true) (replaying : Bool) :
      Step .host r { r with host := { r.host with replaying := replaying } }
  | rebuild {r : Runner} (hidle : r.idle = true) (hcalling : r.slot.calling = none) (draws : Draws)
      (mutations : List StateMutation) : Step .host r (r.coreCommit draws none .handle ⟨[], mutations, none⟩).2
  | start {r : Runner} (hidle : r.idle = true) (hinitialized : r.initialized = true) : Step .host r r.start
  | deliver {r : Runner} (hidle : r.idle = false) (hcalling : r.slot.calling = none) (batch : Batch) :
      Step .host r (r.deliver batch)
  | collect {r : Runner} {id : Nat} (hcalling : r.slot.calling = some id) (hreplied : r.slot.replied id) :
      Step .host r { r with slot := r.slot.collect }
  | cancel {r : Runner} : Step .host r r.cancel
  | shutdown {r : Runner} : Step .host r { r.cancel with shutdown := true }
  | reset {r : Runner} (hcalling : r.slot.calling = none) : Step .host r r.reset
  | skip {r : Runner} (hcalling : r.slot.calling = none) (draws : Draws) (checkpoint : Nat) :
      Step .host r (r.skip draws checkpoint).2
  | skipWithEvents {r : Runner} (hcalling : r.slot.calling = none) (draws : Draws) (checkpoint : Nat)
      (events : List AppendRequest) : Step .host r (r.skipWithEvents draws checkpoint events).2
  | stop {r : Runner} (hcalling : r.slot.calling = none) : Step .host r r.stop
  | join {r : Runner} (hactive : r.active = false) : Step .host r { r with idle := true }
  | lastCommit {r : Runner} (hidle : r.idle = true) (hcalling : r.slot.calling = none) (draws : Draws)
      (outcome : GuestOutcome) : Step .host r (r.lastCommit draws outcome).2
  | drop {r : Runner} : Step .host r (instantiate r.host r.store r.slot.abandon)
  | dropCommitting {r : Runner} {outcome : GuestOutcome} {draws : Draws} {answer : Outcome} {store : Store}
      (h : r.committing = some outcome) (hcommit : r.transaction draws outcome = .ok (answer, store)) :
      Step .host r (instantiate r.host store r.slot.abandon)
  | others {r : Runner} {store : Store} (h : Store.Step r.store store)
      (hcursor : store.cursor r.host.cursor = r.store.cursor r.host.cursor) :
      Step .others r { r with store := store }

end Runner

end Pluribus.Runtime
