import Pluribus.Listen.Inbox
import Pluribus.Lib.Journal
import Pluribus.Runtime.Commit

namespace Pluribus.Listen

open Lib Pluribus.Core Pluribus.Runtime

/-- What the listener does for a connection on which a poll has come. -/
inductive Served where
  | nothing
  | waiting (request : Json)
  | answered (answer : Json)

/-- The connector's subscription. The listener first watches for changes, then looks whether there are messages,
and from there on writes a line for each change that it is notified of; `written` tells that the connector has
lines to read, which it can still do when the listener has ended. -/
inductive Subscription where
  | closed (written : Bool)
  | requested
  | watching (notified : Bool)
  | streaming (notified written : Bool)
deriving DecidableEq

def Subscription.changed : Subscription → Subscription
  | .watching _ => .watching true
  | .streaming _ written => .streaming true written
  | subscription => subscription

def Subscription.written : Subscription → Bool
  | .closed written | .streaming _ written => written
  | _ => false

/-- The connector reads the lines that are there. -/
def Subscription.read : Subscription → Option Subscription
  | .closed true => some (.closed false)
  | .streaming notified true => some (.streaming notified false)
  | _ => none

inductive Phase where
  | off
  | listening
  | polling (connection : Nat)
deriving DecidableEq

/-- Listener, connector and host. `owed` counts the arrivals the listener has still to tell its subscribers of,
`accepted` are all requests that were ever enqueued, and `sessions` those of all listeners so far. -/
structure World where
  inbox : Inbox
  owed : Nat
  served : Nat → Served
  opened : Nat
  subscription : Subscription
  phase : Phase
  kept : Kept
  journal : Journal String Proposal
  accepted : List Request
  sessions : List String

/-- A listener that has just started and a connector that has never polled. -/
def World.start (session : String) (journal : Journal String Proposal) : World where
  inbox := .new session
  owed := 0
  served _ := .nothing
  opened := 0
  subscription := .closed false
  phase := .off
  kept := ⟨none, none⟩
  journal := journal
  accepted := []
  sessions := [session]

/-- A request arrives, its arrival is announced, or it leaves: it was answered, timed out or its client went away.
The listener restarts. The connector connects; the listener takes the subscription up, looks for messages, passes
a change on. The connector wakes up and polls, the listener serves a poll, and the connector commits the answer. At
any time it may fail: the connection is lost, a commit is refused, or the connector is restarted. -/
inductive Action where
  | arrive (request : Request)
  | announce
  | leave (id : String)
  | restart (session : String)
  | connect
  | subscribe
  | check
  | notify
  | wake
  | serve (connection : Nat)
  | commit
  | fail
deriving DecidableEq

namespace World

variable (w : World)

def arrive (limit : Nat) (request : Request) : Option World :=
  if request.requestId ∈ w.accepted.map Request.requestId ∨ receivedKey request.requestId ∈ w.journal.keys then none
  else (w.inbox.enqueue request limit).map fun inbox =>
    { w with inbox := inbox, owed := w.owed + 1, accepted := w.accepted ++ [request] }

def announce : Option World :=
  if w.owed = 0 then none else some { w with owed := w.owed - 1, subscription := w.subscription.changed }

/-- The polls that wait and the subscription end with the old listener; what it has written can still be read. -/
def restart (session : String) : Option World :=
  if session ∈ w.sessions then none
  else some { w with
    inbox := .new session
    owed := 0
    served := fun connection =>
      match w.served connection with
      | .waiting _ => .nothing
      | served => served
    subscription := .closed w.subscription.written
    sessions := session :: w.sessions }

def subscribe : Option World :=
  match w.subscription with
  | .requested => some { w with subscription := .watching false }
  | _ => none

def check : Option World :=
  match w.subscription with
  | .watching notified => some { w with subscription := .streaming notified (!w.inbox.messages.isEmpty) }
  | _ => none

def notify : Option World :=
  match w.subscription with
  | .streaming true _ => some { w with subscription := .streaming false true }
  | _ => none

def serve (connection : Nat) : Option World :=
  match w.served connection with
  | .waiting request =>
    let (answer, inbox, more) := dispatchPoll w.inbox request
    some { w with
      inbox := inbox
      served := Function.update w.served connection (.answered answer)
      subscription := if more then w.subscription.changed else w.subscription }
  | _ => none

def connect : Option World :=
  match w.phase with
  | .off => some { w with phase := .listening, subscription := .requested }
  | _ => none

def wake : Option World :=
  match w.phase, w.subscription.read with
  | .listening, some subscription => some { w with
      subscription := subscription
      served := Function.update w.served w.opened (.waiting (pollRequest w.kept))
      opened := w.opened + 1
      phase := .polling w.opened }
  | _, _ => none

def committed (output : SourceOutput) : World :=
  { w with
    journal := w.journal.record (output.events.map Proposal.keyed)
    kept := output.mutations.foldl Kept.apply w.kept
    phase := .listening }

def reply : Option Json :=
  match w.phase with
  | .polling connection =>
    match w.served connection with
    | .answered answer => some answer
    | _ => none
  | _ => none

def commit : Option World :=
  w.reply.bind fun answer => (pollOutput w.kept answer).toOption.map w.committed

def fail : World := { w with phase := .off, subscription := .closed false }

def next (limit : Nat) : Action → Option World
  | .arrive request => w.arrive limit request
  | .announce => w.announce
  | .leave id => some { w with inbox := w.inbox.remove id }
  | .restart session => w.restart session
  | .connect => w.connect
  | .subscribe => w.subscribe
  | .check => w.check
  | .notify => w.notify
  | .wake => w.wake
  | .serve connection => w.serve connection
  | .commit => w.commit
  | .fail => some w.fail

/-- There is something for the connector to do: it has lines to read or will have them, or it has no subscription. -/
def Due : Prop := w.subscription ≠ .streaming false false ∨ 0 < w.owed

/-- The connector waits, and nothing is on its way to wake it. -/
def Idle : Prop := w.phase = .listening ∧ ¬ w.Due

end World

def entry (r : Request) : String × Proposal := (received r.toJson (receivedKey r.requestId)).keyed

theorem receivedKey_inj {id id' : String} (h : receivedKey id = receivedKey id') : id = id' := by
  have hlist := congrArg String.toList h
  rw [receivedKey, receivedKey, String.toList_append, String.toList_append] at hlist
  exact String.toList_inj.mp (List.append_cancel_left hlist)

end Pluribus.Listen
