import Pluribus.Cognition.Projection
import Pluribus.Cognition.Recovery

namespace Pluribus.Cognition

open Lib Pluribus.Core Storage Pluribus.Runtime

abbrev Names := Table String Unit

/-- One agent: its instances, its router, and its position in the log. A worker is known by the
batch it was given. -/
structure Agent where
  router : Router
  projection : DispatchProjection
  external : Names
  workers : Table String (List CommittedEvent)
  cancellations : Names
  instances : Names
  streamId : StreamId
  principal : PrincipalRef
  gatedThrough : Nat
  admissionNowMs : Int
  batch : Nat
  failed : Table String String
  backoff : Table String (Nat × Int)
  reducedBatches : Names
  healthThrough : Nat

inductive AgentError where
  | runtime (error : RuntimeError)
  | router (error : RouterError)
  | storage (message : String)
  | unknownInstance (id : String)
deriving DecidableEq, Repr

namespace Agent

variable (agent : Agent)

def backoffKey (id request : String) : String := id ++ "\n" ++ request

end Agent

/-- What the loop asks of its surroundings: its own fields, the store, the authority, and the
plugin instances. `restart` stands for the restart of an instance and its `init`. -/
inductive AgentOp where
  | memory
  | update (f : Agent → Agent)
  | store (op : StoreOp)
  | resolve (event : CommittedEvent)
  | claim
  | stopped
  | checkpoint (id : String)
  | hasBackgroundOutput (id : String)
  | spawn (id : String) (batch : List CommittedEvent)
  | spawnOutput (id : String)
  | isFinished (id : String)
  | join (id : String)
  | handle (id : String) (batch : List CommittedEvent)
  | skip (id : String) (checkpoint : Nat)
  | skipWithEvents (id : String) (checkpoint : Nat) (events : List AppendRequest)
  | instantiate (id : String)
  | restart (id : String)
  | start (id : String)
  | cancel (id : String)
  | reset (id : String)
  | isCancelled (id : String)
  | pinnedSession (id : String)
  | requiresReinstantiation (id : String)

namespace AgentOp

@[reducible]
def Res : AgentOp → Type
  | memory => Agent
  | store op => op.Res
  | resolve _ => Except String Authority
  | claim => String
  | checkpoint _ => Nat
  | join _ => Option (Except RuntimeError Nat)
  | handle _ _ => Except RuntimeError Nat
  | skip _ _ | skipWithEvents _ _ _ | instantiate _ | restart _ => Except RuntimeError Unit
  | update _ | spawn _ _ | spawnOutput _ | start _ | cancel _ | reset _ => Unit
  | stopped | hasBackgroundOutput _ | isFinished _ | isCancelled _ | pinnedSession _ | requiresReinstantiation _ => Bool

end AgentOp

abbrev AgentM := ExceptT AgentError (Prog AgentOp AgentOp.Res)

namespace AgentM

def perform (op : AgentOp) : AgentM op.Res := ExceptT.lift (Prog.perform op)

def get : AgentM Agent := perform .memory

def modify (f : Agent → Agent) : AgentM Unit := perform (.update f)

def route {α : Type} (x : RouterM α) : AgentM α := do
  match ← (ExceptT.lift (x.run.lift .store fun _ r => r) : AgentM (Except RouterError α)) with
  | .ok value => pure value
  | .error error => throw (.router error)

def guest {α : Type} (x : AgentM (Except RuntimeError α)) : AgentM α := do
  match ← x with
  | .ok value => pure value
  | .error error => throw (.runtime error)

end AgentM

end Pluribus.Cognition
