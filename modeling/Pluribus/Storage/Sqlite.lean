import Mathlib.Data.List.Sort
import Pluribus.Core.Delivery
import Pluribus.Lib.Transaction
import Pluribus.Storage.Row

namespace Pluribus.Storage.Sqlite

open Lib Pluribus.Core Storage.Row

/-- One row of the `streams` table, found by its stream. -/
structure StreamRow where
  streamKind : Int
  nextSequence : Int
deriving DecidableEq, Repr

structure Database where
  streams : Table StreamId StreamRow
  events : List EventRow
  componentStateNamespaces : Table StateNamespace Nat
  componentState : Table (StateNamespace × String) Bytes
  deliveryCursors : Table CursorKey Nat
deriving DecidableEq, Repr

def Database.empty : Database := ⟨[], [], [], [], []⟩

/-- What one call receives from outside the database, by the number of the step that asks:
fresh event identifiers, the clock, and the failures of SQL statements. -/
structure Outside where
  nextEventId : Nat → EventId
  nowMs : Nat → Int
  failure : Nat → Option String

structure Session where
  database : Database
  step : Nat

variable {α ε : Type}

def statement (o : Outside) (f : Database → Except String (α × Database)) : Tx Session String α := fun s =>
  match o.failure s.step with
  | some message => .error message
  | none =>
    match f s.database with
    | .ok (a, database) => .ok (a, ⟨database, s.step + 1⟩)
    | .error message => .error message

def select (o : Outside) (f : Database → Except String α) : Tx Session String α :=
  statement o fun database => (f database).map fun a => (a, database)

def execute (o : Outside) (f : Database → Except String Database) : Tx Session String Unit :=
  statement o fun database => (f database).map fun database' => ((), database')

def draw (source : Nat → α) : Tx Session ε α := fun s => .ok (source s.step, ⟨s.database, s.step + 1⟩)

def transaction (o : Outside) (storage : String → ε) (work : Tx Session ε α) : Tx Session ε α := do
  Tx.mapError storage (execute o .ok)
  let result ← work
  Tx.mapError storage (execute o .ok)
  pure result

/-- One call of the store. A transaction dropped on an error exit rolls back. -/
def call (work : Tx Session ε α) (database : Database) : Except ε α × Database :=
  let outcome := Tx.atomically work ⟨database, 0⟩
  (outcome.1, outcome.2.database)

def stateRevision (ns : StateNamespace) (database : Database) : Nat :=
  (database.componentStateNamespaces.find ns).getD 0

def insertNamespace (ns : StateNamespace) (database : Database) : Database :=
  { database with
    componentStateNamespaces := database.componentStateNamespaces.insertOrIgnore ns 0 }

def setRevision (ns : StateNamespace) (revision : Nat) (database : Database) : Database :=
  { database with
    componentStateNamespaces :=
      database.componentStateNamespaces.update ns fun _ => revision }

def mutate (ns : StateNamespace) : StateMutation → Database → Database
  | .set key value, database =>
    { database with componentState := database.componentState.upsert (ns, key) value }
  | .delete key, database =>
    { database with componentState := database.componentState.deleteWhere (· = (ns, key)) }

def readCheckpoint (cursor : CursorKey) (database : Database) : Nat :=
  (database.deliveryCursors.find cursor).getD 0

def setCheckpoint (cursor : CursorKey) (checkpoint : Nat) (database : Database) : Database :=
  { database with deliveryCursors := database.deliveryCursors.upsert cursor checkpoint }

def selectKey (stream : StreamId) (key : String) (database : Database) : Except String (Option CommittedEvent) :=
  match database.events.find? fun row => row.streamId = stream ∧ row.deduplicationKey = some key with
  | some row => (decodeEvent row).map some
  | none => .ok none

def insertStream (stream : StreamId) (streamKind : Int) (database : Database) : Database :=
  { database with streams := database.streams.insertOrIgnore stream ⟨streamKind, 1⟩ }

def selectStream (stream : StreamId) (database : Database) : Except String StreamRow :=
  match database.streams.find stream with
  | some row => .ok row
  | none => .error "Query returned no rows"

def eventExists (eventId : EventId) (database : Database) : Bool :=
  database.events.any (·.eventId = eventId)

/-- The primary key and the two `UNIQUE` constraints of the `events` table. -/
def conflicts (row other : EventRow) : Bool :=
  other.eventId = row.eventId ∨
  (other.streamId = row.streamId ∧ other.sequence = row.sequence) ∨
  (other.streamId = row.streamId ∧ row.deduplicationKey.isSome ∧
    other.deduplicationKey = row.deduplicationKey)

def insertRow (row : EventRow) (database : Database) : Except String Database :=
  if ¬ row.check then .error "CHECK constraint failed: events"
  else if database.events.any (conflicts row) then .error "UNIQUE constraint failed: events"
  else .ok { database with events := database.events ++ [row] }

def setNextSequence (stream : StreamId) (sequence : Int) (database : Database) : Database :=
  { database with
    streams := database.streams.update stream fun row => { row with nextSequence := sequence } }

def insertEvent (o : Outside) (request : AppendRequest) (eventId : EventId) (sequence recordedAtMs : Int) :
    Tx Session AppendError Unit := do
  Tx.mapError .storage (execute o (insertRow (encodeEvent request eventId sequence recordedAtMs)))
  Tx.mapError .storage
    (execute o fun database => .ok (setNextSequence request.streamId (sequence + 1) database))

def appendFresh (o : Outside) (request : AppendRequest) : Tx Session AppendError CommittedEvent := do
  let streamKind := encodeStreamKind request.streamKind
  Tx.mapError .storage
    (execute o fun database => .ok (insertStream request.streamId streamKind database))
  let stored ← Tx.mapError .storage (select o (selectStream request.streamId))
  if stored.streamKind ≠ streamKind then
    Tx.fail (.invalidEvent ("stream kind changed for " ++ request.streamId))
  else if stored.nextSequence ≤ 0 ∨ stored.nextSequence = i64Max then
    Tx.fail (.storage "stream sequence exhausted")
  else do
    let eventId ← draw o.nextEventId
    let collision ← Tx.mapError .storage (select o fun database => .ok (eventExists eventId database))
    if collision then Tx.fail (.storage ("event ID collision: " ++ eventId))
    else do
      let recordedAtMs ← draw o.nowMs
      insertEvent o request eventId stored.nextSequence recordedAtMs
      pure ⟨CommittedEvent.SCHEMA, eventId, stored.nextSequence.toNat, recordedAtMs, request⟩

/-- Appends one event inside a caller-owned transaction. -/
def appendIn (o : Outside) (request : AppendRequest) : Tx Session AppendError CommittedEvent := do
  Tx.ofExcept request.validate
  match request.deduplicationKey with
  | none => appendFresh o request
  | some key =>
    let existing ← Tx.mapError .storage (select o (selectKey request.streamId key))
    match existing with
    | some event => pure event
    | none => appendFresh o request

def append (o : Outside) (request : AppendRequest) : Database → Except AppendError CommittedEvent × Database :=
  call (transaction o .storage (appendIn o request))

def mutateAll (o : Outside) (storage : String → ε) (ns : StateNamespace)
    (mutations : List StateMutation) : Tx Session ε Unit := do
  let _ ← mutations.mapM fun mutation =>
    Tx.mapError storage (execute o fun database => .ok (mutate ns mutation database))

/-- The shared tail of `apply` and `commit`: mutations in order, then the next revision. -/
def advanceRevision (o : Outside) (storage : String → ε) (ns : StateNamespace)
    (mutations : List StateMutation) (revision : Nat) : Tx Session ε Nat := do
  mutateAll o storage ns mutations
  if revision = u64Max then Tx.fail (storage "state revision exhausted")
  else do
    Tx.mapError storage (execute o fun database => .ok (setRevision ns (revision + 1) database))
    pure (revision + 1)

def advanceState (o : Outside) (storage : String → ε) (ns : StateNamespace)
    (mutations : List StateMutation) (revision : Nat) : Tx Session ε Nat :=
  if mutations = [] then pure revision
  else advanceRevision o storage ns mutations revision

def apply (o : Outside) (ns : StateNamespace) (expectedRevision : Nat)
    (mutations : List StateMutation) : Database → Except StateError Nat × Database :=
  call (transaction o .storage do
    Tx.mapError .storage (execute o fun database => .ok (insertNamespace ns database))
    let actualRevision ← Tx.mapError .storage (select o fun database => .ok (stateRevision ns database))
    if actualRevision ≠ expectedRevision then
      Tx.fail (.conflict expectedRevision actualRevision)
    else advanceState o .storage ns mutations actualRevision)

def commitIn (o : Outside) (commit : DeliveryCommit) : Tx Session DeliveryError DeliveryReceipt := do
  let ns := commit.cursor.namespace
  let stored ← Tx.mapError .storage (select o fun database => .ok (readCheckpoint commit.cursor database))
  if stored ≠ commit.expectedCheckpoint then
    Tx.fail (.conflict commit.expectedCheckpoint stored)
  else do
    Tx.mapError .storage (execute o fun database => .ok (insertNamespace ns database))
    let current ← Tx.mapError (fun message => .state (.storage message))
      (select o fun database => .ok (stateRevision ns database))
    let revision ← advanceState o .storage ns commit.mutations current
    let events ← commit.events.mapM fun request => Tx.mapError .append (appendIn o request)
    match commit.checkpoint with
    | none => pure ⟨events, stored, revision⟩
    | some checkpoint => do
      Tx.mapError .storage
        (execute o fun database => .ok (setCheckpoint commit.cursor checkpoint database))
      pure ⟨events, checkpoint, revision⟩

def commit (o : Outside) (commit : DeliveryCommit) : Database → Except DeliveryError DeliveryReceipt × Database :=
  call do
    Tx.ofExcept commit.validate
    transaction o .storage (commitIn o commit)

def clearNamespace (ns : StateNamespace) (database : Database) : Database :=
  { database with componentState := database.componentState.deleteWhere (·.1 = ns) }

def dropNamespace (ns : StateNamespace) (database : Database) : Database :=
  { database with
    componentStateNamespaces := database.componentStateNamespaces.deleteWhere (· = ns) }

def dropCursor (cursor : CursorKey) (database : Database) : Database :=
  { database with deliveryCursors := database.deliveryCursors.deleteWhere (· = cursor) }

def discard (o : Outside) (cursor : CursorKey) : Database → Except DeliveryError Unit × Database :=
  call (transaction o .storage do
    Tx.mapError .storage (execute o fun database => .ok (clearNamespace cursor.namespace database))
    Tx.mapError .storage (execute o fun database => .ok (dropNamespace cursor.namespace database))
    Tx.mapError .storage (execute o fun database => .ok (dropCursor cursor database)))

end Pluribus.Storage.Sqlite
