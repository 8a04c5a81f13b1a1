import Pluribus.Email.Wire

namespace Pluribus.Email

open Lib Pluribus.Core Pluribus.Runtime

def IDLE_RENEW_MS : Nat := 25 * 60 * 1000

structure Config where
  mailbox : String
  maxMessageBytes : Nat
  batch : Nat
  importHistory : Bool
  mailbox_named : mailbox ≠ ""
  batch_pos : 0 < batch

structure Account where
  username : String
  password : String

/-- Where the mailbox has been read to, as it is stored. -/
structure StoredCursor where
  uidValidity : Nat
  lastUid : Nat
deriving DecidableEq, Repr

structure Fetched where
  uid : Nat
  internalDate : Option String
  size : Nat
  bytes : List UInt8
  truncated : Bool

def proposal (payload : Json) (key : String) : Proposal where
  eventType := "observation.received"
  payloadSchema := "dev.pluribus.email.observation.v1"
  payload := .canonicalJson (.json payload)
  idempotencyKey := some key
  causationId := none

def conversationId (mailbox : String) : String := "email:" ++ mailbox

def resynchronized (mailbox : String) (stored : StoredCursor) (opened : Mailbox) (now : Int) : Proposal :=
  proposal (Json.ofFields [
    ("provider", .string "email"),
    ("kind", .string "mailbox-resynchronized"),
    ("conversationId", .string (conversationId mailbox)),
    ("externalSenderId", .string ""),
    ("mailbox", .string mailbox),
    ("previousUidValidity", Json.ofNat stored.uidValidity),
    ("uidValidity", Json.ofNat opened.uidValidity),
    ("previousLastUid", Json.ofNat stored.lastUid),
    ("observedAtMs", Json.ofInt now),
    ("trusted", .bool false),
    ("message", Json.ofFields [("text", .string ("Mailbox " ++ mailbox ++
      " was renumbered. Messages that arrived before the reset were not observed."))])])
    ("email:" ++ mailbox ++ ":resync:" ++ opened.uidValidity.repr)

/-- Where to resume from, and the notice of a mailbox that was renumbered. -/
def reconcile (mailbox : String) (stored : Option StoredCursor) (opened : Mailbox) (importHistory : Bool) (now : Int) :
    StoredCursor × List Proposal :=
  let boundary := opened.uidNext - 1
  match stored with
  | none => (⟨opened.uidValidity, if importHistory then 0 else boundary⟩, [])
  | some stored =>
    if stored.uidValidity = opened.uidValidity then (⟨opened.uidValidity, min stored.lastUid boundary⟩, [])
    else (⟨opened.uidValidity, boundary⟩, [resynchronized mailbox stored opened now])

/-- The key of a message: mailbox, UIDVALIDITY and UID. -/
def messageKey (mailbox : String) (uidValidity uid : Nat) : String :=
  "email:" ++ mailbox ++ ":" ++ uidValidity.repr ++ ":" ++ uid.repr

inductive Command where
  | capability
  | login (user password : String)
  | examine (mailbox : String)
  | searchAll
  | searchSince (after : Nat)
  | fetchSize (uid : Nat)
  | fetchBody (uid : Nat) (truncated : Bool)
  | idle
deriving DecidableEq, Repr

/-- What the connector does, in the order it does it: it sends a command or ends IDLE, takes a response,
blocks in an idle wait, or commits what it has observed. -/
inductive Act where
  | send (tag : String) (command : Command)
  | done
  | read (response : Response)
  | block
  | commit (proposals : List Proposal) (cursor : StoredCursor)
deriving DecidableEq

/-- The messages of one `catch_up`: the one that is fetched, the ones after it, the observations so
far, and whether the search has filled the batch. -/
structure Batch where
  uid : Nat
  rest : List Nat
  proposals : List Proposal
  complete : Bool

/-- Where `session` waits, for a response or for a commit. -/
inductive Phase where
  | greet
  | capabilities (pending : Pending)
  | login (pending : Pending)
  | examine (pending : Pending)
  | highestUid (opened : Mailbox) (pending : Pending)
  | opening (cursor : StoredCursor) (notice : List Proposal)
  | searchSince (cursor : StoredCursor) (pending : Pending)
  | fetchSize (cursor : StoredCursor) (batch : Batch) (pending : Pending)
  | fetchBody (cursor : StoredCursor) (batch : Batch) (size : Nat) (pending : Pending)
  | committing (cursor : StoredCursor) (proposals : List Proposal) (complete : Bool)
  | idleBegin (cursor : StoredCursor) (tag : String)
  | idle (cursor : StoredCursor) (tag : String) (entered : Nat)
  | idleEnd (cursor : StoredCursor) (pending : Pending)
  | ended (result : Except HostError Unit)

/-- What a step of the session meets: the answers of transport and host, the clocks, whether the
component has been told to stop, and whether it is taken down here. -/
structure Surroundings where
  connect : Except HostError Unit
  send : Except HostError Unit
  chunk : Chunk
  commit : Except HostError Unit
  stored : Except HostError (Option StoredCursor)
  now : Int
  monotonic : Nat
  stopping : Bool
  crash : Bool

structure Session where
  connection : Connection
  phase : Phase

def Session.initial : Session := ⟨.new, .ended (.ok ())⟩

section Step

-- `render` is `from_message` up to the key: the message is parsed and its attachments are stored.
variable (render : StoredCursor → Fetched → Int → Except HostError Json) (config : Config) (account : Account)
  (around : Surroundings)

def finish (connection : Connection) (result : Except HostError Unit) : List Act × Session :=
  ([], ⟨connection, .ended result⟩)

def issue (connection : Connection) (command : Command) (next : Pending → Phase) : List Act × Session :=
  match around.send with
  | .error error => finish connection.nextTag.2 (.error error)
  | .ok () =>
    ([.send connection.nextTag.1 command], ⟨connection.nextTag.2, next ⟨connection.nextTag.1, []⟩⟩)

def startSearch (connection : Connection) (cursor : StoredCursor) : List Act × Session :=
  issue around connection (.searchSince cursor.lastUid) (.searchSince cursor)

def startIdle (connection : Connection) (cursor : StoredCursor) : List Act × Session :=
  issue around connection .idle fun pending => .idleBegin cursor pending.tag

/-- After a search: the first message is fetched, or there is nothing and the session idles. -/
def startBatch (connection : Connection) (cursor : StoredCursor) : List Nat → List Act × Session
  | [] => startIdle around connection cursor
  | uid :: rest => issue around connection (.fetchSize uid)
      (.fetchSize cursor ⟨uid, rest, [], (uid :: rest).length = config.batch⟩)

def passMessage (connection : Connection) (cursor : StoredCursor) (batch : Batch) (observation : List Proposal) :
    List Act × Session :=
  let cursor := { cursor with lastUid := max cursor.lastUid batch.uid }
  let proposals := batch.proposals ++ observation
  match batch.rest with
  | [] => ([], ⟨connection, .committing cursor proposals batch.complete⟩)
  | uid :: rest => issue around connection (.fetchSize uid) (.fetchSize cursor ⟨uid, rest, proposals, batch.complete⟩)

def open_ (connection : Connection) (opened : Mailbox) : List Act × Session :=
  match around.stored with
  | .error error => finish connection (.error error)
  | .ok stored =>
    let (cursor, notice) := reconcile config.mailbox stored opened config.importHistory around.now
    ([], ⟨connection, .opening cursor notice⟩)

def completed (connection : Connection) (phase : Phase) (completion : Completion) : List Act × Session :=
  match phase with
  | .capabilities _ =>
    match requireOk completion "CAPABILITY" with
    | .error error => finish connection (.error error)
    | .ok () =>
      let names := completion.untagged.flatMap fun response =>
        match Text.after "* CAPABILITY ".toList response.text.toList with
        | none => []
        | some list => (Text.split ' ' list).map (·.map Char.toUpper)
      if !names.contains "IDLE".toList then finish connection (.error ⟨.unsupported,
        "endpoint does not advertise IDLE; this connector observes server push only"⟩)
      else if account.username.isEmpty || account.password.isEmpty then
        finish connection (.error ⟨.invalidArgument, "credential is missing a username or password"⟩)
      else
        match (do return (← quoted account.username, ← quoted account.password)) with
        | .error error => finish connection (.error error)
        | .ok (user, password) => issue around connection (.login user password) .login
  | .login _ =>
    if completion.status = .ok then
      match quoted config.mailbox with
      | .error error => finish connection (.error error)
      | .ok mailbox => issue around connection (.examine mailbox) .examine
    else finish connection (.error ⟨.permissionDenied, "endpoint rejected the credential"⟩)
  | .examine _ =>
    match requireOk completion "EXAMINE" with
    | .error error => finish connection (.error error)
    | .ok () =>
      let opened := Mailbox.opened completion.untagged
      if opened.uidValidity = 0 then finish connection (.error (unavailable "endpoint reported no UIDVALIDITY"))
      else if opened.uidNext = 0 then issue around connection .searchAll (.highestUid opened)
      else open_ config around connection opened
  | .highestUid opened _ =>
    match requireOk completion "UID SEARCH" with
    | .error error => finish connection (.error error)
    | .ok () => open_ config around connection
        { opened with uidNext := min (highestUid completion.untagged + 1) u64Max }
  | .searchSince cursor _ =>
    match requireOk completion "UID SEARCH" with
    | .error error => finish connection (.error error)
    | .ok () => startBatch config around connection cursor
        (searchSince completion.untagged cursor.lastUid config.batch)
  | .fetchSize cursor batch _ =>
    match requireOk completion "UID FETCH" with
    | .error error => finish connection (.error error)
    | .ok () =>
      match (fetchItems completion.untagged batch.uid).bind (·.size) with
      | none => passMessage around connection cursor batch []
      | some size => issue around connection (.fetchBody batch.uid (config.maxMessageBytes < size))
          (.fetchBody cursor batch size)
  | .fetchBody cursor batch size _ =>
    match requireOk completion "UID FETCH" with
    | .error error => finish connection (.error error)
    | .ok () =>
      match fetchItems completion.untagged batch.uid with
      | none => passMessage around connection cursor batch []
      | some items =>
        match render cursor ⟨batch.uid, items.internalDate, size, items.body.getD [], config.maxMessageBytes < size⟩
            around.now with
        | .error error => finish connection (.error error)
        | .ok payload => passMessage around connection cursor batch
            [proposal payload (messageKey config.mailbox cursor.uidValidity batch.uid)]
  | .idleEnd cursor _ =>
    match requireOk completion "IDLE" with
    | .error error => finish connection (.error error)
    | .ok () => startSearch around connection cursor
  | phase => ([], ⟨connection, phase⟩)

/-- The command whose completion is awaited in a phase, and the phase with more of it. -/
def Phase.pending : Phase → Option (Pending × (Pending → Phase))
  | .capabilities pending => some (pending, .capabilities)
  | .login pending => some (pending, .login)
  | .examine pending => some (pending, .examine)
  | .highestUid opened pending => some (pending, .highestUid opened)
  | .searchSince cursor pending => some (pending, .searchSince cursor)
  | .fetchSize cursor batch pending => some (pending, .fetchSize cursor batch)
  | .fetchBody cursor batch size pending => some (pending, .fetchBody cursor batch size)
  | .idleEnd cursor pending => some (pending, .idleEnd cursor)
  | _ => none

def idleOn (connection : Connection) (cursor : StoredCursor) (tag : String) (entered : Nat) : List Act × Session :=
  if around.stopping then finish connection (.ok ())
  else ([], ⟨connection, .idle cursor tag entered⟩)

def leaveIdle (connection : Connection) (cursor : StoredCursor) (tag : String) : List Act × Session :=
  match around.send with
  | .error error => finish connection (.error error)
  | .ok () => ([.done], ⟨connection, .idleEnd cursor ⟨tag, []⟩⟩)

def idleRound (connection : Connection) (cursor : StoredCursor) (tag : String) (entered : Nat) : List Act × Session :=
  if IDLE_RENEW_MS ≤ around.monotonic - entered then leaveIdle around connection cursor tag
  else idleOn around connection cursor tag entered

def received (connection : Connection) (phase : Phase) (reading : Reading) : List Act × Session :=
  match phase, reading with
  | phase, .waiting => ([], ⟨connection, phase⟩)
  | _, .failed error => finish connection (.error error)
  | .greet, .nothing => finish connection (.error (unavailable "endpoint sent no greeting"))
  | .greet, .response response =>
    if Text.startsWith "* OK" response.text then issue around connection .capability .capabilities
    else if Text.startsWith "* PREAUTH" response.text then finish connection (.error ⟨.permissionDenied,
      "endpoint pre-authenticated a session this connector did not open"⟩)
    else finish connection (.error (unavailable ("endpoint refused the session: " ++ response.text)))
  | .idleBegin _ _, .nothing => finish connection (.error (unavailable "endpoint closed before accepting IDLE"))
  | .idleBegin cursor tag, .response response =>
    if response.isContinuation then idleOn around connection cursor tag around.monotonic
    else if Text.startsWith tag response.text then finish connection (.error (unavailable "endpoint refused IDLE"))
    else ([], ⟨connection, .idleBegin cursor tag⟩)
  | .idle cursor tag entered, .nothing => idleRound around connection cursor tag entered
  | .idle cursor tag entered, .response response =>
    if response.announcesArrival then leaveIdle around connection cursor tag
    else idleRound around connection cursor tag entered
  | phase, reading =>
    match phase.pending with
    | none => ([], ⟨connection, phase⟩)
    | some (pending, more) =>
      match pending.collect reading with
      | .more pending => ([], ⟨connection, more pending⟩)
      | .failed error => finish connection (.error error)
      | .complete completion => completed render config account around connection phase completion

/-- The response a read has taken, and whether the connector has blocked for it in an idle wait. -/
def readActs (s : Session) : List Act :=
  match s.connection.buffer, s.phase with
  | .ok response :: _, _ => [.read response]
  | .error _ :: _, _ => []
  | [], .idle _ _ _ => [.block]
  | [], _ => []

def Session.readOn (s : Session) : List Act × Session :=
  let (reading, connection) := s.connection.read around.chunk
  let (acts, s') := received render config account around connection s.phase reading
  (readActs s ++ acts, s')

/-- One step of the connector: a new session, a commit, or a piece of a read. -/
def Session.step (s : Session) : List Act × Session :=
  if around.crash then ([], ⟨s.connection, .ended (.error (unavailable "interrupted"))⟩)
  else
    match s.phase with
    | .ended _ =>
      match around.connect with
      | .error error => finish s.connection (.error error)
      | .ok () => ([], ⟨.new, .greet⟩)
    | .opening cursor notice =>
      match around.commit with
      | .error error => finish s.connection (.error error)
      | .ok () =>
        let (acts, s') := startSearch around s.connection cursor
        (.commit notice cursor :: acts, s')
    | .committing cursor proposals complete =>
      match around.commit with
      | .error error => finish s.connection (.error error)
      | .ok () =>
        let (acts, s') := if complete then startSearch around s.connection cursor
          else startIdle around s.connection cursor
        (.commit proposals cursor :: acts, s')
    | _ => s.readOn render config account around

end Step

def Session.run (render : StoredCursor → Fetched → Int → Except HostError Json) (config : Config) (account : Account)
    (s : Session) : List Surroundings → List Act × Session
  | [] => ([], s)
  | around :: rest =>
    let (acts, s₁) := s.step render config account around
    let (more, s₂) := s₁.run render config account rest
    (acts ++ more, s₂)

end Pluribus.Email
