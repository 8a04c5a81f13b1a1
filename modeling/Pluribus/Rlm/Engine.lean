import Pluribus.Rlm.Control

namespace Pluribus.Rlm

open Lib List

/-- Ways the engine can stop: a missing value is unwrapped, a map has no such key, or a value that
is no object is given a field. -/
inductive Panic where
  | unwrap | index | assign
deriving DecidableEq, Repr

def expect {α : Type} (panic : Panic) : Option α → Except Panic α
  | some value => .ok value
  | none => .error panic

@[simp]
theorem expect_some_bind {α β : Type} (panic : Panic) (value : α) (f : α → Except Panic β) :
    (expect panic (some value) >>= f) = f value := rfl

@[simp]
theorem expect_none_bind {α β : Type} (panic : Panic) (f : α → Except Panic β) :
    (expect panic none >>= f) = .error panic := rfl

@[simp]
theorem ok_bind {ε α β : Type} (value : α) (f : α → Except ε β) : (Except.ok value >>= f) = f value := rfl

@[simp]
theorem error_bind {ε α β : Type} (error : ε) (f : α → Except ε β) : (Except.error error >>= f) = .error error := rfl

structure Config where
  tools : List Json
  components : List Json
  budget : Compaction.BudgetConfig
  /-- The hash of a finished cell: its source, its revision, the kind of its result and what the result holds. -/
  fingerprint : String → Nat → Kind → List Json → Nat

structure Draft where
  kind : Kind
  payload : Fields
  cause : String

structure Engine where
  routingJobs : Map String (Job × Json) := .empty
  routingObservations : Map String Observation := .empty
  unloadedObservations : Map String Nat := .empty
  resourceErrors : Map String Json := .empty
  seenResults : List String := []
  scheduling : Bool := false
  jobs : Map String Job := .empty
  inbox : Map String Observation := .empty
  queue : List String := []
  nowMs : Int := 0
  sequence : Nat := 0
  tasks : Map String Task := .empty
  calls : Map String String := .empty
  budgets : Map String Nat := .empty

/-- What a step of the engine gives: its next state with the events it drafts, or a panic. -/
abbrev Outcome := Except Panic (Engine × List Draft)

def Outcome.after (drafts : List Draft) (outcome : Outcome) : Outcome :=
  outcome.map fun step => (step.1, drafts ++ step.2)

def Outcome.before (drafts : List Draft) (outcome : Outcome) : Outcome :=
  outcome.map fun step => (step.1, step.2 ++ drafts)

def satAdd (a b : Int) : Int := max (-9223372036854775808) (min 9223372036854775807 (a + b))

def satSub (a b : Int) : Int := max (-9223372036854775808) (min 9223372036854775807 (a - b))

def satEnd (after limit : Nat) : Nat := min 18446744073709551615 (after + limit)

def U32_MAX : Nat := 4294967295

def closeRequested (session cause : String) : Draft :=
  ⟨.codeCloseRequested, [("sessionId", .string session)], cause⟩

def cancelRequested (request job : String) (revision : Nat) (cause : String) : Draft :=
  ⟨.cognitionCancelRequested, [
    ("jobId", .string job),
    ("requestEventId", .string request),
    ("revision", Json.ofNat revision)], cause⟩

def timerCancel (wake : Option Wake) (cause : String) : List Draft :=
  match wake.bind Wake.request with
  | some request => [⟨.timerCancel, [("requestEventId", .string request)], cause⟩]
  | none => []

def cancelActivities (id : String) (job : Job) (cause : String) : List Draft :=
  (job.activities.rows.filter fun activity => outstanding activity.2).map fun activity =>
    cancelRequested activity.1 id job.revision cause

def resume (session : String) (id : Json) (result : Except String Json) (cause : String) : Draft :=
  let response := match result with
    | .ok value => [("id", id), ("value", value)]
    | .error error => [("error", .string error), ("id", id)]
  ⟨.codeResumed, [("response", .object response), ("sessionId", .string session)], cause⟩

structure Request where
  callId : String
  messages : History
  tools : Tools
  maxOutputTokens : Nat
  jobId : String
  revision : Nat
  vision : Bool

namespace Request

variable (request : Request)

def frame (messages : List Json) (tools : Json) : Fields := [
  ("call_id", .string request.callId),
  ("jobId", .string request.jobId),
  ("max_output_tokens", Json.ofNat request.maxOutputTokens),
  ("messages", .array messages)] ++
  (if request.vision then [("required_features", .array [.string "vision"])] else []) ++ [
  ("revision", Json.ofNat request.revision),
  ("tools", tools)]

def payload : Fields := request.frame request.messages.toJson request.tools.json

def bytes : Nat := (Json.object (request.frame [] (.array []))).bytes + request.messages.itemBytes + (request.tools.bytes - 2)

theorem bytes_payload : (Json.object request.payload).bytes = request.bytes := by
  have hmessages := request.messages.bytes_toJson
  have htools := request.tools.bytes_json
  have hpositive : 2 ≤ request.tools.bytes := by cases request.tools <;> decide
  rw [History.bytes, Json.bytes, Json.weigh, Json.commas] at hmessages
  rw [Json.bytes] at htools
  unfold payload bytes frame
  rw [Json.bytes, Json.bytes]
  cases request.vision <;>
    simp only [Json.weigh, Json.fieldsWeight, Json.itemsWeight, cons_append, nil_append, length_cons,
      length_nil, if_true, if_false, Bool.false_eq_true, htools, Json.commas] <;> omega

end Request

def closeInterruptedTools (reason : String) (task : Task) : Task :=
  (unanswered task.messages.toJson).foldl (fun task id => task.push (.result (.string id) "pluribus.code-result/1"
    (.object [("code", .string "cancelled"), ("outcome", .string "unknown"), ("reason", .string reason)])
    (.string reason))) task

namespace Engine

variable (config : Config) (e : Engine)

def originValue (job : String) : Option Json :=
  match e.tasks.find job with
  | some task => some (task.context.index "observation")
  | none => (e.routingJobs.find job).map (·.2)

def sameOrigin (job : String) (value : Json) : Bool :=
  match e.originValue job with
  | some original => sameConversation original value
  | none => false

/-- The rows of a map and those of the routing index it does not hold itself. -/
def withRouting {ν ρ : Type} (own : Map String ν) (routing : Map String ρ) (f : ρ → ν) : List ν :=
  own.values ++ (routing.rows.filter fun row => !own.contains row.1).map fun row => f row.2

def bounded (text : String) : String := Text.take 1024 text

def jobCandidates (value : Json) : List Job :=
  (((withRouting e.jobs e.routingJobs (·.1)).filter fun job =>
    automaticallyRoutable job && e.sameOrigin job.id value).insertionSort fun a b =>
      b.incorporatedSequence ≤ a.incorporatedSequence).take 12

def clarifications (value : Json) : List Observation :=
  (((withRouting e.inbox e.routingObservations id).filter fun o =>
    o.status = .waitingInput && o.job.isNone && o.outstandingQuestion.isSome && sameConversation o.value value).insertionSort
      fun a b => b.sequence ≤ a.sequence).take 4

def candidateJson (job : Job) : Json :=
  let recentUser := match job.sources.getLast?.bind e.inbox.find with
    | some o => messageText o.value
    | none => ""
  .object [
    ("id", .string job.id),
    ("objective", .string (bounded job.objective)),
    ("outstandingQuestion", optionalText (job.outstandingQuestion.map bounded)),
    ("recentReply", optionalText (job.recentReply.map bounded)),
    ("recentUserMessage", .string (bounded recentUser)),
    ("waitReason", optionalText (job.waitReason.map WaitReason.text))]

def clarificationJson (o : Observation) : Json := .object [
  ("id", .string o.id),
  ("message", .string (bounded (messageText o.value))),
  ("question", optionalText (o.outstandingQuestion.map bounded))]

def routingContext (value : Json) : Json := .object [
  ("jobs", .array ((e.jobCandidates value).map e.candidateJson)),
  ("observation", .object [("text", .string (bounded (messageText value)))]),
  ("recentClarifications", .array ((e.clarifications value).map clarificationJson))]

def historyWindow (session : String) : Option Window :=
  match e.tasks.find session with
  | some task => if task.depth = 0 then some ⟨0, U32_MAX⟩ else task.window
  | none => none

def requestedWindow (context : Fields) : Option Window := do
  let range ← Table.find context "range"
  let after ← (range.index "after").asU64
  let limit ← (range.index "limit").asU64
  if limit ≤ U32_MAX then some ⟨after, limit⟩ else none

def narrow (allowed requested : Window) : Option Window :=
  let after := max requested.after allowed.after
  let last := min (satEnd requested.after requested.limit) (satEnd allowed.after allowed.limit)
  if last > after then some ⟨after, (last - after) % 4294967296⟩ else none

def childWindow (context : Fields) (parent : Option (String × Json)) : Option Window := do
  let requested ← requestedWindow context
  let (parent, _) ← parent
  let allowed ← e.historyWindow parent
  narrow allowed requested

def newTask (revision : Nat) (root origin question : String) (context : Fields) (parent : Option (String × Json))
    (depth : Nat) (window : Option Window) : Task where
  cellRevision := revision
  revision := revision
  decisionRevision := revision
  root := root
  origin := origin
  context := context
  messages := ⟨.work, .words question, []⟩
  parent := parent
  depth := depth
  window := window

def trigger (kind origin : String) : Json := .object [("eventId", .string origin), ("kind", .string kind)]

def startRoot (id root origin : String) (observation : Json) : Engine :=
  let context : Fields := [
    ("observation", observation),
    ("observationEventId", .string origin),
    ("tools", .array config.tools),
    ("trigger", trigger "observation" origin)]
  let revision := ((e.jobs.find root).map Job.revision).getD 0
  let question := "Inspect context.observation and decide what to do."
  { e with tasks := e.tasks.insert id (newTask revision root origin question context none 0 none) }

def startChild (id root origin : String) (args : Json) (parent : String × Json) (depth : Nat) :
    Except Panic Engine :=
  match args.assign "trigger" (trigger "child-query" origin) with
  | some (.object context) =>
    let window := e.childWindow context (some parent)
    let question := ((args.index "question").asStr).getD "Inspect context"
    let revision := ((e.jobs.find root).map Job.revision).getD 0
    let context := Fields.set "range" (Json.ofOption Window.toJson window) context
    .ok { e with tasks := e.tasks.insert id (newTask revision root origin question context (some parent) depth window) }
  | _ => .error .assign

def sleep (session : String) (status : JobStatus) (due : Int) (cause : String) : Outcome := do
  let task ← expect .index (e.tasks.find session)
  let root := task.root
  match e.jobs.find root with
  | none => .ok (e, [])
  | some job =>
    let token := job.id ++ ":" ++ job.revision.repr ++ ":" ++ cause ++ ":" ++ due.repr
    let jobs := e.jobs.insert root { job with
      status := status
      waitReason := some (if status = .pausedBudget then .budget else .scheduled)
      outstandingQuestion := none
      wake := some ⟨token, none, job.revision, due⟩ }
    let timer : Draft := ⟨.timerSet, [
      ("dueAtMs", Json.ofInt due),
      ("jobId", .string root),
      ("revision", Json.ofNat job.revision),
      ("wakeToken", .string token)], cause⟩
    if status = .pausedBudget then .ok ({ e with jobs := jobs }, [timer])
    else do
      let task ← expect .unwrap (e.tasks.find root)
      let closed := closeInterruptedTools "cell interrupted by job suspension; reconcile effects before retrying" task
      let closes := (e.tasks.rows.filter fun row => row.2.root = root).map fun row => closeRequested row.1 cause
      let tasks := (e.tasks.retain fun id t => t.root ≠ root || id = root).insert root
        { closed with pending := none, cellStarted := false }
      .ok ({ e with jobs := jobs, tasks := tasks, queue := e.queue.filter tasks.contains }, timer :: closes)

def replyText (value : Json) : Option String :=
  let reply := ((value.index "reply").asStr).filter (· ≠ "")
  match (value.index "question").asStr, reply with
  | some question, some reply => some (if Text.includes question reply then reply else reply ++ "\n\n" ++ question)
  | some question, none => some question
  | none, reply => reply

def noteDecision (value : Json) (reply : Option String) (job : Job) : Job :=
  { job with
    recentReply := reply.or job.recentReply
    notes := (value.get "note").getD job.notes
    nextStep := (value.get "nextStep").getD job.nextStep
    completedSteps := (value.get "completedSteps").getD job.completedSteps
    blockers := (value.get "blockers").getD job.blockers
    completionConditions := (value.get "completionConditions").getD job.completionConditions }

def isFailure : Except String Json → Bool
  | .ok value => value.index "action" = .string "fail"
  | .error _ => true

def endRoot (session : String) (result : Except String Json) (replies : List Draft) (cause : String) :
    Engine × List Draft :=
  let failed := isFailure result
  let jobs := e.jobs.modify session fun job => { job with
    status := if failed then .failed else .completed
    wake := none
    waitReason := none
    outstandingQuestion := none }
  match e.tasks.find session with
  | none => ({ e with jobs := jobs }, [])
  | some task =>
    let payload : Fields := [
      ("error", match result with | .ok _ => .null | .error error => .string error),
      ("result", match result with | .ok value => value | .error _ => .null),
      ("root", .string task.root)]
    ({ e with jobs := jobs, tasks := e.tasks.erase session, budgets := e.budgets.erase task.root },
      ⟨if failed then .cognitionFailed else .cognitionCompleted, payload, cause⟩ :: replies ++
        [closeRequested session cause])

def replies (task : Task) (value : Json) : List Draft :=
  match (replyText value).bind fun reply => replyRequest (task.context.index "observation") (.string reply) with
  | some request => [⟨.capabilityRequested, request, task.origin⟩]
  | none => []

def finishRoot (session : String) (result : Except String Json) (cause : String) : Outcome :=
  match result with
  | .error error => .ok (e.endRoot session (.error error) [] cause)
  | .ok value => do
    let task ← expect .index (e.tasks.find session)
    let replies := replies task value
    let e := { e with jobs := e.jobs.modify session (noteDecision value (replyText value)) }
    if value.index "action" = .string "wait" then
      if value.index "waitFor" = .string "input" then do
        let job ← expect .unwrap (e.jobs.find session)
        .ok ({ e with jobs := e.jobs.insert session { job with
            status := .waitingInput
            waitReason := some .awaitingUser
            outstandingQuestion := (value.index "question").asStr } }, replies)
      else do
        let due ← expect .unwrap (value.index "dueAtMs").asI64
        (e.sleep session .waitingTime due cause).before replies
    else .ok (e.endRoot session (.ok value) replies cause)

def finish (session : String) (result : Except String String) (cause : String) : Outcome :=
  match e.tasks.find session with
  | none => .ok (e, [])
  | some task =>
    let error := match result with
      | .ok _ => none
      | .error error => some error
    match task.association, task.parent with
    | some observation, _ => do
      let pending ← expect .unwrap (e.inbox.find observation)
      .ok ({ e with
          tasks := e.tasks.erase session
          budgets := e.budgets.erase session
          inbox := e.inbox.insert observation { pending with status := .waitingInput } },
        [⟨.cognitionFailed, [("error", optionalText error), ("observationEventId", .string observation)], cause⟩])
    | none, none => e.finishRoot session (.error (error.getD "root requires yield")) cause
    | none, some (parent, id) =>
      .ok ({ e with tasks := e.tasks.erase session },
        [resume parent id (result.map Json.string) cause, closeRequested session cause])

def stalled (session reason cause : String) : Outcome := do
  let task ← expect .index (e.tasks.find session)
  if task.parent.isSome then e.finish session (.error ("Reasoning stalled: " ++ reason)) cause
  else
    e.finishRoot session (.ok (.object [
      ("action", .string "fail"),
      ("blockers", .array [.string reason]),
      ("note", .string reason),
      ("reply", .string
        "Reasoning stalled: repeated responses made no progress. This attempt has stopped.")])) cause

def resourceBudgetExhausted (session cause : String) : Outcome := do
  let reason := "resource recovery exhausted after two retries"
  let task ← expect .index (e.tasks.find session)
  if task.parent.isSome || task.association.isSome then e.finish session (.error reason) cause
  else
    e.finishRoot session (.ok (.object [
      ("action", .string "fail"),
      ("blockers", .array [.string reason]),
      ("note", .string reason),
      ("reply", .string ("This task exceeded its resource limit after two recovery attempts. It has stopped; " ++
        "Check recorded receipts before repeating any external action."))])) cause

def route (session : String) : Except Panic Engine := do
  let task ← expect .index (e.tasks.find session)
  match task.association with
  | none => .ok e
  | some observation => do
    let source ← expect .index (e.inbox.find observation)
    let task := task.setContext "routing" (e.routingContext source.value)
    let trigger := task.context.index "trigger"
    if trigger.index "kind" = .string "observation" then do
      let trigger ← expect .assign (trigger.assign "kind" (.string "routing"))
      .ok { e with tasks := e.tasks.insert session (task.setContext "trigger" trigger) }
    else .ok { e with tasks := e.tasks.insert session task }

def recentEntry (o : Observation) : Json :=
  let job := o.job.bind fun id => (e.jobs.find id).or ((e.routingJobs.find id).map (·.1))
  let reply := (job.filter fun job => job.sources.getLast? = some o.id).bind Job.recentReply
  .object [("eventId", .string o.id), ("message", .string (messageText o.value)), ("reply", optionalText reply)]

def recentConversation (task : Task) : Json :=
  let current := (((task.context.index "trigger").index "eventId").asStr).getD task.origin
  let observations := ((withRouting e.inbox e.routingObservations id).filter fun o =>
    o.id ≠ current && o.id ≠ task.origin && e.sameOrigin task.root o.value).insertionSort fun a b =>
      a.sequence ≤ b.sequence
  let unloaded := match e.originValue task.root with
    | some origin => (e.unloadedObservations.find (conversationKey origin)).getD 0
    | none => 0
  .object [
    ("availableCount", Json.ofNat (observations.length + unloaded)),
    ("entries", .array ((observations.drop (observations.length - 6)).map e.recentEntry))]

def composeContext (task : Task) (job : Option Job) : Fields :=
  let context := task.context
  let context := if task.isRoot then Fields.set "recentConversation" (e.recentConversation task) context else context
  let context := match job with
    | some job => Fields.set "job" job.toJson context
    | none => context
  let context := if task.isRoot then Fields.set "tools" (.array config.tools) context else context
  Fields.set "components" (.array config.components) context

/-- A task as it stands when the model is asked: its context and its first two messages are of now. -/
def compose (task : Task) (job : Option Job) : Task × List BlobRef :=
  let task := { task with context := e.composeContext config task job, decisionRevision := task.revision }
  let envelope := turnContext task e.nowMs
  let task := task.setContext "turn" envelope
  let images := if task.isRoot then imageParts (task.context.index (triggerInput task)) else []
  let system := if task.association.isSome then Prompt.association else .work
  ({ task with messages := { task.messages with system := system, turn := .envelope envelope images } }, images)

/-- The turn as a compaction shows it, with what was wrong with the summary before. -/
def compactionTurn (task : Task) : Except Panic Json :=
  match Table.find task.context "compactionError" with
  | some error => expect .assign ((task.context.index "turn").assign "compactionError" error)
  | none => .ok (task.context.index "turn")

def summaryRequest (task : Task) (turn : Json) (call : String) : Request :=
  let named := ((task.context.index "observationEventId").asStr).toList
  let sources := match (task.context.index "job").index "sources" with
    | .array items => items.filterMap Json.asStr
    | _ => []
  let sourceIds := ((named ++ sources).insertionSort (· ≤ ·)).dedup
  let prompt := Compaction.prompt turn (task.messages.rest.map Message.toJson) sourceIds
  { callId := call
    messages := ⟨.compaction, .envelope prompt [], []⟩
    tools := .compaction
    maxOutputTokens := config.budget.output
    jobId := task.root
    revision := task.revision
    vision := false }

def compactionRequest (session call cause : String) : Outcome := do
  let task ← expect .index (e.tasks.find session)
  if task.messages.bytes > Compaction.HARD_LIMIT - 4096 then
    e.finish session (.error "model history exceeds the hard context ceiling before compaction") cause
  else
    let turn ← compactionTurn task
    let request := summaryRequest config task turn call
    if request.messages.bytes > Compaction.HARD_LIMIT ∨ request.bytes > Compaction.HARD_LIMIT then
      e.finish session (.error "compaction request exceeds the hard context ceiling") cause
    else if !Compaction.tokenBudgetOk request.bytes config.budget then
      e.finish session (.error "compaction request exceeds the configured input token budget") cause
    else
      .ok ({ e with
          tasks := e.tasks.insert session { task with compacting := true }
          calls := e.calls.insert call session },
        [⟨.modelRequested, request.payload, task.origin⟩])

def INVALID_HISTORY : String :=
  "Cannot continue: conversation contains an unmatched or misplaced tool result."

def decisionRequest (task : Task) (vision : Bool) (call : String) : Request where
  callId := call
  messages := task.messages
  tools := if task.association.isSome then .association else if task.parent.isSome then .child else .root
  maxOutputTokens := config.budget.output
  jobId := task.root
  revision := task.revision
  vision := vision

def submit (session : String) (task : Task) (vision : Bool) (call cause : String) : Outcome :=
  if task.messages.bytes > Compaction.HARD_LIMIT then e.finish session (.error "model context limit") cause
  else if Compaction.admission task.messages.bytes config.budget = .compact then
    e.compactionRequest config session call cause
  else if !validToolHistory task.messages.toJson then
    if task.isRoot then
      e.finishRoot session (.ok (.object [("action", .string "fail"), ("reply", .string INVALID_HISTORY)])) cause
    else e.finish session (.error INVALID_HISTORY) cause
  else
    let request := decisionRequest config task vision call
    if request.bytes > Compaction.HARD_LIMIT then e.finish session (.error "model context limit") cause
    else
      match Compaction.admission request.bytes config.budget with
      | .compact => e.compactionRequest config session call cause
      | .reject => e.finish session (.error "model context token budget exhausted") cause
      | .proceed =>
        .ok ({ e with calls := e.calls.insert call session }, [⟨.modelRequested, request.payload, task.origin⟩])

def callId (root : String) (cycle : Int) (used : Nat) : String :=
  root ++ ":model:" ++ cycle.repr ++ ":" ++ used.repr

def enqueue (session : String) (task : Task) : Engine :=
  if session ∈ e.queue then e
  else if task.association.isSome then { e with queue := session :: e.queue }
  else { e with queue := e.queue ++ [session] }

/-- Pauses a session whose budget is spent: a child gives up, a root sleeps. -/
def exhaust (session : String) (task : Task) (error cause : String) : Outcome :=
  if task.parent.isSome then e.finish session (.error error) cause
  else e.sleep session .pausedBudget (satAdd e.nowMs 60000) cause

def spend (session : String) (task : Task) (used : Nat) (cause : String) : Outcome :=
  let job := (e.jobs.find task.root).map fun job => { job with status := .running }
  let call := callId task.root ((job.map Job.cycleStartedMs).getD 0) (used + 1)
  let composed := e.compose config task job
  let e := { e with
    budgets := e.budgets.insert task.root (used + 1)
    queue := e.queue.filter (· ≠ session)
    jobs := e.jobs.modify task.root fun job => { job with status := .running }
    tasks := e.tasks.insert session composed.1 }
  e.submit config session composed.1 (!composed.2.isEmpty) call cause

/-- Asks the model for the next decision of a session, at once or in its turn. -/
def ask (session cause : String) : Outcome := do
  let task ← expect .index (e.tasks.find session)
  let job := e.jobs.find task.root
  if job.any fun job => job.status.idle then .ok (e, [])
  else if 32 ≤ (e.budgets.find task.root).getD 0 ∧ task.parent.isSome then
    e.finish session (.error "model call budget exhausted") cause
  else if session ∈ e.calls.values then .ok (e, [])
  else if !e.scheduling || !e.calls.isEmpty then .ok (e.enqueue session task, [])
  else if job.any fun job => 1800000 ≤ satSub e.nowMs job.cycleStartedMs then
    e.exhaust session task "model cycle time budget exhausted" cause
  else do
    let used ← expect .unwrap (e.budgets.find task.root)
    if 32 ≤ used then e.exhaust session task "model call budget exhausted" cause
    else e.spend config session task used cause

def request (session cause : String) : Outcome := do
  let e ← e.route session
  e.ask config session cause

end Engine

end Pluribus.Rlm
