import Pluribus.Rlm.Engine

namespace Pluribus.Rlm.Engine

open Lib

variable (config : Config) (e : Engine)

def newJob (observation : Observation) (nowMs : Int) : Job :=
  let value := observation.value
  let resolved := value.index "resolvedClarification"
  { activities := .empty
    id := observation.id
    objective := ([messageText resolved, messageText value].find? (· ≠ "")).getD "Inspect observation"
    completionConditions := .null
    origin := observation.id
    sources := ((resolved.index "observationId").asStr).toList ++ [observation.id]
    revision := 0
    incorporatedSequence := observation.sequence
    status := .runnable
    waitReason := none
    outstandingQuestion := none
    recentReply := none
    completedSteps := .null
    nextStep := .null
    blockers := .null
    notes := .null
    checkpoint := .null
    checkpointVersion := 1
    cycleStartedMs := nowMs
    retryCount := 0
    wake := none }

def createJob (observation cause : String) : Outcome := do
  let source ← expect .unwrap (e.inbox.find observation)
  let e := { e with
    inbox := e.inbox.insert observation { source with status := .incorporated, job := some observation }
    jobs := e.jobs.insert observation (newJob { source with id := observation } e.nowMs)
    budgets := e.budgets.insert observation 0 }
  (e.startRoot config observation observation observation source.value).request config observation cause

def interrupt (revision : Nat) (task : Task) : Task :=
  let task := closeInterruptedTools "task amended; cell interrupted; reconcile effects before retrying"
    { task with revision := revision, controlErrors := 0 }
  { task with pending := none, cellStarted := false }

def interruptDrafts (job : String) (revision : Nat) (cause session : String) (task : Task) : List Draft :=
  let cancel := match task.pending with
    | some pending =>
      match (pending.index "request").asStr with
      | some request => [cancelRequested request job revision cause]
      | none => []
    | none => []
  cancel ++ [closeRequested session cause]

def cancels (source : Observation) : Bool := source.value.index "intent" = .string "cancel"

def amendJob (observation : String) (source : Observation) (job : Job) : Job :=
  { job with
    revision := job.revision + 1
    waitReason := none
    outstandingQuestion := none
    sources := job.sources ++ [observation]
    incorporatedSequence := source.sequence
    wake := none
    status := if cancels source then .cancelled else .runnable }

def amendDrafts (jobId : String) (wake : Option Wake) (amended : Job) (cause : String) : List Draft :=
  timerCancel wake cause ++ cancelActivities jobId amended cause ++
    (e.tasks.rows.filter fun row => row.2.root = jobId).flatMap fun row =>
      interruptDrafts jobId amended.revision cause row.1 row.2

def showObservation (observation : String) (value : Json) (revision : Nat) (task : Task) : Task :=
  let task := task.setContext "latestObservation" value
  let task := task.setContext "trigger" (.object [
    ("eventId", .string observation),
    ("kind", .string "amendment"),
    ("revision", Json.ofNat revision)])
  task.push (.note ("Incorporated observation " ++ observation ++ ": ") value)

def associate (observation jobId cause : String) : Outcome := do
  let source ← expect .index (e.inbox.find observation)
  match e.sameOrigin jobId source.value, e.jobs.find jobId with
  | true, some job =>
    if job.status.ended then .ok (e, [])
    else
      let amended := amendJob observation source job
      let drafts := e.amendDrafts jobId job.wake amended cause
      let tasks := e.tasks.update fun _ task => if task.root = jobId then interrupt amended.revision task else task
      let e := { e with
        jobs := e.jobs.insert jobId amended
        inbox := e.inbox.insert observation { source with status := .incorporated, job := some jobId } }
      if cancels source then
        let tasks := tasks.retain fun _ task => task.root ≠ jobId
        .ok ({ e with tasks := tasks, queue := e.queue.filter tasks.contains }, drafts)
      else do
        let tasks := tasks.retain fun id task => task.root ≠ jobId || id = jobId
        let task ← expect .unwrap (tasks.find jobId)
        let task := showObservation observation source.value amended.revision task
        let e := { e with tasks := tasks.insert jobId task }
        if jobId ∈ e.calls.values then .ok (e, drafts)
        else (e.request config jobId cause).after drafts
  | _, _ => .ok ({ e with inbox := e.inbox.insert observation { source with status := .waitingInput } }, [])

def associationSession (observation : String) : String := "associate:" ++ observation

def openAssociation (observation : String) (context : Json) : Engine :=
  let session := associationSession observation
  let e := { e with budgets := e.budgets.insert session 0 }
  let e := e.startRoot config session session observation (.object [])
  { e with tasks := e.tasks.modify session fun task => { task with
      association := some observation
      messages := ⟨.association, .envelope context [], []⟩ } }

def observationReceived (id : String) (value : Json) : Outcome :=
  let value := boundedObservation id value
  if e.inbox.contains id then .ok (e, [])
  else
    let e := { e with inbox := e.inbox.insert id {
      outstandingQuestion := none
      id := id
      sequence := e.sequence
      value := value
      status := .pending
      job := none } }
    match (value.index "jobId").asStr with
    | some job => e.associate config id job id
    | none =>
      if (e.jobCandidates value).isEmpty && (e.clarifications value).isEmpty then e.createJob config id id
      else (e.openAssociation config id (e.routingContext value)).request config (associationSession id) id

def corrected (calls : List Json) (error cause : String) (task : Task) : Task :=
  let task := { task with controlErrors := task.controlErrors + 1 }
  let task := task.setContext "trigger" (.object [
    ("attempt", Json.ofNat task.controlErrors),
    ("error", .string error),
    ("eventId", .string cause),
    ("kind", .string "correction")])
  if calls.isEmpty then task.push (.user error)
  else calls.foldl (fun task call => task.push (.result (call.index "call_id") "pluribus.rlm-control/1"
    (.object [("error", .string error)]) (.string error))) task

def correctControl (session : String) (calls : List Json) (error cause : String) : Outcome := do
  let task ← expect .unwrap (e.tasks.find session)
  let task := corrected calls error cause task
  let e := { e with tasks := e.tasks.insert session task }
  if 3 ≤ task.controlErrors then
    if task.parent.isSome || task.association.isSome then
      e.finish session (.error "invalid control output after three attempts") cause
    else e.stalled session "invalid control output after three attempts" cause
  else e.request config session cause

def validDecision (observation : Observation) (calls : List Json) (decision : Json) : Bool :=
  calls.length = 1 && (calls.headD .null).index "name" = .string "associate" && validateAssociation decision &&
    (match decision.get "resolvesObservationId" with
      | none => true
      | some reference =>
        match reference.asStr.bind e.inbox.find with
        | some prior => prior.status = .waitingInput && prior.job.isNone && prior.outstandingQuestion.isSome &&
            sameConversation prior.value observation.value
        | none => false) &&
    (match Action.ofJson (decision.index "action") with
      | some .amend | some .cancel =>
        match (decision.index "jobId").asStr with
        | some id =>
          match e.jobs.find id with
          | some job => automaticallyRoutable job && e.sameOrigin id observation.value
          | none => false
        | none => false
      | _ => true)

def resolvePrior (observation reference : String) (jobId : String) : Except Panic Engine := do
  let prior ← expect .index (e.inbox.find reference)
  let source ← expect .unwrap (e.inbox.find observation)
  let value ← expect .assign (source.value.assign "resolvedClarification" (.object [
    ("message", prior.value.index "message"),
    ("observationId", .string reference),
    ("question", optionalText prior.outstandingQuestion)]))
  let inbox := e.inbox.insert observation { source with value := value }
  let original ← expect .unwrap (inbox.find reference)
  let e := { e with inbox := inbox.insert reference { original with
    status := .incorporated
    job := some jobId
    outstandingQuestion := none } }
  match e.jobs.find jobId with
  | none => .ok e
  | some job => do
    let task ← expect .unwrap (e.tasks.find jobId)
    .ok { e with
      jobs := e.jobs.insert jobId { job with sources := job.sources ++ [reference] }
      tasks := e.tasks.insert jobId (task.push (.note "Resolved earlier request: " (prior.value.index "message"))) }

def settle (observation : String) (decision : Json) (cause : String) : Outcome :=
  match Action.ofJson (decision.index "action") with
  | some .new => e.createJob config observation cause
  | some .amend => e.associate config observation (((decision.index "jobId").asStr).getD "") cause
  | some .cancel => do
    let source ← expect .unwrap (e.inbox.find observation)
    let value ← expect .assign (source.value.assign "intent" (.string "cancel"))
    let e := { e with inbox := e.inbox.insert observation { source with value := value } }
    e.associate config observation (((decision.index "jobId").asStr).getD "") cause
  | _ => do
    let source ← expect .unwrap (e.inbox.find observation)
    let e := { e with inbox := e.inbox.insert observation { source with
      status := .waitingInput
      outstandingQuestion := (decision.index "question").asStr } }
    match replyRequest source.value (decision.index "question") with
    | some request => .ok (e, [⟨.capabilityRequested, request, observation⟩])
    | none => .ok (e, [])

def ASSOCIATION_ERROR : String :=
  "Call associate with action and jobId: amend/cancel require an active same-origin job ID; " ++
    "new/clarify require null; clarify also requires a specific question"

/-- Carries out a valid decision, with the earlier observation it resolves. -/
def conclude (observation : String) (decision : Json) (cause : String) : Outcome :=
  match (decision.index "resolvesObservationId").asStr with
  | some reference => do
    let e ← e.resolvePrior observation reference (((decision.index "jobId").asStr).getD observation)
    e.settle config observation decision cause
  | none => e.settle config observation decision cause

def decisionOf (message : Json) : Json := ((toolCalls message).headD .null).index "arguments"

/-- Checks the decision of a routing session; the session is over if the decision stands. -/
def judge (session observation : String) (message : Json) (cause : String) : Outcome := do
  let source ← expect .index (e.inbox.find observation)
  if !e.validDecision source (toolCalls message) (decisionOf message) then
    e.correctControl config session (toolCalls message) ASSOCIATION_ERROR cause
  else
    let e := { e with tasks := e.tasks.erase session, budgets := e.budgets.erase session }
    e.conclude config observation (decisionOf message) cause

def decided (session observation : String) (message : Json) (cause : String) : Outcome := do
  let task ← expect .unwrap (e.tasks.find session)
  let e := { e with tasks := e.tasks.insert session (task.push (.said message)) }
  e.judge config session observation message cause

def modelFailed (session : String) (value : Json) (cause : String) : Outcome :=
  match (e.tasks.find session).bind fun task => (e.jobs.find task.root).map fun job => (task, job) with
  | none => e.finish session (.error "model failed") cause
  | some (task, job) =>
    if value.index "code" = .string "outcome-unknown" then
      .ok ({ e with jobs := e.jobs.insert task.root { job with
          status := .waitingInput
          waitReason := some .providerError
          outstandingQuestion := none
          blockers := value } }, [])
    else if job.retryCount < 5 ∧ task.parent.isNone then do
      let e := { e with jobs := e.jobs.insert task.root { job with retryCount := job.retryCount + 1 } }
      let delay := 60000 * (1 <<< job.retryCount)
      let (e, drafts) ← e.sleep session .waitingTime (satAdd e.nowMs (Int.ofNat delay)) cause
      let job ← expect .unwrap (e.jobs.find task.root)
      .ok ({ e with jobs := e.jobs.insert task.root { job with waitReason := some .providerError } }, drafts)
    else e.finish session (.error "model failed") cause

/-- The summary a compaction was asked for, or what is wrong with the answer. -/
def compactionResult (provenanceError : Option String) (calls : List Json) : Except String Compaction.WorkingSummary :=
  match provenanceError with
  | some error => .error error
  | none =>
    match calls with
    | [call] =>
      if call.index "name" = .string "compact" then Compaction.validate (call.index "arguments")
      else .error "compaction requires exactly one compact tool call"
    | _ => .error "compaction requires exactly one compact tool call"

def verified : Json := .object [("verified", .bool true)]

def summarized (summary : Compaction.WorkingSummary) (task : Task) : Task :=
  let task := (task.setContext "workingSummary" summary.toJson).setContext "workingSummaryProvenance" verified
  { task with
    context := Table.erase "compactionError" task.context
    compacting := false
    compactionErrors := 0
    messages := History.compacted task.messages }

def completeCompaction (session : String) (message : Json) (cause : String) : Outcome := do
  let task ← expect .index (e.tasks.find session)
  let result := compactionResult task.compactionProvenanceError (toolCalls message)
  let task := { task with compactionProvenanceError := none }
  match result with
  | .ok summary =>
    let e := { e with tasks := e.tasks.insert session (summarized summary task) }
    e.request config session cause
  | .error error =>
    let retries := min 255 (task.compactionErrors + 1)
    let task := { task with compacting := false }
    if 3 ≤ retries then
      let e := { e with tasks := e.tasks.insert session task }
      e.finish session (.error ("semantic compaction failed: " ++ error)) cause
    else
      let task : Task := { task with compactionErrors := retries }
      let task := task.setContext "compactionError" (.string error)
      let e := { e with tasks := e.tasks.insert session task }
      e.request config session cause

def yielded (session : String) (task : Task) (call : Json) (cause : String) : Outcome :=
  let arguments := call.index "arguments"
  let child := task.parent.isSome
  match validateControl arguments child with
  | .error error => e.correctControl config session [call] error cause
  | .ok () =>
    if !child && (arguments.index "dueAtMs").asI64.any (· ≤ e.nowMs) then
      e.correctControl config session [call]
        "Wait requires a future external deadline; use executable JS for available work" cause
    else
      let task := { task with controlErrors := 0 }
      if child then do
        let result ← expect .unwrap (arguments.index "result").asStr
        let e := { e with tasks := e.tasks.insert session task }
        e.finish session (.ok result) cause
      else
        let accepted := task.push (.result (call.index "call_id") "pluribus.rlm-control/1"
          (.object [("accepted", .bool true)]) .null)
        let e := { e with tasks := e.tasks.insert session accepted }
        e.finishRoot session (.ok arguments) cause

def openCell (call : Json) (code : String) (task : Task) : Task :=
  { task with
    controlErrors := 0
    codeRequestId := none
    codeEventId := none
    cellSource := code
    cellStarted := true
    cellRevision := task.revision
    toolId := ((call.index "call_id").asStr).getD ""
    yields := 0 }

def evaluateRequested (session code : String) (task : Task) (cause : String) : Draft :=
  ⟨.codeEvaluateRequested, [
    ("checkpoint", task.context.index "checkpoint"),
    ("context", .object task.context),
    ("jobId", .string task.root),
    ("requiresSession", .bool task.cellStarted),
    ("revision", Json.ofNat task.revision),
    ("sessionId", .string session),
    ("source", .string code)], cause⟩

def evaluate (session : String) (task : Task) (call : Json) (cause : String) : Outcome :=
  match ((call.index "arguments").index "code").asStr with
  | some code =>
    if call.index "name" = .string "js" then
      if 0 < task.resourceFailures ∧ !task.cellStarted ∧ code = task.cellSource then
        e.correctControl config session [call] ("The failed cell cannot be retried unchanged. Reduce its working set, " ++
          "use smaller pages, or finish with an explanation.") cause
      else
        .ok ({ e with tasks := e.tasks.insert session (openCell call code task) },
          [evaluateRequested session code task cause])
    else e.correctControl config session [call] "Use js with code or yield with the declared decision schema" cause
  | none => e.correctControl config session [call] "Use js with code or yield with the declared decision schema" cause

def modelCompleted (session : String) (task : Task) (message : Json) (cause : String) : Outcome :=
  let task := task.push (.said message)
  let e := { e with tasks := e.tasks.insert session task }
  match toolCalls message with
  | [] => e.correctControl config session [] ("Return executable JS that advances the task, or call yield with a " ++
      "completed answer, failure, or explicit external wait. Empty output and prose plans do not advance work") cause
  | [call] =>
    if call.index "name" = .string "yield" then e.yielded config session task call cause
    else e.evaluate config session task call cause
  | calls => e.correctControl config session calls "Call exactly one tool per turn" cause

def stale (task : Task) : Bool :=
  task.revision ≠ task.decisionRevision || e.inbox.values.any fun o => o.status = .pending

def answeredCall (value : Json) : String := ((value.getStr "call_id").or (value.getStr "callId")).getD ""

def modelAnswered (failed : Bool) (value : Json) (cause : String) : Outcome :=
  let call := answeredCall value
  match e.calls.find call with
  | none => .ok (e, [])
  | some session =>
    let e := { e with calls := e.calls.erase call }
    match e.tasks.find session with
    | none => if failed then e.finish session (.error "model failed") cause else .ok (e, [])
    | some task =>
      match task.association with
      | some observation =>
        if failed then e.finish session (.error "association model failed") cause
        else e.decided config session observation (value.index "message") cause
      | none =>
        if e.stale task then
          let tasks := e.tasks.insert session (task.push (.note "Discarded stale proposal: " value))
          let queue := if session ∈ e.queue then e.queue else e.queue ++ [session]
          .ok ({ e with tasks := tasks, queue := queue }, [])
        else if failed then e.modelFailed session value cause
        else if task.compacting then e.completeCompaction config session (value.index "message") cause
        else e.modelCompleted config session task (value.index "message") cause

def staleResult (task : Task) (value : Json) : Bool :=
  let revision := do
    let request ← value.getStr "requestEventId"
    let job ← e.jobs.find task.root
    let activity ← job.activities.find request
    (activity.index "revision").asU64
  revision.any (· ≠ task.revision)

def recoveryNote (task : Task) (value resource : Json) (inputKey : String) : Json :=
  .object (Fields.set inputKey (value.index inputKey) [
    ("checkpointStatus", .string (if task.context.index "checkpoint" = .null then "missing" else "committed")),
    ("code", .string "resource-exhausted"),
    ("effectStatus", .string (((value.get "effectStatus").bind Json.asStr).getD "outcome-unknown")),
    ("readLimit", Json.ofNat (if task.resourceFailures = 1 then 16 else 8)),
    ("remainingAttempts", Json.ofNat (3 - task.resourceFailures)),
    ("resource", resource),
    ("sessionStatus", .string "lost")])

def lost (task : Task) : Task :=
  { task with resourceFailures := min 255 (task.resourceFailures + 1), cellStarted := false, pending := none }

def lostCell (value : Json) (task : Task) : Task :=
  let task := lost task
  task.setContext "resourceRecovery"
    (recoveryNote task value ((value.get "resourceError").getD .null) "requestEventId")

def isResourceFailure (kind : Kind) (value : Json) : Bool :=
  kind = .codeFailed &&
    (value.index "code" = .string "resource-exhausted" || (value.get "resourceError").any isObject)

def dropSession (value : Json) (task : Task) : Task :=
  let gone := ((value.index "reason").asStr).any (Text.includes "session was lost")
  if gone || value.index "code" = .string "outcome-unknown" then { task with cellStarted := false, pending := none }
  else task

/-- A cell that succeeded without saving its state invalidates an automatic checkpoint. -/
def unsavedSuccess (kind : Kind) (value : Json) (task : Task) : Bool :=
  kind = .codeCompleted && value.index "checkpoint" = .null &&
    (match value.index "warnings" with
      | .array warnings => !warnings.isEmpty
      | _ => false) &&
    (task.context.index "checkpoint").index "mode" = .string "automatic"

/-- The working summary of a new checkpoint, if its sources were verified. -/
def adoptSummary (checkpoint previous : Json) (isVerified : Bool) (task : Task) : Task :=
  let summary := checkpoint.pointer "/state/workingSummary"
  match summary with
  | some summary =>
    if some summary = previous.pointer "/state/workingSummary" then task
    else
      let error := task.checkpointProvenanceError
      let task := { task with checkpointProvenanceError := none }
      match error, isVerified, Compaction.validate summary with
      | some error, _, _ => task.setContext "workingSummaryError" (.string error)
      | none, false, _ => task.setContext "workingSummaryError" (.string "working summary provenance was not verified")
      | none, true, .ok summary =>
        let task := (task.setContext "workingSummary" summary.toJson).setContext "workingSummaryProvenance" verified
        { task with context := Table.erase "workingSummaryError" task.context }
      | none, true, .error error => task.setContext "workingSummaryError" (.string error)
  | none => task

def saveCheckpoint (kind : Kind) (value : Json) (task : Task) : Task × Option Json :=
  let unsaved := unsavedSuccess kind value task
  let task := if unsaved then task.setContext "checkpoint" .null else task
  match (value.get "checkpoint").filter (· ≠ .null) with
  | none => (task, if unsaved then some .null else none)
  | some checkpoint =>
    let previous := task.context.index "checkpoint"
    let isVerified := task.checkpointProvenanceVerified
    let task := { task with checkpointProvenanceVerified := false }
    let task := task.setContext "checkpoint" checkpoint
    (adoptSummary checkpoint previous isVerified task, some checkpoint)

def countCell (kind : Kind) (value : Json) (task : Task) : Task :=
  let fingerprint := config.fingerprint task.cellSource task.revision kind
    (["value", "error", "reason", "log", "warnings", "checkpoint"].map (value.index ·))
  { task with
    repeatedCells := if task.yields = 0 ∧ task.lastCell = some fingerprint then task.repeatedCells + 1 else 1
    lastCell := some fingerprint }

def keepCheckpoint (root : String) : Option Json → Engine
  | some checkpoint => { e with jobs := e.jobs.modify root fun job => { job with checkpoint := checkpoint } }
  | none => e

def showResult (kind : Kind) (value : Json) (cause : String) (task : Task) : Task :=
  let task := task.setContext "trigger" (.object [
    ("callId", .string task.toolId),
    ("eventId", .string cause),
    ("kind", .string "tool-result"),
    ("resultLocation", .string "latest tool message"),
    ("resultType", .string kind.name)])
  task.push (.result (.string task.toolId) "pluribus.code-result/1" value .null)

def cellResult (session : String) (task : Task) (kind : Kind) (value : Json) (cause : String) : Outcome :=
  let saved := saveCheckpoint kind value (dropSession value task)
  let task := countCell config kind value saved.1
  let e := e.keepCheckpoint task.root saved.2
  if 3 ≤ task.repeatedCells then
    let e := { e with tasks := e.tasks.insert session task }
    e.stalled session "three identical cells without host activity" cause
  else
    let e := { e with tasks := e.tasks.insert session (showResult kind value cause task) }
    e.request config session cause

def codeFinished (kind : Kind) (value : Json) (cause : String) : Outcome :=
  let session := (value.getStr "sessionId").getD ""
  match e.tasks.find session with
  | none => .ok (e, [])
  | some task =>
    let resource := isResourceFailure kind value
    if e.staleResult task value || task.cellRevision ≠ task.revision then .ok (e, [])
    else if resource && !(value.getStr "requestEventId").any fun request =>
        task.codeRequestId = some request || task.codeEventId = some request then .ok (e, [])
    else
      let task := { task with codeRequestId := none, codeEventId := none }
      if resource then
        let task := lostCell value task
        if 2 < task.resourceFailures then
          let e := { e with tasks := e.tasks.insert session task }
          e.resourceBudgetExhausted session cause
        else e.cellResult config session task kind value cause
      else e.cellResult config session task kind value cause

def query (session : String) (task : Task) (value : Json) (cause : String) : Outcome :=
  let args := value.index "args"
  let refuse (error : String) : Outcome := .ok (e, [resume session (value.index "id") (.error error) cause])
  if !filled (args.index "question") then refuse "rlm.query requires a focused, nonempty question"
  else if 4 ≤ (e.tasks.values.filter fun t => t.parent.isSome).length then refuse "child concurrency limit 4 reached"
  else if MAX_DEPTH ≤ task.depth then
    refuse ("child depth limit " ++ MAX_DEPTH.repr ++ " reached; answer without recursing")
  else if MAX_CHILD_CONTEXT < args.bytes then
    refuse ("child context is " ++ args.bytes.repr ++ " bytes, over the " ++ MAX_CHILD_CONTEXT.repr ++
      " byte limit; select fewer records")
  else do
    let child := session ++ ":" ++ (value.index "id").text
    let e ← e.startChild child task.root task.origin args (session, value.index "id") (task.depth + 1)
    e.request config child cause

def invoke (session : String) (task : Task) (value : Json) (cause : String) : Engine × List Draft :=
  let args := value.index "args"
  let attachments := attachmentRefs (task.context.index (triggerInput task))
  let pending : Fields := [
    ("cause", .string cause),
    ("revision", Json.ofNat task.revision),
    ("yield", value.index "id")]
  ({ e with tasks := e.tasks.insert session { task with pending := some pending } },
    [⟨.capabilityRequested, [
      ("arguments", args.index "arguments"),
      ("attachments", .array attachments),
      ("capability", args.index "name"),
      ("jobId", .string task.root),
      ("revision", Json.ofNat task.revision),
      ("rlmSession", .string session),
      ("rlmYield", value.index "id")], task.origin⟩])

def codeYielded (value : Json) (cause : String) : Outcome :=
  let session := (value.getStr "sessionId").getD ""
  match e.tasks.find session with
  | none => .ok (e, [])
  | some task =>
    if task.cellRevision ≠ task.revision then .ok (e, [])
    else
      let task := { task with yields := task.yields + 1 }
      let e := { e with tasks := e.tasks.insert session task }
      if MAX_CELL_YIELDS < task.yields then
        .ok (e, [resume session (value.index "id")
          (.error ("cell exceeded " ++ MAX_CELL_YIELDS.repr ++ " host requests")) cause])
      else
        match (value.index "method").asStr with
        | some "rlm.query" => e.query config session task value cause
        | some "history.read" | some "history.search" => .ok (e, [])
        | method =>
          if method = some "capability.invoke" ∧ task.depth = 0 then .ok (e.invoke session task value cause)
          else .ok (e, [resume session (value.index "id") (.error "operation unavailable to this query") cause])

/-- A capability result goes back to the cell that waits for it. -/
def capabilityAnswered (kind : Kind) (value : Json) (cause : Option String) (id : String) : Outcome :=
  let request := ((value.getStr "requestEventId").or cause).getD ""
  match e.tasks.rows.find? fun row => row.2.pending.any fun pending => pending.index "request" = .string request with
  | none => .ok (e, [])
  | some (session, task) =>
    let answer := (task.pending.map fun pending => pending.index "yield").getD .null
    let e := { e with tasks := e.tasks.insert session { task with pending := none } }
    if value.index "code" = .string "outcome-unknown" then
      .ok ({ e with jobs := e.jobs.modify task.root fun job => { job with
          status := .waitingInput
          waitReason := some .providerError
          outstandingQuestion := none
          blockers := .object [("reconciliation", value)] } },
        [closeRequested session id])
    else
      let result := if kind = .capabilityCompleted then .ok value else .error value.text
      .ok ({ e with jobs := e.jobs.modify task.root fun job => { job with status := .runnable, waitReason := none } },
        [resume session answer result id])

def capabilityRequested (value : Json) (id : String) : Engine :=
  match (value.getStr "rlmSession").bind fun session => (e.tasks.find session).map fun task => (session, task) with
  | none => e
  | some (session, task) =>
    match task.pending with
    | none => e
    | some pending => { e with
        tasks := e.tasks.insert session { task with pending := some (pending.set "request" (.string id)) }
        jobs := e.jobs.modify task.root fun job => { job with status := .waitingActivity } }

def timerSet (value : Json) (id : String) : Engine :=
  match value.getStr "jobId" with
  | none => e
  | some job => { e with jobs := e.jobs.modify job fun job => { job with
      wake := job.wake.map fun wake =>
        if value.index "wakeToken" = .string wake.token then { wake with request := some id } else wake } }

def wakes (request : String) (job : Job) : Bool :=
  match job.wake with
  | some wake => wake.request = some request && wake.revision = job.revision && wake.dueAtMs ≤ e.nowMs
  | none => false

/-- A new cycle of model calls, once the old one is used up. -/
def renew (jobId : String) (job : Job) : Engine :=
  if 1800000 ≤ satSub e.nowMs job.cycleStartedMs ∨ 32 ≤ (e.budgets.find jobId).getD 0 then
    { e with
      jobs := e.jobs.insert jobId { job with cycleStartedMs := e.nowMs }
      budgets := e.budgets.insert jobId 0 }
  else { e with jobs := e.jobs.insert jobId job }

def timerFired (value : Json) (id : String) : Outcome :=
  let request := (value.getStr "requestEventId").getD ""
  match e.jobs.rows.find? fun row => e.wakes request row.2 with
  | none => .ok (e, [])
  | some (jobId, job) => do
    let task ← expect .unwrap (e.tasks.find jobId)
    let kind := if job.waitReason = some .providerError then "retry" else "scheduled-wake"
    let task := task.setContext "trigger" (.object [
      ("attempt", Json.ofNat job.retryCount),
      ("eventId", .string id),
      ("kind", .string kind),
      ("nextStep", job.nextStep),
      ("reason", optionalText (job.waitReason.map WaitReason.text)),
      ("scheduled", Json.ofOption Wake.toJson job.wake)])
    let e := { e with tasks := e.tasks.insert jobId task }
    let job := { job with wake := none }
    if !job.status.suspended then .ok ({ e with jobs := e.jobs.insert jobId job }, [])
    else (e.renew jobId { job with status := .runnable, waitReason := none }).request config jobId id

def recovered (value : Json) (cause : String) (task : Task) : Task :=
  let task := lost { task with compacting := false }
  let task := task.setContext "resourceRecovery" (recoveryNote task value (value.index "resource") "inputEventId")
  let task := task.setContext "trigger" (trigger "resource-recovery" cause)
  { task with messages := ⟨.work, .words ("Processing was deferred after resource exhaustion. Inspect " ++
      "context.resourceRecovery and the committed checkpoint. Use smaller reads and reconcile recorded effects " ++
      "before repeating actions."), []⟩ }

/-- The drafts that end the model calls and the code of a lost session. -/
def lostDrafts (session root : String) (cancelled : List String) (cause : String) : List Draft :=
  let cancels := match e.jobs.find root with
    | some job => (job.activities.rows.filter fun row =>
        ((Fields.index "callId" row.2).asStr).any (· ∈ cancelled)).map fun row =>
          (⟨.cognitionCancelRequested, [("requestEventId", .string row.1)], cause⟩ : Draft)
    | none => []
  cancels ++ [closeRequested session cause]

def restarted (value : Json) (job : Job) : Job :=
  { job with
    status := .runnable
    waitReason := none
    blockers := .object [("resourceRecovery", value)] }

def restart (session root : String) (value : Json) (drafts : List Draft) (cause : String) : Outcome :=
  let e := { e with jobs := e.jobs.modify root (restarted value) }
  (e.request config session cause).after drafts

def recoverSession (session : String) (value : Json) (cause : String) : Outcome :=
  match e.tasks.find session with
  | none => .ok (e, [])
  | some task =>
    if (value.index "revision").asU64.any (· ≠ task.revision) then .ok (e, [])
    else
      let task := recovered value cause task
      let cancelled := (e.calls.rows.filter fun row => row.2 = session).map (·.1)
      let e := { e with
        tasks := e.tasks.insert session task
        calls := e.calls.retain fun _ id => id ≠ session }
      if 2 < task.resourceFailures then e.resourceBudgetExhausted session cause
      else e.restart config session task.root value (e.lostDrafts session task.root cancelled cause) cause

def namedSession (value : Json) : Option String := (value.getStr "sessionId").or (value.getStr "jobId")

def recoverResourceJob (cause : String) (value : Json) : Outcome :=
  if value.index "sessionId" = .null ∧ value.index "jobId" = .null then
    let input := value.index "input"
    let payload := input.index "payload"
    if input.index "eventType" = .string "observation.received" then
      match input.getStr "eventId" with
      | none => .ok (e, [])
      | some original =>
        if e.inbox.contains original then .ok (e, [])
        else do
          -- the proposal of the original delivery was never committed
          let (e, _) ← e.observationReceived config original payload
          let session := if e.tasks.contains original then original else associationSession original
          let value ← expect .assign (value.assign "sessionId" (.string session))
          e.recoverSession config session value cause
    else
      match ((payload.getStr "call_id").or (payload.getStr "callId")).bind e.calls.find with
      | none => .ok (e, [])
      | some session => do
        let value ← expect .assign (value.assign "sessionId" (.string session))
        e.recoverSession config session value cause
  else
    match namedSession value with
    | none => .ok (e, [])
    | some session => e.recoverSession config session value cause

def handleEvent (id : String) (kind : Kind) (value : Json) (cause : Option String) : Outcome :=
  match kind with
  | .cognitionResourceExhausted => e.recoverResourceJob config id value
  | .timerSet => .ok (e.timerSet value id, [])
  | .timerFired => e.timerFired config value id
  | .observationReceived => e.observationReceived config id value
  | .modelCompleted => e.modelAnswered config false value id
  | .modelFailed => e.modelAnswered config true value id
  | .codeCompleted | .codeFailed => e.codeFinished config kind value id
  | .codeYielded => e.codeYielded config value id
  | .capabilityCompleted | .capabilityFailed | .capabilityDenied | .capabilityTimedOut | .capabilityCancelled =>
    e.capabilityAnswered kind value cause id
  | .capabilityRequested => .ok (e.capabilityRequested value id, [])
  | _ => .ok (e, [])

def idle (outcome : Outcome) : Outcome := outcome.map fun step => ({ step.1 with scheduling := false }, step.2)

def orderValid (id : String) (job : Job) (value : Json) (cancel : Bool) : Bool :=
  (value.index "version").asI64 = some 1 && (value.index "revision").asU64 = some job.revision &&
    (cancel || value.index "action" = .string "resume") && !job.status.ended &&
    (cancel ||
      (e.tasks.contains id && !job.activities.values.any unresolved &&
        (match job.status with
          | .waitingInput | .waitingTime | .pausedBudget | .waitingActivity => true
          | _ => false)))

def ordered (cancel : Bool) (job : Job) : Job :=
  { job with
    revision := job.revision + 1
    status := if cancel then .cancelled else .runnable
    waitReason := none
    outstandingQuestion := none
    wake := none }

def halted (revision : Nat) (reason : Json) (cause : String) (task : Task) : Task :=
  let task := { task with revision := revision, pending := none, cellStarted := false, controlErrors := 0 }
  task.setContext "trigger" (.object [
    ("eventId", .string cause),
    ("kind", .string "operator-resume"),
    ("reason", reason)])

def orderDrafts (id : String) (job : Job) (cancel : Bool) (cause : String) : List Draft :=
  timerCancel job.wake cause ++ cancelActivities id (ordered cancel job) cause ++
    (e.tasks.rows.filter fun row => row.2.root = id).map fun row => closeRequested row.1 cause

def carryOut (id : String) (job : Job) (cancel : Bool) (reason : Json) (cause : String) : Engine :=
  let tasks := (e.tasks.update fun _ task =>
    if task.root = id then halted (ordered cancel job).revision reason cause task else task).retain fun session task =>
      task.root ≠ id || (!cancel && session = id)
  { e with
    jobs := e.jobs.insert id (ordered cancel job)
    calls := e.calls.retain fun _ session => (e.tasks.find session).all fun task => task.root ≠ id
    tasks := tasks
    queue := e.queue.filter tasks.contains }

def operatorControl (cause : String) (value : Json) : Outcome :=
  let id := (value.getStr "jobId").getD ""
  match e.jobs.find id with
  | none => .ok (e, [])
  | some job =>
    let cancel : Bool := value.index "action" = .string "cancel"
    if !e.orderValid id job value cancel then .ok (e, [])
    else
      let drafts := e.orderDrafts id job cancel cause
      let e := e.carryOut id job cancel (value.index "reason") cause
      if cancel then .ok (e, drafts)
      else (idle ({ e with scheduling := true }.request config id cause)).after drafts

def attemptReconciled (id : String) (value : Json) : Engine :=
  let request := (value.getStr "requestEventId").getD ""
  let outcome := (value.index "outcome").asStr
  let isOpen (job : Job) : Bool := (job.activities.find request).any unresolved
  if (value.index "version").asI64 ≠ some 1 ∨ ¬ (outcome = some "completed" ∨ outcome = some "failed") then e
  else
    let reconcile (activity : Fields) : Fields :=
      ((activity.set "status" (.string ("reconciled." ++ outcome.getD ""))).set "result" (activityResult id value)).set
        "resultId" (.string id)
    { e with
      jobs := e.jobs.update fun _ job =>
        if isOpen job then { job with activities := job.activities.modify request reconcile, blockers := .null } else job
      tasks := e.tasks.update fun key task =>
        if e.jobs.values.any fun job => isOpen job && job.id = key then task.setContext "reconciliation" value else task }

def reasoned (job : Job) : Job :=
  match job.waitReason with
  | some _ => job
  | none =>
    if job.status = .waitingInput then
      { job with waitReason := some (if job.outstandingQuestion.isSome then .awaitingUser else .providerError) }
    else if job.status.suspended then { job with waitReason := some .scheduled }
    else job

def withReasons : Engine := { e with jobs := e.jobs.update fun _ job => reasoned job }

def noteCell (id : String) (kind : Kind) (value : Json) : Engine :=
  match kind with
  | .codeEvaluateRequested | .codeYielded | .codeResumed =>
    match value.getStr "sessionId" with
    | none => e
    | some session => { e with tasks := e.tasks.modify session fun task =>
        if task.cellRevision = task.revision then
          { task with
            codeEventId := some id
            codeRequestId := if kind = .codeEvaluateRequested then some id else task.codeRequestId }
        else task }
  | _ => e

/-- What a job has asked for, and what has become of it. -/
def noteActivity (id : String) (kind : Kind) (value : Json) (cause : Option String) : Engine :=
  if kind.requests then
    match value.getStr "jobId" with
    | none => e
    | some job => { e with jobs := e.jobs.modify job fun job => { job with
        activities := job.activities.insert id [
          ("callId", value.index "call_id"),
          ("capability", value.index "capability"),
          ("kind", .string kind.name),
          ("revision", value.index "revision"),
          ("sessionId", value.index "sessionId"),
          ("status", .string "queued")] } }
  else if kind.settles then
    let request := ((value.getStr "requestEventId").or cause).getD ""
    let status := if kind = .activityAttempted then "running" else kind.name
    { e with jobs := e.jobs.update fun _ job => { job with
        activities := job.activities.modify request fun activity =>
          ((activity.set "status" (.string status)).set "result" (activityResult id value)).set "resultId"
            (.string id) } }
  else e

/-- What the engine takes down of an event before it acts on it. -/
def noted (id : String) (kind : Kind) (value : Json) (cause : Option String) : Engine :=
  (e.noteCell id kind value).noteActivity id kind value cause

/-- Recovers the sessions whose records could not be loaded. -/
def recoverResources (id : String) : Outcome :=
  e.resourceErrors.rows.foldlM (fun step row => do
    let (e, drafts) ← step.1.recoverResourceJob config id (.object [
      ("effectStatus", .string "outcome-unknown"),
      ("inputEventId", .string id),
      ("resource", row.2),
      ("sessionId", .string row.1)])
    return (e, step.2 ++ drafts)) ({ e with resourceErrors := .empty }, [])

/-- Asks for the first session of the queue, until a call is out or the queue is empty; a session
that is gone stays at the head. -/
def schedule (cause : String) : Nat → Engine → Outcome
  | 0, e => .ok (e, [])
  | fuel + 1, e =>
    match e.queue with
    | [] => .ok (e, [])
    | session :: rest =>
      if e.tasks.contains session then do
        let (e, drafts) ← idle ({ e with queue := rest, scheduling := true }.request config session cause)
        if e.calls.isEmpty then (schedule cause fuel e).after drafts else .ok (e, drafts)
      else .ok (e, [])

/-- The scheduler runs once an event was handled, unless a call is out. -/
def drain (cause : String) : Outcome :=
  if e.calls.isEmpty then schedule config cause e.queue.length e else .ok (e, [])

def deadline (nowMs : Int) (draft : Draft) : Draft :=
  if draft.kind.requests then
    { draft with payload := draft.payload.set "deadlineAtMs" (Json.ofInt (satAdd nowMs 180000)) }
  else draft

/-- The handling of an event whose result was not seen before. -/
def react (id : String) (kind : Kind) (value : Json) (cause : Option String) : Outcome := do
  let (e, recovery) ← (e.noted id kind value cause).recoverResources config id
  let (e, answer) ← e.handleEvent config id kind value cause
  let (e, requests) ← e.drain config id
  .ok (e, (recovery ++ answer ++ requests).map (deadline e.nowMs))

def event (id : String) (kind : Kind) (value : Json) (cause : Option String) : Outcome :=
  match kind with
  | .operatorJobControl => e.operatorControl config id value
  | .operatorAttemptReconciled => .ok (e.attemptReconciled id value, [])
  | _ =>
    let e := e.withReasons
    match resultKey kind id value with
    | some key =>
      if key ∈ e.seenResults then .ok (e, [])
      else { e with seenResults := key :: e.seenResults }.react config id kind value cause
    | none => e.react config id kind value cause

/-- An event with what the host supplies beside it: the clock, the sequence and the routing index. -/
structure Input where
  id : String
  kind : Kind
  value : Json
  cause : Option String := none
  nowMs : Int := 0
  sequence : Nat := 0
  routingJobs : List (Job × Json) := []
  routingObservations : List Observation := []
  unloaded : Map String Nat := .empty

def addRoutingJob (job : Job × Json) : Engine := { e with routingJobs := e.routingJobs.insert job.1.id job }

def addRoutingObservation (observation : Observation) : Engine :=
  { e with routingObservations := e.routingObservations.insert observation.id observation }

def prepare (input : Input) : Engine :=
  let e := input.routingJobs.foldl addRoutingJob e
  let e := input.routingObservations.foldl addRoutingObservation e
  { e with nowMs := input.nowMs, sequence := input.sequence, unloadedObservations := input.unloaded }

def step (input : Input) : Outcome :=
  (e.prepare input).event config input.id input.kind input.value input.cause

end Pluribus.Rlm.Engine
