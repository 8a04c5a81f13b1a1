import Pluribus.Scheduler.Component

namespace Pluribus.Scheduler

open Lib Pluribus.Core Storage Pluribus.Runtime List

structure Output where
  events : List Proposal
  mutations : List Mutation
  checkpoint : Option Nat

def Mutation.fits (m : Mutation) : Bool :=
  m.key.utf8ByteSize ≤ MAX_STATE_KEY_BYTES && m.valueBytes ≤ MAX_STATE_VALUE_BYTES

def checkMutations (mutations : List Mutation) : Except RuntimeError Unit :=
  if MAX_STATE_MUTATIONS < mutations.length then .error { message := "outcome proposes too many mutations" }
  else
    match mutations.find? (!·.fits) with
    | none => .ok ()
    | some m =>
      if MAX_STATE_KEY_BYTES < m.key.utf8ByteSize then .error { message := "state key exceeds 512 bytes" }
      else .error { message := "state value exceeds 1 MiB" }

/-- Where the loop of `run` stands, with what it has computed and not yet committed. -/
inductive Phase where
  | refreshing
  | applying (page : List CommittedEvent) (mutations : List Mutation)
  | caughtUp
  | emitting (now : Int) (firing : Firing)
  | waiting
  | handling (event : CommittedEvent) (handling : Handling)
  | ended (message : String)

/-- The log, the committed state and cursor of the scheduler, the requests for which the host has
recorded an attempt, and the loop. -/
structure World where
  log : Log
  kept : Projection
  cursor : Nat
  admitted : List EventId
  phase : Phase

def World.start : World := ⟨Log.empty, .empty, 0, [], .refreshing⟩

section Machine

variable (lib : Library) (host : HostState) (search : Log.Search)

def me : PrincipalRef := ⟨.component, host.delivery.instanceId⟩

namespace World

variable (w : World)

/-- `runtime.commit`, given the blobs in view and the identifiers drawn for new events: events,
mutations and checkpoint together, or nothing. -/
def commit (visible : List BlobRef) (draws : Draws) (cause : Option EventId) (output : Output) :
    Except RuntimeError World :=
  if MAX_OUTCOME_EVENTS < output.events.length then .error { message := "outcome proposes too many events" }
  else do
    let requests ← { host with visibleBlobs := visible }.requests cause .handle w.cursor 0 output.events
    checkMutations output.mutations
    match (⟨host.cursor, w.cursor, output.checkpoint, [], requests⟩ : DeliveryCommit).validate with
    | .error error => .error { message := "cannot commit source output: " ++ error.toString }
    | .ok () =>
      match w.log.appendAll draws requests with
      | .error error => .error { message := "cannot commit source output: " ++ (DeliveryError.append error).toString }
      | .ok (_, log) => .ok { w with
          log := log
          kept := w.kept.applyAll output.mutations
          cursor := output.checkpoint.getD w.cursor }

/-- The loop goes on after a commit, and ends with its error. -/
def settle (committed : Except RuntimeError World) (phase : Phase) : World :=
  match committed with
  | .ok w' => { w' with phase := phase }
  | .error error => { w with phase := .ended error.message }

def read : World :=
  match refresh lib host search w.log w.kept with
  | .error error => { w with phase := .ended error.message }
  | .ok none => { w with phase := .caughtUp }
  | .ok (some (page, mutations)) => { w with phase := .applying page mutations }

def fire (now : Int) : World :=
  let firing := Scheduler.fire lib w.kept now
  { w with phase := if firing.output.isEmpty then .waiting else .emitting now firing }

/-- `handle` up to the commit of its outcome; a delivery it rejects changes nothing. -/
def deliver (event : CommittedEvent) (now : Int) : World :=
  match handle lib host w.log w.kept [(event, now)] with
  | .error _ => { w with admitted := event.eventId :: w.admitted, phase := .refreshing }
  | .ok handling => { w with admitted := event.eventId :: w.admitted, phase := .handling event handling }

end World

def isInherent (event : CommittedEvent) : Bool :=
  match payload event with
  | .ok request => request.index "capability" = .string "schedule.list" || request.index "capability" = .string "schedule.get"
  | .error _ => false

inductive Action where
  | others
  | read
  | apply
  | fire (now : Int)
  | emit (now : Int)
  | wake
  | deliver
  | finish (changes : List (Call × String × Option Schedule))
  | crash
  | rebuild

/-- One step: others append to the log, the loop runs up to its next commit or commits, a request
is delivered, the instance is started anew, or its state and its cursor are discarded. Requests
come one at a time, from after the cursor, and a second attempt is only made where it does no harm. -/
inductive Step : Action → World → World → Prop
  | others {w : World} {eventId : EventId} {recordedAtMs : Int} {request : AppendRequest} {event : CommittedEvent}
      {log : Log} (hactor : request.actor ≠ me host) (h : w.log.append eventId recordedAtMs request = .ok (event, log)) :
      Step .others w { w with log := log }
  | read {w : World} (h : w.phase = .refreshing) : Step .read w (w.read lib host search)
  | apply {w : World} {page : List CommittedEvent} {mutations : List Mutation} (h : w.phase = .applying page mutations)
      (draws : Draws) :
      Step .apply w (w.settle (w.commit host [] draws none ⟨[], mutations, none⟩) .refreshing)
  | fire {w : World} (h : w.phase = .caughtUp) (now : Int) : Step (.fire now) w (w.fire lib now)
  | emit {w : World} {now : Int} {firing : Firing} (h : w.phase = .emitting now firing) (visible : List BlobRef)
      (draws : Draws) :
      Step (.emit now) w
        (w.settle (w.commit host visible draws none ⟨firing.output, firing.mutations, none⟩) .waiting)
  | wake {w : World} (h : w.phase = .waiting) : Step .wake w { w with phase := .refreshing }
  | deliver {w : World} {event : CommittedEvent} (h : w.phase = .waiting)
      (hlog : event ∈ w.log.stream host.delivery.agentId) (hcursor : w.cursor < event.sequence)
      (hattempt : event.eventId ∈ w.admitted → isInherent event = true) (now : Int) :
      Step .deliver w (w.deliver lib host event now)
  | finish {w : World} {event : CommittedEvent} {handling : Handling} (h : w.phase = .handling event handling)
      (visible : List BlobRef) (draws : Draws) :
      Step (.finish handling.changes) w (w.settle (w.commit host visible draws (some event.eventId)
        ⟨handling.events, handling.mutations, some event.sequence⟩) .refreshing)
  | crash {w : World} : Step .crash w { w with phase := .refreshing }
  | rebuild {w : World} : Step .rebuild w { w with kept := .empty, cursor := 0, phase := .refreshing }

/-- What the loop does next, with the time it reads if it reads one. -/
def World.nextAction (now : Int) (w : World) : Action :=
  match w.phase with
  | .refreshing => .read
  | .applying _ _ => .apply
  | .caughtUp => .fire now
  | .emitting now _ => .emit now
  | .waiting => .wake
  | .handling _ handling => .finish handling.changes
  | .ended _ => .crash

/-- The next step of the loop, or a new start where it has ended. -/
def World.next (now : Int) (draws : Draws) (w : World) : World :=
  match w.phase with
  | .refreshing => w.read lib host search
  | .applying _ mutations => w.settle (w.commit host [] draws none ⟨[], mutations, none⟩) .refreshing
  | .caughtUp => w.fire lib now
  | .emitting _ firing => w.settle (w.commit host [] draws none ⟨firing.output, firing.mutations, none⟩) .waiting
  | .waiting => { w with phase := .refreshing }
  | .handling event handling => w.settle (w.commit host [] draws (some event.eventId)
      ⟨handling.events, handling.mutations, some event.sequence⟩) .refreshing
  | .ended _ => { w with phase := .refreshing }

def World.told (eventId : EventId) (request : AppendRequest) (w : World) : World :=
  { w with log := w.log.appended eventId 0 request }

theorem Step.next (now : Int) (draws : Draws) (w : World) :
    Step lib host search (w.nextAction now) w (w.next lib host search now draws) := by
  unfold World.nextAction World.next
  split <;> rename_i hphase
  · exact .read hphase
  · exact .apply hphase draws
  · exact .fire hphase now
  · exact .emit hphase [] draws
  · exact .wake hphase
  · exact .finish hphase [] draws
  · exact .crash

theorem Step.told {w : World} {eventId : EventId} {request : AppendRequest} (hactor : request.actor ≠ me host)
    (hok : (w.log.append eventId 0 request).isOk = true) :
    Step lib host search .others w (w.told eventId request) := by
  cases happend : w.log.append eventId 0 request with
  | error error =>
    rw [happend] at hok
    cases hok
  | ok result =>
    have hlog : w.told eventId request = { w with log := result.2 } := by
      simp [World.told, Log.appended, happend]
    rw [hlog]
    exact .others hactor happend

def Runs (C : Action → World → World → Prop) : World → World → Prop :=
  Relation.ReflTransGen fun w w' => ∃ action, Step lib host search action w w' ∧ C action w w'

def Reachable : World → Prop := Runs lib host search (fun _ _ _ => True) .start

section Commit

variable {lib host search} {w w' : World} {visible : List BlobRef} {draws : Draws} {cause : Option EventId}
  {output : Output}

/-- A request the host makes of a proposal of the scheduler. -/
structure Wrote (host : HostState) (p : Proposal) (request : AppendRequest) : Prop where
  stream : request.streamId = host.delivery.agentId
  actor : request.actor = me host
  eventType : request.eventType = p.eventType
  payload : request.payload = p.payload
  causation : ∀ cause, p.causationId = some cause → request.causationId = some cause
  key : ∀ key, p.idempotencyKey = some key → request.deduplicationKey = some key

theorem appendRequest_wrote {p : Proposal} {key : Option String} {request : AppendRequest}
    (htype : p.eventType ≠ "model.requested") (h : host.appendRequest p cause key = .ok request) :
    Wrote host p request := by
  obtain ⟨payload, hpayload, rfl⟩ := host.appendRequest_stamp h
  refine ⟨rfl, rfl, rfl, ?_, fun cause' hcause => ?_, fun key' hkey => ?_⟩
  · unfold HostState.completePayload at hpayload
    split at hpayload
    · rw [if_neg htype] at hpayload
      exact (Except.ok.inj hpayload).symm
    · exact (Except.ok.inj hpayload).symm
  · simp [HostState.stamp, hcause]
  · simp [HostState.stamp, hkey]

theorem requests_wrote {checkpoint ordinal : Nat} {proposals : List Proposal} {requests : List AppendRequest}
    (htypes : ∀ p ∈ proposals, p.eventType ≠ "model.requested")
    (h : host.requests cause .handle checkpoint ordinal proposals = .ok requests) :
    Forall₂ (Wrote host) proposals requests := by
  induction proposals generalizing ordinal requests with
  | nil =>
    cases h
    exact .nil
  | cons p rest ih =>
    obtain ⟨request, hrequest, h₁⟩ := except_bind_ok.mp h
    obtain ⟨others, hothers, h₂⟩ := except_bind_ok.mp h₁
    cases h₂
    exact .cons (appendRequest_wrote (htypes p mem_cons_self) hrequest)
      (ih (fun q hq => htypes q (mem_cons_of_mem _ hq)) hothers)

theorem checkMutations_ok {mutations : List Mutation} (h : checkMutations mutations = .ok ()) :
    ∀ m ∈ mutations, m.fits = true := by
  unfold checkMutations at h
  split at h
  · cases h
  split at h
  · rename_i hnone
    intro m hm
    simpa using find?_eq_none.mp hnone m hm
  · split at h <;> cases h

/-- The event a proposal was answered with: an older one that holds its key, or one made of it. -/
def Answered (host : HostState) (log : Log) (p : Proposal) (event : CommittedEvent) : Prop :=
  ∃ request, Wrote host p request ∧ Answers log request event

/-- What a commit has done to log, state and cursor when it succeeded. -/
structure Committed (host : HostState) (w w' : World) (output : Output) : Prop where
  fits : ∀ m ∈ output.mutations, m.fits = true
  kept : w'.kept = w.kept.applyAll output.mutations
  cursor : w'.cursor = output.checkpoint.getD w.cursor
  admitted : w'.admitted = w.admitted
  events : ∃ events, List.Forall₂ (Answered host w.log) output.events events ∧
    w'.log.events = w.log.events ++ events.filter (· ∉ w.log.events)

theorem World.commit_ok (htypes : ∀ p ∈ output.events, p.eventType ≠ "model.requested")
    (h : w.commit host visible draws cause output = .ok w') : Committed host w w' output := by
  unfold World.commit at h
  split at h
  · cases h
  obtain ⟨requests, hrequests, h₁⟩ := except_bind_ok.mp h
  obtain ⟨_, hfits, h₂⟩ := except_bind_ok.mp h₁
  split at h₂
  · cases h₂
  rename_i hvalid
  split at h₂
  · cases h₂
  rename_i events log hevents
  cases h₂
  have hwrote : Forall₂ (Wrote host) output.events requests :=
    (requests_wrote htypes hrequests).imp fun _ _ h =>
      ⟨h.stream, h.actor, h.eventType, h.payload, h.causation, h.key⟩
  obtain ⟨hanswers, hlog⟩ := appendAll_answers (validate_ok hvalid).keys hevents
  refine ⟨checkMutations_ok hfits, rfl, rfl, rfl, events, ?_, hlog⟩
  exact forall₂_trans hwrote hanswers fun p request event hwrote hanswers => ⟨request, hwrote, hanswers⟩

namespace Committed

variable (h : Committed host w w' output)

include h

theorem grows : w.log.events <+: w'.log.events := by
  obtain ⟨events, -, hlog⟩ := h.events
  exact ⟨_, hlog.symm⟩

theorem new {x : CommittedEvent} (hx : x ∈ w'.log.events) :
    x ∈ w.log.events ∨ ∃ p ∈ output.events, Wrote host p x.request := by
  obtain ⟨events, hanswered, hlog⟩ := h.events
  rw [hlog, mem_append, mem_filter] at hx
  rcases hx with hold | ⟨hmem, hnew⟩
  · exact .inl hold
  · obtain ⟨p, hp, request, hwrote, hexisting | ⟨-, rfl, -⟩⟩ := forall₂_mem_right hanswered hmem
    · exact absurd (Log.existing_mem hexisting) (by simpa using hnew)
    · exact .inr ⟨p, hp, hwrote⟩

theorem answered {p : Proposal} (hp : p ∈ output.events) {key : String} (hkey : p.idempotencyKey = some key) :
    ∃ x ∈ w'.log.stream host.delivery.agentId, x.request.deduplicationKey = some key ∧
      (x ∈ w.log.events ∨ Wrote host p x.request) := by
  obtain ⟨events, hanswered, hlog⟩ := h.events
  obtain ⟨x, hx, request, hwrote, hanswers⟩ := forall₂_mem_left hanswered hp
  have hrequest := hwrote.key key hkey
  rcases hanswers with hexisting | ⟨-, rfl, hnew⟩
  · obtain ⟨key', hkey', hfind⟩ := Option.bind_eq_some_iff.mp hexisting
    obtain ⟨hmem, hstream, hheld⟩ := Ledger.findKey_some hfind
    rw [hrequest, Option.some.injEq] at hkey'
    subst hkey'
    refine ⟨x, Ledger.mem_ofStream.mpr ⟨h.grows.subset hmem, hstream.trans hwrote.stream⟩, hheld, .inl hmem⟩
  · refine ⟨x, Ledger.mem_ofStream.mpr ⟨?_, hwrote.stream⟩, hrequest, .inr hwrote⟩
    rw [hlog]
    exact mem_append_right _ (mem_filter.mpr ⟨hx, by simpa using hnew⟩)

end Committed

end Commit

end Machine

def sampleLibrary : Library where
  Zone := Unit
  Cron := Unit
  parseFromRfc3339 _ := .error "premature end of input"
  zoneFromStr _ := .error "failed to parse timezone"
  cronFromStr _ := .error "Invalid pattern"
  inRange _ := true
  findNextOccurrence _ _ _ := .error "no occurrence"
  decodeError _ := "invalid type"

def sampleHost : HostState := HostState.bare "scheduler" "agent"
  ["timer.fired", "schedule.updated", "observation.received", "capability.completed", "capability.failed"]

def sampleSearch : Log.Search := fun _ => none

def sampleRequest (component eventType : String) (payload : EventPayload) : AppendRequest where
  streamId := "agent"
  streamKind := .agent
  observedAtMs := none
  eventType := eventType
  payloadSchema := "pluribus." ++ eventType ++ "/1"
  payload := payload
  actor := ⟨.component, component⟩
  authorityId := none
  activityId := none
  correlationId := none
  causationId := none
  deduplicationKey := none

def sampleTimer : AppendRequest :=
  sampleRequest "rlm" "timer.set" (.canonicalJson (.json (.object [("dueAtMs", .number (.posInt 5))])))

def sampleDraws (n : Nat) : Draws := fun k => ("own-" ++ n.repr ++ "-" ++ k.repr, 0)

def World.steps (now : Int) (count : Nat) (w : World) : World :=
  (List.range count).foldl (fun w n => w.next sampleLibrary sampleHost sampleSearch now (sampleDraws n)) w

theorem World.steps_runs {w : World} (h : Reachable sampleLibrary sampleHost sampleSearch w) (now : Int) (count : Nat) :
    Reachable sampleLibrary sampleHost sampleSearch (w.steps now count) := by
  induction count with
  | zero => exact h
  | succ count ih =>
    have hsteps : w.steps now (count + 1) =
        (w.steps now count).next sampleLibrary sampleHost sampleSearch now (sampleDraws count) := by
      simp [World.steps, range_succ]
    rw [hsteps]
    exact ih.tail ⟨_, Step.next _ _ _ now (sampleDraws count) _, trivial⟩

theorem World.told_runs {w : World} (h : Reachable sampleLibrary sampleHost sampleSearch w) {eventId : EventId}
    {request : AppendRequest} (hactor : request.actor ≠ me sampleHost)
    (hok : (w.log.append eventId 0 request).isOk = true) :
    Reachable sampleLibrary sampleHost sampleSearch (w.told eventId request) :=
  h.tail ⟨_, Step.told _ _ _ hactor hok, trivial⟩

end Pluribus.Scheduler
