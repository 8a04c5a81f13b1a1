import Pluribus.Cognition.Keys
import Pluribus.Cognition.Refresh
import Pluribus.Rlm.Safety

namespace Pluribus.Rlm

open Lib Lib.Contract Pluribus.Core Storage Pluribus.Runtime Cognition List Option Relation

open Engine

section Log

def named (request : AppendRequest) : Option EventId :=
  match request.payload with
  | .canonicalJson (.json value) => value.getStr "requestEventId"
  | _ => none

theorem payloadField_named (event : CommittedEvent) : payloadField event "requestEventId" = named event.request := rfl

/-- The host has decided that the provider answers the request. -/
def Decided (log : Log) (r : EventId) (provider : String) : Prop :=
  ∃ event ∈ log.events, event.request.actor.kind = .node ∧ event.request.eventType = "policy.decision" ∧
    event.request.causationId = some r ∧ payloadField event "provider" = some provider

instance (log : Log) (r : EventId) (provider : String) : Decidable (Decided log r provider) :=
  inferInstanceAs (Decidable (∃ event ∈ log.events, _ ∧ _))

/-- The log holds an event under the identifier that is, or is not, a capability request. -/
def Holds (log : Log) (r : EventId) (capability : Bool) : Prop :=
  ∃ event ∈ log.events, event.eventId = r ∧ decide (event.request.eventType = "capability.requested") = capability

instance (log : Log) (r : EventId) (capability : Bool) : Decidable (Holds log r capability) :=
  inferInstanceAs (Decidable (∃ event ∈ log.events, _ ∧ _))

/-- A component answers capability requests only as the provider the host has decided on. -/
def Faithful (log : Log) (request : AppendRequest) : Prop :=
  request.actor.kind = .component → request.eventType ∈ DispatchProjection.resultTypes →
    ∀ r ∈ request.causationId.toList ++ (named request).toList, Decided log r request.actor.id ∨ Holds log r false

instance (log : Log) (request : AppendRequest) : Decidable (Faithful log request) :=
  inferInstanceAs (Decidable (_ → _ → _))

/-- One write of components and hosts each of whose requests meets the condition. -/
inductive Writes (Q : Log → AppendRequest → Prop) : Store → Store → Prop
  | append {store store' : Store} {eventId : EventId} {recordedAtMs : Int} {request : AppendRequest}
      {event : CommittedEvent} (hauthor : Proposed request ∨ HostWrite request) (hQ : Q store.log request)
      (h : store.append eventId recordedAtMs request = .ok (event, store')) : Writes Q store store'
  | commit {store store' : Store} {draws : Draws} {commit : DeliveryCommit} {receipt : DeliveryReceipt}
      (hauthors : ∀ request ∈ commit.events, Proposed request ∨ HostWrite request)
      (hQ : ∀ request ∈ commit.events, Q store.log request)
      (h : store.commit draws commit = .ok (receipt, store')) : Writes Q store store'

variable {Q : Log → AppendRequest → Prop} {store store' : Store} {log log' : Log} {r : EventId} {event : CommittedEvent}

theorem Writes.extends (h : Writes Q store store') : store.log.events <+: store'.log.events := by
  cases h with
  | append _ _ happend => exact (Store.Step.append happend).extends
  | commit _ _ hcommit => exact (Store.Step.commit hcommit).extends

theorem Writes.new (h : Writes Q store store') (hevent : event ∈ store'.log.events) :
    event ∈ store.log.events ∨ (Proposed event.request ∨ HostWrite event.request) ∧ Q store.log event.request := by
  cases h with
  | append hauthor hQ happend =>
    refine (Store.append_new happend hevent).imp_right fun heq => ?_
    rw [heq]
    exact ⟨hauthor, hQ⟩
  | commit hauthors hQ hcommit =>
    exact (Store.commit_new hcommit hevent).imp_right fun hmem => ⟨hauthors _ hmem, hQ _ hmem⟩

theorem author_kind {request : AppendRequest} (h : Proposed request ∨ HostWrite request) :
    request.actor.kind = .component ∨ request.actor.kind = .node := by
  rcases h with ⟨host, proposal, causation, derivedKey, -, hrequest⟩ | hhost
  · left
    rw [(host.appendRequest_ok hrequest).actor]
  · right
    cases hhost <;> rfl

theorem Faithful.grow {request : AppendRequest} (h : Faithful log request) (hgrows : log.events <+: log'.events) :
    Faithful log' request := by
  intro hkind htype r hr
  rcases h hkind htype r hr with ⟨d, hd, hdecided⟩ | ⟨q, hq, hother⟩
  · exact .inl ⟨d, hgrows.subset hd, hdecided⟩
  · exact .inr ⟨q, hgrows.subset hq, hother⟩

/-- Every event of the log is of the host or a component, and the components answer only as decided. -/
def Answerable (log : Log) : Prop :=
  ∀ event ∈ log.events, (event.request.actor.kind = .component ∨ event.request.actor.kind = .node) ∧
    Faithful log event.request

theorem Writes.answerable (h : Writes Faithful store store') (hold : Answerable store.log) : Answerable store'.log := by
  intro event hevent
  rcases h.new hevent with hbefore | ⟨hauthor, hfaithful⟩
  · exact ⟨(hold event hbefore).1, (hold event hbefore).2.grow h.extends⟩
  · exact ⟨author_kind hauthor, hfaithful.grow h.extends⟩

theorem answerable_run (h : ReflTransGen (Writes Faithful) Store.empty store) : Answerable store.log := by
  induction h with
  | refl => exact fun event hevent => absurd hevent not_mem_nil
  | tail _ hwrite ih => exact hwrite.answerable ih

/-- The event is of the host, or of the provider the host has decided on for the request. -/
def ByProvider (log : Log) (r : EventId) (event : CommittedEvent) : Prop :=
  event.request.actor.kind = .node ∨
    event.request.actor.kind = .component ∧ Decided log r event.request.actor.id

instance (log : Log) (r : EventId) (event : CommittedEvent) : Decidable (ByProvider log r event) :=
  inferInstanceAs (Decidable (_ ∨ _))

theorem Answerable.byProvider (h : Answerable log) (hrequest : Holds log r true) (hevent : event ∈ log.events)
    (hends : Terminates r event) : ByProvider log r event := by
  obtain ⟨hkind, hfaithful⟩ := h event hevent
  refine hkind.symm.imp_right fun hcomponent => ⟨hcomponent, ?_⟩
  have hmem : r ∈ event.request.causationId.toList ++ (named event.request).toList := by
    rw [← payloadField_named]
    simpa [mem_toList] using hends.2
  refine (hfaithful hcomponent hends.1 r hmem).resolve_right fun hother => ?_
  obtain ⟨q, hq, hid, hcapability⟩ := hrequest
  obtain ⟨q', hq', hid', hcapability'⟩ := hother
  obtain rfl := log.event_unique hq hq' (hid.trans hid'.symm)
  exact Bool.noConfusion (hcapability.symm.trans hcapability')

end Log

section Cells

def Engine.awaits (e : Engine) (session : String) (r : EventId) : Bool :=
  (e.tasks.find session).any fun task => task.pending.any fun pending => pending.index "request" = .string r

def Draft.resumes (draft : Draft) (session : String) : Bool :=
  draft.kind = .codeResumed && draft.payload.index "sessionId" = .string session

structure Engine.Input.delivers (input : Input) (event : CommittedEvent) : Prop where
  id : input.id = event.eventId
  kind : input.kind.name = event.request.eventType
  payload : event.request.payload = .canonicalJson (.json input.value)
  cause : input.cause = event.request.causationId

variable {config : Config} {e d : Engine} {input : Input} {session : String} {out : List Draft} {draft : Draft}
  {event : CommittedEvent} {r : EventId}

theorem capabilityAnswered_resumes {kind : Kind} {value : Json} {cause : Option String} {id : String}
    (h : e.capabilityAnswered kind value cause id = .ok (d, out)) (hdraft : draft ∈ out)
    (hresumes : draft.resumes session = true) (hawaits : e.awaits session r = true) :
    r = ((value.getStr "requestEventId").or cause).getD "" := by
  unfold capabilityAnswered at h
  dsimp only at h
  split at h
  · cases h
    cases hdraft
  · next s task hfind =>
    have hpending := find?_some hfind
    have htask := Map.find_eq_some.mpr (mem_of_find?_eq_some hfind)
    split at h
    · cases h
      rw [mem_singleton] at hdraft
      rw [hdraft] at hresumes
      cases hresumes
    · cases h
      rw [mem_singleton] at hdraft
      rw [hdraft] at hresumes
      obtain rfl := Json.string.inj (of_decide_eq_true (Bool.and_eq_true_iff.mp hresumes).2)
      obtain ⟨pending, hp, hrequest⟩ := (any_eq_true _ _).mp hpending
      rw [awaits, htask] at hawaits
      obtain ⟨pending', hp', hr⟩ := (any_eq_true _ _).mp (show task.pending.any _ = true from hawaits)
      obtain rfl := some.inj (hp.symm.trans hp')
      exact Json.string.inj ((of_decide_eq_true hr).symm.trans (of_decide_eq_true hrequest))

theorem answers_capability {kind : Kind} (h : kind.resultPrefix = some "capability") :
    kind.name ∈ DispatchProjection.resultTypes ∧ ∀ (e : Engine) config id value cause,
      e.handleEvent config id kind value cause = e.capabilityAnswered kind value cause id := by
  cases kind <;> simp [Kind.resultPrefix] at h
  all_goals exact ⟨by decide, fun _ _ _ _ _ => rfl⟩

theorem terminates_of_resumes (hr : r ≠ "") (hdelivers : input.delivers event)
    (hresult : input.kind.resultPrefix = some "capability") (hawaits : e.awaits session r = true)
    (h : e.handleEvent config input.id input.kind input.value input.cause = .ok (d, out)) (hdraft : draft ∈ out)
    (hresumes : draft.resumes session = true) : Terminates r event := by
  obtain ⟨htype, hhandle⟩ := answers_capability hresult
  rw [hhandle] at h
  have hrequest := capabilityAnswered_resumes h hdraft hresumes hawaits
  refine ⟨hdelivers.kind ▸ htype, ?_⟩
  have hfield : payloadField event "requestEventId" = input.value.getStr "requestEventId" := by
    rw [payloadField, hdelivers.payload]
  rw [hfield, ← hdelivers.cause]
  cases hvalue : input.value.getStr "requestEventId" with
  | some q =>
    rw [hvalue] at hrequest
    exact .inr (congrArg some hrequest.symm)
  | none =>
    rw [hvalue] at hrequest
    cases hcause : input.cause with
    | some q =>
      rw [hcause] at hrequest
      exact .inl (congrArg some hrequest.symm)
    | none =>
      rw [hcause] at hrequest
      exact absurd hrequest hr

end Cells

/-- In a log whose components answer capability requests only as the provider decided on, the result the host finds for a
request, and every capability result that resumes the cell that waits for it, is of that provider or of the host. -/
theorem settled_by_provider {r : EventId} (hr : r ≠ "") :
    (∀ setup w, (agentContract setup).EnsuresOk (Agent.resultFor r) (fun found u => ∀ event, found = some event →
      Relation.ReflTransGen (Writes Faithful) Store.empty u.store → Holds u.store.log r true →
        ByProvider u.store.log r event) w) ∧
    ∀ store event (e : Engine) config (input : Input) session d out draft,
      Relation.ReflTransGen (Writes Faithful) Store.empty store → Holds store.log r true → event ∈ store.log.events →
      input.delivers event → input.kind.resultPrefix = some "capability" → e.awaits session r = true →
      e.handleEvent config input.id input.kind input.value input.cause = .ok (d, out) → draft ∈ out →
      draft.resumes session = true → ByProvider store.log r event := by
  constructor
  · intro setup w
    refine (Agent.resultFor_ensures "" r w).mono fun found u _ hfound event hevent hrun hrequest => ?_
    obtain ⟨hstream, hends⟩ := hfound.1 event hevent
    exact (answerable_run hrun).byProvider hrequest (Ledger.mem_ofStream.mp hstream).1 hends
  · intro store event e config input session d out draft hrun hrequest hmem hdelivers hresult hawaits hhandled hdraft hresumes
    exact (answerable_run hrun).byProvider hrequest hmem
      (terminates_of_resumes hr hdelivers hresult hawaits hhandled hdraft hresumes)

/-- The component proposes an event of the type with the payload. -/
def proposal (eventType : String) (payload : List (String × Json)) : Proposal where
  eventType := eventType
  payloadSchema := "pluribus.event/1"
  payload := .canonicalJson (.json (Json.ofFields payload))
  idempotencyKey := none
  causationId := none

def proposed (instanceId eventType : String) (payload : List (String × Json)) : AppendRequest :=
  (HostState.bare instanceId "personal" [eventType]).stamp (proposal eventType payload) none none (proposal eventType payload).payload

/-- Cognition asks for a capability; the host decides for `shell`. -/
def asked : AppendRequest := proposed "rlm" "capability.requested" [("capability", .string "shell.run")]

def decided : AppendRequest :=
  Admission.readerRouter.decisionRecord ⟨CommittedEvent.SCHEMA, "event-1", 1, 0, asked⟩ "shell.run" (.deliver "shell")

def completedBy (instanceId : String) : AppendRequest :=
  proposed instanceId "capability.completed" [("requestEventId", .string "event-1")]

def answeredBy (instanceId : String) : Store :=
  [asked, decided, completedBy instanceId].foldl (fun store request => (StoreOp.serve (.append request) store).2) Store.empty

theorem writes_serve {Q : Log → AppendRequest → Prop} {store : Store} {request : AppendRequest}
    (hauthor : Proposed request ∨ HostWrite request) (hQ : Q store.log request)
    (hok : (StoreOp.serveAppend request store).1.isOk = true) :
    Writes Q store (StoreOp.serve (.append request) store).2 := by
  change Writes Q store (StoreOp.serveAppend request store).2
  unfold StoreOp.serveAppend at hok ⊢
  split
  · next h => exact .append hauthor hQ h
  · next h =>
    rw [h] at hok
    cases hok

theorem proposed_ok {instanceId eventType : String} {payload : List (String × Json)}
    (h : (HostState.bare instanceId "personal" [eventType]).appendRequest (proposal eventType payload) none none =
      .ok (proposed instanceId eventType payload)) : Proposed (proposed instanceId eventType payload) :=
  ⟨_, _, _, _, rfl, h⟩

theorem answeredBy_run {Q : Log → AppendRequest → Prop} {instanceId : String}
    (hcompleted : Proposed (completedBy instanceId)) (hasked : Q Store.empty.log asked)
    (hdecided : Q (StoreOp.serve (.append asked) Store.empty).2.log decided)
    (hQ : Q (StoreOp.serve (.append decided) (StoreOp.serve (.append asked) Store.empty).2).2.log (completedBy instanceId))
    (hok : (StoreOp.serveAppend (completedBy instanceId)
      (StoreOp.serve (.append decided) (StoreOp.serve (.append asked) Store.empty).2).2).1.isOk = true) :
    ReflTransGen (Writes Q) Store.empty (answeredBy instanceId) := by
  have hfirst : Proposed asked := proposed_ok (by decide +kernel)
  refine .tail (.tail (.single (writes_serve (.inl hfirst) hasked ?_)) (writes_serve (.inr (.decision _ _ _ _)) hdecided ?_))
    (writes_serve (.inl hcompleted) hQ hok)
  all_goals decide +kernel

def answer (instanceId : String) : CommittedEvent :=
  ⟨CommittedEvent.SCHEMA, "event-3", 3, 0, completedBy instanceId⟩

def waiting : List Input :=
  [Engine.received "a" (Engine.message "c"),
    Engine.answered "m" "a:model:0:1" "js" [("code", .string "x")],
    { id := "y"
      kind := .codeYielded
      value := .object [
        ("args", .object [("name", .string "shell.run")]),
        ("id", Json.ofNat 1),
        ("method", .string "capability.invoke"),
        ("sessionId", .string "a")] },
    { id := "event-1", kind := .capabilityRequested, value := .object [("rlmSession", .string "a")] }]

def answerInput : Input :=
  { id := "event-3", kind := .capabilityCompleted, value := Json.ofFields [("requestEventId", .string "event-1")] }

def resumed (session : String) : Outcome → Bool
  | .ok step => step.2.any (Draft.resumes · session)
  | .error _ => false

theorem waiting_resumed : ∃ e d out draft, Chain (Takes bare guarded) {} waiting e ∧
    e.awaits "a" "event-1" = true ∧
    e.handleEvent bare answerInput.id answerInput.kind answerInput.value answerInput.cause = .ok (d, out) ∧
    draft ∈ out ∧ draft.resumes "a" = true := by
  have hsome : (runs bare guarded waiting {}).any (fun r =>
      r.1.awaits "a" "event-1" && resumed "a"
        (r.1.handleEvent bare answerInput.id answerInput.kind answerInput.value answerInput.cause)) = true := by
    decide +kernel
  obtain ⟨⟨e, out₀⟩, hruns, hsome⟩ := (any_eq_true _ _).mp hsome
  obtain ⟨hawaits, hsome⟩ := Bool.and_eq_true_iff.mp hsome
  cases hhandled : e.handleEvent bare answerInput.id answerInput.kind answerInput.value answerInput.cause with
  | error panic =>
    rw [hhandled] at hsome
    cases hsome
  | ok step =>
    rw [hhandled] at hsome
    obtain ⟨draft, hdraft, hresumes⟩ := any_eq_true.mp hsome
    exact ⟨e, step.1, step.2, draft, takes_of_runs hruns, hawaits, hhandled, hdraft, hresumes⟩

theorem settled_by_provider_shell : ∃ (e d : Engine) (out : List Draft) (draft : Draft), e.awaits "a" "event-1" = true ∧
    e.handleEvent Engine.bare answerInput.id answerInput.kind answerInput.value answerInput.cause = .ok (d, out) ∧
    draft ∈ out ∧ draft.resumes "a" = true ∧ ByProvider (answeredBy "shell").log "event-1" (answer "shell") := by
  obtain ⟨e, d, out, draft, -, hawaits, hhandled, hdraft, hresumes⟩ := waiting_resumed
  refine ⟨e, d, out, draft, hawaits, hhandled, hdraft, hresumes, ?_⟩
  have hrun : ReflTransGen (Writes Faithful) Store.empty (answeredBy "shell") :=
    answeredBy_run (proposed_ok (by decide +kernel)) (by decide +kernel) (by decide +kernel) (by decide +kernel)
      (by decide +kernel)
  exact (settled_by_provider (by decide)).2 (answeredBy "shell") (answer "shell") e bare answerInput "a" d out draft
    hrun (by decide +kernel) (by decide +kernel) ⟨rfl, rfl, rfl, rfl⟩ rfl hawaits hhandled hdraft hresumes

/-- A component that is not the provider answers: the host takes its event for the result of the request, and the engine
resumes the cell with it. -/
theorem answer_forged :
    Relation.ReflTransGen (Writes fun _ _ => True) Store.empty (answeredBy "mail") ∧
    Holds (answeredBy "mail").log "event-1" true ∧ Decided (answeredBy "mail").log "event-1" "shell" ∧
    (DispatchProjection.ofEvents (projected "personal" (answeredBy "mail").log)).results.find "event-1" =
      some (answer "mail").eventId ∧
    (answeredBy "mail").log.get (answer "mail").eventId = some (answer "mail") ∧
    ¬ ByProvider (answeredBy "mail").log "event-1" (answer "mail") ∧
    answerInput.delivers (answer "mail") ∧
    ∃ e d out draft, Chain (Engine.Takes Engine.bare Engine.guarded) {} waiting e ∧ e.awaits "a" "event-1" = true ∧
      e.handleEvent Engine.bare answerInput.id answerInput.kind answerInput.value answerInput.cause = .ok (d, out) ∧
      draft ∈ out ∧ draft.resumes "a" = true := by
  have hrun : ReflTransGen (Writes fun _ _ => True) Store.empty (answeredBy "mail") :=
    answeredBy_run (proposed_ok (by decide +kernel)) trivial trivial trivial (by decide +kernel)
  exact ⟨hrun, by decide +kernel, by decide +kernel, by decide +kernel, by decide +kernel, by decide +kernel,
    ⟨rfl, rfl, rfl, rfl⟩, waiting_resumed⟩

end Pluribus.Rlm
