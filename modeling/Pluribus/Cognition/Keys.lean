import Pluribus.Cognition.Admission
import Pluribus.Runtime.Proposal

namespace Pluribus.Cognition

open Lib Lib.Contract Pluribus.Core Storage Pluribus.Runtime List EnsuresOk

variable {request : AppendRequest} {event : CommittedEvent} {store store' : Store}

/-- No event under the request's key has another author or another type. -/
def Unclaimed (log : Log) (request : AppendRequest) : Prop :=
  ∀ event, log.existing request = some event →
    event.request.actor = request.actor ∧ event.request.eventType = request.eventType

/-- The log holds the event, by the author and of the type of the request. -/
structure Own (log : Log) (request : AppendRequest) (event : CommittedEvent) : Prop where
  mem : event ∈ log.events
  actor : event.request.actor = request.actor
  eventType : event.request.eventType = request.eventType

theorem Answers.own_iff {log log' : Log} (h : Answers log request event) (hmem : event ∈ log'.events) :
    Own log' request event ↔ Unclaimed log request := by
  constructor
  · intro hown found hfound
    rcases h with hexisting | ⟨hnone, -, -⟩
    · rw [hexisting] at hfound
      cases hfound
      exact ⟨hown.actor, hown.eventType⟩
    · rw [hnone] at hfound
      cases hfound
  · intro hunclaimed
    rcases h with hexisting | ⟨-, hrequest, -⟩
    · obtain ⟨hactor, htype⟩ := hunclaimed event hexisting
      exact ⟨hmem, hactor, htype⟩
    · exact ⟨hmem, by rw [hrequest], by rw [hrequest]⟩

theorem append_own_iff {eventId : EventId} {recordedAtMs : Int}
    (h : store.append eventId recordedAtMs request = .ok (event, store')) :
    Own store'.log request event ↔ Unclaimed store.log request := by
  obtain ⟨log', hlog, rfl⟩ := Store.append_log h
  exact Answers.own_iff (Log.append_answers hlog) (Log.append_mem hlog)

theorem commit_own_iff {draws : Draws} {commit : DeliveryCommit} {receipt : DeliveryReceipt}
    (h : store.commit draws commit = .ok (receipt, store')) :
    Forall₂ (Own store'.log) commit.events receipt.events ↔
      ∀ request ∈ commit.events, Unclaimed store.log request := by
  obtain ⟨hvalid, -, hevents, -⟩ := Store.commit_ok h
  obtain ⟨hanswers, hlog⟩ := appendAll_answers (validate_ok hvalid).keys hevents
  have hmem : ∀ event ∈ receipt.events, event ∈ store'.log.events := by
    intro event hevent
    rw [hlog]
    by_cases hold : event ∈ store.log.events
    · exact mem_append_left _ hold
    · exact mem_append_right _ (mem_filter.mpr ⟨hevent, by simpa using hold⟩)
  have hboth := (forall₂_and_left _ _).mpr ⟨hmem, hanswers.flip⟩
  exact forall₂_iff_left (R := fun request event => event ∈ store'.log.events ∧ Answers store.log request event)
    (p := Unclaimed store.log) (fun request event h => Answers.own_iff h.2 h.1) hboth.flip

/-- The records the host keeps about a request, each under a key made of the request's identifier. -/
def gated : List (String × String) :=
  [("policy.decision", "policy:"), ("capability.denied", "denied:"), ("activity.attempted", "attempt:")]

def Proposed (request : AppendRequest) : Prop :=
  ∃ (host : HostState) (proposal : Proposal) (causation : Option EventId) (derivedKey : Option String),
    host.registry = EventTypeRegistry.core ∧ host.appendRequest proposal causation derivedKey = .ok request

/-- What the router of some host asks the store to append. -/
inductive HostWrite : AppendRequest → Prop
  | decision (router : Router) (event : CommittedEvent) (capability : CapabilityName) (routed : Routed) :
      HostWrite (router.decisionRecord event capability routed)
  | denial (router : Router) (event : CommittedEvent) (reason : String) :
      HostWrite (router.denialRecord event reason)
  | admission (a : Admission) : HostWrite (a.router.admissionRecord a.request a.provider a.claim)
  | other (router : Router) (eventType payloadSchema : String) (payload : Json) (source : Option CommittedEvent)
      (key : Option String) (hother : eventType ∉ gated.map (·.1)) :
      HostWrite (router.hostRecord eventType payloadSchema payload source key)

/-- One write of a component or a host that meets no foreign event under its keys. -/
inductive Write : Store → Store → Prop
  | append {store store' : Store} {eventId : EventId} {recordedAtMs : Int} {request : AppendRequest}
      {event : CommittedEvent} (hauthor : Proposed request ∨ HostWrite request)
      (hunclaimed : Unclaimed store.log request)
      (h : store.append eventId recordedAtMs request = .ok (event, store')) : Write store store'
  | commit {store store' : Store} {draws : Draws} {commit : DeliveryCommit} {receipt : DeliveryReceipt}
      (hauthors : ∀ request ∈ commit.events, Proposed request ∨ HostWrite request)
      (hunclaimed : ∀ request ∈ commit.events, Unclaimed store.log request)
      (h : store.commit draws commit = .ok (receipt, store')) : Write store store'

/-- Runs in which every write meets no foreign event under its keys. -/
def ownKeys : Contract StoreOp StoreOp.Res Store where
  good _ := True
  interferes := Relation.ReflTransGen Write
  demands _ _ := True
  answers op store r store' := op.Answers store r store' ∧
    ∀ request, op = .append request → HostWrite request ∧ Unclaimed store.log request
  interferes_refl _ := .refl
  interferes_trans := .trans

/-- A record about a request is the host's, names the request as its cause and carries its key. -/
def Genuine (store : Store) : Prop :=
  ∀ event ∈ store.log.events, ∀ record ∈ gated, event.request.eventType = record.1 →
    event.request.actor.kind = .node ∧
    ∃ id, event.request.causationId = some id ∧ event.request.deduplicationKey = some (record.2 ++ id)

/-- What a request must satisfy for its event to be genuine. -/
def GenuineRequest (request : AppendRequest) : Prop :=
  ∀ record ∈ gated, request.eventType = record.1 →
    request.actor.kind = .node ∧
    ∃ id, request.causationId = some id ∧ request.deduplicationKey = some (record.2 ++ id)

theorem Proposed.genuine (h : Proposed request) : GenuineRequest request := by
  obtain ⟨host, proposal, causation, derivedKey, hregistry, hrequest⟩ := h
  have hauthorized := (host.appendRequest_ok hrequest).authorized
  rw [hregistry] at hauthorized
  intro record hrecord htype
  have hreserved : ∀ r ∈ gated, r.1 ∈ RESERVED_EVENT_TYPES ∧ r.1 ≠ "observation.received" := by decide
  obtain ⟨hmem, hne⟩ := hreserved record hrecord
  exact absurd (htype ▸ EventTypeRegistry.authorize_reserved hauthorized (htype ▸ hmem)) hne

theorem hostRecord_genuine (router : Router) {kind lead : String} (hgated : (kind, lead) ∈ gated)
    (payloadSchema : String) (payload : Json) (source : CommittedEvent) :
    GenuineRequest (router.hostRecord kind payloadSchema payload (some source) (some (lead ++ source.eventId))) := by
  have hunique : ∀ record ∈ gated, ∀ other ∈ gated, record.1 = other.1 → record = other := by decide
  intro record hrecord htype
  obtain rfl := hunique (kind, lead) hgated record hrecord htype
  exact ⟨rfl, source.eventId, rfl, rfl⟩

theorem HostWrite.genuine (h : HostWrite request) : GenuineRequest request := by
  cases h with
  | decision router event capability routed | denial router event reason =>
    exact hostRecord_genuine router (by decide) _ _ event
  | admission a => exact hostRecord_genuine a.router (by decide) _ _ a.request
  | other router eventType payloadSchema payload source key hother =>
    intro record hrecord htype
    have heq : eventType = record.1 := htype
    exact absurd (heq ▸ mem_map_of_mem hrecord) hother

theorem Genuine.extend (h : Genuine store)
    (hnew : ∀ event ∈ store'.log.events, event ∈ store.log.events ∨ GenuineRequest event.request) : Genuine store' := by
  intro event hevent record hrecord htype
  rcases hnew event hevent with hold | hgenuine
  · exact h event hold record hrecord htype
  · exact hgenuine record hrecord htype

theorem Write.genuine (hwrite : Write store store') (h : Genuine store) : Genuine store' := by
  have hrequest : ∀ {request : AppendRequest}, Proposed request ∨ HostWrite request → GenuineRequest request :=
    fun hauthor => hauthor.elim Proposed.genuine HostWrite.genuine
  cases hwrite with
  | append hauthor _ happend =>
    refine h.extend fun event hevent => (Store.append_new happend hevent).imp_right fun heq => ?_
    rw [heq]
    exact hrequest hauthor
  | commit hauthors _ hcommit =>
    exact h.extend fun event hevent => (Store.commit_new hcommit hevent).imp_right fun hmem => hrequest (hauthors _ hmem)

theorem reaches_genuine (hsteps : Relation.ReflTransGen Write store store') (h : Genuine store) : Genuine store' := by
  induction hsteps with
  | refl => exact h
  | tail _ hwrite ih => exact hwrite.genuine ih

inductive HostCall where
  | decision (router : Router) (event : CommittedEvent) (capability : CapabilityName) (routed : Routed)
  | denial (router : Router) (event : CommittedEvent) (reason : String)
  | admission (a : Admission)

namespace HostCall

def body : HostCall → Prog StoreOp StoreOp.Res (Except RouterError Unit)
  | decision router event capability routed => (router.appendDecision event capability routed).run
  | denial router event reason => (router.appendDenial event reason >>= fun _ => pure ()).run
  | admission a => (a.router.admitAttempt a.request a.provider a.claim >>= fun _ => pure ()).run

def kind : HostCall → String
  | decision _ _ _ _ => "policy.decision"
  | denial _ _ _ => "capability.denied"
  | admission _ => "activity.attempted"

def about : HostCall → CommittedEvent
  | decision _ event _ _ => event
  | denial _ event _ => event
  | admission a => a.request

end HostCall

def Recorded (kind : String) (request : CommittedEvent) (store : Store) : Prop :=
  ∃ event ∈ store.log.events, event.request.actor.kind = .node ∧ event.request.eventType = kind ∧
    event.request.causationId = some request.eventId

theorem Write.extends (h : Write store store') : store.log.events <+: store'.log.events := by
  cases h with
  | append _ _ happend => exact (Store.Step.append happend).extends
  | commit _ _ hcommit => exact (Store.Step.commit hcommit).extends

theorem Recorded.reaches {kind : String} {request : CommittedEvent} (h : Recorded kind request store)
    (hsteps : Relation.ReflTransGen Write store store') : Recorded kind request store' := by
  have hextends : store.log.events <+: store'.log.events := by
    induction hsteps with
    | refl => exact prefix_refl _
    | tail _ hwrite ih => exact ih.trans hwrite.extends
  obtain ⟨event, hevent, hrecord⟩ := h
  exact ⟨event, hextends.subset hevent, hrecord⟩

def genuineKeys : Contract StoreOp StoreOp.Res Store :=
  { ownKeys with good := fun store => ownKeys.good store ∧ Genuine store }

theorem recorded_of_append {router : Router} {kind lead payloadSchema : String} (hgated : (kind, lead) ∈ gated)
    {payload : Json} {source : CommittedEvent} (h : ownKeys.answers
      (.append (router.hostRecord kind payloadSchema payload (some source) (some (lead ++ source.eventId)))) store
      (.ok event) store') (hgenuine : Genuine store') : Recorded kind source store' := by
  obtain ⟨⟨eventId, recordedAtMs, happend⟩, hwrite⟩ := h
  have hown := (append_own_iff happend).mpr (hwrite _ rfl).2
  obtain ⟨log', hlog, rfl⟩ := Store.append_log happend
  obtain ⟨-, -, hkey⟩ := Ledger.findKey_some (Log.append_find rfl hlog)
  obtain ⟨hnode, id, hcause, hkey'⟩ := hgenuine event hown.mem (kind, lead) hgated hown.eventType
  refine ⟨event, hown.mem, hnode, hown.eventType, ?_⟩
  have hid : lead ++ source.eventId = lead ++ id := Option.some.inj (hkey.symm.trans hkey')
  rw [hcause, (String.append_right_inj lead).mp hid]

theorem answers_reaches {op : StoreOp} {r : op.Res} (h : ownKeys.answers op store r store') :
    Relation.ReflTransGen Write store store' := by
  obtain ⟨hanswer, hwrite⟩ := h
  obtain rfl | ⟨request, _, _, _, rfl, happend⟩ := hanswer.unchanged_or_append
  · exact .refl
  · exact .single (.append (.inr (hwrite request rfl).1) (hwrite request rfl).2 happend)

section Calls

variable (router : Router) (store : Store)

theorem ask_recorded {kind lead payloadSchema : String} (hgated : (kind, lead) ∈ gated) {payload : Json}
    {source : CommittedEvent} :
    genuineKeys.EnsuresOk (Router.ask
      (.append (router.hostRecord kind payloadSchema payload (some source) (some (lead ++ source.eventId)))))
      (fun _ store' => Recorded kind source store') store := by
  refine StoreM.ask_ensures fun _ _ _ => ⟨trivial, fun event store₁ hanswer hgood store₂ h₂ _ => ?_⟩
  exact (recorded_of_append hgated hanswer hgood.2).reaches h₂

theorem appendDecision_recorded (event : CommittedEvent) (capability : CapabilityName) (routed : Routed) :
    genuineKeys.EnsuresOk (router.appendDecision event capability routed)
      (fun _ store' => Recorded "policy.decision" event store') store := by
  refine bind (Router.validated_ensures fun store₁ _ _ => ?_)
  refine bind ((ask_recorded router store₁ (by decide)).mono fun _ _ _ hrecorded => ?_)
  exact pure fun _ hsteps _ => hrecorded.reaches hsteps

theorem appendDenial_recorded (event : CommittedEvent) (reason : String) :
    genuineKeys.EnsuresOk (router.appendDenial event reason)
      (fun _ store' => Recorded "capability.denied" event store') store :=
  ask_recorded router store (by decide)

theorem claimAttempt_recorded (request : CommittedEvent) (provider claim : String) :
    genuineKeys.EnsuresOk (router.claimAttempt request provider claim)
      (fun _ store' => Recorded "activity.attempted" request store') store := by
  refine bind (Router.validated_ensures fun store₁ _ _ => ?_)
  refine bind ((ask_recorded router store₁ (by decide)).mono fun _ _ _ hrecorded => ?_)
  exact pure fun _ hsteps _ => hrecorded.reaches hsteps

theorem recorded_of_page {request : CommittedEvent} {after : Nat} {page : List CommittedEvent} {store store' : Store}
    (h : ownKeys.answers (.query router.streamId { afterSequence := some after, eventTypes := ["activity.attempted"] } 100)
      store (.ok page) store') (hgenuine : Genuine store')
    (hfound : page.any (Router.causedBy request.eventId) = true) :
    Recorded "activity.attempted" request store' := by
  obtain ⟨⟨⟨search, rfl⟩, rfl⟩, -⟩ := h
  obtain ⟨event, hevent, hcause⟩ := any_eq_true.mp hfound
  obtain ⟨hstream, hmatches⟩ := Log.mem_query hevent
  have hmem : event ∈ store'.log.events := (Ledger.mem_ofStream.mp hstream).1
  have htype : event.request.eventType = "activity.attempted" := by
    simpa using (EventQuery.matches_types.mp hmatches).2
  obtain ⟨hnode, -⟩ := hgenuine event hmem ("activity.attempted", "attempt:") (by decide) htype
  exact ⟨event, hmem, hnode, htype, of_decide_eq_true hcause⟩

theorem admitAttempt_recorded (request : CommittedEvent) (provider claim : String) :
    genuineKeys.EnsuresOk (router.admitAttempt request provider claim)
      (fun _ store' => Recorded "activity.attempted" request store') store := by
  refine Router.pages_ensures (fun _ _ _ _ => True)
    (fun _ _ store _ => claimAttempt_recorded router store request provider claim) ?_ trivial
  intro _ _ _ store _
  refine StoreM.ask_ensures fun _ _ _ => ⟨trivial, fun page store₁ hanswer hgood store₂ h₂ _ => ?_⟩
  refine ⟨fun _ => claimAttempt_recorded router store₂ request provider claim, fun last _ => ?_⟩
  split
  · rename_i hfound
    have hrecorded := (recorded_of_page router hanswer hgood.2 hfound).reaches h₂
    refine (frame (Prog.uses_true _) (fun _ _ h hr => hr.reaches h)
      (fun _ _ _ _ _ _ h hr => hr.reaches (answers_reaches h)) (of_uses (Prog.uses_true _) (fun _ _ _ _ => trivial) store₂)
      hrecorded).mono fun r store₃ _ hr => ?_
    exact ⟨fun _ _ => trivial, fun _ _ store₄ h₄ _ => hr.2.reaches h₄⟩
  · refine pure fun _ _ _ => ⟨fun _ _ => trivial, fun b hb => ?_⟩
    cases hb

end Calls

theorem HostCall.body_recorded (call : HostCall) (store : Store) :
    genuineKeys.Ensures call.body (fun r store' => ∀ u, r = .ok u → Recorded call.kind call.about store') store := by
  cases call with
  | decision router event capability routed => exact appendDecision_recorded router store event capability routed
  | denial router event reason =>
    refine bind ((appendDenial_recorded router store event reason).mono fun _ _ _ hrecorded => ?_)
    exact pure fun _ hsteps _ => hrecorded.reaches hsteps
  | admission a =>
    refine bind ((admitAttempt_recorded a.router store a.request a.provider a.claim).mono
      fun _ _ _ hrecorded => ?_)
    exact pure fun _ hsteps _ => hrecorded.reaches hsteps

/-- Keys are confined to their author exactly as far as no event of another author or type holds
them: so it is for every append and every commit, and in a run of components and hosts whose
writes all meet that condition the record of every host call that returns exists. -/
theorem keys_confined (store store' : Store) :
    (∀ (eventId : EventId) (recordedAtMs : Int) (request : AppendRequest) (event : CommittedEvent),
      store.append eventId recordedAtMs request = .ok (event, store') →
        (Own store'.log request event ↔ Unclaimed store.log request)) ∧
    (∀ (draws : Draws) (commit : DeliveryCommit) (receipt : DeliveryReceipt),
      store.commit draws commit = .ok (receipt, store') →
        (List.Forall₂ (Own store'.log) commit.events receipt.events ↔
          ∀ request ∈ commit.events, Unclaimed store.log request)) ∧
    ∀ pool : Pool StoreOp StoreOp.Res Store HostCall (Except RouterError Unit),
      Pool.Reachable ownKeys HostCall.body Store.empty pool →
        ∀ call, (call, .done (.ok ())) ∈ pool.calls → Recorded call.kind call.about pool.world := by
  refine ⟨fun _ _ _ _ => append_own_iff, fun _ _ _ => commit_own_iff, fun pool hrun call hcall => ?_⟩
  have hempty : Genuine Store.empty := fun event hevent => nomatch hevent
  obtain ⟨hgenuine, -⟩ := hrun.invariant (fun _ _ => reaches_genuine)
    (fun _ _ _ _ hanswer => reaches_genuine (answers_reaches hanswer)) hempty
  exact Pool.Reachable.result (c := genuineKeys) (fun _ _ _ _ => answers_reaches) (fun call store _ => call.body_recorded store)
    ⟨trivial, hempty⟩ hgenuine hcall () rfl

def shell : HostState := .bare "shell" "personal" ["capability.output"]

/-- A component's proposal under the key the host uses for its decision about `event-1`. -/
def hijack : Proposal where
  eventType := "capability.output"
  payloadSchema := "pluribus.output/1"
  payload := .canonicalJson (.json (.object []))
  idempotencyKey := some "policy:event-1"
  causationId := none

def hijackRequest : AppendRequest := shell.stamp hijack none none hijack.payload

def capabilityRequest : CommittedEvent :=
  ⟨CommittedEvent.SCHEMA, "event-1", 1, 0,
    Admission.componentRequest "capability.requested" (.object [("capability", .string "shell.run")])⟩

def hijacked : Store :=
  (StoreOp.serve (.append hijackRequest) (StoreOp.serve (.append capabilityRequest.request) Store.empty).2).2

def decisionCall : HostCall := .decision Admission.readerRouter capabilityRequest "shell.run" (.deliver "shell")

/-- A component that guesses the key of a decision before the gate has run takes its place: the
host is told that the decision is in the log, and it is not. -/
theorem decision_displaced :
    shell.appendRequest hijack none none = .ok hijackRequest ∧ capabilityRequest ∈ hijacked.log.events ∧
    (decisionCall.body.run StoreOp.serve hijacked).1 = .ok () ∧
    ∀ event ∈ (decisionCall.body.run StoreOp.serve hijacked).2.log.events,
      event.request.eventType ≠ "policy.decision" := by
  decide +kernel

/-- The store after the gate has decided. -/
def decided : Store := (decisionCall.body.run StoreOp.serve Store.empty).2

theorem decided_reachable :
    Pool.Reachable ownKeys HostCall.body Store.empty ⟨decided, [(decisionCall, .done (.ok ()))]⟩ := by
  let record := Admission.readerRouter.decisionRecord capabilityRequest "shell.run" (.deliver "shell")
  have hstart : Pool.Reachable ownKeys HostCall.body Store.empty ⟨Store.empty, [] ++ [(decisionCall, decisionCall.body)]⟩ :=
    .single (.start decisionCall)
  have hanswer : ownKeys.answers (.append record) Store.empty (StoreOp.serve (.append record) Store.empty).1 decided := by
    refine ⟨StoreOp.serve_answers (.append record) Store.empty, fun request h => ?_⟩
    cases h
    refine ⟨.decision _ _ _ _, fun event hevent => ?_⟩
    have hnone : Store.empty.log.existing record = none := rfl
    cases hnone.symm.trans hevent
  exact hstart.tail (Pool.Step.operation hanswer trivial)

theorem keys_confined_decided : Recorded "policy.decision" capabilityRequest decided ∧
    ∃ event store, decided.append "event-2" 0 hijackRequest = .ok (event, store) ∧ ¬ Own store.log hijackRequest event := by
  obtain ⟨event, hevent, hactor⟩ : ∃ event, decided.log.existing hijackRequest = some event ∧
      event.request.actor ≠ hijackRequest.actor := ⟨_, rfl, by decide +kernel⟩
  refine ⟨(keys_confined decided decided).2.2 _ decided_reachable decisionCall (List.mem_singleton_self _), _, _, rfl, ?_⟩
  rw [(keys_confined decided _).1 "event-2" 0 _ _ rfl]
  exact fun h => hactor (h event hevent).1
end Pluribus.Cognition
