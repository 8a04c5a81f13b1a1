import Pluribus.Github.Admission
import Pluribus.Storage.Pages

namespace Pluribus.Github

open Lib Pluribus.Core Storage Pluribus.Runtime List Option Json

section Scan

variable {config : Config} {host : HostState} {search : Log.Search} {log : Log}

variable {seen rest : List CommittedEvent}

def observations (log : Log) (agentId : StreamId) : List CommittedEvent :=
  (log.stream agentId).filter fun event => event.request.eventType = "observation.received"

theorem eventType_observations {agentId : StreamId} {event : CommittedEvent} (h : event ∈ observations log agentId) :
    event ∈ log.stream agentId ∧ event.request.eventType = "observation.received" := by
  simpa using mem_filter.mp h

theorem unseen_eq {agentId : StreamId} (h : observations log agentId = seen ++ rest) :
    (log.stream agentId).filter (fun event => (seen.getLast?.map (·.sequence)).all (· < event.sequence) ∧
      event.request.eventType = "observation.received") = rest := by
  have hsorted : (observations log agentId).Pairwise (·.sequence < ·.sequence) := (log.stream_pairwise agentId).filter _
  rw [h] at hsorted
  rw [← filter_after hsorted, ← h, observations, List.filter_filter]
  exact filter_congr fun event _ => by simp

theorem query_observations (h : observations log host.delivery.agentId = seen ++ rest) :
    (host.query log search (observationsAfter (seen.getLast?.map (·.sequence))) 1).1 =
      .ok ⟨rest.take 1, (rest.take 1).getLast?.map (·.sequence)⟩ := by
  have hquery : log.query search host.delivery.agentId (observationsAfter (seen.getLast?.map (·.sequence))).query 1 =
      rest.take 1 := by
    unfold Log.query
    simp only [Filter.query, observationsAfter, any_none, Bool.false_eq_true, if_false]
    rw [← unseen_eq h]
    congr 1
    refine filter_congr fun event _ => ?_
    rw [Bool.eq_iff_iff]
    cases seen.getLast? <;> simp [EventQuery.matches, Log.textMatches]
  refine host.query_plain rfl (by decide) hquery fun event hevent => ?_
  have hmem : event ∈ observations log host.delivery.agentId := h ▸ mem_append_right _ hevent
  simp [HostState.sees, httpRequestVisible, (eventType_observations hmem).2]

theorem scan_eq {id : String} {rawBody : Json} {pages : Nat} (h : observations log host.delivery.agentId = seen ++ rest)
    (hpages : rest.length < pages) :
    scan config host search log id rawBody pages (seen.getLast?.map (·.sequence)) =
      some (inspectAll config host id rawBody rest) := by
  induction rest generalizing pages seen with
  | nil =>
    cases pages with
    | zero => cases hpages
    | succ pages =>
      unfold scan
      rw [query_observations h]
      rfl
  | cons event rest ih =>
    cases pages with
    | zero => cases hpages
    | succ pages =>
      have hnext : observations log host.delivery.agentId = (seen ++ [event]) ++ rest := by
        rw [h, append_assoc, singleton_append]
      have hfound := ih hnext (Nat.lt_of_succ_lt_succ hpages)
      rw [getLast?_append, getLast?_singleton, some_or, map_some] at hfound
      have hafter : some event.sequence ≠ seen.getLast?.map (·.sequence) := by
        intro heq
        obtain ⟨last, hlast, hsame⟩ := map_eq_some_iff.mp heq.symm
        have hsorted : (seen ++ event :: rest).Pairwise fun event later => event.sequence < later.sequence :=
          h ▸ (log.stream_pairwise host.delivery.agentId).filter _
        have := (pairwise_append.mp hsorted).2.2 last (mem_of_getLast? hlast) event mem_cons_self
        omega
      unfold scan inspectAll
      rw [query_observations h]
      simp only [take_succ_cons, take_zero, isEmpty_cons, Bool.false_eq_true, if_false,
        getLast?_singleton, map_some, isNone_some, Bool.false_or, inspectAll]
      cases hinspect : inspect config host id rawBody event with
      | error message => rfl
      | ok found =>
        cases found with
        | none =>
          rw [if_neg (by simpa using hafter)]
          exact hfound
        | some status => rfl

end Scan

section Own

variable {event : CommittedEvent}

/-- An observation of a delivery, as the connector records it. -/
structure Observes (instanceId routeId id : String) (old : Json) (request : AppendRequest) : Prop where
  actor : request.actor.id = instanceId
  eventType : request.eventType = "observation.received"
  payload : request.payload = .canonicalJson (.json old)
  provider : old.index "provider" = .string "github"
  route : old.index "routeId" = .string routeId
  delivery : old.index "deliveryId" = .string id

/-- What the instance has observed are deliveries, each under its key. -/
def Own (instanceId : String) (log : Log) : Prop :=
  ∀ event ∈ log.events, event.request.actor.id = instanceId → event.request.eventType = "observation.received" →
    ∃ routeId id old, Observes instanceId routeId id old event.request ∧
      event.request.deduplicationKey = some (observationKey routeId id)

variable {config : Config} {host : HostState} {log : Log} {id : String} {old rawBody : Json}

theorem Own.key {instanceId routeId : String} (hown : Own instanceId log) (hmem : event ∈ log.events)
    (h : Observes instanceId routeId id old event.request) :
    event.request.deduplicationKey = some (observationKey routeId id) := by
  obtain ⟨routeId', id', old', h', hkey⟩ := hown event hmem h.actor h.eventType
  have hpayload := h.payload.symm.trans h'.payload
  simp only [EventPayload.canonicalJson.injEq, JsonBytes.json.injEq] at hpayload
  subst hpayload
  have hroute := h.route.symm.trans h'.route
  have hid := h.delivery.symm.trans h'.delivery
  injection hroute with hroute
  injection hid with hid
  rw [hkey, hroute, hid]

theorem Own.unique {instanceId routeId : String} (hown : Own instanceId log) {agentId : StreamId}
    {event' : CommittedEvent} {old' : Json} (hevent : event ∈ log.stream agentId)
    (hevent' : event' ∈ log.stream agentId) (h : Observes instanceId routeId id old event.request)
    (h' : Observes instanceId routeId id old' event'.request) : event = event' := by
  obtain ⟨hmem, hstream⟩ := Ledger.mem_ofStream.mp hevent
  obtain ⟨hmem', hstream'⟩ := Ledger.mem_ofStream.mp hevent'
  exact log.wellFormed.keys event hmem event' hmem' (hstream.trans hstream'.symm) _ (hown.key hmem h) (hown.key hmem' h')

theorem value_observes {instanceId routeId : String} (h : Observes instanceId routeId id old event.request) :
    value event = .ok old := by
  simp [value, h.payload, JsonBytes.parse, Except.mapError]

theorem inspect_observes (h : Observes host.delivery.instanceId config.routeId id old event.request) :
    inspect config host id rawBody event = .ok (some (if old.index "rawBody" = rawBody then 200 else 409)) := by
  simp [inspect, h.actor, h.eventType, value_observes h, h.provider, h.route, h.delivery, bind, Except.bind, pure, Except.pure]

theorem Own.inspect (hown : Own host.delivery.instanceId log) (hevent : event ∈ log.events) :
    Github.inspect config host id rawBody event = .ok none ∨
    ∃ old, Observes host.delivery.instanceId config.routeId id old event.request := by
  by_cases hours : event.request.actor.id = host.delivery.instanceId ∧ event.request.eventType = "observation.received"
  · obtain ⟨routeId, id', old, h, -⟩ := hown event hevent hours.1 hours.2
    by_cases hsame : routeId = config.routeId ∧ id' = id
    · obtain ⟨rfl, rfl⟩ := hsame
      exact .inr ⟨old, h⟩
    · left
      simp only [Github.inspect, hours.1, hours.2, value_observes h, h.provider, h.route, h.delivery, bind, Except.bind, pure,
        Except.pure]
      simpa using hsame
  · left
    simp only [Github.inspect]
    rw [if_neg (by simpa using hours)]

theorem Own.inspectAll (hown : Own host.delivery.instanceId log) {agentId : StreamId}
    (h : Observes host.delivery.instanceId config.routeId id old event.request) {events : List CommittedEvent}
    (hevents : ∀ event ∈ events, event ∈ log.stream agentId) (hmem : event ∈ events) :
    Github.inspectAll config host id rawBody events = .ok (some (if old.index "rawBody" = rawBody then 200 else 409)) := by
  induction events with
  | nil => cases hmem
  | cons first rest ih =>
    have hfirst := hevents first mem_cons_self
    unfold Github.inspectAll
    rcases hown.inspect (Ledger.mem_ofStream.mp hfirst).1 with hnone | ⟨old', h'⟩
    · rw [hnone]
      refine ih (fun event hevent => hevents event (mem_cons_of_mem _ hevent)) ?_
      refine (mem_cons.mp hmem).resolve_left fun heq => ?_
      rw [← heq, inspect_observes h] at hnone
      cases hnone
    · obtain rfl := hown.unique (hevents event hmem) hfirst h h'
      rw [inspect_observes h]

theorem Own.scan (hown : Own host.delivery.instanceId log) {search : Log.Search}
    (hevent : event ∈ log.stream host.delivery.agentId)
    (h : Observes host.delivery.instanceId config.routeId id old event.request) :
    Github.scan config host search log id rawBody (log.events.length + 1) none =
      some (.ok (some (if old.index "rawBody" = rawBody then 200 else 409))) := by
  have hlength : (observations log host.delivery.agentId).length < log.events.length + 1 :=
    Nat.lt_succ_of_le ((length_filter_le _ _).trans (length_filter_le _ _))
  have hscan : Github.scan config host search log id rawBody (log.events.length + 1) none =
      some (Github.inspectAll config host id rawBody (observations log host.delivery.agentId)) :=
    scan_eq (nil_append (observations log host.delivery.agentId)).symm hlength
  rw [hscan, hown.inspectAll h (fun event hevent => (eventType_observations hevent).1)]
  exact mem_filter.mpr ⟨hevent, by simpa using h.eventType⟩

end Own

section Replay

variable (lib : Library) (config : Config) (host : HostState) (log : Log)

/-- A request at the webhook whose route and delivery id have an observation of this instance already. -/
structure Replay (event : CommittedEvent) (request : Json) (id : String) (old : Json) : Prop where
  eventType : event.request.eventType = "http.request.received"
  actor : event.request.actor.id = config.httpInstance
  parsed : value event = .ok request
  route : request.index "routeId" = .string config.routeId
  consumer : request.index "consumer" = .string host.delivery.instanceId
  target : (Text.split '?' ((request.index "target").asStr.getD "").toList).head? = some "/events".toList
  delivery : (header lib request "x-github-delivery").filter isDelivery = some id
  observed : ∃ event ∈ log.stream host.delivery.agentId,
    Observes host.delivery.instanceId config.routeId id old event.request

/-- What an event of an installation tells is stored already: to store it changes nothing. -/
structure Told (around : Surroundings) (stored : Option Bytes) (delivery : Checked) : Prop where
  writable : around.writable = true
  undisturbed : around.meanwhile.getD stored = stored
  stored : stored = some (lib.toVec (lifecycleDoc delivery.doc delivery.body))

def replayStatus (request old : Json) : Nat := if old.index "rawBody" = request.index "body" then 200 else 409

variable {lib config host log} {around : Surroundings} {stored : Option Bytes} {request old : Json} {id : String}
  {event : CommittedEvent} {delivery : Checked}

theorem Replay.observe (search : Log.Search) (hown : Own host.delivery.instanceId log) (h : Replay lib config host log event request id old)
    (hdelivery : Accepted lib around config stored request delivery) :
    Github.observe config host search log request delivery = .ok (replayStatus request old, none) := by
  obtain ⟨observed, hobserved, hobserves⟩ := h.observed
  obtain ⟨_, _, _, _, hpassed⟩ := hdelivery
  have hid : id = delivery.id := some.inj (h.delivery.symm.trans hpassed.id)
  subst hid
  simp only [Github.observe, replayStatus, hown.scan hobserved hobserves]

theorem load_previous {previous : Option Bytes} {doc : Json} (h : load lib around stored = .ok (previous, doc)) :
    previous = stored := by
  unfold load at h
  split at h
  · split at h
    · exact (Prod.mk.inj (Except.ok.inj h)).1.symm
    split at h
    · exact (Prod.mk.inj (Except.ok.inj h)).1.symm
    · cases h
  · cases h

theorem save_told (hdelivery : Accepted lib around config stored request delivery) :
    save lib around stored delivery.previous (lifecycleDoc delivery.doc delivery.body) = (.ok (), stored) ↔
      Told lib around stored delivery := by
  obtain ⟨_, _, _, _, hpassed⟩ := hdelivery
  have hprevious := load_previous hpassed.loaded
  constructor
  · intro h
    unfold save at h
    dsimp only at h
    split at h
    · cases h
    · rename_i hwritable
      split at h
      · rename_i hcurrent
        exact ⟨by simpa using hwritable, hcurrent.trans hprevious, (Prod.mk.inj h).2.symm⟩
      · cases h
  · rintro ⟨hwritable, hundisturbed, hstored⟩
    simp [save, hwritable, hundisturbed, hprevious, ← hstored]

/-- How a replay is handled: it is refused; or answered by its body, with the credential as it was or not; or what it
tells of an installation cannot be stored. -/
theorem Replay.handled (search : Log.Search) (around : Surroundings) (stored : Option Bytes)
    (hown : Own host.delivery.instanceId log) (h : Replay lib config host log event request id old)
    (handling : Handling) :
    (∃ status ∈ [400, 401, 403, 405, 503], (∀ delivery, ¬ Accepted lib around config stored request delivery) ∧
      handling.event lib config host search log around stored event =
        (.ok { handling with events := handling.events ++ [answer event status] }, stored)) ∨
    ∃ delivery, Accepted lib around config stored request delivery ∧
      ((∃ stored', (stored' = stored ↔ (isLifecycle delivery.kind = true → Told lib around stored delivery)) ∧
        handling.event lib config host search log around stored event =
          (.ok { handling with events := handling.events ++ [answer event (replayStatus request old)] }, stored')) ∨
      (isLifecycle delivery.kind = true ∧ ¬ Told lib around stored delivery) ∧ ∃ error stored',
        handling.event lib config host search log around stored event = (.error error, stored')) := by
  have hevent : handling.event lib config host search log around stored event =
      handling.webhook lib config host search log around stored event request := by
    simp [Handling.event, h.eventType, h.actor, h.parsed, Handling.request, h.route, h.consumer, h.target]
  rw [hevent]
  unfold Handling.webhook Github.normalize
  cases hchecked : checked lib around config stored request with
  | error status =>
    refine .inl ⟨status, checked_refused status hchecked, fun delivery hdelivery => ?_, rfl⟩
    rw [checked_of_accepted hdelivery] at hchecked
    cases hchecked
  | ok delivery =>
    have hdelivery := checked_ok hchecked
    have hobserve := h.observe search hown hdelivery
    refine .inr ⟨delivery, hdelivery, ?_⟩
    dsimp only
    by_cases hlifecycle : isLifecycle delivery.kind = true
    · rw [if_pos hlifecycle]
      have htold := save_told hdelivery
      cases hsave : save lib around stored delivery.previous (lifecycleDoc delivery.doc delivery.body) with
      | mk saved stored' =>
        rw [hsave] at htold
        cases saved with
        | error error =>
          exact .inr ⟨⟨hlifecycle, fun h => by cases (Prod.mk.inj (htold.mpr h)).1⟩, error, stored', rfl⟩
        | ok =>
          refine .inl ⟨stored', ?_, by rw [hobserve]⟩
          simpa [hlifecycle] using htold
    · rw [if_neg hlifecycle, hobserve]
      exact .inl ⟨stored, iff_of_true rfl fun htrue => absurd htrue hlifecycle, rfl⟩

theorem all_append (handling : Handling) (before after : List (CommittedEvent × Surroundings)) {handled : Handling}
    {stored' : Option Bytes} (search : Log.Search)
    (h : handling.all lib config host search log stored before = (.ok handled, stored')) :
    handling.all lib config host search log stored (before ++ after) =
      handled.all lib config host search log stored' after := by
  induction before generalizing handling stored with
  | nil =>
    cases h
    rfl
  | cons first before ih =>
    obtain ⟨event, around⟩ := first
    rw [cons_append, Handling.all]
    rw [Handling.all] at h
    cases hevent : handling.event lib config host search log around stored event with
    | mk result stored₁ =>
      rw [hevent] at h
      cases result with
      | error error => cases h
      | ok handling₁ => exact ih handling₁ h

end Replay

section Runs

variable {config : Config} {p : Proposal}

structure World where
  log : Log
  stored : Option Bytes

variable (lib : Library) (instanceId : String) (agentId : StreamId)

/-- A delivery that is handled and committed; `store` is the rest of the host's store. -/
def World.deliver (w : World) (config : Config) (host : HostState) (search : Log.Search) (state : Option Bytes)
    (input : List (CommittedEvent × Surroundings)) (store : Store) (draws : Draws) (cause : Option EventId)
    (checkpoint : Nat) : Option World :=
  match handle lib config host search w.log state w.stored input with
  | (.error _, _) => none
  | (.ok outcome, stored) =>
    match host.transact "cannot commit: " { store with log := w.log } draws cause .handle checkpoint outcome with
    | .error _ => none
    | .ok (_, store') => some ⟨store'.log, stored⟩

/-- One step: somebody else appends an event, or the connector one that is no observation; somebody else changes the
credential; a delivery is handled and not committed; or a delivery is handled and committed. The connector may be
given another configuration at any time. -/
inductive Step : World → World → Prop
  | append {w : World} {eventId : EventId} {recordedAtMs : Int} {request : AppendRequest} {event : CommittedEvent}
      {log : Log} (hother : request.actor.id = instanceId → request.eventType ≠ "observation.received")
      (h : w.log.append eventId recordedAtMs request = .ok (event, log)) : Step w { w with log := log }
  | credential {w : World} (stored : Option Bytes) : Step w { w with stored := stored }
  | attempt {w : World} (config : Config) (host : HostState) (search : Log.Search) (state : Option Bytes)
      (input : List (CommittedEvent × Surroundings)) (hinstance : host.delivery.instanceId = instanceId)
      (hagent : host.delivery.agentId = agentId) (hinput : ∀ delivered ∈ input, delivered.1 ∈ w.log.stream agentId) :
      Step w { w with stored := (handle lib config host search w.log state w.stored input).2 }
  | deliver {w w' : World} {config : Config} {host : HostState} {search : Log.Search} {state : Option Bytes}
      {input : List (CommittedEvent × Surroundings)} {store : Store} {draws : Draws} {cause : Option EventId}
      {checkpoint : Nat} (hinstance : host.delivery.instanceId = instanceId) (hagent : host.delivery.agentId = agentId)
      (hinput : ∀ delivered ∈ input, delivered.1 ∈ w.log.stream agentId)
      (h : w.deliver lib config host search state input store draws cause checkpoint = some w') : Step w w'

def Runs : World → World → Prop := Relation.ReflTransGen (Step lib instanceId agentId)

def World.start : World := ⟨Log.empty, none⟩

variable {lib instanceId agentId}

def Observing (config : Config) (events : List Proposal) : Prop :=
  ∀ p ∈ events, p.eventType = "observation.received" →
    ∃ request delivery cause, p = { observation config request delivery with causationId := cause }

theorem Observing.append {events more : List Proposal} (h : Observing config events) (hmore : Observing config more) :
    Observing config (events ++ more) := by
  intro p hp
  rcases mem_append.mp hp with hold | hnew
  · exact h p hold
  · exact hmore p hnew

theorem observing_other (h : p.eventType ≠ "observation.received") : Observing config [p] := by
  intro q hq htype
  rw [mem_singleton.mp hq] at htype
  exact absurd htype h

theorem normalize_some {host : HostState} {search : Log.Search} {log : Log} {around : Surroundings}
    {stored stored' : Option Bytes} {request : Json} {status : Nat}
    (h : normalize lib config host search log around stored request = (.ok (status, some p), stored')) :
    ∃ delivery, p = observation config request delivery := by
  have hobserve : ∀ {delivery}, observe config host search log request delivery = .ok (status, some p) →
      p = observation config request delivery := by
    intro delivery hobserve
    unfold observe at hobserve
    split at hobserve <;> cases hobserve
    rfl
  unfold normalize at h
  split at h
  · cases h
  rename_i delivery hdelivery
  refine ⟨delivery, ?_⟩
  split at h
  · split at h
    · cases h
    · exact hobserve (Prod.mk.inj h).1
  · exact hobserve (Prod.mk.inj h).1

section Handled

variable {config : Config} {host : HostState} {search : Log.Search} {log : Log} {around : Surroundings}
  {stored stored' : Option Bytes} {event : CommittedEvent} {h h' : Handling}

theorem answer_observing (status : Nat) : Observing config [answer event status] :=
  observing_other (show "http.response.requested" ≠ "observation.received" by decide)

theorem webhook_observing {request : Json} (hobserving : Observing config h.events)
    (hresult : h.webhook lib config host search log around stored event request = (.ok h', stored')) :
    Observing config h'.events := by
  unfold Handling.webhook at hresult
  split at hresult
  · cases hresult
  · cases hresult
    exact hobserving.append (answer_observing _)
  · rename_i status p stored₁ hnormalize
    obtain ⟨delivery, rfl⟩ := normalize_some hnormalize
    dsimp only at hresult
    split at hresult
    · cases hresult
      exact hobserving.append (answer_observing _)
    · cases hresult
      have hnew : Observing config [{ observation config request delivery with causationId := some event.eventId }] :=
        fun p hp _ => ⟨request, delivery, some event.eventId, mem_singleton.mp hp⟩
      exact hobserving.append (hnew.append (answer_observing status))

theorem request_observing {request : Json} (hobserving : Observing config h.events)
    (hresult : h.request lib config host search log around stored event request = (.ok h', stored')) :
    Observing config h'.events := by
  unfold Handling.request at hresult
  split at hresult
  · cases hresult
    exact hobserving
  split at hresult
  · cases hresult
    exact hobserving.append (observing_other (show "http.response.requested" ≠ "observation.received" by decide))
  · exact webhook_observing hobserving hresult

theorem timerFired_observing (fired : Json) (hobserving : Observing config h.events) :
    Observing config (h.timerFired lib config around stored event fired).1.events := by
  unfold Handling.timerFired
  split
  · exact hobserving.append (observing_other (show "timer.set" ≠ "observation.received" by decide))
  · exact hobserving

theorem enrollment_observing (request : Json) (hobserving : Observing config h.events) :
    Observing config (h.enrollment lib config host around stored event request).1.events := by
  unfold Handling.enrollment
  split
  · exact hobserving
  · exact hobserving.append (observing_other (show "credential.enrollment.started" ≠ "observation.received" by decide))

theorem event_observing (hobserving : Observing config h.events)
    (hresult : h.event lib config host search log around stored event = (.ok h', stored')) :
    Observing config h'.events := by
  unfold Handling.event at hresult
  split at hresult
  · split at hresult
    · cases hresult
    · rename_i fired _
      cases hresult
      exact timerFired_observing fired hobserving
  split at hresult
  · split at hresult
    · cases hresult
    · rename_i request _
      cases hresult
      exact enrollment_observing request hobserving
  split at hresult
  · cases hresult
    exact hobserving
  split at hresult
  · cases hresult
  · exact request_observing hobserving hresult

theorem all_observing {input : List (CommittedEvent × Surroundings)} (hobserving : Observing config h.events)
    (hresult : h.all lib config host search log stored input = (.ok h', stored')) : Observing config h'.events := by
  induction input generalizing h stored with
  | nil =>
    cases hresult
    exact hobserving
  | cons first input ih =>
    rw [Handling.all] at hresult
    split at hresult
    · cases hresult
    · rename_i h₁ stored₁ hevent
      exact ih (event_observing hobserving hevent) hresult

theorem handle_observing {state : Option Bytes} {input : List (CommittedEvent × Surroundings)} {outcome : GuestOutcome}
    (hresult : handle lib config host search log state stored input = (.ok outcome, stored')) :
    Observing config outcome.events := by
  unfold handle at hresult
  split at hresult
  · cases hresult
  · rename_i active _
    cases hall : Handling.all lib config host search log ⟨[], [], [], active⟩ stored input with
    | mk result stored₁ =>
      rw [hall] at hresult
      cases result with
      | error error => cases hresult
      | ok handled =>
        cases hresult
        exact all_observing (fun p hp => by cases hp) hall

end Handled

theorem observes_stamped {host : HostState} {key : Option String} {request : AppendRequest}
    (hstamped : host.Stamped p key request) (hobserving : p.eventType = "observation.received" →
      ∃ request delivery cause, p = { observation config request delivery with causationId := cause })
    (htype : request.eventType = "observation.received") :
    ∃ routeId id old, Observes host.delivery.instanceId routeId id old request ∧
      request.deduplicationKey = some (observationKey routeId id) := by
  obtain ⟨received, delivery, cause, rfl⟩ := hobserving (hstamped.eventType ▸ htype)
  have hpayload : request.payload = .canonicalJson (.json (observationJson config received delivery)) :=
    (Except.ok.inj hstamped.payload).symm
  refine ⟨config.routeId, delivery.id, observationJson config received delivery, ⟨?_, htype, hpayload, ?_, ?_, ?_⟩, ?_⟩
  · rw [hstamped.actor]
  · simp [observationJson, index, get_ofFields]
  · simp [observationJson, index, get_ofFields]
  · simp [observationJson, index, get_ofFields]
  · rw [hstamped.key]
    rfl

theorem own_step {w w' : World} (hown : Own instanceId w.log) (hstep : Step lib instanceId agentId w w') :
    Own instanceId w'.log := by
  cases hstep with
  | append hother happend =>
    intro event hevent hactor htype
    rcases Log.append_new happend hevent with hold | rfl
    · exact hown event hold hactor htype
    · exact absurd htype (hother hactor)
  | credential stored | attempt => exact hown
  | @deliver _ config host search state input store draws cause checkpoint hinstance _ _ hdeliver =>
    unfold World.deliver at hdeliver
    split at hdeliver
    · cases hdeliver
    rename_i outcome stored hhandle
    split at hdeliver
    · cases hdeliver
    rename_i answered store' htransact
    cases hdeliver
    intro event hevent hactor htype
    obtain ⟨commit, receipt, hcommit, hrequests, -⟩ := host.transact_ok htransact
    rcases Store.commit_new hcommit hevent with hold | hnew
    · exact hown event hold hactor htype
    · obtain ⟨p, hp, key, hrequest⟩ := host.mem_requests hrequests hnew
      subst hinstance
      exact observes_stamped (host.appendRequest_ok hrequest) (handle_observing hhandle p hp) htype

theorem Runs.own {w w' : World} (hown : Own instanceId w.log) (h : Runs lib instanceId agentId w w') :
    Own instanceId w'.log := by
  induction h with
  | refl => exact hown
  | tail _ hstep ih => exact own_step ih hstep

end Runs

section Replays

variable {lib : Library} {instanceId : String} {agentId : StreamId} {w : World} {config : Config} {host : HostState}

end Replays

section Samples

variable {w : World}

def sampleAppend (kind id : String) (body : Json) : AppendRequest where
  streamId := "agent"
  streamKind := .agent
  observedAtMs := none
  eventType := "http.request.received"
  payloadSchema := "pluribus.http.request.received/1"
  payload := .canonicalJson (.json (sampleRequest kind id body))
  actor := ⟨.component, "http"⟩
  authorityId := none
  activityId := none
  correlationId := none
  causationId := none
  deduplicationKey := none

def World.serve (w : World) (kind id : String) (body : Json) : Option World :=
  match w.log.append id 0 (sampleAppend kind id body) with
  | .error _ => none
  | .ok (event, log) =>
    if event ∈ log.stream "agent" then
      { w with log := log }.deliver sampleLibrary sampleConfig sampleHost sampleSearch none [(event, sampleAround)]
        { Store.empty with cursor := fun _ => event.sequence - 1 } (fun k => (id ++ k.repr, 0)) none (event.sequence - 1)
    else none

def recorded (observed : Json) (w : World) : Bool :=
  (w.log.stream "agent").any fun event => event.request.actor.id = "github" &&
    event.request.eventType = "observation.received" && event.request.payload = .canonicalJson (.json observed)

end Samples

end Pluribus.Github
