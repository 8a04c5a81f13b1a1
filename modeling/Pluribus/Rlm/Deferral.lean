import Pluribus.Cognition.Admission
import Pluribus.Cognition.AgentLogic
import Pluribus.Rlm.Records
import Pluribus.Rlm.Safety

namespace Pluribus.Rlm

open Lib Lib.Prog Pluribus.Core Cognition Pluribus.Runtime Option

open Engine

section Report

/-- The payload of the report with which the host gives up on an event. -/
def deferral (instanceId : String) (source : CommittedEvent) (resource : ResourceExhaustion) : Json :=
  Json.ofFields [
    ("instanceId", .string instanceId),
    ("requestEventId", .string source.eventId),
    ("inputEventId", .string source.eventId),
    ("input", deferredInput source),
    ("jobId", Json.ofOption .string (resource.jobId.or (payloadField source "jobId"))),
    ("sessionId", Json.ofOption .string (resource.sessionId.or (payloadField source "sessionId"))),
    ("code", .string "resource-exhausted"),
    ("resource", Json.ofFields (resourceJson resource)),
    ("remainingAttempts", Json.ofNat 0),
    ("effectStatus", .string (Agent.effectStatus source)),
    ("checkpointStatus", .string "deferred-before-cursor"),
    ("deferred", .bool true)]

/-- Where the host moves a cursor past an event, it commits the report of that event with it. -/
def Defers (instanceId : String) (batch : List CommittedEvent) (error : RuntimeError) : AgentOp → Prop
  | .skipWithEvents id position events => id = instanceId ∧ ∃ source resource request, batch = [source] ∧
      error.resourceExhaustion = some resource ∧ position = source.sequence ∧ events = [request] ∧
      request.eventType = "cognition.resource-exhausted" ∧
      request.payload = .canonicalJson (.json (deferral instanceId source resource))
  | _ => True

variable {id key : String} {batch : List CommittedEvent} {error : RuntimeError} {source : CommittedEvent}
  {resource : ResourceExhaustion}

theorem appendHealth_defers (kind : String) (payload : List (String × Json)) :
    Uses (Defers id batch error) (Agent.appendHealth kind payload) :=
  Uses.bind (AgentM.perform_uses trivial) fun _ =>
    Uses.bind (AgentM.route_uses (uses_true _)) fun _ => Uses.pure _

theorem retryLater_defers (request : Option EventId) (failures : Nat) :
    Uses (Defers id batch error) (Agent.retryLater id key request failures error) :=
  Uses.bind (AgentM.perform_uses trivial) fun _ => Uses.bind (appendHealth_defers _ _) fun _ => AgentM.perform_uses trivial

theorem giveUp_defers (hresource : error.resourceExhaustion = some resource) :
    Uses (Defers id [source] error) (Agent.giveUp id key source resource) := by
  refine Uses.bind (AgentM.perform_uses trivial) fun agent => ?_
  unfold Router.resourceExhaustionRequest Router.validated
  split
  · refine Uses.ite (fun _ => Uses.bind (AgentM.guest_uses (AgentM.perform_uses ?_)) fun _ => AgentM.perform_uses trivial)
      fun _ => Uses.throw _
    exact ⟨rfl, source, resource, _, rfl, hresource, rfl, rfl, rfl, rfl⟩
  · exact Uses.throw _

theorem deferDelivery_defers (id : String) (batch : List CommittedEvent) (error : RuntimeError) :
    Uses (Defers id batch error) (Agent.deferDelivery id batch error) := by
  refine Uses.bind (AgentM.perform_uses trivial) fun agent => Uses.bind (AgentM.perform_uses trivial) fun _ => ?_
  split
  · refine Uses.ite (fun _ => Uses.bind ?_ fun _ => AgentM.perform_uses trivial) fun _ => retryLater_defers _ _
    exact Uses.bind (appendHealth_defers _ _) fun _ => AgentM.perform_uses trivial
  · next resource source hresource => exact Uses.ite (fun _ => giveUp_defers hresource) fun _ => retryLater_defers _ _
  · exact retryLater_defers _ _

end Report

section Inbox

variable {C : String → Prop} {config : Config} {e d : Engine} {input : Input} {o : String} {value : Json} {x y : Records}
  {out : List Draft}

theorem edits_inbox (h : Edits C x y) (ho : x.inbox o ≠ none) : y.inbox o ≠ none := by
  induction h with
  | refl => exact ho
  | tail _ last ih =>
    cases last <;> first | exact ih | (simp only [Records.setInbox_inbox, Function.update_apply]; split <;> simp [ih])

theorem edited_inbox {outcome : Outcome} (h : Edited C e outcome) (ho : e.records.inbox o ≠ none) :
    Gives (fun r => r.1.records.inbox o ≠ none) outcome :=
  Gives.mono h fun _ hr => edits_inbox hr ho

theorem observationReceived_inbox : Gives (fun r => r.1.records.inbox o ≠ none) (e.observationReceived config o value) := by
  have hreceived : ∀ observation, ({ e with inbox := e.inbox.insert o observation } : Engine).records.inbox o ≠ none := by
    intro observation
    change (e.inbox.insert o observation).find o ≠ none
    simp [Map.find_insert_self]
  refine .ite (fun hknown => .ok ?_) fun _ => ?_
  · simpa [records, Map.contains, isSome_iff_ne_none] using hknown
  · split
    · exact edited_inbox (C := fun _ => True) (associate_edited fun _ => trivial) (hreceived _)
    · refine .ite (fun _ => ?_) fun _ => ?_
      · exact edited_inbox (C := fun _ => True) (createJob_edited fun _ => trivial) (hreceived _)
      · refine edited_inbox (C := fun _ => True) (.alike (openAssociation_records config _ o _)
          (request_edited fun _ => trivial)) (hreceived _)

theorem recoverResourceJob_inbox {cause : String} (ho : observed value = some o) :
    Gives (fun r => r.1.records.inbox o ≠ none) (e.recoverResourceJob config cause value) := by
  unfold observed at ho
  split at ho
  · next hreport =>
    unfold recoverResourceJob
    rw [if_pos ⟨hreport.1, hreport.2.1⟩]
    rw [if_pos hreport.2.2, ho]
    refine .ite (fun hknown => .ok ?_) fun _ => Gives.bind observationReceived_inbox fun r hr => ?_
    · simpa [records, Map.contains, isSome_iff_ne_none] using hknown
    · exact Gives.bind (expect_gives _ _) fun value' _ =>
        edited_inbox (C := fun _ => True) (recoverSession_edited trivial) hr
  · cases ho

theorem step_observed (hmode : e.mode = (false, .empty)) (hkind : input.kind = .cognitionResourceExhausted)
    (ho : observed input.value = some o) (hseen : e.seen input = false)
    (hstep : e.step config input = .ok (d, out)) : d.inbox.keys.count o = 1 := by
  obtain ⟨e₁, answer, requests, hhandled, hdrained, hidle⟩ :=
    step_cases hmode (by simp [hkind]) (by simp [hkind]) hseen hstep
  rw [hkind] at hhandled
  have hreceived : e₁.records.inbox o ≠ none := (recoverResourceJob_inbox ho).of_ok hhandled
  have hfound : d.records.inbox o ≠ none :=
    (edited_inbox (drain_edited (C := fun _ => True) (congrArg Prod.fst hidle) trivial) hreceived).of_ok hdrained
  have hmem : o ∈ d.inbox.keys := Map.mem_keys.mpr (ne_none_iff_exists'.mp hfound)
  exact List.count_eq_one_of_mem d.inbox.keys_nodup hmem

end Inbox

section Deferred

variable {config : Config} {P : Engine → Input → Bool} {e : Engine} {input : Input} {log : List Input} {id : String}
  {source : CommittedEvent} {resource : ResourceExhaustion}

/-- Neither the error nor the event names a job or a session. -/
def unaddressed (source : CommittedEvent) (resource : ResourceExhaustion) : Bool :=
  resource.jobId.isNone && resource.sessionId.isNone && (payloadField source "jobId").isNone &&
    (payloadField source "sessionId").isNone

def Engine.Input.reports (input : Input) (id : String) (source : CommittedEvent) (resource : ResourceExhaustion) : Prop :=
  input.kind = .cognitionResourceExhausted ∧ input.value = deferral id source resource

theorem observed_deferral (htype : source.request.eventType = "observation.received")
    (hunaddressed : unaddressed source resource = true) :
    observed (deferral id source resource) = some source.eventId := by
  simp only [unaddressed, Bool.and_eq_true, isNone_iff_eq_none] at hunaddressed
  obtain ⟨⟨⟨hjob, hsession⟩, hpayloadJob⟩, hpayloadSession⟩ := hunaddressed
  simp [observed, deferral, deferredInput, Json.index, Json.getStr, Json.get_ofFields, htype, hjob, hsession,
    hpayloadJob, hpayloadSession, Json.ofOption, Json.asStr]
  split <;> simp

theorem settable_deferral : settable (((deferral id source resource).index "input").index "payload") = true := by
  have hinput : (deferral id source resource).index "input" = deferredInput source := by
    simp [deferral, Json.index, Json.get_ofFields]
  rw [hinput]
  simp only [deferredInput, Json.index, Json.get_ofFields]
  split <;> simp [compactPayload, Json.ofFields, settable]

theorem guarded_report (hreports : input.reports id source resource)
    (htype : source.request.eventType = "observation.received") (hunaddressed : unaddressed source resource = true)
    (hplain : Plain source.eventId) (hunended : e.unended = true) : e.guarded input = true := by
  obtain ⟨hkind, hvalue⟩ := hreports
  have hobservation : input.observation =
      some (source.eventId, ((deferral id source resource).index "input").index "payload") := by
    simp [Input.observation, hkind, hvalue, observed_deferral htype hunaddressed]
  simp [guarded, orderly, Input.plain, Input.open, queryable, hkind, hobservation, hplain,
    hunended, settable_deferral]

/-- The host gives up on a delivery only with a report of its one event; and where neither that event, an observation,
nor the error names a job or a session, the observation is in the inbox once the engine has taken the report in. -/
theorem deferred_observation_kept (hrun : Chain (Engine.Takes config P) {} log e) (hreports : input.reports id source resource)
    (htype : source.request.eventType = "observation.received") (hunaddressed : unaddressed source resource = true)
    (hseen : e.seen input = false) :
    (∀ batch error, Uses (Defers id batch error) (Agent.deferDelivery id batch error)) ∧
      (∀ d out, e.step config input = .ok (d, out) → d.inbox.keys.count source.eventId = 1) ∧
      ((∀ e input, P e input = true → e.guarded input = true) → Plain source.eventId → e.unended = true →
        ∃ d out, e.step config input = .ok (d, out)) := by
  refine ⟨deferDelivery_defers id, fun d out hstep => ?_, fun hguards hplain hunended => ?_⟩
  · refine step_observed (mode_run rfl hrun) hreports.1 ?_ hseen hstep
    rw [hreports.2]
    exact observed_deferral htype hunaddressed
  · obtain ⟨out, hsteps⟩ := steps_of_takes hguards hrun
    exact sound_step (sound_run hsteps) (guarded_report hreports htype hunaddressed hplain hunended)

def loggedObservation (id : String) (payload : Json) : CommittedEvent :=
  ⟨CommittedEvent.SCHEMA, id, 1, 0, Admission.componentRequest "observation.received" payload⟩

def outOfMemory : ResourceExhaustion := ⟨"memory", 1, 1, 1, "handle", none, none⟩

def report (id : String) (source : CommittedEvent) : Input :=
  { id := id, kind := .cognitionResourceExhausted, value := deferral "rlm" source outOfMemory }

theorem deferred_observation_kept_second : ∃ e d out, Chain (Engine.Takes Engine.bare Engine.guarded) {}
    [Engine.received "a" (Engine.message "c")] e ∧
    e.step Engine.bare (report "r" (loggedObservation "b" (Engine.message "c"))) = .ok (d, out) ∧
    d.inbox.keys.count "b" = 1 := by
  have hsome : (runs bare guarded [received "a" (message "c")] {}).any (fun r =>
      r.1.unended && !r.1.seen (report "r" (loggedObservation "b" (message "c")))) = true := by
    decide +kernel
  obtain ⟨⟨e, out⟩, hruns, hsome⟩ := (any_eq_true _ _).mp hsome
  simp only [Bool.and_eq_true, Bool.not_eq_true'] at hsome
  have hrun := takes_of_runs hruns
  have hreports : (report "r" (loggedObservation "b" (message "c"))).reports "rlm"
      (loggedObservation "b" (message "c")) outOfMemory := ⟨rfl, rfl⟩
  obtain ⟨-, hkept, hends⟩ := deferred_observation_kept hrun hreports rfl (by decide +kernel) hsome.2
  obtain ⟨d, out, hstep⟩ := hends (fun _ _ h => h) (by decide +kernel) hsome.1
  exact ⟨e, d, out, hrun, hstep, hkept d out hstep⟩

def addressedMessage : Json :=
  .object [("conversationId", .string "c"), ("externalSenderId", .string "user"), ("jobId", .string "a"),
    ("provider", .string "chat")]

/-- An observation that names its job is lost: the report about it is taken for one about the job. -/
theorem deferred_observation_lost : ∃ e d out, Chain (Engine.Takes Engine.bare Engine.guarded) {}
    [Engine.received "a" (Engine.message "c")] e ∧
    (report "r" (loggedObservation "b" addressedMessage)).reports "rlm" (loggedObservation "b" addressedMessage) outOfMemory ∧
    e.seen (report "r" (loggedObservation "b" addressedMessage)) = false ∧
    e.step Engine.bare (report "r" (loggedObservation "b" addressedMessage)) = .ok (d, out) ∧
    d.inbox.keys.count "b" = 0 := by
  have hsome : (runs bare guarded [received "a" (message "c")] {}).any (fun r =>
      !r.1.seen (report "r" (loggedObservation "b" addressedMessage)) &&
        (r.1.step bare (report "r" (loggedObservation "b" addressedMessage))).toOption.any fun r' =>
          r'.1.inbox.keys.count "b" = 0) = true := by
    decide +kernel
  obtain ⟨⟨e, out⟩, hruns, hsome⟩ := (any_eq_true _ _).mp hsome
  obtain ⟨hseen, hstep⟩ := Bool.and_eq_true_iff.mp hsome
  obtain ⟨⟨d, out⟩, hstep, hlost⟩ := (any_eq_true _ _).mp hstep
  exact ⟨e, d, out, takes_of_runs hruns, ⟨rfl, rfl⟩, by simpa using hseen, ok_of_toOption hstep, by simpa using hlost⟩

end Deferred

end Pluribus.Rlm
