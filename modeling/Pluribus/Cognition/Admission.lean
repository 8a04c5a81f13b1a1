import Pluribus.Cognition.RouterSpec

namespace Pluribus.Cognition

open Lib Lib.Contract Pluribus.Core Storage

/-- One call of `admit_attempt`: by which router, about which request, for which provider, and
with which claim. -/
structure Admission where
  router : Router
  request : CommittedEvent
  provider : String
  claim : String

namespace Admission

def body (a : Admission) : Prog StoreOp StoreOp.Res (Except RouterError Bool) :=
  (a.router.admitAttempt a.request a.provider a.claim).run

/-- The provider's manifest declares the capability named in the request's payload inherent. -/
def inherent (a : Admission) : Prop :=
  a.router.classification a.request a.provider = some .inherent

def Holds (a : Admission) (store : Store) : Prop :=
  ∃ event, store.log.find a.router.streamId (Router.attemptKey a.request) = some event ∧
    payloadField event "admissionClaim" = some a.claim

variable {a : Admission} {store store' : Store}

theorem Holds.reachable (h : a.Holds store) (hsteps : Relation.ReflTransGen Store.Step store store') :
    a.Holds store' := by
  obtain ⟨event, hfind, hclaim⟩ := h
  exact ⟨event, Log.find_append (Store.reachable_extends hsteps) hfind, hclaim⟩

theorem holds_of_append {event : CommittedEvent}
    (h : (StoreOp.append (a.router.admissionRecord a.request a.provider a.claim)).Yields store event store')
    (hclaim : payloadField event "admissionClaim" = some a.claim) : a.Holds store' := by
  obtain ⟨eventId, recordedAtMs, happend⟩ := h
  obtain ⟨log', hlog, rfl⟩ := Store.append_log happend
  exact ⟨event, Log.append_find rfl hlog, hclaim⟩

theorem claimAttempt_ensures (a : Admission) (store : Store) :
    anyWriters.EnsuresOk (a.router.claimAttempt a.request a.provider a.claim)
      (fun admitted store' => admitted = true → a.Holds store') store := by
  refine EnsuresOk.bind (Router.validated_ensures fun store₁ _ _ => ?_)
  refine EnsuresOk.bind (StoreM.ask_ensures fun store₂ _ _ => ⟨trivial, fun event store₃ hanswer _ store₄ h₄ _ => ?_⟩)
  refine EnsuresOk.pure fun store₅ h₅ _ hclaim => ?_
  exact ((holds_of_append hanswer (of_decide_eq_true hclaim)).reachable h₄).reachable h₅

theorem admitAttempt_ensures (a : Admission) (hkeyed : ¬ a.inherent) (store : Store) :
    anyWriters.EnsuresOk (a.router.admitAttempt a.request a.provider a.claim)
      (fun admitted store' => admitted = true → a.Holds store') store := by
  refine Router.pages_ensures (fun _ _ _ _ => True) (fun _ _ store _ => a.claimAttempt_ensures store) ?_ trivial
  intro _ _ _ store _
  refine StoreM.ask_ensures fun _ _ _ => ⟨trivial, fun page _ _ _ store₁ _ _ => ?_⟩
  refine ⟨fun _ => a.claimAttempt_ensures store₁, fun last hlast => ?_⟩
  split
  · rw [if_neg (show ¬ _ = some Idempotency.inherent from hkeyed)]
    refine EnsuresOk.bind ((EnsuresOk.of_uses (Prog.uses_true _) (fun _ _ _ _ => trivial) _).mono fun _ store₂ _ _ => ?_)
    refine EnsuresOk.pure fun _ _ _ => ⟨fun _ _ => trivial, fun b hb _ _ _ htrue => ?_⟩
    cases hb
    cases htrue
  · refine EnsuresOk.pure fun _ _ _ => ⟨fun _ _ => trivial, fun b hb => ?_⟩
    cases hb

theorem body_ensures (a : Admission) (store : Store) :
    anyWriters.Ensures a.body
      (fun r store' => ∀ admitted, r = .ok admitted → ¬ a.inherent → admitted = true → a.Holds store') store := by
  by_cases hinherent : a.inherent
  · exact (Ensures.of_all (Prog.all_true _) (fun _ _ _ _ => trivial) _).mono fun _ _ _ _ _ _ hnot => absurd hinherent hnot
  · exact Ensures.mono (a.admitAttempt_ensures hinherent store) fun _ _ _ h b hb _ => h b hb

def admitted (r : CommittedEvent) (call : Admission × Prog StoreOp StoreOp.Res (Except RouterError Bool)) : Bool :=
  call.1.request = r &&
    match call.2 with
    | .done (.ok true) => true
    | _ => false

theorem admitted_iff {r : CommittedEvent} {call : Admission × Prog StoreOp StoreOp.Res (Except RouterError Bool)} :
    admitted r call = true ↔ call.1.request = r ∧ call.2 = .done (.ok true) := by
  obtain ⟨a, p⟩ := call
  unfold admitted
  cases p with
  | call op next => simp
  | done result =>
    cases result with
    | error e => simp
    | ok b => cases b <;> simp

/-- In every run of any routers over one stream, with any crashes and any other writers, a
request is admitted at most once, unless an admitting provider declares the capability named in
the request's payload inherent. -/
theorem admitted_at_most_once {s : StreamId} {store : Store}
    {pool : Pool StoreOp StoreOp.Res Store Admission (Except RouterError Bool)}
    (hrun : Pool.Reachable anyWriters body store pool)
    (hstream : ∀ call ∈ pool.calls, call.1.router.streamId = s)
    (hclaims : (pool.calls.map (·.1.claim)).Nodup) {r : CommittedEvent}
    (hkeyed : ∀ call ∈ pool.calls, call.1.request = r → r.request.eventType = "capability.requested" →
      ¬ call.1.inherent)
    (hfield : ∀ call ∈ pool.calls, call.1.request = r → r.request.eventType ≠ "capability.requested" →
      ¬ call.1.inherent) :
    pool.calls.countP (admitted r) ≤ 1 := by
  have hholds : ∀ call ∈ pool.calls, admitted r call = true → call.1.Holds pool.world := by
    intro call hcall hadmitted
    obtain ⟨hr, hdone⟩ := admitted_iff.mp hadmitted
    have hnot : ¬ call.1.inherent := by
      by_cases hkind : r.request.eventType = "capability.requested"
      · exact hkeyed call hcall hr hkind
      · exact hfield call hcall hr hkind
    have hmem : (call.1, .done (.ok true)) ∈ pool.calls := by
      rw [← hdone]
      exact hcall
    exact Pool.Reachable.result (fun _ _ _ _ => StoreOp.Answers.reaches) (fun d w _ => d.body_ensures w) trivial hrun
      hmem true rfl hnot rfl
  refine countP_le_one hclaims fun first hfirst second hsecond h₁ h₂ => ?_
  obtain ⟨event, hfind, hclaim⟩ := hholds first hfirst h₁
  obtain ⟨event', hfind', hclaim'⟩ := hholds second hsecond h₂
  rw [hstream first hfirst, (admitted_iff.mp h₁).1] at hfind
  rw [hstream second hsecond, (admitted_iff.mp h₂).1, hfind] at hfind'
  cases hfind'
  rw [hclaim] at hclaim'
  exact Option.some.inj hclaim'

def reader : Registration where
  instanceId := "reader"
  subscriptions := {
    idempotency := [("web.read", .inherent)]
    wholeStream := false
    eventTypes := []
    capabilities := ["web.read"]
    models := ["small"]
    constraintBindings := [] }

def readerRouter : Router where
  streamId := "personal"
  agent := ⟨.agent, "personal"⟩
  registrations := [reader]
  registry := EventTypeRegistry.core
  constraints := ⟨fun _ _ => .ok true, fun _ _ _ => .ok true⟩

def componentRequest (eventType : String) (payload : Json) : AppendRequest where
  streamId := "personal"
  streamKind := .agent
  observedAtMs := none
  eventType := eventType
  payloadSchema := "pluribus.request/1"
  payload := .canonicalJson (.json payload)
  actor := ⟨.component, "rlm"⟩
  authorityId := none
  activityId := none
  correlationId := none
  causationId := none
  deduplicationKey := none

def requested (payload : List (String × Json)) : CommittedEvent :=
  ⟨CommittedEvent.SCHEMA, "event-1", 1, 0, componentRequest "model.requested" (Json.ofFields payload)⟩

def plainRequest : CommittedEvent := requested [("model", .string "small")]

/-- A model request whose payload also has a `capability` field. -/
def fieldRequest : CommittedEvent := requested [("model", .string "small"), ("capability", .string "web.read")]

def call (r : CommittedEvent) (claim : String) : Admission := ⟨readerRouter, r, "reader", claim⟩

def holding (r : CommittedEvent) : Store := (StoreOp.serve (.append r.request) Store.empty).2

def bothCalls (r : CommittedEvent) : Pool StoreOp StoreOp.Res Store Admission (Except RouterError Bool) :=
  let first := (call r "1:1:0").body.run StoreOp.serve (holding r)
  let second := (call r "1:2:1").body.run StoreOp.serve first.2
  ⟨second.2, [(call r "1:1:0", .done first.1), (call r "1:2:1", .done second.1)]⟩

theorem bothCalls_reachable (r : CommittedEvent) : Pool.Reachable anyWriters body (holding r) (bothCalls r) := by
  have hstart : Pool.Reachable anyWriters body (holding r) ⟨holding r, []⟩ := .refl
  have hfirst := hstart.complete StoreOp.serve_answers (fun _ _ => trivial) (call r "1:1:0")
  exact hfirst.complete StoreOp.serve_answers (fun _ _ => trivial) (call r "1:2:1")

theorem admitted_at_most_once_plain :
    plainRequest ∈ (holding plainRequest).log.events ∧
    (bothCalls plainRequest).calls.countP (admitted plainRequest) = 1 ∧
    (bothCalls plainRequest).calls.countP (admitted plainRequest) ≤ 1 := by
  have hkeyed : ∀ call ∈ (bothCalls plainRequest).calls, ¬ call.1.inherent := by
    unfold inherent
    decide +kernel
  exact ⟨by decide +kernel, by decide +kernel,
    admitted_at_most_once (s := "personal") (bothCalls_reachable plainRequest) (by decide +kernel) (by decide +kernel)
      (fun call hcall _ _ => hkeyed call hcall) (fun call hcall _ _ => hkeyed call hcall)⟩

/-- The escape for inherent capabilities reads the payload, not the event type: a model request
that names an inherent capability is admitted by every call. -/
theorem field_request_admitted_twice :
    fieldRequest ∈ (holding fieldRequest).log.events ∧ fieldRequest.request.eventType = "model.requested" ∧
    Pool.Reachable anyWriters body (holding fieldRequest) (bothCalls fieldRequest) ∧
    (∀ call ∈ (bothCalls fieldRequest).calls, call.1.router.streamId = "personal") ∧
    ((bothCalls fieldRequest).calls.map (·.1.claim)).Nodup ∧
    (bothCalls fieldRequest).calls.countP (admitted fieldRequest) = 2 :=
  ⟨by decide +kernel, rfl, bothCalls_reachable fieldRequest, by decide +kernel, by decide +kernel, by decide +kernel⟩

end Admission

end Pluribus.Cognition
