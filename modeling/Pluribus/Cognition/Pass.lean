import Pluribus.Cognition.AgentLogic

namespace Pluribus.Cognition

open Lib Lib.Contract Lib.Prog Pluribus.Core Storage List

/-- A store operation that records no failure of a component with a cause, and a decision only
about the given event. -/
def Quiet (about : Option EventId) (op : StoreOp) : Prop :=
  ∀ request, op = .append request →
    (request.eventType = "component.failed" → request.causationId = none) ∧
    (request.eventType = "policy.decision" → request.causationId = about)

theorem Quiet.demands {setup : Setup} {about : Option EventId} {op : StoreOp} (h : Quiet about op) (w : World) :
    (AgentOp.store op).Demands setup w := by
  cases op with
  | append request =>
    intro hkind p _ value _ _ id hcause
    rw [(h request rfl).1 hkind] at hcause
    cases hcause
  | get _ | read _ _ _ | query _ _ _ => trivial

/-- What the loop does between reading an instance's position and acting on what it found: it
reads, keeps its router and its clock, and decides about no other event than the given one. -/
def InPass (id : String) (about : Option EventId) : AgentOp → Prop
  | .update f => ∀ agent, (f agent).router = agent.router ∧ (f agent).admissionNowMs = agent.admissionNowMs ∧
      (f agent).external = agent.external
  | .store op => Quiet about op
  | .checkpoint i => i ≠ id
  | .spawn _ _ | .handle _ _ | .skip _ _ | .skipWithEvents _ _ _ | .instantiate _ | .restart _ => False
  | _ => True

structure Onward (setup : Setup) (id : String) (about : Option EventId) (w w' : World) : Prop where
  grows : w.store.log.events <+: w'.store.log.events
  undecided : ∀ event ∈ w'.store.log.events, event.request.eventType = "policy.decision" →
    event ∈ w.store.log.events ∨ event.request.causationId = about
  forward : ∀ i, setup.cursor w.store i ≤ setup.cursor w'.store i
  router : w'.agent.router = w.agent.router
  now : w'.agent.admissionNowMs = w.agent.admissionNowMs
  external : w'.agent.external = w.agent.external
  pass : ∀ moment ∈ w.pass id, moment ∈ w'.pass id

variable {setup : Setup} {id : String} {about : Option EventId} {u v w w' : World}

theorem Onward.trans (h₁ : Onward setup id about u v) (h₂ : Onward setup id about v w) :
    Onward setup id about u w where
  grows := h₁.grows.trans h₂.grows
  undecided event hevent hkind := (h₂.undecided event hevent hkind).elim (h₁.undecided event · hkind) .inr
  forward i := (h₁.forward i).trans (h₂.forward i)
  router := h₂.router.trans h₁.router
  now := h₂.now.trans h₁.now
  external := h₂.external.trans h₁.external
  pass moment hmoment := h₂.pass moment (h₁.pass moment hmoment)

theorem Onward.interferes (h : (agentContract setup).interferes w w') : Onward setup id about w w' := by
  obtain ⟨store', houtside, rfl⟩ := h
  refine ⟨houtside.grows, fun event hevent hkind => ?_, houtside.forward, rfl, rfl, rfl, fun _ h => h⟩
  rcases houtside.foreign event hevent with hold | hforeign
  · exact .inl hold
  · exact absurd (by rw [hkind]; decide) hforeign

theorem passOf_cons {op : AgentOp} (hop : InPass id about op) (r : op.Res) (store : Store) (history : List Moment) :
    passOf id (⟨op, r, store⟩ :: history) = ⟨op, r, store⟩ :: passOf id history := by
  unfold passOf
  rw [takeWhile_cons_of_pos]
  cases op <;> first | rfl | exact decide_eq_true hop

theorem pass_answers {op : AgentOp} {r : op.Res} (hop : InPass id about op)
    (h : (agentContract setup).answers op w r w') : w'.pass id = ⟨op, r, w.store⟩ :: w.pass id := by
  obtain ⟨⟨w₁, -, rfl⟩, -⟩ := h
  exact passOf_cons hop r w.store w.history

theorem store_append_undecided {op : StoreOp} {r : op.Res} {store store' : Store} (hop : Quiet about op)
    (h : op.Answers store r store') {event : CommittedEvent} (hevent : event ∈ store'.log.events)
    (hkind : event.request.eventType = "policy.decision") :
    event ∈ store.log.events ∨ event.request.causationId = about := by
  obtain rfl | ⟨request, eventId, recordedAtMs, answer, rfl, happend⟩ := h.unchanged_or_append
  · exact .inl hevent
  refine (Store.append_new happend hevent).imp_right fun heq => ?_
  rw [heq] at hkind ⊢
  exact (hop request rfl).2 hkind

theorem store_answers_cursor {op : StoreOp} {r : op.Res} {store store' : Store} (h : op.Answers store r store') :
    store.log.events <+: store'.log.events ∧ store'.cursor = store.cursor := by
  obtain rfl | ⟨request, eventId, recordedAtMs, answer, rfl, happend⟩ := h.unchanged_or_append
  · exact ⟨prefix_refl _, rfl⟩
  obtain ⟨log', hlog, rfl⟩ := Store.append_log happend
  exact ⟨Log.append_extends hlog, rfl⟩

theorem Onward.answers {op : AgentOp} {r : op.Res} (hop : InPass id about op)
    (h : (agentContract setup).answers op w r w') : Onward setup id about w w' := by
  have hpass : ∀ moment ∈ w.pass id, moment ∈ w'.pass id := by
    intro moment hmoment
    rw [pass_answers hop h]
    exact mem_cons_of_mem _ hmoment
  obtain ⟨⟨w₁, heffect, rfl⟩, -⟩ := h
  have hsame : w₁ = w → Onward setup id about w { w₁ with history := ⟨op, r, w.store⟩ :: w.history } := by
    rintro rfl
    exact ⟨prefix_refl _, fun _ h _ => .inl h, fun _ => le_rfl, rfl, rfl, rfl, hpass⟩
  cases op with
  | memory | checkpoint i => exact hsame heffect.2
  | update f =>
    cases heffect
    obtain ⟨hrouter, hnow, hexternal⟩ := hop w.agent
    exact ⟨prefix_refl _, fun _ h _ => .inl h, fun _ => le_rfl, hrouter, hnow, hexternal, hpass⟩
  | store op =>
    obtain ⟨store', hstore, rfl⟩ := heffect
    obtain ⟨hgrows, hcursor⟩ := store_answers_cursor hstore
    refine ⟨hgrows, fun event hevent => store_append_undecided hop hstore hevent, fun i => ?_, rfl, rfl, rfl, hpass⟩
    exact le_of_eq (congrFun hcursor.symm _)
  | spawn _ _ | handle _ _ | skip _ _ | skipWithEvents _ _ _ | instantiate _ | restart _ => exact hop.elim
  | resolve _ | claim | stopped | hasBackgroundOutput _ | spawnOutput _ | isFinished _ | join _ | start _ | cancel _
  | reset _ | isCancelled _ | pinnedSession _ | requiresReinstantiation _ => exact hsame heffect

end Pluribus.Cognition
