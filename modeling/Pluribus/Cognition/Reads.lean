import Pluribus.Cognition.Pass
import Pluribus.Storage.Pages

namespace Pluribus.Cognition

open Lib Lib.Contract Lib.Prog Pluribus.Core Storage AgentM List

variable {setup : Setup} {id : String} {about : Option EventId} {w w' : World}

/-- Between two worlds of a pass the agent has looked at the store, and remembers as before. -/
structure Saw (setup : Setup) (id : String) (about : Option EventId) (w : World) (store : Store) (w' : World) : Prop where
  onward : Onward setup id about w w'
  agent : w'.agent = w.agent
  moment : ∃ moment ∈ w'.pass id, moment.store = store
  before : w.store.log.events <+: store.log.events
  after : store.log.events <+: w'.store.log.events
  forward : ∀ i, setup.cursor w.store i ≤ setup.cursor store i
  undecided : ∀ event ∈ w'.store.log.events, event.request.eventType = "policy.decision" →
    event ∈ store.log.events ∨ event.request.causationId = about

theorem interferes_agent (h : (agentContract setup).interferes w w') : w'.agent = w.agent := by
  obtain ⟨_, _, rfl⟩ := h
  rfl

theorem Saw.interferes {store : Store} {u : World} (h : Saw setup id about w store w')
    (hu : (agentContract setup).interferes w' u) : Saw setup id about w store u := by
  have honward : Onward setup id about w' u := .interferes hu
  obtain ⟨moment, hmoment, hstore⟩ := h.moment
  exact ⟨h.onward.trans honward, (interferes_agent hu).trans h.agent, ⟨moment, honward.pass moment hmoment, hstore⟩,
    h.before, h.after.trans honward.grows, h.forward, fun event hevent hkind =>
      (honward.undecided event hevent hkind).elim (h.undecided event · hkind) .inr⟩

theorem Saw.of_interferes {store : Store} {u : World} (hu : (agentContract setup).interferes w u)
    (h : Saw setup id about u store w') : Saw setup id about w store w' := by
  have honward : Onward setup id about w u := .interferes hu
  exact ⟨honward.trans h.onward, h.agent.trans (interferes_agent hu), h.moment, honward.grows.trans h.before, h.after,
    fun i => (honward.forward i).trans (h.forward i), h.undecided⟩

theorem Saw.of_answers {op : AgentOp} {r : op.Res} (hop : InPass id about op)
    (h : (agentContract setup).answers op w r w') (hagent : w'.agent = w.agent) (hstore : w'.store = w.store) :
    Saw setup id about w w.store w' := by
  refine ⟨.answers hop h, hagent, ⟨⟨op, r, w.store⟩, ?_, rfl⟩, prefix_refl _, ?_, fun _ => le_rfl, ?_⟩
  · rw [pass_answers hop h]
    exact mem_cons_self
  · exact hstore ▸ prefix_refl _
  · rw [hstore]
    exact fun _ hevent _ => .inl hevent

section Rules

variable (id about)

theorem get_ensures (w : World) : (agentContract setup).EnsuresOk get
    (fun agent w' => agent = w.agent ∧ w'.agent = w.agent ∧ Onward setup id about w w') w := by
  refine perform_ensures fun w₁ h₁ _ => ⟨trivial, fun agent w₂ hanswer _ u hu _ => ?_⟩
  have hop : InPass id about .memory := trivial
  have honward : Onward setup id about w₁ w₂ := .answers hop hanswer
  obtain ⟨⟨w₃, ⟨hagent, hw₃⟩, hw₂⟩, -⟩ := hanswer
  have hkept : w₂.agent = w.agent := by rw [hw₂, hw₃, interferes_agent h₁]
  exact ⟨hagent.trans (interferes_agent h₁), (interferes_agent hu).trans hkept,
    (Onward.interferes h₁).trans (honward.trans (.interferes hu))⟩

theorem modify_ensures {f : Agent → Agent} (hf : InPass id about (.update f)) (w : World)
    (hcoherent : ∀ u, (agentContract setup).interferes w u → Coherent setup u →
      Coherent setup { u with agent := f u.agent }) : (agentContract setup).EnsuresOk (modify f)
    (fun _ w' => w'.agent = f w.agent ∧ Onward setup id about w w') w := by
  refine perform_ensures fun w₁ h₁ hgood => ⟨hcoherent w₁ h₁ hgood, fun _ w₂ hanswer _ u hu _ => ?_⟩
  have honward : Onward setup id about w₁ w₂ := .answers hf hanswer
  obtain ⟨⟨w₃, hw₃, hw₂⟩, -⟩ := hanswer
  have hkept : w₂.agent = f w.agent := by rw [hw₂, hw₃, interferes_agent h₁]
  exact ⟨(interferes_agent hu).trans hkept, (Onward.interferes h₁).trans (honward.trans (.interferes hu))⟩

def Reads (op : StoreOp) : Prop := ∀ request, op ≠ .append request

theorem Reads.quiet {about : Option EventId} {op : StoreOp} (h : Reads op) : Quiet about op := fun request heq => absurd heq (h request)

theorem Reads.demands {op : StoreOp} (h : Reads op) (w : World) : (AgentOp.store op).Demands setup w := by
  have hquiet : Quiet none op := h.quiet
  exact hquiet.demands w

theorem saw_read {id : String} {about : Option EventId} {op : StoreOp} (hop : Reads op) {value : op.Value} {u : World}
    (h : (agentContract setup).answers (.store op) w (.ok value) u) :
    Saw setup id about w w.store u ∧ op.Yields w.store value w.store := by
  have hin : InPass id about (.store op) := hop.quiet
  have hanswer := h
  obtain ⟨⟨w₁, ⟨store', hyields, rfl⟩, hu⟩, -⟩ := hanswer
  have hstore : store' = w.store := by
    obtain hsame | ⟨request, _, _, _, heq, -⟩ := StoreOp.Answers.unchanged_or_append hyields
    · exact hsame
    · exact absurd heq (hop request)
  subst hstore
  exact ⟨Saw.of_answers hin h (by rw [hu]) (by rw [hu]), hyields⟩

theorem routerAsk_read {op : StoreOp} (hop : Reads op) (w : World) :
    (routerView (agentContract setup)).EnsuresOk (Router.ask op)
      (fun value w' => ∃ store, Saw setup id about w store w' ∧ op.Yields store value store) w := by
  refine StoreM.ask_ensures fun w₁ h₁ _ => ⟨hop.demands w₁, ?_⟩
  rintro value w₂ ⟨_, rfl, hanswer⟩ _ u hu _
  obtain ⟨hsaw, hyields⟩ := saw_read hop hanswer
  exact ⟨w₁.store, (hsaw.interferes hu).of_interferes h₁, hyields⟩

theorem reads_query (s : StreamId) (q : EventQuery) (limit : Nat) : Reads (.query s q limit) := fun _ h => nomatch h

theorem reads_get (eventId : EventId) : Reads (.get eventId) := fun _ h => nomatch h

end Rules

end Pluribus.Cognition
