import Pluribus.Cognition.Reads

namespace Pluribus.Cognition

open Lib Lib.Contract Lib.Prog Pluribus.Core Storage AgentM List DispatchProjection EnsuresOk

variable {log : Log} {s : StreamId} {seen : List CommittedEvent}

theorem projected_grows {log' : Log} (h : log.events <+: log'.events) (s : StreamId) :
    projected s log <+: projected s log' :=
  (Log.stream_grows h s).filter _

variable {setup : Setup} {id : String} {about : Option EventId} {w w' : World}

/-- The projection has been brought up to the end of the stream as it was at a moment of the pass. -/
def Complete (setup : Setup) (id : String) (w : World) : Prop :=
  ∃ moment ∈ w.pass id, w.agent.projection = .ofEvents (projected setup.stream moment.store.log)

theorem projected_types {event : CommittedEvent} (h : event ∈ projected s log) :
    event ∈ log.stream s ∧ event.request.eventType ∈ types := by
  simpa [projected] using h

theorem ofEvents_through (events : List CommittedEvent) :
    (ofEvents events).through = lastSequence events := by
  induction events using reverseRecOn with
  | nil => rfl
  | append_singleton events event _ => simp [lastSequence, update_through]

theorem unread_page {rest : List CommittedEvent} (search : Log.Search) (limit : Nat) (h : projected s log = seen ++ rest) :
    log.query search s { afterSequence := some (ofEvents seen).through
                         eventTypes := types } limit = rest.take limit := by
  rw [ofEvents_through, Log.query_types _ _ _ _ _ (by decide), Log.unread_eq (by simpa [projected] using h)]

theorem through_lt (h : seen <+: projected s log) : (ofEvents seen).through < i64Max := by
  rw [ofEvents_through]
  have hbound : (log.stream s).length < i64Max := log.bounded s
  refine lt_of_le_of_lt (lastSequence_le fun event hevent => ?_) hbound
  exact Log.sequence_le_length (projected_types (h.subset hevent)).1

theorem through_lt_of_page {rest page : List CommittedEvent} {limit : Nat} (h : projected s log = seen ++ rest)
    (hpage : page = rest.take limit) (hne : page ≠ []) :
    (ofEvents seen).through < (ofEvents (seen ++ page)).through := by
  rw [ofEvents_through, ofEvents_through, lastSequence_append hne]
  have hlast : page.getLast hne ∈ rest := by
    subst hpage
    exact mem_of_mem_take (getLast_mem hne)
  have hunread := Log.unread_eq (p := (·.request.eventType ∈ types)) h
  rw [← hunread, mem_filter] at hlast
  simpa [lastSequence, getLast?_eq_some_getLast hne] using (of_decide_eq_true hlast.2).1

theorem Coherent.project (h : Coherent setup w) (hseen : seen <+: projected setup.stream w.store.log) :
    Coherent setup { w with agent := { w.agent with projection := .ofEvents seen } } :=
  ⟨h.stream, h.routed, h.registered, h.external, h.workers, h.handed, h.failures, ⟨seen, hseen, rfl⟩⟩

namespace Agent

/-- One page of the refresh: the projection is extended by it, and it was all there was if it is
empty. -/
theorem refresh_ensures (n : Nat) (w : World) (hfuel : i64Max ≤ n + w.agent.projection.through) :
    (agentContract setup).EnsuresOk (refresh n) (fun _ u => Complete setup id u) w := by
  induction n generalizing w with
  | zero =>
    refine pure fun u hu hgood => ?_
    obtain ⟨seen, hseen, hprojection⟩ := hgood.projection
    have hlt := through_lt hseen
    rw [← hprojection, interferes_agent hu] at hlt
    omega
  | succ n ih =>
    refine bind ((get_ensures id none w).mono fun agent w₁ hgood₁ h₁ => ?_)
    obtain ⟨rfl, hagent₁, -⟩ := h₁
    obtain ⟨seen, hseen, hprojection⟩ := hgood₁.projection
    rw [hagent₁] at hprojection
    have hstream : w.agent.router.streamId = setup.stream := by
      rw [← hagent₁]
      exact hgood₁.routed
    refine bind ((route_ensures (routerAsk_read id none (reads_query _ _ _) w₁)).mono fun page w₂ hgood₂ h₂ => ?_)
    obtain ⟨store, hsaw, ⟨search, hpage⟩, -⟩ := h₂
    obtain ⟨rest, hrest⟩ := hseen.trans (projected_grows hsaw.before _)
    have hunseen : page = rest.take 1000 := by
      rw [hpage, hstream, hprojection, unread_page search _ hrest.symm]
    have hagent₂ : w₂.agent = w.agent := hsaw.agent.trans hagent₁
    split
    · rename_i hempty
      -- nothing is left unseen, so the projection is that of the store this page was read from
      refine pure fun u hu _ => ?_
      obtain ⟨moment, hmoment, hstore⟩ := (hsaw.interferes hu).moment
      refine ⟨moment, hmoment, ?_⟩
      have hnone : rest = [] := by
        rw [hunseen, List.isEmpty_iff, take_eq_nil_iff] at hempty
        exact hempty.resolve_left (by decide)
      rw [interferes_agent hu, hagent₂, hprojection, hstore, ← hrest, hnone, append_nil]
    · rename_i hempty
      have habsorb : w.agent.projection.absorb page = absorb (.ofEvents seen) page := by
        rw [hprojection]
      obtain ⟨taken, htaken, hp, hall⟩ := absorb_ofEvents habsorb.symm
      have hlead : seen ++ taken <+: projected setup.stream store.log := by
        rw [← hrest, prefix_append_right_inj]
        exact (hunseen ▸ htaken).trans ( take_prefix _ _)
      refine bind ((modify_ensures id none ?_ w₂ fun u hu hgood => ?_).mono fun _ w₃ _ h₃ => ?_)
      · exact fun _ => ⟨rfl, rfl, rfl⟩
      · rw [hp]
        exact hgood.project (hlead.trans (projected_grows (hsaw.interferes hu).after _))
      · split
        · rename_i hnone
          refine ih w₃ ?_
          have hlast : w.agent.projection.through < w₃.agent.projection.through := by
            rw [h₃.1, hp, hall hnone, hprojection]
            exact through_lt_of_page hrest.symm hunseen (by simpa using hempty)
          omega
        · exact throw

theorem refreshed (id : String) (w : World) :
    (agentContract setup).EnsuresOk (refresh Router.scanLimit) (fun _ u => Complete setup id u) w :=
  refresh_ensures Router.scanLimit w (Nat.le_add_right _ _)

/-- A result that is found is an event of the stream that ends the request; one that is not found was not there at some
moment of the pass. -/
theorem resultFor_ensures (id : String) (request : EventId) (w : World) :
    (agentContract setup).EnsuresOk (resultFor request) (fun r u =>
      (∀ event, r = some event → event ∈ u.store.log.stream setup.stream ∧ Terminates request event) ∧
      (r = none → ∃ moment ∈ u.pass id, ¬ HasResult setup.stream moment.store.log request)) w := by
  refine bind ((refreshed id w).mono fun _ w₁ hgood₁ h₁ => ?_)
  refine bind ((get_ensures id none w₁).mono fun agent w₂ hgood₂ h₂ => ?_)
  obtain ⟨rfl, hagent₂, honward₂⟩ := h₂
  obtain ⟨moment, hmoment, hcomplete⟩ := h₁
  split
  · rename_i hnone
    refine pure fun u hu _ => ⟨fun _ h => (nomatch h), fun _ => ⟨moment, ?_, ?_⟩⟩
    · exact (honward₂.trans (.interferes hu)).pass moment hmoment
    · rintro ⟨event, hevent, hends⟩
      have hmem : event ∈ projected setup.stream moment.store.log :=
        mem_filter.mpr ⟨hevent, by simpa [types] using .inr hends.1⟩
      rw [hcomplete, ofEvents_find (fun e he => (projected_types he).2), Option.map_eq_none_iff,
        find?_eq_none] at hnone
      exact hnone event hmem (decide_eq_true hends)
  · rename_i eventId hsome
    refine (route_ensures (routerAsk_read id none (reads_get eventId) w₂)).mono fun found w₃ hgood₃ h₃ => ?_
    obtain ⟨store, hsaw, hfound, -⟩ := h₃
    -- the result was taken in from the stream, where the log finds it by its identifier
    obtain ⟨seen, hseen, hprojection⟩ := hgood₂.projection
    rw [← hagent₂, hprojection] at hsome
    rw [ofEvents_find fun e he => (projected_types (hseen.subset he)).2] at hsome
    obtain ⟨event, hfirst, hid⟩ := Option.map_eq_some_iff.mp hsome
    have hevent := mem_of_find?_eq_some hfirst
    have hends : Terminates request event := by simpa using find?_some hfirst
    have hstream : event ∈ w₂.store.log.stream setup.stream := (projected_types (hseen.subset hevent)).1
    have hmem : event ∈ store.log.events := hsaw.before.subset (Ledger.mem_ofStream.mp hstream).1
    constructor
    · rintro x rfl
      have hx : x ∈ store.log.events := mem_of_find?_eq_some hfound.symm
      have hxid : x.eventId = eventId := by simpa using find?_some hfound.symm
      obtain rfl := store.log.event_unique hx hmem (hxid.trans hid.symm)
      exact ⟨(Log.stream_grows hsaw.onward.grows _).subset hstream, hends⟩
    · intro hnone
      rw [hnone] at hfound
      exact absurd hid (by simpa using find?_eq_none.mp hfound.symm event hmem)

end Agent

end Pluribus.Cognition
