import Pluribus.Rlm.Tree

namespace Pluribus.Rlm

open Lib Option
open Engine

section Moves

variable {R : Rules} {s s' : Desk} {xs : List Draft} {o : String}

variable {x' : ObservationView}

attribute [local grind =] filter_eq_none_iff

theorem Move.pending_cases (h : Move R s xs s') (hx : s'.view.inbox o = some x') (hpending : x'.pending = true) :
    (∃ x, s.view.inbox o = some x ∧ x.pending = true) ∨ s'.deciding = some o ∨
      s'.view.tasks (associationSession o) ≠ none := by
  cases h <;> grind

theorem Move.decided_cases (h : Move R s xs s') (hignore : ¬ R.ignore) (hdeciding : s.deciding = some o)
    (hx : s'.view.inbox o = some x') (hpending : x'.pending = true) : s'.deciding = some o := by
  cases h <;> grind

/-- A session that routes an observation is over once the observation is to be decided or is. -/
theorem Move.routing_cases {t : TaskView} (h : Move R s xs s') (hstray : ¬ R.stray)
    (ht : s.view.tasks (associationSession o) = some t) (ho : t.association = some o)
    (hroot : t.root = associationSession o) (hjob : s.view.jobs (associationSession o) = none)
    (hx : s'.view.inbox o = some x') (hpending : x'.pending = true) :
    s'.view.tasks (associationSession o) ≠ none ∨ s'.deciding = some o := by
  cases h <;> grind

end Moves

/-- Observations do not name jobs that are over, and cells of routing sessions have no results. -/
def attentively : Rules where
  observe o _ := Plain o
  ignore := False
  stray := False

/-- Somebody is responsible for every pending observation. -/
structure Attended (s : Desk) : Prop extends Base s where
  routed : ∀ o x, s.view.inbox o = some x → x.pending = true →
    s.deciding = some o ∨ s.view.tasks (associationSession o) ≠ none

theorem attended_keeps : Keeps attentively Attended where
  move s xs s' h hs := by
    refine ⟨hs.toBase.move (fun _ _ ho => ho) h, fun o x' hx' hpending => ?_⟩
    rcases h.pending_cases hx' hpending with ⟨x, hx, hbefore⟩ | hnow
    · rcases hs.routed o x hx hbefore with hdeciding | hlive
      · exact .inl (h.decided_cases id hdeciding hx' hpending)
      · obtain ⟨t, ht⟩ := ne_none_iff_exists'.mp hlive
        have hassociation := hs.routes ht (hs.plain o (by simp [hx]))
        have hroot := (hs.associated _ t o ht hassociation).2.1
        exact (h.routing_cases id ht hassociation hroot hs.no_job hx' hpending).symm
    · exact hnow
  release _ _ hs := ⟨hs.toBase.release, fun o x hx hpending => .inr ((hs.routed o x hx hpending).resolve_left nofun)⟩
  base _ hs := hs.toBase

section Runs

variable {config : Config} {e : Engine} {out : List Draft} {input : Input} {o : String}

/-- The job an observation names is not over, if it is of the same origin. -/
def Engine.names (e : Engine) (o : String × Json) : Bool :=
  let value := boundedObservation o.1 o.2
  ((value.index "jobId").asStr).all fun j =>
    !e.sameOrigin j value || (e.jobs.find j).all fun job => !job.status.ended

/-- An event names no job that is over and is no result of a routing session's cell. -/
def Engine.addresses (e : Engine) (input : Input) : Bool :=
  input.observation.all e.names &&
    match input.kind with
    | .codeCompleted | .codeFailed =>
      (e.tasks.find ((input.value.getStr "sessionId").getD "")).all fun task =>
        !e.accepts input.kind input.value task || task.association.isNone
    | _ => true

/-- Observations have plain ids, and an event not seen before is addressed to work that goes on. -/
def Engine.addressed (e : Engine) (input : Input) : Bool :=
  input.plain && (e.seen input || (e.met input).addresses input)

theorem meets_attentively (hb : Base ⟨e.view, none, none⟩) (h : e.addressed input = true) :
    Meets attentively attentively e input where
  tick := trivial
  issue := trivial
  orders _ _ _ _ _ _ _ := trivial
  allows _ _ hnew := by
    obtain ⟨hplain, haddresses⟩ := Bool.and_eq_true_iff.mp h
    rw [hnew, Bool.false_or] at haddresses
    obtain ⟨hnames, haddresses⟩ := Bool.and_eq_true_iff.mp haddresses
    refine Demands.allows (base_met hb input) hplain ⟨fun o payload ho => ?_, ?_, ?_, ?_, ?_, ?_, nofun⟩
    · refine ⟨input.plain_id hplain ho, fun j job hj horigin hjob hended => ?_, nofun⟩
      rw [ho, all_some] at hnames
      simp [names, hj, horigin, hjob, hended] at hnames
    · exact fun _ _ _ _ _ => answers_lax (fun _ => trivial) (fun _ => trivial) id
    · rintro hkind session task rfl ht haccepts
      refine ⟨trivial, fun hassociation => hassociation ?_⟩
      rcases hkind with hkind | hkind <;> rw [hkind] at haccepts <;> simpa [hkind, ht, haccepts] using haddresses
    · exact fun _ _ _ _ _ _ _ => trivial
    · exact fun _ _ _ _ _ _ => trivial
    · exact fun _ _ _ => trivial

theorem attended_run (h : Chain (Steps config addressed) {} out e) : Calm Attended e := by
  refine h.invariant (fun e out e' hstep he => ?_) ⟨rfl, ?_⟩
  · obtain ⟨input, haddressed, hstep⟩ := hstep
    exact he.step attended_keeps (meets_attentively he.view.toBase haddressed) hstep
  · exact { base_default with
      routed := nofun }

/-- Every pending observation is routed by a session of its own, in every run whose events are addressed to work that
goes on. -/
theorem pending_observation_routed {observation : Observation} (hrun : Chain (Steps config Engine.addressed) {} out e)
    (ho : e.inbox.find o = some observation) (hpending : observation.status = .pending) :
    ∃ task, e.tasks.find (associationSession o) = some task ∧ task.association = some o := by
  have hs := (attended_run hrun).view
  have hx : e.view.inbox o = some observation.view := view_inbox ho
  have hlive := (hs.routed o _ hx (by simp [Observation.view, hpending])).resolve_left nofun
  obtain ⟨t, ht⟩ := ne_none_iff_exists'.mp hlive
  obtain ⟨task, htask, rfl⟩ := Map.of_through ht
  exact ⟨task, htask, hs.routes ht (hs.plain o (by simp [hx]))⟩

def Engine.isPending (e : Engine) (o : String) : Bool :=
  (e.inbox.find o).any fun observation => observation.status = .pending

theorem Engine.isPending_iff : e.isPending o = true ↔ ∃ x, e.inbox.find o = some x ∧ x.status = .pending := by
  simp [isPending, any_eq_true]

theorem pending_observation_routed_second : ∃ e out, Chain (Steps bare Engine.addressed) {} out e ∧
    e.isPending "b" = true ∧ ∃ task, e.tasks.find (associationSession "b") = some task ∧ task.association = some "b" := by
  obtain ⟨e, out, hrun, hpending⟩ := exists_run bare addressed {}
    [received "a" (message "c"), received "b" (message "c")] (fun r => r.1.isPending "b") (by decide +kernel)
  obtain ⟨x, hx, hstatus⟩ := isPending_iff.mp hpending
  exact ⟨e, out, hrun, hpending, pending_observation_routed hrun hx hstatus⟩

/-- A message that names a job, which the host's index knows with its conversation. -/
def Engine.addressedTo (id job conversation : String) : Input :=
  { id := id
    kind := .observationReceived
    value := .object [("conversationId", .string conversation), ("externalSenderId", .string "user"),
      ("jobId", .string job), ("provider", .string "chat")]
    routingJobs := [(newJob ⟨none, job, 0, message conversation, .incorporated, some job⟩ 0, message conversation)] }

/-- A message for a job that is over stays pending, with nobody to route it. -/
theorem pending_observation_abandoned : ∃ e out, Chain (Steps bare fun _ _ => true) {} out e ∧
    e.isPending "b" = true ∧ e.tasks.contains (associationSession "b") = false := by
  obtain ⟨e, out, hrun, h⟩ := exists_run bare (fun _ _ => true) {}
    [received "a" (message "c"), answered "m" "a:model:0:1" "yield" [("action", .string "complete")],
      addressedTo "b" "a" "c"]
    (fun r => r.1.isPending "b" && !r.1.tasks.contains (associationSession "b")) (by decide +kernel)
  obtain ⟨hpending, hnone⟩ := Bool.and_eq_true_iff.mp h
  exact ⟨e, out, hrun, hpending, by simpa using hnone⟩

end Runs

end Pluribus.Rlm
