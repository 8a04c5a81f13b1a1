import Pluribus.Rlm.Runs

namespace Pluribus.Rlm

open Lib
open Engine

section Moves

variable {R : Rules} {s s' : Desk} {xs : List Draft} {j : String} {job : JobView}

theorem Move.job_stays (h : Move R s xs s') (hjob : s.view.jobs j = some job) (hended : job.status.ended = true)
    (hdue : job.due = none) (hdeciding : s.deciding ≠ some j)
    (hnone : ∀ k t, s.view.tasks k = some t → t.root ≠ j ∧ k ≠ j) : s'.view.jobs j = some job := by
  cases h <;> grind

theorem Move.ended_without_wake (h : Move R s xs s')
    (hdue : ∀ j job, s.view.jobs j = some job → job.status.ended = true → job.due = none) :
    ∀ j job, s'.view.jobs j = some job → job.status.ended = true → job.due = none := by
  cases h <;> grind [JobStatus.ended]

theorem Move.demands (h : Move R s xs s') :
    ∀ draft ∈ xs, draft.kind.demanding = true → draft.names j → ∃ k t, s.view.tasks k = some t ∧ t.root = j := by
  cases h <;> grind [View.speaks, Draft.names]

end Moves

section Plainly

/-- Nothing is taken for granted but the ids of observations. -/
def plainly : Rules := { observe := fun o _ => Plain o }

variable {e : Engine} {input : Input}

theorem meets_plainly (hb : Base ⟨e.view, none, none⟩) (hplain : input.plain = true) : Meets plainly plainly e input where
  tick := trivial
  issue := trivial
  orders _ _ _ _ _ _ _ := trivial
  allows _ _ _ := by
    refine Demands.allows (base_met hb input) hplain ⟨fun o payload ho => ?_, ?_, ?_, ?_, ?_, ?_, nofun⟩
    · exact admits_lax (input.plain_id hplain ho) trivial id
    · exact fun _ _ _ _ _ => answers_lax (fun _ => trivial) (fun _ => trivial) id
    · exact fun _ _ _ _ _ _ => ⟨trivial, fun _ => trivial⟩
    · exact fun _ _ _ _ _ _ _ => trivial
    · exact fun _ _ _ _ _ _ => trivial
    · exact fun _ _ _ => trivial

end Plainly

section Ended

structure Settled (s : Desk) : Prop where
  base : Base s
  due : ∀ j job, s.view.jobs j = some job → job.status.ended = true → job.due = none

theorem settled_keeps : Keeps plainly Settled where
  move _ _ _ h hs := ⟨hs.base.move (fun _ _ ho => ho) h, h.ended_without_wake hs.due⟩
  release _ _ hs := ⟨hs.base.release, hs.due⟩
  base _ hs := hs.base

structure Over (j : String) (status : JobStatus) (s : Desk) : Prop extends Settled s where
  job : ∃ job, s.view.jobs j = some job ∧ job.status = status
  gone : ∀ k t, s.view.tasks k = some t → t.root ≠ j

variable {j : String} {status : JobStatus}

theorem Over.key_ne {s : Desk} {k : String} {t : TaskView} (h : Over j status s) (ht : s.view.tasks k = some t) : k ≠ j := by
  rintro rfl
  obtain ⟨job, hjob, -⟩ := h.job
  have hplain := h.base.plain k (h.base.known k (by simp [hjob]))
  exact h.gone k t ht (h.base.root_of_plain ht hplain).2.2.1

theorem over_keeps (hended : status.ended = true) : Keeps plainly (Over j status) where
  move s xs s' h hs := by
    have hsettled := settled_keeps.move s xs s' h hs.toSettled
    obtain ⟨job, hjob, rfl⟩ := hs.job
    have hdeciding : s.deciding ≠ some j := fun hd => absurd (hs.base.deciding j hd).2.1 (by simp [hjob])
    refine ⟨hsettled, ⟨job, ?_, rfl⟩, fun k t' ht' => ?_⟩
    · exact h.job_stays hjob hended (hs.due j job hjob hended) hdeciding fun k t ht => ⟨hs.gone k t ht, hs.key_ne ht⟩
    · rcases h.task_cases ht' with ⟨t, ht, heq⟩ | hborn
      · rw [heq]
        exact hs.gone k t ht
      · cases hborn with
        | consult o b _ _ _ _ =>
          intro heq
          have hnone : s.view.jobs (associationSession o) = none := hs.base.no_job
          rw [show associationSession o = j from heq, hjob] at hnone
          cases hnone
        | create _ hd _ => exact fun heq => hdeciding (heq ▸ hd)
        | spawn p name t ht _ => exact hs.gone p t ht
  release v hand hs := ⟨settled_keeps.release v hand hs.toSettled, hs.job, hs.gone⟩
  base _ hs := hs.base

variable {config : Config} {e e₁ e₂ : Engine} {out out₁ out₂ : List Draft}

def Engine.unended (e : Engine) : Bool :=
  e.tasks.values.all fun task => (e.jobs.find task.root).all fun job => !job.status.ended

/-- Observations have plain ids and no task has outlived its job. -/
def Engine.orderly (e : Engine) (input : Input) : Bool := input.plain && e.unended

theorem Engine.unended_gone (h : e.unended = true) {job : Job} (hjob : e.jobs.find j = some job)
    (hended : job.status.ended = true) : ∀ k t, e.view.tasks k = some t → t.root ≠ j := by
  rintro k t ht rfl
  obtain ⟨task, hfind, rfl⟩ := Map.of_through ht
  have hall := List.all_eq_true.mp h task (Map.mem_values.mpr ⟨k, hfind⟩)
  rw [show e.jobs.find task.root = some job from hjob] at hall
  simp [hended] at hall

theorem settled_default : Calm Settled ({} : Engine) where
  mode := rfl
  view := ⟨base_default, nofun⟩

theorem settled_step (he : Calm Settled e) {input : Input} (hplain : input.plain = true)
    (hstep : e.step config input = .ok (e₁, out)) : Calm Settled e₁ :=
  he.step settled_keeps (meets_plainly he.view.base hplain) hstep

/-- A step after which a job that was over still is, with nothing asked for on its behalf. -/
theorem over_step (he : Calm Settled e) {input : Input} (horderly : e.orderly input = true) {job : Job}
    (hjob : e.jobs.find j = some job) (hended : job.status.ended = true) (hstep : e.step config input = .ok (e₁, out)) :
    (∃ job₁, e₁.jobs.find j = some job₁ ∧ job₁.status = job.status) ∧
      ∀ draft ∈ out, draft.kind.demanding = true → ¬ draft.names j := by
  obtain ⟨hplain, hunended⟩ := Bool.and_eq_true_iff.mp horderly
  have hover : Calm (Over j job.status) e :=
    ⟨he.mode, he.view, ⟨job.view, view_job hjob, rfl⟩, unended_gone hunended hjob hended⟩
  have hmeets := meets_plainly he.view.base hplain
  constructor
  · obtain ⟨job₁, hjob₁, hstatus⟩ := (hover.step (over_keeps hended) hmeets hstep).view.job
    obtain ⟨job₁, hfind, rfl⟩ := Map.of_through hjob₁
    exact ⟨job₁, hfind, hstatus⟩
  · intro draft hdraft hdemanding hnames
    obtain ⟨draft', hquiet, hkind, -, hpayload⟩ := hover.drafts (Q := fun draft => draft.kind.demanding = true → ¬ draft.names j)
      (over_keeps hended) (fun s xs s' h hs draft hmem hd hn => by
        obtain ⟨k, t, ht, hroot⟩ := h.demands draft hmem hd hn
        exact hs.gone k t ht hroot) hmeets hstep draft hdraft
    refine hquiet (hkind ▸ hdemanding) ?_
    rwa [Draft.names, ← hpayload "jobId" (by decide)]

theorem settled_run (h : Chain (Steps config orderly) {} out e) : Calm Settled e := by
  refine h.invariant (fun e out e' hstep he => ?_) settled_default
  obtain ⟨input, horderly, hstep⟩ := hstep
  exact settled_step he (Bool.and_eq_true_iff.mp horderly).1 hstep

/-- A job that is over stays as it ended, and nothing is asked for on its behalf any more, in every run whose events
find no task of a job that is over. -/
theorem ended_job_stays_ended {job : Job} (hrun : Chain (Steps config Engine.orderly) {} out₁ e₁)
    (hjob : e₁.jobs.find j = some job) (hended : job.status.ended = true)
    (hlater : Chain (Steps config Engine.orderly) e₁ out₂ e₂) :
    (∃ job₂, e₂.jobs.find j = some job₂ ∧ job₂.status = job.status) ∧
      ∀ draft ∈ out₂, draft.kind.demanding = true → ¬ draft.names j := by
  have hcalm := settled_run hrun
  clear hrun
  induction hlater generalizing job with
  | refl => exact ⟨⟨job, hjob, rfl⟩, nofun⟩
  | cons first rest ih =>
    obtain ⟨input, horderly, hstep⟩ := first
    obtain ⟨⟨job₁, hjob₁, hstatus⟩, hquiet⟩ := over_step hcalm horderly hjob hended hstep
    obtain ⟨⟨job₂, hjob₂, hstatus₂⟩, hquiet₂⟩ := ih hjob₁ (hstatus ▸ hended)
      (settled_step hcalm (Bool.and_eq_true_iff.mp horderly).1 hstep)
    refine ⟨⟨job₂, hjob₂, hstatus₂.trans hstatus⟩, fun draft hdraft => ?_⟩
    rcases List.mem_append.mp hdraft with hdraft | hdraft
    · exact hquiet draft hdraft
    · exact hquiet₂ draft hdraft

def Engine.statusOf (e : Engine) (j : String) : Option JobStatus := (e.jobs.find j).map Job.status

theorem Engine.statusOf_eq_some (h : e.statusOf j = some status) : ∃ job, e.jobs.find j = some job ∧ job.status = status :=
  Option.map_eq_some_iff.mp h

theorem ended_job_stays_ended_completed : ∃ e₁ out₁ e₂ out₂,
    Chain (Steps bare Engine.orderly) {} out₁ e₁ ∧ Chain (Steps bare Engine.orderly) e₁ out₂ e₂ ∧
      e₁.statusOf "a" = some .completed ∧ (∃ job₂, e₂.jobs.find "a" = some job₂ ∧ job₂.status = .completed) ∧
      ∀ draft ∈ out₂, draft.kind.demanding = true → ¬ draft.names "a" := by
  obtain ⟨e₁, out₁, e₂, out₂, hrun, hlater, hstatus⟩ := exists_runs bare orderly
    [received "a" (message "c"), answered "m" "a:model:0:1" "yield" [("action", .string "complete")]]
    [received "b" (message "c")] (fun r _ => r.1.statusOf "a" = some .completed) (by decide +kernel)
  have hcompleted := of_decide_eq_true hstatus
  obtain ⟨job, hjob, hjobStatus⟩ := statusOf_eq_some hcompleted
  have h := ended_job_stays_ended hrun hjob (by rw [hjobStatus]; rfl) hlater
  rw [hjobStatus] at h
  exact ⟨e₁, out₁, e₂, out₂, hrun, hlater, hcompleted, h⟩

/-- A child that outlives its root brings the failed job back to life. -/
theorem ended_job_revived : ∃ e₁ out₁ e₂ out₂,
    Chain (Steps bare fun _ _ => true) {} out₁ e₁ ∧ Chain (Steps bare fun _ _ => true) e₁ out₂ e₂ ∧
      e₁.statusOf "a" = some .failed ∧ e₂.statusOf "a" = some .runnable := by
  obtain ⟨e₁, out₁, e₂, out₂, hrun, hlater, h⟩ := exists_runs bare (fun _ _ => true)
    [received "a" (message "c"), answered "m" "a:model:0:1" "js" [("code", .string "x")], queried "q" "a",
      exhausted "r1" "a", exhausted "r2" "a", exhausted "r3" "a"]
    [exhausted "r4" "a:1"]
    (fun r r' => r.1.statusOf "a" = some .failed && r'.1.statusOf "a" = some .runnable) (by decide +kernel)
  rw [Bool.and_eq_true, decide_eq_true_eq, decide_eq_true_eq] at h
  exact ⟨e₁, out₁, e₂, out₂, hrun, hlater, h⟩

end Ended

end Pluribus.Rlm
