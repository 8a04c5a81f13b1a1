import Pluribus.Rlm.Tree

namespace Pluribus.Rlm

open Lib Option
open Engine

theorem JobStatus.idle_of_ended {status : JobStatus} (h : status.ended = true) : status.idle = true := by
  cases status <;> first | rfl | cases h

section Moves

variable {R : Rules} {s s' : Desk} {xs : List Draft} {j r o : String} {t : TaskView}

attribute [local grind =] filter_eq_none_iff

theorem Move.settable_cases {x' : ObservationView} (h : Move R s xs s') (hx : s'.view.inbox o = some x') :
    (∃ x, s.view.inbox o = some x ∧ x'.settable = x.settable) ∨ R.observe o x'.settable := by
  cases h <;> grind

theorem Move.wanted_cases {job' : JobView} (h : Move R s xs s') (hstrict : R.strict) (hjob : s'.view.jobs j = some job')
    (hwanted : job'.status.ended = false ∨ job'.due ≠ none) :
    (∃ job, s.view.jobs j = some job ∧ (job.status.ended = false ∨ job.due ≠ none)) ∨ s'.view.tasks j ≠ none ∨
      ∃ k t, s.view.tasks k = some t ∧ t.parent = none ∧ t.root = j := by
  cases h <;> grind [JobStatus.ended, JobStatus.idle_of_ended]

theorem Move.root_lost (h : Move R s xs s') (ht : s.view.tasks j = some t) (hroot : t.root = j) (hparent : t.parent = none)
    (hassociation : t.association = none) (hjob : s.view.jobs j ≠ none) :
    s'.view.tasks j ≠ none ∨ ∀ job', s'.view.jobs j = some job' → job'.status.ended = true ∧ job'.due = none := by
  cases h <;> grind [JobStatus.ended]

theorem Move.budget_cases (h : Move R s xs s') (hbudget : s.view.budgets r ≠ none) :
    s'.view.budgets r ≠ none ∨
      (∃ t o, s.view.tasks r = some t ∧ t.association = some o ∧ s'.view.tasks r = none) ∨
      ∃ k t, s.view.tasks k = some t ∧ s'.view.tasks k = none ∧ t.parent = none ∧ t.root = r ∧
        ∀ job, s'.view.jobs k = some job → job.status.ended = true := by
  cases h <;> grind [JobStatus.ended]

theorem Move.ended_stays {job job' : JobView} (h : Move R s xs s') (hstrict : R.strict) (hjob : s.view.jobs r = some job)
    (hjob' : s'.view.jobs r = some job') (hended : job.status.ended = true) (hdeciding : s.deciding ≠ some r)
    (hrootless : ∀ k t, s.view.tasks k = some t → t.root = r → t.parent ≠ none) :
    job'.status.ended = true := by
  cases h <;> grind [JobStatus.ended, JobStatus.awake_of_ended, JobStatus.idle_of_ended]

end Moves

/-- Payloads take fields, marks are for jobs that go on, and no routing session asks for a child. -/
def soundly : Rules where
  observe o b := Plain o ∧ b = true
  strict := True
  spawn v session _ := ∀ t, v.tasks session = some t → t.association = none

structure Kin (s : Desk) : Prop extends Base s where
  family : ∀ k t p, s.view.tasks k = some t → t.parent = some p → s.view.jobs t.root ≠ none

theorem Kin.alone {s : Desk} {k o : String} {t : TaskView} (hs : Kin s) (ht : s.view.tasks k = some t)
    (hroot : t.root = associationSession o) : k = associationSession o := by
  cases hassociation : t.association with
  | some o' => exact (hs.associated k t o' ht hassociation).2.1.symm.trans hroot
  | none =>
    cases hparent : t.parent with
    | some p => exact absurd (hroot ▸ hs.no_job) (hs.family k t p ht hparent)
    | none => exact (hs.rooted k t ht hparent hassociation).1.symm.trans hroot

/-- Whatever the engine looks up without asking is there. -/
structure Sound (s : Desk) : Prop extends Kin s where
  settable : ∀ o x, s.view.inbox o = some x → x.settable = true
  root : ∀ j job, s.view.jobs j = some job → job.status.ended = false ∨ job.due ≠ none → s.view.tasks j ≠ none
  alive : ∀ k t, s.view.tasks k = some t → t.parent = none → t.association = none →
    ∃ job, s.view.jobs k = some job ∧ job.status.ended = false
  budget : ∀ k t, s.view.tasks k = some t → s.view.budgets t.root ≠ none ∨
    ∃ job, s.view.jobs t.root = some job ∧ job.status.ended = true

namespace Sound

variable {s s' : Desk} {xs : List Draft} {k j : String} {t : TaskView}

theorem no_fault (hs : Sound s) : ¬ Fault s := by
  intro hfault
  cases hfault with
  | noBudget ht hbudget hidle =>
    rcases hs.budget _ _ ht with hsome | ⟨job, hjob, hended⟩
    · exact hsome hbudget
    · simpa [JobStatus.idle_of_ended hended] using hidle job hjob
  | noObservation ht ho hx => exact (hs.associated _ _ _ ht ho).2.2.2.1 hx
  | noRoot hjob hopen hroot => exact hs.root _ _ hjob hopen hroot
  | orphan ht hroot hjob hnone =>
    rw [(hs.root_of_parentless ht hroot (by simp [hjob])).2, ht] at hnone
    cases hnone
  | noJob ht hroot hassociation hjob => exact (hs.rooted _ _ ht hroot hassociation).2 hjob
  | lost hx => exact (hs.deciding _ rfl).1 hx
  | rigid hx hset => simp [hs.settable _ _ hx] at hset
  | taken hjob => exact hjob (hs.deciding _ rfl).2.1

variable (h : Move soundly s xs s') (hs : Sound s)
include h hs

theorem base_move : Base s' := hs.toBase.move (R := soundly) (fun _ _ ho => And.left ho) h

theorem root_move {job' : JobView} (hjob' : s'.view.jobs j = some job')
    (hwanted : job'.status.ended = false ∨ job'.due ≠ none) : s'.view.tasks j ≠ none := by
  have hkeeps : s.view.jobs j ≠ none → s.view.tasks j ≠ none → s'.view.tasks j ≠ none := by
    intro hjob hlive
    obtain ⟨t, ht⟩ := ne_none_iff_exists'.mp hlive
    obtain ⟨hparent, hassociation, hroot⟩ := hs.root_of_job hjob ht
    rcases h.root_lost ht hroot hparent hassociation hjob with hkept | hover
    · exact hkept
    · obtain ⟨hended, hdue⟩ := hover job' hjob'
      simp [hended, hdue] at hwanted
  rcases h.wanted_cases trivial hjob' hwanted with ⟨job, hjob, hopen⟩ | hlive | ⟨k, t, ht, hparent, hroot⟩
  · exact hkeeps (by simp [hjob]) (hs.root j job hjob hopen)
  · exact hlive
  · cases hassociation : t.association with
    | none =>
      obtain ⟨hkey, hjob⟩ := hs.rooted k t ht hparent hassociation
      obtain rfl : k = j := hkey.symm.trans hroot
      exact hkeeps hjob (by simp [ht])
    | some o =>
      -- a routing session has no job
      obtain ⟨hkey, hself, -⟩ := hs.associated k t o ht hassociation
      have hnone : s'.view.jobs (associationSession o) = none := (base_move h hs).no_job
      rw [← hkey, ← hself, hroot, hjob'] at hnone
      cases hnone

theorem alive_move {t' : TaskView} (ht' : s'.view.tasks k = some t') (hparent : t'.parent = none)
    (hassociation : t'.association = none) : ∃ job, s'.view.jobs k = some job ∧ job.status.ended = false := by
  rcases h.task_cases ht' with ⟨t, ht, heq⟩ | hborn
  · rw [heq] at hparent hassociation
    obtain ⟨job, hjob, hopen⟩ := hs.alive k t ht hparent hassociation
    have hroot := (hs.rooted k t ht hparent hassociation).1
    rcases h.root_fate hjob hopen ht hroot hparent hassociation with ⟨-, hkept⟩ | ⟨-, ⟨-, hgone, -⟩ | hnone⟩
    · exact hkept
    · rw [hgone] at ht'
      cases ht'
    · exact absurd ((congrArg TaskView.root heq).trans hroot) (hnone k t' ht')
  · cases hborn with
    | consult => cases hassociation
    | create o hdeciding hjob => exact ⟨_, hjob, rfl⟩
    | spawn => cases hparent

theorem family_move {t' : TaskView} {p : String} (ht' : s'.view.tasks k = some t') (hparent : t'.parent = some p) :
    s'.view.jobs t'.root ≠ none := by
  rcases h.task_cases ht' with ⟨t, ht, heq⟩ | hborn
  · rw [heq] at hparent ⊢
    exact h.job_kept (hs.family k t p ht hparent)
  · cases hborn with
    | consult | create => cases hparent
    | spawn p' name t ht hspawn =>
      apply h.job_kept
      cases hgrand : t.parent with
      | some q => exact hs.family p' t q ht hgrand
      | none =>
        obtain ⟨hroot, hjob⟩ := hs.rooted p' t ht hgrand (hspawn t ht)
        exact hroot ▸ hjob

theorem kin_move : Kin s' := ⟨base_move h hs, fun _ _ _ ht' hparent => family_move h hs ht' hparent⟩

theorem budget_kept {r : String} (hlive : ∃ k t', s'.view.tasks k = some t' ∧ t'.root = r)
    (hpaid : s.view.budgets r ≠ none ∨ ∃ job, s.view.jobs r = some job ∧ job.status.ended = true) :
    s'.view.budgets r ≠ none ∨ ∃ job, s'.view.jobs r = some job ∧ job.status.ended = true := by
  -- where a routing session's tree has a task, that task is the session
  have routing_stays : ∀ {k t o}, s.view.tasks k = some t → t.association = some o →
      (∃ k' t', s'.view.tasks k' = some t' ∧ t'.root = k) → s'.view.tasks k ≠ none := by
    rintro k t o ht ho ⟨k', t', ht', hroot⟩
    obtain ⟨rfl, -⟩ := hs.associated k t o ht ho
    rw [← (kin_move h hs).alone ht' hroot, ht']
    exact some_ne_none t'
  rcases hpaid with hbudget | ⟨job, hjob, hended⟩
  · rcases h.budget_cases hbudget with hkept | ⟨t, o, ht, ho, hgone⟩ | ⟨k, t, ht, hgone, hparent, rfl, hover⟩
    · exact .inl hkept
    · exact absurd hgone (routing_stays ht ho hlive)
    · cases hassociation : t.association with
      | some o =>
        have hkey := (hs.associated k t o ht hassociation).2.1
        exact absurd hgone (routing_stays ht hassociation (hkey ▸ hlive))
      | none =>
        obtain ⟨hroot, hjob⟩ := hs.rooted k t ht hparent hassociation
        obtain ⟨job, hjob'⟩ := ne_none_iff_exists'.mp (h.job_kept hjob)
        exact .inr ⟨job, hroot ▸ hjob', hover job hjob'⟩
  · obtain ⟨job', hjob'⟩ := ne_none_iff_exists'.mp (h.job_kept (j := r) (by simp [hjob]))
    refine .inr ⟨job', hjob', h.ended_stays trivial hjob hjob' hended ?_ ?_⟩
    · intro hdeciding
      simp [(hs.deciding r hdeciding).2.1] at hjob
    · rintro k t ht rfl hparent
      obtain ⟨hassociation, hroot⟩ := hs.root_of_parentless ht hparent (by simp [hjob])
      obtain ⟨job', hjob', hopen⟩ := hs.alive k t ht hparent hassociation
      rw [hroot, hjob'] at hjob
      cases hjob
      simp [hopen] at hended

theorem budget_move {t' : TaskView} (ht' : s'.view.tasks k = some t') :
    s'.view.budgets t'.root ≠ none ∨ ∃ job, s'.view.jobs t'.root = some job ∧ job.status.ended = true := by
  rcases h.task_cases ht' with ⟨t, ht, heq⟩ | hborn
  · have hroot : t'.root = t.root := by rw [heq]
    exact budget_kept h hs ⟨k, t', ht', rfl⟩ (hroot ▸ hs.budget k t ht)
  · cases hborn with
    | consult o b hnew hobserve hdeciding hinbox hpaid | create o hdeciding hjob hpaid =>
      exact .inl (by simp [TaskView.opened, hpaid])
    | spawn p name t ht hspawn => exact budget_kept h hs ⟨_, _, ht', rfl⟩ (hs.budget p t ht)

theorem move : Sound s' where
  toKin := kin_move h hs
  settable o x' hx' := by
    rcases h.settable_cases hx' with ⟨x, hx, heq⟩ | hobserve
    · exact heq.trans (hs.settable o x hx)
    · exact hobserve.2
  root _ _ := root_move h hs
  alive _ _ := alive_move h hs
  budget _ _ := budget_move h hs

end Sound

theorem sound_keeps : Keeps soundly Sound where
  move _ _ _ h hs := hs.move h
  release _ _ hs := { hs with toBase := hs.toBase.release }
  base _ hs := hs.toBase

section Runs

variable {config : Config} {e : Engine} {out : List Draft} {input : Input}

def Engine.Input.open (input : Input) : Bool := input.observation.all fun o => settable o.2

def Engine.queryable (e : Engine) (input : Input) : Bool :=
  input.kind ≠ .codeYielded || (e.tasks.find ((input.value.getStr "sessionId").getD "")).all fun task =>
    task.association.isNone

/-- Observations have plain ids and payloads that take fields, no task has outlived its job, and routing sessions run
no cells. -/
def Engine.guarded (e : Engine) (input : Input) : Bool :=
  e.orderly input && input.open && (e.seen input || (e.met input).queryable input)

theorem Engine.unended_lively (hb : Base ⟨e.view, none, none⟩) (h : e.unended = true) : e.view.lively := by
  intro k t job ht hjob
  rw [← Bool.not_eq_true]
  intro hended
  have hroot : e.view.jobs t.root = some job := by
    rcases hjob with hjob | hjob
    · exact hjob
    · rwa [(hb.root_of_job (by simp [hjob]) ht).2.2]
  obtain ⟨job, hfind, rfl⟩ := Map.of_through hroot
  exact unended_gone h hfind hended k t ht rfl

theorem meets_soundly (hb : Base ⟨e.view, none, none⟩) (h : e.guarded input = true) : Meets soundly soundly e input where
  tick := trivial
  issue := trivial
  orders _ _ _ _ _ _ _ := trivial
  allows _ _ hnew := by
    obtain ⟨h, hqueryable⟩ := Bool.and_eq_true_iff.mp h
    obtain ⟨h, hopen⟩ := Bool.and_eq_true_iff.mp h
    obtain ⟨hplain, hunended⟩ := Bool.and_eq_true_iff.mp h
    rw [hnew, Bool.false_or] at hqueryable
    refine Demands.allows (base_met hb input) hplain ⟨fun o payload ho => ?_, ?_, ?_, ?_, ?_, ?_, fun _ => ?_⟩
    · exact admits_lax ⟨input.plain_id hplain ho, by simpa [Input.open, ho] using hopen⟩ trivial id
    · exact fun _ _ _ _ _ => answers_lax (fun _ => trivial) (fun _ => trivial) id
    · exact fun _ _ _ _ _ _ => ⟨trivial, fun _ => trivial⟩
    · rintro hkind session task rfl ht hrevision hmethod t ht'
      rw [view_task ht] at ht'
      cases ht'
      have hnone : task.association = none := by simpa [queryable, hkind, ht] using hqueryable
      exact hnone
    · exact fun _ _ _ _ _ _ => trivial
    · exact fun _ _ _ => trivial
    · have hlively := unended_lively hb hunended
      rw [met_view]
      exact hlively

theorem sound_default : Calm Sound ({} : Engine) where
  mode := rfl
  view := { base_default with
      family := nofun, settable := nofun, root := nofun, alive := nofun, budget := nofun }

theorem sound_run (h : Chain (Steps config guarded) {} out e) : Calm Sound e := by
  refine h.invariant (fun e out e' hstep he => ?_) sound_default
  obtain ⟨input, hguarded, hstep⟩ := hstep
  exact he.step sound_keeps (meets_soundly he.view.toBase hguarded) hstep

theorem sound_step (he : Calm Sound e) (hguarded : e.guarded input = true) :
    ∃ e' drafts, e.step config input = .ok (e', drafts) := by
  cases hstep : e.step config input with
  | ok r => exact ⟨r.1, r.2, rfl⟩
  | error panic =>
    obtain ⟨desk, hs, hfault⟩ := he.panic sound_keeps (meets_soundly he.view.toBase hguarded) hstep
    exact absurd hfault hs.no_fault

/-- The engine does not panic on an event that finds its records in order, in any state of a run of such events. -/
theorem engine_never_panics (hrun : Chain (Steps config Engine.guarded) {} out e) (hguarded : e.guarded input = true) :
    ∃ e' drafts, e.step config input = .ok (e', drafts) :=
  sound_step (sound_run hrun) hguarded

theorem engine_never_panics_child : ∃ e out, Chain (Steps bare Engine.guarded) {} out e ∧ e.tasks.contains "a:1" = true ∧
    ∃ e' drafts, e.step bare (exhausted "r" "a:1") = .ok (e', drafts) := by
  obtain ⟨e, out, hrun, h⟩ := exists_run bare guarded {}
    [received "a" (message "c"), answered "m" "a:model:0:1" "js" [("code", .string "x")], queried "q" "a"]
    (fun r => r.1.tasks.contains "a:1" && r.1.guarded (exhausted "r" "a:1")) (by decide +kernel)
  obtain ⟨hchild, hguarded⟩ := Bool.and_eq_true_iff.mp h
  exact ⟨e, out, hrun, hchild, engine_never_panics hrun hguarded⟩

def Engine.panics (config : Config) (e : Engine) (input : Input) : Option Panic :=
  match e.step config input with
  | .ok _ => none
  | .error panic => some panic

theorem Engine.panics_eq_some {panic : Panic} (h : e.panics config input = some panic) :
    e.step config input = .error panic := by
  unfold panics at h
  split at h
  · cases h
  · next hstep =>
    cases h
    exact hstep

/-- A payload that is a text does not take the intent the model has found in it. -/
theorem engine_panics_on_text : ∃ e out, Chain (Steps bare fun _ _ => true) {} out e ∧
    ∃ input, e.step bare input = .error .assign := by
  obtain ⟨e, out, hrun, h⟩ := exists_run bare (fun _ _ => true) {}
    [received "a" (.string "x"), received "b" (.string "y"), answered "m" "a:model:0:1" "yield"
      [("action", .string "wait"), ("question", .string "q"), ("waitFor", .string "input")]]
    (fun r => r.1.panics bare (answered "n" "associate:b:model:0:1" "associate"
      [("action", .string "cancel"), ("jobId", .string "a")]) = some .assign) (by decide +kernel)
  exact ⟨e, out, hrun, _, panics_eq_some (of_decide_eq_true h)⟩

end Runs

end Pluribus.Rlm
