import Pluribus.Rlm.Endings

namespace Pluribus.Rlm

open Lib Option
open Engine

def View.childless (v : View) (k : String) : Prop := ∀ k' t, v.tasks k' = some t → t.parent ≠ some k

def View.bare (v : View) (root : String) : Prop := ∀ k t, v.tasks k = some t → t.root = root → k = root

section Moves

variable {R : Rules} {s s' : Desk} {xs : List Draft} {k j : String} {t : TaskView}

attribute [local grind =] filter_eq_none_iff

section

variable (h : Move R s xs s')

include h

theorem Move.childless (hchildless : s.view.childless k) :
    s'.view.childless k ∨ ∃ name t, s.view.tasks k = some t ∧ R.spawn s.view k (k ++ ":" ++ name) ∧
      s'.view = s.view.setTask (k ++ ":" ++ name) (some (.opened t.root (some k) (t.depth + 1) none)) ∧
      s'.held = some (k ++ ":" ++ name) := by
  rw [or_iff_not_imp_right]
  intro hnot k' t' ht' hparent
  rcases h.task_cases ht' with ⟨t, ht, heq⟩ | hborn
  · rw [heq] at hparent
    exact hchildless k' t ht hparent
  · cases hborn with
    | consult | create => cases hparent
    | spawn p name t ht hspawn hview hheld =>
      cases hparent
      exact hnot ⟨name, t, ht, hspawn, hview, hheld⟩

theorem Move.queue_cases (hk : k ∈ s'.view.queue) : k ∈ s.view.queue ∨ s.held = some k ∨ s.view.calling k := by
  cases h <;> grind [View.calling]

theorem Move.call_cases {call : String} (hk : s'.view.calls call = some k) :
    s.view.calls call = some k ∨ s.held = some k := by
  cases h <;> grind

theorem Move.gone_cases (ht : s.view.tasks k = some t) (hgone : s'.view.tasks k = none) :
    s.held = some k ∨ s.view.jobs t.root ≠ none ∧ s'.view.bare t.root := by
  cases h <;> grind [View.bare]

/-- A job that is not over is kept so with its root, or it is over without its root or without its tree. -/
theorem Move.root_fate {job : JobView} (hjob : s.view.jobs j = some job)
    (hopen : job.status.ended = false) (ht : s.view.tasks j = some t) (hroot : t.root = j) (hparent : t.parent = none)
    (hassociation : t.association = none) :
    ((∃ t', s'.view.tasks j = some t') ∧ ∃ job', s'.view.jobs j = some job' ∧ job'.status.ended = false) ∨
      (∃ job', s'.view.jobs j = some job' ∧ job'.status.ended = true) ∧
        (s.held = some j ∧ s'.view.tasks j = none ∧ (∀ k, k ≠ j → s'.view.tasks k = s.view.tasks k) ∨
          ∀ k t', s'.view.tasks k = some t' → t'.root ≠ j) := by
  cases h <;> grind [JobStatus.ended]

theorem Move.open_cases {job' : JobView} (hjob : s'.view.jobs j = some job') (hopen : job'.status.ended = false) :
    (∃ job, s.view.jobs j = some job ∧ job.status.ended = false) ∨ s'.view.tasks j ≠ none ∨
      s.view.jobs j ≠ none ∧ ∃ k t, s.view.tasks k = some t ∧
        (t.root = j ∨ k = j ∧ t.parent = none ∧ t.association = none) := by
  cases h <;> grind [JobStatus.ended]

theorem Move.held_cases (hk : s'.held = some k) :
    s.held = some k ∨ k ∈ s.view.queue ∨ s.view.calling k ∨ (∃ id, R.report s.view k id) ∨ R.lose s.view k ∨
      (∃ job, s.view.jobs k = some job ∧ job.due ≠ none) ∨ 
      (∃ t', s'.view.tasks k = some t' ∧ Born R s s' k t') ∨ s.view.jobs k ≠ none ∧ s'.view.bare k := by
  cases h <;> grind [View.calling, View.bare, Born]

theorem Move.due_cases {job' : JobView} (hjob : s'.view.jobs j = some job') (hdue : job'.due ≠ none) :
    (∃ job, s.view.jobs j = some job ∧ job.due ≠ none) ∨
      s.view.jobs j ≠ none ∧ (s'.view.bare j ∨ ∃ k t, s.held = some k ∧ s.view.tasks k = some t ∧ t.root = j ∧ t.parent = none) := by
  cases h <;> grind [View.bare]

end

theorem JobStatus.awake_of_ended {status : JobStatus} (h : status.ended = true) : status.suspended = false := by
  cases status <;> first | rfl | cases h

theorem Move.asleep (h : Move R s xs s')
    (hasleep : ∀ j job, s.view.jobs j = some job → job.status.suspended = true → job.due ≠ none) :
    ∀ j job, s'.view.jobs j = some job → job.status.suspended = true → job.due ≠ none := by
  cases h <;> grind [JobStatus.suspended, JobStatus.awake_of_ended]

end Moves

/-- A session from which a child may be opened: a job's own, with nothing else under way. -/
structure View.idle (v : View) (k : String) : Prop where
  working : ∀ t, v.tasks k = some t → t.association = none
  unqueued : k ∉ v.queue
  silent : ¬ v.calling k
  awake : ∀ job, v.jobs k = some job → job.due = none

/-- Cells end and sessions are lost without children, and children come from cells that run. -/
def treelike : Rules where
  observe o _ := Plain o
  report v session _ := v.childless session
  lose v session := v.childless session
  spawn v session child := v.idle session ∧ v.tasks child = none

/-- Jobs have their roots, tasks their jobs and children their parents. -/
structure Frame (s : Desk) : Prop extends Base s where
  root : ∀ j job, s.view.jobs j = some job → job.status.ended = false → s.view.tasks j ≠ none
  alive : ∀ k t, s.view.tasks k = some t → t.association = none →
    s.view.tasks t.root ≠ none ∧ ∃ job, s.view.jobs t.root = some job ∧ job.status.ended = false
  parent : ∀ k t p, s.view.tasks k = some t → t.parent = some p →
    ∃ tp, s.view.tasks p = some tp ∧ tp.root = t.root ∧ t.depth = tp.depth + 1

structure Tree (s : Desk) : Prop extends Frame s where
  queued : ∀ k ∈ s.view.queue, s.view.childless k
  calling : ∀ k, s.view.calling k → s.view.childless k
  asleep : ∀ j job, s.view.jobs j = some job → job.status.suspended = true → job.due ≠ none
  due : ∀ j job, s.view.jobs j = some job → job.due ≠ none → s.view.childless j
  held : ∀ k, s.held = some k → s.view.childless k

namespace Frame

variable {s s' : Desk} {xs : List Draft} {k j : String} {t : TaskView}

theorem alone (hs : Frame s) (hk : s.view.childless k) : s.view.bare k := by
  -- from a child one comes to its parent, which is in the same tree and less deep
  suffices h : ∀ n k' t, t.depth = n → s.view.tasks k' = some t → t.root = k → k' = k from
    fun k' t ht hroot => h t.depth k' t rfl ht hroot
  intro n
  induction n with
  | zero =>
    intro k' t hdepth ht hroot
    cases hparent : t.parent with
    | some p =>
      obtain ⟨tp, -, -, hless⟩ := hs.parent k' t p ht hparent
      omega
    | none =>
      cases hassociation : t.association with
      | some o => exact (hs.associated k' t o ht hassociation).2.1.symm.trans hroot
      | none => exact (hs.rooted k' t ht hparent hassociation).1.symm.trans hroot
  | succ n ih =>
    intro k' t hdepth ht hroot
    cases hparent : t.parent with
    | some p =>
      obtain ⟨tp, htp, hsame, hless⟩ := hs.parent k' t p ht hparent
      have hp := ih p tp (by omega) htp (hsame.trans hroot)
      exact absurd hparent (hp ▸ hk k' t ht)
    | none =>
      cases hassociation : t.association with
      | some o => exact (hs.associated k' t o ht hassociation).2.1.symm.trans hroot
      | none => exact (hs.rooted k' t ht hparent hassociation).1.symm.trans hroot

theorem childless_of_bare (hs : Frame s) (hj : s.view.jobs j ≠ none) (hbare : s.view.bare j) (hlive : s.view.tasks j ≠ none) :
    s.view.childless j := by
  intro k t ht hparent
  obtain ⟨tp, htp, hsame, -⟩ := hs.parent k t j ht hparent
  have hroot := (hs.root_of_job hj htp).2.2
  obtain rfl := hbare k t ht (hsame.symm.trans hroot)
  simp [(hs.root_of_job hj ht).1] at hparent

theorem childless_of_gone (hs : Frame s) (hk : s.view.tasks k = none) : s.view.childless k := by
  intro k' t ht hparent
  obtain ⟨tp, htp, -⟩ := hs.parent k' t k ht hparent
  rw [hk] at htp
  cases htp

theorem new (hs : Frame s) (hborn : Born treelike s s' k t) : s.view.tasks k = none := by
  cases hborn with
  | consult o b hnew hobserve => exact (hs.fresh hnew hobserve).2.2
  | create o hdeciding =>
    obtain ⟨hinbox, hjob, -⟩ := hs.deciding k hdeciding
    by_contra hlive
    obtain ⟨t, ht⟩ := ne_none_iff_exists'.mp hlive
    exact (hs.root_of_plain ht (hs.plain k hinbox)).2.2.2 hjob
  | spawn p name t ht hspawn => exact hspawn.2

end Frame

namespace Tree

variable {s s' : Desk} {xs : List Draft} {k j : String} {t : TaskView} (h : Move treelike s xs s') (hs : Tree s)
include h hs

/-- What becomes of a job that is not over: it is kept with its root, or nothing is left of it. -/
theorem job_fate {job : JobView} (hjob : s.view.jobs j = some job) (hopen : job.status.ended = false) :
    (s'.view.tasks j ≠ none ∧ ∃ job', s'.view.jobs j = some job' ∧ job'.status.ended = false) ∨
      (∃ job', s'.view.jobs j = some job' ∧ job'.status.ended = true) ∧
        ∀ k t', s'.view.tasks k = some t' → t'.root ≠ j := by
  obtain ⟨t, ht⟩ := ne_none_iff_exists'.mp (hs.root j job hjob hopen)
  obtain ⟨hparent, hassociation, hroot⟩ := hs.root_of_job (by simp [hjob]) ht
  rcases h.root_fate hjob hopen ht hroot hparent hassociation with ⟨⟨t', ht'⟩, hkept⟩ | ⟨hover, ⟨hheld, hgone, hothers⟩ | hnone⟩
  · exact .inl ⟨by simp [ht'], hkept⟩
  · refine .inr ⟨hover, fun k t' ht' hroot' => ?_⟩
    by_cases hk : k = j
    · rw [hk, hgone] at ht'
      cases ht'
    · rw [hothers k hk] at ht'
      exact hk (hs.alone (hs.held j hheld) k t' ht' hroot')
  · exact .inr ⟨hover, hnone⟩

theorem alive_of_live {job : JobView} (hjob : s.view.jobs j = some job) (hopen : job.status.ended = false)
    (hlive : ∃ k t', s'.view.tasks k = some t' ∧ t'.root = j) :
    s'.view.tasks j ≠ none ∧ ∃ job', s'.view.jobs j = some job' ∧ job'.status.ended = false := by
  obtain ⟨k, t', ht', hroot⟩ := hlive
  exact (job_fate h hs hjob hopen).resolve_right fun hover => hover.2 k t' ht' hroot

theorem frame : Frame s' where
  toBase := hs.toBase.move (fun _ _ ho => ho) h
  root j job' hjob' hopen' := by
    have hkeeps : (∃ job, s.view.jobs j = some job ∧ job.status.ended = false) → s'.view.tasks j ≠ none := by
      rintro ⟨job, hjob, hopen⟩
      rcases job_fate h hs hjob hopen with hkept | ⟨⟨job'', hjob'', hended⟩, -⟩
      · exact hkept.1
      · rw [hjob'] at hjob''
        cases hjob''
        simp [hopen'] at hended
    rcases h.open_cases hjob' hopen' with hold | hlive | ⟨hjob, k, t, ht, hkey⟩
    · exact hkeeps hold
    · exact hlive
    · -- a live task's job is not over
      have hroot : t.root = j := hkey.elim id fun ⟨hk, hparent, hassociation⟩ =>
        (hs.rooted k t ht hparent hassociation).1.trans hk
      exact hkeeps (hroot ▸ (hs.alive k t ht (hs.working ht (hroot ▸ hjob))).2)
  alive k t' ht' hassociation := by
    rcases h.task_cases ht' with ⟨t, ht, heq⟩ | hborn
    · rw [heq] at hassociation
      obtain ⟨-, job, hjob, hopen⟩ := hs.alive k t ht hassociation
      have hroot : t'.root = t.root := by rw [heq]
      rw [hroot]
      exact alive_of_live h hs hjob hopen ⟨k, t', ht', hroot⟩
    · cases hborn with
      | consult => cases hassociation
      | create o hdeciding hjob => exact ⟨by simp [TaskView.opened, ht'], _, hjob, rfl⟩
      | spawn p name t ht hspawn =>
        obtain ⟨-, job, hjob, hopen⟩ := hs.alive p t ht (hspawn.1.working t ht)
        exact alive_of_live h hs hjob hopen ⟨_, _, ht', rfl⟩
  parent k t' p ht' hparent := by
    rcases h.task_cases ht' with ⟨t, ht, heq⟩ | hborn
    · rw [heq] at hparent ⊢
      obtain ⟨tp, htp, hroot, hdepth⟩ := hs.parent k t p ht hparent
      cases hp : s'.view.tasks p with
      | none =>
        -- the parent is gone, but neither did it end nor was its tree dropped
        rcases h.gone_cases htp hp with hheld | ⟨hjob, hbare⟩
        · exact absurd hparent (hs.held p hheld k t ht)
        · have hk := hbare k t' ht' (by rw [heq, hroot])
          rw [← hk] at hjob
          cases (hs.root_of_job hjob ht).1.symm.trans hparent
      | some tp' =>
        rcases h.task_cases hp with ⟨tp₀, htp₀, heq'⟩ | hborn
        · rw [htp] at htp₀
          cases htp₀
          exact ⟨tp', rfl, by rw [heq']; exact hroot, by rw [heq']; exact hdepth⟩
        · rw [hs.new hborn] at htp
          cases htp
    · cases hborn with
      | consult | create => cases hparent
      | spawn p' name t ht hspawn hview =>
        cases hparent
        refine ⟨t, ?_, rfl, rfl⟩
        rw [hview, View.setTask_tasks, Function.update_of_ne, ht]
        rintro hname
        rw [hname, hspawn.2] at ht
        cases ht

theorem held_childless (hk : s'.held = some k) : s'.view.childless k := by
  have hframe := frame h hs
  -- it was without children, and it is not its own cell that opens one
  have hkeeps : s.view.childless k → s'.view.childless k := by
    intro hchildless
    rcases h.childless hchildless with hstill | ⟨name, t, ht, hspawn, -, hheld⟩
    · exact hstill
    · rw [hk] at hheld
      rw [Option.some.inj hheld, hspawn.2] at ht
      cases ht
  rcases h.held_cases hk with hold | hqueued | hcalling | ⟨id, hreport⟩ | hlose | ⟨job, hjob, hdue⟩ | ⟨t', ht', hborn⟩ |
    ⟨hjob, hbare⟩
  · exact hkeeps (hs.held k hold)
  · exact hkeeps (hs.queued k hqueued)
  · exact hkeeps (hs.calling k hcalling)
  · exact hkeeps hreport
  · exact hkeeps hlose
  · exact hkeeps (hs.due k job hjob hdue)
  · exact hkeeps (hs.childless_of_gone (hs.new hborn))
  · by_cases hlive : s'.view.tasks k = none
    · exact hframe.childless_of_gone hlive
    · exact hframe.childless_of_bare (h.job_kept hjob) hbare hlive

theorem move : Tree s' where
  toFrame := frame h hs
  queued k hk := by
    have hchildless : s.view.childless k := by
      rcases h.queue_cases hk with hqueued | hheld | hcalling
      · exact hs.queued k hqueued
      · exact hs.held k hheld
      · exact hs.calling k hcalling
    rcases h.childless hchildless with hstill | ⟨_, _, _, hspawn, hview, _⟩
    · exact hstill
    · rw [hview] at hk
      exact absurd hk hspawn.1.unqueued
  calling k hk := by
    have hchildless : s.view.childless k := by
      obtain ⟨call, hcall⟩ := hk
      rcases h.call_cases hcall with hcalling | hheld
      · exact hs.calling k ⟨call, hcalling⟩
      · exact hs.held k hheld
    rcases h.childless hchildless with hstill | ⟨_, _, _, hspawn, hview, _⟩
    · exact hstill
    · rw [hview] at hk
      exact absurd hk hspawn.1.silent
  asleep := h.asleep hs.asleep
  due j job' hjob' hdue' := by
    have hkeeps : s.view.childless j → s'.view.childless j := by
      intro hchildless
      rcases h.childless hchildless with hstill | ⟨_, _, _, hspawn, hview, _⟩
      · exact hstill
      · rw [hview] at hjob'
        exact absurd (hspawn.1.awake job' hjob') hdue'
    rcases h.due_cases hjob' hdue' with ⟨job, hjob, hdue⟩ | ⟨hjob, hbare | ⟨k, t, hheld, ht, hroot, hparent⟩⟩
    · exact hkeeps (hs.due j job hjob hdue)
    · by_cases hlive : s'.view.tasks j = none
      · exact (frame h hs).childless_of_gone hlive
      · exact (frame h hs).childless_of_bare (h.job_kept hjob) hbare hlive
    · obtain rfl : k = j := by
        rw [← hroot] at hjob
        exact (hs.root_of_parentless ht hparent hjob).2.symm.trans hroot
      exact hkeeps (hs.held k hheld)
  held _ := held_childless h hs

end Tree

theorem tree_keeps : Keeps treelike Tree where
  move _ _ _ h hs := hs.move h
  release _ _ hs :=
    { toBase := hs.toBase.release, root := hs.root, alive := hs.alive, parent := hs.parent, queued := hs.queued,
      calling := hs.calling, asleep := hs.asleep, due := hs.due, held := nofun }
  base _ hs := hs.toBase

section Runs

variable {config : Config} {e e' : Engine} {out : List Draft} {input : Input}

structure Engine.WellFormed (e : Engine) : Prop where
  root : ∀ j job, e.jobs.find j = some job → job.status.ended = false → ∃ task, e.tasks.find j = some task ∧ task.root = j
  alive : ∀ session task, e.tasks.find session = some task → task.association = none →
    (∃ root, e.tasks.find task.root = some root) ∧ ∃ job, e.jobs.find task.root = some job ∧ job.status.ended = false
  parent : ∀ session task parent, e.tasks.find session = some task → task.parent = some parent →
    ∃ task', e.tasks.find parent.1 = some task'
  asleep : ∀ j job, e.jobs.find j = some job → job.status.suspended = true →
    ∀ session task, e.tasks.find session = some task → task.root = j → session = j

theorem Tree.wellFormed (hs : Tree ⟨e.view, none, none⟩) : e.WellFormed where
  root j job hjob hopen := by
    obtain ⟨t, ht⟩ := ne_none_iff_exists'.mp (hs.root j job.view (view_job hjob) hopen)
    obtain ⟨task, hfind, rfl⟩ := Map.of_through ht
    exact ⟨task, hfind, (hs.root_of_job (by simp [view_job hjob]) ht).2.2⟩
  alive session task htask hassociation := by
    obtain ⟨hroot, job, hjob, hopen⟩ := hs.alive session task.view (view_task htask) hassociation
    obtain ⟨t, ht⟩ := ne_none_iff_exists'.mp hroot
    obtain ⟨root, hroot, -⟩ := Map.of_through ht
    obtain ⟨job, hfind, rfl⟩ := Map.of_through hjob
    exact ⟨⟨root, hroot⟩, job, hfind, hopen⟩
  parent session task parent htask hparent := by
    obtain ⟨tp, htp, -⟩ := hs.parent session task.view parent.1 (view_task htask) (by simp [Task.view, hparent])
    obtain ⟨task', hfind, -⟩ := Map.of_through htp
    exact ⟨task', hfind⟩
  asleep j job hjob hsuspended session task htask hroot := by
    have hdue := hs.asleep j job.view (view_job hjob) hsuspended
    exact hs.alone (hs.due j job.view (view_job hjob) hdue) session task.view (view_task htask) hroot

def Engine.childless (e : Engine) (session : String) : Bool :=
  e.tasks.values.all fun task => task.parent.map Prod.fst ≠ some session

theorem Engine.childless_view {session : String} (h : e.childless session = true) : e.view.childless session := by
  intro k t ht hparent
  obtain ⟨task, hfind, rfl⟩ := Map.of_through ht
  have hall := List.all_eq_true.mp h task (Map.mem_values.mpr ⟨k, hfind⟩)
  exact absurd hparent (by simpa [Task.view] using hall)

/-- A session whose cell may ask for a child under the name. -/
def Engine.mayBranch (e : Engine) (session child : String) (task : Task) : Bool :=
  task.association.isNone && session ∉ e.queue && session ∉ e.calls.values &&
    (e.jobs.find session).all (fun job => job.wake.isNone) && !e.tasks.contains child

/-- An event finds the sessions it is about as the cells that run leave them: a cell that ends and a session that is
lost have no children, and a child is asked for by a job's session that waits for nothing else. -/
def Engine.branches (e : Engine) (input : Input) : Bool :=
  let session := (input.value.getStr "sessionId").getD ""
  match input.kind with
  | .codeCompleted | .codeFailed =>
    (e.tasks.find session).all fun task => !e.accepts input.kind input.value task || e.childless session
  | .codeYielded =>
    (e.tasks.find session).all fun task =>
      !(task.cellRevision = task.revision && (input.value.index "method").asStr = some "rlm.query") ||
        e.mayBranch session (session ++ ":" ++ (input.value.index "id").text) task
  | .cognitionResourceExhausted =>
    (e.reported input.value).all fun session =>
      (e.tasks.find session).all fun task => !Engine.concerns input.value task || e.childless session
  | _ => true

/-- Observations have plain ids, and an event not seen before finds its sessions in order. -/
def Engine.branching (e : Engine) (input : Input) : Bool :=
  input.plain && (e.seen input || (e.met input).branches input)

theorem Engine.mayBranch_idle {session child : String} {task : Task} (ht : e.tasks.find session = some task)
    (h : e.mayBranch session child task = true) : treelike.spawn e.view session child := by
  simp only [mayBranch, Bool.and_eq_true, decide_eq_true_eq, isNone_iff_eq_none, Bool.not_eq_true'] at h
  obtain ⟨⟨⟨⟨hassociation, hqueue⟩, hcalls⟩, hwake⟩, hchild⟩ := h
  refine ⟨⟨fun t ht' => ?_, hqueue, ?_, fun job hjob => ?_⟩, ?_⟩
  · rw [view_task ht] at ht'
    cases ht'
    exact hassociation
  · rintro ⟨call, hcall⟩
    exact hcalls (Map.mem_values.mpr ⟨call, hcall⟩)
  · obtain ⟨job, hfind, rfl⟩ := Map.of_through hjob
    rw [hfind, all_some, isNone_iff_eq_none] at hwake
    simp [Job.view, hwake]
  · exact view_no_task (by simpa [Map.contains] using hchild)

theorem meets_treelike (hb : Base ⟨e.view, none, none⟩) (h : e.branching input = true) : Meets treelike treelike e input where
  tick := trivial
  issue := trivial
  orders _ _ _ _ _ _ _ := trivial
  allows _ _ hnew := by
    obtain ⟨hplain, hbranches⟩ := Bool.and_eq_true_iff.mp h
    rw [hnew, Bool.false_or] at hbranches
    refine Demands.allows (base_met hb input) hplain ⟨fun o payload ho => ?_, ?_, ?_, ?_, ?_, ?_, nofun⟩
    · exact admits_lax (input.plain_id hplain ho) trivial id
    · exact fun _ _ _ _ _ => answers_lax (fun _ => trivial) (fun _ => trivial) id
    · rintro hkind session task rfl ht haccepts
      refine ⟨childless_view ?_, fun _ => trivial⟩
      rcases hkind with hkind | hkind <;> rw [hkind] at haccepts <;>
        simpa [branches, hkind, ht, haccepts] using hbranches
    · rintro hkind session task rfl ht hrevision hmethod
      exact mayBranch_idle ht (by simpa [branches, hkind, ht, hrevision, hmethod] using hbranches)
    · intro hkind session task hreported ht hconcerns
      exact childless_view (by simpa [branches, hkind, hreported, ht, hconcerns] using hbranches)
    · exact fun _ _ _ => trivial

theorem tree_run (h : Chain (Steps config branching) {} out e) : Calm Tree e := by
  refine h.invariant (fun e out e' hstep he => ?_) ⟨rfl, ?_⟩
  · obtain ⟨input, hbranching, hstep⟩ := hstep
    exact he.step tree_keeps (meets_treelike he.view.toBase hbranching) hstep
  · exact { base_default with
      root := nofun, alive := nofun, parent := nofun, queued := nofun, calling := nofun, asleep := nofun,
      due := nofun, held := nofun }

/-- The task tree is well formed in every state of a run whose events find their sessions in order. -/
theorem task_tree_well_formed (h : Chain (Steps config Engine.branching) {} out e) : e.WellFormed :=
  (tree_run h).view.wellFormed

theorem task_tree_well_formed_child : ∃ e out, Chain (Steps bare Engine.branching) {} out e ∧
    e.tasks.contains "a:1" = true ∧ e.WellFormed := by
  obtain ⟨e, out, hrun, hchild⟩ := exists_run bare branching {}
    [received "a" (message "c"), answered "m" "a:model:0:1" "js" [("code", .string "x")], queried "q" "a"]
    (fun r => r.1.tasks.contains "a:1") (by decide +kernel)
  exact ⟨e, out, hrun, hchild, task_tree_well_formed hrun⟩

/-- A root that fails leaves its child behind. -/
theorem task_tree_orphan : ∃ e out, Chain (Steps bare fun _ _ => true) {} out e ∧ ¬ e.WellFormed := by
  obtain ⟨e, out, hrun, h⟩ := exists_run bare (fun _ _ => true) {}
    [received "a" (message "c"), answered "m" "a:model:0:1" "js" [("code", .string "x")], queried "q" "a",
      exhausted "r1" "a", exhausted "r2" "a", exhausted "r3" "a"]
    (fun r => (r.1.tasks.find "a:1").any (fun task => task.parent.map Prod.fst = some "a") && !r.1.tasks.contains "a")
    (by decide +kernel)
  rw [Bool.and_eq_true, any_eq_true, Bool.not_eq_true'] at h
  obtain ⟨⟨task, htask, hparent⟩, hgone⟩ := h
  obtain ⟨parent, hparent, hname⟩ := map_eq_some_iff.mp (of_decide_eq_true hparent)
  refine ⟨e, out, hrun, fun hformed => ?_⟩
  obtain ⟨task', htask'⟩ := hformed.parent "a:1" task parent htask hparent
  rw [hname] at htask'
  simp [Map.contains, htask'] at hgone

end Runs

end Pluribus.Rlm
