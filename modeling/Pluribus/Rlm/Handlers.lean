import Pluribus.Rlm.Requests

namespace Pluribus.Rlm

open Lib List Option Function Engine Leads View

def View.rooted (v : View) : Prop := ∀ j job t, v.jobs j = some job → v.tasks j = some t → t.parent = none

def View.lively (v : View) : Prop :=
  ∀ s t job, v.tasks s = some t → v.jobs t.root = some job ∨ v.jobs s = some job → job.status.ended = false

theorem TaskView.closed_note (t : TaskView) : t.closed.with plainNote = t.closed := by
  obtain ⟨root, parent, depth, association, tools⟩ := t
  cases tools <;> rfl

namespace Engine

theorem unscheduled {R : Rules} {e : Engine} (hs : e.scheduling = false) : e.scheduling = true → R.issue := by
  intro h
  rw [hs] at h
  cases h

variable {R : Rules} {config : Config} {e : Engine} {before : List Draft} {session cause o j : String} {task : Task}
  {grip : Grip} {hand : Option (String × Grip)}

section Association

variable {draft : Draft}

theorem createJob_seats (hs : e.scheduling = false) :
    Follows (Move R) Fault (fun e' desk => Rests e.mode e' desk ∧ e.Seats o e' desk) before ⟨e.view, hand, some o⟩
      (e.createJob config o cause) := by
  unfold createJob
  cases hinbox : e.inbox.find o with
  | none => exact .error (.lost (view_no_inbox hinbox))
  | some source =>
    rw [expect_some_bind]
    dsimp only
    generalize he : startRoot config _ o o o source.value = e'
    have hmode : e'.mode = e.mode := by subst he; rfl
    have htasks : ∃ task, (∀ k, e'.tasks.find k = if o = k then some task else e.tasks.find k) ∧ task.parent = none ∧
        task.resourceFailures = 0 ∧ task.root = o := by
      subst he
      exact ⟨_, fun k => Map.find_insert _ o k _, rfl, rfl, rfl⟩
    obtain ⟨task, htasks, hparent, hfresh, hroot⟩ := htasks
    have hjob : ∀ job, e'.jobs.find task.root = some job → job.status.ended = true → e.jobs.find o = some job := by
      intro job hjob hended
      subst he
      rw [hroot, startRoot, Map.find_insert_self] at hjob
      cases hjob
      exact absurd hended (by simp [newJob, JobStatus.ended])
    have hmove : Move R ⟨e.view, hand, some o⟩ [] ⟨e'.view, some (o, .loose), none⟩ := by
      have h := Move.create (R := R) (h := hand) (view_inbox hinbox)
      subst he
      convert h using 2
      simp only [startRoot, view, setTask, setBudget, setJob, setInbox, Map.through_insert,
        Map.find_insert_update]
      rfl
    rw [← hmode]
    exact .silent hmove (request_seats (by subst he; exact hs) ((htasks o).trans (if_pos rfl)) hparent hfresh
      (fun k hk => (htasks k).trans (if_neg (Ne.symm hk))) hjob)

theorem interrupt_view (revision : Nat) (task : Task) : (interrupt revision task).view = task.view.closed :=
  closeInterruptedTools_view { task with revision := revision, controlErrors := 0 } _

theorem through_interrupt (tasks : Map String Task) (j : String) (revision : Nat) (s : String) :
    ((tasks.update fun _ task => if task.root = j then interrupt revision task else task).through Task.view s).filter
      (fun t => t.root ≠ j) = (tasks.through Task.view s).filter fun t => t.root ≠ j := by
  rw [Map.through, Map.find_update, Map.through]
  cases tasks.find s with
  | none => rfl
  | some task =>
    by_cases hroot : task.root = j
    · have h : (interrupt revision task).view.root = j := by rw [interrupt_view]; exact hroot
      have h' : task.view.root = j := hroot
      simp [hroot, filter_some, h, h']
    · simp [hroot]

theorem through_cancelled (tasks : Map String Task) (j : String) (revision : Nat) :
    ((tasks.update fun _ task => if task.root = j then interrupt revision task else task).retain fun _ task =>
      task.root ≠ j).through Task.view = fun s => (tasks.through Task.view s).filter fun t => t.root ≠ j := by
  rw [Map.through_retain _ Task.view (p := fun _ task => task.root ≠ j) (fun _ t => t.root ≠ j) fun _ _ => rfl]
  exact funext (through_interrupt tasks j revision)

theorem through_amended (tasks : Map String Task) (j : String) (revision : Nat) (task : Task) :
    (((tasks.update fun _ task => if task.root = j then interrupt revision task else task).retain fun id task =>
      task.root ≠ j || id = j).insert j task).through Task.view =
      update (fun s => (tasks.through Task.view s).filter fun t => t.root ≠ j) j (some task.view) := by
  rw [through_regroup]
  exact congrArg (update · j _) (funext (through_interrupt tasks j revision))

theorem find_amended (tasks : Map String Task) (j : String) (revision : Nat) :
    ((tasks.update fun _ task => if task.root = j then interrupt revision task else task).retain fun id task =>
      task.root ≠ j || id = j).find j =
      (tasks.find j).map fun task => if task.root = j then interrupt revision task else task := by
  rw [Map.find_retain, Map.find_update]
  cases tasks.find j <;> simp

theorem speaks_interrupt (v : View) {revision : Nat} (h : draft ∈ interruptDrafts j revision cause session task) :
    v.speaks draft := by
  rcases mem_append.mp h with h | h
  · split at h
    · split at h
      · rw [mem_singleton.mp h]
        exact speaks_quiet rfl
      · cases h
    · cases h
  · rw [mem_singleton.mp h]
    exact speaks_quiet rfl

theorem speaks_timerCancel (v : View) {wake : Option Wake} (h : draft ∈ timerCancel wake cause) : v.speaks draft := by
  unfold timerCancel at h
  split at h
  · rw [mem_singleton.mp h]
    exact speaks_quiet rfl
  · cases h

theorem speaks_cancelActivities (v : View) {job : Job} (h : draft ∈ cancelActivities j job cause) : v.speaks draft := by
  obtain ⟨activity, -, rfl⟩ := mem_map.mp h
  exact speaks_quiet rfl

theorem speaks_amendDrafts (v : View) (e : Engine) (j : String) (wake : Option Wake) (amended : Job) (cause : String) :
    ∀ draft ∈ e.amendDrafts j wake amended cause, v.speaks draft := by
  intro draft hdraft
  rcases mem_append.mp hdraft with hdraft | hdraft
  · rcases mem_append.mp hdraft with hdraft | hdraft
    · exact speaks_timerCancel v hdraft
    · exact speaks_cancelActivities v hdraft
  · obtain ⟨row, -, hdraft⟩ := mem_flatMap.mp hdraft
    exact speaks_interrupt v hdraft

theorem showObservation_view (value : Json) (revision : Nat) (task : Task) :
    (showObservation o value revision task).view = task.view.with plainNote := by
  rw [showObservation, Task.view_push_note]
  rfl

theorem amended_view (value : Json) (revision : Nat) (task : Task) :
    let t := (showObservation o value revision (if task.root = j then interrupt revision task else task)).view
    t = { task.view with tools := t.tools } ∧ (task.view.root = j → t = task.view.closed) := by
  rw [showObservation_view]
  by_cases hroot : task.root = j
  · rw [if_pos hroot, interrupt_view, TaskView.closed_note]
    exact ⟨rfl, fun _ => rfl⟩
  · rw [if_neg hroot]
    exact ⟨rfl, fun h => absurd h hroot⟩

theorem requery_keeps {e₀ : Engine} {mode : Mode} {drafts : List Draft} (hmode : e.mode = mode)
    (hs : e.scheduling = false) (ht : e.tasks.find j = some task)
    (hparent : task.parent = none) (hkeys : ∀ k, e₀.tasks.find k = none → e.tasks.find k = none) :
    Follows (Move R) Fault (fun e' desk => Rests mode e' desk ∧ ∀ k, e₀.tasks.find k = none → e'.tasks.find k = none)
      (before ++ drafts) ⟨e.view, some (j, .soft), none⟩
      (if j ∈ e.calls.values then .ok (e, drafts) else (e.request config j cause).after drafts) := by
  subst hmode
  refine .ite (fun _ => .ok ⟨⟨rfl, rfl, rfl⟩, hkeys⟩ (sublist_append_right _ _)) fun _ => ?_
  refine .after (sublist_append_right _ _) (.and (request_leads ht (.inr ⟨rfl, hs, hparent⟩) (unscheduled hs)) ?_)
  intro e' out h k hk
  rcases request_parked config cause hs ht hparent with ⟨o, -, -, h'⟩ | ⟨context, tasks, queue, h', htasks, -⟩ <;>
    rw [h'] at h <;> cases h
  have hk := hkeys k hk
  have hne : k ≠ j := fun h => by simp [h, ht] at hk
  exact (htasks k).trans ((if_neg hne).trans hk)

theorem associate_keeps (hs : e.scheduling = false) (hrooted : e.view.rooted) (htidy : R.tidy → e.view.tidy j)
    (hignore : ∀ source job, e.inbox.find o = some source → e.sameOrigin j source.value = true →
      e.jobs.find j = some job → job.status.ended = true → R.ignore) :
    Follows (Move R) Fault (fun e' desk => Rests e.mode e' desk ∧ ∀ k, e.tasks.find k = none → e'.tasks.find k = none)
      before ⟨e.view, hand, some o⟩ (e.associate config o j cause) := by
  have hkept : ∀ (f : String → Task → Task) (p : String → Task → Bool) k, e.tasks.find k = none →
      ((e.tasks.update f).retain p).find k = none := by
    intro f p k hk
    rw [Map.find_retain, Map.find_update, hk]
    rfl
  unfold associate
  cases hinbox : e.inbox.find o with
  | none => exact .error (.lost (view_no_inbox hinbox))
  | some source =>
    rw [expect_some_bind]
    split
    · next job horigin hjob =>
      refine .ite (fun hended => ?_) fun hopen => ?_
      · exact .silent (.ignore (hignore source job hinbox horigin hjob hended))
          (.ok ⟨⟨rfl, rfl, rfl⟩, fun _ h => h⟩ (nil_sublist _))
      have hopen : job.status.ended = false := by simpa using hopen
      refine .step (.speak _ (speaks_amendDrafts e.view e j job.wake (amendJob o source job) cause)) ?_
      refine .ite (fun hcancel => ?_) fun hkeep => ?_
      · refine .silent (.cancel (view_inbox hinbox) (view_job hjob) hopen)
          (.ok ⟨⟨?_, rfl, rfl⟩, hkept _ _⟩ (sublist_append_right _ _))
        simp only [view, filter_contains, through_cancelled, Map.through_insert, amendJob, hcancel, if_true]
        rfl
      · dsimp only
        rw [find_amended]
        cases htask : e.tasks.find j with
        | none => exact .error (.noRoot (view_job hjob) (.inl hopen) (view_no_task htask))
        | some task =>
          obtain ⟨hsame, hclosed⟩ := amended_view (o := o) (j := j) source.value (amendJob o source job).revision task
          rw [map_some, expect_some_bind]
          generalize showObservation o source.value (amendJob o source job).revision
            (if task.root = j then interrupt (amendJob o source job).revision task else task) = task' at *
          have hview : regroup ((e.view.setInbox o (some source.view.settled)).setJob j
              (some (job.view.wait .runnable none))) j task'.view = view { e with
                jobs := e.jobs.insert j (amendJob o source job)
                inbox := e.inbox.insert o { source with status := .incorporated, job := some j }
                tasks := ((e.tasks.update fun _ task =>
                  if task.root = j then interrupt (amendJob o source job).revision task else task).retain
                    fun id task => task.root ≠ j || id = j).insert j task' } := by
            simp only [view, through_amended]
            simp only [Map.through_insert, amendJob, if_neg hkeep]
            rfl
          have hparent : task'.parent = none := by
            have h := hrooted j _ _ (view_job hjob) (view_task htask)
            rw [show task.view.parent = task'.view.parent by rw [hsame]] at h
            simpa [Task.view] using h
          have hmove : Move R ⟨e.view, hand, some o⟩ [] _ :=
            .amend (view_inbox hinbox) (view_job hjob) hopen (view_task htask) htidy hsame hclosed
          rw [hview] at hmove
          refine .silent hmove (requery_keeps rfl hs (by rw [Map.find_insert, if_pos rfl]) hparent fun k hk => ?_)
          have hne : j ≠ k := fun h => by simp [← h, htask] at hk
          rw [Map.find_insert, if_neg hne, hkept _ _ k hk]
    · refine .silent (.shelve (view_inbox hinbox)) (.ok ⟨⟨?_, rfl, rfl⟩, fun _ h => h⟩ (nil_sublist _))
      simp only [view, setInbox, Map.through_insert]
      rfl

theorem openAssociation_find (config : Config) (e : Engine) (o : String) (context : Json) :
    ∃ task, (∀ k, (e.openAssociation config o context).tasks.find k =
        if k = associationSession o then some task else e.tasks.find k) ∧
      task.parent = none ∧ task.resourceFailures = 0 ∧ task.view = .opened (associationSession o) none 0 (some o) := by
  have hother : ∀ k, k ≠ associationSession o → (e.openAssociation config o context).tasks.find k = e.tasks.find k := by
    intro k hk
    unfold openAssociation startRoot
    rw [Map.find_modify, if_neg hk, Map.find_insert, if_neg (Ne.symm hk)]
  have hself : ∃ task, (e.openAssociation config o context).tasks.find (associationSession o) = some task ∧
      task.parent = none ∧ task.resourceFailures = 0 ∧ task.view = .opened (associationSession o) none 0 (some o) := by
    unfold openAssociation startRoot
    rw [Map.find_modify, if_pos rfl, Map.find_insert, if_pos rfl, map_some]
    exact ⟨_, rfl, rfl, rfl, rfl⟩
  obtain ⟨task, htask, hfresh⟩ := hself
  refine ⟨task, fun k => ?_, hfresh⟩
  split
  · next hk => rw [hk, htask]
  · next hk => exact hother k hk

theorem openAssociation_view (config : Config) (e : Engine) (o : String) (context : Json) :
    (e.openAssociation config o context).view = (e.view.setBudget (associationSession o) (some 0)).setTask
      (associationSession o) (some (.opened (associationSession o) none 0 (some o))) := by
  obtain ⟨task, htasks, -, -, hview⟩ := openAssociation_find config e o context
  have h : (e.openAssociation config o context).tasks.through Task.view = update (e.tasks.through Task.view)
      (associationSession o) (some (.opened (associationSession o) none 0 (some o))) := by
    funext k
    rw [Map.through, htasks, update_apply]
    by_cases hk : k = associationSession o
    · rw [if_pos hk, if_pos hk, map_some, hview]
    · rw [if_neg hk, if_neg hk, Map.through]
  rw [view, h]
  simp only [openAssociation, startRoot, Map.find_insert_update]
  rfl

theorem settable_bounded (id : String) (value : Json) : settable (boundedObservation id value) = settable value := by
  unfold boundedObservation
  split
  · rfl
  · split <;> rfl

structure Admits (R : Rules) (e : Engine) (id : String) (value : Json) : Prop where
  observe : R.observe id (settable value)
  ignore : ∀ j job, ((boundedObservation id value).index "jobId").asStr = some j →
    e.sameOrigin j (boundedObservation id value) = true → e.jobs.find j = some job → job.status.ended = true → R.ignore
  tidy : R.tidy → ∀ j, ((boundedObservation id value).index "jobId").asStr = some j → e.view.tidy j

theorem observationReceived_seats {id : String} {value : Json} (hs : e.scheduling = false) (hrooted : e.view.rooted)
    (hadmits : Admits R e id value) :
    Follows (Move R) Fault (fun e' desk => Rests e.mode e' desk ∧ (e.Seats id e' desk ∨
      e.Seats (associationSession id) e' desk ∨ ∀ k, e.tasks.find k = none → e'.tasks.find k = none)) before
      ⟨e.view, hand, none⟩ (e.observationReceived config id value) := by
  obtain ⟨hobserve, hignore, htidy⟩ := hadmits
  rw [← settable_bounded id] at hobserve
  unfold observationReceived
  generalize boundedObservation id value = value at *
  refine .ite (fun _ => .ok ⟨⟨rfl, rfl, rfl⟩, .inr (.inr fun _ h => h)⟩ (nil_sublist _)) fun hnew => ?_
  have hnew : e.view.inbox id = none := view_no_inbox (by simpa [Map.contains] using hnew)
  generalize he₁ : ({ e with inbox := e.inbox.insert id ⟨none, id, e.sequence, value, .pending, none⟩ } : Engine) = e₁
  have hview : e₁.view = e.view.setInbox id (some ⟨true, settable value⟩) := by
    subst he₁
    simp only [view, setInbox, Map.through_insert]
    rfl
  have hreceive : Move R ⟨e.view, hand, none⟩ [] ⟨e₁.view, hand, some id⟩ := hview ▸ .receive id (settable value) hnew hobserve
  have hmode : e₁.mode = e.mode := by subst he₁; rfl
  have hs₁ : e₁.scheduling = false := by subst he₁; exact hs
  have htasks : e₁.tasks = e.tasks := by subst he₁; rfl
  have hrooted₁ : e₁.view.rooted := by subst he₁; exact hrooted
  have hjobs : e₁.jobs = e.jobs := by subst he₁; rfl
  have hseats : ∀ {k e' desk}, e₁.Seats k e' desk → e.Seats k e' desk := fun h => by rwa [Seats, htasks, hjobs] at h
  split
  · next j hj =>
    refine .silent hreceive (.mono (fun _ _ h => ⟨hmode ▸ h.1, .inr (.inr (htasks ▸ h.2))⟩) (Sublist.refl _)
      (associate_keeps hs₁ hrooted₁ (fun h => ?_) fun source job hsource horigin hjob hended => ?_))
    · have h := htidy h j hj
      subst he₁
      exact h
    · subst he₁
      rw [Map.find_insert, if_pos rfl] at hsource
      cases hsource
      exact hignore j job hj horigin hjob hended
  · refine .ite (fun _ => ?_) fun _ => ?_
    · exact .silent hreceive (.mono (fun _ _ h => ⟨hmode ▸ h.1, .inl (hseats h.2)⟩) (Sublist.refl _)
        (createJob_seats hs₁))
    · obtain ⟨task, hfind, hparent, hfresh, htask⟩ := openAssociation_find config e₁ id (e₁.routingContext value)
      have hview₂ := openAssociation_view config e₁ id (e₁.routingContext value)
      rw [hview] at hview₂
      have hmove : Move R ⟨e.view, hand, none⟩ [] ⟨(e₁.openAssociation config id (e₁.routingContext value)).view,
          some (associationSession id, .loose), none⟩ := by
        rw [hview₂]
        exact .consult id (settable value) hnew hobserve
      refine .silent hmove (.mono (fun _ _ h => ⟨hmode ▸ h.1, .inr (.inl h.2)⟩) (Sublist.refl _)
        (request_seats hs₁ ((hfind _).trans (if_pos rfl)) hparent hfresh (fun k hk => ?_) fun job hjob _ => ?_))
      · rw [hfind, if_neg hk, htasks]
      · rw [show task.root = associationSession id from congrArg TaskView.root htask] at hjob
        rwa [← hjobs]

end Association

section Model

variable {message value : Json}

theorem replies_chain (v : View) (session : String) (d : Option String) (ids : List Json) (t : TaskView) :
    Chain (Move R) ⟨v.setTask session (some t), some (session, .firm ids), d⟩ []
      ⟨v.setTask session (some (ids.foldl (fun t id => t.with (answerCall id)) t)), some (session, .firm []), d⟩ := by
  induction ids generalizing t with
  | nil => exact .refl _
  | cons id rest ih =>
    have hmove : Move R ⟨v.setTask session (some t), some (session, .firm (id :: rest)), d⟩ []
        ⟨v.setTask session (some (t.with (answerCall id))), some (session, .firm rest), d⟩ := by
      have h := Move.reply (R := R) (v := v.setTask session (some t)) (d := d) id rest (update_self ..)
      simpa only [setTask, update_idem] using h
    exact .cons hmove (ih _)

theorem pushResults_view (error : String) (calls : List Json) (task : Task) :
    (calls.foldl (fun (task : Task) call => task.push (.result (call.index "call_id") "pluribus.rlm-control/1"
      (.object [("error", .string error)]) (.string error))) task).view =
      (calls.map fun call => call.index "call_id").foldl (fun t id => t.with (answerCall id)) task.view := by
  induction calls generalizing task with
  | nil => rfl
  | cons call rest ih =>
    rw [foldl_cons, ih, Task.view_push_result]
    rfl

theorem corrected_chain (calls : List Json) (error cause : String) (ht : e.tasks.find session = some task) :
    Chain (Move R) ⟨e.view, some (session, .firm (calls.map fun call => call.index "call_id")), none⟩ []
      ⟨view { e with tasks := e.tasks.insert session (corrected calls error cause task) },
        some (session, .loose), none⟩ := by
  rw [view_insertTask, corrected]
  split
  · next hcalls =>
    obtain rfl := isEmpty_iff.mp hcalls
    rw [Task.view_push_user]
    exact .cons (Move.say (view_task ht)) (.one Move.ease)
  · rw [pushResults_view]
    have h := replies_chain (R := R) e.view session none (calls.map fun call => call.index "call_id") task.view
    rw [← view_task ht, setTask, update_eq_self] at h
    exact h.trans (.one Move.ease)

theorem correctControl_leads (calls : List Json) {error : String} (hs : e.scheduling = false)
    (ht : e.tasks.find session = some task) :
    Leads R e.mode before ⟨e.view, some (session, .firm (calls.map fun call => call.index "call_id")), none⟩
      (e.correctControl config session calls error cause) := by
  have ht' : (e.tasks.insert session (corrected calls error cause task)).find session =
      some (corrected calls error cause task) := by rw [Map.find_insert, if_pos rfl]
  unfold correctControl
  rw [ht, expect_some_bind]
  refine .chain (corrected_chain calls error cause ht) ?_
  refine .ite (fun _ => .ite (fun _ => finish_leads ht' (by simp) _) fun hroot => ?_) fun _ => ?_
  · refine stalled_leads ht' (fun h => ?_) (by simp)
    simp only [Bool.or_eq_true, not_or, Bool.not_eq_true, isSome_eq_false_iff, isNone_iff_eq_none] at hroot
    exact absurd hroot.2 h
  · exact request_leads ht' (.inl rfl) (unscheduled hs)

theorem hear_move (ht : e.tasks.find session = some task) (hhear : R.hear message) :
    Move R ⟨e.view, some (session, .firm []), none⟩ []
      ⟨view { e with tasks := e.tasks.insert session (task.push (.said message)) },
        some (session, .firm ((toolCalls message).map fun call => call.index "call_id")), none⟩ := by
  rw [view_insertTask, Task.view_push]
  exact .hear message (view_task ht) hhear

theorem settable_of_assign {key : String} {target new : Json} (h : target.assign key new = some value) :
    settable target = true ∧ settable value = true := by
  cases target <;> simp only [Json.assign, some.injEq, reduceCtorEq] at h <;> subst h <;> exact ⟨rfl, rfl⟩

theorem not_settable_of_assign {key : String} {target new : Json} (h : target.assign key new = none) :
    settable target = false := by
  cases target <;> simp only [Json.assign, reduceCtorEq] at h <;> rfl

/-- What the settling of an earlier observation leaves as it was. -/
structure Kept (e e' : Engine) : Prop where
  mode : e'.mode = e.mode
  queue : e'.view.queue = e.view.queue
  jobs : e'.view.jobs = e.view.jobs
  tasks : ∀ k t', e'.view.tasks k = some t' → ∃ t, e.view.tasks k = some t ∧ t.root = t'.root ∧ t.parent = t'.parent

theorem Kept.rooted {e' : Engine} (h : Kept e e') (hrooted : e.view.rooted) : e'.view.rooted := by
  intro j job t hjob ht
  obtain ⟨t₀, ht₀, -, hparent⟩ := h.tasks j t ht
  rw [← hparent]
  exact hrooted j job t₀ (h.jobs ▸ hjob) ht₀

theorem Kept.tidy {e' : Engine} (h : Kept e e') (htidy : e.view.tidy j) : e'.view.tidy j := by
  intro s hs t ht hroot
  obtain ⟨t₀, ht₀, hroot₀, -⟩ := h.tasks s t ht
  exact htidy s (h.queue ▸ hs) t₀ ht₀ (hroot₀.trans hroot)

theorem resolvePrior_cases (hand : Option (String × Grip)) {reference : String} {prior : Observation} (hprior : e.inbox.find reference = some prior)
    (hsettled : prior.status = .waitingInput)
    (hopen : ∀ job, e.jobs.find j = some job → job.status.ended = false ∨ j = o)
    (hresolve : ∀ task, e.tasks.find j = some task → R.resolve task.view) :
    (∃ panic, e.resolvePrior o reference j = .error panic ∧ Fault ⟨e.view, hand, some o⟩) ∨
    (∃ e', e.resolvePrior o reference j = .ok e' ∧ Kept e e' ∧
      Chain (Move R) ⟨e.view, hand, some o⟩ [] ⟨e'.view, hand, some o⟩) := by
  unfold resolvePrior
  rw [hprior, expect_some_bind]
  cases hsource : e.inbox.find o with
  | none => exact .inl ⟨_, rfl, .lost (view_no_inbox hsource)⟩
  | some source =>
    rw [expect_some_bind]
    generalize hassign : source.value.assign "resolvedClarification" _ = assigned
    cases assigned with
    | none => exact .inl ⟨_, rfl, .rigid (view_inbox hsource) (not_settable_of_assign hassign)⟩
    | some value =>
      obtain ⟨hset, hset'⟩ := settable_of_assign hassign
      have hvalue : ({ source with value := value } : Observation).view = source.view := by
        simp only [Observation.view, hset, hset']
      have horiginal : ∃ original, (e.inbox.insert o { source with value := value }).find reference = some original ∧
          original.view = prior.view := by
        rw [Map.find_insert]
        by_cases h : o = reference
        · have hsame : source = prior := some.inj (by rw [← hsource, h, hprior])
          exact ⟨_, if_pos h, hsame ▸ hvalue⟩
        · exact ⟨prior, (if_neg h).trans hprior, rfl⟩
      obtain ⟨original, horiginal, hview⟩ := horiginal
      rw [expect_some_bind]
      dsimp only
      rw [horiginal, expect_some_bind]
      generalize hinbox : (e.inbox.insert o { source with value := value }).insert reference _ = inbox
      have hsame : inbox.through Observation.view = e.inbox.through Observation.view := by
        have hprior' : ({ original with status := .incorporated, job := some j, outstandingQuestion := none } :
            Observation).view = prior.view := by
          simp only [Observation.view, hsettled, ObservationView.mk.injEq] at hview ⊢
          exact ⟨rfl, hview.2⟩
        rw [← hinbox, Map.through_insert, Map.through_insert, hvalue, hprior', ← Map.through_eq_some hsource,
          update_eq_self, ← Map.through_eq_some hprior, update_eq_self]
      have hview : view { e with inbox := inbox } = e.view := by simp only [view, hsame]
      cases hjob : e.jobs.find j with
      | none =>
        refine .inr ⟨_, rfl, ⟨rfl, rfl, rfl, fun k t ht => ⟨t, ht, rfl, rfl⟩⟩, ?_⟩
        rw [hview]
        exact .refl _
      | some job =>
        cases htask : e.tasks.find j with
        | none =>
          refine .inl ⟨_, rfl, ?_⟩
          rcases hopen job hjob with hopen | rfl
          · exact .noRoot (view_job hjob) (.inl hopen) (view_no_task htask)
          · exact .taken (by simp [view_job hjob])
        | some task =>
          have hview : view { e with
              inbox := inbox
              jobs := e.jobs.insert j { job with sources := job.sources ++ [reference] }
              tasks := e.tasks.insert j (task.push (.note "Resolved earlier request: " (prior.value.index "message"))) } =
              e.view.setTask j (some (task.view.with plainNote)) := by
            rw [view, hsame, Map.through_insert, Map.through_insert, Task.view_push_note]
            rw [show ({ job with sources := job.sources ++ [reference] } : Job).view = job.view from rfl,
              ← Map.through_eq_some hjob, update_eq_self]
            rfl
          refine .inr ⟨_, rfl, ⟨rfl, rfl, ?_, ?_⟩, ?_⟩ <;> rw [hview]
          · rfl
          · intro k t ht
            by_cases hk : k = j
            · subst hk
              rw [setTask_tasks, update_self] at ht
              cases ht
              exact ⟨_, view_task htask, rfl, rfl⟩
            · rw [setTask_tasks, update_of_ne hk] at ht
              exact ⟨t, ht, rfl, rfl⟩
          · exact .one (Move.remind (view_task htask) (hresolve task htask))

theorem settle_leads {decision : Json} (hs : e.scheduling = false) (hrooted : e.view.rooted)
    (htarget : ∀ action, Action.ofJson (decision.index "action") = some action → action.targets = true →
      (R.tidy → e.view.tidy (((decision.index "jobId").asStr).getD "")) ∧
      ∀ job, e.jobs.find (((decision.index "jobId").asStr).getD "") = some job → job.status.ended = false) :
    Leads R e.mode before ⟨e.view, hand, some o⟩ (e.settle config o decision cause) := by
  unfold settle
  split
  · exact (createJob_seats hs).left
  · next haction =>
    refine .left (associate_keeps hs hrooted (htarget _ haction rfl).1 fun _ job _ _ hjob hended => ?_)
    rw [(htarget _ haction rfl).2 job hjob] at hended
    cases hended
  · next haction =>
    cases hsource : e.inbox.find o with
    | none => exact .error (.lost (view_no_inbox hsource))
    | some source =>
      rw [expect_some_bind]
      cases hassign : source.value.assign "intent" (.string "cancel") with
      | none => exact .error (.rigid (view_inbox hsource) (not_settable_of_assign hassign))
      | some value =>
        obtain ⟨hset, hset'⟩ := settable_of_assign hassign
        rw [expect_some_bind]
        have hview : view { e with inbox := e.inbox.insert o { source with value := value } } = e.view := by
          rw [view, Map.through_insert,
            show ({ source with value := value } : Observation).view = source.view by simp only [Observation.view, hset, hset'],
            ← Map.through_eq_some hsource, update_eq_self]
          rfl
        generalize he : ({ e with inbox := e.inbox.insert o { source with value := value } } : Engine) = e' at *
        have hmode : e'.mode = e.mode := by subst he; rfl
        rw [← hview, ← hmode]
        refine .left (associate_keeps (by subst he; exact hs) (hview ▸ hrooted) (hview ▸ (htarget _ haction rfl).1)
          fun _ job _ _ hjob hended => ?_)
        rw [(htarget _ haction rfl).2 job (by subst he; exact hjob)] at hended
        cases hended
  · cases hsource : e.inbox.find o with
    | none => exact .error (.lost (view_no_inbox hsource))
    | some source =>
      rw [expect_some_bind]
      have hmove : Move R ⟨e.view, hand, some o⟩ [] ⟨view { e with inbox := e.inbox.insert o { source with
          status := .waitingInput
          outstandingQuestion := (decision.index "question").asStr } }, hand, none⟩ := by
        have h := Move.shelve (R := R) (h := hand) (view_inbox hsource)
        convert h using 2
        simp only [view, setInbox, Map.through_insert]
        rfl
      refine .silent hmove ?_
      split
      · next request hrequest =>
        refine close (fun draft hdraft => ?_) rfl rfl
        rw [mem_singleton.mp hdraft]
        exact speaks_reply hrequest
      · exact rest rfl rfl (nil_sublist _)

section Decision

variable {source : Observation} {calls : List Json} {decision : Json}

theorem validDecision_prior {reference : String} (h : e.validDecision source calls decision = true)
    (href : (decision.index "resolvesObservationId").asStr = some reference) :
    ∃ prior, e.inbox.find reference = some prior ∧ prior.status = .waitingInput := by
  unfold validDecision at h
  simp only [Bool.and_eq_true] at h
  obtain ⟨⟨-, h⟩, -⟩ := h
  unfold Json.index at href
  cases hget : decision.get "resolvesObservationId" with
  | none =>
    rw [hget] at href
    cases href
  | some value =>
    rw [hget, getD_some] at href
    simp only [hget, href, bind_some] at h
    split at h
    · next prior hprior =>
      simp only [Bool.and_eq_true, decide_eq_true_eq] at h
      exact ⟨prior, hprior, h.1.1.1⟩
    · cases h

theorem validDecision_target {action : Action} (h : e.validDecision source calls decision = true)
    (haction : Action.ofJson (decision.index "action") = some action) (htargets : action.targets = true) :
    ∃ j job, (decision.index "jobId").asStr = some j ∧ e.jobs.find j = some job ∧ job.status.ended = false := by
  unfold validDecision at h
  simp only [Bool.and_eq_true, haction] at h
  obtain ⟨-, h⟩ := h
  cases action <;> cases htargets <;> simp only at h <;> split at h <;> try cases h
  all_goals
    next j hj =>
    split at h
    · next job hjob =>
      simp only [Bool.and_eq_true, automaticallyRoutable, Bool.not_eq_true', Bool.or_eq_false_iff] at h
      exact ⟨j, job, hj, hjob, h.1.1⟩
    · cases h

theorem validDecision_action (h : e.validDecision source calls decision = true) :
    ∃ action, Action.ofJson (decision.index "action") = some action ∧
      (action.targets = false → (decision.index "jobId").asStr = none) := by
  unfold validDecision at h
  simp only [Bool.and_eq_true] at h
  obtain ⟨⟨⟨-, h⟩, -⟩, -⟩ := h
  unfold validateAssociation at h
  split at h
  · split at h
    · cases h
    · dsimp only at h
      split at h
      · cases h
      · cases haction : Action.ofJson (Json.index "action" (.object _)) with
        | none => simp [haction] at h
        | some action =>
          refine ⟨action, rfl, fun htargets => ?_⟩
          rw [haction] at h
          cases action <;> cases htargets <;> simp only [Bool.and_eq_true, decide_eq_true_eq] at h
          · rw [h.2]
            rfl
          · rw [h.1.2]
            rfl
  · cases h

end Decision

theorem decide_kept (e : Engine) (session : String) :
    Kept e { e with tasks := e.tasks.erase session, budgets := e.budgets.erase session } := by
  refine ⟨rfl, rfl, rfl, fun k t ht => ?_⟩
  simp only [view, Map.through_erase, update_apply] at ht
  split at ht
  · cases ht
  · exact ⟨t, ht, rfl, rfl⟩

/-- What is taken for granted of the decision about an observation. -/
structure Decides (R : Rules) (e : Engine) (session o : String) (decision : Json) : Prop where
  tidy : R.tidy → ∀ j, (decision.index "jobId").asStr = some j → e.view.tidy j
  resolve : ∀ reference, (decision.index "resolvesObservationId").asStr = some reference →
    ∀ j t, j = (decision.index "jobId").asStr.getD o → j ≠ session → e.tasks.find j = some t → R.resolve t.view

theorem conclude_leads {source : Observation} {calls : List Json} {decision : Json} {e₀ : Engine}
    (hs : e.scheduling = false) (hrooted : e.view.rooted) (hvalid : e₀.validDecision source calls decision = true)
    (hinbox : e.inbox = e₀.inbox) (hjobs : e.jobs = e₀.jobs)
    (hgone : e.tasks.find session = none) (hdecides : Decides R e session o decision) :
    Leads R e.mode before ⟨e.view, hand, some o⟩ (e.conclude config o decision cause) := by
  obtain ⟨htidy, hresolve⟩ := hdecides
  obtain ⟨action, haction, hnone⟩ := validDecision_action hvalid
  -- a job the decision names is not over
  have htarget : ∀ {e' : Engine}, Kept e e' → ∀ a, Action.ofJson (decision.index "action") = some a → a.targets = true →
      (R.tidy → e'.view.tidy (((decision.index "jobId").asStr).getD "")) ∧
      ∀ job, e'.jobs.find (((decision.index "jobId").asStr).getD "") = some job → job.status.ended = false := by
    intro e' hkept a ha htargets
    obtain ⟨j, job₀, hj, hjob₀, hopen⟩ := validDecision_target hvalid ha htargets
    rw [hj, getD_some]
    refine ⟨fun h => hkept.tidy (htidy h j hj), fun job hjob => ?_⟩
    have hview := view_job hjob
    rw [hkept.jobs, view_job (hjobs ▸ hjob₀), some.injEq] at hview
    have hstatus : job₀.view.status = job.view.status := by rw [hview]
    exact (congrArg JobStatus.ended hstatus).symm.trans hopen
  unfold conclude
  split
  · next reference href =>
    obtain ⟨prior, hprior, hwaiting⟩ := validDecision_prior hvalid href
    have hopen : ∀ job, e.jobs.find ((decision.index "jobId").asStr.getD o) = some job →
        job.status.ended = false ∨ (decision.index "jobId").asStr.getD o = o := by
      intro job hjob
      cases htargets : action.targets with
      | true =>
        obtain ⟨j, job₀, hj, hjob₀, hopen⟩ := validDecision_target hvalid haction htargets
        rw [hj, getD_some, hjobs, hjob₀] at hjob
        cases hjob
        exact .inl hopen
      | false => exact .inr (by rw [hnone htargets, getD_none])
    rcases resolvePrior_cases (R := R) hand (hinbox ▸ hprior) hwaiting hopen fun t ht => hresolve reference href _ t rfl
      (fun h => by rw [h, hgone] at ht; cases ht) ht with ⟨panic, h, hfault⟩ | ⟨e', h, hkept, hchain⟩
    · rw [h]
      exact .error hfault
    · rw [h, ok_bind, ← hkept.mode]
      exact .chain hchain (settle_leads ((congrArg Prod.fst hkept.mode).trans hs) (hkept.rooted hrooted) (htarget hkept))
  · exact settle_leads hs hrooted (htarget ⟨rfl, rfl, rfl, fun k t ht => ⟨t, ht, rfl, rfl⟩⟩)

theorem judge_leads (hs : e.scheduling = false) (hrooted : e.view.rooted) (ht : e.tasks.find session = some task)
    (ho : task.association = some o) (hdecides : Decides R e session o (decisionOf message)) :
    Leads R e.mode before
      ⟨e.view, some (session, .firm ((toolCalls message).map fun call => call.index "call_id")), none⟩
      (e.judge config session o message cause) := by
  unfold judge
  cases hsource : e.inbox.find o with
  | none => exact .error (.noObservation (view_task ht) ho (view_no_inbox hsource))
  | some source =>
    refine .ite (fun _ => correctControl_leads _ hs ht) fun hvalid => ?_
    have hvalid : e.validDecision source (toolCalls message) (decisionOf message) = true := by simpa using hvalid
    have hmove : Move R ⟨e.view, some (session, .firm ((toolCalls message).map fun call => call.index "call_id")), none⟩ []
        ⟨view { e with tasks := e.tasks.erase session, budgets := e.budgets.erase session }, none, some o⟩ := by
      have h : Move R ⟨e.view, some (session, .firm ((toolCalls message).map fun call => call.index "call_id")), none⟩ [] _ :=
        .decide (view_task ht) ho
      convert h using 2
      simp only [view, setTask, setBudget, Map.through_erase, Map.find_erase_update]
    have hkept := decide_kept e session
    refine .silent hmove (conclude_leads hs (hkept.rooted hrooted) hvalid rfl rfl
      (by rw [Map.find_erase, if_pos rfl])
      ⟨fun h j hj => hkept.tidy (hdecides.tidy h j hj), fun reference href j t hj hne ht => ?_⟩)
    rw [Map.find_erase, if_neg hne] at ht
    exact hdecides.resolve reference href j t hj hne ht

theorem decided_leads (hs : e.scheduling = false) (hrooted : e.view.rooted) (ht : e.tasks.find session = some task)
    (ho : task.association = some o) (hhear : R.hear message) (hdecides : Decides R e session o (decisionOf message)) :
    Leads R e.mode before ⟨e.view, some (session, .firm []), none⟩ (e.decided config session o message cause) := by
  have hkept : Kept e { e with tasks := e.tasks.insert session (task.push (.said message)) } := by
    refine ⟨rfl, rfl, rfl, fun k t hk => ?_⟩
    rw [view_insertTask, Task.view_push, setTask_tasks, update_apply] at hk
    split at hk
    · next heq =>
      cases hk
      exact ⟨task.view, heq ▸ view_task ht, rfl, rfl⟩
    · exact ⟨t, hk, rfl, rfl⟩
  have ht' : (e.tasks.insert session (task.push (.said message))).find session = some (task.push (.said message)) := by
    rw [Map.find_insert, if_pos rfl]
  unfold decided
  rw [ht, expect_some_bind]
  refine .silent (hear_move ht hhear) (judge_leads hs (hkept.rooted hrooted) ht' ho
    ⟨fun h j hj => hkept.tidy (hdecides.tidy h j hj), fun reference href j t hj hne ht => ?_⟩)
  rw [Map.find_insert, if_neg (Ne.symm hne)] at ht
  exact hdecides.resolve reference href j t hj hne ht

theorem satAdd_future {now delay : Int} (h : 0 < delay) : now < satAdd now delay ∨ 9223372036854775807 ≤ now := by
  unfold satAdd
  omega

theorem modelFailed_leads (ht : e.tasks.find session = some task)
    (hstrict : R.strict → ∀ job, e.jobs.find task.root = some job → job.status.ended = false) :
    Leads R e.mode before ⟨e.view, some (session, .firm []), none⟩ (e.modelFailed session value cause) := by
  unfold modelFailed
  rw [ht, bind_some]
  cases hjob : e.jobs.find task.root with
  | none => exact finish_leads ht (by simp) _
  | some job =>
    refine .ite (fun _ => ?_) fun _ => .ite (fun hretry => ?_) fun _ => finish_leads ht (by simp) _
    · refine .silent (.mark .waitingInput (view_task ht) (.inl rfl) (view_job hjob) (fun h => hstrict h job hjob) rfl rfl)
        (rest ?_ rfl (nil_sublist _))
      rw [view_insertJob]
      rfl
    · dsimp only
      have hfuture : e.nowMs < satAdd e.nowMs (Int.ofNat (60000 * (1 <<< job.retryCount))) ∨
          9223372036854775807 ≤ e.nowMs :=
        satAdd_future (Int.ofNat_lt.mpr (Nat.mul_pos (by decide) (by rw [Nat.shiftLeft_eq, Nat.one_mul]; exact Nat.two_pow_pos _)))
      generalize satAdd e.nowMs (Int.ofNat (60000 * (1 <<< job.retryCount))) = due at *
      have hview : view { e with jobs := e.jobs.insert task.root { job with retryCount := job.retryCount + 1 } } =
          e.view := view_sameJob _ hjob rfl
      generalize he : ({ e with jobs := e.jobs.insert task.root { job with retryCount := job.retryCount + 1 } } : Engine) =
        e₁ at *
      have hmode : e₁.mode = e.mode := by subst he; rfl
      have ht₁ : e₁.tasks.find session = some task := by subst he; exact ht
      have hroot : task.view.parent = none := by simpa [Task.view] using hretry.2
      have hfuture : e₁.nowMs < due ∨ 9223372036854775807 ≤ e₁.nowMs := by subst he; exact hfuture
      rw [← hview, ← hmode]
      rcases sleep_cases cause due ht₁ with ⟨hnone, -⟩ | ⟨job', hjob', hnone, h⟩ |
        ⟨job', root, e', timers, hjob', hr, h, hview', hmode', htimers⟩
      · subst he
        rw [Map.find_insert, if_pos rfl] at hnone
        cases hnone
      · rw [h]
        exact .error (.orphan (view_task ht₁) hroot (view_job hjob') (view_no_task hnone))
      · rw [h, ok_bind]
        refine speak htimers (.silent (.park due (view_task ht₁) hroot (view_job hjob') (view_task hr) hfuture) ?_)
        have hfind : e'.view.jobs task.root = some (job'.view.wait .waitingTime (some due)) := by
          rw [hview']
          exact update_self ..
        obtain ⟨job'', hjob'', -⟩ := Map.of_through hfind
        rw [hjob'', expect_some_bind, ← hmode']
        exact rest ((view_sameJob { job'' with waitReason := some .providerError } hjob'' rfl).trans hview').symm rfl
          (sublist_append_right _ _)

theorem completeCompaction_leads (hs : e.scheduling = false) (ht : e.tasks.find session = some task) :
    Leads R e.mode before ⟨e.view, some (session, .firm []), none⟩ (e.completeCompaction config session message cause) := by
  unfold completeCompaction
  rw [ht, expect_some_bind]
  dsimp only
  split
  · next summary _ =>
    have hmove : Move R ⟨e.view, some (session, .firm []), none⟩ [] ⟨view { e with
        tasks := e.tasks.insert session (summarized summary { task with compactionProvenanceError := none }) },
        some (session, .firm []), none⟩ := by
      rw [view_insertTask]
      exact .clear (view_task ht) (by simp) (by simp)
    exact .silent hmove (.silent .ease (request_leads (Map.find_insert_self ..) (.inl rfl) (unscheduled hs)))
  · refine .ite (fun _ => ?_) fun _ => ?_
    · exact via (view_sameTask _ ht (by rfl)) rfl (finish_leads (Map.find_insert_self ..) (by simp) _)
    · exact .silent .ease (via (view_sameTask _ ht (by rfl)) rfl
        (request_leads (Map.find_insert_self ..) (.inl rfl) (unscheduled hs)))

theorem validateControl_child (h : validateControl value true = .ok ()) :
    ∃ text, (value.index "result").asStr = some text := by
  unfold validateControl at h
  split at h
  · rw [if_pos rfl] at h
    split at h
    · next hchild =>
      simp only [Bool.and_eq_true, isString] at hchild
      exact isSome_iff_exists.mp hchild.2
    · cases h
  · cases h

theorem validateControl_wait (h : validateControl value false = .ok ()) (hwait : value.index "action" = .string "wait")
    (hinput : value.index "waitFor" ≠ .string "input") : ∃ due, (value.index "dueAtMs").asI64 = some due := by
  unfold validateControl at h
  split at h
  · next fields =>
    rw [if_neg Bool.false_ne_true] at h
    split at h
    · cases h
    next hfields =>
    have hfields : ∀ field ∈ fields, validControlField field.1 field.2 = true := by simpa using hfields
    dsimp only at h
    split at h
    · cases h
    split at h
    · next hvalid =>
      have hfind : ∀ key, Table.contains key fields = true → ∃ field, Json.index key (.object fields) = field ∧
          validControlField key field = true := by
        intro key hkey
        obtain ⟨field, hfield⟩ := isSome_iff_exists.mp hkey
        obtain ⟨row, hrow, rfl⟩ := map_eq_some_iff.mp hfield
        have hmem := mem_of_find?_eq_some hrow
        have hname : row.1 = key := by simpa using find?_some hrow
        refine ⟨row.2, by rw [Json.index, Json.get, hfield, getD_some], hname ▸ hfields row hmem⟩
      have hno : Table.contains "waitFor" fields = false := by
        by_contra hcontains
        obtain ⟨field, hfield, hok⟩ := hfind "waitFor" (by simpa using hcontains)
        exact hinput (by simpa [validControlField, hfield] using hok)
      rw [hwait, hno] at hvalid
      obtain ⟨field, hfield, hok⟩ := hfind "dueAtMs" (by simpa using hvalid)
      rw [hfield]
      exact isSome_iff_exists.mp hok
    · cases h
  · cases h

theorem yielded_leads {call : Json} (hs : e.scheduling = false) (ht : e.tasks.find session = some task)
    (hassociation : task.association = none)
    (hstrict : R.strict → ∀ job, e.jobs.find session = some job → job.status.ended = false) :
    Leads R e.mode before ⟨e.view, some (session, .firm [call.index "call_id"]), none⟩
      (e.yielded config session task call cause) := by
  unfold yielded
  dsimp only
  split
  · exact correctControl_leads [call] hs ht
  · next hvalid =>
    refine .ite (fun _ => correctControl_leads [call] hs ht) fun hdue => .ite (fun hchild => ?_) fun hroot => ?_
    · obtain ⟨result, hresult⟩ := validateControl_child (hchild ▸ hvalid)
      rw [hresult, expect_some_bind]
      exact via (view_sameTask _ ht (by rfl)) rfl (finish_leads (Map.find_insert_self ..) (by simp) _)
    · have hroot : task.parent = none := by simpa using hroot
      have hmove : Move R ⟨e.view, some (session, .firm [call.index "call_id"]), none⟩ [] ⟨view { e with
          tasks := e.tasks.insert session (Task.push { task with controlErrors := 0 } (.result (call.index "call_id")
            "pluribus.rlm-control/1" (.object [("accepted", .bool true)]) .null)) },
          some (session, .firm []), none⟩ := by
        have hview := view_task ht
        rw [view_insertTask, Task.view_push_result]
        exact .reply _ [] hview
      refine .silent hmove (decision_leads (Map.find_insert_self ..) hroot hassociation hstrict fun hwait hinput => ?_)
      obtain ⟨due, hsome⟩ := validateControl_wait (by simpa [hroot] using hvalid) hwait hinput
      simpa [hroot, hsome] using hdue

theorem evaluate_leads {call : Json} (hs : e.scheduling = false) (ht : e.tasks.find session = some task) :
    Leads R e.mode before ⟨e.view, some (session, .firm [call.index "call_id"]), none⟩
      (e.evaluate config session task call cause) := by
  unfold evaluate
  split
  · next code _ =>
    refine .ite (fun _ => .ite (fun _ => correctControl_leads [call] hs ht) fun _ => ?_) fun _ =>
      correctControl_leads [call] hs ht
    have hspeaks : ∀ draft ∈ [evaluateRequested session code task cause], e.view.speaks draft := by
      intro draft hdraft
      rw [mem_singleton.mp hdraft]
      refine speaks_for (view_task ht) nofun fun job hnames => ?_
      simpa [Draft.names, evaluateRequested, Fields.index, Table.find, Task.view] using hnames
    exact speak hspeaks (.silent (.cell _)
      (rest (view_sameTask _ ht (by rfl)).symm rfl (sublist_append_right _ _)))
  · exact correctControl_leads [call] hs ht

theorem modelCompleted_leads (hs : e.scheduling = false) (ht : e.tasks.find session = some task)
    (hassociation : task.association = none) (hhear : R.hear message)
    (hstrict : R.strict → ∀ job, e.jobs.find session = some job → job.status.ended = false) :
    Leads R e.mode before ⟨e.view, some (session, .firm []), none⟩
      (e.modelCompleted config session task message cause) := by
  have hmove := hear_move (R := R) ht hhear
  unfold modelCompleted
  split
  · next hcalls =>
    rw [hcalls] at hmove
    exact .silent hmove (correctControl_leads [] hs (Map.find_insert_self ..))
  · next call hcalls =>
    rw [hcalls] at hmove
    refine .silent hmove (.ite (fun _ => ?_) fun _ => ?_)
    · exact yielded_leads hs (Map.find_insert_self ..) hassociation hstrict
    · exact evaluate_leads hs (Map.find_insert_self ..)
  · exact .silent hmove (correctControl_leads _ hs (Map.find_insert_self ..))

structure Answers (R : Rules) (e : Engine) (value : Json) (session : String) (task : Task) : Prop where
  hear : R.hear (value.index "message")
  decides : ∀ o, task.association = some o → Decides R e session o (decisionOf (value.index "message"))

theorem modelAnswered_leads {failed : Bool} (hs : e.scheduling = false) (hrooted : e.view.rooted)
    (hstrict : R.strict → e.view.lively)
    (hanswers : ∀ session task, e.calls.find (answeredCall value) = some session → e.tasks.find session = some task →
      Answers R e value session task) :
    Leads R e.mode before ⟨e.view, hand, none⟩ (e.modelAnswered config failed value cause) := by
  unfold modelAnswered
  dsimp only
  cases hcall : e.calls.find (answeredCall value) with
  | none => exact rest rfl rfl (nil_sublist _)
  | some session =>
    dsimp only
    have hview : view { e with calls := e.calls.erase (answeredCall value) } =
        e.view.setCall (answeredCall value) none := by
      simp only [view, setCall, Map.find_erase_update]
    have hmove : Move R ⟨e.view, hand, none⟩ [] ⟨view { e with calls := e.calls.erase (answeredCall value) },
        some (session, .firm []), none⟩ := by
      rw [hview]
      exact .answer hcall
    cases htask : e.tasks.find session with
    | none =>
      refine .silent hmove (.ite (fun _ => ?_) fun _ => rest rfl rfl (nil_sublist _))
      unfold finish
      rw [htask]
      exact rest rfl rfl (nil_sublist _)
    | some task =>
      obtain ⟨hhear, hdecides⟩ := hanswers session task hcall htask
      dsimp only
      have hopen : R.strict → ∀ job, e.jobs.find task.root = some job ∨ e.jobs.find session = some job →
          job.status.ended = false := by
        intro h job hjob
        exact hstrict h session task.view job.view (view_task htask) (hjob.imp view_job view_job)
      split
      · next o ho =>
        refine .silent hmove (.ite (fun _ => ?_) fun _ => ?_)
        · exact finish_leads (e := { e with calls := e.calls.erase (answeredCall value) }) htask (by simp) _
        · exact decided_leads hs hrooted htask ho hhear ⟨(hdecides o ho).tidy, (hdecides o ho).resolve⟩
      · next hnone =>
        refine .ite (fun _ => ?_) fun _ => .silent hmove (.ite (fun _ => ?_) fun _ => .ite (fun _ => ?_) fun _ => ?_)
        · refine .silent (.discard hcall (view_task htask) rfl) (rest ?_ rfl (nil_sublist _))
          rw [← hview, ← Task.view_push_note task "Discarded stale proposal: " value, ← view_insertTask]
          rfl
        · exact modelFailed_leads htask fun h job hjob => hopen h job (.inl hjob)
        · exact completeCompaction_leads hs htask
        · exact modelCompleted_leads hs htask hnone hhear fun h job hjob => hopen h job (.inr hjob)

end Model

end Engine

end Pluribus.Rlm
