import Pluribus.Rlm.Handlers

namespace Pluribus.Rlm

open Lib List Engine Leads Option

namespace Engine

variable {R : Rules} {config : Config} {e : Engine} {before : List Draft} {session cause id : String} {task : Task}
  {kind : Kind} {value : Json} {hand : Option (String × Grip)}

/-- Tasks that differ only in what a cell leaves behind. -/
def Alike (task task' : Task) : Prop := task'.view = task.view ∧ task'.toolId = task.toolId

theorem dropSession_alike (value : Json) (task : Task) : Alike task (dropSession value task) := by
  unfold dropSession
  dsimp only
  split <;> exact ⟨rfl, rfl⟩

theorem adoptSummary_alike (checkpoint previous : Json) (isVerified : Bool) (task : Task) :
    Alike task (adoptSummary checkpoint previous isVerified task) := by
  unfold adoptSummary
  dsimp only
  split
  · split
    · exact ⟨rfl, rfl⟩
    · split <;> exact ⟨rfl, rfl⟩
  · exact ⟨rfl, rfl⟩

theorem saveCheckpoint_alike (kind : Kind) (value : Json) (task : Task) :
    Alike task (saveCheckpoint kind value task).1 := by
  unfold saveCheckpoint
  generalize unsavedSuccess kind value task = unsaved
  have hcleared : Alike task (if unsaved then task.setContext "checkpoint" .null else task) := by
    split <;> exact ⟨rfl, rfl⟩
  split
  · exact hcleared
  · obtain ⟨hview, htool⟩ := adoptSummary_alike _ _ _ _
    exact ⟨hview.trans hcleared.1, htool.trans hcleared.2⟩

theorem cellTask_alike (config : Config) (kind : Kind) (value : Json) (task : Task) :
    Alike task (countCell config kind value (saveCheckpoint kind value (dropSession value task)).1) := by
  have hsaved := saveCheckpoint_alike kind value (dropSession value task)
  have hdropped := dropSession_alike value task
  exact ⟨hsaved.1.trans hdropped.1, hsaved.2.trans hdropped.2⟩

theorem keepCheckpoint_view (e : Engine) (root : String) (checkpoint : Option Json) :
    (e.keepCheckpoint root checkpoint).view = e.view := by
  cases checkpoint with
  | some checkpoint => exact view_modifyJob e root fun _ => rfl
  | none => rfl

theorem keepCheckpoint_same (e : Engine) (root : String) (checkpoint : Option Json) :
    (e.keepCheckpoint root checkpoint).tasks = e.tasks ∧ (e.keepCheckpoint root checkpoint).mode = e.mode := by
  cases checkpoint <;> exact ⟨rfl, rfl⟩

theorem cellResult_leads {task' : Task} (hs : e.scheduling = false) (ht : e.tasks.find session = some task)
    (halike : Alike task task') (hstray : task.association ≠ none → R.stray) :
    Leads R e.mode before ⟨e.view, some (session, .firm [.string task.toolId]), none⟩
      (e.cellResult config session task' kind value cause) := by
  unfold cellResult
  generalize hsaved : saveCheckpoint kind value (dropSession value task') = saved
  obtain ⟨hview, htool⟩ : Alike task (countCell config kind value saved.1) := by
    have h := cellTask_alike config kind value task'
    rw [hsaved] at h
    exact ⟨h.1.trans halike.1, h.2.trans halike.2⟩
  dsimp only
  generalize countCell config kind value saved.1 = cell at hview htool ⊢
  have hkept := keepCheckpoint_same e cell.root saved.2
  refine via (keepCheckpoint_view e cell.root saved.2) hkept.2 ?_
  rw [← hkept.1] at ht
  have hs' : (e.keepCheckpoint cell.root saved.2).scheduling = false := (congrArg Prod.fst hkept.2).trans hs
  generalize e.keepCheckpoint cell.root saved.2 = e at ht hs' ⊢
  refine .ite (fun _ => ?_) fun _ => ?_
  · refine via (view_sameTask cell ht hview) rfl ?_
    refine stalled_leads (e := { e with tasks := e.tasks.insert session cell }) (Map.find_insert_self _ _ _) ?_ (by simp)
    rwa [show cell.association = task.association from congrArg TaskView.association hview]
  · refine .silent (?_ : Move R _ [] ⟨_, some (session, .firm []), none⟩) (.silent .ease
      (request_leads (e := { e with tasks := e.tasks.insert session (showResult kind value cause cell) })
        (Map.find_insert_self _ _ _) (.inl rfl) (unscheduled hs')))
    rw [← htool, view_insertTask]
    unfold showResult
    rw [Task.view_push_result]
    rw [show (cell.setContext "trigger" _).view = task.view from hview]
    exact .reply (.string cell.toolId) [] (view_task ht)

def accepts (e : Engine) (kind : Kind) (value : Json) (task : Task) : Bool :=
  !(e.staleResult task value || task.cellRevision ≠ task.revision) &&
    !(isResourceFailure kind value && !(value.getStr "requestEventId").any fun request =>
      task.codeRequestId = some request || task.codeEventId = some request)

def Reports (R : Rules) (e : Engine) (kind : Kind) (value : Json) : Prop :=
  ∀ session task, session = (value.getStr "sessionId").getD "" → e.tasks.find session = some task →
    e.accepts kind value task → R.report e.view session task.toolId ∧ (task.association ≠ none → R.stray)

theorem codeFinished_leads (hs : e.scheduling = false) (hreports : Reports R e kind value) :
    Leads R e.mode before ⟨e.view, hand, none⟩ (e.codeFinished config kind value cause) := by
  unfold codeFinished
  dsimp only
  generalize hsession : (value.getStr "sessionId").getD "" = session
  cases ht : e.tasks.find session with
  | none => exact rest rfl rfl (nil_sublist _)
  | some task =>
    refine .ite (fun _ => rest rfl rfl (nil_sublist _)) fun hstale => ?_
    refine .ite (fun _ => rest rfl rfl (nil_sublist _)) fun hresource => ?_
    have haccepts : e.accepts kind value task = true := by
      rw [accepts, Bool.and_eq_true, Bool.not_eq_true', Bool.not_eq_true']
      exact ⟨Bool.not_eq_true _ ▸ hstale, Bool.not_eq_true _ ▸ hresource⟩
    obtain ⟨hreport, hstray⟩ := hreports session task hsession.symm ht haccepts
    have hlive : e.view.tasks session ≠ none := by simp [view_task ht]
    refine .silent (.report task.toolId hlive hreport) (.ite (fun _ => .ite (fun _ => ?_) fun _ => ?_) fun _ => ?_)
    · refine via (view_sameTask (lostCell value { task with codeRequestId := none, codeEventId := none }) ht rfl)
        rfl ?_
      generalize lostCell value { task with codeRequestId := none, codeEventId := none } = task'
      exact resourceBudgetExhausted_leads (e := { e with tasks := e.tasks.insert session task' })
        (Map.find_insert_self _ _ _) (by simp)
    · exact cellResult_leads hs ht ⟨rfl, rfl⟩ hstray
    · exact cellResult_leads hs ht ⟨rfl, rfl⟩ hstray

theorem speaks_resume (v : View) (session : String) (id : Json) (result : Except String Json) (cause : String) :
    ∀ draft ∈ [resume session id result cause], v.speaks draft := by
  intro draft hdraft
  rw [mem_singleton] at hdraft
  subst hdraft
  exact speaks_quiet rfl

theorem startChild_cases {args : Json} (child root origin : String) (parent : String × Json) (depth : Nat)
    (h : filled (args.index "question") = true) :
    ∃ task, e.startChild child root origin args parent depth = .ok { e with tasks := e.tasks.insert child task } ∧
      task.view = .opened root (some parent.1) depth none := by
  have hobject : args.index "question" ≠ .null := by
    intro hnull
    simp [hnull, filled, Json.asStr] at h
  obtain ⟨fields, rfl⟩ := Json.object_of_index "question" hobject
  exact ⟨_, rfl, rfl⟩

def Yields (R : Rules) (e : Engine) (value : Json) : Prop :=
  ∀ session task, session = (value.getStr "sessionId").getD "" → e.tasks.find session = some task →
    task.cellRevision = task.revision → (value.index "method").asStr = some "rlm.query" →
    R.spawn e.view session (session ++ ":" ++ (value.index "id").text)

theorem query_leads (hs : e.scheduling = false) (ht : e.tasks.find session = some task)
    (hspawn : R.spawn e.view session (session ++ ":" ++ (value.index "id").text)) :
    Leads R e.mode before ⟨e.view, hand, none⟩ (e.query config session task value cause) := by
  have hrefuse : ∀ error, Leads R e.mode before ⟨e.view, hand, none⟩
      (.ok (e, [resume session (value.index "id") (.error error) cause])) := fun error =>
    close (speaks_resume _ _ _ _ _) rfl rfl
  unfold query
  dsimp only
  refine .ite (fun _ => hrefuse _) fun hquestion => .ite (fun _ => hrefuse _) fun _ => .ite (fun _ => hrefuse _) fun _ =>
    .ite (fun _ => hrefuse _) fun _ => ?_
  obtain ⟨child, hchild, hview⟩ := startChild_cases (e := e) (session ++ ":" ++ (value.index "id").text) task.root
    task.origin (session, value.index "id") (task.depth + 1) (by simpa using hquestion)
  rw [hchild, ok_bind]
  generalize hname : session ++ ":" ++ (value.index "id").text = name at hspawn hchild ⊢
  have hmove : Move R ⟨e.view, hand, none⟩ []
      ⟨view { e with tasks := e.tasks.insert name child }, some (name, .loose), none⟩ := by
    subst hname
    rw [view_insertTask, hview]
    exact .spawn _ (view_task ht) hspawn
  exact .silent hmove (request_leads (e := { e with tasks := e.tasks.insert name child }) (Map.find_insert_self _ _ _)
    (.inl rfl) (unscheduled hs))

theorem invoke_leads (ht : e.tasks.find session = some task) :
    Leads R e.mode before ⟨e.view, hand, none⟩ (.ok (e.invoke session task value cause)) := by
  refine close ?_ (view_sameTask _ ht (by rfl)).symm rfl
  intro draft hdraft
  rw [mem_singleton] at hdraft
  subst hdraft
  refine speaks_for (view_task ht) nofun fun job hnames => ?_
  simpa [Draft.names, Fields.index, Table.find, Task.view] using hnames

theorem codeYielded_leads (hs : e.scheduling = false) (hyields : Yields R e value) :
    Leads R e.mode before ⟨e.view, hand, none⟩ (e.codeYielded config value cause) := by
  unfold codeYielded
  dsimp only
  generalize hsession : (value.getStr "sessionId").getD "" = session
  cases ht : e.tasks.find session with
  | none => exact rest rfl rfl (nil_sublist _)
  | some task =>
    refine .ite (fun _ => rest rfl rfl (nil_sublist _)) fun hrevision => ?_
    have hsame := view_sameTask { task with yields := task.yields + 1 } ht rfl
    have hspawn := hyields session task hsession.symm ht (not_not.mp hrevision)
    rw [← hsame] at hspawn
    refine via hsame rfl (.ite (fun _ => close (speaks_resume _ _ _ _ _) rfl rfl) fun _ => ?_)
    have htask : (e.tasks.insert session { task with yields := task.yields + 1 }).find session =
      some { task with yields := task.yields + 1 } := Map.find_insert_self _ _ _
    split
    · next hquery => exact query_leads hs htask (hspawn hquery)
    · exact rest rfl rfl (nil_sublist _)
    · exact rest rfl rfl (nil_sublist _)
    · refine .ite (fun _ => invoke_leads htask) fun _ => close (speaks_resume _ _ _ _ _) rfl rfl

theorem view_markJob (e : Engine) (j : String) {f : Job → Job} (status : JobStatus)
    (hf : ∀ job, (f job).view = job.view.wait status job.view.due) :
    view { e with jobs := e.jobs.modify j f } =
      e.view.setJob j ((e.view.jobs j).map fun job => job.wait status job.due) := by
  have h := e.jobs.through_modify (f := Job.view) (g := f) (fun job => job.wait status job.due) j hf
  simp only [view, View.setJob, h]

theorem mark_chain {f : Job → Job} {d : Option String} (status : JobStatus) (ht : e.tasks.find session = some task)
    (hstrict : R.strict → ∀ job, e.jobs.find task.root = some job → job.status.ended = false)
    (hopen : status.ended = false) (hawake : status.suspended = false)
    (hf : ∀ job, (f job).view = job.view.wait status job.view.due) :
    Chain (Move R) ⟨e.view, hand, d⟩ []
      ⟨view { e with jobs := e.jobs.modify task.root f }, hand, d⟩ := by
  rw [view_markJob e task.root status hf]
  cases hjob : e.jobs.find task.root with
  | none =>
    have hnone := view_no_job hjob
    rw [hnone, map_none, View.setJob, ← hnone, Function.update_eq_self]
    exact .refl _
  | some job =>
    rw [view_job hjob, map_some]
    exact .one (.mark status (view_task ht) (.inl rfl) (view_job hjob) (fun h => hstrict h job hjob) hopen hawake)

theorem View.lively.root (h : R.strict → e.view.lively) (ht : e.tasks.find session = some task) :
    R.strict → ∀ job, e.jobs.find task.root = some job → job.status.ended = false :=
  fun hstrict job hjob => h hstrict session task.view job.view (view_task ht) (.inl (view_job hjob))

theorem mark_leads {f : Job → Job} {drafts : List Draft} (task' : Task) (status : JobStatus)
    (ht : e.tasks.find session = some task) (hsame : task'.view = task.view) (hstrict : R.strict → e.view.lively)
    (hopen : status.ended = false) (hawake : status.suspended = false)
    (hf : ∀ job, (f job).view = job.view.wait status job.view.due)
    (hdrafts : ∀ v : View, ∀ draft ∈ drafts, v.speaks draft) :
    Leads R e.mode before ⟨e.view, hand, none⟩
      (.ok ({ e with tasks := e.tasks.insert session task', jobs := e.jobs.modify task.root f }, drafts)) := by
  have hview : view { e with tasks := e.tasks.insert session task', jobs := e.jobs.modify task.root f } =
      view { e with jobs := e.jobs.modify task.root f } :=
    view_sameTask (e := { e with jobs := e.jobs.modify task.root f }) task' ht hsame
  refine .chain (mark_chain status ht (View.lively.root hstrict ht) hopen hawake hf) ?_
  exact close (hdrafts _) hview.symm rfl

theorem capabilityAnswered_leads {origin : Option String} (hstrict : R.strict → e.view.lively) :
    Leads R e.mode before ⟨e.view, hand, none⟩ (e.capabilityAnswered kind value origin id) := by
  unfold capabilityAnswered
  dsimp only
  split
  · exact rest rfl rfl (nil_sublist _)
  · next session task hfind =>
    have ht : e.tasks.find session = some task := e.tasks.find_eq_some.mpr (mem_of_find?_eq_some hfind)
    refine .ite (fun _ => ?_) fun _ => ?_
    · refine mark_leads { task with pending := none } .waitingInput ht rfl hstrict rfl rfl (fun _ => rfl) ?_
      intro v draft hdraft
      rw [mem_singleton.mp hdraft]
      exact speaks_quiet rfl
    · exact mark_leads { task with pending := none } .runnable ht rfl hstrict rfl rfl (fun _ => rfl)
        fun v => speaks_resume v _ _ _ _

theorem capabilityRequested_leads (hstrict : R.strict → e.view.lively) :
    Leads R e.mode before ⟨e.view, hand, none⟩ (.ok (e.capabilityRequested value id, [])) := by
  unfold capabilityRequested
  split
  · exact rest rfl rfl (nil_sublist _)
  · next session task hfind =>
    obtain ⟨_, -, hfound⟩ := bind_eq_some_iff.mp hfind
    obtain ⟨_, ht, heq⟩ := map_eq_some_iff.mp hfound
    cases heq
    split
    · exact rest rfl rfl (nil_sublist _)
    · next pending _ =>
      exact mark_leads { task with pending := some (pending.set "request" (.string id)) } .waitingActivity ht rfl
        hstrict rfl rfl (fun _ => rfl) (by simp)

theorem timerSet_view (e : Engine) (value : Json) (id : String) : (e.timerSet value id).view = e.view := by
  unfold timerSet
  split
  · rfl
  · refine view_modifyJob e _ fun job => ?_
    cases hwake : job.wake with
    | none => simp [Job.view, hwake]
    | some wake =>
      simp only [Job.view, hwake, map_some]
      split <;> rfl

theorem timerSet_mode (e : Engine) (value : Json) (id : String) : (e.timerSet value id).mode = e.mode := by
  unfold timerSet
  split <;> rfl

theorem wakes_due {request : String} {job : Job} (h : e.wakes request job = true) :
    ∃ due, job.view.due = some due ∧ due ≤ e.nowMs := by
  unfold wakes at h
  split at h
  · next wake hwake =>
    simp only [Bool.and_eq_true, decide_eq_true_eq] at h
    exact ⟨wake.dueAtMs, by simp [Job.view, hwake], h.2⟩
  · exact absurd h (by simp)

def resets (e : Engine) (value : Json) (j : String) : Prop :=
  ∃ job, e.jobs.rows.find? (fun row => e.wakes ((value.getStr "requestEventId").getD "") row.2) = some (j, job) ∧
    job.status.suspended = true ∧
    (1800000 ≤ satSub e.nowMs job.cycleStartedMs ∨ 32 ≤ (e.budgets.find j).getD 0)

theorem wake_leads {j : String} {job : Job} {due : Int} (hs : e.scheduling = false) (ht : e.tasks.find j = some task)
    (hparent : task.parent = none) (hjob : e.jobs.find j = some job) (hdue : job.view.due = some due)
    (hnow : due ≤ e.nowMs)
    (hrenew : job.status.suspended = true →
      1800000 ≤ satSub e.nowMs job.cycleStartedMs ∨ 32 ≤ (e.budgets.find j).getD 0 → R.renew j) :
    Leads R e.mode before ⟨e.view, hand, none⟩
      (if !job.status.suspended then .ok ({ e with jobs := e.jobs.insert j { job with wake := none } }, [])
      else (e.renew j { job with wake := none, status := .runnable, waitReason := none }).request config j id) := by
  have hlive : e.view.tasks j ≠ none := by simp [view_task ht]
  refine .ite (fun hawake => ?_) fun hsuspended => ?_
  · replace hawake : job.status.suspended = false := by simpa using hawake
    refine .silent (.unwake (view_job hjob) hdue hnow hlive hawake) (rest ?_ rfl (nil_sublist _))
    rw [view_insertJob]
    rfl
  · replace hsuspended : job.status.suspended = true := by simpa using hsuspended
    unfold renew
    by_cases hreset : 1800000 ≤ satSub e.nowMs job.cycleStartedMs ∨ 32 ≤ (e.budgets.find j).getD 0
    · rw [if_pos hreset]
      refine .silent (.renew (view_job hjob) hdue hnow hlive hsuspended (hrenew hsuspended hreset)) ?_
      generalize hE : ({ e with
        jobs := e.jobs.insert j { job with cycleStartedMs := e.nowMs, wake := none, status := .runnable, waitReason := none }
        budgets := e.budgets.insert j 0 } : Engine) = e'
      have hview : e'.view = (e.view.setJob j (some ⟨.runnable, e.nowMs, none⟩)).setBudget j (some 0) := by
        subst hE
        simp only [view, View.setJob, View.setBudget, Map.through_insert, Map.find_insert_update]
        rfl
      obtain ⟨ht', hs', hmode⟩ : e'.tasks.find j = some task ∧ e'.scheduling = false ∧ e'.mode = e.mode := by
        subst hE
        exact ⟨ht, hs, rfl⟩
      rw [← hmode]
      exact hview ▸ request_leads ht' (.inr ⟨rfl, hs', hparent⟩) (unscheduled hs')
    · rw [if_neg hreset]
      refine .silent (.rouse (view_job hjob) hdue hnow hlive hsuspended) ?_
      generalize hE : ({ e with
        jobs := e.jobs.insert j { job with wake := none, status := .runnable, waitReason := none } } : Engine) = e'
      have hview : e'.view = e.view.setJob j (some (job.view.wait .runnable none)) := by
        subst hE
        rw [view_insertJob]
        rfl
      obtain ⟨ht', hs', hmode⟩ : e'.tasks.find j = some task ∧ e'.scheduling = false ∧ e'.mode = e.mode := by
        subst hE
        exact ⟨ht, hs, rfl⟩
      rw [← hmode]
      exact hview ▸ request_leads ht' (.inr ⟨rfl, hs', hparent⟩) (unscheduled hs')

theorem timerFired_leads (hs : e.scheduling = false) (hrooted : e.view.rooted)
    (hrenew : ∀ j, e.resets value j → R.renew j) :
    Leads R e.mode before ⟨e.view, hand, none⟩ (e.timerFired config value id) := by
  unfold timerFired
  dsimp only
  split
  · exact rest rfl rfl (nil_sublist _)
  · next j job hfind =>
    have hjob : e.jobs.find j = some job := e.jobs.find_eq_some.mpr (mem_of_find?_eq_some hfind)
    have hwakes : e.wakes ((value.getStr "requestEventId").getD "") job = true := by simpa using find?_some hfind
    obtain ⟨due, hdue, hnow⟩ := wakes_due hwakes
    cases ht : e.tasks.find j with
    | none => exact .error (.noRoot (view_job hjob) (.inr (by simp [hdue])) (view_no_task ht))
    | some task =>
      have hparent : task.parent = none := by
        have h := hrooted j job.view task.view (view_job hjob) (view_task ht)
        simpa [Task.view] using h
      rw [expect_some_bind]
      generalize htrigger : task.setContext "trigger" _ = task'
      have hsame : task'.view = task.view ∧ task'.parent = none := by
        subst htrigger
        exact ⟨rfl, hparent⟩
      refine via (view_sameTask task' ht hsame.1) rfl ?_
      exact wake_leads (e := { e with tasks := e.tasks.insert j task' }) hs (Map.find_insert_self _ _ _) hsame.2 hjob
        hdue hnow fun hsuspended hreset => hrenew j ⟨job, hfind, hsuspended, hreset⟩

theorem speaks_lostDrafts (v : View) (e : Engine) (root : String) (cancelled : List String) :
    ∀ draft ∈ e.lostDrafts session root cancelled cause, v.speaks draft := by
  intro draft hdraft
  rcases mem_append.mp hdraft with h | h
  · split at h
    · obtain ⟨_, -, rfl⟩ := mem_map.mp h
      exact speaks_quiet rfl
    · exact absurd h (by simp)
  · rw [mem_singleton.mp h]
    exact speaks_quiet rfl

theorem restart_leads {grip : Grip} {drafts : List Draft} (hs : e.scheduling = false)
    (ht : e.tasks.find session = some task) (hgrip : grip = .loose ∨ grip = .soft ∧ task.parent = none)
    (hstrict : R.strict → ∀ job, e.jobs.find task.root = some job → job.status.ended = false)
    (hdrafts : ∀ v : View, ∀ draft ∈ drafts, v.speaks draft) :
    Leads R e.mode before ⟨e.view, some (session, grip), none⟩
      (e.restart config session task.root value drafts cause) := by
  refine .chain (mark_chain (f := restarted value) .runnable ht hstrict rfl rfl fun _ => rfl) ?_
  refine speak (hdrafts _) (.after (sublist_append_right _ _) ?_)
  exact request_leads (e := { e with jobs := _ }) ht (hgrip.imp_right fun h => ⟨h.1, hs, h.2⟩) (unscheduled hs)

theorem view_lost (e : Engine) (session : String) (task : Task) :
    view { e with tasks := e.tasks.insert session task, calls := e.calls.retain fun _ id => id ≠ session } =
      (e.view.setTask session (some task.view)).dropCalls session := by
  simp only [view, View.setTask, View.dropCalls, Map.through_insert]
  congr 1
  funext call
  rw [Map.find_retain]

def concerns (value : Json) (task : Task) : Bool := !(value.index "revision").asU64.any (· ≠ task.revision)

theorem recoverSession_leads (hs : e.scheduling = false) (hstrict : R.strict → e.view.lively)
    (hlose : ∀ task, e.tasks.find session = some task → concerns value task → R.lose e.view session) :
    Leads R e.mode before ⟨e.view, hand, none⟩ (e.recoverSession config session value cause) := by
  unfold recoverSession
  cases ht : e.tasks.find session with
  | none => exact rest rfl rfl (nil_sublist _)
  | some task =>
    refine .ite (fun _ => rest rfl rfl (nil_sublist _)) fun hconcerns => ?_
    have hroot := View.lively.root hstrict ht
    have hmove : Move R ⟨e.view, hand, none⟩ []
        ⟨view { e with
          tasks := e.tasks.insert session (recovered value cause task)
          calls := e.calls.retain fun _ id => id ≠ session }, some (session, .loose), none⟩ := by
      rw [view_lost]
      exact .lose (view_task ht) (hlose task ht (by simpa [concerns] using hconcerns))
    refine .silent hmove (.ite (fun _ => ?_) fun _ => ?_)
    · exact resourceBudgetExhausted_leads (e := { e with tasks := _, calls := _ }) (Map.find_insert_self _ _ _) (by simp)
    · exact restart_leads (e := { e with tasks := _, calls := _ }) hs (Map.find_insert_self _ _ _) (.inl rfl) hroot
        fun v => speaks_lostDrafts v _ _ _

theorem recoverSession_fresh {grip : Grip} (hs : e.scheduling = false) (ht : e.tasks.find session = some task)
    (hparent : task.parent = none) (hfresh : task.resourceFailures = 0) (hgrip : grip = .soft ∨ grip = .loose)
    (hstrict : R.strict → ∀ job, e.jobs.find task.root = some job → job.status.ended = false) :
    Leads R e.mode before ⟨e.view, some (session, grip), none⟩ (e.recoverSession config session value cause) := by
  unfold recoverSession
  rw [ht]
  refine .ite (fun _ => rest rfl rfl (nil_sublist _)) fun _ => ?_
  have hclear : Move R ⟨e.view, some (session, grip), none⟩ []
      ⟨e.view.setTask session (some (recovered value cause task).view), some (session, grip), none⟩ := by
    refine .clear (view_task ht) ?_ ?_ <;> rcases hgrip with rfl | rfl <;> simp
  have hhush : Move R ⟨e.view.setTask session (some (recovered value cause task).view), some (session, grip), none⟩ []
      ⟨view { e with
        tasks := e.tasks.insert session (recovered value cause task)
        calls := e.calls.retain fun _ id => id ≠ session }, some (session, grip), none⟩ := by
    rw [view_lost]
    exact .hush hgrip
  have hfailures : (recovered value cause task).resourceFailures = 1 := by
    simp [recovered, lost, hfresh, Task.setContext]
  refine .silent hclear (.silent hhush ?_)
  rw [if_neg (by rw [hfailures]; omega)]
  exact restart_leads (e := { e with tasks := _, calls := _ }) hs (Map.find_insert_self _ _ _)
    (hgrip.symm.imp_right fun h => ⟨h, hparent⟩) hstrict fun v => speaks_lostDrafts v _ _ _

def observed (value : Json) : Option String :=
  if value.index "sessionId" = .null ∧ value.index "jobId" = .null ∧
      (value.index "input").index "eventType" = .string "observation.received" then
    (value.index "input").getStr "eventId"
  else none

def reported (e : Engine) (value : Json) : Option String :=
  let payload := (value.index "input").index "payload"
  if value.index "sessionId" = .null ∧ value.index "jobId" = .null then
    if (value.index "input").index "eventType" = .string "observation.received" then none
    else ((payload.getStr "call_id").or (payload.getStr "callId")).bind e.calls.find
  else namedSession value

/-- What is taken for granted of a report about an observation: its sessions are new. -/
structure Reopens (R : Rules) (e : Engine) (id : String) (value : Json) : Prop where
  admits : Admits R e id value
  fresh : e.tasks.find id = none
  unrouted : e.tasks.find (associationSession id) = none
  strict : R.strict → ∀ session, session = id ∨ session = associationSession id →
    ∀ job, e.jobs.find session = some job → job.status.ended = false

/-- What is taken for granted of a report that a session's resources ran out. -/
structure Recovers (R : Rules) (e : Engine) (value : Json) : Prop where
  lose : ∀ session task, e.reported value = some session → e.tasks.find session = some task → concerns value task →
    R.lose e.view session
  reopens : ∀ id, observed value = some id → e.inbox.find id = none →
    Reopens R e id ((value.index "input").index "payload")

theorem recoverAssigned_leads (hs : e.scheduling = false) (hstrict : R.strict → e.view.lively)
    (hobject : ∃ fields, value = .object fields)
    (hlose : ∀ task, e.tasks.find session = some task → concerns value task → R.lose e.view session) :
    Leads R e.mode before ⟨e.view, hand, none⟩ (do
      let value ← expect .assign (value.assign "sessionId" (.string session))
      e.recoverSession config session value cause) := by
  obtain ⟨fields, rfl⟩ := hobject
  cases hassign : Json.assign "sessionId" (.object fields) (.string session) with
  | none => simp [Json.assign] at hassign
  | some assigned =>
    refine recoverSession_leads hs hstrict fun task ht hconcerns => hlose task ht ?_
    rwa [concerns, Json.index_assign hassign (by decide)] at hconcerns

theorem associationSession_ne (o : String) : o ≠ associationSession o := by
  intro h
  have hlength := congrArg String.length h
  rw [associationSession, String.length_append] at hlength
  have hlead : "associate:".length = 10 := by decide
  omega

theorem recoverSeated_leads {e' : Engine} {payload : Json} {desk : Desk} (hmode : e'.mode = e.mode)
    (hs : e'.scheduling = false) (hobject : ∃ fields, value = .object fields) (hreopens : Reopens R e id payload)
    (hrests : Rests e.mode e' desk)
    (hseats : e.Seats id e' desk ∨ e.Seats (associationSession id) e' desk ∨
      ∀ k, e.tasks.find k = none → e'.tasks.find k = none) :
    Leads R e.mode before desk (do
      let session := if e'.tasks.contains id then id else associationSession id
      let value ← expect .assign (value.assign "sessionId" (.string session))
      e'.recoverSession config session value cause) := by
  obtain ⟨v, hand, deciding⟩ := desk
  obtain ⟨rfl, rfl, -⟩ : v = e'.view ∧ deciding = none ∧ _ := hrests
  obtain ⟨-, hfresh, hunrouted, hstrict⟩ := hreopens
  -- the session chosen is the one that was opened, if any was
  have hopened : ∀ session, session = id ∨ session = associationSession id → e.Seats session e' ⟨e'.view, hand, none⟩ →
      ∀ value, Leads R e.mode before ⟨e'.view, hand, none⟩ (e'.recoverSession config session value cause) := by
    rintro session hsession ⟨-, task, grip, ht, hparent, hfailures, hgrip, hhand, hjob⟩ value
    obtain rfl : hand = some (session, grip) := hhand
    rw [← hmode]
    refine recoverSession_fresh hs ht hparent hfailures hgrip fun h job hfind => ?_
    by_contra hended
    exact hended (hstrict h session hsession job (hjob job hfind (by simpa using hended)))
  obtain ⟨fields, rfl⟩ := hobject
  dsimp only
  cases hassign : Json.assign "sessionId" (.object fields)
      (.string (if e'.tasks.contains id = true then id else associationSession id)) with
  | none => simp [Json.assign] at hassign
  | some assigned =>
    rw [expect_some_bind]
    rcases hseats with hseat | hseat | hnone
    · have hcontains : e'.tasks.contains id = true := by
        obtain ⟨-, task, grip, ht, -⟩ := hseat
        exact Map.contains_iff.mpr ⟨task, ht⟩
      rw [if_pos hcontains]
      exact hopened id (.inl rfl) hseat assigned
    · have hgone : e'.tasks.contains id = false := by
        rw [Map.contains, hseat.1 id (associationSession_ne id), hfresh]
        rfl
      rw [hgone, if_neg (by simp)]
      exact hopened _ (.inr rfl) hseat assigned
    · have hgone : e'.tasks.contains id = false := by simp [Map.contains, hnone id hfresh]
      rw [hgone, if_neg (by simp), recoverSession, hnone _ hunrouted]
      exact rest rfl hmode (nil_sublist _)

theorem recoverResourceJob_leads (hs : e.scheduling = false) (hrooted : e.view.rooted)
    (hstrict : R.strict → e.view.lively) (hrecovers : Recovers R e value) :
    Leads R e.mode before ⟨e.view, hand, none⟩ (e.recoverResourceJob config cause value) := by
  obtain ⟨hlose, hreopens⟩ := hrecovers
  unfold recoverResourceJob
  by_cases hnamed : value.index "sessionId" = .null ∧ value.index "jobId" = .null
  · rw [if_pos hnamed]
    refine .ite (fun hevent => ?_) fun hevent => ?_
    · have hobject : ∃ fields, value = .object fields := by
        refine Json.object_of_index "input" fun hnull => ?_
        rw [hnull] at hevent
        exact absurd hevent (by simp [Json.index, Json.get])
      split
      · exact rest rfl rfl (nil_sublist _)
      · next original horiginal =>
        refine .ite (fun _ => rest rfl rfl (nil_sublist _)) fun hnew => ?_
        have hopens := hreopens original (by rw [observed, if_pos ⟨hnamed.1, hnamed.2, hevent⟩, horiginal])
          (by simpa [Map.contains] using hnew)
        refine .bind (observationReceived_seats hs hrooted hopens.admits) fun e' out desk hseats => ?_
        have hs' : e'.scheduling = false := (congrArg Prod.fst hseats.1.2.2).trans hs
        exact recoverSeated_leads hseats.1.2.2 hs' hobject hopens hseats.1 hseats.2
    · have hreported : e.reported value = ((((value.index "input").index "payload").getStr "call_id").or
          (((value.index "input").index "payload").getStr "callId")).bind e.calls.find := by
        rw [reported, if_pos hnamed, if_neg hevent]
      split
      · exact rest rfl rfl (nil_sublist _)
      · next session hsession =>
        have hobject : ∃ fields, value = .object fields := by
          refine Json.object_of_index "input" fun hnull => ?_
          rw [hnull] at hsession
          simp [Json.index, Json.get, Json.getStr] at hsession
        exact recoverAssigned_leads hs hstrict hobject fun task ht => hlose session task (hreported.trans hsession) ht
  · rw [if_neg hnamed]
    split
    · exact rest rfl rfl (nil_sublist _)
    · next session hsession =>
      refine recoverSession_leads hs hstrict fun task ht => hlose session task ?_ ht
      rw [reported, if_neg hnamed, hsession]

end Engine

end Pluribus.Rlm
