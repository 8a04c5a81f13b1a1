import Pluribus.Rlm.Desk

namespace Pluribus.Rlm

open Lib List Option Function Engine View

variable {e : Engine}

section Views

variable {session job observation : String}

theorem Engine.view_task {task : Task} (h : e.tasks.find session = some task) :
    e.view.tasks session = some task.view := Map.through_eq_some h

theorem Engine.view_job {x : Job} (h : e.jobs.find job = some x) : e.view.jobs job = some x.view :=
  Map.through_eq_some h

theorem Engine.view_inbox {x : Observation} (h : e.inbox.find observation = some x) :
    e.view.inbox observation = some x.view := Map.through_eq_some h

theorem Engine.view_no_task (h : e.tasks.find session = none) : e.view.tasks session = none :=
  Map.through_eq_none.mpr h

theorem Engine.view_no_job (h : e.jobs.find job = none) : e.view.jobs job = none := Map.through_eq_none.mpr h

theorem Engine.view_no_inbox (h : e.inbox.find observation = none) : e.view.inbox observation = none :=
  Map.through_eq_none.mpr h

theorem Engine.of_view_job (P : JobView → Prop) (h : ∀ x, e.jobs.find job = some x → P x.view) :
    ∀ x, e.view.jobs job = some x → P x := by
  intro x hx
  obtain ⟨y, hy, rfl⟩ := Map.of_through hx
  exact h y hy

variable (e)

theorem Engine.view_insertTask (session : String) (task : Task) :
    { e with tasks := e.tasks.insert session task }.view = e.view.setTask session (some task.view) := by
  simp only [view, setTask, Map.through_insert]

theorem Engine.view_insertJob (job : String) (x : Job) :
    { e with jobs := e.jobs.insert job x }.view = e.view.setJob job (some x.view) := by
  simp only [view, setJob, Map.through_insert]

variable {e}

theorem Engine.view_sameTask {task : Task} (task' : Task) (h : e.tasks.find session = some task) (ht : task'.view = task.view) :
    { e with tasks := e.tasks.insert session task' }.view = e.view := by
  rw [view_insertTask, ht, ← view_task h, setTask, update_eq_self]

theorem Engine.view_sameJob {x : Job} (x' : Job) (h : e.jobs.find job = some x) (hx : x'.view = x.view) :
    { e with jobs := e.jobs.insert job x' }.view = e.view := by
  rw [view_insertJob, hx, ← view_job h, setJob, update_eq_self]

theorem Engine.view_modifyJob (e : Engine) (job : String) {f : Job → Job} (h : ∀ x, (f x).view = x.view) :
    { e with jobs := e.jobs.modify job f }.view = e.view := by
  simp only [view, Map.through_modify_same _ _ _ h]

theorem through_regroup (tasks : Map String Task) (root : String) (task : Task) :
    ((tasks.retain fun id t => t.root ≠ root || id = root).insert root task).through Task.view =
      Function.update (fun s => (tasks.through Task.view s).filter fun t => t.root ≠ root) root (some task.view) := by
  have hretain := tasks.through_retain Task.view (p := fun id t => t.root ≠ root || id = root)
    (fun id t => t.root ≠ root || id = root) fun _ _ => rfl
  rw [Map.through_insert, hretain]
  funext s
  by_cases hs : s = root <;> simp [hs]

theorem filter_contains (tasks : Map String Task) (queue : List String) :
    queue.filter tasks.contains = queue.filter fun s => (tasks.through Task.view s).isSome := by
  refine filter_congr fun s _ => ?_
  rw [Map.contains, Map.through, isSome_map]

end Views

section Tasks

variable (task : Task)

theorem Task.view_push (message : Message) :
    (task.push message).view = task.view.with fun pending => toolMessage pending message.toJson := by
  simp only [Task.view, Task.push, TaskView.with, History.calls_push]

theorem Task.view_push_user (text : String) : (task.push (.user text)).view = task.view.with plainNote := by
  rw [Task.view_push]
  simp only [toolMessage_user]

theorem Task.view_push_note (lead : String) (value : Json) :
    (task.push (.note lead value)).view = task.view.with plainNote := by
  rw [Task.view_push]
  simp only [toolMessage_note]

theorem Task.view_push_result (id : Json) (schema : String) (output error : Json) :
    (task.push (.result id schema output error)).view = task.view.with (answerCall id) := by
  rw [Task.view_push]
  simp only [toolMessage_result]

theorem Task.foldl_push {α : Type} (message : α → Message) (items : List α) :
    items.foldl (fun (task : Task) item => task.push (message item)) task =
      { task with messages := items.foldl (fun history item => history.push (message item)) task.messages } := by
  induction items generalizing task with
  | nil => rfl
  | cons item rest ih =>
    rw [foldl_cons, ih]
    rfl

theorem closeInterruptedTools_view (reason : String) : (closeInterruptedTools reason task).view = task.view.closed := by
  have htools := calls_closeInterruptedTools reason task
  unfold closeInterruptedTools at htools ⊢
  rw [Task.foldl_push] at htools ⊢
  simp only [Task.view, TaskView.closed]
  rw [htools]

end Tasks

variable {v : View}

section Speaking

variable {draft : Draft}

theorem speaks_quiet (h : draft.kind.demanding = false) : v.speaks draft := by
  refine ⟨?_, fun hd => ?_⟩
  · rintro hk
    rw [hk] at h
    cases h
  · rw [h] at hd
    cases hd

theorem speaks_for {session : String} {t : TaskView} (ht : v.tasks session = some t) (hkind : draft.kind ≠ .modelRequested)
    (hjob : ∀ job, draft.names job → t.root = job) : v.speaks draft :=
  ⟨hkind, fun _ job hnames => ⟨session, t, ht, hjob job hnames⟩⟩

end Speaking

variable {R : Rules}

section Rules

variable {mode : Mode} {before drafts out : List Draft} {hand : Option (String × Grip)}
  {deciding : Option String} {outcome : Outcome}

theorem Leads.speak (hspeaks : ∀ draft ∈ drafts, v.speaks draft)
    (h : Leads R mode (before ++ drafts) ⟨v, hand, deciding⟩ outcome) : Leads R mode before ⟨v, hand, deciding⟩ outcome :=
  .step (.speak drafts hspeaks) h

theorem Leads.rest (hview : v = e.view) (hmode : e.mode = mode) (hout : out.Sublist before) :
    Leads R mode before ⟨v, hand, none⟩ (.ok (e, out)) := .ok ⟨hview, rfl, hmode⟩ hout

theorem Leads.via {e' : Engine} (hview : e'.view = e.view) (hmode : e'.mode = e.mode)
    (h : Leads R e'.mode before ⟨e'.view, hand, deciding⟩ outcome) :
    Leads R e.mode before ⟨e.view, hand, deciding⟩ outcome := by
  rwa [← hview, ← hmode]

theorem Leads.close (hspeaks : ∀ draft ∈ out, v.speaks draft) (hview : v = e.view) (hmode : e.mode = mode) :
    Leads R mode before ⟨v, hand, none⟩ (.ok (e, out)) :=
  Leads.speak hspeaks (Leads.rest hview hmode (sublist_append_right _ _))

end Rules

namespace Engine

variable {before : List Draft} {task : Task} {grip : Grip}

section Ending

variable {session cause : String}

theorem speaks_reply {v : View} {observation text : Json} {request : Fields}
    (h : replyRequest observation text = some request) : v.speaks ⟨.capabilityRequested, request, cause⟩ := by
  refine ⟨nofun, fun _ job hnames => ?_⟩
  simp only [replyRequest, bind_eq_bind, bind_eq_some_iff, Option.pure_def, some.injEq] at h
  obtain ⟨provider, -, conversation, -, rfl⟩ := h
  simp [Draft.names, Fields.index, Table.find] at hnames

theorem speaks_replies (v : View) (task : Task) (value : Json) : ∀ draft ∈ replies task value, v.speaks draft := by
  intro draft hdraft
  unfold replies at hdraft
  split at hdraft
  · next request hrequest =>
    obtain ⟨reply, -, hreply⟩ := bind_eq_some_iff.mp hrequest
    rw [mem_singleton.mp hdraft]
    exact speaks_reply hreply
  · cases hdraft

theorem endRoot_leads {replies : List Draft} (ht : e.tasks.find session = some task) (hroot : task.parent = none)
    (hstray : task.association = none ∨ R.stray) (hgrip : grip ≠ .soft) (result : Except String Json)
    (hreplies : ∀ v : View, ∀ draft ∈ replies, v.speaks draft) :
    Leads R e.mode before ⟨e.view, some (session, grip), none⟩ (.ok (e.endRoot session result replies cause)) := by
  unfold endRoot
  simp only [ht]
  generalize isFailure result = failed
  refine .silent (.endRoot (if failed then .failed else .completed) (view_task ht) (by simp [Task.view, hroot]) hstray
    (by cases failed <;> rfl) hgrip) (Leads.close ?_ ?_ rfl)
  · intro draft hdraft
    simp only [cons_append, mem_cons, mem_append, not_mem_nil, or_false] at hdraft
    rcases hdraft with rfl | hdraft | rfl
    · exact speaks_quiet (by cases failed <;> rfl)
    · exact hreplies _ draft hdraft
    · exact speaks_quiet rfl
  · simp only [view, setBudget, setTask, setJob, Map.through_erase, Map.find_erase_update]
    rw [Map.through_modify _ Job.view (fun job => job.wait (if failed then .failed else .completed) none) session
      fun _ => rfl]
    rfl

theorem finish_leads (ht : e.tasks.find session = some task) (hgrip : grip ≠ .soft) (result : Except String String) :
    Leads R e.mode before ⟨e.view, some (session, grip), none⟩ (e.finish session result cause) := by
  have ht' := view_task ht
  unfold finish
  simp only [ht]
  cases hassociation : task.association with
  | some observation =>
    simp only
    cases hpending : e.inbox.find observation with
    | none => exact .error (.noObservation ht' hassociation (view_no_inbox hpending))
    | some pending =>
      refine .silent (.endAssociation ht' hassociation (view_inbox hpending) hgrip) (Leads.close ?_ ?_ rfl)
      · simpa using speaks_quiet rfl
      · simp only [view, setTask, setBudget, setInbox, Map.through_erase, Map.through_insert,
          Map.find_erase_update]
        rfl
  | none =>
    cases hparent : task.parent with
    | none => exact endRoot_leads ht hparent (.inl hassociation) hgrip _ (by simp)
    | some parent =>
      refine .silent (.endChild ht' (by simp [Task.view, hparent]) hassociation hgrip) (Leads.close ?_ ?_ rfl)
      · intro draft hdraft
        simp only [mem_cons, not_mem_nil, or_false] at hdraft
        rcases hdraft with rfl | rfl <;> exact speaks_quiet rfl
      · simp only [view, setTask, Map.through_erase]

theorem sleep_cases (cause : String) (due : Int) (ht : e.tasks.find session = some task) :
    (e.jobs.find task.root = none ∧ e.sleep session .waitingTime due cause = .ok (e, [])) ∨
    (∃ job, e.jobs.find task.root = some job ∧ e.tasks.find task.root = none ∧
      e.sleep session .waitingTime due cause = .error .unwrap) ∨
    (∃ job root e' drafts, e.jobs.find task.root = some job ∧ e.tasks.find task.root = some root ∧
      e.sleep session .waitingTime due cause = .ok (e', drafts) ∧
      e'.view = ((e.view.setJob task.root (some (job.view.wait .waitingTime (some due)))).regroup task.root
        root.view.closed).purge ∧
      e'.mode = e.mode ∧ ∀ draft ∈ drafts, e.view.speaks draft) := by
  unfold sleep
  simp only [ht, expect_some_bind]
  cases hjob : e.jobs.find task.root with
  | none => exact .inl ⟨rfl, rfl⟩
  | some job =>
    refine .inr ?_
    cases hroot : e.tasks.find task.root with
    | none => exact .inl ⟨job, rfl, rfl, rfl⟩
    | some root =>
      refine .inr ⟨job, root, _, _, rfl, rfl, rfl, ?_, rfl, ?_⟩
      · have hclosed := closeInterruptedTools_view root
        simp only [view, filter_contains, through_regroup]
        rw [Map.through_insert, ← hclosed]
        rfl
      · intro draft hdraft
        rcases mem_cons.mp hdraft with rfl | hdraft
        · refine speaks_for (view_task ht) nofun fun job hnames => ?_
          simpa [Draft.names, Fields.index, Table.find, Task.view] using hnames
        · obtain ⟨row, -, rfl⟩ := List.mem_map.mp hdraft
          exact speaks_quiet rfl

section

variable {value : Json} (ht : e.tasks.find session = some task)

include ht

theorem pause_leads (hroot : task.parent = none) (hquiet : e.view.quiet) :
    Leads R e.mode before ⟨e.view, some (session, .loose), none⟩
      (e.sleep session .pausedBudget (satAdd e.nowMs 60000) cause) := by
  unfold sleep
  simp only [ht, expect_some_bind, if_true]
  cases hjob : e.jobs.find task.root with
  | none => exact Leads.rest rfl rfl (nil_sublist _)
  | some job =>
    refine Leads.speak ?_ (.silent (.pause (view_task ht) (by simp [Task.view, hroot]) (view_job hjob) hquiet)
      (Leads.rest (by rw [view_insertJob]; rfl) rfl (sublist_append_right _ _)))
    intro draft hdraft
    rw [mem_singleton.mp hdraft]
    refine speaks_for (view_task ht) nofun fun job hnames => ?_
    simpa [Draft.names, Fields.index, Table.find, Task.view] using hnames

theorem finishRoot_leads (hroot : task.parent = none)
    (hstray : task.association = none ∨ R.stray) (hgrip : grip ≠ .soft) (result : Except String Json)
    (hwait : ∀ value, result = .ok value → value.index "action" ≠ .string "wait") :
    Leads R e.mode before ⟨e.view, some (session, grip), none⟩ (e.finishRoot session result cause) := by
  unfold finishRoot
  cases result with
  | error error => exact endRoot_leads ht hroot hstray hgrip _ (by simp)
  | ok value =>
    simp only [ht, expect_some_bind, if_neg (hwait value rfl)]
    rw [← view_modifyJob e session (f := noteDecision value (replyText value)) fun _ => rfl]
    exact endRoot_leads (e := { e with jobs := e.jobs.modify session _ }) ht hroot hstray hgrip _ fun v => speaks_replies v task value

theorem park_leads {due : Int} {drafts : List Draft} (hroot : task.parent = none)
    (hdue : e.nowMs < due ∨ 9223372036854775807 ≤ e.nowMs) (hdrafts : ∀ v : View, ∀ draft ∈ drafts, v.speaks draft) :
    Leads R e.mode before ⟨e.view, some (session, .firm []), none⟩
      ((e.sleep session .waitingTime due cause).before drafts) := by
  have ht' := view_task ht
  have hroot' : task.view.parent = none := by simp [Task.view, hroot]
  rcases sleep_cases cause due ht with ⟨-, h⟩ | ⟨job, hjob, hnone, h⟩ |
    ⟨job, root, e', timers, hjob, hr, h, hview, hmode, htimers⟩
  · rw [h]
    exact Leads.close (hdrafts _) rfl rfl
  · rw [h]
    exact .error (.orphan ht' hroot' (view_job hjob) (view_no_task hnone))
  · rw [h]
    refine Leads.speak htimers (.silent (.park due ht' hroot' (view_job hjob) (view_task hr) hdue) ?_)
    refine Leads.speak (hdrafts _) (Leads.rest hview.symm hmode ?_)
    rw [append_assoc]
    exact sublist_append_right _ _

theorem decision_leads (hroot : task.parent = none) (hassociation : task.association = none)
    (hstrict : R.strict → ∀ job, e.jobs.find session = some job → job.status.ended = false)
    (hdue : value.index "action" = .string "wait" → value.index "waitFor" ≠ .string "input" →
      ∃ due, (value.index "dueAtMs").asI64 = some due ∧ e.nowMs < due) :
    Leads R e.mode before ⟨e.view, some (session, .firm []), none⟩ (e.finishRoot session (.ok value) cause) := by
  by_cases hwait : value.index "action" = .string "wait"
  · have hview := view_modifyJob e session (f := noteDecision value (replyText value)) fun _ => rfl
    unfold finishRoot
    simp only [ht, expect_some_bind, if_pos hwait]
    by_cases hinput : value.index "waitFor" = .string "input"
    · rw [if_pos hinput, Map.find_modify, if_pos rfl]
      cases hjob : e.jobs.find session with
      | none => exact .error (.noJob (view_task ht) (by simp [Task.view, hroot]) hassociation (view_no_job hjob))
      | some job =>
        refine .silent (.mark .waitingInput (view_task ht) (.inr ⟨rfl, by simp [Task.view, hroot], hassociation⟩)
          (view_job hjob) (fun h => hstrict h job hjob) rfl rfl) (Leads.close (speaks_replies _ task value) ?_ rfl)
        rw [← hview, view_insertJob { e with jobs := e.jobs.modify session _ }]
        rfl
    · rw [if_neg hinput]
      obtain ⟨due, hdue, hnow⟩ := hdue hwait hinput
      rw [hdue, expect_some_bind, ← hview]
      exact park_leads (e := { e with jobs := e.jobs.modify session _ }) ht hroot (.inl hnow) fun v =>
        speaks_replies v task value
  · refine finishRoot_leads ht hroot (.inl hassociation) (by simp) (.ok value) fun _ hv => ?_
    cases hv
    exact hwait

theorem stalled_leads {reason : String} (hstray : task.association ≠ none → R.stray) (hgrip : grip ≠ .soft) :
    Leads R e.mode before ⟨e.view, some (session, grip), none⟩ (e.stalled session reason cause) := by
  unfold stalled
  simp only [ht, expect_some_bind]
  split
  · exact finish_leads ht hgrip _
  · next hparent =>
    refine finishRoot_leads ht (by simpa using hparent) (or_iff_not_imp_left.mpr hstray) hgrip _ fun value hv => ?_
    cases hv
    simp [Json.index, Json.get, Table.find]

theorem resourceBudgetExhausted_leads (hgrip : grip ≠ .soft) :
    Leads R e.mode before ⟨e.view, some (session, grip), none⟩ (e.resourceBudgetExhausted session cause) := by
  unfold resourceBudgetExhausted
  simp only [ht, expect_some_bind]
  split
  · exact finish_leads ht hgrip _
  · next hroot =>
    simp only [Bool.or_eq_true, not_or, Bool.not_eq_true, isSome_eq_false_iff, isNone_iff_eq_none] at hroot
    refine finishRoot_leads ht hroot.1 (.inl hroot.2) hgrip _ fun value hv => ?_
    cases hv
    simp [Json.index, Json.get, Table.find]

end

end Ending

section Requesting

variable {config : Config} {session cause call : String}

theorem route_cases (ht : e.tasks.find session = some task) :
    (∃ o, task.association = some o ∧ e.inbox.find o = none ∧ e.route session = .error .index) ∨
    (∃ context tasks, e.route session = .ok { e with tasks := tasks } ∧
      ∀ k, tasks.find k = if k = session then some { task with context := context } else e.tasks.find k) := by
  have hinsert : ∀ (task' : Task) k, (e.tasks.insert session task').find k =
      if k = session then some task' else e.tasks.find k := fun task' k => by
    rw [Map.find_insert]
    simp only [eq_comm]
  generalize hroute : e.route session = outcome
  unfold route at hroute
  simp only [ht, expect_some_bind] at hroute
  rcases eq_none_or_eq_some task.association with hassociation | ⟨o, hassociation⟩ <;>
    simp only [hassociation] at hroute
  · subst hroute
    refine .inr ⟨task.context, e.tasks, rfl, fun k => ?_⟩
    split
    · next h => exact h ▸ ht
    · rfl
  · rcases eq_none_or_eq_some (e.inbox.find o) with hinbox | ⟨source, hinbox⟩ <;>
      simp only [hinbox, expect_none_bind, expect_some_bind] at hroute <;> subst hroute
    · exact .inl ⟨o, hassociation, hinbox, rfl⟩
    · refine .inr ?_
      split
      · next hkind =>
        obtain ⟨fields, hfields⟩ := Json.object_of_index "kind" (by rw [hkind]; nofun)
        rw [hfields]
        exact ⟨_, _, rfl, hinsert _⟩
      · exact ⟨_, _, rfl, hinsert _⟩

theorem view_sameTasks {tasks : Map String Task} (task' : Task) (ht : e.tasks.find session = some task)
    (htask' : task'.view = task.view) (h : ∀ k, tasks.find k = if k = session then some task' else e.tasks.find k) :
    { e with tasks := tasks }.view = e.view := by
  have htasks : tasks.through Task.view = e.tasks.through Task.view := by
    funext k
    rw [Map.through, Map.through, h]
    by_cases hk : k = session
    · rw [if_pos hk, hk, ht, map_some, map_some, htask']
    · rw [if_neg hk]
  rw [view, htasks]
  rfl

theorem compose_cases (config : Config) (e : Engine) (task : Task) (job : Option Job) :
    ∃ context system turn, (e.compose config task job).1 =
        { task with
          context := context
          decisionRevision := task.revision
          messages := ⟨system, turn, task.messages.rest⟩ } ∧
      ∃ fields, Fields.index "turn" context = .object fields := by
  refine ⟨_, _, _, rfl, ?_⟩
  rw [Task.setContext, Fields.index_set, if_pos rfl]
  exact ⟨_, rfl⟩

theorem issue_leads {e' : Engine} {used : Nat} {request : Request} {origin : String} (ht : e.tasks.find session = some task)
    (hused : e.view.budgets task.root = some used) (hquiet : e.view.quiet) (hissue : R.issue)
    (hcall : request.callId = callId task.root (e.view.cycle task.root) used) (hjob : request.jobId = task.root)
    (hview : e'.view = e.view.setCall request.callId (some session)) (hmode : e'.mode = e.mode) :
    Leads R e.mode before ⟨e.view, some (session, .paid), none⟩
      (.ok (e', [⟨.modelRequested, request.payload, origin⟩])) := by
  refine .step (.issue ⟨.modelRequested, request.payload, origin⟩ (view_task ht) hused hquiet hissue rfl ?_ ?_)
    (Leads.rest ?_ hmode (sublist_append_right _ _))
  · simp [Request.payload, Request.frame, Fields.index, Table.find, hcall, Task.view]
  · simp [Draft.names, Request.payload, Request.frame, Fields.index, Table.find, hjob, Task.view]
  · rw [hview, hcall]
    rfl

theorem compactionTurn_ok (h : ∃ fields, task.context.index "turn" = .object fields) :
    ∃ turn, compactionTurn task = .ok turn := by
  obtain ⟨fields, hfields⟩ := h
  unfold compactionTurn
  rw [hfields]
  split <;> exact ⟨_, rfl⟩

section Spent

variable {used : Nat} (ht : e.tasks.find session = some task) (hused : e.view.budgets task.root = some used)
  (hquiet : e.view.quiet) (hissue : R.issue) (hcall : call = callId task.root (e.view.cycle task.root) used)
  (hturn : ∃ fields, task.context.index "turn" = .object fields)
include ht hused hquiet hissue hcall hturn

theorem compactionRequest_leads : Leads R e.mode before ⟨e.view, some (session, .paid), none⟩
    (e.compactionRequest config session call cause) := by
  obtain ⟨turn, hturn⟩ := compactionTurn_ok hturn
  unfold compactionRequest
  rw [ht, expect_some_bind]
  refine .ite (fun _ => finish_leads ht (by simp) _) fun _ => ?_
  rw [hturn, ok_bind]
  generalize hrequest : summaryRequest config task turn call = request
  have hid : request.callId = call := by rw [← hrequest]; rfl
  have hjob : request.jobId = task.root := by rw [← hrequest]; rfl
  refine .ite (fun _ => finish_leads ht (by simp) _) fun _ => .ite (fun _ => finish_leads ht (by simp) _) fun _ =>
    issue_leads ht hused hquiet hissue (hid.trans hcall) hjob ?_ rfl
  rw [← view_sameTask { task with compacting := true } ht rfl, hid]
  simp only [view, setCall, Map.find_insert_update]

theorem submit_leads {vision : Bool} : Leads R e.mode before ⟨e.view, some (session, .paid), none⟩
    (e.submit config session task vision call cause) := by
  have hcompact : ∀ before, Leads R e.mode before ⟨e.view, some (session, .paid), none⟩
      (e.compactionRequest config session call cause) := fun _ =>
    compactionRequest_leads ht hused hquiet hissue hcall hturn
  refine .ite (fun _ => finish_leads ht (by simp) _) fun _ => .ite (fun _ => hcompact _) fun _ =>
    .ite (fun _ => .ite (fun hroot => ?_) fun _ => finish_leads ht (by simp) _) fun _ =>
    .ite (fun _ => finish_leads ht (by simp) _) fun _ => ?_
  · simp only [Task.isRoot, Bool.and_eq_true, isNone_iff_eq_none] at hroot
    refine finishRoot_leads ht hroot.1 (.inl hroot.2) (by simp) _ fun value hv => ?_
    cases hv
    simp [Json.index, Json.get, Table.find]
  · split
    · exact hcompact _
    · exact finish_leads ht (by simp) _
    · refine issue_leads ht hused hquiet hissue hcall rfl ?_ rfl
      simp only [view, setCall, Map.find_insert_update]
      rfl

end Spent

theorem quiet_of_isEmpty (h : e.calls.isEmpty = true) : e.view.quiet := Map.isEmpty_iff.mp h

section

variable (ht : e.tasks.find session = some task)

include ht

theorem exhaust_leads {error : String} (hquiet : e.view.quiet) :
    Leads R e.mode before ⟨e.view, some (session, .loose), none⟩ (e.exhaust session task error cause) := by
  unfold exhaust
  split
  · exact finish_leads ht (by simp) _
  · next hparent => exact pause_leads ht (by simpa using hparent) hquiet

theorem spend_leads {used : Nat} (hused : e.budgets.find task.root = some used)
    (hleft : used < 32) (hquiet : e.view.quiet) (hissue : R.issue)
    (hidle : ∀ job, e.jobs.find task.root = some job → job.status.idle = false) :
    Leads R e.mode before ⟨e.view, some (session, .loose), none⟩ (e.spend config session task used cause) := by
  have hcompose := compose_cases config e task ((e.jobs.find task.root).map fun job => { job with status := .running })
  unfold spend
  dsimp only
  generalize e.compose config task ((e.jobs.find task.root).map fun job => { job with status := .running }) = composed at *
  obtain ⟨context, system, turn, hcomposed, hturn⟩ := hcompose
  have hsame : composed.1.view = task.view := by rw [hcomposed]; rfl
  have hroot : composed.1.root = task.root := by rw [hcomposed]
  generalize he : ({ e with
    budgets := e.budgets.insert task.root (used + 1)
    queue := e.queue.filter (· ≠ session)
    jobs := e.jobs.modify task.root fun job => { job with status := .running }
    tasks := e.tasks.insert session composed.1 } : Engine) = e'
  have hview : e'.view = { (e.view.setBudget task.root (some (used + 1))).setJob task.root
      ((e.view.jobs task.root).map fun job => job.wait .running job.due) with queue := e.queue.filter (· ≠ session) } := by
    subst he
    simp only [view, setBudget, setJob, Map.find_insert_update]
    rw [Map.through_insert, hsame, ← Map.through_eq_some ht, update_eq_self,
      Map.through_modify _ Job.view (fun job => job.wait .running job.due) _ fun _ => rfl]
  have hmode : e'.mode = e.mode := by subst he; rfl
  have ht' : e'.tasks.find session = some composed.1 := by subst he; rw [Map.find_insert, if_pos rfl]
  have hjob : e'.view.jobs task.root = (e.view.jobs task.root).map fun job => job.wait .running job.due := by
    rw [hview]
    exact update_self ..
  have hcycle : (((e.jobs.find task.root).map fun job => { job with status := .running }).map
      Job.cycleStartedMs).getD 0 = e'.view.cycle task.root := by
    rw [cycle, hjob]
    change _ = ((((e.jobs.find task.root).map Job.view).map _).map _).getD 0
    cases e.jobs.find task.root <;> rfl
  have hmove : Move R ⟨e.view, some (session, .loose), none⟩ [] ⟨e'.view, some (session, .paid), none⟩ := by
    rw [hview]
    exact .spend (view_task ht) hused hleft hquiet (of_view_job (fun job => job.status.idle = false) hidle)
  rw [hcycle, ← hmode]
  refine .silent hmove (submit_leads ht' ?_ ?_ hissue (by rw [hroot]) (by rw [hcomposed]; exact hturn))
  · rw [hview, hroot]
    exact update_self ..
  · rw [hview]
    exact hquiet

theorem enqueue_leads (hcalling : session ∉ e.calls.values) (hgrip : grip = .soft ∨ grip = .loose) :
    Leads R e.mode before ⟨e.view, some (session, grip), none⟩ (.ok (e.enqueue session task, [])) := by
  have hlive : e.view.tasks session ≠ none := by simp [view_task ht]
  have hfree : ¬ e.view.calling session := fun ⟨call, h⟩ => hcalling (Map.mem_values.mpr ⟨call, h⟩)
  unfold enqueue
  split
  · exact Leads.rest rfl rfl (nil_sublist _)
  · next hout =>
    split
    · exact .silent (.enqueue hlive hout hfree hgrip (.inl rfl)) (Leads.rest rfl rfl (nil_sublist _))
    · exact .silent (.enqueue hlive hout hfree hgrip (.inr rfl)) (Leads.rest rfl rfl (nil_sublist _))

theorem ask_leads (hgrip : grip = .loose ∨ grip = .soft ∧ e.scheduling = false ∧ task.parent = none)
    (hissue : e.scheduling = true → R.issue) :
    Leads R e.mode before ⟨e.view, some (session, grip), none⟩ (e.ask config session cause) := by
  unfold ask
  simp only [ht, expect_some_bind]
  by_cases hidle : ((e.jobs.find task.root).any fun job => job.status.idle) = true
  · rw [if_pos hidle]
    exact Leads.rest rfl rfl (nil_sublist _)
  have hidle' : ∀ job, e.jobs.find task.root = some job → job.status.idle = false := fun job hjob => by
    simpa [hjob] using hidle
  rw [if_neg hidle]
  by_cases hover : 32 ≤ (e.budgets.find task.root).getD 0 ∧ task.parent.isSome
  · rw [if_pos hover]
    refine finish_leads ht ?_ _
    rcases hgrip with rfl | ⟨-, -, hparent⟩
    · simp
    · simp [hparent] at hover
  rw [if_neg hover]
  by_cases hcalling : session ∈ e.calls.values
  · rw [if_pos hcalling]
    exact Leads.rest rfl rfl (nil_sublist _)
  rw [if_neg hcalling]
  by_cases hwait : (!e.scheduling || !e.calls.isEmpty) = true
  · rw [if_pos hwait]
    exact enqueue_leads ht hcalling (hgrip.symm.imp_left And.left)
  -- the scheduler asks at once, and no other call is out
  rw [if_neg hwait]
  simp only [Bool.or_eq_true, Bool.not_eq_true', not_or, Bool.not_eq_false] at hwait
  have hquiet := quiet_of_isEmpty hwait.2
  obtain rfl : grip = .loose := hgrip.resolve_right fun h => by simp [h.2.1] at hwait
  split
  · exact exhaust_leads ht hquiet
  cases hused : e.budgets.find task.root with
  | none => exact .error (.noBudget (view_task ht) hused (of_view_job (fun job => job.status.idle = false) hidle'))
  | some used =>
    rw [expect_some_bind]
    split
    · exact exhaust_leads ht hquiet
    · exact spend_leads ht hused (by omega) hquiet (hissue hwait.1) hidle'

theorem request_leads (hgrip : grip = .loose ∨ grip = .soft ∧ e.scheduling = false ∧ task.parent = none)
    (hissue : e.scheduling = true → R.issue) :
    Leads R e.mode before ⟨e.view, some (session, grip), none⟩ (e.request config session cause) := by
  unfold request
  rcases route_cases ht with ⟨o, ho, hinbox, h⟩ | ⟨context, tasks, h, htasks⟩
  · rw [h]
    exact .error (.noObservation (view_task ht) ho (view_no_inbox hinbox))
  · rw [h, ok_bind, ← view_sameTasks { task with context := context } ht rfl htasks]
    exact ask_leads (e := { e with tasks := tasks }) ((htasks session).trans (if_pos rfl)) hgrip hissue

end

theorem request_parked (config : Config) (cause : String) (hs : e.scheduling = false) (ht : e.tasks.find session = some task)
    (hparent : task.parent = none) :
    (∃ o, task.association = some o ∧ e.inbox.find o = none ∧ e.request config session cause = .error .index) ∨
    (∃ context tasks queue, e.request config session cause = .ok ({ e with tasks := tasks, queue := queue }, []) ∧
      (∀ k, tasks.find k = if k = session then some { task with context := context } else e.tasks.find k) ∧
      (queue = e.queue ∨ session ∉ e.queue ∧ session ∉ e.calls.values ∧
        (queue = session :: e.queue ∨ queue = e.queue ++ [session]))) := by
  unfold request
  rcases route_cases ht with ⟨o, ho, hinbox, h⟩ | ⟨context, tasks, h, htasks⟩
  · exact .inl ⟨o, ho, hinbox, by rw [h, error_bind]⟩
  · refine .inr ⟨context, tasks, ?_⟩
    rw [h, ok_bind]
    unfold ask
    rw [htasks session, if_pos rfl, expect_some_bind]
    dsimp only
    split
    · exact ⟨e.queue, rfl, htasks, .inl rfl⟩
    rw [if_neg (by simp [hparent])]
    split
    · exact ⟨e.queue, rfl, htasks, .inl rfl⟩
    · next hcalling =>
      rw [if_pos (by simp [hs])]
      unfold enqueue
      split
      · exact ⟨e.queue, rfl, htasks, .inl rfl⟩
      · next hout =>
        split
        · exact ⟨_, rfl, htasks, .inr ⟨hout, hcalling, .inl rfl⟩⟩
        · exact ⟨_, rfl, htasks, .inr ⟨hout, hcalling, .inr rfl⟩⟩

/-- The tasks are as before but for one of a new session, which is in hand; its job is not over unless it was. -/
def Seats (e : Engine) (session : String) (e' : Engine) (desk : Desk) : Prop :=
  (∀ k, k ≠ session → e'.tasks.find k = e.tasks.find k) ∧
    ∃ task grip, e'.tasks.find session = some task ∧ task.parent = none ∧ task.resourceFailures = 0 ∧
      (grip = .soft ∨ grip = .loose) ∧ desk.hand = some (session, grip) ∧
      ∀ job, e'.jobs.find task.root = some job → job.status.ended = true → e.jobs.find session = some job

theorem request_seats {e₀ : Engine} (hs : e.scheduling = false) (ht : e.tasks.find session = some task)
    (hparent : task.parent = none) (hfresh : task.resourceFailures = 0)
    (hothers : ∀ k, k ≠ session → e.tasks.find k = e₀.tasks.find k)
    (hjob : ∀ job, e.jobs.find task.root = some job → job.status.ended = true → e₀.jobs.find session = some job) :
    Follows (Move R) Fault (fun e' desk => Rests e.mode e' desk ∧ e₀.Seats session e' desk) before
      ⟨e.view, some (session, .loose), none⟩ (e.request config session cause) := by
  rcases request_parked config cause hs ht hparent with ⟨o, ho, hinbox, h⟩ | ⟨context, tasks, queue, h, htasks, hqueue⟩
  · rw [h]
    exact .error (.noObservation (view_task ht) ho (view_no_inbox hinbox))
  · rw [h]
    have hview : ∀ queue, { e.view with queue := queue } = ({ e with tasks := tasks, queue := queue } : Engine).view := by
      intro queue
      rw [← view_sameTasks { task with context := context } ht rfl htasks]
      rfl
    have hseats : ∀ grip : Grip, grip = .soft ∨ grip = .loose →
        e₀.Seats session { e with tasks := tasks, queue := queue } ⟨{ e.view with queue := queue }, some (session, grip), none⟩ :=
      fun grip hgrip => ⟨fun k hk => by rw [← hothers k hk, htasks k, if_neg hk],
        _, grip, (htasks session).trans (if_pos rfl), hparent, hfresh, hgrip, rfl, hjob⟩
    rcases hqueue with rfl | ⟨hout, hcalling, hqueue⟩
    · exact .ok ⟨⟨hview _, rfl, rfl⟩, hseats _ (.inr rfl)⟩ (nil_sublist _)
    · refine .silent (.enqueue (by simp [view_task ht]) hout (fun ⟨call, h⟩ => hcalling (Map.mem_values.mpr ⟨call, h⟩))
        (.inr rfl) hqueue) (.ok ⟨⟨hview _, rfl, rfl⟩, hseats _ (.inl rfl)⟩ (nil_sublist _))

end Requesting

end Engine

end Pluribus.Rlm
