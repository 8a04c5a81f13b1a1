import Pluribus.Lib.Lists
import Pluribus.Rlm.Base
import Pluribus.Rlm.Simulation

namespace Pluribus.Rlm

open Lib List Option

namespace Engine

variable {R : Rules} {config : Config} {e : Engine} {before : List Draft} {session cause id : String} {task : Task}
  {kind : Kind} {value : Json} {hand : Option (String × Grip)}

/-- What is taken for granted of an event the engine acts on. -/
structure Allows (R : Rules) (e : Engine) (id : String) (kind : Kind) (value : Json) : Prop where
  observes : kind = .observationReceived → Admits R e id value
  answers : kind = .modelCompleted ∨ kind = .modelFailed → ∀ session task, e.calls.find (answeredCall value) = some session →
    e.tasks.find session = some task → Answers R e value session task
  reports : kind = .codeCompleted ∨ kind = .codeFailed → Reports R e kind value
  yields : kind = .codeYielded → Yields R e value
  recovers : kind = .cognitionResourceExhausted → Recovers R e value
  renews : kind = .timerFired → ∀ j, e.resets value j → R.renew j
  strict : R.strict → e.view.lively

theorem handleEvent_leads {origin : Option String} (hs : e.scheduling = false) (hrooted : e.view.rooted)
    (hallows : Allows R e id kind value) :
    Leads R e.mode before ⟨e.view, hand, none⟩ (e.handleEvent config id kind value origin) := by
  have hstrict := hallows.strict
  unfold handleEvent
  split
  · exact recoverResourceJob_leads hs hrooted hstrict (hallows.recovers rfl)
  · exact Leads.rest (timerSet_view e value id).symm (timerSet_mode e value id) (nil_sublist _)
  · exact timerFired_leads hs hrooted (hallows.renews rfl)
  · exact (observationReceived_seats hs hrooted (hallows.observes rfl)).left
  · exact modelAnswered_leads hs hrooted hstrict (hallows.answers (.inl rfl))
  · exact modelAnswered_leads hs hrooted hstrict (hallows.answers (.inr rfl))
  · exact codeFinished_leads hs (hallows.reports (.inl rfl))
  · exact codeFinished_leads hs (hallows.reports (.inr rfl))
  · exact codeYielded_leads hs (hallows.yields rfl)
  · exact capabilityAnswered_leads hstrict
  · exact capabilityAnswered_leads hstrict
  · exact capabilityAnswered_leads hstrict
  · exact capabilityAnswered_leads hstrict
  · exact capabilityAnswered_leads hstrict
  · exact capabilityRequested_leads hstrict
  · exact Leads.rest rfl rfl (nil_sublist _)

theorem idle_leads {errors : Map String Json} {desk : Desk} {outcome : Outcome}
    (h : Leads R (true, errors) before desk outcome) : Leads R (false, errors) before desk (idle outcome) := by
  match outcome, h with
  | .ok (e', out), ⟨xs, last, hchain, ⟨hview, hdeciding, hmode⟩, hout⟩ =>
    exact ⟨xs, last, hchain, ⟨hview, hdeciding, congrArg (fun mode : Mode => (false, mode.2)) hmode⟩, hout⟩
  | .error _, h => exact h

theorem take_leads {rest : List String} (hissue : R.issue) (ht : e.tasks.find session = some task)
    (hqueue : e.queue = session :: rest) (hquiet : e.view.quiet) :
    Leads R (false, e.resourceErrors) before ⟨e.view, hand, none⟩
      (idle ({ e with queue := rest, scheduling := true }.request config session cause)) := by
  refine .silent (.take hqueue (by simp [view_task ht]) hquiet) (idle_leads ?_)
  exact request_leads (e := { e with queue := rest, scheduling := true }) ht (.inl rfl) fun _ => hissue

theorem schedule_leads (hissue : R.issue) (fuel : Nat) (hs : e.scheduling = false) (hquiet : e.view.quiet) :
    Leads R e.mode before ⟨e.view, hand, none⟩ (schedule config cause fuel e) := by
  induction fuel generalizing e before hand with
  | zero => exact Leads.rest rfl rfl (nil_sublist _)
  | succ fuel ih =>
    unfold schedule
    split
    · exact Leads.rest rfl rfl (nil_sublist _)
    · next session rest hqueue =>
      by_cases hlive : e.tasks.contains session = true
      · obtain ⟨task, ht⟩ := Map.contains_iff.mp hlive
        have hmode : e.mode = (false, e.resourceErrors) := by rw [mode, hs]
        rw [if_pos hlive, hmode]
        refine .bind (take_leads hissue ht hqueue hquiet) fun e' out desk hrests => ?_
        obtain ⟨v, hand', deciding⟩ := desk
        obtain ⟨rfl, rfl, hmode'⟩ := hrests
        refine .ite (fun hempty => ?_) fun _ => Leads.rest rfl hmode' (Sublist.refl _)
        rw [← hmode']
        exact .after (Sublist.refl _) (ih (congrArg Prod.fst hmode') (quiet_of_isEmpty hempty))
      · rw [if_neg hlive]
        exact Leads.rest rfl rfl (nil_sublist _)

section Operator

variable {j : String} {job : Job} {cancel : Bool} {reason : Json}

theorem speaks_orderDrafts (v : View) (e : Engine) (j : String) (job : Job) (cancel : Bool) (cause : String) :
    ∀ draft ∈ e.orderDrafts j job cancel cause, v.speaks draft := by
  intro draft hdraft
  rcases mem_append.mp hdraft with h | h
  · rcases mem_append.mp h with h | h
    · exact speaks_timerCancel v h
    · exact speaks_cancelActivities v h
  · obtain ⟨_, -, rfl⟩ := mem_map.mp h
    exact speaks_quiet rfl

theorem carryOut_tasks (e : Engine) (j : String) (job : Job) (cancel : Bool) (reason : Json) (cause : String) :
    (e.carryOut j job cancel reason cause).tasks.through Task.view = fun s =>
      (e.view.tasks s).filter fun t => t.root ≠ j || (!cancel && s = j) := by
  unfold carryOut
  have hhalted : (e.tasks.update fun _ task =>
      if task.root = j then halted (ordered cancel job).revision reason cause task else task).through Task.view =
      e.view.tasks := by
    refine Map.through_update_same _ _ fun s task => ?_
    split <;> rfl
  generalize (e.tasks.update _) = tasks at hhalted
  have hretain := tasks.through_retain Task.view (p := fun session task => task.root ≠ j || (!cancel && session = j))
    (fun s t => t.root ≠ j || (!cancel && s = j)) fun _ _ => rfl
  rw [hretain, hhalted]

theorem keepCalls_calls (e : Engine) (j : String) :
    (e.calls.retain fun _ session => (e.tasks.find session).all fun task => task.root ≠ j).find =
      (e.view.keepCalls j).calls := by
  funext call
  rw [Map.find_retain, View.keepCalls_calls]
  simp only [view, Map.through, Option.all_map]
  rfl

theorem carryOut_view (e : Engine) (j : String) (job : Job) (cancel : Bool) (reason : Json) (cause : String) :
    (e.carryOut j job cancel reason cause).view =
      View.purge { (e.view.setJob j (some (ordered cancel job).view)).keepCalls j with
        tasks := fun s => (e.view.tasks s).filter fun t => t.root ≠ j || (!cancel && s = j) } := by
  have htasks := carryOut_tasks e j job cancel reason cause
  have hcalls := keepCalls_calls e j
  ext1
  · exact Map.through_insert _ _ _ _
  · exact htasks
  · rfl
  · exact hcalls
  · rfl
  · change (e.queue.filter (e.carryOut j job cancel reason cause).tasks.contains) = _
    rw [filter_contains, htasks]
    rfl
  · rfl

/-- What is taken for granted of an order to resume a job. -/
def Orders (R : Rules) (e : Engine) (value : Json) : Prop :=
  ∀ job task, e.jobs.find ((value.getStr "jobId").getD "") = some job →
    e.tasks.find ((value.getStr "jobId").getD "") = some task → value.index "action" ≠ .string "cancel" →
    e.orderValid ((value.getStr "jobId").getD "") job value false = true → R.resume task.view

theorem orderValid_open (h : e.orderValid j job value cancel = true) : job.status.ended = false := by
  unfold orderValid at h
  simp only [Bool.and_eq_true, Bool.not_eq_true'] at h
  exact h.1.2

theorem orderValid_live (h : e.orderValid j job value false = true) : e.tasks.contains j = true := by
  unfold orderValid at h
  simp only [Bool.and_eq_true, Bool.false_or] at h
  exact h.2.1.1

theorem resume_leads (hs : e.scheduling = false) (hissue : R.issue) (hjob : e.jobs.find j = some job)
    (hopen : job.status.ended = false) (ht : e.tasks.find j = some task) (hresume : R.resume task.view) :
    Leads R e.mode before ⟨e.view, hand, none⟩
      (idle ({ e.carryOut j job false reason cause with scheduling := true }.request config j cause)) := by
  have hview : (e.carryOut j job false reason cause).view =
      (((e.view.setJob j (some (job.view.wait .runnable none))).keepCalls j).regroup j task.view).purge := by
    have htasks : (fun s => (e.view.tasks s).filter fun t => t.root ≠ j || (!false && s = j)) =
        Function.update (fun s => (e.view.tasks s).filter fun t => t.root ≠ j) j (some task.view) := by
      funext s
      rw [Function.update_apply]
      split
      · next hs => simp [hs, view_task ht]
      · next hs => simp [hs]
    rw [carryOut_view, htasks]
    rfl
  obtain ⟨task', ht'⟩ : ∃ task', (e.carryOut j job false reason cause).tasks.find j = some task' := by
    have h := congrFun (carryOut_tasks e j job false reason cause) j
    rw [view_task ht] at h
    obtain ⟨task', ht', -⟩ := Map.of_through (h.trans (by simp : _ = some task.view))
    exact ⟨task', ht'⟩
  have hmode : e.mode = (false, e.resourceErrors) := by rw [mode, hs]
  have hmove : Move R ⟨e.view, hand, none⟩ [] ⟨(e.carryOut j job false reason cause).view, some (j, .loose), none⟩ := by
    rw [hview]
    exact .resume (view_job hjob) hopen (view_task ht) hresume
  rw [hmode]
  refine .silent hmove (idle_leads ?_)
  exact request_leads (e := { e.carryOut j job false reason cause with scheduling := true }) ht' (.inl rfl) fun _ => hissue

theorem operatorControl_leads (hs : e.scheduling = false) (hissue : R.issue) (horders : Orders R e value) :
    Leads R e.mode before ⟨e.view, hand, none⟩ (e.operatorControl config cause value) := by
  unfold operatorControl
  dsimp only
  unfold Orders at horders
  generalize (value.getStr "jobId").getD "" = j at horders ⊢
  cases hjob : e.jobs.find j with
  | none => exact Leads.rest rfl rfl (nil_sublist _)
  | some job =>
    refine .ite (fun _ => Leads.rest rfl rfl (nil_sublist _)) fun hvalid => ?_
    by_cases hcancel : value.index "action" = .string "cancel"
    · simp only [hcancel, decide_true, Bool.not_eq_true', Bool.not_eq_false, if_true] at hvalid ⊢
      refine Leads.speak (speaks_orderDrafts _ e j job true cause) ?_
      refine .silent (.halt (view_job hjob) (orderValid_open hvalid)) (Leads.rest ?_ rfl (sublist_append_right _ _))
      rw [carryOut_view]
      simp only [Bool.not_true, Bool.false_and, Bool.or_false]
      rfl
    · simp only [hcancel, decide_false, Bool.not_eq_true', Bool.not_eq_false, Bool.false_eq_true, if_false] at hvalid ⊢
      obtain ⟨task, ht⟩ := Map.contains_iff.mp (orderValid_live hvalid)
      refine Leads.speak (speaks_orderDrafts _ e j job false cause) (.after (sublist_append_right _ _) ?_)
      exact resume_leads hs hissue hjob (orderValid_open hvalid) ht (horders job task hjob ht hcancel hvalid)

end Operator

theorem reasoned_view (job : Job) : (reasoned job).view = job.view := by
  unfold reasoned
  repeat' split
  all_goals rfl

theorem withReasons_view (e : Engine) : e.withReasons.view = e.view := by
  unfold withReasons
  rw [view, Map.through_update_same _ _ fun _ job => reasoned_view job]
  rfl

theorem noteCell_view (e : Engine) (id : String) (kind : Kind) (value : Json) : (e.noteCell id kind value).view = e.view := by
  unfold noteCell
  repeat' split
  all_goals try rfl
  all_goals
    rw [view, Map.through_modify_same]
    · rfl
    · intro task
      split <;> rfl

theorem noteActivity_view (e : Engine) (id : String) (kind : Kind) (value : Json) (origin : Option String) :
    (e.noteActivity id kind value origin).view = e.view := by
  unfold noteActivity
  split
  · split
    · rfl
    · exact view_modifyJob e _ fun _ => rfl
  · split
    · rw [view, Map.through_update_same]
      · rfl
      · exact fun _ _ => rfl
    · rfl

theorem noted_view (e : Engine) (id : String) (kind : Kind) (value : Json) (origin : Option String) :
    (e.noted id kind value origin).view = e.view :=
  (noteActivity_view _ _ _ _ _).trans (noteCell_view _ _ _ _)

theorem noted_mode (e : Engine) (id : String) (kind : Kind) (value : Json) (origin : Option String) :
    (e.noted id kind value origin).mode = e.mode := by
  unfold noted noteActivity noteCell
  repeat' split
  all_goals rfl

theorem attemptReconciled_view (e : Engine) (id : String) (value : Json) : (e.attemptReconciled id value).view = e.view := by
  unfold attemptReconciled
  dsimp only
  split
  · rfl
  · simp only [view]
    rw [Map.through_update_same, Map.through_update_same]
    · intro key task
      split <;> rfl
    · intro key job
      split <;> rfl

theorem attemptReconciled_mode (e : Engine) (id : String) (value : Json) : (e.attemptReconciled id value).mode = e.mode := by
  unfold attemptReconciled
  dsimp only
  split <;> rfl

theorem foldl_same {α β : Type} {f : Engine → α → Engine} (g : Engine → β) (h : ∀ e x, g (f e x) = g e)
    (items : List α) (e : Engine) : g (items.foldl f e) = g e := by
  induction items generalizing e with
  | nil => rfl
  | cons x items ih => exact (ih _).trans (h e x)

theorem prepare_same {β : Type} (g : Engine → β) (e : Engine) (input : Input)
    (hjob : ∀ e job, g (addRoutingJob e job) = g e) (hobservation : ∀ e o, g (addRoutingObservation e o) = g e)
    (hclock : ∀ e : Engine, g { e with
      nowMs := input.nowMs, sequence := input.sequence, unloadedObservations := input.unloaded } = g e) :
    g (e.prepare input) = g e := by
  unfold prepare
  rw [hclock, foldl_same g hobservation, foldl_same g hjob]

theorem prepare_view (e : Engine) (input : Input) : (e.prepare input).view = { e.view with now := input.nowMs } :=
  View.ext (prepare_same (fun e => e.view.jobs) e input (fun _ _ => rfl) (fun _ _ => rfl) fun _ => rfl)
    (prepare_same (fun e => e.view.tasks) e input (fun _ _ => rfl) (fun _ _ => rfl) fun _ => rfl)
    (prepare_same (fun e => e.view.inbox) e input (fun _ _ => rfl) (fun _ _ => rfl) fun _ => rfl)
    (prepare_same (fun e => e.view.calls) e input (fun _ _ => rfl) (fun _ _ => rfl) fun _ => rfl)
    (prepare_same (fun e => e.view.budgets) e input (fun _ _ => rfl) (fun _ _ => rfl) fun _ => rfl)
    (prepare_same (fun e => e.view.queue) e input (fun _ _ => rfl) (fun _ _ => rfl) fun _ => rfl) rfl

theorem prepare_mode (e : Engine) (input : Input) : (e.prepare input).mode = e.mode :=
  prepare_same mode e input (fun _ _ => rfl) (fun _ _ => rfl) fun _ => rfl

/-- Whether the engine has seen the result of the request already. -/
def seen (e : Engine) (input : Input) : Bool :=
  (resultKey input.kind input.id input.value).any fun key => key ∈ e.seenResults

def met (e : Engine) (input : Input) : Engine :=
  let e := (e.prepare input).withReasons
  let e := match resultKey input.kind input.id input.value with
    | some key => { e with seenResults := key :: e.seenResults }
    | none => e
  e.noted input.id input.kind input.value input.cause

/-- Drafts as they leave the engine: requests have got a deadline. -/
def Stamped (draft stamped : Draft) : Prop :=
  stamped.kind = draft.kind ∧ stamped.cause = draft.cause ∧
    ∀ key, key ≠ "deadlineAtMs" → stamped.payload.index key = draft.payload.index key

theorem stamped_deadline (now : Int) (draft : Draft) : Stamped draft (deadline now draft) := by
  unfold deadline
  split
  · exact ⟨rfl, rfl, fun key hkey => by rw [Fields.index_set, if_neg (Ne.symm hkey)]⟩
  · exact ⟨rfl, rfl, fun _ _ => rfl⟩

/-- A step of the engine as two chains of moves: one for the event, one for the scheduler. -/
def Phases (R S : Rules) (v : View) : Outcome → Prop
  | .ok (e', out) => ∃ xs ys middle last drafts, Chain (Move R) ⟨v, none, none⟩ xs middle ∧
      Chain (Move S) middle ys last ∧ Rests (false, .empty) e' last ∧ drafts.Sublist (xs ++ ys) ∧
      List.Forall₂ Stamped drafts out
  | .error _ => ∃ xs ys middle last, Chain (Move R) ⟨v, none, none⟩ xs middle ∧ Chain (Move S) middle ys last ∧ Fault last

theorem recoverResources_empty (config : Config) (h : e.resourceErrors = .empty) (id : String) :
    e.recoverResources config id = .ok (e, []) := by
  cases e
  cases h
  rfl

theorem drain_leads (hissue : R.issue) (hs : e.scheduling = false) :
    Leads R e.mode before ⟨e.view, hand, none⟩ (e.drain config id) :=
  .ite (fun hempty => schedule_leads hissue _ hs (quiet_of_isEmpty hempty)) fun _ =>
    Leads.rest rfl rfl (nil_sublist _)

theorem react_phases {S : Rules} {v : View} {origin : Option String}
    (hmode : e.mode = (false, .empty)) (hrooted : e.view.rooted)
    (hstart : Chain (Move R) ⟨v, none, none⟩ [] ⟨e.view, none, none⟩) (hissue : S.issue)
    (hallows : Allows R (e.noted id kind value origin) id kind value) :
    Phases R S v (e.react config id kind value origin) := by
  have hview := noted_view e id kind value origin
  have hmode' := (noted_mode e id kind value origin).trans hmode
  unfold react
  generalize e.noted id kind value origin = e' at hallows hview hmode' ⊢
  rw [← hview] at hstart hrooted
  have hhandled : Leads R e'.mode [] ⟨e'.view, none, none⟩ (e'.handleEvent config id kind value origin) :=
    handleEvent_leads (congrArg Prod.fst hmode') hrooted hallows
  rw [recoverResources_empty config (congrArg Prod.snd hmode'), ok_bind]
  dsimp only
  generalize e'.handleEvent config id kind value origin = handled at hhandled ⊢
  match handled, hhandled with
  | .error _, ⟨xs, last, hchain, hfault⟩ => exact ⟨xs, [], last, last, hstart.trans hchain, .refl _, hfault⟩
  | .ok (e₁, answer), ⟨xs, ⟨v₁, hand, deciding⟩, hchain, ⟨hview₁, hdeciding, hmode₁⟩, hanswer⟩ =>
    obtain rfl : v₁ = e₁.view := hview₁
    obtain rfl : deciding = none := hdeciding
    rw [hmode'] at hmode₁
    have hdrained : Leads S e₁.mode [] ⟨e₁.view, hand, none⟩ (e₁.drain config id) :=
      drain_leads hissue (congrArg Prod.fst hmode₁)
    rw [ok_bind]
    generalize e₁.drain config id = drained at hdrained ⊢
    match drained, hdrained with
    | .error _, ⟨ys, last, hchain₁, hfault⟩ => exact ⟨xs, ys, _, last, hstart.trans hchain, hchain₁, hfault⟩
    | .ok (e₂, requests), ⟨ys, last, hchain₁, hrests, hrequests⟩ =>
      rw [hmode₁] at hrests
      refine ⟨xs, ys, _, last, answer ++ requests, hstart.trans hchain, hchain₁, hrests, hanswer.append hrequests, ?_⟩
      simp only [nil_append, forall₂_map_right_iff, forall₂_same]
      exact fun draft _ => stamped_deadline _ draft

/-- What is taken for granted of a step, by the event's own moves and by those of the scheduler. -/
structure Meets (R S : Rules) (e : Engine) (input : Input) : Prop where
  tick : R.tick e.nowMs input.nowMs
  issue : S.issue
  orders : input.kind = .operatorJobControl → Orders S (e.prepare input) input.value
  allows : input.kind ≠ .operatorJobControl → input.kind ≠ .operatorAttemptReconciled → e.seen input = false →
    Allows R (e.met input) input.id input.kind input.value

theorem Phases.single {S : Rules} {v : View} {outcome : Outcome} {desk : Desk}
    (hstart : Chain (Move R) ⟨v, none, none⟩ [] desk) (h : Leads S (false, .empty) [] desk outcome) :
    Phases R S v outcome := by
  match outcome, h with
  | .ok (e', out), ⟨ys, last, hchain, hrests, hout⟩ =>
    exact ⟨[], ys, desk, last, out, hstart, hchain, hrests, by simpa using hout,
      forall₂_same.mpr fun _ _ => ⟨rfl, rfl, fun _ _ => rfl⟩⟩
  | .error _, ⟨ys, last, hchain, hfault⟩ => exact ⟨[], ys, desk, last, hstart, hchain, hfault⟩

theorem step_phases {S : Rules} {input : Input} (config : Config) (hmode : e.mode = (false, .empty)) (hrooted : e.view.rooted)
    (hmeets : Meets R S e input) : Phases R S e.view (e.step config input) := by
  obtain ⟨htick, hissue, horders, hallows⟩ := hmeets
  have hview := prepare_view e input
  have hmode' := (prepare_mode e input).trans hmode
  have hseen : (e.prepare input).seenResults = e.seenResults :=
    prepare_same seenResults e input (fun _ _ => rfl) (fun _ _ => rfl) fun _ => rfl
  have hstart : Chain (Move R) ⟨e.view, none, none⟩ [] ⟨(e.prepare input).view, none, none⟩ :=
    .one (hview ▸ .tick input.nowMs htick)
  have hrooted' : (e.prepare input).view.rooted := by rwa [hview]
  unfold seen met at hallows
  rw [← hseen] at hallows
  unfold step event
  generalize e.prepare input = e' at hallows horders hmode' hstart hrooted' ⊢
  obtain ⟨id, kind, value, origin, _⟩ := input
  dsimp only at hallows horders ⊢
  split
  · exact Phases.single hstart (hmode' ▸ operatorControl_leads (congrArg Prod.fst hmode') hissue (horders rfl))
  · exact Phases.single hstart (Leads.rest (attemptReconciled_view _ _ _).symm
      ((attemptReconciled_mode _ _ _).trans hmode') (nil_sublist _))
  · next hcontrol hreconciled =>
    have hreasons := withReasons_view e'
    rw [← hreasons] at hstart hrooted'
    have hmode'' : e'.withReasons.mode = (false, .empty) := hmode'
    cases hkey : resultKey kind id value with
    | none =>
      rw [hkey] at hallows
      exact react_phases hmode'' hrooted' hstart hissue (hallows hcontrol hreconciled rfl)
    | some key =>
      rw [hkey] at hallows
      dsimp only
      split
      · exact Phases.single hstart (Leads.rest rfl hmode'' (nil_sublist _))
      · next hnew =>
        exact react_phases (e := { e'.withReasons with seenResults := key :: e'.seenResults }) hmode'' hrooted' hstart
          hissue (hallows hcontrol hreconciled (decide_eq_false hnew))

theorem met_view (e : Engine) (input : Input) : (e.met input).view = { e.view with now := input.nowMs } := by
  unfold met
  rw [noted_view, ← prepare_view]
  split <;> exact withReasons_view _

section Naming

def Input.observation (input : Input) : Option (String × Json) :=
  match input.kind with
  | .observationReceived => some (input.id, input.value)
  | .cognitionResourceExhausted =>
    (observed input.value).map fun id => (id, (input.value.index "input").index "payload")
  | _ => none

def Input.plain (input : Input) : Bool := input.observation.all fun o => Plain o.1

theorem rooted_of_base {v : View} (hb : Base ⟨v, none, none⟩) : v.rooted := by
  intro j job t hjob ht
  exact (hb.root_of_plain ht (hb.plain j (hb.known j (by simp [hjob])))).1

variable {input : Input}

theorem base_met (hb : Base ⟨e.view, none, none⟩) (input : Input) : Base ⟨(e.met input).view, none, none⟩ := by
  rw [met_view]
  exact ⟨hb.plain, hb.known, hb.associated, hb.rooted, hb.child, hb.deciding⟩

theorem Input.plain_id {payload : Json} (hplain : input.plain = true) (ho : input.observation = some (id, payload)) :
    Plain id := by
  simpa [Input.plain, ho] using hplain

/-- What is taken for granted of an event, besides the ids of observations. -/
structure Demands (R : Rules) (e : Engine) (input : Input) : Prop where
  admits : ∀ id payload, input.observation = some (id, payload) → Admits R e id payload
  answers : input.kind = .modelCompleted ∨ input.kind = .modelFailed → ∀ session task,
    e.calls.find (answeredCall input.value) = some session → e.tasks.find session = some task →
    Answers R e input.value session task
  reports : input.kind = .codeCompleted ∨ input.kind = .codeFailed → Reports R e input.kind input.value
  yields : input.kind = .codeYielded → Yields R e input.value
  lose : input.kind = .cognitionResourceExhausted → ∀ session task, e.reported input.value = some session →
    e.tasks.find session = some task → concerns input.value task → R.lose e.view session
  renews : input.kind = .timerFired → ∀ j, e.resets input.value j → R.renew j
  strict : R.strict → e.view.lively

theorem Demands.allows (hb : Base ⟨e.view, none, none⟩) (hplain : input.plain = true) (h : Demands R e input) :
    Allows R e input.id input.kind input.value where
  observes hkind := h.admits _ _ (by simp [Input.observation, hkind])
  answers := h.answers
  reports := h.reports
  yields := h.yields
  recovers hkind := by
    refine ⟨h.lose hkind, fun id hid hnew => ?_⟩
    have hobservation : input.observation = some (id, (input.value.index "input").index "payload") := by
      simp [Input.observation, hkind, hid]
    obtain ⟨hjob, htask, hassociation⟩ := hb.fresh (view_no_inbox hnew) (input.plain_id hplain hobservation)
    refine ⟨h.admits _ _ hobservation, Map.through_eq_none.mp htask, Map.through_eq_none.mp hassociation, ?_⟩
    rintro - session (rfl | rfl) job hfind
    · rw [Map.through_eq_none.mp hjob] at hfind
      cases hfind
    · rw [Map.through_eq_none.mp hb.no_job] at hfind
      cases hfind
  renews := h.renews
  strict := h.strict

theorem admits_lax {payload : Json} (hobserve : R.observe id (settable payload)) (hignore : R.ignore) (htidy : ¬ R.tidy) :
    Admits R e id payload :=
  ⟨hobserve, fun _ _ _ _ _ _ => hignore, fun h => absurd h htidy⟩

theorem answers_lax (hhear : ∀ m, R.hear m) (hresolve : ∀ t, R.resolve t) (htidy : ¬ R.tidy) : Answers R e value session task :=
  ⟨hhear _, fun _ _ => ⟨fun h => absurd h htidy, fun _ _ _ _ _ _ _ => hresolve _⟩⟩

end Naming

section Runs

def Steps (config : Config) (P : Engine → Input → Bool) (e : Engine) (out : List Draft) (e' : Engine) : Prop :=
  ∃ input, P e input = true ∧ e.step config input = .ok (e', out)

variable {P : Engine → Input → Bool} {e' : Engine} {out : List Draft}

/-- Runs of the engine on a list of events, as long as `P` holds of them. -/
def runs (config : Config) (P : Engine → Input → Bool) : List Input → Engine → Option (Engine × List Draft)
  | [], e => some (e, [])
  | input :: inputs, e =>
    if P e input then
      match e.step config input with
      | .ok (e', out) => (runs config P inputs e').map fun r => (r.1, out ++ r.2)
      | .error _ => none
    else none

theorem chain_of_runs {inputs : List Input} (h : runs config P inputs e = some (e', out)) :
    Chain (Steps config P) e out e' := by
  induction inputs generalizing e out with
  | nil =>
    cases h
    exact .refl _
  | cons input inputs ih =>
    unfold runs at h
    split at h
    · next hP =>
      split at h
      · next e₁ first hstep =>
        obtain ⟨⟨_, rest⟩, hrest, heq⟩ := map_eq_some_iff.mp h
        cases heq
        exact .cons ⟨input, hP, hstep⟩ (ih hrest)
      · cases h
    · cases h

section Logs

variable {d : Engine} {input : Input} {log : List Input}

/-- Steps on events of which `P` holds, with the events. -/
def Takes (config : Config) (P : Engine → Input → Bool) (e : Engine) (log : List Input) (d : Engine) : Prop :=
  ∃ input out, log = [input] ∧ P e input = true ∧ e.step config input = .ok (d, out)

theorem steps_of_takes {Q : Engine → Input → Bool} (hQ : ∀ e input, P e input = true → Q e input = true)
    (h : Chain (Takes config P) e log d) : ∃ out, Chain (Steps config Q) e out d := by
  induction h with
  | refl => exact ⟨[], .refl _⟩
  | cons hstep _ ih =>
    obtain ⟨input, out, rfl, hP, hstep⟩ := hstep
    obtain ⟨later, hlater⟩ := ih
    exact ⟨out ++ later, .cons ⟨input, hQ _ _ hP, hstep⟩ hlater⟩

theorem takes_of_runs (h : runs config P log e = some (d, out)) : Chain (Takes config P) e log d := by
  induction log generalizing e out with
  | nil =>
    obtain ⟨rfl, rfl⟩ := Prod.mk.inj (some.inj h)
    exact .refl _
  | cons input log ih =>
    unfold runs at h
    split at h
    · next hP =>
      split at h
      · next e₁ out₁ hstep =>
        obtain ⟨⟨e₂, out₂⟩, hruns, heq⟩ := map_eq_some_iff.mp h
        obtain ⟨rfl, rfl⟩ := Prod.mk.inj heq
        exact .cons ⟨input, out₁, rfl, hP, hstep⟩ (ih hruns)
      · cases h
    · cases h

theorem takes_cons (h : Chain (Takes config P) e (input :: log) d) :
    ∃ e₁ out, e.step config input = .ok (e₁, out) ∧ Chain (Takes config P) e₁ log d := by
  generalize hlog : input :: log = events at h
  cases h with
  | refl => cases hlog
  | cons hstep hrest =>
    obtain ⟨input, out, rfl, -, hstep⟩ := hstep
    obtain ⟨rfl, rfl⟩ := cons.inj hlog
    exact ⟨_, out, hstep, hrest⟩

end Logs

theorem exists_run (config : Config) (P : Engine → Input → Bool) (e : Engine) (inputs : List Input)
    (Q : Engine × List Draft → Bool) (h : (runs config P inputs e).any Q = true) :
    ∃ e' out, Chain (Steps config P) e out e' ∧ Q (e', out) = true := by
  obtain ⟨⟨e', out⟩, hrun, hQ⟩ := (any_eq_true _ _).mp h
  exact ⟨e', out, chain_of_runs hrun, hQ⟩

theorem exists_runs (config : Config) (P : Engine → Input → Bool) (inputs later : List Input)
    (Q : Engine × List Draft → Engine × List Draft → Bool)
    (h : (runs config P inputs {}).any (fun r => (runs config P later r.1).any (Q r)) = true) :
    ∃ e₁ out₁ e₂ out₂, Chain (Steps config P) {} out₁ e₁ ∧ Chain (Steps config P) e₁ out₂ e₂ ∧
      Q (e₁, out₁) (e₂, out₂) = true := by
  obtain ⟨e₁, out₁, hrun, hlater⟩ := exists_run _ _ _ _ _ h
  obtain ⟨e₂, out₂, hrun₂, hQ⟩ := exists_run _ _ _ _ _ hlater
  exact ⟨e₁, out₁, e₂, out₂, hrun, hrun₂, hQ⟩

/-- What every move keeps, and what stays when nothing is in hand. -/
structure Keeps (R : Rules) (I : Desk → Prop) : Prop where
  move : ∀ s xs s', Move R s xs s' → I s → I s'
  release : ∀ v hand, I ⟨v, hand, none⟩ → I ⟨v, none, none⟩
  base : ∀ s, I s → Base s

theorem base_default : Base ⟨({} : Engine).view, none, none⟩ := ⟨nofun, nofun, nofun, nofun, nofun, nofun⟩

structure Calm (I : Desk → Prop) (e : Engine) : Prop where
  mode : e.mode = (false, .empty)
  view : I ⟨e.view, none, none⟩

variable {I : Desk → Prop} {input : Input}

theorem Calm.step (hI : Keeps R I) (he : Calm I e) (hmeets : Meets R R e input)
    (hstep : e.step config input = .ok (e', out)) : Calm I e' := by
  have hphases := step_phases config he.mode (rooted_of_base (hI.base _ he.view)) hmeets
  rw [hstep] at hphases
  obtain ⟨xs, ys, middle, ⟨v, hand, deciding⟩, drafts, hfirst, hsecond, ⟨hview, hdeciding, hmode⟩, -, -⟩ := hphases
  obtain rfl : deciding = none := hdeciding
  have hlast := (hfirst.trans hsecond).invariant hI.move he.view
  exact ⟨hmode, hview ▸ hI.release _ _ hlast⟩

theorem Calm.drafts {Q : Draft → Prop} (hI : Keeps R I) (hQ : ∀ s xs s', Move R s xs s' → I s → ∀ draft ∈ xs, Q draft)
    (he : Calm I e) (hmeets : Meets R R e input) (hstep : e.step config input = .ok (e', out)) :
    ∀ draft ∈ out, ∃ draft', Q draft' ∧ Stamped draft' draft := by
  have hphases := step_phases config he.mode (rooted_of_base (hI.base _ he.view)) hmeets
  rw [hstep] at hphases
  obtain ⟨xs, ys, middle, last, drafts, hfirst, hsecond, -, hsub, hstamped⟩ := hphases
  have hall := (hfirst.trans hsecond).outputs hI.move hQ he.view
  intro draft hdraft
  obtain ⟨draft', hmem, hstamp⟩ := forall₂_mem_right hstamped hdraft
  exact ⟨draft', hall draft' (hsub.subset hmem), hstamp⟩

theorem Calm.panic {panic : Panic} (hI : Keeps R I) (he : Calm I e) (hmeets : Meets R R e input)
    (hstep : e.step config input = .error panic) : ∃ desk, I desk ∧ Fault desk := by
  have hphases := step_phases config he.mode (rooted_of_base (hI.base _ he.view)) hmeets
  rw [hstep] at hphases
  obtain ⟨xs, ys, middle, last, hfirst, hsecond, hfault⟩ := hphases
  exact ⟨last, (hfirst.trans hsecond).invariant hI.move he.view, hfault⟩

end Runs

def bare : Config := ⟨[], [], {}, fun _ _ _ _ => 0⟩

def message (conversation : String) : Json :=
  .object [("conversationId", .string conversation), ("externalSenderId", .string "user"), ("provider", .string "chat")]

def received (id : String) (payload : Json) : Input := { id := id, kind := .observationReceived, value := payload }

def toolCall (id name : String) (arguments : Fields) : Json :=
  .object [("arguments", .object arguments), ("call_id", .string id), ("kind", .string "tool-call"), ("name", .string name)]

def answered (id call name : String) (arguments : Fields) : Input :=
  { id := id
    kind := .modelCompleted
    value := .object [
      ("call_id", .string call),
      ("message", .object [("content", .array [toolCall id name arguments]), ("role", .string "assistant")])] }

def queried (id session : String) : Input :=
  { id := id
    kind := .codeYielded
    value := .object [
      ("args", .object [("question", .string "why")]),
      ("id", Json.ofNat 1),
      ("method", .string "rlm.query"),
      ("sessionId", .string session)] }

def exhausted (id session : String) : Input :=
  { id := id, kind := .cognitionResourceExhausted, value := .object [("sessionId", .string session)] }

end Engine

end Pluribus.Rlm
