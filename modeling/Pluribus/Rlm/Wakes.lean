import Pluribus.Lib.Numeral
import Pluribus.Rlm.Records
import Pluribus.Rlm.Safety

namespace Pluribus.Rlm

open Lib List Option

open Engine

variable {j : String}

section Sleeps

theorem wakeToken_cause {j c c' : String} {r r' : Nat} {due due' : Int}
    (h : wakeToken j r c due = wakeToken j r' c' due') : c = c' := by
  obtain ⟨hleft, -⟩ := colon_inj (colon_not_mem_int_repr due) (colon_not_mem_int_repr due') h
  have hlist : (r.repr ++ ":" ++ c).toList = (r'.repr ++ ":" ++ c').toList := by
    have hcut := congrArg String.toList hleft
    simp only [String.toList_append, append_assoc] at hcut ⊢
    exact append_cancel_left (append_cancel_left hcut)
  exact (colon_left_inj (colon_not_mem_repr r) (colon_not_mem_repr r') (String.toList_inj.mp hlist)).2

def Records.wake (x : Records) (j : String) : Option Wake := (x.faces j).bind Face.wake

def Records.named (x : Records) : Prop := ∀ j f, x.faces j = some f → f.id = j

def Sleeps (C : String → Prop) (j : String) (w : Wake) : Prop :=
  ∃ revision cause due, C cause ∧ w = ⟨wakeToken j revision cause due, none, revision, due⟩

variable {C : String → Prop} {x y : Records}

attribute [local grind =] Records.setFace_faces Records.setInbox_faces bind_some bind_none

theorem named_edit (h : Edit C x y) (hx : x.named) : y.named := by
  intro k f hf
  unfold Records.named at hx
  cases h <;> grind

theorem named_edits (h : Edits C x y) (hx : x.named) : y.named := by
  induction h with
  | refl => exact hx
  | tail _ last ih => exact named_edit last ih

theorem edit_wake (h : Edit C x y) (hx : x.named) :
    y.wake j = x.wake j ∨ y.wake j = none ∨ ∃ w, y.wake j = some w ∧ Sleeps C j w := by
  unfold Records.wake Sleeps
  unfold Records.named at hx
  cases h <;> grind

theorem edits_wake (h : Edits C x y) (hx : x.named) :
    y.wake j = x.wake j ∨ y.wake j = none ∨ ∃ w, y.wake j = some w ∧ Sleeps C j w := by
  induction h with
  | refl => exact .inl rfl
  | tail first last ih =>
    rcases edit_wake last (named_edits first hx) with hsame | hother
    · rw [hsame]
      exact ih
    · exact .inr hother

def Records.upToDate (x : Records) : Prop := ∀ j f w, x.faces j = some f → f.wake = some w → w.revision = f.revision

theorem upToDate_edits (h : Edits C x y) (hx : x.upToDate) : y.upToDate := by
  induction h with
  | refl => exact hx
  | tail _ last ih =>
    intro k f w hf hw
    unfold Records.upToDate at ih
    cases last <;> grind

end Sleeps

variable {config : Config} {out : List Draft}

section Timers

variable {e d : Engine} {input : Input} {x : Records}

/-- The log holds a timer with the token of a sleep of the job. -/
def Engine.Input.sets (input : Input) (j token : String) : Bool :=
  input.kind = .timerSet && input.value.getStr "jobId" = some j && input.value.index "wakeToken" = .string token

def Engine.Input.link (input : Input) (j : String) (w : Wake) : Wake :=
  if input.sets j w.token then { w with request := some input.id } else w

theorem linked_faces (input : Input) (x : Records) (j : String) :
    (linked input x).faces j = (x.faces j).map fun f => { f with wake := f.wake.map (input.link j) } := by
  have hother : (∀ token, input.sets j token = false) →
      x.faces j = (x.faces j).map fun f => { f with wake := f.wake.map (input.link j) } := by
    intro hsets
    have hlink : input.link j = id := funext fun w => by simp [Input.link, hsets]
    simp [hlink]
  by_cases hkind : input.kind = .timerSet
  · unfold linked
    rw [hkind]
    cases hjob : input.value.getStr "jobId" with
    | none => exact hother fun token => by simp [Input.sets, hjob]
    | some k =>
      by_cases hk : j = k
      · have hlink : Face.link (input.value.index "wakeToken") input.id =
            fun f => { f with wake := f.wake.map (input.link j) } := by
          funext f
          cases hw : f.wake <;> simp [Face.link, Input.link, Input.sets, hkind, hjob, hk, hw]
        simp only [Records.link, if_pos hk, hlink]
      · simp only [Records.link, if_neg hk]
        exact hother fun token => by simp [Input.sets, hjob, Ne.symm hk]
  · rw [linked_other hkind]
    exact hother fun token => by simp [Input.sets, hkind]

theorem handled_face {g : String → Map String Fields → Map String Fields} {f' : Face}
    (h : (linked input (x.tally g)).faces j = some f') :
    ∃ f, x.faces j = some f ∧ f'.id = f.id ∧ f'.revision = f.revision ∧ f'.wake = f.wake.map (input.link j) := by
  rw [linked_faces, Records.tally] at h
  obtain ⟨f₁, hf₁, rfl⟩ := map_eq_some_iff.mp h
  obtain ⟨f, hf, rfl⟩ := map_eq_some_iff.mp hf₁
  exact ⟨f, hf, rfl, rfl, rfl⟩

theorem handled_wake {g : String → Map String Fields → Map String Fields} :
    (linked input (x.tally g)).wake j = (x.wake j).map (input.link j) := by
  rw [Records.wake, linked_faces, Records.wake, Records.tally]
  cases hface : x.faces j <;> simp [hface]

/-- What a step makes of a wake: its event is linked with it, or it ends, or the event has set another. -/
theorem step_wake (hmode : e.mode = (false, .empty)) (hnamed : e.records.named)
    (hstep : e.step config input = .ok (d, out)) :
    d.records.wake j = (e.records.wake j).map (input.link j) ∨ d.records.wake j = none ∨
      ∃ w, d.records.wake j = some w ∧ Sleeps (· = input.id) j w := by
  have hhandled : (linked input (e.records.tally (e.tallying input))).named := by
    intro k f' hf'
    obtain ⟨f, hf, hid, -⟩ := handled_face hf'
    exact hid.trans (hnamed k f hf)
  rw [← handled_wake]
  exact edits_wake (step_records hmode hstep) hhandled

/-- The wakes after the events of a log: each was set by one of them, and is linked with one of them at most. -/
structure Timed (e : Engine) (log : List Input) : Prop where
  mode : e.mode = (false, .empty)
  named : e.records.named
  upToDate : e.records.upToDate
  asleep : ∀ j w, e.records.wake j = some w →
    ∃ revision due, ∃ first ∈ log, w.token = wakeToken j revision first.id due
  linked : ∀ j w r, e.records.wake j = some w → w.request = some r → ∃ set ∈ log, set.sets j w.token = true ∧ set.id = r

theorem Timed.step {log : List Input} (h : Timed e log) (hstep : e.step config input = .ok (d, out)) :
    Timed d (log ++ [input]) := by
  have hedits := step_records h.mode hstep
  refine ⟨?_, named_edits hedits fun k f' hf' => ?_, upToDate_edits hedits fun k f' w hf' hw => ?_, fun j w hw => ?_,
    fun j w r hw hr => ?_⟩
  · exact step_mode h.mode hstep
  · obtain ⟨f, hf, hid, -⟩ := handled_face hf'
    exact hid.trans (h.named k f hf)
  · obtain ⟨f, hf, -, hrevision, hwake⟩ := handled_face hf'
    rw [hwake] at hw
    obtain ⟨w₀, hw₀, rfl⟩ := map_eq_some_iff.mp hw
    rw [hrevision, ← h.upToDate k f w₀ hf hw₀]
    unfold Input.link
    split <;> rfl
  · rcases step_wake (j := j) h.mode h.named hstep with hsame | hnone | ⟨w', hw', hsleeps⟩
    · rw [hsame] at hw
      obtain ⟨w₀, hw₀, rfl⟩ := map_eq_some_iff.mp hw
      obtain ⟨revision, due, first, hfirst, htoken⟩ := h.asleep j w₀ hw₀
      refine ⟨revision, due, first, mem_append_left _ hfirst, ?_⟩
      rw [← htoken]
      unfold Input.link
      split <;> rfl
    · rw [hnone] at hw
      cases hw
    · obtain rfl : w' = w := some.inj (hw'.symm.trans hw)
      obtain ⟨revision, cause, due, rfl, rfl⟩ := hsleeps
      exact ⟨revision, due, input, by simp, rfl⟩
  · rcases step_wake (j := j) h.mode h.named hstep with hsame | hnone | ⟨w', hw', hsleeps⟩
    · rw [hsame] at hw
      obtain ⟨w₀, hw₀, rfl⟩ := map_eq_some_iff.mp hw
      unfold Input.link at hr ⊢
      split at hr
      · next hsets =>
        exact ⟨input, by simp, by simp [hsets], some.inj hr⟩
      · next hsets =>
        obtain ⟨set, hset, hlink⟩ := h.linked j w₀ r hw₀ hr
        refine ⟨set, mem_append_left _ hset, ?_⟩
        simpa [hsets] using hlink
    · rw [hnone] at hw
      cases hw
    · obtain rfl : w' = w := some.inj (hw'.symm.trans hw)
      obtain ⟨revision, cause, due, rfl, rfl⟩ := hsleeps
      cases hr

end Timers

namespace Engine

variable {config : Config} {e d : Engine} {input : Input} {j session cause id : String} {value : Json} {out : List Draft}

theorem request_jobs (hscheduling : e.scheduling = false) :
    Gives (fun r => r.1.jobs = e.jobs) (e.request config session cause) := by
  have hroute : Gives (fun d : Engine => d.jobs = e.jobs ∧ d.scheduling = false) (e.route session) := by
    refine Gives.bind (expect_gives _ _) fun task _ => ?_
    split
    · exact .ok ⟨rfl, hscheduling⟩
    · refine Gives.bind (expect_gives _ _) fun source _ => .ite (fun _ => ?_) fun _ => .ok ⟨rfl, hscheduling⟩
      exact Gives.bind (expect_gives _ _) fun trigger _ => .ok ⟨rfl, hscheduling⟩
  refine Gives.bind hroute fun d ⟨hjobs, hidle⟩ => Gives.bind (expect_gives _ _) fun task ht => ?_
  rw [← hjobs]
  refine .ite (fun _ => .ok rfl) fun _ => .ite (fun hchild => ?_) fun _ => .ite (fun _ => .ok rfl) fun _ =>
    .ite (fun _ => .ok ?_) fun hscheduled => by simp [hidle] at hscheduled
  · unfold finish
    rw [ht]
    dsimp only
    split
    · exact Gives.bind (expect_gives _ _) fun pending _ => .ok rfl
    · next hnone => simp [hnone] at hchild
    · exact .ok rfl
  · unfold enqueue
    repeat' split
    all_goals rfl

def woken (e : Engine) (value : Json) : Option (String × Job) :=
  e.jobs.rows.find? fun row => e.wakes ((value.getStr "requestEventId").getD "") row.2

theorem renew_scheduling (e : Engine) (j : String) (job : Job) : (e.renew j job).scheduling = e.scheduling := by
  unfold renew
  split <;> rfl

theorem renew_jobs (e : Engine) (j : String) (job : Job) :
    ∃ job', job'.wake = job.wake ∧ job'.status = job.status ∧ (e.renew j job).jobs = e.jobs.insert j job' := by
  unfold renew
  split
  · exact ⟨{ job with cycleStartedMs := e.nowMs }, rfl, rfl, rfl⟩
  · exact ⟨job, rfl, rfl, rfl⟩

theorem timerFired_jobs (hscheduling : e.scheduling = false) :
    Gives (fun r => match e.woken value with
      | none => r.1.jobs = e.jobs
      | some (k, job) => ∃ job', job'.wake = none ∧ (job.status.suspended = true → job'.status = .runnable) ∧
          r.1.jobs = e.jobs.insert k job') (e.timerFired config value id) := by
  unfold timerFired woken
  dsimp only
  generalize e.jobs.rows.find? _ = found
  match found with
  | none => exact .ok rfl
  | some (k, job) =>
    refine Gives.bind (expect_gives _ _) fun task _ => .ite (fun hawake => .ok ?_) fun _ => ?_
    · exact ⟨_, rfl, fun hsuspended => by simp [hsuspended] at hawake, rfl⟩
    · refine Gives.mono (request_jobs ((renew_scheduling _ _ _).trans hscheduling)) fun r hr => ?_
      obtain ⟨job', hwake, hstatus, hjobs⟩ := renew_jobs { e with tasks := _ } k
        { job with wake := none, status := .runnable, waitReason := none }
      exact ⟨job', hwake, fun _ => hstatus, hr.trans hjobs⟩

/-- What the engine takes down of an event leaves a job as it is, but for its activities and its reason to wait. -/
theorem met_jobs {β : Type} (g : Job → β) (hreasoned : ∀ job, g (reasoned job) = g job)
    (hactivities : ∀ job activities, g { job with activities := activities } = g job) (e : Engine) (input : Input) :
    (e.met input).jobs.through g = e.jobs.through g := by
  have hprepared : (e.prepare input).withReasons.jobs.through g = e.jobs.through g := by
    have hprepare : (e.prepare input).jobs = e.jobs := prepare_same jobs e input (fun _ _ => rfl) (fun _ _ => rfl) fun _ => rfl
    exact (Map.through_update_same _ g fun _ job => hreasoned job).trans (by rw [hprepare])
  have hnoted : ∀ d : Engine, (d.noted input.id input.kind input.value input.cause).jobs.through g = d.jobs.through g := by
    intro d
    have hcell : (d.noteCell input.id input.kind input.value).jobs = d.jobs := by
      unfold noteCell
      repeat' split
      all_goals rfl
    rw [← hcell]
    unfold noted noteActivity
    repeat' split
    all_goals first
      | rfl
      | exact Map.through_modify_same _ g _ fun job => hactivities job _
      | exact Map.through_update_same _ g fun _ job => hactivities job _
  rw [← hprepared]
  unfold met
  split <;> exact hnoted _

def rouses (config : Config) (e : Engine) (input : Input) (j : String) : Bool :=
  input.kind = .timerFired && ((e.jobs.find j).any fun job => job.status.suspended) &&
    match (e.met input).handleEvent config input.id input.kind input.value input.cause with
    | .ok (d, _) => (d.jobs.find j).any fun job => job.status = .runnable
    | .error _ => false

theorem met_sleep (e : Engine) (input : Input) (j : String) :
    (e.met input).jobs.through (fun job => (job.status, job.wake, job.revision)) j =
      e.jobs.through (fun job => (job.status, job.wake, job.revision)) j := by
  refine congrFun (met_jobs _ (fun job => ?_) (fun _ _ => rfl) e input) j
  unfold reasoned
  repeat' split
  all_goals rfl

theorem met_job {job : Job} (h : (e.met input).jobs.find j = some job) :
    ∃ job₀, e.jobs.find j = some job₀ ∧ job₀.status = job.status ∧ job₀.wake = job.wake ∧ job₀.revision = job.revision := by
  have hsame := met_sleep e input j
  rw [Map.through_eq_some h] at hsame
  obtain ⟨job₀, hjob₀, heq⟩ := Map.of_through hsame.symm
  simp only [Prod.mk.injEq] at heq
  exact ⟨job₀, hjob₀, heq⟩

theorem job_met {job : Job} (h : e.jobs.find j = some job) (input : Input) : ∃ job', (e.met input).jobs.find j = some job' ∧
    job'.status = job.status ∧ job'.wake = job.wake ∧ job'.revision = job.revision := by
  have hsame := met_sleep e input j
  rw [Map.through_eq_some h] at hsame
  obtain ⟨job', hjob', heq⟩ := Map.of_through hsame
  simp only [Prod.mk.injEq] at heq
  exact ⟨job', hjob', heq⟩

theorem records_wake {job : Job} (h : e.jobs.find j = some job) : e.records.wake j = job.wake := by
  rw [Records.wake, records_face h]
  rfl

/-- A job that is roused had a wake that was due, of its revision and linked with the timer; it has none any more. -/
theorem rouses_wake (hmode : e.mode = (false, .empty)) (h : e.rouses config input j = true) :
    ∃ job w d answer, e.jobs.find j = some job ∧ job.wake = some w ∧
      w.request = some ((input.value.getStr "requestEventId").getD "") ∧ w.revision = job.revision ∧
      w.dueAtMs ≤ input.nowMs ∧
      (e.met input).handleEvent config input.id input.kind input.value input.cause = .ok (d, answer) ∧
      d.records.wake j = none := by
  simp only [rouses, Bool.and_eq_true, decide_eq_true_eq] at h
  obtain ⟨⟨hkind, hasleep⟩, hrunnable⟩ := h
  cases hhandled : (e.met input).handleEvent config input.id input.kind input.value input.cause with
  | error panic => simp [hhandled] at hrunnable
  | ok r =>
    obtain ⟨d, answer⟩ := r
    rw [hhandled] at hrunnable
    obtain ⟨job', hjob', hstatus'⟩ := (Option.any_eq_true _ _).mp hrunnable
    -- the job was asleep, so that the event has changed it
    have hchanged : (e.met input).jobs.find j ≠ some job' := by
      intro hsame
      obtain ⟨job₀, hjob₀, hstatus, -⟩ := met_job hsame
      simp_all [JobStatus.suspended]
    have hscheduling : (e.met input).scheduling = false := congrArg Prod.fst ((met_mode e input).trans hmode)
    have hfired : (e.met input).timerFired config input.value input.id = .ok (d, answer) := by
      rw [hkind] at hhandled
      exact hhandled
    have hjobs := (timerFired_jobs hscheduling).of_ok hfired
    cases hwoken : (e.met input).woken input.value with
    | none =>
      rw [hwoken] at hjobs
      exact absurd (hjobs ▸ hjob') hchanged
    | some row =>
      obtain ⟨k, job⟩ := row
      rw [hwoken] at hjobs
      obtain ⟨job'', hwake, -, hinsert⟩ := hjobs
      rw [hinsert, Map.find_insert] at hjob'
      split at hjob'
      · next hk =>
        subst hk
        have hfind : (e.met input).jobs.find k = some job := Map.find_eq_some.mpr (mem_of_find?_eq_some hwoken)
        have hwakes := find?_some hwoken
        obtain ⟨job₀, hjob₀, -, hwake₀, hrevision₀⟩ := met_job hfind
        have hnow : (e.met input).nowMs = input.nowMs := congrArg View.now (met_view e input)
        unfold wakes at hwakes
        split at hwakes
        · next w hw =>
          simp only [Bool.and_eq_true, decide_eq_true_eq, hnow] at hwakes
          refine ⟨job₀, w, d, answer, hjob₀, hwake₀.trans hw, hwakes.1.1, hwakes.1.2.trans hrevision₀.symm, hwakes.2, rfl, ?_⟩
          have hjob'' : d.jobs.find k = some job'' := by rw [hinsert, Map.find_insert_self]
          rw [records_wake hjob'', hwake]
        · cases hwakes
      · exact absurd hjob' hchanged

end Engine

section Runs

variable {P : Engine → Input → Bool} {e d e₁ : Engine} {input set : Input} {log first since : List Input}
  {j t r : String}

def Engine.wake (e : Engine) (j : String) : Option Wake := (e.jobs.find j).bind Job.wake

theorem Engine.wake_records (e : Engine) (j : String) : e.records.wake j = e.wake j := by
  unfold Records.wake wake
  cases hjob : e.jobs.find j with
  | none => rw [show e.records.faces j = none from Map.through_eq_none.mpr hjob]; rfl
  | some job => rw [records_face hjob]; rfl

theorem timed_run (hlog : Timed e first) (h : Chain (Takes config P) e log d) : Timed d (first ++ log) := by
  refine h.history (I := Timed) (fun e xs d past hstep hpast => ?_) hlog
  obtain ⟨input, out, rfl, -, hstep⟩ := hstep
  exact hpast.step hstep

theorem timed_default : Timed {} [] := ⟨rfl, nofun, nofun, nofun, nofun⟩

def Made (first : List Input) (j t : String) : Prop := ∃ revision due, ∃ x ∈ first, t = wakeToken j revision x.id due

theorem Made.ne_sleeps {w : Wake} (h : Made first j t) (hnew : input.id ∉ first.map Input.id)
    (hsleeps : Sleeps (· = input.id) j w) : w.token ≠ t := by
  rintro rfl
  obtain ⟨revision, due, x, hx, htoken⟩ := h
  obtain ⟨revision', cause, due', rfl, rfl⟩ := hsleeps
  exact hnew (mem_map.mpr ⟨x, hx, (wakeToken_cause htoken).symm⟩)

theorem link_token (w : Wake) : (input.link j w).token = w.token := by
  unfold Input.link
  split <;> rfl

section

variable (hlog : Timed e log) (hmade : Made first j t)

include hlog hmade

theorem over_step_wake (hnew : input.id ∉ first.map Input.id)
    (hstep : e.step config input = .ok (d, out)) (hover : ∀ w, e.records.wake j = some w → w.token ≠ t) :
    ∀ w, d.records.wake j = some w → w.token ≠ t := by
  intro w hw
  rcases step_wake (j := j) hlog.mode hlog.named hstep with hsame | hnone | ⟨w', hw', hsleeps⟩
  · rw [hsame] at hw
    obtain ⟨w₀, hw₀, rfl⟩ := map_eq_some_iff.mp hw
    rw [link_token]
    exact hover w₀ hw₀
  · rw [hnone] at hw
    cases hw
  · obtain rfl : w' = w := some.inj (hw'.symm.trans hw)
    exact hmade.ne_sleeps hnew hsleeps

theorem over_run_wake (h : Chain (Takes config P) e since d)
    (hnew : ∀ x ∈ since, x.id ∉ first.map Input.id) (hover : ∀ w, e.records.wake j = some w → w.token ≠ t) :
    ∀ w, d.records.wake j = some w → w.token ≠ t := by
  induction h generalizing log with
  | refl => exact hover
  | cons hstep _ ih =>
    obtain ⟨input, out, rfl, -, hstep⟩ := hstep
    exact ih (hlog.step hstep) (fun x hx => hnew x (mem_cons_of_mem _ hx))
      (over_step_wake hlog hmade (hnew input (by simp)) hstep hover)

theorem linked_step (hnew : input.id ∉ first.map Input.id)
    (hstep : e.step config input = .ok (d, out)) (hr : input.sets j t = true → input.id = r)
    (hlinked : input.sets j t = false → ∀ w, e.records.wake j = some w → w.token = t → w.request = some r) :
    ∀ w, d.records.wake j = some w → w.token = t → w.request = some r := by
  intro w hw htoken
  rcases step_wake (j := j) hlog.mode hlog.named hstep with hsame | hnone | ⟨w', hw', hsleeps⟩
  · rw [hsame] at hw
    obtain ⟨w₀, hw₀, rfl⟩ := map_eq_some_iff.mp hw
    rw [link_token] at htoken
    unfold Input.link
    rw [htoken]
    split
    · next hsets => exact congrArg some (hr hsets)
    · next hsets => exact hlinked (by simpa using hsets) w₀ hw₀ htoken
  · rw [hnone] at hw
    cases hw
  · obtain rfl : w' = w := some.inj (hw'.symm.trans hw)
    exact absurd htoken (hmade.ne_sleeps hnew hsleeps)

theorem linked_run (h : Chain (Takes config P) e since d)
    (hnew : ∀ x ∈ since, x.id ∉ first.map Input.id) (hother : ∀ x ∈ since, x.sets j t = false)
    (hlinked : ∀ w, e.records.wake j = some w → w.token = t → w.request = some r) :
    ∀ w, d.records.wake j = some w → w.token = t → w.request = some r := by
  induction h generalizing log with
  | refl => exact hlinked
  | cons hstep _ ih =>
    obtain ⟨input, out, rfl, -, hstep⟩ := hstep
    have hquiet : input.sets j t = false := hother input (by simp)
    exact ih (hlog.step hstep) (fun x hx => hnew x (mem_cons_of_mem _ hx))
      (fun x hx => hother x (mem_cons_of_mem _ hx))
      (linked_step hlog hmade (hnew input (by simp)) hstep (fun hsets => by simp [hquiet] at hsets) fun _ => hlinked)

end

theorem timerFired_unseen (hkind : input.kind = .timerFired) : e.seen input = false := by
  simp [seen, resultKey, hkind, Kind.resultPrefix]

theorem rouses_over (hlog : Timed e log) (hnew : input.id ∉ log.map Input.id) (h : e.rouses config input j = true)
    (hw : Made log j t) (hstep : e.step config input = .ok (d, out)) : ∀ w, d.records.wake j = some w → w.token ≠ t := by
  obtain ⟨-, -, e₁, answer, -, -, -, -, -, hhandled, hnone⟩ := rouses_wake hlog.mode h
  have hkind : input.kind = .timerFired := by
    simp only [rouses, Bool.and_eq_true, decide_eq_true_eq] at h
    exact h.1.1
  obtain ⟨e₂, answer', requests, hhandled', hdrained, hidle⟩ :=
    step_cases hlog.mode (by simp [hkind]) (by simp [hkind]) (timerFired_unseen hkind) hstep
  obtain ⟨rfl, -⟩ := Prod.mk.inj (Except.ok.inj (hhandled.symm.trans hhandled'))
  have hnamed : e₁.records.named := by
    have hedits : Edits (· = input.id) _ _ :=
      (handled_edited (congrArg Prod.fst ((met_mode e input).trans hlog.mode))).of_ok hhandled
    refine named_edits hedits fun k f' hf' => ?_
    rw [met_records] at hf'
    obtain ⟨f, hf, hid, -⟩ := handled_face hf'
    exact hid.trans (hlog.named k f hf)
  have hdrained := (drain_edited (C := (· = input.id)) (congrArg Prod.fst hidle) rfl).of_ok hdrained
  intro w hw'
  rcases edits_wake (j := j) hdrained hnamed with hsame | hgone | ⟨w', hw'', hsleeps⟩
  · rw [hsame, hnone] at hw'
    cases hw'
  · rw [hgone] at hw'
    cases hw'
  · obtain rfl : w' = w := some.inj (hw''.symm.trans hw')
    exact hw.ne_sleeps hnew hsleeps

/-- A timer that is linked with the sleep of a job and comes when it is due makes the job runnable. -/
theorem rouses_of_linked {job : Job} {w : Wake} (hlog : Timed e log) (hids : (log.map Input.id).Nodup)
    (hjob : e.jobs.find j = some job) (hasleep : job.status.suspended = true) (hw : job.wake = some w)
    (hlinked : w.request = some r) (hkind : input.kind = .timerFired)
    (hrequest : input.value.getStr "requestEventId" = some r) (hdue : w.dueAtMs ≤ input.nowMs)
    (hstep : e.step config input = .ok (d, out)) : e.rouses config input j = true := by
  have hscheduling : (e.met input).scheduling = false := congrArg Prod.fst ((met_mode e input).trans hlog.mode)
  -- the event is handled without a panic, since the step ends
  obtain ⟨e₁, answer, -, hhandled, -⟩ :=
    step_cases hlog.mode (by simp [hkind]) (by simp [hkind]) (timerFired_unseen hkind) hstep
  have hfired : (e.met input).timerFired config input.value input.id = .ok (e₁, answer) := by
    rw [hkind] at hhandled
    exact hhandled
  -- the job is the one the timer is for: no other is linked with it
  have hwoken : ∃ job', (e.met input).woken input.value = some (j, job') ∧ job'.status = job.status := by
    obtain ⟨job', hjob', hstatus, hwake, hrevision⟩ := job_met hjob input
    have hwakes : (e.met input).wakes r job' = true := by
      have hcurrent : w.revision = job.revision := hlog.upToDate j job.face w (records_face hjob) hw
      have hnow : (e.met input).nowMs = input.nowMs := congrArg View.now (met_view e input)
      simp [wakes, hwake, hw, hlinked, hrevision, hcurrent, hnow, hdue]
    cases hfound : (e.met input).woken input.value with
    | none =>
      have hnot := find?_eq_none.mp hfound (j, job') (Map.find_eq_some.mp hjob')
      simp [hrequest, hwakes] at hnot
    | some row =>
      obtain ⟨k, other⟩ := row
      have hother : (e.met input).jobs.find k = some other := Map.find_eq_some.mpr (mem_of_find?_eq_some hfound)
      obtain rfl : k = j := by
        obtain ⟨job₀, hjob₀, -, hwake₀, -⟩ := met_job hother
        have hwakes' := find?_some hfound
        unfold wakes at hwakes'
        split at hwakes'
        · next w' hw' =>
          simp only [Bool.and_eq_true, decide_eq_true_eq, hrequest, getD_some] at hwakes'
          obtain ⟨set, hset, hsets, hid⟩ := hlog.linked j w r ((records_wake hjob).trans hw) hlinked
          obtain ⟨set', hset', hsets', hid'⟩ := hlog.linked k w' r
            ((records_wake hjob₀).trans (hwake₀.trans hw')) hwakes'.1.1
          obtain rfl : set' = set := inj_on_of_nodup_map hids hset' hset (hid'.trans hid.symm)
          simp only [Input.sets, Bool.and_eq_true, decide_eq_true_eq] at hsets hsets'
          exact some.inj (hsets'.1.2.symm.trans hsets.1.2)
        · cases hwakes'
      exact ⟨other, rfl, by rw [← hstatus, some.inj (hother.symm.trans hjob')]⟩
  obtain ⟨job', hwoken, hstatus⟩ := hwoken
  have hjobs := (timerFired_jobs hscheduling).of_ok hfired
  rw [hwoken] at hjobs
  obtain ⟨job'', -, hrunnable, hinsert⟩ := hjobs
  have hafter : e₁.jobs.find j = some job'' := by rw [hinsert, Map.find_insert_self]
  simp only [rouses, hkind, hjob, any_some, hasleep]
  rw [hkind] at hhandled
  simp [hhandled, hafter, hrunnable (hstatus ▸ hasleep)]

/-- The log holds the timer of a sleep of the job: it came while the job slept, and no other with its token came since. -/
def Engine.HoldsTimer (config : Config) (P : Engine → Input → Bool) (log : List Input) (e : Engine) (j t : String)
    (set : Input) : Prop :=
  ∃ first since e₁ w, log = first ++ set :: since ∧ Chain (Takes config P) {} first e₁ ∧
    Chain (Takes config P) e₁ (set :: since) e ∧ e₁.wake j = some w ∧ w.token = t ∧ set.sets j t = true ∧
    ∀ x ∈ since, x.sets j t = false

theorem Engine.HoldsTimer.linked {w : Wake} (h : HoldsTimer config P log e j t set) (hids : (log.map Input.id).Nodup)
    (hw : e.wake j = some w) (htoken : w.token = t) : w.request = some set.id := by
  obtain ⟨first, since, e₁, w₁, rfl, hfirst, hsince, hw₁, htoken₁, hsets, hother⟩ := h
  have hlog₁ : Timed e₁ first := timed_run timed_default hfirst
  have hmade : Made first j t := by
    obtain ⟨revision, due, x, hx, heq⟩ := hlog₁.asleep j w₁ ((wake_records e₁ j).trans hw₁)
    exact ⟨revision, due, x, hx, htoken₁ ▸ heq⟩
  have hnew : ∀ x ∈ set :: since, x.id ∉ first.map Input.id := by
    intro x hx hmem
    rw [map_append, nodup_append] at hids
    exact hids.2.2 x.id hmem x.id (mem_map_of_mem hx) rfl
  obtain ⟨e₂, out, hstep, hrest⟩ := takes_cons hsince
  have hset := linked_step hlog₁ hmade (hnew set (by simp)) hstep (fun _ => rfl) fun hnot => by simp [hsets] at hnot
  have hlinked := linked_run (hlog₁.step hstep) hmade hrest (fun x hx => hnew x (mem_cons_of_mem _ hx)) hother hset
  exact hlinked w ((wake_records e j).trans hw) htoken

/-- Wakes are neither early, nor for another revision or sleep, nor repeated; and in a run of guarded steps none is
lost whose timer was not overtaken by a copy. -/
theorem wakes_kept (hrun : Chain (Engine.Takes config P) {} log e) (hids : ((log ++ [input]).map Input.id).Nodup) :
    (∀ j, e.rouses config input j = true → ∃ job w, e.jobs.find j = some job ∧ job.wake = some w ∧
      w.dueAtMs ≤ input.nowMs ∧ w.revision = job.revision ∧
      (∃ set ∈ log, set.sets j w.token = true ∧ (input.value.getStr "requestEventId").getD "" = set.id) ∧
      ∀ d out later e₁ w₁, e.step config input = .ok (d, out) → Chain (Engine.Takes config P) d later e₁ →
        ((log ++ input :: later).map Input.id).Nodup → e₁.wake j = some w₁ → w₁.token ≠ w.token) ∧
    ((∀ e input, P e input = true → e.guarded input = true) → e.guarded input = true →
      ∀ j job w set, e.jobs.find j = some job → job.status.suspended = true → job.wake = some w →
        Engine.HoldsTimer config P log e j w.token set → input.kind = .timerFired →
        input.value.getStr "requestEventId" = some set.id → w.dueAtMs ≤ input.nowMs → e.rouses config input j = true) := by
  have hlog : Timed e log := timed_run timed_default hrun
  rw [map_append, nodup_append] at hids
  refine ⟨fun j hrouses => ?_, fun hguards hguarded j job w set hjob hasleep hw htimer hkind hrequest hdue => ?_⟩
  · obtain ⟨job, w, -, -, hjob, hw, hlinked, hrevision, hdue, -⟩ := rouses_wake hlog.mode hrouses
    have hwake : e.records.wake j = some w := (records_wake hjob).trans hw
    obtain ⟨set, hset, hsets, hid⟩ := hlog.linked j w _ hwake hlinked
    refine ⟨job, w, hjob, hw, hdue, hrevision, ⟨set, hset, hsets, hid.symm⟩, fun d out later e₁ w₁ hstep hlater hall hw₁ => ?_⟩
    rw [map_append, nodup_append] at hall
    have hnew : ∀ x ∈ input :: later, x.id ∉ log.map Input.id := fun x hx hmem =>
      hall.2.2 x.id hmem x.id (mem_map_of_mem hx) rfl
    have hmade : Made log j w.token := hlog.asleep j w hwake
    have hover := rouses_over hlog (hnew input (by simp)) hrouses hmade hstep
    exact over_run_wake (hlog.step hstep) hmade hlater (fun x hx => hnew x (mem_cons_of_mem _ hx)) hover w₁
      ((wake_records e₁ j).trans hw₁)
  · obtain ⟨out, hsteps⟩ := steps_of_takes hguards hrun
    obtain ⟨d, drafts, hstep⟩ := sound_step (sound_run hsteps) hguarded
    have hwake : e.wake j = some w := (wake_records e j).symm.trans ((records_wake hjob).trans hw)
    exact rouses_of_linked hlog hids.1 hjob hasleep hw (htimer.linked hids.1 hwake rfl) hkind hrequest hdue hstep

def sleepTimer (id : String) : Input :=
  { id := id
    kind := .timerSet
    value := .object [
      ("dueAtMs", Json.ofInt 1000),
      ("jobId", .string "a"),
      ("revision", Json.ofNat 0),
      ("wakeToken", .string "a:0:m:1000")] }

def fired (id request : String) (nowMs : Int) : Input :=
  { id := id, kind := .timerFired, value := .object [("requestEventId", .string request)], nowMs := nowMs }

def sleepUntil : List Input :=
  [Engine.received "a" (Engine.message "c"),
    Engine.answered "m" "a:model:0:1" "yield" [("action", .string "wait"), ("dueAtMs", Json.ofInt 1000)]]

theorem wakes_kept_due : ∃ e, Chain (Engine.Takes Engine.bare Engine.guarded) {} (sleepUntil ++ [sleepTimer "t"]) e ∧
    e.rouses Engine.bare (fired "f" "t" 1000) "a" = true := by
  have hsome : (runs bare guarded sleepUntil {}).any (fun r =>
      (runs bare guarded [sleepTimer "t"] r.1).any fun r' =>
        ((r.1.wake "a").any fun w => w.token = "a:0:m:1000") && r'.1.guarded (fired "f" "t" 1000) &&
          (r'.1.jobs.find "a").any fun job => job.status.suspended &&
            job.wake.any fun w => w.token = "a:0:m:1000" && w.dueAtMs ≤ 1000) = true := by
    decide +kernel
  obtain ⟨⟨e₁, out₁⟩, hfirst, hsome⟩ := (Option.any_eq_true _ _).mp hsome
  obtain ⟨⟨e, out⟩, hsecond, hsome⟩ := (Option.any_eq_true _ _).mp hsome
  simp only [Bool.and_eq_true, Option.any_eq_true, decide_eq_true_eq] at hsome
  obtain ⟨⟨⟨w₁, hw₁, htoken₁⟩, hguarded⟩, job, hjob, hasleep, w, hw, htoken, hdue⟩ := hsome
  have hrun := (takes_of_runs hfirst).trans (takes_of_runs hsecond)
  have htimer : HoldsTimer bare guarded (sleepUntil ++ [sleepTimer "t"]) e "a" w.token (sleepTimer "t") :=
    ⟨sleepUntil, [], e₁, w₁, rfl, takes_of_runs hfirst, takes_of_runs hsecond, hw₁, htoken₁.trans htoken.symm,
      by rw [htoken]; decide +kernel, nofun⟩
  exact ⟨e, hrun, (wakes_kept hrun (by decide +kernel)).2 (fun _ _ h => h) hguarded "a" job w (sleepTimer "t") hjob hasleep
    hw htimer rfl rfl hdue⟩

/-- A copy of the job's own timer is taken for it: the own timer fires when the sleep is due, and the job sleeps on. -/
theorem wake_stolen : ∃ e₁ out e, Chain (Engine.Steps Engine.bare Engine.guarded) {} out e₁ ∧
    (out.any fun draft => draft.kind = .timerSet && Json.object draft.payload = (sleepTimer "t").value) = true ∧
    Chain (Engine.Takes Engine.bare Engine.guarded) e₁ [sleepTimer "t", sleepTimer "copy"] e ∧
    ((e.wake "a").any fun w => (sleepTimer "t").sets "a" w.token && w.dueAtMs ≤ 1000) = true ∧
    e.guarded (fired "f" "t" 1000) = true ∧ e.rouses Engine.bare (fired "f" "t" 1000) "a" = false := by
  have hsome : (runs bare guarded sleepUntil {}).any (fun r =>
      (runs bare guarded [sleepTimer "t", sleepTimer "copy"] r.1).any fun r' =>
        (r.2.any fun draft => draft.kind = .timerSet && Json.object draft.payload = (sleepTimer "t").value) &&
        ((r'.1.wake "a").any fun w => (sleepTimer "t").sets "a" w.token && w.dueAtMs ≤ 1000) &&
        r'.1.guarded (fired "f" "t" 1000) && !r'.1.rouses bare (fired "f" "t" 1000) "a") = true := by
    decide +kernel
  obtain ⟨⟨e₁, out₁⟩, hfirst, hsome⟩ := (Option.any_eq_true _ _).mp hsome
  obtain ⟨⟨e, out⟩, hsecond, hsome⟩ := (Option.any_eq_true _ _).mp hsome
  simp only [Bool.and_eq_true, Bool.not_eq_true'] at hsome
  obtain ⟨⟨⟨hown, hasleep⟩, hguarded⟩, hlost⟩ := hsome
  exact ⟨e₁, out₁, e, chain_of_runs hfirst, hown, takes_of_runs hsecond, hasleep, hguarded, hlost⟩

end Runs

end Pluribus.Rlm
