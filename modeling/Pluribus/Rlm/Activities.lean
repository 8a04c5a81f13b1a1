import Pluribus.Rlm.Records
import Pluribus.Rlm.Safety

namespace Pluribus.Rlm

open Lib List

open Engine

/-- A job that has ended, without sessions and without requests it waits for or whose outcome is unknown; the oldest of
these are retired. -/
def Engine.inactive (e : Engine) (job : Job) : Bool :=
  job.status.ended && !(e.tasks.values.any fun task => task.root = job.id) &&
    !(job.activities.values.any fun activity => unresolved activity || outstanding activity)

/-- A request that is waited for or, where that counts, whose outcome is in doubt. -/
def pending (doubt : Bool) (activity : Fields) : Bool := outstanding activity || doubt && unresolved activity

section Answers

def Engine.Input.request (input : Input) : String := ((input.value.getStr "requestEventId").or input.cause).getD ""

def Engine.Input.answers (input : Input) (q : String) : Bool := input.kind.settles && input.request = q

/-- The event says that the request is tried again or, where that counts, that it is not known what came of it. -/
def Engine.Input.reopens (doubt : Bool) (input : Input) (q : String) : Bool :=
  input.answers q && (input.kind = .activityAttempted || doubt && (input.kind = .activityUnknown ||
    input.value.index "code" = .string "outcome-unknown" || input.value.index "outcome" = .string "unknown"))

def Records.answered (x : Records) (doubt : Bool) (q : String) : Prop :=
  ∀ j f activity, x.faces j = some f → f.activities.find q = some activity → pending doubt activity = false

variable {C : String → Prop} {config : Config} {e d : Engine} {input : Input} {x y : Records} {q : String}
  {out : List Draft} {doubt : Bool}

attribute [local grind =] Records.setFace_faces Records.setInbox_faces Map.find_empty

theorem answered_edits (h : Edits C x y) (hx : x.answered doubt q) : y.answered doubt q := by
  induction h with
  | refl => exact hx
  | tail _ last ih =>
    intro j f activity hf hactivity
    unfold Records.answered at ih
    cases last <;> grind

theorem name_settles {kind : Kind} (h : kind.settles = true) : kind.name ≠ "queued" ∧ kind.name ≠ "running" ∧
    (kind ≠ .activityUnknown → kind.name ≠ "activity.unknown") := by
  cases kind with
  | other name _ =>
    refine ⟨?_, ?_, fun _ => ?_⟩
    all_goals
      rintro rfl
      rw [Kind.settles] at h
      exact absurd h (by decide)
  | _ => exact ⟨by decide, by decide, by decide⟩

theorem pending_status {status : String} {result resultId : Json} {activity : Fields} :
    pending doubt (((activity.set "status" (.string status)).set "result" result).set "resultId" resultId) =
      (status = "queued" || status = "running" || doubt && (status = "activity.unknown" ||
        result.index "code" = .string "outcome-unknown" || result.index "outcome" = .string "unknown")) := by
  simp [pending, outstanding, unresolved, Fields.index_set]

/-- A large result is kept with the code and the outcome it has. -/
theorem index_activityResult {id field text : String} {value : Json} (hfield : field = "code" ∨ field = "outcome")
    (h : (activityResult id value).index field = .string text) : value.index field = .string text := by
  unfold activityResult at h
  split at h
  · exact h
  have hread : ∀ json : Json, json.asStr = none ∨ ∃ text, json = .string text := by
    intro json
    cases json <;> simp [Json.asStr]
  have hstring : ∀ text, (Json.string text).asStr = some text := fun _ => rfl
  dsimp only at h
  generalize hcode : value.index "code" = code at h
  generalize houtcome : value.index "outcome" = outcome at h
  rcases hfield with rfl | rfl
  all_goals
    first | rw [hcode] | rw [houtcome]
    rcases hread code with hcode | ⟨code, rfl⟩ <;> rcases hread outcome with houtcome | ⟨outcome, rfl⟩ <;>
      simp only [hcode, houtcome, hstring] at h <;> (try split_ifs at h) <;>
      simp_all [Json.index, Json.get, Table.find]

theorem pending_report {activity : Fields} (hanswers : input.answers q = true) (hclosed : input.reopens doubt q = false) :
    pending doubt (((activity.set "status" (.string (if input.kind = .activityAttempted then "running" else input.kind.name))).set
      "result" (activityResult input.id input.value)).set "resultId" (.string input.id)) = false := by
  simp only [Input.reopens, hanswers, Bool.true_and, Bool.or_eq_false_iff, decide_eq_false_iff_not] at hclosed
  obtain ⟨hqueued, hrunning, hunknown⟩ := name_settles (Bool.and_eq_true_iff.mp hanswers).1
  rw [if_neg hclosed.1, pending_status]
  cases doubt with
  | false => simp [hqueued, hrunning]
  | true =>
    simp only [Bool.true_and, Bool.or_eq_false_iff, decide_eq_false_iff_not] at hclosed ⊢
    exact ⟨⟨hqueued, hrunning⟩, ⟨hunknown hclosed.2.1.1, fun h => hclosed.2.1.2 (index_activityResult (.inl rfl) h)⟩,
      fun h => hclosed.2.2 (index_activityResult (.inr rfl) h)⟩

/-- After an event that ends the request, or one that neither begins nor reopens it, it is not pending. -/
theorem answered_tally {j : String} {activities : Map String Fields} {activity : Fields}
    (hactivity : (input.tally j activities).find q = some activity) (hnew : input.id ≠ q)
    (hclosed : input.reopens doubt q = false)
    (hold : input.answers q = false → ∀ activity, activities.find q = some activity → pending doubt activity = false) :
    pending doubt activity = false := by
  unfold Input.tally at hactivity
  split at hactivity
  · next hrequests =>
    have hquiet : input.answers q = false := by
      cases hkind : input.kind <;> simp_all [Kind.requests, Input.answers, Kind.settles]
    split at hactivity
    · rw [Map.find_insert, if_neg hnew] at hactivity
      exact hold hquiet activity hactivity
    · exact hold hquiet activity hactivity
  · split at hactivity
    · next hsettles =>
      rw [Map.find_modify] at hactivity
      split at hactivity
      · next hq =>
        obtain ⟨activity₀, -, rfl⟩ := Option.map_eq_some_iff.mp hactivity
        exact pending_report (by simp [Input.answers, Input.request, hsettles, hq]) hclosed
      · next hq =>
        have hother : input.request ≠ q := fun heq => hq heq.symm
        exact hold (by simp [Input.answers, hother]) activity hactivity
    · next hsettles => exact hold (by simp [Input.answers, hsettles]) activity hactivity

theorem answered_reconcile {activities : Map String Fields} {activity : Fields}
    (hactivity : (input.reconcile activities).find q = some activity)
    (hold : ∀ activity, activities.find q = some activity → pending doubt activity = false) :
    pending doubt activity = false := by
  unfold Input.reconcile at hactivity
  dsimp only at hactivity
  split at hactivity
  · exact hold activity hactivity
  · split at hactivity
    · next hunresolved =>
      rw [Map.find_modify] at hactivity
      split at hactivity
      · next hq =>
        obtain ⟨activity₀, hactivity₀, rfl⟩ := Option.map_eq_some_iff.mp hactivity
        have hbefore := hold activity₀ hactivity₀
        rw [← hq, hactivity₀, Option.any_some] at hunresolved
        rw [pending, hunresolved, Bool.and_true, Bool.or_eq_false_iff] at hbefore
        have houtcome : ∀ text, "reconciled." ++ text ≠ "queued" ∧ "reconciled." ++ text ≠ "running" := by
          intro text
          constructor
          all_goals
            intro heq
            simpa using congrArg (fun t => t.toList.take 2) heq
        rw [pending_status, hbefore.2]
        simp [(houtcome _).1, (houtcome _).2]
      · exact hold activity hactivity
    · exact hold activity hactivity

theorem linked_activities {f : Face} {j : String} (h : (linked input x).faces j = some f) :
    ∃ f₀, x.faces j = some f₀ ∧ f.activities = f₀.activities := by
  unfold linked at h
  split at h
  · simp only [Records.link] at h
    split at h
    · obtain ⟨f₀, hf₀, rfl⟩ := Option.map_eq_some_iff.mp h
      exact ⟨f₀, hf₀, rfl⟩
    · exact ⟨f, h, rfl⟩
  · exact ⟨f, h, rfl⟩

/-- After a step on an event that ends the request, or on one that does not touch it, it is not pending. -/
theorem answered_step (hmode : e.mode = (false, .empty)) (hnew : input.id ≠ q) (hclosed : input.reopens doubt q = false)
    (hold : e.records.answered doubt q ∨ input.answers q = true ∧ e.seen input = false)
    (hstep : e.step config input = .ok (d, out)) : d.records.answered doubt q := by
  refine answered_edits (step_records hmode hstep) fun j f activity hf hactivity => ?_
  obtain ⟨f₁, hf₁, hsame⟩ := linked_activities hf
  obtain ⟨f₀, hf₀, rfl⟩ := Option.map_eq_some_iff.mp hf₁
  rw [hsame] at hactivity
  have hbefore : e.records.answered doubt q → ∀ activity, f₀.activities.find q = some activity →
      pending doubt activity = false := fun hold activity => hold j f₀ activity hf₀
  dsimp only [tallying] at hactivity
  split at hactivity
  · next hkind =>
    rcases hold with hold | ⟨hanswers, -⟩
    · exact hbefore hold activity hactivity
    · simp [Input.answers, hkind, Kind.settles] at hanswers
  · next hkind =>
    rcases hold with hold | ⟨hanswers, -⟩
    · exact answered_reconcile hactivity (hbefore hold)
    · simp [Input.answers, hkind, Kind.settles] at hanswers
  · split at hactivity
    · next hseen =>
      rcases hold with hold | ⟨-, hunseen⟩
      · exact hbefore hold activity hactivity
      · simp [hseen] at hunseen
    · refine answered_tally hactivity hnew hclosed fun hquiet => ?_
      rcases hold with hold | ⟨hanswers, -⟩
      · exact hbefore hold
      · simp [hquiet] at hanswers

end Answers

section Runs

variable {config : Config} {P : Engine → Input → Bool} {e d : Engine} {log since : List Input} {q : String} {doubt : Bool}

theorem answered_run (hmode : e.mode = (false, .empty)) (hold : e.records.answered doubt q)
    (h : Chain (Takes config P) e since d) (hnew : q ∉ since.map Input.id)
    (hclosed : ∀ y ∈ since, y.reopens doubt q = false) : d.records.answered doubt q := by
  induction h with
  | refl => exact hold
  | cons hstep _ ih =>
    obtain ⟨input, out, rfl, -, hstep⟩ := hstep
    simp only [map_append, map_cons, map_nil, mem_append, mem_singleton, not_or] at hnew
    have hnext := answered_step hmode (Ne.symm hnew.1) (hclosed input (by simp)) (.inl hold) hstep
    exact ih (step_mode hmode hstep) hnext hnew.2 fun y hy => hclosed y (mem_append_right _ hy)

/-- The log holds the end of the request: the first result that names it, and nothing since that opens it again. -/
def Engine.Ended (config : Config) (P : Engine → Input → Bool) (log : List Input) (e : Engine) (q : String)
    (doubt : Bool) : Prop :=
  ∃ first x since e₁, log = first ++ x :: since ∧ Chain (Takes config P) {} first e₁ ∧
    Chain (Takes config P) e₁ (x :: since) e ∧ x.answers q = true ∧ e₁.seen x = false ∧
    q ∉ (x :: since).map Input.id ∧ ∀ y ∈ x :: since, y.reopens doubt q = false

theorem Engine.Ended.answered (h : Ended config P log e q doubt) : e.records.answered doubt q := by
  obtain ⟨first, x, since, e₁, rfl, hfirst, hsince, hanswers, hseen, hnew, hclosed⟩ := h
  have hmode : e₁.mode = (false, .empty) := mode_run rfl hfirst
  obtain ⟨e₂, out, hstep, hrest⟩ := takes_cons hsince
  rw [map_cons, mem_cons, not_or] at hnew
  rw [forall_mem_cons] at hclosed
  have hnext := answered_step hmode (Ne.symm hnew.1) hclosed.1 (.inr ⟨hanswers, hseen⟩) hstep
  exact answered_run (step_mode hmode hstep) hnext hrest hnew.2 hclosed.2

/-- A request that has ended under its own event is not waited for any more, and a job all of whose requests have ended
with a known outcome can be retired once it has ended. -/
theorem activities_settle :
    (∀ q, Engine.Ended config P log e q false → ∀ j job activity, e.jobs.find j = some job →
      job.activities.find q = some activity → outstanding activity = false) ∧
    (∀ j job, e.jobs.find j = some job → job.status.ended = true → (∀ task ∈ e.tasks.values, task.root ≠ job.id) →
      (∀ q, job.activities.find q ≠ none → Engine.Ended config P log e q true) → e.inactive job = true) := by
  have hanswered : ∀ q doubt, Ended config P log e q doubt → ∀ j job activity, e.jobs.find j = some job →
      job.activities.find q = some activity → pending doubt activity = false :=
    fun q doubt hended j job activity hjob hactivity => hended.answered j job.face activity (records_face hjob) hactivity
  constructor
  · intro q hended j job activity hjob hactivity
    simpa [pending] using hanswered q false hended j job activity hjob hactivity
  intro j job hjob hended halone hall
  have hactivities : ∀ activity ∈ job.activities.values, unresolved activity = false ∧ outstanding activity = false := by
    intro activity hmem
    obtain ⟨q, hq⟩ := Map.mem_values.mp hmem
    have hdone := hanswered q true (hall q (by simp [hq])) j job activity hjob hq
    rw [pending, Bool.true_and, Bool.or_eq_false_iff] at hdone
    exact hdone.symm
  simp only [inactive, hended, Bool.true_and, Bool.and_eq_true, Bool.not_eq_true', any_eq_false, decide_eq_true_eq,
    Bool.or_eq_true, not_or, Bool.not_eq_true]
  exact ⟨halone, hactivities⟩

def cellRequested : Input :=
  { id := "q"
    kind := .codeEvaluateRequested
    value := .object [("jobId", .string "a"), ("revision", Json.ofNat 0), ("sessionId", .string "a")] }

def cellAnswered (id : String) (kind : Kind) (request : String) : Input :=
  { id := id
    kind := kind
    value := .object [
      ("id", Json.ofNat 1),
      ("method", .string "fetch"),
      ("requestEventId", .string request),
      ("sessionId", .string "a")] }

def cellStarted : List Input :=
  [Engine.received "a" (Engine.message "c"), Engine.answered "m" "a:model:0:1" "js" [("code", .string "x")], cellRequested]

/-- The cell completes, and then the job. -/
def cellCompleted : List Input :=
  [cellAnswered "c" .codeCompleted "q", Engine.answered "m2" "a:model:0:2" "yield" [("action", .string "complete")]]

theorem activities_settle_cell : ∃ e, Engine.Ended Engine.bare Engine.guarded (cellStarted ++ cellCompleted) e "q" true ∧
    ∃ job activity, e.jobs.find "a" = some job ∧ job.activities.find "q" = some activity ∧ outstanding activity = false ∧
      e.inactive job = true := by
  have hsome : (runs bare guarded cellStarted {}).any (fun r =>
      !r.1.seen (cellAnswered "c" .codeCompleted "q") && (runs bare guarded cellCompleted r.1).any fun r' =>
        decide (r'.1.tasks.values.length = 0) && (r'.1.jobs.find "a").any fun job =>
          job.status.ended && decide (job.activities.keys = ["q"])) = true := by
    decide +kernel
  obtain ⟨⟨e₁, out₁⟩, hfirst, hsome⟩ := (Option.any_eq_true _ _).mp hsome
  obtain ⟨hseen, hsome⟩ := Bool.and_eq_true_iff.mp hsome
  obtain ⟨⟨e, out⟩, hsecond, hsome⟩ := (Option.any_eq_true _ _).mp hsome
  simp only [Bool.and_eq_true, Option.any_eq_true, decide_eq_true_eq] at hsome
  obtain ⟨halone, job, hjob, hstatus, hkeys⟩ := hsome
  have hended : ∀ doubt, Ended bare guarded (cellStarted ++ cellCompleted) e "q" doubt := fun doubt =>
    ⟨cellStarted, _, _, e₁, rfl, takes_of_runs hfirst, takes_of_runs hsecond, by decide +kernel,
      by simpa using hseen, by decide +kernel, by cases doubt <;> decide +kernel⟩
  obtain ⟨activity, hactivity⟩ := Map.mem_keys.mp (hkeys ▸ mem_singleton_self "q")
  refine ⟨e, hended true, job, activity, hjob, hactivity,
    activities_settle.1 "q" (hended false) "a" job activity hjob hactivity,
    (@activities_settle bare guarded e (cellStarted ++ cellCompleted)).2 "a" job hjob hstatus (by simp [length_eq_zero_iff.mp halone])
      fun q hq => ?_⟩
  obtain ⟨activity', hactivity'⟩ := Option.ne_none_iff_exists'.mp hq
  have hmem := Map.mem_keys.mpr ⟨activity', hactivity'⟩
  rw [hkeys, mem_singleton] at hmem
  exact hmem ▸ hended true

/-- The cell yields, is resumed under the event `r` and completes; then the job does. -/
def cellYielded : List Input :=
  [cellAnswered "y" .codeYielded "q",
    { id := "r", kind := .codeResumed, value := .object [("id", Json.ofNat 1), ("sessionId", .string "a")] },
    cellAnswered "c" .codeCompleted "r",
    Engine.answered "m2" "a:model:0:2" "yield" [("action", .string "complete")]]

/-- A cell that has yielded is answered under the event that resumed it: its request is waited for although it has
completed, and the job is never retired. -/
theorem yielded_cell_outstanding : ∃ e, Chain (Engine.Takes Engine.bare Engine.guarded) {} (cellStarted ++ cellYielded) e ∧
    e.tasks.values.length = 0 ∧ ∃ job activity, e.jobs.find "a" = some job ∧ job.status.ended = true ∧
      job.activities.find "q" = some activity ∧ outstanding activity = true ∧ e.inactive job = false := by
  have hsome : (runs bare guarded (cellStarted ++ cellYielded) {}).any (fun r =>
      decide (r.1.tasks.values.length = 0) && (r.1.jobs.find "a").any fun job =>
        job.status.ended && (job.activities.find "q").any outstanding && !r.1.inactive job) = true := by
    decide +kernel
  obtain ⟨⟨e, out⟩, hruns, hsome⟩ := (Option.any_eq_true _ _).mp hsome
  simp only [Bool.and_eq_true, Option.any_eq_true, decide_eq_true_eq, Bool.not_eq_true'] at hsome
  obtain ⟨halone, job, hjob, ⟨hended, activity, hactivity, houtstanding⟩, hinactive⟩ := hsome
  exact ⟨e, takes_of_runs hruns, halone, job, activity, hjob, hended, hactivity, houtstanding, hinactive⟩

end Runs

end Pluribus.Rlm
