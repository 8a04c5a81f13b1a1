import Mathlib.Logic.Relation
import Pluribus.Rlm.Queue

namespace Pluribus.Rlm

open Lib Option

/-- What a job is bound to: its revision, its wake, where it comes from and what it has asked for. -/
structure Face where
  id : String
  revision : Nat
  wake : Option Wake
  sources : List String
  activities : Map String Fields

def Job.face (job : Job) : Face := ⟨job.id, job.revision, job.wake, job.sources, job.activities⟩

/-- The jobs and the observations of an engine, and whether its scheduler is at work. -/
@[ext]
structure Records where
  faces : String → Option Face
  inbox : String → Option Observation
  mode : Bool × Map String Json

def Engine.records (e : Engine) : Records := ⟨e.jobs.through Job.face, e.inbox.find, e.mode⟩

namespace Records

variable (x : Records)

@[simps]
def setFace (j : String) (face : Face) : Records := { x with faces := Function.update x.faces j (some face) }

@[simps]
def setInbox (o : String) (observation : Observation) : Records :=
  { x with inbox := Function.update x.inbox o (some observation) }

end Records

def wakeToken (job : String) (revision : Nat) (cause : String) (due : Int) : String :=
  job ++ ":" ++ revision.repr ++ ":" ++ cause ++ ":" ++ due.repr

def remarks : List String := ["intent", "resolvedClarification"]

/-- The edits of the records; jobs are put to sleep on behalf of the events of `C`. -/
inductive Edit (C : String → Prop) : Records → Records → Prop
  | sleep {x j f} (cause : String) (due : Int) (hcause : C cause) (hj : x.faces j = some f) :
      Edit C x (x.setFace j { f with
        wake := some ⟨wakeToken f.id f.revision cause due, none, f.revision, due⟩ })
  | rise {x j f} (hj : x.faces j = some f) : Edit C x (x.setFace j { f with wake := none })
  | amend {x j f} (o : String) (hj : x.faces j = some f) :
      Edit C x (x.setFace j { f with revision := f.revision + 1, wake := none, sources := f.sources ++ [o] })
  | order {x j f} (hj : x.faces j = some f) :
      Edit C x (x.setFace j { f with revision := f.revision + 1, wake := none })
  | cite {x j f} (o : String) (hj : x.faces j = some f) :
      Edit C x (x.setFace j { f with sources := f.sources ++ [o] })
  | create {x} (j : String) (sources : List String) : Edit C x (x.setFace j ⟨j, 0, none, sources, .empty⟩)
  | receive {x} (o : String) (observation : Observation) (hnew : x.inbox o = none) : Edit C x (x.setInbox o observation)
  | note {x o before} (observation : Observation) (ho : x.inbox o = some before) (hid : observation.id = before.id)
      (hvalue : ∀ key ∉ remarks, observation.value.index key = before.value.index key) :
      Edit C x (x.setInbox o observation)

abbrev Edits (C : String → Prop) : Records → Records → Prop := Relation.ReflTransGen (Edit C)

theorem edits_scheduled {C : String → Prop} {x y : Records} (mode : Bool × Map String Json) (h : Edits C x y) :
    Edits C { x with mode := mode } { y with mode := mode } := by
  refine h.lift (fun x => { x with mode := mode }) fun x y h => ?_
  cases h with
  | sleep cause due hcause hj => exact .sleep (x := { x with mode := mode }) cause due hcause hj
  | rise hj => exact .rise (x := { x with mode := mode }) hj
  | amend o hj => exact .amend (x := { x with mode := mode }) o hj
  | order hj => exact .order (x := { x with mode := mode }) hj
  | cite o hj => exact .cite (x := { x with mode := mode }) o hj
  | create j sources => exact .create (x := { x with mode := mode }) j sources
  | receive o observation hnew => exact .receive (x := { x with mode := mode }) o observation hnew
  | note observation ho hid hvalue => exact .note (x := { x with mode := mode }) observation ho hid hvalue

theorem edits_mode {C : String → Prop} {x y : Records} (h : Edits C x y) : y.mode = x.mode := by
  induction h with
  | refl => rfl
  | tail _ last ih =>
    rw [← ih]
    cases last <;> rfl

def Edited (C : String → Prop) (e : Engine) (outcome : Outcome) : Prop := Gives (fun r => Edits C e.records r.1.records) outcome

namespace Edited

variable {C : String → Prop} {e d : Engine} {out drafts : List Draft} {outcome : Outcome}

theorem rest (h : d.records = e.records) : Edited C e (.ok (d, out)) := by
  change Edits C e.records d.records
  rw [h]

theorem one (h : Edit C e.records d.records) : Edited C e (.ok (d, out)) := Relation.ReflTransGen.single h

theorem since (h : Edits C e.records d.records) (ho : Edited C d outcome) : Edited C e outcome :=
  Gives.mono ho fun _ hr => h.trans hr

theorem next (h : Edit C e.records d.records) (ho : Edited C d outcome) : Edited C e outcome :=
  ho.since (.single h)

theorem alike (h : d.records = e.records) (ho : Edited C d outcome) : Edited C e outcome := by
  rwa [Edited, ← h]

theorem after (ho : Edited C e outcome) : Edited C e (outcome.after drafts) := Gives.map ho

theorem before (ho : Edited C e outcome) : Edited C e (outcome.before drafts) := Gives.map ho

theorem bind {f : Engine × List Draft → Outcome} (ho : Edited C e outcome) (hf : ∀ r, Edited C r.1 (f r)) :
    Edited C e (outcome >>= f) :=
  Gives.bind ho fun r hr => (hf r).since hr

theorem expect {α : Type} {panic : Panic} {x : Option α} {f : α → Outcome} (hf : ∀ a, x = some a → Edited C e (f a)) :
    Edited C e (Pluribus.Rlm.expect panic x >>= f) := by
  cases x with
  | none => trivial
  | some a => exact hf a rfl

theorem ite {c : Prop} [Decidable c] {a b : Outcome} (ha : c → Edited C e a) (hb : ¬ c → Edited C e b) :
    Edited C e (if c then a else b) :=
  Gives.ite ha hb

end Edited

namespace Engine

variable {e : Engine} {j o : String} {b job job' : Job} {observation : Observation}

variable {d : Engine} {C : String → Prop}

theorem records_insertJob (hjobs : d.jobs = e.jobs.insert j b) (hrest : (d.inbox, d.mode) = (e.inbox, e.mode)) :
    d.records = e.records.setFace j b.face := by
  obtain ⟨hinbox, hmode⟩ := Prod.mk.inj hrest
  simp only [records, Records.setFace, hjobs, hinbox, hmode, Map.through_insert]

theorem insertJob_edit (h : Edit C e.records (e.records.setFace j b.face)) (hjobs : d.jobs = e.jobs.insert j b)
    (hrest : (d.inbox, d.mode) = (e.inbox, e.mode)) : Edit C e.records d.records := by
  rwa [records_insertJob hjobs hrest]

theorem records_insertInbox (hjobs : d.jobs = e.jobs)
    (hrest : (d.inbox, d.mode) = (e.inbox.insert o observation, e.mode)) :
    d.records = e.records.setInbox o observation := by
  obtain ⟨hinbox, hmode⟩ := Prod.mk.inj hrest
  simp only [records, Records.setInbox, hjobs, hinbox, hmode, Map.find_insert_update]

theorem records_face (h : e.jobs.find j = some job) : e.records.faces j = some job.face := Map.through_eq_some h

theorem records_sameJob (h : e.jobs.find j = some job) (hjobs : d.jobs = e.jobs.insert j job')
    (hrest : (d.inbox, d.mode) = (e.inbox, e.mode)) (hface : job'.face = job.face) : d.records = e.records := by
  rw [records_insertJob hjobs hrest, hface]
  refine Records.ext ?_ rfl rfl
  change Function.update e.records.faces j (some job.face) = e.records.faces
  rw [← records_face h, Function.update_eq_self]

theorem records_modifyJob {f : Job → Job} (hjobs : d.jobs = e.jobs.modify j f)
    (hrest : (d.inbox, d.mode) = (e.inbox, e.mode)) (h : ∀ x, (f x).face = x.face) : d.records = e.records := by
  obtain ⟨hinbox, hmode⟩ := Prod.mk.inj hrest
  simp only [records, hjobs, hinbox, hmode, Map.through_modify_same _ _ _ h]

theorem modifyJob_edits {f : Job → Job} (hjobs : d.jobs = e.jobs.modify j f)
    (hrest : (d.inbox, d.mode) = (e.inbox, e.mode))
    (h : ∀ job, e.jobs.find j = some job → Edit C e.records (e.records.setFace j (f job).face)) :
    Edits C e.records d.records := by
  obtain ⟨hinbox, hmode⟩ := Prod.mk.inj hrest
  have hfind : ∀ k, d.records.faces k = if k = j then (e.jobs.find k).map fun job => (f job).face else e.records.faces k := by
    intro k
    simp only [records, hjobs, Map.through, Map.find_modify]
    split
    · exact map_map _ _ _
    · rfl
  cases hjob : e.jobs.find j with
  | none =>
    have hsame : d.records = e.records := by
      refine Records.ext (funext fun k => ?_) (congrArg Map.find hinbox) hmode
      rw [hfind]
      split
      · next hk => simp [records, Map.through, hk, hjob]
      · rfl
    rw [hsame]
  | some job =>
    have hset : d.records = e.records.setFace j (f job).face := by
      refine Records.ext (funext fun k => ?_) (congrArg Map.find hinbox) hmode
      rw [hfind, Records.setFace_faces, Function.update_apply]
      split
      · next hk => simp [hk, hjob]
      · rfl
    rw [hset]
    exact .single (h job hjob)

theorem note_edit {next : Observation} (ho : e.inbox.find o = some observation) (hjobs : d.jobs = e.jobs)
    (hrest : (d.inbox, d.mode) = (e.inbox.insert o next, e.mode)) (hid : next.id = observation.id)
    (hvalue : ∀ key ∉ remarks, next.value.index key = observation.value.index key) : Edit C e.records d.records := by
  rw [records_insertInbox hjobs hrest]
  exact .note next ho hid hvalue

theorem note_job_edits {next : Observation} (ho : e.inbox.find o = some observation)
    (hjobs : d.jobs = e.jobs.insert j job) (hrest : (d.inbox, d.mode) = (e.inbox.insert o next, e.mode))
    (hid : next.id = observation.id) (hvalue : ∀ key ∉ remarks, next.value.index key = observation.value.index key)
    (h : ∀ x : Records, x.faces = e.records.faces → Edit C x (x.setFace j job.face)) : Edits C e.records d.records := by
  obtain ⟨hinbox, hmode⟩ := Prod.mk.inj hrest
  have hnote : Edit C e.records (e.records.setInbox o next) := .note next ho hid hvalue
  have hset : d.records = (e.records.setInbox o next).setFace j job.face := by
    simp only [records, Records.setInbox, Records.setFace, hjobs, hinbox, hmode, Map.through_insert,
      Map.find_insert_update]
  rw [hset]
  exact .tail (.single hnote) (h _ rfl)

end Engine

namespace Engine

variable {C : String → Prop} {config : Config} {e : Engine} {session cause o : String} {task : Task}

theorem sleep_edited {status : JobStatus} {due : Int} (hC : C cause) : Edited C e (e.sleep session status due cause) := by
  refine .expect fun task _ => ?_
  dsimp only
  split
  · exact .rest rfl
  · next job hjob =>
    have hsleep : ∀ d : Engine, ∀ job', d.jobs = e.jobs.insert task.root job' → (d.inbox, d.mode) = (e.inbox, e.mode) →
        job'.face = { job.face with wake := some ⟨wakeToken job.id job.revision cause due, none, job.revision, due⟩ } →
        Edit C e.records d.records := by
      intro d job' hjobs hrest hface
      rw [records_insertJob hjobs hrest, hface]
      exact .sleep cause due hC (records_face hjob)
    exact .ite (fun _ => .one (hsleep _ _ rfl rfl rfl)) fun _ => .expect fun root _ => .one (hsleep _ _ rfl rfl rfl)

theorem endRoot_edited {result : Except String Json} {replies : List Draft} :
    Edited C e (.ok (e.endRoot session result replies cause)) := by
  unfold endRoot
  split
  all_goals
    refine Gives.ok (modifyJob_edits (e := e) (j := session) (f := fun job => { job with
      status := if isFailure result then .failed else .completed
      wake := none
      waitReason := none
      outstandingQuestion := none }) rfl rfl fun job hjob => ?_)
    exact .rise (records_face hjob)

theorem finishRoot_edited {result : Except String Json} (hC : C cause) : Edited C e (e.finishRoot session result cause) := by
  unfold finishRoot
  split
  · exact endRoot_edited
  · next value =>
    refine .expect fun task _ => ?_
    refine .alike (d := { e with jobs := e.jobs.modify session (noteDecision value (replyText value)) })
      (records_modifyJob rfl rfl fun _ => rfl) ?_
    refine .ite (fun _ => .ite (fun _ => ?_) fun _ => ?_) fun _ => endRoot_edited
    · refine .expect fun job hjob => .rest ?_
      exact records_sameJob hjob rfl rfl rfl
    · exact .expect fun due _ => (sleep_edited hC).before

theorem finish_edited {result : Except String String} (hC : C cause) : Edited C e (e.finish session result cause) := by
  unfold finish
  split
  · exact .rest rfl
  · dsimp only
    split
    · exact .expect fun pending hpending => .one (note_edit hpending rfl rfl rfl fun _ _ => rfl)
    · exact finishRoot_edited hC
    · exact .rest rfl

theorem stalled_edited {reason : String} (hC : C cause) : Edited C e (e.stalled session reason cause) :=
  .expect fun _ _ => .ite (fun _ => finish_edited hC) fun _ => finishRoot_edited hC

theorem resourceBudgetExhausted_edited (hC : C cause) : Edited C e (e.resourceBudgetExhausted session cause) :=
  .expect fun _ _ => .ite (fun _ => finish_edited hC) fun _ => finishRoot_edited hC

theorem compactionRequest_edited {call : String} (hC : C cause) :
    Edited C e (e.compactionRequest config session call cause) := by
  refine .expect fun task _ => .ite (fun _ => finish_edited hC) fun _ => ?_
  refine Gives.bind (P := fun _ => True) (by cases compactionTurn task <;> trivial) fun turn _ => ?_
  generalize summaryRequest config task turn call = request
  exact Edited.ite (fun _ => finish_edited hC) fun _ => .ite (fun _ => finish_edited hC) fun _ => .rest rfl

theorem submit_edited {vision : Bool} {call : String} (hC : C cause) :
    Edited C e (e.submit config session task vision call cause) := by
  refine .ite (fun _ => finish_edited hC) fun _ => .ite (fun _ => compactionRequest_edited hC) fun _ =>
    .ite (fun _ => .ite (fun _ => finishRoot_edited hC) fun _ => finish_edited hC) fun _ =>
    .ite (fun _ => finish_edited hC) fun _ => ?_
  split
  · exact compactionRequest_edited hC
  · exact finish_edited hC
  · exact .rest rfl

theorem exhaust_edited {error : String} (hC : C cause) : Edited C e (e.exhaust session task error cause) :=
  .ite (fun _ => finish_edited hC) fun _ => sleep_edited hC

theorem spend_edited {used : Nat} (hC : C cause) : Edited C e (e.spend config session task used cause) := by
  refine .alike ?_ (submit_edited hC)
  exact records_modifyJob (j := task.root) (f := fun job => { job with status := .running }) rfl rfl fun _ => rfl

theorem route_same (e : Engine) (session : String) :
    Gives (fun d : Engine => d.records = e.records) (e.route session) := by
  refine Gives.bind (P := fun _ => True) (by cases e.tasks.find session <;> trivial) fun task _ => ?_
  split
  · exact .ok rfl
  · refine Gives.bind (P := fun _ => True) (by cases e.inbox.find _ <;> trivial) fun source _ => ?_
    refine .ite (fun _ => ?_) fun _ => .ok rfl
    exact Gives.bind (P := fun _ => True) (by cases Json.assign _ _ _ <;> trivial) fun trigger _ => .ok rfl

theorem enqueue_records (e : Engine) (session : String) (task : Task) : (e.enqueue session task).records = e.records := by
  unfold enqueue
  split
  · rfl
  · split <;> rfl

theorem finish_child_edited {result : Except String String} (ht : e.tasks.find session = some task)
    (hparent : task.parent.isSome = true) : Edited C e (e.finish session result cause) := by
  unfold finish
  rw [ht]
  dsimp only
  split
  · exact .expect fun pending hpending => .one (note_edit hpending rfl rfl rfl fun _ _ => rfl)
  · next hnone => simp [hnone] at hparent
  · exact .rest rfl

theorem request_edited (hC : e.scheduling = true → C cause) : Edited C e (e.request config session cause) := by
  refine Gives.bind (route_same e session) fun d hrecords => ?_
  have hscheduling : d.scheduling = e.scheduling := congrArg (fun x => x.mode.1) hrecords
  refine Edited.alike hrecords (.expect fun task ht => ?_)
  refine .ite (fun _ => .rest rfl) fun _ => .ite (fun hchild => finish_child_edited ht hchild.2) fun _ =>
    .ite (fun _ => .rest rfl) fun _ => .ite (fun _ => .rest (enqueue_records _ _ _)) fun hscheduled => ?_
  have hcause : C cause := hC (by rw [← hscheduling]; simp_all)
  refine .ite (fun _ => exhaust_edited hcause) fun _ => ?_
  exact .expect fun used _ => .ite (fun _ => exhaust_edited hcause) fun _ => spend_edited hcause

theorem createJob_edited (hC : e.scheduling = true → C cause) : Edited C e (e.createJob config o cause) := by
  refine .expect fun source hsource => .since ?_ (request_edited hC)
  exact note_job_edits hsource rfl rfl rfl (fun _ _ => rfl) fun _ _ => .create o _

theorem associate_edited {j : String} (hC : e.scheduling = true → C cause) : Edited C e (e.associate config o j cause) := by
  refine .expect fun source hsource => ?_
  split
  · next job _ hjob =>
    refine .ite (fun _ => .rest rfl) fun _ => ?_
    have hamend : ∀ d : Engine, d.jobs = e.jobs.insert j (amendJob o source job) →
        (d.inbox, d.mode) = (e.inbox.insert o { source with status := .incorporated, job := some j }, e.mode) →
        Edits C e.records d.records := by
      intro d hjobs hrest
      refine note_job_edits hsource hjobs hrest rfl (fun _ _ => rfl) fun x hx => .amend (f := job.face) o ?_
      rw [hx]
      exact records_face hjob
    refine .ite (fun _ => hamend _ rfl rfl) fun _ => .expect fun task _ => .ite (fun _ => hamend _ rfl rfl) fun _ => ?_
    refine (Edited.since (hamend _ rfl rfl) (request_edited ?_)).after
    exact hC
  · exact .one (note_edit hsource rfl rfl rfl fun _ _ => rfl)

theorem openAssociation_records (config : Config) (e : Engine) (o : String) (context : Json) :
    (e.openAssociation config o context).records = e.records := rfl

theorem observationReceived_edited {id : String} {value : Json} (hC : e.scheduling = true → C id) :
    Edited C e (e.observationReceived config id value) := by
  refine .ite (fun _ => .rest rfl) fun hnew => ?_
  have hreceive : ∀ observation d, d = { e with inbox := e.inbox.insert id observation } →
      Edit C e.records d.records := by
    rintro observation d rfl
    rw [records_insertInbox (e := e) (d := { e with inbox := e.inbox.insert id observation }) rfl rfl]
    exact .receive id observation (by simpa [records, Map.contains] using hnew)
  split
  · exact .next (hreceive _ _ rfl) (associate_edited hC)
  · refine .ite (fun _ => .next (hreceive _ _ rfl) (createJob_edited hC)) fun _ => ?_
    refine .next (hreceive _ _ rfl) (.alike (openAssociation_records config _ id _) (request_edited ?_))
    exact hC

end Engine

namespace Engine

variable {C : String → Prop} {config : Config} {e : Engine} {session cause o : String} {task : Task}

variable {value message : Json}

theorem correctControl_edited {calls : List Json} {error : String} (hC : C cause) :
    Edited C e (e.correctControl config session calls error cause) := by
  refine .expect fun task _ => ?_
  refine Edited.alike (d := { e with tasks := e.tasks.insert session (corrected calls error cause task) }) rfl ?_
  refine .ite (fun _ => .ite (fun _ => finish_edited hC) fun _ => stalled_edited hC) fun _ => request_edited fun _ => hC

theorem assign_remark {new target : Json} {key : String} (h : target.assign key new = some value) (hkey : key ∈ remarks) :
    ∀ k ∉ remarks, value.index k = target.index k := by
  intro k hk
  exact Json.index_assign h fun heq => hk (heq ▸ hkey)

theorem resolvePrior_edits {reference j : String} :
    Gives (fun e₁ : Engine => Edits C e.records e₁.records) (e.resolvePrior o reference j) := by
  refine Gives.bind (expect_gives _ _) fun prior hprior => Gives.bind (expect_gives _ _) fun source hsource =>
    Gives.bind (expect_gives _ _) fun value hvalue => Gives.bind (expect_gives _ _) fun original horiginal => ?_
  have hfirst : Edit C e.records { e with inbox := e.inbox.insert o { source with value := value } }.records :=
    note_edit hsource rfl rfl rfl (assign_remark hvalue (by decide))
  dsimp only
  split
  · exact .ok (.head hfirst (.single (note_edit horiginal rfl rfl rfl fun _ _ => rfl)))
  · next job hjob =>
    refine Gives.bind (expect_gives _ _) fun task _ => .ok (.head hfirst ?_)
    refine note_job_edits horiginal rfl rfl rfl (fun _ _ => rfl) fun x hx => .cite (f := job.face) reference ?_
    rw [hx]
    exact records_face hjob

section

variable (hC : C cause)

include hC

theorem settle_edited {decision : Json} : Edited C e (e.settle config o decision cause) := by
  unfold settle
  split
  · exact createJob_edited fun _ => hC
  · exact associate_edited fun _ => hC
  · refine .expect fun source hsource => .expect fun value hvalue => ?_
    refine .next (d := { e with inbox := e.inbox.insert o { source with value := value } }) ?_ (associate_edited fun _ => hC)
    exact note_edit hsource rfl rfl rfl (assign_remark hvalue (by decide))
  · refine .expect fun source hsource => ?_
    have hnote : Edit C e.records { e with inbox := e.inbox.insert o { source with
        status := .waitingInput, outstandingQuestion := (decision.index "question").asStr } }.records :=
      note_edit hsource rfl rfl rfl fun _ _ => rfl
    split <;> exact .one hnote

theorem conclude_edited {decision : Json} : Edited C e (e.conclude config o decision cause) := by
  unfold conclude
  split
  · exact Gives.bind resolvePrior_edits fun e₁ h => (settle_edited hC).since h
  · exact settle_edited hC

theorem decided_edited : Edited C e (e.decided config session o message cause) := by
  refine .expect fun task _ => ?_
  refine .expect fun source _ => .ite (fun _ => correctControl_edited hC) fun _ => ?_
  exact Edited.alike rfl (conclude_edited hC)

theorem modelFailed_edited : Edited C e (e.modelFailed session value cause) := by
  unfold modelFailed
  split
  · exact finish_edited hC
  · next task job hfound =>
    have hjob : e.jobs.find task.root = some job := by
      obtain ⟨task', -, hmap⟩ := bind_eq_some_iff.mp hfound
      obtain ⟨job', hjob', heq⟩ := map_eq_some_iff.mp hmap
      obtain ⟨rfl, rfl⟩ := Prod.mk.inj heq
      exact hjob'
    refine .ite (fun _ => .rest ?_) fun _ => .ite (fun _ => ?_) fun _ => finish_edited hC
    · exact records_sameJob hjob rfl rfl rfl
    · refine Edited.alike (d := { e with jobs := e.jobs.insert task.root { job with retryCount := job.retryCount + 1 } })
        (records_sameJob hjob rfl rfl rfl) ((sleep_edited hC).bind fun r => .expect fun job' hjob' => .rest ?_)
      exact records_sameJob hjob' rfl rfl rfl

theorem completeCompaction_edited : Edited C e (e.completeCompaction config session message cause) := by
  refine .expect fun task _ => ?_
  dsimp only
  split
  · exact Edited.alike rfl (request_edited fun _ => hC)
  · exact .ite (fun _ => Edited.alike rfl (finish_edited hC)) fun _ => Edited.alike rfl (request_edited fun _ => hC)

theorem yielded_edited {call : Json} : Edited C e (e.yielded config session task call cause) := by
  unfold yielded
  dsimp only
  split
  · exact correctControl_edited hC
  · refine .ite (fun _ => correctControl_edited hC) fun _ => .ite (fun _ => ?_) fun _ => ?_
    · exact .expect fun result _ => Edited.alike rfl (finish_edited hC)
    · exact Edited.alike rfl (finishRoot_edited hC)

theorem evaluate_edited {call : Json} : Edited C e (e.evaluate config session task call cause) := by
  unfold evaluate
  split
  · exact .ite (fun _ => .ite (fun _ => correctControl_edited hC) fun _ => .rest rfl) fun _ => correctControl_edited hC
  · exact correctControl_edited hC

theorem modelCompleted_edited : Edited C e (e.modelCompleted config session task message cause) := by
  unfold modelCompleted
  refine Edited.alike (d := { e with tasks := e.tasks.insert session (task.push (.said message)) }) rfl ?_
  split
  · exact correctControl_edited hC
  · exact .ite (fun _ => yielded_edited hC) fun _ => evaluate_edited hC
  · exact correctControl_edited hC

theorem modelAnswered_edited {failed : Bool} : Edited C e (e.modelAnswered config failed value cause) := by
  unfold modelAnswered
  dsimp only
  split
  · exact .rest rfl
  · next session _ =>
    refine Edited.alike (d := { e with calls := e.calls.erase (answeredCall value) }) rfl ?_
    split
    · exact .ite (fun _ => finish_edited hC) fun _ => .rest rfl
    · split
      · exact .ite (fun _ => finish_edited hC) fun _ => decided_edited hC
      · refine .ite (fun _ => .rest rfl) fun _ => .ite (fun _ => modelFailed_edited hC) fun _ => ?_
        exact .ite (fun _ => completeCompaction_edited hC) fun _ => modelCompleted_edited hC

end

end Engine

namespace Engine

variable {C : String → Prop} {config : Config} {e : Engine} {session cause : String} {task : Task} {value : Json} {kind : Kind}

variable {id : String}

theorem keepCheckpoint_records (e : Engine) (root : String) (checkpoint : Option Json) :
    (e.keepCheckpoint root checkpoint).records = e.records := by
  cases checkpoint with
  | none => rfl
  | some checkpoint =>
    exact records_modifyJob (j := root) (f := fun job => { job with checkpoint := checkpoint }) rfl rfl fun _ => rfl

theorem cellResult_edited (hC : C cause) : Edited C e (e.cellResult config session task kind value cause) := by
  refine .ite (fun _ => ?_) fun _ => ?_
  · exact Edited.alike (keepCheckpoint_records e _ _) (stalled_edited hC)
  · exact Edited.alike (keepCheckpoint_records e _ _) (request_edited fun _ => hC)

theorem codeFinished_edited (hC : C cause) : Edited C e (e.codeFinished config kind value cause) := by
  unfold codeFinished
  dsimp only
  split
  · exact .rest rfl
  · refine .ite (fun _ => .rest rfl) fun _ => .ite (fun _ => .rest rfl) fun _ => .ite (fun _ => ?_) fun _ => ?_
    · exact .ite (fun _ => Edited.alike rfl (resourceBudgetExhausted_edited hC)) fun _ => cellResult_edited hC
    · exact cellResult_edited hC

theorem startChild_records {root origin : String} {args : Json} {parent : String × Json} {depth : Nat} :
    Gives (fun d : Engine => d.records = e.records) (e.startChild id root origin args parent depth) := by
  unfold startChild
  split
  · exact .ok rfl
  · exact .error _

theorem query_edited (hC : C cause) : Edited C e (e.query config session task value cause) := by
  refine .ite (fun _ => .rest rfl) fun _ => .ite (fun _ => .rest rfl) fun _ => .ite (fun _ => .rest rfl) fun _ =>
    .ite (fun _ => .rest rfl) fun _ => ?_
  exact Gives.bind startChild_records fun d hd => Edited.alike hd (request_edited fun _ => hC)

theorem codeYielded_edited (hC : C cause) : Edited C e (e.codeYielded config value cause) := by
  unfold codeYielded
  dsimp only
  split
  · exact .rest rfl
  · refine .ite (fun _ => .rest rfl) fun _ => .ite (fun _ => .rest rfl) fun _ => ?_
    split
    · exact Edited.alike rfl (query_edited hC)
    · exact .rest rfl
    · exact .rest rfl
    · exact .ite (fun _ => .rest rfl) fun _ => .rest rfl

theorem capabilityAnswered_edited {origin : Option String} :
    Edited C e (e.capabilityAnswered kind value origin id) := by
  unfold capabilityAnswered
  dsimp only
  split
  · exact .rest rfl
  · refine .ite (fun _ => .rest ?_) fun _ => .rest ?_
    · exact records_modifyJob (f := fun job => { job with
        status := .waitingInput
        waitReason := some .providerError
        outstandingQuestion := none
        blockers := .object [("reconciliation", value)] }) rfl rfl fun _ => rfl
    · exact records_modifyJob (f := fun job => { job with status := .runnable, waitReason := none }) rfl rfl fun _ => rfl

theorem capabilityRequested_records (e : Engine) (value : Json) (id : String) :
    (e.capabilityRequested value id).records = e.records := by
  unfold capabilityRequested
  split
  · rfl
  · split
    · rfl
    · exact records_modifyJob (f := fun job => { job with status := .waitingActivity }) rfl rfl fun _ => rfl

theorem renew_records {e : Engine} {j : String} {job : Job} :
    (e.renew j job).records = e.records.setFace j job.face := by
  unfold renew
  split
  · exact records_insertJob (b := { job with cycleStartedMs := e.nowMs }) rfl rfl
  · exact records_insertJob rfl rfl

theorem timerFired_edited (hC : C id) : Edited C e (e.timerFired config value id) := by
  unfold timerFired
  dsimp only
  split
  · exact .rest rfl
  · next j job hfound =>
    have hjob : e.jobs.find j = some job := Map.find_eq_some.mpr (List.mem_of_find?_eq_some hfound)
    have hrise : Edit C e.records (e.records.setFace j { job with wake := none }.face) := .rise (records_face hjob)
    refine .expect fun task _ => .ite (fun _ => .one ?_) fun _ => .next ?_ (request_edited fun _ => hC)
    · exact insertJob_edit hrise rfl rfl
    · rw [renew_records]
      exact hrise

theorem restart_edited {root : String} {drafts : List Draft} (hC : C cause) :
    Edited C e (e.restart config session root value drafts cause) := by
  refine Edited.after (.alike ?_ (request_edited fun _ => hC))
  exact records_modifyJob (f := restarted value) rfl rfl fun _ => rfl

theorem recoverSession_edited (hC : C cause) : Edited C e (e.recoverSession config session value cause) := by
  unfold recoverSession
  split
  · exact .rest rfl
  · refine .ite (fun _ => .rest rfl) fun _ => .ite (fun _ => ?_) fun _ => ?_
    · exact Edited.alike rfl (resourceBudgetExhausted_edited hC)
    · exact Edited.alike rfl (restart_edited hC)

theorem recoverResourceJob_edited (hscheduling : e.scheduling = false) (hC : C cause) :
    Edited C e (e.recoverResourceJob config cause value) := by
  refine .ite (fun _ => .ite (fun _ => ?_) fun _ => ?_) fun _ => ?_
  · split
    · exact .rest rfl
    · next original _ =>
      refine .ite (fun _ => .rest rfl) fun _ => Edited.bind ?_ fun r => .expect fun value _ => recoverSession_edited hC
      exact observationReceived_edited fun hrunning => by simp [hscheduling] at hrunning
  · split
    · exact .rest rfl
    · exact .expect fun value _ => recoverSession_edited hC
  · split
    · exact .rest rfl
    · exact recoverSession_edited hC

end Engine

def Records.tally (x : Records) (g : String → Map String Fields → Map String Fields) : Records :=
  { x with faces := fun j => (x.faces j).map fun f => { f with activities := g j f.activities } }

def Engine.Input.tally (input : Input) (j : String) (activities : Map String Fields) : Map String Fields :=
  if input.kind.requests then
    if input.value.getStr "jobId" = some j then
      activities.insert input.id [
        ("callId", input.value.index "call_id"),
        ("capability", input.value.index "capability"),
        ("kind", .string input.kind.name),
        ("revision", input.value.index "revision"),
        ("sessionId", input.value.index "sessionId"),
        ("status", .string "queued")]
    else activities
  else if input.kind.settles then
    activities.modify (((input.value.getStr "requestEventId").or input.cause).getD "") fun activity =>
      ((activity.set "status" (.string (if input.kind = .activityAttempted then "running" else input.kind.name))).set
        "result" (activityResult input.id input.value)).set "resultId" (.string input.id)
  else activities

/-- What an operator's report makes of the activities of a job. -/
def Engine.Input.reconcile (input : Input) (activities : Map String Fields) : Map String Fields :=
  let request := (input.value.getStr "requestEventId").getD ""
  let outcome := (input.value.index "outcome").asStr
  if (input.value.index "version").asI64 ≠ some 1 ∨ ¬ (outcome = some "completed" ∨ outcome = some "failed") then activities
  else if (activities.find request).any unresolved then
    activities.modify request fun activity =>
      ((activity.set "status" (.string ("reconciled." ++ outcome.getD ""))).set "result"
        (activityResult input.id input.value)).set "resultId" (.string input.id)
  else activities

/-- What an event makes of the activities of each job of an engine. -/
def Engine.tallying (e : Engine) (input : Input) (j : String) (activities : Map String Fields) : Map String Fields :=
  match input.kind with
  | .operatorJobControl => activities
  | .operatorAttemptReconciled => input.reconcile activities
  | _ => if e.seen input then activities else input.tally j activities

/-- A timer is taken for that of the sleep whose token it has. -/
def Face.link (token : Json) (id : String) (f : Face) : Face :=
  { f with wake := f.wake.map fun wake => if token = .string wake.token then { wake with request := some id } else wake }

def Records.link (x : Records) (j : String) (token : Json) (id : String) : Records :=
  { x with faces := fun k => if k = j then (x.faces k).map (Face.link token id) else x.faces k }

namespace Engine

variable {C : String → Prop} {config : Config} {e d : Engine} {id : String} {value : Json} {kind : Kind}
  {cause : Option String} {input : Input} {out : List Draft}

theorem handleEvent_edited (hscheduling : e.scheduling = false) (hkind : kind ≠ .timerSet) (hC : C id) :
    Edited C e (e.handleEvent config id kind value cause) := by
  unfold handleEvent
  split
  · exact recoverResourceJob_edited hscheduling hC
  · exact absurd rfl hkind
  · exact timerFired_edited hC
  · exact observationReceived_edited fun _ => hC
  · exact modelAnswered_edited hC
  · exact modelAnswered_edited hC
  · exact codeFinished_edited hC
  · exact codeFinished_edited hC
  · exact codeYielded_edited hC
  all_goals first | exact capabilityAnswered_edited | exact .rest (capabilityRequested_records e value id) | exact .rest rfl

theorem idle_edited {outcome : Outcome} (hscheduling : e.scheduling = false)
    (h : Edited C { e with scheduling := true } outcome) : Edited C e (idle outcome) := by
  refine Gives.map (Gives.mono h fun r hr => ?_)
  have herrors : r.1.resourceErrors = e.resourceErrors := congrArg Prod.snd (edits_mode hr)
  have hmode : ({ r.1 with scheduling := false } : Engine).mode = e.mode := Prod.ext hscheduling.symm herrors
  have hrested : Edits C e.records { r.1.records with mode := e.mode } := edits_scheduled e.mode hr
  rwa [← hmode] at hrested

theorem schedule_edited {cause : String} {fuel : Nat} (hscheduling : e.scheduling = false) (hC : C cause) :
    Edited C e (schedule config cause fuel e) := by
  induction fuel generalizing e with
  | zero => exact .rest rfl
  | succ fuel ih =>
    unfold schedule
    split
    · exact .rest rfl
    · refine .ite (fun _ => ?_) fun _ => .rest rfl
      refine Gives.bind (idle_edited hscheduling (.alike rfl (request_edited fun _ => hC))) fun r hr => ?_
      have hidle : r.1.scheduling = false := (congrArg Prod.fst (edits_mode hr)).trans hscheduling
      exact Edited.since hr (.ite (fun _ => (ih hidle).after) fun _ => .rest rfl)

theorem drain_edited {cause : String} (hscheduling : e.scheduling = false) (hC : C cause) :
    Edited C e (e.drain config cause) :=
  .ite (fun _ => schedule_edited hscheduling hC) fun _ => .rest rfl

theorem operatorControl_edited (hscheduling : e.scheduling = false) (hC : C id) : Edited C e (e.operatorControl config id value) := by
  unfold operatorControl
  dsimp only
  split
  · exact .rest rfl
  · next job hjob =>
    have horder : ∀ cancel reason, Edit C e.records (e.carryOut _ job cancel reason id).records := fun cancel reason =>
      insertJob_edit (b := ordered cancel job) (.order (f := job.face) (records_face hjob)) rfl rfl
    refine .ite (fun _ => .rest rfl) fun _ => .ite (fun _ => .one (horder _ _)) fun _ => ?_
    exact Edited.after (.next (horder _ (value.index "reason")) (idle_edited hscheduling (request_edited fun _ => hC)))

theorem records_tally {g : String → Map String Fields → Map String Fields} {h : String → Job → Job}
    (hface : ∀ j job, (h j job).face = { job.face with activities := g j job.face.activities }) :
    ({ e with jobs := e.jobs.update h } : Engine).records = e.records.tally g := by
  refine Records.ext ?_ rfl rfl
  exact Map.through_update e.jobs Job.face (fun j f => { f with activities := g j f.activities }) hface

theorem tally_same (x : Records) {g : String → Map String Fields → Map String Fields} (h : ∀ j activities, g j activities = activities) :
    x.tally g = x := by
  refine Records.ext (funext fun j => ?_) rfl rfl
  simp only [Records.tally, h]
  exact map_id'

theorem noteCell_records (e : Engine) (id : String) (kind : Kind) (value : Json) :
    (e.noteCell id kind value).records = e.records := by
  unfold noteCell
  repeat' split
  all_goals rfl

theorem noted_records (e : Engine) (input : Input) :
    (e.noted input.id input.kind input.value input.cause).records = e.records.tally input.tally := by
  rw [← noteCell_records e input.id input.kind input.value]
  unfold noted noteActivity
  split
  · next hrequests =>
    split
    · next hjob => exact (tally_same _ fun j activities => by simp [Input.tally, hrequests, hjob]).symm
    · next job hjob =>
      refine records_tally fun k job' => ?_
      by_cases hk : job = k <;> simp [Input.tally, hrequests, hjob, hk, eq_comm, Job.face]
  · next hrequests =>
    split
    · next hsettles =>
      refine records_tally fun k job => ?_
      simp [Input.tally, hrequests, hsettles, Job.face]
    · next hsettles => exact (tally_same _ fun j activities => by simp [Input.tally, hrequests, hsettles]).symm

theorem attemptReconciled_records (e : Engine) (input : Input) :
    (e.attemptReconciled input.id input.value).records = e.records.tally fun _ => input.reconcile := by
  unfold attemptReconciled
  dsimp only
  split
  · next hinvalid => exact (tally_same _ fun j activities => by simp only [Input.reconcile, if_pos hinvalid]).symm
  · next hvalid =>
    refine (records_tally (e := { e with tasks := _ }) fun j job => ?_).trans rfl
    simp only [Input.reconcile, if_neg hvalid]
    split <;> simp_all [Job.face]

theorem reasoned_face (job : Job) : (reasoned job).face = job.face := by
  unfold reasoned
  repeat' split
  all_goals rfl

theorem withReasons_records (e : Engine) : e.withReasons.records = e.records := by
  refine Records.ext ?_ rfl rfl
  exact Map.through_update_same e.jobs Job.face fun _ job => reasoned_face job

theorem prepare_records (e : Engine) (input : Input) : (e.prepare input).records = e.records :=
  prepare_same records e input (fun _ _ => rfl) (fun _ _ => rfl) fun _ => rfl

theorem met_records (e : Engine) (input : Input) : (e.met input).records = e.records.tally input.tally := by
  unfold met
  rw [noted_records, ← prepare_records e input, ← withReasons_records (e.prepare input)]
  split <;> rfl

theorem timerSet_records (e : Engine) (value : Json) (id : String) :
    (e.timerSet value id).records = match value.getStr "jobId" with
      | none => e.records
      | some j => e.records.link j (value.index "wakeToken") id := by
  unfold timerSet
  cases value.getStr "jobId" with
  | none => rfl
  | some j =>
    refine Records.ext (funext fun k => ?_) rfl rfl
    simp only [records, Records.link, Map.through, Map.find_modify]
    split
    · rw [map_map, map_map]
      rfl
    · rfl

theorem step_unseen (config : Config) (hmode : e.mode = (false, .empty)) (hcontrol : input.kind ≠ .operatorJobControl)
    (hreconciled : input.kind ≠ .operatorAttemptReconciled) (hseen : e.seen input = false) :
    e.step config input = (do
      let (d, answer) ← (e.met input).handleEvent config input.id input.kind input.value input.cause
      let (d, requests) ← d.drain config input.id
      .ok (d, (answer ++ requests).map (deadline d.nowMs))) := by
  have hresults : (e.prepare input).withReasons.seenResults = e.seenResults :=
    prepare_same seenResults e input (fun _ _ => rfl) (fun _ _ => rfl) fun _ => rfl
  have hreact : e.step config input = (e.met input).recoverResources config input.id >>= fun r =>
      r.1.handleEvent config input.id input.kind input.value input.cause >>= fun s =>
      s.1.drain config input.id >>= fun t => .ok (t.1, (r.2 ++ s.2 ++ t.2).map (deadline t.1.nowMs)) := by
    unfold step event met
    split
    · contradiction
    · contradiction
    · cases hkey : resultKey input.kind input.id input.value with
      | none => rfl
      | some key =>
        dsimp only
        rw [hresults, if_neg (by simpa [seen, hkey] using hseen)]
        rfl
  have herrors : (e.met input).resourceErrors = .empty := by
    have hmet : (e.met input).mode = e.mode := congrArg Records.mode (met_records e input)
    exact congrArg Prod.snd (hmet.trans hmode)
  rw [hreact, recoverResources_empty config herrors]
  rfl

theorem step_seen (config : Config) (hcontrol : input.kind ≠ .operatorJobControl)
    (hreconciled : input.kind ≠ .operatorAttemptReconciled) (hseen : e.seen input = true) :
    e.step config input = .ok ((e.prepare input).withReasons, []) := by
  have hresults : (e.prepare input).withReasons.seenResults = e.seenResults :=
    prepare_same seenResults e input (fun _ _ => rfl) (fun _ _ => rfl) fun _ => rfl
  unfold step event
  split
  · contradiction
  · contradiction
  · cases hkey : resultKey input.kind input.id input.value with
    | none => simp [seen, hkey] at hseen
    | some key =>
      dsimp only
      rw [hresults, if_pos (by simpa [seen, hkey] using hseen)]

def linked (input : Input) (x : Records) : Records :=
  match input.kind, input.value.getStr "jobId" with
  | .timerSet, some j => x.link j (input.value.index "wakeToken") input.id
  | _, _ => x

theorem linked_other {x : Records} (hkind : input.kind ≠ .timerSet) : linked input x = x := by
  unfold linked
  split
  · contradiction
  · rfl

theorem linked_mode (x : Records) : (linked input x).mode = x.mode := by
  unfold linked
  split <;> rfl

theorem handled_edited (hscheduling : e.scheduling = false) :
    Gives (fun r => Edits (· = input.id) (linked input e.records) r.1.records)
      (e.handleEvent config input.id input.kind input.value input.cause) := by
  by_cases hkind : input.kind = .timerSet
  · unfold handleEvent linked
    rw [hkind]
    refine Gives.ok ?_
    rw [timerSet_records]
    cases input.value.getStr "jobId" <;> exact .refl
  · rw [linked_other hkind]
    exact handleEvent_edited hscheduling hkind rfl

theorem met_mode (e : Engine) (input : Input) : (e.met input).mode = e.mode := congrArg Records.mode (met_records e input)

/-- A step on an event that was not seen before handles the event, then lets the scheduler run. -/
theorem step_cases (hmode : e.mode = (false, .empty)) (hcontrol : input.kind ≠ .operatorJobControl)
    (hreconciled : input.kind ≠ .operatorAttemptReconciled) (hseen : e.seen input = false)
    (hstep : e.step config input = .ok (d, out)) :
    ∃ e₁ answer requests, (e.met input).handleEvent config input.id input.kind input.value input.cause = .ok (e₁, answer) ∧
      e₁.drain config input.id = .ok (d, requests) ∧ e₁.mode = (false, .empty) := by
  rw [step_unseen config hmode hcontrol hreconciled hseen] at hstep
  cases hhandled : (e.met input).handleEvent config input.id input.kind input.value input.cause with
  | error panic =>
    rw [hhandled] at hstep
    cases hstep
  | ok r =>
    obtain ⟨e₁, answer⟩ := r
    rw [hhandled, ok_bind] at hstep
    dsimp only at hstep
    cases hdrained : e₁.drain config input.id with
    | error panic =>
      rw [hdrained] at hstep
      cases hstep
    | ok r =>
      rw [hdrained, ok_bind] at hstep
      obtain ⟨rfl, -⟩ := Prod.mk.inj (Except.ok.inj hstep)
      have hidle : (e.met input).mode = (false, .empty) := (met_mode e input).trans hmode
      have hedits : Edits (· = input.id) _ _ := (handled_edited (congrArg Prod.fst hidle)).of_ok hhandled
      exact ⟨e₁, answer, r.2, rfl, hdrained, (edits_mode hedits).trans ((linked_mode _).trans hidle)⟩

/-- What a step makes of the records: its event is tallied and linked, the rest are edits on its behalf. -/
theorem step_records (hmode : e.mode = (false, .empty)) (hstep : e.step config input = .ok (d, out)) :
    Edits (· = input.id) (linked input (e.records.tally (e.tallying input))) d.records := by
  by_cases hcontrol : input.kind = .operatorJobControl
  · have hedited : Edited (· = input.id) (e.prepare input) (e.step config input) := by
      unfold step event
      rw [hcontrol]
      exact operatorControl_edited (congrArg Prod.fst ((prepare_mode e input).trans hmode)) rfl
    rw [linked_other (by simp [hcontrol]), tally_same _ (by simp [tallying, hcontrol]), ← prepare_records e input]
    exact hedited.of_ok hstep
  by_cases hreconciled : input.kind = .operatorAttemptReconciled
  · have hreport : d = (e.prepare input).attemptReconciled input.id input.value := by
      unfold step event at hstep
      rw [hreconciled] at hstep
      exact (Prod.mk.inj (Except.ok.inj hstep)).1.symm
    have htallying : e.tallying input = fun _ => input.reconcile := by
      funext j activities
      simp [tallying, hreconciled]
    rw [linked_other (by simp [hreconciled]), htallying, ← prepare_records e input, hreport, attemptReconciled_records]
  cases hseen : e.seen input with
  | true =>
    rw [step_seen config hcontrol hreconciled hseen] at hstep
    obtain ⟨rfl, rfl⟩ := Prod.mk.inj (Except.ok.inj hstep)
    have hkind : input.kind ≠ .timerSet := fun hkind => by simp [seen, resultKey, hkind, Kind.resultPrefix] at hseen
    rw [linked_other hkind, withReasons_records, prepare_records, tally_same]
    unfold tallying
    split <;> simp_all
  | false =>
    have htallying : e.tallying input = input.tally := by
      unfold tallying
      split <;> simp_all
    obtain ⟨e₁, answer, requests, hhandled, hdrained, hidle⟩ := step_cases hmode hcontrol hreconciled hseen hstep
    have hfirst : Edits (· = input.id) _ _ :=
      (handled_edited (congrArg Prod.fst ((met_mode e input).trans hmode))).of_ok hhandled
    have hsecond := (drain_edited (C := (· = input.id)) (congrArg Prod.fst hidle) rfl).of_ok hdrained
    rw [htallying, ← met_records]
    exact hfirst.trans hsecond

theorem step_mode (hmode : e.mode = (false, .empty)) (hstep : e.step config input = .ok (d, out)) :
    d.mode = (false, .empty) :=
  (edits_mode (step_records hmode hstep)).trans ((linked_mode _).trans hmode)

theorem mode_run {P : Engine → Input → Bool} {log : List Input} (hmode : e.mode = (false, .empty))
    (h : Chain (Takes config P) e log d) : d.mode = (false, .empty) := by
  refine h.invariant (I := fun e => e.mode = (false, .empty)) (fun e xs d hstep he => ?_) hmode
  obtain ⟨input, out, -, -, hstep⟩ := hstep
  exact step_mode he hstep

end Engine

end Pluribus.Rlm
