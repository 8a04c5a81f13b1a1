import Pluribus.Lib.Chain
import Pluribus.Rlm.Events
import Pluribus.Rlm.ToolCalls

namespace Pluribus.Rlm

open Lib

attribute [grind =] Function.update_apply Option.filter_eq_some_iff Option.map_eq_some_iff Option.map_eq_none_iff

structure JobView where
  status : JobStatus
  cycle : Int
  due : Option Int

structure TaskView where
  root : String
  parent : Option String
  depth : Nat
  association : Option String
  tools : Option (List String)

structure ObservationView where
  pending : Bool
  settable : Bool

/-- What the engine does with its sessions, without what they talk about. -/
@[ext]
structure View where
  jobs : String → Option JobView
  tasks : String → Option TaskView
  inbox : String → Option ObservationView
  calls : String → Option String
  budgets : String → Option Nat
  queue : List String
  now : Int

def settable : Json → Bool
  | .null | .object _ => true
  | _ => false

def Job.view (job : Job) : JobView := ⟨job.status, job.cycleStartedMs, job.wake.map Wake.dueAtMs⟩

def Task.view (task : Task) : TaskView :=
  ⟨task.root, task.parent.map (·.1), task.depth, task.association, task.messages.calls⟩

def Observation.view (o : Observation) : ObservationView := ⟨o.status = .pending, settable o.value⟩

def Engine.view (e : Engine) : View where
  jobs := e.jobs.through Job.view
  tasks := e.tasks.through Task.view
  inbox := e.inbox.through Observation.view
  calls := e.calls.find
  budgets := e.budgets.find
  queue := e.queue
  now := e.nowMs

namespace View

variable (v : View)

@[simps]
def setJob (job : String) (x : Option JobView) : View := { v with jobs := Function.update v.jobs job x }

@[simps]
def setTask (session : String) (x : Option TaskView) : View := { v with tasks := Function.update v.tasks session x }

@[simps]
def setInbox (observation : String) (x : Option ObservationView) : View :=
  { v with inbox := Function.update v.inbox observation x }

@[simps]
def setCall (call : String) (x : Option String) : View := { v with calls := Function.update v.calls call x }

@[simps]
def setBudget (root : String) (x : Option Nat) : View := { v with budgets := Function.update v.budgets root x }

@[simps]
def drop (root : String) : View := { v with tasks := fun s => (v.tasks s).filter fun t => t.root ≠ root }

@[simps]
def regroup (root : String) (t : TaskView) : View :=
  { v with tasks := Function.update (fun s => (v.tasks s).filter fun t => t.root ≠ root) root (some t) }

@[simps]
def purge : View := { v with queue := v.queue.filter fun s => (v.tasks s).isSome }

@[simps]
def keepCalls (root : String) : View :=
  { v with calls := fun c => (v.calls c).filter fun s => (v.tasks s).all fun t => t.root ≠ root }

@[simps]
def dropCalls (session : String) : View := { v with calls := fun c => (v.calls c).filter (· ≠ session) }

attribute [grind =]
  setJob_jobs setJob_tasks setJob_inbox setJob_calls setJob_budgets setJob_queue setJob_now
  setTask_jobs setTask_tasks setTask_inbox setTask_calls setTask_budgets setTask_queue setTask_now
  setInbox_jobs setInbox_tasks setInbox_inbox setInbox_calls setInbox_budgets setInbox_queue setInbox_now
  setCall_jobs setCall_tasks setCall_inbox setCall_calls setCall_budgets setCall_queue setCall_now
  setBudget_jobs setBudget_tasks setBudget_inbox setBudget_calls setBudget_budgets setBudget_queue setBudget_now
  drop_jobs drop_tasks drop_inbox drop_calls drop_budgets drop_queue drop_now
  regroup_jobs regroup_tasks regroup_inbox regroup_calls regroup_budgets regroup_queue regroup_now
  purge_jobs purge_tasks purge_inbox purge_calls purge_budgets purge_queue purge_now
  keepCalls_jobs keepCalls_tasks keepCalls_inbox keepCalls_calls keepCalls_budgets keepCalls_queue keepCalls_now
  dropCalls_jobs dropCalls_tasks dropCalls_inbox dropCalls_calls dropCalls_budgets dropCalls_queue dropCalls_now

def quiet : Prop := ∀ call, v.calls call = none

def calling (session : String) : Prop := ∃ call, v.calls call = some session

def cycle (root : String) : Int := ((v.jobs root).map JobView.cycle).getD 0

end View

section Machine

/-- How a session is in hand: it may still be queued and is not to end; it may end, with no call of its history
open; it owes results for tool calls; or a model call has been spent on it. -/
inductive Grip where
  | soft
  | loose
  | firm (owed : List Json)
  | paid

/-- A view, with the session in hand and the observation being decided. -/
structure Desk where
  view : View
  hand : Option (String × Grip)
  deciding : Option String

@[grind =]
def Desk.held (desk : Desk) : Option String := desk.hand.map Prod.fst

def Kind.demanding : Kind → Bool
  | modelRequested | codeEvaluateRequested | capabilityRequested | timerSet => true
  | _ => false

def Draft.names (draft : Draft) (job : String) : Prop := draft.payload.index "jobId" = .string job

/-- Drafts other than model requests; where they ask for something they name the job of a live task. -/
def View.speaks (v : View) (draft : Draft) : Prop :=
  draft.kind ≠ .modelRequested ∧
    (draft.kind.demanding → ∀ job, draft.names job → ∃ session t, v.tasks session = some t ∧ t.root = job)

def View.tidy (v : View) (job : String) : Prop :=
  ∀ session ∈ v.queue, ∀ t, v.tasks session = some t → t.root = job → session = job

/-- What the machine takes for granted of the events it meets. -/
structure Rules where
  tick : Int → Int → Prop := fun _ _ => True
  observe : String → Bool → Prop := fun _ _ => True
  ignore : Prop := True
  stray : Prop := True
  tidy : Prop := False
  strict : Prop := False
  issue : Prop := True
  renew : String → Prop := fun _ => True
  hear : Json → Prop := fun _ => True
  resolve : TaskView → Prop := fun _ => True
  resume : TaskView → Prop := fun _ => True
  report : View → String → String → Prop := fun _ _ _ => True
  lose : View → String → Prop := fun _ _ => True
  spawn : View → String → String → Prop := fun _ _ _ => True

@[grind =]
def JobView.wait (job : JobView) (status : JobStatus) (due : Option Int) : JobView :=
  { job with status := status, due := due }

@[grind =]
def TaskView.with (t : TaskView) (change : List String → Option (List String)) : TaskView :=
  { t with tools := t.tools.bind change }

@[grind =]
def TaskView.cleared (t : TaskView) : TaskView := { t with tools := some [] }

@[grind =]
def TaskView.closed (t : TaskView) : TaskView := { t with tools := t.tools.map fun _ => [] }

@[grind =]
def TaskView.opened (root : String) (parent : Option String) (depth : Nat) (association : Option String) : TaskView :=
  ⟨root, parent, depth, association, some []⟩

@[grind =]
def ObservationView.settled (x : ObservationView) : ObservationView := { x with pending := false }

open Engine (associationSession callId)

inductive Move (R : Rules) : Desk → List Draft → Desk → Prop
  | tick {v h d} (now : Int) (htick : R.tick v.now now) : Move R ⟨v, h, d⟩ [] ⟨{ v with now := now }, h, d⟩
  | speak {v h d} (drafts : List Draft) (hspeaks : ∀ draft ∈ drafts, v.speaks draft) :
      Move R ⟨v, h, d⟩ drafts ⟨v, h, d⟩
  -- observations
  | receive {v h} (o : String) (b : Bool) (hnew : v.inbox o = none) (hobserve : R.observe o b) :
      Move R ⟨v, h, none⟩ [] ⟨v.setInbox o (some ⟨true, b⟩), h, some o⟩
  | consult {v h} (o : String) (b : Bool) (hnew : v.inbox o = none) (hobserve : R.observe o b) :
      Move R ⟨v, h, none⟩ []
        ⟨((v.setInbox o (some ⟨true, b⟩)).setBudget (associationSession o) (some 0)).setTask (associationSession o)
          (some (.opened (associationSession o) none 0 (some o))), some (associationSession o, .loose), none⟩
  | create {v h o} {x : ObservationView} (hx : v.inbox o = some x) :
      Move R ⟨v, h, some o⟩ []
        ⟨(((v.setInbox o (some x.settled)).setJob o (some ⟨.runnable, v.now, none⟩)).setBudget o (some 0)).setTask o
          (some (.opened o none 0 none)), some (o, .loose), none⟩
  | shelve {v h o} {x : ObservationView} (hx : v.inbox o = some x) :
      Move R ⟨v, h, some o⟩ [] ⟨v.setInbox o (some x.settled), h, none⟩
  | ignore {v h o} (hignore : R.ignore) : Move R ⟨v, h, some o⟩ [] ⟨v, h, none⟩
  | remind {v h d j} {t : TaskView} (ht : v.tasks j = some t) (hresolve : R.resolve t) :
      Move R ⟨v, h, d⟩ [] ⟨v.setTask j (some (t.with plainNote)), h, d⟩
  | amend {v h o j} {x : ObservationView} {job : JobView} {t t' : TaskView} (hx : v.inbox o = some x)
      (hjob : v.jobs j = some job) (hopen : job.status.ended = false) (ht : v.tasks j = some t)
      (htidy : R.tidy → v.tidy j) (ht' : t' = { t with tools := t'.tools })
      (htools : t.root = j → t' = t.closed) :
      Move R ⟨v, h, some o⟩ []
        ⟨((v.setInbox o (some x.settled)).setJob j (some (job.wait .runnable none))).regroup j t',
          some (j, .soft), none⟩
  | cancel {v h o j} {x : ObservationView} {job : JobView} (hx : v.inbox o = some x) (hjob : v.jobs j = some job)
      (hopen : job.status.ended = false) :
      Move R ⟨v, h, some o⟩ []
        ⟨(((v.setInbox o (some x.settled)).setJob j (some (job.wait .cancelled none))).drop j).purge, h, none⟩
  -- model results
  | answer {v h call session} (hcall : v.calls call = some session) :
      Move R ⟨v, h, none⟩ [] ⟨v.setCall call none, some (session, .firm []), none⟩
  | discard {v h call session} {t : TaskView} {queue : List String} (hcall : v.calls call = some session)
      (ht : v.tasks session = some t)
      (hqueue : queue = if session ∈ v.queue then v.queue else v.queue ++ [session]) :
      Move R ⟨v, h, none⟩ []
        ⟨{ (v.setCall call none).setTask session (some (t.with plainNote)) with queue := queue }, none, none⟩
  | decide {v session owed o} {t : TaskView} (ht : v.tasks session = some t) (ho : t.association = some o) :
      Move R ⟨v, some (session, .firm owed), none⟩ [] ⟨(v.setTask session none).setBudget session none, none, some o⟩
  | hear {v session d} {t : TaskView} (message : Json) (ht : v.tasks session = some t) (hhear : R.hear message) :
      Move R ⟨v, some (session, .firm []), d⟩ []
        ⟨v.setTask session (some (t.with fun p => toolMessage p message)),
          some (session, .firm ((toolCalls message).map fun call => call.index "call_id")), d⟩
  | reply {v session d} {t : TaskView} (id : Json) (rest : List Json) (ht : v.tasks session = some t) :
      Move R ⟨v, some (session, .firm (id :: rest)), d⟩ []
        ⟨v.setTask session (some (t.with (answerCall id))), some (session, .firm rest), d⟩
  | say {v session d} {t : TaskView} (ht : v.tasks session = some t) :
      Move R ⟨v, some (session, .firm []), d⟩ []
        ⟨v.setTask session (some (t.with plainNote)), some (session, .firm []), d⟩
  | cell {v session d} (id : Json) : Move R ⟨v, some (session, .firm [id]), d⟩ [] ⟨v, none, d⟩
  | clear {v session grip d} {t : TaskView} (ht : v.tasks session = some t) (hgrip : grip ≠ .paid)
      (howed : ∀ owed, grip = .firm owed → owed = []) :
      Move R ⟨v, some (session, grip), d⟩ [] ⟨v.setTask session (some t.cleared), some (session, grip), d⟩
  | ease {v session d} : Move R ⟨v, some (session, .firm []), d⟩ [] ⟨v, some (session, .loose), d⟩
  -- the queue
  | enqueue {v session grip} {queue : List String} (hlive : v.tasks session ≠ none) (hout : session ∉ v.queue)
      (hcalling : ¬ v.calling session) (hgrip : grip = .soft ∨ grip = .loose)
      (hqueue : queue = session :: v.queue ∨ queue = v.queue ++ [session]) :
      Move R ⟨v, some (session, grip), none⟩ [] ⟨{ v with queue := queue }, some (session, .soft), none⟩
  | take {v h session rest} (hqueue : v.queue = session :: rest) (hlive : v.tasks session ≠ none) (hquiet : v.quiet) :
      Move R ⟨v, h, none⟩ [] ⟨{ v with queue := rest }, some (session, .loose), none⟩
  -- model requests
  | spend {v session} {t : TaskView} {used : Nat} (ht : v.tasks session = some t) (hused : v.budgets t.root = some used)
      (hleft : used < 32) (hquiet : v.quiet) (hidle : ∀ job, v.jobs t.root = some job → job.status.idle = false) :
      Move R ⟨v, some (session, .loose), none⟩ []
        ⟨{ (v.setBudget t.root (some (used + 1))).setJob t.root
            ((v.jobs t.root).map fun job => job.wait .running job.due) with queue := v.queue.filter (· ≠ session) },
          some (session, .paid), none⟩
  | issue {v session} {t : TaskView} {used : Nat} (draft : Draft) (ht : v.tasks session = some t)
      (hused : v.budgets t.root = some used) (hquiet : v.quiet) (hissue : R.issue)
      (hkind : draft.kind = .modelRequested)
      (hcall : draft.payload.index "call_id" = .string (callId t.root (v.cycle t.root) used))
      (hjob : draft.names t.root) :
      Move R ⟨v, some (session, .paid), none⟩ [draft]
        ⟨v.setCall (callId t.root (v.cycle t.root) used) (some session), none, none⟩
  -- endings
  | pause {v session} {t : TaskView} {job : JobView} (ht : v.tasks session = some t) (hroot : t.parent = none)
      (hjob : v.jobs t.root = some job) (hquiet : v.quiet) :
      Move R ⟨v, some (session, .loose), none⟩ []
        ⟨v.setJob t.root (some (job.wait .pausedBudget (some (satAdd v.now 60000)))), none, none⟩
  | park {v session} {t r : TaskView} {job : JobView} (due : Int) (ht : v.tasks session = some t)
      (hroot : t.parent = none) (hjob : v.jobs t.root = some job) (hr : v.tasks t.root = some r)
      (hdue : v.now < due ∨ 9223372036854775807 ≤ v.now) :
      Move R ⟨v, some (session, .firm []), none⟩ []
        ⟨((v.setJob t.root (some (job.wait .waitingTime (some due)))).regroup t.root r.closed).purge, none, none⟩
  | endRoot {v session grip} {t : TaskView} (status : JobStatus) (ht : v.tasks session = some t)
      (hroot : t.parent = none) (hstray : t.association = none ∨ R.stray) (hended : status.ended = true)
      (hgrip : grip ≠ .soft) :
      Move R ⟨v, some (session, grip), none⟩ []
        ⟨((v.setJob session ((v.jobs session).map fun job => job.wait status none)).setTask session none).setBudget t.root
          none, none, none⟩
  | endChild {v session grip} {t : TaskView} (ht : v.tasks session = some t) (hchild : t.parent ≠ none)
      (hassociation : t.association = none) (hgrip : grip ≠ .soft) :
      Move R ⟨v, some (session, grip), none⟩ [] ⟨v.setTask session none, none, none⟩
  | endAssociation {v session grip o} {t : TaskView} {x : ObservationView} (ht : v.tasks session = some t)
      (ho : t.association = some o) (hx : v.inbox o = some x) (hgrip : grip ≠ .soft) :
      Move R ⟨v, some (session, grip), none⟩ []
        ⟨((v.setTask session none).setBudget session none).setInbox o (some x.settled), none, none⟩
  -- the host
  | mark {v h d session j} {t : TaskView} {job : JobView} (status : JobStatus) (ht : v.tasks session = some t)
      (hj : j = t.root ∨ j = session ∧ t.parent = none ∧ t.association = none) (hjob : v.jobs j = some job)
      (hstrict : R.strict → job.status.ended = false) (hopen : status.ended = false)
      (hawake : status.suspended = false) :
      Move R ⟨v, h, d⟩ [] ⟨v.setJob j (some (job.wait status job.due)), h, d⟩
  | report {v h session} (id : String) (hlive : v.tasks session ≠ none) (hreport : R.report v session id) :
      Move R ⟨v, h, none⟩ [] ⟨v, some (session, .firm [.string id]), none⟩
  | lose {v h session} {t : TaskView} (ht : v.tasks session = some t) (hlose : R.lose v session) :
      Move R ⟨v, h, none⟩ []
        ⟨(v.setTask session (some t.cleared)).dropCalls session, some (session, .loose), none⟩
  | hush {v session grip d} (hgrip : grip = .soft ∨ grip = .loose) :
      Move R ⟨v, some (session, grip), d⟩ [] ⟨v.dropCalls session, some (session, grip), d⟩
  | spawn {v h session} {t : TaskView} (name : String) (ht : v.tasks session = some t)
      (hspawn : R.spawn v session (session ++ ":" ++ name)) :
      Move R ⟨v, h, none⟩ []
        ⟨v.setTask (session ++ ":" ++ name) (some (.opened t.root (some session) (t.depth + 1) none)),
          some (session ++ ":" ++ name, .loose), none⟩
  | unwake {v h d j} {job : JobView} {due : Int} (hjob : v.jobs j = some job) (hdue : job.due = some due)
      (hnow : due ≤ v.now) (hlive : v.tasks j ≠ none) (hawake : job.status.suspended = false) :
      Move R ⟨v, h, d⟩ [] ⟨v.setJob j (some (job.wait job.status none)), h, d⟩
  | rouse {v h j} {job : JobView} {due : Int} (hjob : v.jobs j = some job) (hdue : job.due = some due)
      (hnow : due ≤ v.now) (hlive : v.tasks j ≠ none) (hsuspended : job.status.suspended = true) :
      Move R ⟨v, h, none⟩ [] ⟨v.setJob j (some (job.wait .runnable none)), some (j, .soft), none⟩
  | renew {v h j} {job : JobView} {due : Int} (hjob : v.jobs j = some job) (hdue : job.due = some due)
      (hnow : due ≤ v.now) (hlive : v.tasks j ≠ none) (hsuspended : job.status.suspended = true) (hrenew : R.renew j) :
      Move R ⟨v, h, none⟩ []
        ⟨(v.setJob j (some ⟨.runnable, v.now, none⟩)).setBudget j (some 0), some (j, .soft), none⟩
  | halt {v h j} {job : JobView} (hjob : v.jobs j = some job) (hopen : job.status.ended = false) :
      Move R ⟨v, h, none⟩ []
        ⟨(((v.setJob j (some (job.wait .cancelled none))).keepCalls j).drop j).purge, h, none⟩
  | resume {v h j} {job : JobView} {t : TaskView} (hjob : v.jobs j = some job) (hopen : job.status.ended = false)
      (ht : v.tasks j = some t) (hresume : R.resume t) :
      Move R ⟨v, h, none⟩ []
        ⟨(((v.setJob j (some (job.wait .runnable none))).keepCalls j).regroup j t).purge, some (j, .loose), none⟩

inductive Fault : Desk → Prop
  | noBudget {v session grip} {t : TaskView} (ht : v.tasks session = some t) (hbudget : v.budgets t.root = none)
      (hidle : ∀ job, v.jobs t.root = some job → job.status.idle = false) : Fault ⟨v, some (session, grip), none⟩
  | noObservation {v h session o} {t : TaskView} (ht : v.tasks session = some t) (ho : t.association = some o)
      (hx : v.inbox o = none) : Fault ⟨v, h, none⟩
  | noRoot {v h d j} {job : JobView} (hjob : v.jobs j = some job) (hopen : job.status.ended = false ∨ job.due ≠ none)
      (hroot : v.tasks j = none) : Fault ⟨v, h, d⟩
  | orphan {v session grip} {t : TaskView} {job : JobView} (ht : v.tasks session = some t) (hroot : t.parent = none)
      (hjob : v.jobs t.root = some job) (hnone : v.tasks t.root = none) : Fault ⟨v, some (session, grip), none⟩
  | noJob {v session grip} {t : TaskView} (ht : v.tasks session = some t) (hroot : t.parent = none)
      (hassociation : t.association = none) (hjob : v.jobs session = none) : Fault ⟨v, some (session, grip), none⟩
  | lost {v h o} (hx : v.inbox o = none) : Fault ⟨v, h, some o⟩
  | rigid {v h o} {x : ObservationView} (hx : v.inbox o = some x) (hset : x.settable = false) : Fault ⟨v, h, some o⟩
  | taken {v h o} (hjob : v.jobs o ≠ none) : Fault ⟨v, h, some o⟩

abbrev Mode := Bool × Map String Json

def Engine.mode (e : Engine) : Mode := (e.scheduling, e.resourceErrors)

/-- The engine rests: the view is its own and no observation is left undecided. -/
def Rests (mode : Mode) (e : Engine) (desk : Desk) : Prop :=
  desk.view = e.view ∧ desk.deciding = none ∧ e.mode = mode

abbrev Leads (R : Rules) (mode : Mode) (before : List Draft) (desk : Desk) (outcome : Outcome) : Prop :=
  Follows (Move R) Fault (Rests mode) before desk outcome

end Machine

end Pluribus.Rlm
