import Pluribus.Lib.Results
import Pluribus.Rlm.Tree

namespace Pluribus.Rlm

open Lib List Option
open Engine

section Moves

variable {R : Rules} {s s' : Desk} {xs : List Draft}

attribute [local grind =] filter_eq_none_iff

def View.single (v : View) : Prop := ∀ c c' k k', v.calls c = some k → v.calls c' = some k' → c = c'

theorem Move.single (h : Move R s xs s') (hsingle : s.view.single) : s'.view.single := by
  intro c c' k k' hc hc'
  cases h <;> grind [View.single, View.quiet]

theorem Move.queue_change (h : Move R s xs s') :
    s'.view.queue.Sublist s.view.queue ∨ ∃ k, k ∉ s.view.queue ∧
      (s'.view.queue = k :: s.view.queue ∨ s'.view.queue = s.view.queue ++ [k]) := by
  cases h <;> first
    | exact .inl (Sublist.refl _)
    | exact .inl filter_sublist
    | grind

theorem Move.queue_nodup (h : Move R s xs s') (hnodup : s.view.queue.Nodup) : s'.view.queue.Nodup := by
  rcases h.queue_change with hsub | ⟨k, hout, hqueue | hqueue⟩
  · exact hnodup.sublist hsub
  · rw [hqueue]
    exact nodup_cons.mpr ⟨hout, hnodup⟩
  · rw [hqueue]
    refine nodup_append.mpr ⟨hnodup, nodup_singleton k, ?_⟩
    rintro a ha b hb rfl
    exact hout (mem_singleton.mp hb ▸ ha)

def Desk.apart (s : Desk) : Prop := ∀ k grip, s.hand = some (k, grip) → grip ≠ .soft → k ∉ s.view.queue

theorem Move.queue_live (h : Move R s xs s') (htidy : R.tidy) (hapart : s.apart)
    (hlive : ∀ k ∈ s.view.queue, ∃ t, s.view.tasks k = some t) : ∀ k ∈ s'.view.queue, s'.view.tasks k ≠ none := by
  cases h <;> grind [View.tidy, Desk.apart]

theorem Move.queue_silent (h : Move R s xs s') (hapart : s.apart) (hsingle : s.view.single)
    (hsilent : ∀ k ∈ s.view.queue, ∀ c, s.view.calls c ≠ some k) :
    ∀ k ∈ s'.view.queue, ∀ c, s'.view.calls c ≠ some k := by
  cases h <;> grind [View.calling, View.single, Desk.apart]

theorem Move.apart (h : Move R s xs s') (hapart : s.apart) (hnodup : s.view.queue.Nodup)
    (hsilent : ∀ k ∈ s.view.queue, ∀ c, s.view.calls c ≠ some k)
    (hnew : ∀ o b, s.view.inbox o = none → R.observe o b → associationSession o ∉ s.view.queue)
    (hdecided : ∀ o, s.deciding = some o → o ∉ s.view.queue) (hresume : ∀ t, ¬ R.resume t)
    (hreport : ∀ k id, R.report s.view k id → k ∉ s.view.queue) (hlose : ∀ k, R.lose s.view k → k ∉ s.view.queue)
    (hspawn : ∀ k child, R.spawn s.view k child → child ∉ s.view.queue) : s'.apart := by
  intro k grip hhand hgrip
  cases h <;> grind [Desk.apart]

end Moves

/-- No event is about a queued session, and operators give no orders. -/
def inTurn : Rules where
  observe o _ := Plain o
  tidy := True
  resume _ := False
  report v session _ := session ∉ v.queue
  lose v session := session ∉ v.queue
  spawn v _ child := v.tasks child = none

/-- The queue holds live sessions that wait for nothing else, each once. -/
structure Lined (s : Desk) : Prop extends Base s where
  single : s.view.single
  nodup : s.view.queue.Nodup
  live : ∀ k ∈ s.view.queue, s.view.tasks k ≠ none
  silent : ∀ k ∈ s.view.queue, ∀ c, s.view.calls c ≠ some k
  apart : s.apart

theorem lined_keeps : Keeps inTurn Lined where
  move s xs s' h hs := by
    have hgone : ∀ k, s.view.tasks k = none → k ∉ s.view.queue := fun k hk hmem => hs.live k hmem hk
    have hlive : ∀ k ∈ s.view.queue, ∃ t, s.view.tasks k = some t := fun k hk =>
      ne_none_iff_exists'.mp (hs.live k hk)
    refine ⟨hs.toBase.move (fun _ _ ho => ho) h, h.single hs.single, h.queue_nodup hs.nodup,
      h.queue_live trivial hs.apart hlive, h.queue_silent hs.apart hs.single hs.silent, ?_⟩
    refine h.apart hs.apart hs.nodup hs.silent (fun o b hnew ho => ?_) (fun o hdeciding => ?_) (fun _ => id)
      (fun _ _ => id) (fun _ => id) fun _ child hchild => hgone child hchild
    · exact hgone _ (hs.fresh hnew ho).2.2
    · obtain ⟨hinbox, hjob, -⟩ := hs.deciding o hdeciding
      intro hmem
      obtain ⟨t, ht⟩ := hlive o hmem
      exact (hs.root_of_plain ht (hs.plain o hinbox)).2.2.2 hjob
  release _ _ hs := { hs with toBase := hs.toBase.release, apart := nofun }
  base _ hs := hs.toBase

section Draining

variable {config : Config} {e e' : Engine} {out : List Draft} {session cause : String}

def Outcome.Shrinks (queue : List String) (outcome : Outcome) : Prop := Gives (fun r => r.1.queue.Sublist queue) outcome

theorem expect_gives {α : Type} (panic : Panic) (x : Option α) : Gives (fun a => x = some a) (expect panic x) := by
  cases x with
  | none => exact .error panic
  | some a => exact .ok rfl

namespace Engine

theorem sleep_shrinks {status : JobStatus} {due : Int} : (e.sleep session status due cause).Shrinks e.queue := by
  refine .bind (expect_gives _ _) fun task _ => ?_
  dsimp only
  split
  · exact .ok (Sublist.refl _)
  · refine .ite (fun _ => .ok (Sublist.refl _)) fun _ => .bind (expect_gives _ _) fun root _ => ?_
    exact .ok filter_sublist

theorem endRoot_queue (e : Engine) (session : String) (result : Except String Json) (replies : List Draft) (cause : String) :
    (e.endRoot session result replies cause).1.queue = e.queue := by
  unfold endRoot
  split <;> rfl

theorem finishRoot_shrinks {result : Except String Json} : (e.finishRoot session result cause).Shrinks e.queue := by
  have hend : ∀ (e₁ : Engine) result replies, e₁.queue = e.queue →
      Outcome.Shrinks e.queue (.ok (e₁.endRoot session result replies cause)) := fun e₁ result replies hqueue =>
    .ok ((endRoot_queue _ _ _ _ _).trans hqueue ▸ Sublist.refl _)
  unfold finishRoot
  split
  · exact hend _ _ _ rfl
  · refine .bind (expect_gives _ _) fun task _ => ?_
    refine .ite (fun _ => .ite (fun _ => ?_) fun _ => ?_) fun _ => hend _ _ _ rfl
    · exact .bind (expect_gives _ _) fun job _ => .ok (Sublist.refl _)
    · exact .bind (expect_gives _ _) fun due _ => .map sleep_shrinks

theorem finish_shrinks {result : Except String String} : (e.finish session result cause).Shrinks e.queue := by
  unfold finish
  split
  · exact .ok (Sublist.refl _)
  · dsimp only
    split
    · exact .bind (expect_gives _ _) fun pending _ => .ok (Sublist.refl _)
    · exact finishRoot_shrinks
    · exact .ok (Sublist.refl _)

theorem compactionRequest_shrinks {call : String} :
    (e.compactionRequest config session call cause).Shrinks e.queue := by
  refine .bind (expect_gives _ _) fun task _ => .ite (fun _ => finish_shrinks) fun _ => ?_
  refine .bind (P := fun _ => True) (by cases compactionTurn task <;> trivial) fun turn _ => ?_
  generalize summaryRequest config task turn call = request
  exact .ite (fun _ => finish_shrinks) fun _ => .ite (fun _ => finish_shrinks) fun _ => .ok (Sublist.refl _)

theorem submit_shrinks {task : Task} {vision : Bool} {call : String} :
    (e.submit config session task vision call cause).Shrinks e.queue := by
  refine .ite (fun _ => finish_shrinks) fun _ => .ite (fun _ => compactionRequest_shrinks) fun _ =>
    .ite (fun _ => .ite (fun _ => finishRoot_shrinks) fun _ => finish_shrinks) fun _ =>
    .ite (fun _ => finish_shrinks) fun _ => ?_
  split
  · exact compactionRequest_shrinks
  · exact finish_shrinks
  · exact .ok (Sublist.refl _)

theorem exhaust_shrinks {task : Task} {error : String} : (e.exhaust session task error cause).Shrinks e.queue :=
  .ite (fun _ => finish_shrinks) fun _ => sleep_shrinks

theorem request_shrinks (hs : e.scheduling = true) (hcalls : e.calls.isEmpty = true) :
    (e.request config session cause).Shrinks e.queue := by
  have hroute : Gives (fun e₁ : Engine => e₁.scheduling = e.scheduling ∧ e₁.calls = e.calls ∧ e₁.queue = e.queue)
      (e.route session) := by
    refine .bind (expect_gives _ _) fun task _ => ?_
    split
    · exact .ok ⟨rfl, rfl, rfl⟩
    · refine .bind (expect_gives _ _) fun source _ => .ite (fun _ => ?_) fun _ => .ok ⟨rfl, rfl, rfl⟩
      exact .bind (expect_gives _ _) fun trigger _ => .ok ⟨rfl, rfl, rfl⟩
  refine .bind hroute fun e₁ ⟨hs₁, hcalls₁, hqueue⟩ => ?_
  rw [← hqueue]
  refine .bind (expect_gives _ _) fun task _ => ?_
  refine .ite (fun _ => .ok (Sublist.refl _)) fun _ => .ite (fun _ => finish_shrinks) fun _ =>
    .ite (fun _ => .ok (Sublist.refl _)) fun _ => ?_
  rw [if_neg (by simp [hs₁, hs, hcalls₁, hcalls])]
  refine .ite (fun _ => exhaust_shrinks) fun _ => .bind (expect_gives _ _) fun used _ =>
    .ite (fun _ => exhaust_shrinks) fun _ => ?_
  exact submit_shrinks.mono fun r hr => hr.trans filter_sublist

/-- The scheduler stops when a call is out, when the queue is empty, or at a session that is gone. -/
theorem schedule_stops (fuel : Nat) (hfuel : e.queue.length ≤ fuel) (hcalls : e.calls.isEmpty = true) :
    Gives (fun r => r.1.calls.isEmpty = true → ∀ k, r.1.queue.head? = some k → r.1.tasks.contains k = false)
      (schedule config cause fuel e) := by
  induction fuel generalizing e with
  | zero =>
    obtain hnil : e.queue = [] := length_eq_zero_iff.mp (Nat.le_zero.mp hfuel)
    exact .ok fun _ k hk => by simp [hnil] at hk
  | succ fuel ih =>
    unfold schedule
    split
    · next hnil => exact .ok fun _ k hk => by simp [hnil] at hk
    · next session rest hqueue =>
      refine .ite (fun _ => ?_) fun hgone => .ok fun _ k hk => ?_
      · have hidle : Gives (fun r => r.1.queue.Sublist rest)
            (idle ({ e with queue := rest, scheduling := true }.request config session cause)) :=
          .map (request_shrinks (e := { e with queue := rest, scheduling := true }) rfl hcalls)
        refine .bind hidle fun r hsub => .ite (fun hempty => .map (ih ?_ hempty)) fun hbusy => .ok fun hempty => ?_
        · have hrest := hsub.length_le
          rw [hqueue, length_cons] at hfuel
          omega
        · exact absurd hempty hbusy
      · rw [hqueue, head?_cons, Option.some.injEq] at hk
        simpa [← hk] using hgone

/-- With no call out, the first session of the queue is gone, if there is one. -/
def Stopped (e : Engine) : Prop := e.calls.isEmpty = true → ∀ k, e.queue.head? = some k → e.tasks.contains k = false

theorem drain_stops : Gives (fun r => Stopped r.1) (e.drain config cause) :=
  .ite (fun hcalls => schedule_stops _ (Nat.le_refl _) hcalls) fun hcalls => .ok fun hempty => absurd hempty hcalls

theorem step_stops {input : Input} (hkind : input.kind ≠ .operatorJobControl) :
    Gives (fun r => r.1.queue = e.queue ∧ r.1.calls = e.calls ∨ Stopped r.1) (e.step config input) := by
  have hqueue : (e.prepare input).queue = e.queue :=
    prepare_same queue e input (fun _ _ => rfl) (fun _ _ => rfl) fun _ => rfl
  have hcalls : (e.prepare input).calls = e.calls :=
    prepare_same calls e input (fun _ _ => rfl) (fun _ _ => rfl) fun _ => rfl
  have hreact : ∀ e₁ : Engine, Gives (fun r => r.1.queue = e.queue ∧ r.1.calls = e.calls ∨ Stopped r.1)
      (e₁.react config input.id input.kind input.value input.cause) := by
    intro e₁
    refine .bind (P := fun _ => True) (by cases (recoverResources _ _ _) <;> trivial) fun recovered _ => ?_
    refine .bind (P := fun _ => True) (by cases (handleEvent _ _ _ _ _ _) <;> trivial) fun handled _ => ?_
    exact .bind drain_stops fun drained hstopped => .ok (.inr hstopped)
  unfold step event
  split
  · next h => exact absurd h hkind
  · refine .ok (.inl ?_)
    unfold attemptReconciled
    dsimp only
    split <;> exact ⟨hqueue, hcalls⟩
  · dsimp only
    split
    · exact .ite (fun _ => .ok (.inl ⟨hqueue, hcalls⟩)) fun _ => hreact _
    · exact hreact _

end Engine

end Draining

section Runs

variable {config : Config} {e e' : Engine} {out : List Draft} {input : Input} {j : String}

def Engine.tidyFor (e : Engine) (j : String) : Bool :=
  e.queue.all fun session => (e.tasks.find session).all fun task => task.root ≠ j || session = j

theorem Engine.tidyFor_view (h : e.tidyFor j = true) : e.view.tidy j := by
  intro session hmem t ht hroot
  obtain ⟨task, hfind, rfl⟩ := Map.of_through ht
  have hall := all_eq_true.mp h session hmem
  rw [show e.tasks.find session = some task from hfind, all_some] at hall
  have hroot : task.root = j := hroot
  simpa [hroot] using hall

def Engine.decidedJob (value : Json) : Option String :=
  ((Engine.decisionOf (value.index "message")).index "jobId").asStr

/-- An event is about no queued session: cells that end and sessions that are lost are not queued, children get new
names, and a job that is amended has no queued child. -/
def Engine.takesTurn (e : Engine) (input : Input) : Bool :=
  let session := (input.value.getStr "sessionId").getD ""
  input.observation.all (fun o => ((boundedObservation o.1 o.2).index "jobId").asStr.all e.tidyFor) &&
    match input.kind with
    | .modelCompleted | .modelFailed =>
      ((e.calls.find (Engine.answeredCall input.value)).bind e.tasks.find).all fun task =>
        task.association.isNone || (Engine.decidedJob input.value).all e.tidyFor
    | .codeCompleted | .codeFailed =>
      (e.tasks.find session).all fun task => !e.accepts input.kind input.value task || session ∉ e.queue
    | .codeYielded =>
      (e.tasks.find session).all fun task =>
        !(task.cellRevision = task.revision && (input.value.index "method").asStr = some "rlm.query") ||
          !e.tasks.contains (session ++ ":" ++ (input.value.index "id").text)
    | .cognitionResourceExhausted =>
      (e.reported input.value).all fun session =>
        (e.tasks.find session).all fun task => !Engine.concerns input.value task || session ∉ e.queue
    | _ => true

/-- Observations have plain ids, operators give no orders, and an event not seen before is about no queued session. -/
def Engine.takingTurns (e : Engine) (input : Input) : Bool :=
  input.plain && input.kind ≠ .operatorJobControl && (e.seen input || (e.met input).takesTurn input)

theorem meets_inTurn (hb : Base ⟨e.view, none, none⟩) (h : e.takingTurns input = true) : Meets inTurn inTurn e input := by
  obtain ⟨h, hturn⟩ := Bool.and_eq_true_iff.mp h
  obtain ⟨hplain, hkind⟩ := Bool.and_eq_true_iff.mp h
  have hkind : input.kind ≠ .operatorJobControl := of_decide_eq_true hkind
  refine ⟨trivial, trivial, fun hcontrol => absurd hcontrol hkind, fun _ _ hnew => ?_⟩
  rw [hnew, Bool.false_or] at hturn
  obtain ⟨hnames, hturn⟩ := Bool.and_eq_true_iff.mp hturn
  refine Demands.allows (base_met hb input) hplain ⟨fun o payload ho => ?_, ?_, ?_, ?_, ?_, ?_, nofun⟩
  · refine ⟨input.plain_id hplain ho, fun _ _ _ _ _ _ => trivial, fun _ j hj => tidyFor_view ?_⟩
    simpa [ho, hj] using hnames
  · intro hkind session task hcall ht
    refine ⟨trivial, fun o ho => ⟨fun _ j hj => tidyFor_view ?_, fun _ _ _ _ _ _ _ => trivial⟩⟩
    have hj : decidedJob input.value = some j := hj
    rcases hkind with hkind | hkind <;> simpa [hkind, hcall, ht, ho, hj] using hturn
  · rintro hkind session task rfl ht haccepts
    refine ⟨?_, fun _ => trivial⟩
    change (input.value.getStr "sessionId").getD "" ∉ (e.met input).queue
    rcases hkind with hkind | hkind <;> rw [hkind] at haccepts <;> simpa [hkind, ht, haccepts] using hturn
  · rintro hkind session task rfl ht hrevision hmethod
    refine view_no_task ?_
    simpa [hkind, ht, hrevision, hmethod, Map.contains] using hturn
  · intro hkind session task hreported ht hconcerns
    change session ∉ (e.met input).queue
    simpa [hkind, hreported, ht, hconcerns] using hturn
  · exact fun _ _ _ => trivial

/-- The queue is in order, and nobody waits while no call is out. -/
structure Engine.InLine (e : Engine) : Prop where
  nodup : e.queue.Nodup
  queued : ∀ session ∈ e.queue, (∃ task, e.tasks.find session = some task) ∧ session ∉ e.calls.values
  drained : e.calls.isEmpty = true → e.queue = []

theorem lined_run (h : Chain (Steps config takingTurns) {} out e) :
    Calm Lined e ∧ (e.calls.isEmpty = true → e.queue = []) := by
  refine h.invariant (I := fun e => Calm Lined e ∧ (e.calls.isEmpty = true → e.queue = [])) ?_ ⟨⟨rfl, ?_⟩, fun _ => rfl⟩
  · rintro e out e' ⟨input, hturns, hstep⟩ ⟨he, hdrained⟩
    have he' := he.step lined_keeps (meets_inTurn he.view.toBase hturns) hstep
    have hkind : input.kind ≠ .operatorJobControl := by
      simp only [takingTurns, Bool.and_eq_true, decide_eq_true_eq] at hturns
      exact hturns.1.2
    refine ⟨he', fun hempty => ?_⟩
    rcases (step_stops hkind).of_ok hstep with ⟨hqueue, hcalls⟩ | hstopped
    · exact hqueue.trans (hdrained (hcalls ▸ hempty))
    · -- the head of the queue would be gone, but queued sessions are live
      cases hqueue : e'.queue with
      | nil => rfl
      | cons k rest =>
        have hgone := hstopped hempty k (by simp [hqueue])
        have hlive := he'.view.live k (by simp [view, hqueue])
        simp only [Map.contains, isSome_eq_false_iff, isNone_iff_eq_none] at hgone
        exact absurd (view_no_task hgone) hlive
  · exact { base_default with
      single := fun _ _ _ _ h => absurd h (some_ne_none _).symm
      nodup := nodup_nil
      live := forall_mem_nil _
      silent := forall_mem_nil _
      apart := fun _ _ h => absurd h (some_ne_none _).symm }

/-- The queue is in order in every state of a run whose events are about no queued session. -/
theorem queue_in_order (hrun : Chain (Steps config Engine.takingTurns) {} out e) : e.InLine := by
  obtain ⟨⟨-, hs⟩, hdrained⟩ := lined_run hrun
  refine ⟨hs.nodup, fun session hmem => ⟨?_, fun hcalling => ?_⟩, hdrained⟩
  · obtain ⟨t, ht⟩ := ne_none_iff_exists'.mp (hs.live session hmem)
    obtain ⟨task, hfind, -⟩ := Map.of_through ht
    exact ⟨task, hfind⟩
  · obtain ⟨call, hcall⟩ := Map.mem_values.mp hcalling
    exact hs.silent session hmem call hcall

theorem queue_in_order_second : ∃ e out, Chain (Steps bare Engine.takingTurns) {} out e ∧ e.queue = ["b"] ∧ e.InLine := by
  obtain ⟨e, out, hrun, hqueue⟩ := exists_run bare takingTurns {}
    [received "a" (message "c"), received "b" (message "d")] (fun r => r.1.queue = ["b"]) (by decide +kernel)
  exact ⟨e, out, hrun, of_decide_eq_true hqueue, queue_in_order hrun⟩

/-- A queued session that ends over its resources stays queued. -/
theorem queue_holds_dead_session : ∃ e out, Chain (Steps bare fun _ input => input.kind ≠ .operatorJobControl) {} out e ∧
    "b" ∈ e.queue ∧ e.tasks.contains "b" = false := by
  obtain ⟨e, out, hrun, h⟩ := exists_run bare (fun _ input => input.kind ≠ .operatorJobControl) {}
    [received "a" (message "c"), received "b" (message "d"), exhausted "r1" "b", exhausted "r2" "b", exhausted "r3" "b"]
    (fun r => "b" ∈ r.1.queue && !r.1.tasks.contains "b") (by decide +kernel)
  rw [Bool.and_eq_true, decide_eq_true_eq, Bool.not_eq_true'] at h
  exact ⟨e, out, hrun, h⟩

end Runs

end Pluribus.Rlm
