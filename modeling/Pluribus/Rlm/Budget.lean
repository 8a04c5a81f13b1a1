import Pluribus.Lib.Numeral
import Pluribus.Rlm.Queue

namespace Pluribus.Rlm

open Lib List Option Draft
open Engine

variable {R : Rules} {s s' : Desk} {xs : List Draft}

section Moves

variable {j r : String}

attribute [local grind =] filter_eq_none_iff

/-- A model request is for the session a call was spent on, and says which call of its root's it is. -/
theorem Move.issued {draft : Draft} (h : Move R s xs s') (hdraft : draft ∈ xs) (hkind : draft.kind = .modelRequested) :
    xs = [draft] ∧ s'.hand = none ∧ s'.view.jobs = s.view.jobs ∧ s'.view.budgets = s.view.budgets ∧
      s'.view.inbox = s.view.inbox ∧ s'.view.now = s.view.now ∧ R.issue ∧
      ∃ k t used, s.hand = some (k, .paid) ∧ s.view.tasks k = some t ∧ s.view.budgets t.root = some used ∧
        draft.payload.index "call_id" = .string (callId t.root (s.view.cycle t.root) used) ∧ draft.names t.root := by
  cases h <;> grind [View.speaks]

theorem Move.budget_fate {u' : Nat} (h : Move R s xs s') (hbudget : s'.view.budgets r = some u') :
    s.view.budgets r = some u' ∨ (∃ u, s.view.budgets r = some u ∧ u' = u + 1 ∧ u < 32) ∨
      u' = 0 ∧ (s.deciding = some r ∨ (∃ o b, r = associationSession o ∧ s.view.inbox o = none ∧ R.observe o b) ∨
        R.renew r ∧ ∃ job due, s.view.jobs r = some job ∧ job.due = some due ∧ due ≤ s.view.now ∧
          s'.view.jobs r = some ⟨.runnable, s.view.now, none⟩) := by
  cases h <;> grind

theorem Move.paid_cases {k : String} (h : Move R s xs s') (hhand : s'.hand = some (k, .paid)) :
    s.hand = some (k, .paid) ∧ s'.view.budgets = s.view.budgets ∧
        (∀ t', s'.view.tasks k = some t' → ∃ t, s.view.tasks k = some t ∧ t'.root = t.root) ∨
      ∃ t u, s.view.tasks k = some t ∧ s'.view.tasks k = some t ∧ s.view.budgets t.root = some u ∧
        s'.view.budgets t.root = some (u + 1) := by
  cases h <;> grind

theorem Move.cycle_cases {job' : JobView} (h : Move R s xs s') (hjob : s'.view.jobs r = some job') :
    (∃ job, s.view.jobs r = some job ∧ job'.cycle = job.cycle) ∨ s.deciding = some r ∨
      ∃ job due, s.view.jobs r = some job ∧ job.due = some due ∧ due ≤ s.view.now ∧ job'.cycle = s.view.now ∧ R.renew r := by
  cases h <;> grind

theorem lt_satAdd {now : Int} (h : now < 9223372036854775807) : now < satAdd now 60000 := by
  unfold satAdd
  omega

theorem Move.begun (h : Move R s xs s') (htick : ∀ now now', R.tick now now' → now ≤ now')
    (hbegun : ∀ j job, s.view.jobs j = some job → job.cycle ≤ s.view.now) :
    ∀ j job, s'.view.jobs j = some job → job.cycle ≤ s'.view.now := by
  cases h <;> grind

theorem Move.later (h : Move R s xs s') (hclock : s.view.now < 9223372036854775807)
    (hbegun : ∀ j job, s.view.jobs j = some job → job.cycle ≤ s.view.now)
    (hlater : ∀ j job due, s.view.jobs j = some job → job.due = some due → job.cycle < due) :
    ∀ j job due, s'.view.jobs j = some job → job.due = some due → job.cycle < due := by
  have hpause := lt_satAdd hclock
  cases h <;> grind

theorem Move.clock (h : Move R s xs s') : s'.view.now = s.view.now ∨ R.tick s.view.now s'.view.now := by
  cases h <;> grind

end Moves

variable {j : String} {n : Nat}

section Counting

def Draft.callsFor (j : String) (draft : Draft) : Bool :=
  draft.kind = .modelRequested && draft.payload.index "jobId" = .string j

/-- At most as many calls as a job's budget says have been made for it. -/
structure Counted (j : String) (s : Desk) (n : Nat) : Prop extends Base s where
  single : s.view.single
  fresh : s.view.jobs j = none → n = 0
  within : ∀ u, s.view.budgets j = some u → n ≤ u ∧ u ≤ 32
  bound : n ≤ 32
  paid : ∀ k t u, s.hand = some (k, .paid) → s.view.tasks k = some t → t.root = j → s.view.budgets j = some u → n < u

theorem Counted.mono {m : Nat} (hs : Counted j s n) (h : m ≤ n) : Counted j s m where
  toBase := hs.toBase
  single := hs.single
  fresh hjob := by
    have := hs.fresh hjob
    omega
  within u hu := by
    have := hs.within u hu
    omega
  bound := h.trans hs.bound
  paid k t u hhand ht hroot hu := lt_of_le_of_lt h (hs.paid k t u hhand ht hroot hu)

theorem Counted.other (hs : Counted j s n) (hbase : Base s') (hplain : Plain j) (hrenew : R.renew j → n = 0)
    (h : Move R s xs s') : Counted j s' n where
  toBase := hbase
  single := h.single hs.single
  fresh hjob := hs.fresh (by_contra fun hold => h.job_kept hold hjob)
  within u' hu' := by
    rcases h.budget_fate hu' with hold | ⟨u, hu, rfl, hleft⟩ | ⟨rfl, hdeciding | ⟨o, b, hname, -⟩ | ⟨hreset, -⟩⟩
    · exact hs.within u' hold
    · have := hs.within u hu
      omega
    · rw [hs.fresh (hs.deciding j hdeciding).2.1]
      omega
    · exact absurd hname hplain.ne_association
    · rw [hrenew hreset]
      omega
  bound := hs.bound
  paid k t' u' hhand ht' hroot hu' := by
    rcases h.paid_cases hhand with ⟨hold, hbudgets, htasks⟩ | ⟨t, u, ht, hsame, hu, hspent⟩
    · obtain ⟨t, ht, heq⟩ := htasks t' ht'
      exact hs.paid k t u' hold ht (heq.symm.trans hroot) (hbudgets ▸ hu')
    · obtain rfl : t = t' := some.inj (hsame.symm.trans ht')
      subst hroot
      obtain rfl : u + 1 = u' := some.inj (hspent.symm.trans hu')
      have := hs.within u hu
      omega

theorem Counted.move (hs : Counted j s n) (hobserve : ∀ o b, R.observe o b → Plain o) (hplain : Plain j)
    (hrenew : R.renew j → n = 0) (h : Move R s xs s') : Counted j s' (n + xs.countP (callsFor j)) := by
  have hbase := hs.toBase.move hobserve h
  have hother := hs.other hbase hplain hrenew h
  by_cases hcall : ∃ draft ∈ xs, draft.callsFor j = true
  · obtain ⟨draft, hmem, hfor⟩ := hcall
    simp only [callsFor, Bool.and_eq_true, decide_eq_true_eq] at hfor
    obtain ⟨rfl, hhand, hjobs, hbudgets, -, -, -, k, t, used, hpaid, ht, hused, -, hnames⟩ := h.issued hmem hfor.1
    obtain rfl : t.root = j := Json.string.inj (hnames.symm.trans hfor.2)
    have hcount : [draft].countP (callsFor t.root) = 1 := by simp [callsFor, hfor.1, hfor.2]
    have hless := hs.paid k t used hpaid ht rfl hused
    have hwithin := hs.within used hused
    refine { toBase := hbase, single := h.single hs.single, fresh := fun hjob => ?_, within := fun u hu => ?_, bound := by omega, paid := ?_ }
    · rcases hs.root_cases ht with hknown | ⟨o, -, hname⟩
      · exact absurd (hjobs ▸ hjob) hknown
      · exact absurd hname hplain.ne_association
    · rw [hbudgets, hused] at hu
      cases hu
      omega
    · simp [hhand]
  · have hcount : xs.countP (callsFor j) = 0 := by
      rw [countP_eq_zero]
      exact fun draft hmem hfor => hcall ⟨draft, hmem, hfor⟩
    rwa [hcount, Nat.add_zero]

end Counting

section Naming

theorem callId_inj {r r' : String} {c c' : Int} {u u' : Nat} (h : callId r c u = callId r' c' u') :
    r = r' ∧ c = c' ∧ u = u' := by
  obtain ⟨hleft, hused⟩ := colon_inj (colon_not_mem_repr u) (colon_not_mem_repr u') h
  have hmodel : ":model:" = ":model" ++ ":" := by decide
  rw [hmodel, ← String.append_assoc, ← String.append_assoc] at hleft
  obtain ⟨hroot, hcycle⟩ := colon_inj (colon_not_mem_int_repr c) (colon_not_mem_int_repr c') hleft
  have hlist := congrArg String.toList hroot
  rw [String.toList_append, String.toList_append] at hlist
  exact ⟨String.toList_inj.mp (append_cancel_right hlist), int_repr_inj hcycle, nat_repr_inj hused⟩

def Draft.call (draft : Draft) : Option Json :=
  if draft.kind = .modelRequested then some (draft.payload.index "call_id") else none

variable {r : String} {c : Int} {u : Nat} {ids : List Json}

/-- Whose calls there may be: a job's, or those that route an observation. -/
def View.knows (v : View) (r : String) : Prop := v.jobs r ≠ none ∨ ∃ o, r = associationSession o ∧ v.inbox o ≠ none

/-- A call of an earlier cycle, or an earlier one of the cycle. -/
def Desk.past (s : Desk) (r : String) (c : Int) (u : Nat) : Prop :=
  c < s.view.cycle r ∨ c = s.view.cycle r ∧ ∀ used, s.view.budgets r = some used →
    u ≤ used ∧ ∀ k t, s.hand = some (k, .paid) → s.view.tasks k = some t → t.root = r → u < used

/-- Calls made so far have different ids, all of the past. -/
structure Distinct (s : Desk) (ids : List Json) : Prop extends Base s where
  clock : s.view.now < 9223372036854775807
  begun : ∀ j job, s.view.jobs j = some job → job.cycle ≤ s.view.now
  later : ∀ j job due, s.view.jobs j = some job → job.due = some due → job.cycle < due
  single : s.view.single
  made : ∀ id ∈ ids, ∃ r c u, id = .string (callId r c u) ∧ s.view.knows r ∧ s.past r c u
  nodup : ids.Nodup

theorem Distinct.sublist {ids' : List Json} (hs : Distinct s ids) (h : ids'.Sublist ids) : Distinct s ids' :=
  { hs with made := fun id hid => hs.made id (h.subset hid), nodup := hs.nodup.sublist h }

theorem Distinct.not_new (hs : Distinct s ids) (hknows : s.view.knows r) :
    s.deciding ≠ some r ∧ ∀ o b, r = associationSession o → s.view.inbox o = none → ¬ R.observe o b := by
  constructor
  · intro hdeciding
    obtain ⟨hinbox, hjob, -⟩ := hs.deciding r hdeciding
    rcases hknows with hold | ⟨o, rfl, -⟩
    · exact hold hjob
    · exact (hs.plain _ hinbox).ne_association rfl
  · rintro o b rfl hnew -
    rcases hknows with hold | ⟨o', hname, hold⟩
    · exact hold hs.no_job
    · exact hold (associationSession_inj hname ▸ hnew)

theorem Distinct.past_move (hs : Distinct s ids) (h : Move R s xs s') (hknows : s.view.knows r) (hpast : s.past r c u) :
    s'.past r c u := by
  obtain ⟨hdeciding, hnew⟩ := hs.not_new (R := R) hknows
  -- the cycle is the same, unless a new one begins, and then it begins later
  have hcycle : s'.view.cycle r = s.view.cycle r ∨ s.view.cycle r < s'.view.cycle r := by
    cases hjob' : s'.view.jobs r with
    | none =>
      have hjob : s.view.jobs r = none := by_contra fun hold => h.job_kept hold hjob'
      exact .inl (by simp [View.cycle, hjob, hjob'])
    | some job' =>
      rcases h.cycle_cases hjob' with ⟨job, hjob, heq⟩ | hd | ⟨job, due, hjob, hdue, hnow, heq, -⟩
      · exact .inl (by simp [View.cycle, hjob, hjob', heq])
      · exact absurd hd hdeciding
      · have := hs.later r job due hjob hdue
        simp only [View.cycle, hjob, hjob', heq, map_some, getD_some]
        omega
  rcases hcycle with hsame | hmore
  · rcases hpast with hless | ⟨rfl, hused⟩
    · exact .inl (hsame ▸ hless)
    · by_cases hstrict : s.view.cycle r < s'.view.cycle r
      · exact .inl hstrict
      refine .inr ⟨hsame.symm, fun used' hused' => ?_⟩
      have hmore : ∀ used, s.view.budgets r = some used → used' = used + 1 → u ≤ used' ∧ u < used' := by
        intro used hold heq
        have := (hused used hold).1
        omega
      rcases h.budget_fate hused' with hold | ⟨used, hold, heq, -⟩ | ⟨-, hd | ⟨o, b, hname, hinbox, hobserve⟩ |
        ⟨-, job, due, hjob, hdue, hnow, hjob'⟩⟩
      · refine ⟨(hused used' hold).1, fun k t' hhand ht' hroot => ?_⟩
        rcases h.paid_cases hhand with ⟨hbefore, -, htasks⟩ | ⟨t, used, ht, hsameTask, hspent, hbudget⟩
        · obtain ⟨t, ht, heq⟩ := htasks t' ht'
          exact (hused used' hold).2 k t hbefore ht (heq.symm.trans hroot)
        · obtain rfl : t = t' := some.inj (hsameTask.symm.trans ht')
          subst hroot
          exact (hmore used hspent (some.inj (hused'.symm.trans hbudget))).2
      · have := hmore used hold heq
        exact ⟨this.1, fun _ _ _ _ _ => this.2⟩
      · exact absurd hd hdeciding
      · exact absurd hobserve (hnew o b hname hinbox)
      · refine absurd ?_ hstrict
        have := hs.later r job due hjob hdue
        simp only [View.cycle, hjob, hjob', map_some, getD_some]
        omega
  · rcases hpast with hless | ⟨rfl, -⟩
    · exact .inl (hless.trans hmore)
    · exact .inl hmore

theorem Distinct.move (hs : Distinct s ids) (hobserve : ∀ o b, R.observe o b → Plain o)
    (htick : ∀ now now', R.tick now now' → now ≤ now' ∧ now' < 9223372036854775807) (h : Move R s xs s') :
    Distinct s' (ids ++ xs.filterMap call) := by
  have hknows : ∀ {r}, s.view.knows r → s'.view.knows r := by
    rintro r (hjob | ⟨o, hname, hinbox⟩)
    · exact .inl (h.job_kept hjob)
    · exact .inr ⟨o, hname, h.inbox_kept hinbox⟩
  have hold : Distinct s' ids :=
    { toBase := hs.toBase.move hobserve h
      clock := h.clock.elim (fun heq => heq ▸ hs.clock) fun ht => (htick _ _ ht).2
      begun := h.begun (fun now now' ht => (htick now now' ht).1) hs.begun
      later := h.later hs.clock hs.begun hs.later
      single := h.single hs.single
      made := fun id hid => by
        obtain ⟨r, c, u, heq, hknown, hpast⟩ := hs.made id hid
        exact ⟨r, c, u, heq, hknows hknown, hs.past_move h hknown hpast⟩
      nodup := hs.nodup }
  by_cases hcall : ∃ draft ∈ xs, draft.kind = .modelRequested
  · obtain ⟨draft, hmem, hkind⟩ := hcall
    obtain ⟨rfl, hhand, hjobs, hbudgets, -, -, -, k, t, used, hpaid, ht, hused, hid, -⟩ := h.issued hmem hkind
    have hcalls : [draft].filterMap call = [.string (callId t.root (s.view.cycle t.root) used)] := by
      simp [call, hkind, hid]
    have hcycle : s'.view.cycle t.root = s.view.cycle t.root := by rw [View.cycle, hjobs, ← View.cycle]
    rw [hcalls]
    refine { hold with made := fun id hmade => ?_, nodup := nodup_append.mpr ⟨hs.nodup, nodup_singleton _, ?_⟩ }
    · rcases mem_append.mp hmade with hmade | hmade
      · exact hold.made id hmade
      · refine ⟨t.root, s.view.cycle t.root, used, mem_singleton.mp hmade, ?_, .inr ⟨hcycle.symm, fun used' h' => ?_⟩⟩
        · rcases hs.root_cases ht with hjob | ⟨o, hinbox, hname⟩
          · exact hknows (.inl hjob)
          · exact hknows (.inr ⟨o, hname, hinbox⟩)
        · rw [hbudgets, hused] at h'
          cases h'
          exact ⟨le_refl _, by simp [hhand]⟩
    · -- a call made before is of the past, and this one is not
      rintro id hmade id' hnew rfl
      obtain ⟨r, c, u, heq, -, hpast⟩ := hs.made id hmade
      obtain ⟨rfl, rfl, rfl⟩ := callId_inj (Json.string.inj (heq.symm.trans (mem_singleton.mp hnew)))
      rcases hpast with hless | ⟨-, hpast⟩
      · exact lt_irrefl _ hless
      · exact lt_irrefl _ ((hpast _ hused).2 k t hpaid ht rfl)
  · have hcalls : xs.filterMap call = [] := by
      rw [filterMap_eq_nil_iff]
      exact fun draft hmem => if_neg fun hkind => hcall ⟨draft, hmem, hkind⟩
    rwa [hcalls, append_nil]

end Naming

section Runs

variable {config : Config} {e e' e₁ e₂ : Engine} {out out₁ out₂ : List Draft} {input : Input} {issue : Prop}
  {renew renew' : String → Prop}

/-- Observations have plain ids; the clock ticks, and model calls and new cycles happen, only as said. -/
def pacing (tick : Int → Int → Prop) (issue : Prop) (renew : String → Prop) : Rules where
  tick := tick
  observe o _ := Plain o
  issue := issue
  renew := renew

/-- Events as the host makes them: their ids are plain. -/
def hosted (_ : Engine) (input : Input) : Bool := input.plain

/-- Nothing is asked of the clock. -/
def anyTime (_ _ : Int) : Prop := True

/-- The clock neither goes back nor comes to its end. -/
def onward (now now' : Int) : Prop := now ≤ now' ∧ now' < 9223372036854775807

def Engine.timely (e : Engine) (input : Input) : Bool :=
  input.plain && e.nowMs ≤ input.nowMs && input.nowMs < 9223372036854775807

def Engine.renews (e : Engine) (input : Input) (j : String) : Bool :=
  input.kind = .timerFired &&
    match (e.met input).jobs.rows.find? fun row =>
      (e.met input).wakes ((input.value.getStr "requestEventId").getD "") row.2 with
    | some (woken, job) => woken = j && job.status.suspended &&
        (1800000 ≤ satSub (e.met input).nowMs job.cycleStartedMs || 32 ≤ ((e.met input).budgets.find j).getD 0)
    | none => false

theorem Engine.renews_of_resets (hkind : input.kind = .timerFired) (h : (e.met input).resets input.value j) :
    e.renews input j = true := by
  obtain ⟨job, hfind, hsuspended, hreset⟩ := h
  simp [renews, hkind, hfind, hsuspended, hreset]

theorem meets_pacing {tick : Int → Int → Prop} (hb : Base ⟨e.view, none, none⟩) (hplain : input.plain = true)
    (htick : tick e.nowMs input.nowMs) (hrenew : ∀ j, e.renews input j = true → renew j) :
    Meets (pacing tick issue renew) (pacing tick True renew') e input := by
  refine ⟨htick, trivial, fun _ _ _ _ _ _ _ => trivial, fun _ _ _ => ?_⟩
  refine Demands.allows (base_met hb input) hplain ⟨fun o payload ho => ?_, ?_, ?_, ?_, ?_, ?_, nofun⟩
  · exact admits_lax (input.plain_id hplain ho) trivial id
  · exact fun _ _ _ _ _ => answers_lax (fun _ => trivial) (fun _ => trivial) id
  · exact fun _ _ _ _ _ _ => ⟨trivial, fun _ => trivial⟩
  · exact fun _ _ _ _ _ _ _ => trivial
  · exact fun _ _ _ _ _ _ => trivial
  · exact fun hkind j hresets => hrenew j (renews_of_resets hkind hresets)

theorem forall₂_stamped {β : Type} {f : Draft → β} {drafts : List Draft}
    (hf : ∀ draft stamped, Stamped draft stamped → f stamped = f draft)
    (h : Forall₂ Stamped drafts out) : out.map f = drafts.map f := by
  induction h with
  | nil => rfl
  | cons hstamped _ ih => rw [map_cons, map_cons, hf _ _ hstamped, ih]

theorem Draft.call_stamped {draft stamped : Draft} (h : Stamped draft stamped) : stamped.call = draft.call := by
  rw [call, call, h.1, h.2.2 "call_id" (by decide)]

theorem Draft.callsFor_stamped {draft stamped : Draft} (h : Stamped draft stamped) :
    stamped.callsFor j = draft.callsFor j := by
  rw [callsFor, callsFor, h.1, h.2.2 "jobId" (by decide)]

/-- Calls of a step: none while the event is handled, and those of the scheduler within the budget. -/
theorem counted_step (hmode : e.mode = (false, .empty)) (hs : Counted j ⟨e.view, none, none⟩ n) (hplain : Plain j)
    (hhosted : input.plain = true) (hrenew : e.renews input j = true → n = 0)
    (hstep : e.step config input = .ok (e', out)) :
    e'.mode = (false, .empty) ∧ Counted j ⟨e'.view, none, none⟩ (n + out.countP (callsFor j)) := by
  have hmeets : Meets (pacing anyTime False fun k => k = j → n = 0) (pacing anyTime True fun _ => False) e input :=
    meets_pacing hs.toBase hhosted trivial fun k hk heq => hrenew (heq ▸ hk)
  have hphases := step_phases config hmode (rooted_of_base hs.toBase) hmeets
  rw [hstep] at hphases
  obtain ⟨xs, ys, middle, ⟨v, hand, deciding⟩, drafts, hfirst, hsecond, ⟨hview, hdeciding, hmode'⟩, hsub, hstamped⟩ := hphases
  obtain rfl : v = e'.view := hview
  obtain rfl : deciding = none := hdeciding
  have hmiddle : Counted j middle n := by
    refine hfirst.invariant (I := fun s => Counted j s n) (fun s xs s' h hs => ?_) hs
    have hreset : (pacing anyTime False fun k => k = j → n = 0).renew j → n = 0 := fun hrenew => hrenew rfl
    exact hs.other (hs.toBase.move (fun _ _ ho => ho) h) hplain hreset h
  have hsilent : xs.countP (callsFor j) = 0 := by
    rw [countP_eq_zero]
    refine hfirst.outputs (I := fun _ => True) (fun _ _ _ _ _ => trivial) (fun s xs s' h _ draft hmem hfor => ?_) trivial
    simp only [callsFor, Bool.and_eq_true, decide_eq_true_eq] at hfor
    obtain ⟨-, -, -, -, -, -, hissue, -⟩ := h.issued hmem hfor.1
    exact hissue
  have hlast : Counted j ⟨e'.view, hand, none⟩ (n + ys.countP (callsFor j)) := by
    have h := hsecond.history (I := fun s past => Counted j s (n + past.countP (callsFor j)))
      (fun s xs s' past h hs => ?_) (l := []) (by simpa using hmiddle)
    · simpa using h
    · rw [countP_append, ← Nat.add_assoc]
      have hreset : (pacing anyTime True fun _ => False).renew j → n + past.countP (callsFor j) = 0 := False.elim
      exact hs.move (fun _ _ ho => ho) hplain hreset h
  have hcount : out.countP (callsFor j) ≤ ys.countP (callsFor j) := by
    have hle := hsub.countP_le (p := callsFor j)
    rw [countP_append, hsilent, Nat.zero_add] at hle
    have hmap := forall₂_stamped (fun _ _ h => callsFor_stamped (j := j) h) hstamped
    have heq : out.countP (callsFor j) = drafts.countP (callsFor j) := by
      simpa [countP_map] using congrArg (countP id) hmap
    omega
  have hless := hlast.mono (Nat.add_le_add_left hcount n)
  exact ⟨hmode', { hless with toBase := hless.toBase.release, paid := nofun }⟩

theorem distinct_step {ids : List Json} (hmode : e.mode = (false, .empty)) (hs : Distinct ⟨e.view, none, none⟩ ids)
    (htimely : e.timely input = true) (hstep : e.step config input = .ok (e', out)) :
    e'.mode = (false, .empty) ∧ Distinct ⟨e'.view, none, none⟩ (ids ++ out.filterMap call) := by
  simp only [timely, Bool.and_eq_true, decide_eq_true_eq] at htimely
  have hmeets : Meets (pacing onward True fun _ => True) (pacing onward True fun _ => True) e input :=
    meets_pacing hs.toBase htimely.1.1 ⟨htimely.1.2, htimely.2⟩ fun _ _ => trivial
  have hphases := step_phases config hmode (rooted_of_base hs.toBase) hmeets
  rw [hstep] at hphases
  obtain ⟨xs, ys, middle, ⟨v, hand, deciding⟩, drafts, hfirst, hsecond, ⟨hview, hdeciding, hmode'⟩, hsub, hstamped⟩ := hphases
  obtain rfl : v = e'.view := hview
  obtain rfl : deciding = none := hdeciding
  have hlast : Distinct ⟨e'.view, hand, none⟩ (ids ++ (xs ++ ys).filterMap call) := by
    have h := (hfirst.trans hsecond).history (I := fun s past => Distinct s (ids ++ past.filterMap call))
      (fun s xs s' past h hs => ?_) (l := []) (by simpa using hs)
    · simpa using h
    · rw [filterMap_append, ← append_assoc]
      exact hs.move (fun _ _ ho => ho) (fun _ _ ht => ht) h
  have hcalls : out.filterMap call = drafts.filterMap call := by
    have hmap := forall₂_stamped (fun _ _ h => call_stamped h) hstamped
    simpa [filterMap_map] using congrArg (filterMap id) hmap
  have hless := hlast.sublist (Sublist.append_left (hcalls ▸ hsub.filterMap call) ids)
  refine ⟨hmode', { hless with toBase := hless.toBase.release, made := fun id hid => ?_ }⟩
  obtain ⟨r, c, u, heq, hknows, hpast⟩ := hless.made id hid
  exact ⟨r, c, u, heq, hknows, hpast.imp_right fun h => ⟨h.1, fun used hused => ⟨(h.2 used hused).1, nofun⟩⟩⟩

def Engine.pressing (j : String) (e : Engine) (input : Input) : Bool := input.plain && !e.renews input j

theorem distinct_run (h : Chain (Steps config timely) {} out e) :
    e.mode = (false, .empty) ∧ Distinct ⟨e.view, none, none⟩ (out.filterMap call) := by
  refine h.history (I := fun e past => e.mode = (false, .empty) ∧ Distinct ⟨e.view, none, none⟩ (past.filterMap call))
    ?_ (l := []) ⟨rfl, ?_⟩
  · rintro e out e' past ⟨input, htimely, hstep⟩ ⟨hmode, hs⟩
    rw [filterMap_append]
    exact distinct_step hmode hs htimely hstep
  · exact { base_default with
      clock := by decide, begun := nofun, later := nofun, single := nofun, made := nofun, nodup := nodup_nil }

theorem counted_run (hmode : e.mode = (false, .empty)) (hs : Counted j ⟨e.view, none, none⟩ n) (hplain : Plain j)
    (h : Chain (Steps config (pressing j)) e out e') :
    e'.mode = (false, .empty) ∧ Counted j ⟨e'.view, none, none⟩ (n + out.countP (callsFor j)) := by
  have hrun := h.history (I := fun e past => e.mode = (false, .empty) ∧
    Counted j ⟨e.view, none, none⟩ (n + past.countP (callsFor j))) ?_ (l := []) ⟨hmode, by simpa using hs⟩
  · simpa using hrun
  · rintro e out e' past ⟨input, hpressing, hstep⟩ ⟨hmode, hs⟩
    obtain ⟨hhosted, hrenews⟩ := Bool.and_eq_true_iff.mp hpressing
    rw [countP_append, ← Nat.add_assoc]
    exact counted_step hmode hs hplain hhosted (fun hrenew => by simp [hrenew] at hrenews) hstep

theorem budgets_run (h : Chain (Steps config hosted) {} out e) :
    e.mode = (false, .empty) ∧ ∀ j, Plain j → Counted j ⟨e.view, none, none⟩ 0 := by
  refine h.invariant (I := fun e => e.mode = (false, .empty) ∧ ∀ j, Plain j → Counted j ⟨e.view, none, none⟩ 0) ?_
    ⟨rfl, fun j _ => ?_⟩
  · rintro e out e' ⟨input, hhosted, hstep⟩ ⟨hmode, hs⟩
    have hmode' := (counted_step hmode (hs "a" (by decide)) (by decide) hhosted (fun _ => rfl) hstep).1
    refine ⟨hmode', fun j hplain => ?_⟩
    exact (counted_step hmode (hs j hplain) hplain hhosted (fun _ => rfl) hstep).2.mono (Nat.zero_le _)
  · exact { base_default with
      single := nofun, fresh := fun _ => rfl, within := nofun, bound := by decide, paid := nofun }

/-- One model call at a time, each with an id of its own as long as the clock goes on, and no more than 32 for a job
from one timer that starts a new cycle of it to the next. -/
theorem model_calls_bounded (hrun : Chain (Steps config hosted) {} out e) :
    e.calls.rows.length ≤ 1 ∧ (Chain (Steps config Engine.timely) {} out e → (out.filterMap Draft.call).Nodup) ∧
      ∀ e₁ out₁ e₂ out₂ j, Steps config hosted e out₁ e₁ → Chain (Steps config (Engine.pressing j)) e₁ out₂ e₂ →
        e₂.jobs.contains j = true → (out₁ ++ out₂).countP (Draft.callsFor j) ≤ 32 := by
  obtain ⟨hmode, hbudgets⟩ := budgets_run hrun
  refine ⟨Map.length_le_one (hbudgets "a" (by decide)).single, fun htimely => (distinct_run htimely).2.nodup, ?_⟩
  rintro e₁ out₁ e₂ out₂ j ⟨input, hhosted, hstep⟩ hlater hjob
  -- the job's id is plain, as that of the observation it began with
  have hknown : Plain j := by
    have hhosted₂ : Chain (Steps config hosted) e₁ out₂ e₂ := hlater.mono fun _ _ _ ⟨input, hpressing, hstep⟩ =>
      ⟨input, (Bool.and_eq_true_iff.mp hpressing).1, hstep⟩
    have hs := (budgets_run (hrun.trans (.cons ⟨input, hhosted, hstep⟩ hhosted₂))).2 "a" (by decide)
    obtain ⟨job, hfind⟩ := Map.contains_iff.mp hjob
    exact hs.plain j (hs.known j (by simp [view_job hfind]))
  obtain ⟨hmode₁, hs₁⟩ := counted_step hmode (hbudgets j hknown) hknown hhosted (fun _ => rfl) hstep
  have hs₂ := (counted_run hmode₁ hs₁ hknown hlater).2
  simpa using hs₂.bound

/-- A job that is answered with one cell after the other until its calls are used up, and then woken. -/
def wornOut (now : Int) : List Input :=
  let cell (k : Nat) : List Input := [
    answered ("1-1-" ++ (2 * k).repr) (callId "1-1-0" now k) "js" [("code", .string (if k % 2 = 0 then "a" else "aa"))],
    { id := "1-1-" ++ (2 * k + 1).repr, kind := .codeCompleted, value := .object [("sessionId", .string "1-1-0")] }]
  let waking : List Input := [
    { id := "1-1-a", kind := .timerSet, value := .object [("jobId", .string "1-1-0"),
      ("wakeToken", .string ("1-1-0:0:1-1-65:" ++ (satAdd now 60000).repr))] },
    { id := "1-1-b", kind := .timerFired, value := .object [("requestEventId", .string "1-1-a")], nowMs := satAdd now 60000 }]
  (received "1-1-0" (message "c") :: (List.range' 1 32).flatMap cell ++ waking).map fun input =>
    { input with nowMs := max now input.nowMs }

def bySize : Config := ⟨[], [], {}, fun source _ _ _ => source.length⟩

theorem model_calls_bounded_worn : ∃ e out e₁ out₁, Chain (Steps bySize hosted) {} out e ∧ Steps bySize hosted e out₁ e₁ ∧
    out.countP (Draft.callsFor "1-1-0") = 33 ∧ e.calls.rows.length ≤ 1 ∧ (out.filterMap Draft.call).Nodup ∧
    out₁.countP (Draft.callsFor "1-1-0") ≤ 32 := by
  let next := answered "1-1-c" (callId "1-1-0" 60001 1) "js" [("code", .string "a")]
  obtain ⟨e, out, hrun, h⟩ := exists_run bySize timely {} (wornOut 1)
    (fun r => r.2.countP (callsFor "1-1-0") = 33 && (r.1.step bySize next).toOption.any fun r => r.1.jobs.contains "1-1-0")
    (by decide +kernel)
  simp only [Bool.and_eq_true, decide_eq_true_eq, Option.any_eq_true] at h
  obtain ⟨hcount, ⟨e₁, out₁⟩, hnext, hjob⟩ := h
  have hhosted : Chain (Steps bySize hosted) {} out e := hrun.mono fun _ _ _ ⟨input, htimely, hstep⟩ => by
    simp only [timely, Bool.and_eq_true] at htimely
    exact ⟨input, htimely.1.1, hstep⟩
  have hstep : Steps bySize hosted e out₁ e₁ := ⟨next, rfl, ok_of_toOption hnext⟩
  obtain ⟨hsingle, hnodup, hbound⟩ := model_calls_bounded hhosted
  exact ⟨e, out, e₁, out₁, hhosted, hstep, hcount, hsingle, hnodup hrun,
    by simpa using hbound e₁ out₁ e₁ [] "1-1-0" hstep (.refl e₁) hjob⟩

/-- When the clock has come to its end, a new cycle of a job has the calls of the old one. -/
theorem model_call_id_repeated : ∃ e out,
    Chain (Steps bySize fun e input => hosted e input && e.nowMs ≤ input.nowMs) {} out e ∧
    ¬ (out.filterMap Draft.call).Nodup := by
  obtain ⟨e, out, hrun, h⟩ := exists_run bySize (fun e input => hosted e input && e.nowMs ≤ input.nowMs) {}
    (wornOut 9223372036854775807) (fun r => !decide (r.2.filterMap call).Nodup) (by decide +kernel)
  exact ⟨e, out, hrun, by simpa using h⟩

end Runs

end Pluribus.Rlm
