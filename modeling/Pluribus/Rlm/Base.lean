import Pluribus.Rlm.Desk

namespace Pluribus.Rlm

open Lib List
open Engine (associationSession)

section Names

/-- Ids that no session of the engine's own making can have. -/
def Plain (id : String) : Prop := ':' ∉ id.toList ∧ id ≠ "associate"

instance : DecidablePred Plain := fun _ => inferInstanceAs (Decidable (_ ∧ _))

def Deep (k : String) : Prop := 2 ≤ k.toList.count ':' ∨ ∃ r name, Plain r ∧ k = r ++ ":" ++ name

variable {k o p : String}

theorem Plain.not_deep (h : Plain k) : ¬ Deep k := by
  rintro (hcount | ⟨r, name, -, rfl⟩)
  · rw [count_eq_zero.mpr h.1] at hcount
    omega
  · exact h.1 (by simp)

theorem associationSession_toList (o : String) : (associationSession o).toList = "associate".toList ++ ':' :: o.toList := by
  simp [associationSession]

theorem Plain.ne_association (h : Plain k) : k ≠ associationSession o := by
  rintro rfl
  exact h.1 (by simp [associationSession_toList])

theorem associationSession_inj {o o' : String} (h : associationSession o = associationSession o') : o = o' := by
  have hlist := congrArg String.toList h
  rw [associationSession_toList, associationSession_toList] at hlist
  exact String.toList_inj.mp (List.cons.inj (append_cancel_left hlist)).2

theorem Plain.association_not_deep (h : Plain o) : ¬ Deep (associationSession o) := by
  rintro (hcount | ⟨r, name, hr, heq⟩)
  · have hzero := count_eq_zero.mpr h.1
    rw [associationSession_toList, count_append, count_cons_self, hzero] at hcount
    exact absurd hcount (by decide)
  · -- what stands before the first colon is the root's own id
    have hfirst : ∀ l m : List Char, ':' ∉ l → (l ++ ':' :: m).takeWhile (· ≠ ':') = l := by
      intro l m hl
      rw [takeWhile_append_of_pos (by simpa using fun c hc => ne_of_mem_of_not_mem hc hl)]
      simp
    have hlist := congrArg (fun s : String => s.toList.takeWhile (· ≠ ':')) heq
    simp only [associationSession_toList, String.toList_append] at hlist
    rw [hfirst _ _ (by decide), append_assoc] at hlist
    have hlead : ":".toList = [':'] := by decide
    rw [hlead, singleton_append, hfirst _ _ hr.1] at hlist
    exact hr.2 (String.toList_inj.mp hlist.symm)

theorem deep_child (name : String) (h : Plain p ∨ Deep p ∨ ∃ o, p = associationSession o) : Deep (p ++ ":" ++ name) := by
  have hcount : 1 ≤ p.toList.count ':' → Deep (p ++ ":" ++ name) := by
    intro hp
    left
    simp only [String.toList_append, count_append]
    have hone : ":".toList.count ':' = 1 := by decide
    omega
  rcases h with hplain | (hdeep | ⟨r, rest, -, rfl⟩) | ⟨o, rfl⟩
  · exact .inr ⟨p, name, hplain, rfl⟩
  · exact hcount (by omega)
  · exact hcount (count_pos_iff.mpr (by simp))
  · exact hcount (count_pos_iff.mpr (by simp [associationSession_toList]))

end Names

section Effects

variable {R : Rules} {s s' : Desk} {xs : List Draft} {k j o : String}

inductive Born (R : Rules) (s s' : Desk) : String → TaskView → Prop
  | consult (o : String) (b : Bool) (hnew : s.view.inbox o = none) (hobserve : R.observe o b)
      (hdeciding : s.deciding = none) (hinbox : s'.view.inbox o ≠ none)
      (hbudget : s'.view.budgets (associationSession o) = some 0) :
      Born R s s' (associationSession o) (.opened (associationSession o) none 0 (some o))
  | create (o : String) (hdeciding : s.deciding = some o)
      (hjob : s'.view.jobs o = some ⟨.runnable, s.view.now, none⟩) (hbudget : s'.view.budgets o = some 0) :
      Born R s s' o (.opened o none 0 none)
  | spawn (p name : String) (t : TaskView) (ht : s.view.tasks p = some t)
      (hspawn : R.spawn s.view p (p ++ ":" ++ name))
      (hview : s'.view = s.view.setTask (p ++ ":" ++ name) (some (.opened t.root (some p) (t.depth + 1) none)))
      (hheld : s'.held = some (p ++ ":" ++ name)) :
      Born R s s' (p ++ ":" ++ name) (.opened t.root (some p) (t.depth + 1) none)

theorem Move.task_cases {t' : TaskView} (h : Move R s xs s') (ht' : s'.view.tasks k = some t') :
    (∃ t, s.view.tasks k = some t ∧ t' = { t with tools := t'.tools }) ∨ Born R s s' k t' := by
  cases h <;> grind [Born]

theorem Move.inbox_kept (h : Move R s xs s') (ho : s.view.inbox o ≠ none) : s'.view.inbox o ≠ none := by
  cases h <;> grind

theorem Move.inbox_cases (h : Move R s xs s') (ho : s'.view.inbox o ≠ none) :
    s.view.inbox o ≠ none ∨ ∃ b, R.observe o b := by
  cases h <;> grind

theorem Move.job_kept (h : Move R s xs s') (hj : s.view.jobs j ≠ none) : s'.view.jobs j ≠ none := by
  cases h <;> grind

theorem Move.job_cases (h : Move R s xs s') (hj : s'.view.jobs j ≠ none) :
    s.view.jobs j ≠ none ∨ s.deciding = some j ∧ s'.deciding = none := by
  cases h <;> grind

theorem Move.deciding_cases (h : Move R s xs s') (ho : s'.deciding = some o) :
    s.deciding = some o ∨ s.view.inbox o = none ∧ s'.view.inbox o ≠ none ∧ s'.view.tasks = s.view.tasks ∨
      ∃ k t, s.view.tasks k = some t ∧ t.association = some o ∧ s'.view.tasks k = none := by
  cases h <;> grind

end Effects

section Base

/-- Whose sessions there are: those that route an observation, roots of jobs, and children. -/
structure Base (s : Desk) : Prop where
  plain : ∀ o, s.view.inbox o ≠ none → Plain o
  known : ∀ j, s.view.jobs j ≠ none → s.view.inbox j ≠ none
  associated : ∀ k t o, s.view.tasks k = some t → t.association = some o →
    k = associationSession o ∧ t.root = k ∧ t.parent = none ∧ s.view.inbox o ≠ none ∧ s.view.jobs o = none
  rooted : ∀ k t, s.view.tasks k = some t → t.parent = none → t.association = none →
    t.root = k ∧ s.view.jobs k ≠ none
  child : ∀ k t p, s.view.tasks k = some t → t.parent = some p → t.association = none ∧ Deep k ∧
    (s.view.jobs t.root ≠ none ∨ ∃ o, s.view.inbox o ≠ none ∧ t.root = associationSession o)
  deciding : ∀ o, s.deciding = some o →
    s.view.inbox o ≠ none ∧ s.view.jobs o = none ∧ s.view.tasks (associationSession o) = none

namespace Base

variable {s : Desk} {k o : String} {t : TaskView} (hb : Base s)
include hb

theorem no_job : s.view.jobs (associationSession o) = none := by
  by_contra hjob
  exact (hb.plain _ (hb.known _ hjob)).ne_association rfl

theorem names (ht : s.view.tasks k = some t) : Plain k ∨ Deep k ∨ ∃ o, k = associationSession o := by
  cases hassociation : t.association with
  | some o => exact .inr (.inr ⟨o, (hb.associated k t o ht hassociation).1⟩)
  | none =>
    cases hparent : t.parent with
    | some p => exact .inr (.inl (hb.child k t p ht hparent).2.1)
    | none => exact .inl (hb.plain k (hb.known k (hb.rooted k t ht hparent hassociation).2))

theorem root_cases (ht : s.view.tasks k = some t) :
    s.view.jobs t.root ≠ none ∨ ∃ o, s.view.inbox o ≠ none ∧ t.root = associationSession o := by
  cases hassociation : t.association with
  | some o =>
    obtain ⟨hk, hroot, -, ho, -⟩ := hb.associated k t o ht hassociation
    exact .inr ⟨o, ho, hroot.trans hk⟩
  | none =>
    cases hparent : t.parent with
    | some p => exact (hb.child k t p ht hparent).2.2
    | none =>
      obtain ⟨hroot, hjob⟩ := hb.rooted k t ht hparent hassociation
      exact .inl (hroot ▸ hjob)

theorem root_of_plain (ht : s.view.tasks k = some t) (hk : Plain k) :
    t.parent = none ∧ t.association = none ∧ t.root = k ∧ s.view.jobs k ≠ none := by
  cases hassociation : t.association with
  | some o => exact absurd (hb.associated k t o ht hassociation).1 hk.ne_association
  | none =>
    cases hparent : t.parent with
    | some p => exact absurd (hb.child k t p ht hparent).2.1 hk.not_deep
    | none => exact ⟨rfl, rfl, hb.rooted k t ht hparent hassociation⟩

theorem root_of_job (hjob : s.view.jobs k ≠ none) (ht : s.view.tasks k = some t) :
    t.parent = none ∧ t.association = none ∧ t.root = k := by
  obtain ⟨hparent, hassociation, hroot, -⟩ := hb.root_of_plain ht (hb.plain k (hb.known k hjob))
  exact ⟨hparent, hassociation, hroot⟩

theorem working (ht : s.view.tasks k = some t) (hjob : s.view.jobs t.root ≠ none) : t.association = none := by
  cases hassociation : t.association with
  | none => rfl
  | some o =>
    obtain ⟨hk, hroot, -⟩ := hb.associated k t o ht hassociation
    rw [hroot, hk] at hjob
    exact absurd hb.no_job hjob

theorem root_of_parentless (ht : s.view.tasks k = some t) (hparent : t.parent = none) (hjob : s.view.jobs t.root ≠ none) :
    t.association = none ∧ t.root = k :=
  have hassociation := hb.working ht hjob
  ⟨hassociation, (hb.rooted k t ht hparent hassociation).1⟩

theorem routes (ht : s.view.tasks (associationSession o) = some t) (ho : Plain o) : t.association = some o := by
  cases hassociation : t.association with
  | some o' => rw [associationSession_inj (hb.associated _ t o' ht hassociation).1]
  | none =>
    cases hparent : t.parent with
    | some p => exact absurd (hb.child _ t p ht hparent).2.1 ho.association_not_deep
    | none => exact absurd hb.no_job (hb.rooted _ t ht hparent hassociation).2

theorem fresh (hnew : s.view.inbox o = none) (ho : Plain o) :
    s.view.jobs o = none ∧ s.view.tasks o = none ∧ s.view.tasks (associationSession o) = none := by
  have hjob : s.view.jobs o = none := by
    by_contra hjob
    exact hb.known o hjob hnew
  refine ⟨hjob, ?_, ?_⟩
  · by_contra htask
    obtain ⟨t, ht⟩ := Option.ne_none_iff_exists'.mp htask
    exact (hb.root_of_plain ht ho).2.2.2 hjob
  · by_contra htask
    obtain ⟨t, ht⟩ := Option.ne_none_iff_exists'.mp htask
    exact (hb.associated _ t o ht (hb.routes ht ho)).2.2.2.1 hnew

end Base

theorem Base.release {v : View} {hand : Option (String × Grip)} {deciding : Option String} (hb : Base ⟨v, hand, deciding⟩) :
    Base ⟨v, none, none⟩ :=
  ⟨hb.plain, hb.known, hb.associated, hb.rooted, hb.child, nofun⟩

variable {R : Rules} {s s' : Desk} {xs : List Draft}

theorem Base.move (hplain : ∀ o b, R.observe o b → Plain o) (h : Move R s xs s') (hb : Base s) : Base s' where
  plain o ho := by
    rcases h.inbox_cases ho with hold | ⟨b, hobserve⟩
    · exact hb.plain o hold
    · exact hplain o b hobserve
  known j hj := by
    rcases h.job_cases hj with hold | ⟨hdeciding, -⟩
    · exact h.inbox_kept (hb.known j hold)
    · exact h.inbox_kept (hb.deciding j hdeciding).1
  associated k t' o ht' ho := by
    have hjobs : s.view.jobs o = none → s.deciding ≠ some o → s'.view.jobs o = none := by
      intro hjob hdeciding
      by_contra hnew
      exact (h.job_cases hnew).elim (· hjob) fun h => hdeciding h.1
    rcases h.task_cases ht' with ⟨t, ht, heq⟩ | hborn
    · rw [heq] at ho ⊢
      obtain ⟨rfl, hroot, hparent, hinbox, hjob⟩ := hb.associated k t o ht ho
      refine ⟨rfl, hroot, hparent, h.inbox_kept hinbox, hjobs hjob fun hdeciding => ?_⟩
      rw [(hb.deciding o hdeciding).2.2] at ht
      cases ht
    · cases hborn with
      | consult o' b hnew hobserve hdeciding hinbox =>
        obtain rfl : o' = o := by simpa [TaskView.opened] using ho
        exact ⟨rfl, rfl, rfl, hinbox, hjobs (hb.fresh hnew (hplain o' b hobserve)).1 (by simp [hdeciding])⟩
      | _ => simp [TaskView.opened] at ho
  rooted k t' ht' hparent hassociation := by
    rcases h.task_cases ht' with ⟨t, ht, heq⟩ | hborn
    · rw [heq] at hparent hassociation ⊢
      obtain ⟨hroot, hjob⟩ := hb.rooted k t ht hparent hassociation
      exact ⟨hroot, h.job_kept hjob⟩
    · cases hborn with
      | consult o b hnew hobserve hdeciding => simp [TaskView.opened] at hassociation
      | create o hdeciding hjob => exact ⟨rfl, by simp [hjob]⟩
      | spawn p name t ht hspawn => simp [TaskView.opened] at hparent
  child k t' p ht' hparent := by
    have hroots : ∀ root : String, (s.view.jobs root ≠ none ∨ ∃ o, s.view.inbox o ≠ none ∧ root = associationSession o) →
        s'.view.jobs root ≠ none ∨ ∃ o, s'.view.inbox o ≠ none ∧ root = associationSession o := by
      rintro root (hjob | ⟨o, ho, hroot⟩)
      · exact .inl (h.job_kept hjob)
      · exact .inr ⟨o, h.inbox_kept ho, hroot⟩
    rcases h.task_cases ht' with ⟨t, ht, heq⟩ | hborn
    · rw [heq] at hparent ⊢
      obtain ⟨hassociation, hdeep, hroot⟩ := hb.child k t p ht hparent
      exact ⟨hassociation, hdeep, hroots _ hroot⟩
    · cases hborn with
      | consult o b hnew hobserve hdeciding | create o hdeciding hjob => simp [TaskView.opened] at hparent
      | spawn p' name t ht hspawn => exact ⟨rfl, deep_child name (hb.names ht), hroots t.root (hb.root_cases ht)⟩
  deciding o ho := by
    have hjobs : s.view.jobs o = none → s'.view.jobs o = none := by
      intro hjob
      by_contra hnew
      rcases h.job_cases hnew with hjob' | ⟨-, hdone⟩
      · exact hjob' hjob
      · rw [ho] at hdone
        cases hdone
    rcases h.deciding_cases ho with hold | ⟨hnew, hinbox, htasks⟩ | ⟨k, t, ht, hassociation, hgone⟩
    · obtain ⟨hinbox, hjob, htask⟩ := hb.deciding o hold
      refine ⟨h.inbox_kept hinbox, hjobs hjob, ?_⟩
      by_contra hlive
      obtain ⟨t', ht'⟩ := Option.ne_none_iff_exists'.mp hlive
      rcases h.task_cases ht' with ⟨t, ht, -⟩ | hborn
      · rw [htask] at ht
        cases ht
      · have hplain' := hb.plain o hinbox
        generalize hk : associationSession o = k at hborn
        cases hborn with
        | consult o' b _ _ hdeciding => simp [hold] at hdeciding
        | create o' hdeciding => exact hplain'.ne_association ((Option.some.inj (hold.symm.trans hdeciding)).trans hk.symm)
        | spawn p name t ht hspawn => exact hplain'.association_not_deep (hk ▸ deep_child name (hb.names ht))
    · have hplain' : Plain o := by
        rcases h.inbox_cases hinbox with hold | ⟨b, hobserve⟩
        · exact absurd hnew hold
        · exact hplain o b hobserve
      obtain ⟨hjob, -, htask⟩ := hb.fresh hnew hplain'
      exact ⟨hinbox, hjobs hjob, htasks ▸ htask⟩
    · obtain ⟨rfl, -, -, hinbox, hjob⟩ := hb.associated k t o ht hassociation
      exact ⟨h.inbox_kept hinbox, hjobs hjob, hgone⟩

end Base

end Pluribus.Rlm
