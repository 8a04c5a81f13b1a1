import Mathlib.Data.List.Forall2
import Mathlib.Data.List.Sort

namespace Pluribus.Lib

open List

variable {α β ε : Type} {R : α → β → Prop}

theorem forall₂_find {p : α → Bool} {q : β → Bool} (hpq : ∀ a b, R a b → p a = q b)
    {as : List α} {bs : List β} (h : Forall₂ R as bs) : Option.Rel R (as.find? p) (bs.find? q) := by
  induction h with
  | nil => exact .none
  | cons hab hrest ih =>
    rename_i a b as bs
    rw [find?_cons, find?_cons, hpq a b hab]
    cases q b with
    | true => exact .some hab
    | false => exact ih

theorem forall₂_any {p : α → Bool} {q : β → Bool} (hpq : ∀ a b, R a b → p a = q b)
    {as : List α} {bs : List β} (h : Forall₂ R as bs) : as.any p = bs.any q := by
  induction h with
  | nil => rfl
  | cons hab hrest ih => rw [any_cons, any_cons, hpq _ _ hab, ih]

theorem forall₂_mapM {f : α → Except ε β} {as : List α} {bs : List β}
    (h : Forall₂ (fun a b => f a = .ok b) as bs) : as.mapM f = .ok bs := by
  induction h with
  | nil => rfl
  | cons hab hrest ih => simp [mapM_cons, hab, ih, bind, Except.bind, pure, Except.pure]

theorem forall₂_of_mapM {f : α → Except ε β} {as : List α} {bs : List β} (h : as.mapM f = .ok bs) :
    Forall₂ (fun a b => f a = .ok b) as bs := by
  induction as generalizing bs with
  | nil =>
    obtain rfl : [] = bs := Except.ok.inj h
    exact .nil
  | cons a as ih =>
    rw [mapM_cons] at h
    cases hf : f a with
    | error e => rw [hf] at h; cases h
    | ok b =>
      cases hrest : as.mapM f with
      | error e => rw [hf, hrest] at h; cases h
      | ok rest =>
        rw [hf, hrest] at h
        obtain rfl : b :: rest = bs := Except.ok.inj h
        exact .cons hf (ih hrest)

theorem forall₂_append_cons {as : List α} {before after : List β} {b : β}
    (h : Forall₂ R as (before ++ b :: after)) :
    ∃ before' a after', as = before' ++ a :: after' ∧ Forall₂ R before' before ∧ R a b := by
  induction before generalizing as with
  | nil =>
    cases h with
    | cons hab hrest => exact ⟨[], _, _, rfl, .nil, hab⟩
  | cons b' before ih =>
    cases h with
    | cons hab hrest =>
      obtain ⟨before', a, after', rfl, hbefore, ha⟩ := ih hrest
      exact ⟨_ :: before', a, after', rfl, .cons hab hbefore, ha⟩

theorem forall₂_trans {γ : Type} {S : β → γ → Prop} {T : α → γ → Prop} {as : List α} {bs : List β} {cs : List γ}
    (h : Forall₂ R as bs) (h' : Forall₂ S bs cs) (hst : ∀ a b c, R a b → S b c → T a c) :
    Forall₂ T as cs := by
  induction h generalizing cs with
  | nil =>
    cases h'
    exact .nil
  | cons hab _ ih =>
    cases h' with
    | cons hbc hrest => exact .cons (hst _ _ _ hab hbc) (ih hrest)

theorem forall₂_mem_left {as : List α} {bs : List β} (h : Forall₂ R as bs) {a : α} (ha : a ∈ as) :
    ∃ b ∈ bs, R a b := by
  induction h with
  | nil => exact absurd ha not_mem_nil
  | cons hab hrest ih =>
    rcases mem_cons.mp ha with rfl | ha
    · exact ⟨_, mem_cons_self, hab⟩
    · obtain ⟨b, hb, hr⟩ := ih ha
      exact ⟨b, mem_cons_of_mem _ hb, hr⟩

theorem forall₂_mem_right {as : List α} {bs : List β} (h : Forall₂ R as bs) {b : β} (hb : b ∈ bs) :
    ∃ a ∈ as, R a b :=
  forall₂_mem_left (R := flip R) h.flip hb

/-- A relation that along `R` only depends on the left entry is a statement about the left list. -/
theorem forall₂_iff_left {S : α → β → Prop} {p : α → Prop} (hS : ∀ a b, R a b → (S a b ↔ p a))
    {as : List α} {bs : List β} (h : Forall₂ R as bs) : Forall₂ S as bs ↔ ∀ a ∈ as, p a := by
  induction h with
  | nil => simp
  | cons hab _ ih => rw [forall₂_cons, ih, hS _ _ hab, forall_mem_cons]

/-- Of entries told apart by `f`, at most one satisfies a test that fixes the value of `f`. -/
theorem countP_le_one {f : α → β} {p : α → Bool} {l : List α} (hnodup : (l.map f).Nodup)
    (hsame : ∀ a ∈ l, ∀ b ∈ l, p a = true → p b = true → f a = f b) : l.countP p ≤ 1 := by
  induction l with
  | nil => simp
  | cons a rest ih =>
    obtain ⟨hnew, hrest⟩ := nodup_cons.mp hnodup
    cases ha : p a with
    | false =>
      rw [countP_cons_of_neg (by simp [ha])]
      exact ih hrest fun b hb d hd => hsame b (mem_cons_of_mem _ hb) d (mem_cons_of_mem _ hd)
    | true =>
      have hnone : rest.countP p = 0 := by
        refine countP_eq_zero.mpr fun b hb hpb => hnew ?_
        rw [hsame a mem_cons_self b (mem_cons_of_mem _ hb) ha hpb]
        exact mem_map_of_mem hb
      rw [countP_cons_of_pos ha, hnone]

theorem append_cons_right_inj {c : α} {as as' bs bs' : List α} (hb : c ∉ bs) (hb' : c ∉ bs')
    (h : as ++ c :: bs = as' ++ c :: bs') : as = as' ∧ bs = bs' := by
  induction as generalizing as' with
  | nil =>
    cases as' with
    | nil => exact ⟨rfl, (cons.inj h).2⟩
    | cons x rest =>
      have htail : bs = rest ++ c :: bs' := (cons.inj h).2
      exact absurd (htail ▸ by simp) hb
  | cons x rest ih =>
    cases as' with
    | nil =>
      have htail : rest ++ c :: bs = bs' := (cons.inj h).2
      exact absurd (htail ▸ by simp) hb'
    | cons y rest' =>
      obtain ⟨rfl, htail⟩ := cons.inj h
      obtain ⟨rfl, rfl⟩ := ih htail
      exact ⟨rfl, rfl⟩

theorem append_cons_left_inj {c : α} {as as' bs bs' : List α} (ha : c ∉ as) (ha' : c ∉ as')
    (h : as ++ c :: bs = as' ++ c :: bs') : as = as' ∧ bs = bs' := by
  have hreverse := congrArg reverse h
  simp only [reverse_append, reverse_cons, append_assoc, singleton_append] at hreverse
  have hcut := append_cons_right_inj (by simpa using ha) (by simpa using ha') hreverse
  exact ⟨reverse_inj.mp hcut.2, reverse_inj.mp hcut.1⟩

theorem snoc_eq_append_cons {x last : α} {as before after : List α} (h : as ++ [last] = before ++ x :: after) :
    (last = x ∧ as = before) ∨ ∃ rest, as = before ++ x :: rest := by
  rcases eq_nil_or_concat after with rfl | ⟨rest, y, rfl⟩
  · obtain ⟨hbefore, hx⟩ := append_inj' h rfl
    exact .inl ⟨(cons.inj hx).1, hbefore⟩
  · rw [concat_eq_append, ← cons_append, ← append_assoc] at h
    exact .inr ⟨rest, (append_inj' h rfl).1⟩

/-- What stands after the last of those done, in a list in the order of its keys. -/
theorem filter_after {κ : Type} [Preorder κ] [DecidableLT κ] {key : α → κ} {done rest : List α}
    (h : (done ++ rest).Pairwise (key · < key ·)) :
    (done ++ rest).filter (fun x => (done.getLast?.map key).all (· < key x)) = rest := by
  rcases eq_nil_or_concat done with rfl | ⟨init, last, rfl⟩
  · simp
  · rw [concat_eq_append, append_assoc, singleton_append] at h ⊢
    obtain ⟨-, hrest, hinit⟩ := pairwise_append.mp h
    have hold : init.filter (key last < key ·) = [] :=
      filter_eq_nil_iff.mpr fun x hx hlt => (hinit x hx last mem_cons_self).asymm (of_decide_eq_true hlt)
    have hnew : rest.filter (key last < key ·) = rest :=
      filter_eq_self.mpr fun x hx => decide_eq_true ((pairwise_cons.mp hrest).1 x hx)
    simp [hold, hnew]

end Pluribus.Lib
