import Mathlib.Data.List.Infix

namespace Pluribus.Lib

open List Option

variable {α : Type} [DecidableEq α]

/-- What stands before and after the first occurrence of `p`. -/
def cut (p : List α) : List α → Option (List α × List α)
  | [] => if p = [] then some ([], []) else none
  | x :: s => if p.isPrefixOf (x :: s) then some ([], (x :: s).drop p.length) else (cut p s).map fun r => (x :: r.1, r.2)

variable {p s a b : List α}

theorem cut_prefix (p s : List α) : cut p (p ++ s) = some ([], s) := by
  cases h : p ++ s with
  | nil =>
    obtain ⟨rfl, rfl⟩ := append_eq_nil_iff.mp h
    rfl
  | cons x rest =>
    have hprefix : p.isPrefixOf (x :: rest) = true := isPrefixOf_iff_prefix.mpr ⟨s, h⟩
    rw [cut, if_pos hprefix, ← h, drop_left]

theorem cut_skip {c d x : α} (h : x ≠ c ∨ s.head? ≠ some d) :
    cut [c, d] (x :: s) = (cut [c, d] s).map fun r => (x :: r.1, r.2) := by
  have hprefix : ¬ [c, d].isPrefixOf (x :: s) = true := by
    rw [ isPrefixOf_iff_prefix]
    rintro ⟨rest, hrest⟩
    cases hrest
    exact h.elim (fun hne => hne rfl) fun hne => hne rfl
  rw [cut, if_neg hprefix]

theorem cut_some (h : cut p s = some (a, b)) : s = a ++ p ++ b := by
  induction s generalizing a with
  | nil =>
    unfold cut at h
    split at h
    · rename_i hp
      cases h
      simp [hp]
    · cases h
  | cons x s ih =>
    unfold cut at h
    split at h
    · rename_i hprefix
      obtain ⟨rest, hrest⟩ := isPrefixOf_iff_prefix.mp hprefix
      rw [← hrest, drop_left] at h
      cases h
      exact hrest.symm
    · obtain ⟨⟨a', b'⟩, hcut, heq⟩ := map_eq_some_iff.mp h
      cases heq
      rw [ih hcut]
      simp

theorem cut_none (h : cut p s = none) : ¬ p <:+: s := by
  induction s with
  | nil =>
    unfold cut at h
    split at h
    · cases h
    · rename_i hp
      exact fun hwithin => hp (infix_nil.mp hwithin)
  | cons x s ih =>
    unfold cut at h
    split at h
    · cases h
    · rename_i hprefix
      intro hwithin
      rcases infix_cons_iff.mp hwithin with hhere | hlater
      · exact hprefix ( isPrefixOf_iff_prefix.mpr hhere)
      · exact ih (map_eq_none_iff.mp h) hlater

theorem cut_eq_none (h : ¬ p <:+: s) : cut p s = none := by
  cases hcut : cut p s with
  | none => rfl
  | some r => exact absurd ⟨r.1, r.2, (cut_some hcut).symm⟩ h

theorem cut_isSome_iff : (cut p s).isSome = true ↔ p <:+: s := by
  constructor
  · intro h
    obtain ⟨r, hr⟩ := isSome_iff_exists.mp h
    exact ⟨r.1, r.2, (cut_some hr).symm⟩
  · intro h
    by_contra hnone
    exact cut_none (not_isSome_iff_eq_none.mp hnone) h

/-- The first occurrence is the one that is marked if the mark's first symbol is not met before. -/
theorem cut_append_of_not_mem {c : α} (h : c ∉ a) (s : List α) :
    cut (c :: p) (a ++ s) = (cut (c :: p) s).map fun r => (a ++ r.1, r.2) := by
  induction a with
  | nil => cases hcut : cut (c :: p) s <;> simp [hcut]
  | cons x a ih =>
    have hne : c ≠ x := fun heq => h (heq ▸ mem_cons_self)
    have hprefix : (c :: p).isPrefixOf (x :: (a ++ s)) = false := by
      rw [isPrefixOf_cons_cons, beq_eq_false_iff_ne.mpr hne, Bool.false_and]
    rw [cons_append, cut, hprefix, if_neg Bool.false_ne_true, ih fun hmem => h (mem_cons_of_mem _ hmem),
      Option.map_map]
    rfl

theorem cut_of_not_mem {c : α} (h : c ∉ a) : cut (c :: p) (a ++ c :: p ++ b) = some (a, b) := by
  rw [append_assoc, cut_append_of_not_mem h, cut_prefix, map_some, append_nil]

theorem cut_first (h : cut p s = some (a, b)) {a' b' : List α} (heq : s = a' ++ p ++ b') : a.length ≤ a'.length := by
  induction s generalizing a a' with
  | nil =>
    rw [(append_eq_nil_iff.mp (append_eq_nil_iff.mp (cut_some h).symm).1).1]
    exact Nat.zero_le _
  | cons x s ih =>
    unfold cut at h
    split at h
    · cases h
      exact Nat.zero_le _
    · rename_i hprefix
      obtain ⟨⟨before, after⟩, hcut, hpair⟩ := map_eq_some_iff.mp h
      cases hpair
      cases a' with
      | nil => exact absurd ( isPrefixOf_iff_prefix.mpr ⟨b', heq.symm⟩) hprefix
      | cons y a' => exact Nat.succ_le_succ (ih hcut (cons.inj heq).2)

theorem length_cut (hp : p ≠ []) (h : cut p s = some (a, b)) : b.length < s.length := by
  have hpos := length_pos_iff.mpr hp
  rw [cut_some h]
  simp only [length_append]
  omega

end Pluribus.Lib
