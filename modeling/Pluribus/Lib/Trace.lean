import Mathlib.Data.List.Basic

namespace Pluribus.Lib

open List

structure Transition (S L : Type) where
  before : S
  label : L
  after : S

/-- The runs of a labelled transition relation, with the steps they took in order. -/
inductive Trace {S L : Type} (step : L → S → S → Prop) (start : S) : List (Transition S L) → S → Prop
  | nil : Trace step start [] start
  | snoc {ts : List (Transition S L)} {s s' : S} {l : L} (h : Trace step start ts s) (hs : step l s s') :
      Trace step start (ts ++ [⟨s, l, s'⟩]) s'

namespace Trace

variable {S L : Type} {step : L → S → S → Prop} {start s : S} {ts : List (Transition S L)} {I : S → Prop}

section

variable (hstart : I start) (hstep : ∀ l s s', step l s s' → I s → I s')

include hstart hstep

theorem invariant (h : Trace step start ts s) : I s := by
  induction h with
  | nil => exact hstart
  | snoc _ hs ih => exact hstep _ _ _ hs ih

theorem mem (h : Trace step start ts s) : ∀ t ∈ ts, step t.label t.before t.after ∧ I t.before := by
  induction h with
  | nil => intro t ht; cases ht
  | snoc h hs ih =>
    intro t ht
    rcases mem_append.mp ht with hold | hlast
    · exact ih t hold
    · rw [mem_singleton.mp hlast]
      exact ⟨hs, h.invariant hstart hstep⟩

theorem origin {F : S → Prop} {Q : Transition S L → Prop}
    (hnew : ∀ l s s', step l s s' → I s → F s' → F s ∨ Q ⟨s, l, s'⟩) (h : Trace step start ts s) (hF : F s) :
    F start ∨ ∃ t ∈ ts, Q t := by
  induction h with
  | nil => exact .inl hF
  | snoc h hs ih =>
    rcases hnew _ _ _ hs (h.invariant hstart hstep) hF with hold | hQ
    · exact (ih hold).imp id fun ⟨t, ht, hQ⟩ => ⟨t, mem_append_left _ ht, hQ⟩
    · exact .inr ⟨_, mem_append_right _ (mem_singleton_self _), hQ⟩

theorem lasting {Q : Transition S L → Prop} {G : Transition S L → S → Prop}
    (hnew : ∀ l s s', step l s s' → I s → Q ⟨s, l, s'⟩ → G ⟨s, l, s'⟩ s')
    (hkeep : ∀ t l s s', step l s s' → I s → G t s → G t s') (h : Trace step start ts s) : ∀ t ∈ ts, Q t → G t s := by
  induction h with
  | nil => intro t ht; cases ht
  | snoc h hs ih =>
    intro t ht hQ
    have hI := h.invariant hstart hstep
    rcases mem_append.mp ht with hold | hlast
    · exact hkeep t _ _ _ hs hI (ih t hold hQ)
    · rw [mem_singleton.mp hlast] at hQ ⊢
      exact hnew _ _ _ hs hI hQ

/-- Steps of two kinds do not meet in a run: each leaves behind what the other cannot follow. -/
theorem apart {Q W : Transition S L → Prop} {K G : S → Prop}
    (hQ : ∀ l s s', step l s s' → I s → Q ⟨s, l, s'⟩ → K s') (hK : ∀ l s s', step l s s' → I s → K s → K s')
    (hW : ∀ l s s', step l s s' → I s → W ⟨s, l, s'⟩ → G s') (hG : ∀ l s s', step l s s' → I s → G s → G s')
    (hKW : ∀ l s s', step l s s' → I s → K s → ¬ W ⟨s, l, s'⟩) (hGQ : ∀ l s s', step l s s' → G s' → ¬ Q ⟨s, l, s'⟩)
    (h : Trace step start ts s) : ∀ t ∈ ts, Q t → ∀ t' ∈ ts, ¬ W t' := by
  induction h with
  | nil => exact fun t ht => absurd ht not_mem_nil
  | snoc h hs ih =>
    intro t ht hQt t' ht' hWt
    have hI := h.invariant hstart hstep
    have hafter : t ∈ _ → K _ := fun hold => h.lasting hstart hstep (G := fun _ => K) hQ (fun _ => hK) t hold hQt
    have hafter' : t' ∈ _ → G _ := fun hold => h.lasting hstart hstep (G := fun _ => G) hW (fun _ => hG) t' hold hWt
    rcases mem_append.mp ht with hold | hlast
    · rcases mem_append.mp ht' with hold' | hlast'
      · exact ih t hold hQt t' hold' hWt
      · rw [mem_singleton.mp hlast'] at hWt
        exact hKW _ _ _ hs hI (hafter hold) hWt
    · rw [mem_singleton.mp hlast] at hQt
      rcases mem_append.mp ht' with hold' | hlast'
      · exact hGQ _ _ _ hs (hG _ _ _ hs hI (hafter' hold')) hQt
      · rw [mem_singleton.mp hlast'] at hWt
        exact hGQ _ _ _ hs (hW _ _ _ hs hI hWt) hQt

end

end Trace

end Pluribus.Lib
