import Mathlib.Data.List.Forall2
import Mathlib.Data.List.Induction

namespace Pluribus.Lib

open List

/-- A service in a state `σ` that takes one call after another and answers each. -/
abbrev Service (σ ι ο : Type) := σ → ι → ο × σ

namespace Service

variable {σ τ ι κ ο ω : Type} (serve : Service σ ι ο) (serve' : Service τ κ ω)

def after (s : σ) (calls : List ι) : σ := calls.foldl (fun s call => (serve s call).2) s

def trace (s : σ) : List ι → List (ι × ο)
  | [] => []
  | call :: rest => (call, (serve s call).1) :: trace (serve s call).2 rest

theorem after_append (s : σ) (calls more : List ι) :
    serve.after s (calls ++ more) = serve.after (serve.after s calls) more := by
  unfold after
  rw [foldl_append]

theorem trace_append (s : σ) (calls more : List ι) :
    serve.trace s (calls ++ more) = serve.trace s calls ++ serve.trace (serve.after s calls) more := by
  induction calls generalizing s with
  | nil => rfl
  | cons call rest ih =>
    rw [cons_append, trace, trace, ih]
    rfl

theorem trace_snoc (s : σ) (calls : List ι) (call : ι) :
    serve.trace s (calls ++ [call]) = serve.trace s calls ++ [(call, (serve (serve.after s calls) call).1)] := by
  rw [trace_append]
  rfl

variable {serve serve'}

theorem map_trace (s : σ) (calls : List ι) : (serve.trace s calls).map Prod.fst = calls := by
  induction calls generalizing s with
  | nil => rfl
  | cons call rest ih => rw [trace, map_cons, ih]

/-- An invariant of the state together with the trace that led to it. Each step may use that its
call is the next one of the run. -/
theorem history {I : List (ι × ο) → σ → Prop} {s : σ} {calls : List ι} (hstart : I [] s)
    (hstep : ∀ past call s, past.map Prod.fst ++ [call] <+: calls → I past s →
      I (past ++ [(call, (serve s call).1)]) (serve s call).2) :
    I (serve.trace s calls) (serve.after s calls) := by
  have hrun : ∀ rest, rest <+: calls → I (serve.trace s rest) (serve.after s rest) := by
    intro rest
    induction rest using reverseRecOn with
    | nil => exact fun _ => hstart
    | append_singleton past call ih =>
      intro hprefix
      rw [trace_snoc, after_append]
      refine hstep _ call _ ?_ (ih ((prefix_append past [call]).trans hprefix))
      rwa [map_trace]
  exact hrun calls (prefix_refl calls)

theorem related {C : ι → κ → Prop} {A : ι × ο → κ × ω → Prop} {R : List (ι × ο) → σ → τ → Prop} {s : σ} {t : τ}
    {calls : List ι} {calls' : List κ} (hcalls : Forall₂ C calls calls') (hstart : R [] s t)
    (hstep : ∀ past call call' s t, past.map Prod.fst ++ [call] <+: calls → R past s t → C call call' →
      A (call, (serve s call).1) (call', (serve' t call').1) ∧
        R (past ++ [(call, (serve s call).1)]) (serve s call).2 (serve' t call').2) :
    Forall₂ A (serve.trace s calls) (serve'.trace t calls') ∧
      R (serve.trace s calls) (serve.after s calls) (serve'.after t calls') := by
  have hrun : ∀ past rest rest' s t, past.map Prod.fst ++ rest = calls → Forall₂ C rest rest' → R past s t →
      Forall₂ A (serve.trace s rest) (serve'.trace t rest') ∧
        R (past ++ serve.trace s rest) (serve.after s rest) (serve'.after t rest') := by
    intro past rest rest' s t heq hrest
    induction hrest generalizing past s t with
    | nil =>
      intro hR
      rw [trace, append_nil]
      exact ⟨.nil, hR⟩
    | @cons call call' rest rest' hcall hrest ih =>
      intro hR
      have hnow : past.map Prod.fst ++ [call] ++ rest = calls := by
        rw [append_assoc]
        exact heq
      obtain ⟨hanswer, hnext⟩ := hstep past call call' s t ⟨rest, hnow⟩ hR hcall
      obtain ⟨htrace, hlast⟩ := ih _ _ _ (by simpa using heq) hnext
      refine ⟨.cons hanswer htrace, ?_⟩
      rw [append_assoc] at hlast
      exact hlast
  exact hrun [] calls calls' s t rfl hcalls hstart

end Service

end Pluribus.Lib
