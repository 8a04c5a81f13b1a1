import Mathlib.Data.List.Basic

namespace Pluribus.Lib

open List

variable {σ α ε τ υ : Type}

inductive Chain (move : σ → List α → σ → Prop) : σ → List α → σ → Prop
  | refl (s : σ) : Chain move s [] s
  | cons {s t u : σ} {xs ys : List α} (first : move s xs t) (rest : Chain move t ys u) : Chain move s (xs ++ ys) u

namespace Chain

variable {move : σ → List α → σ → Prop} {s t u : σ} {xs ys : List α}

theorem one (h : move s xs t) : Chain move s xs t := by
  have h := Chain.cons h (.refl t)
  rwa [append_nil] at h

theorem trans (h : Chain move s xs t) (h' : Chain move t ys u) : Chain move s (xs ++ ys) u := by
  induction h with
  | refl => exact h'
  | cons first _ ih =>
    rw [append_assoc]
    exact .cons first (ih h')

theorem mono {move' : σ → List α → σ → Prop} (hmove : ∀ s xs t, move s xs t → move' s xs t) (h : Chain move s xs t) :
    Chain move' s xs t := by
  induction h with
  | refl => exact .refl _
  | cons first _ ih => exact .cons (hmove _ _ _ first) ih

variable {I : σ → Prop}

theorem invariant (hmove : ∀ s xs t, move s xs t → I s → I t) (h : Chain move s xs t) (hI : I s) : I t := by
  induction h with
  | refl => exact hI
  | cons first _ ih => exact ih (hmove _ _ _ first hI)

theorem outputs {P : α → Prop} (hmove : ∀ s xs t, move s xs t → I s → I t)
    (hout : ∀ s xs t, move s xs t → I s → ∀ x ∈ xs, P x) (h : Chain move s xs t) (hI : I s) : ∀ x ∈ xs, P x := by
  induction h with
  | refl => exact fun x hx => absurd hx not_mem_nil
  | cons first _ ih =>
    intro x hx
    rcases mem_append.mp hx with hx | hx
    · exact hout _ _ _ first hI x hx
    · exact ih (hmove _ _ _ first hI) x hx

theorem history {I : σ → List α → Prop} (hmove : ∀ s xs t past, move s xs t → I s past → I t (past ++ xs))
    (h : Chain move s xs t) {l : List α} (hI : I s l) : I t (l ++ xs) := by
  induction h generalizing l with
  | refl => rwa [append_nil]
  | cons first _ ih =>
    rw [← append_assoc]
    exact ih (hmove _ _ _ _ first hI)

end Chain

/-- The result of a function follows a chain of moves from `s`: it ends where the chain ends, with outputs the
chain gave beside those at hand before, and it fails only where the chain has come to a fault. -/
def Follows (move : σ → List α → σ → Prop) (fault : σ → Prop) (final : τ → σ → Prop) (before : List α) (s : σ) :
    Except ε (τ × List α) → Prop
  | .ok (result, out) => ∃ xs t, Chain move s xs t ∧ final result t ∧ out.Sublist (before ++ xs)
  | .error _ => ∃ xs t, Chain move s xs t ∧ fault t

namespace Follows

variable {move : σ → List α → σ → Prop} {fault : σ → Prop} {final : τ → σ → Prop} {last : υ → σ → Prop}
  {before xs : List α} {s t : σ} {result : τ} {out : List α}

theorem ok (h : final result s) (hout : out.Sublist before) :
    Follows (ε := ε) move fault final before s (.ok (result, out)) :=
  ⟨[], s, .refl s, h, by simpa using hout⟩

theorem error {e : ε} (h : fault s) : Follows (τ := τ) move fault final before s (.error e) :=
  ⟨[], s, .refl s, h⟩

theorem step {r : Except ε (τ × List α)} (first : move s xs t) (h : Follows move fault final (before ++ xs) t r) :
    Follows move fault final before s r := by
  match r, h with
  | .ok (result, out), ⟨ys, u, hchain, hfinal, hout⟩ =>
    exact ⟨xs ++ ys, u, .cons first hchain, hfinal, by simpa using hout⟩
  | .error e, ⟨ys, u, hchain, hfault⟩ => exact ⟨xs ++ ys, u, .cons first hchain, hfault⟩

theorem chain {r : Except ε (τ × List α)} (first : Chain move s xs t) (h : Follows move fault final (before ++ xs) t r) :
    Follows move fault final before s r := by
  induction first generalizing before with
  | refl => simpa using h
  | cons first _ ih => exact step first (ih (by simpa using h))

theorem silent {r : Except ε (τ × List α)} (first : move s [] t) (h : Follows move fault final before t r) :
    Follows move fault final before s r :=
  step first (by rwa [append_nil])

theorem mono {r : Except ε (τ × List α)} {final' : τ → σ → Prop} (hfinal : ∀ result t, final result t → final' result t)
    {before' : List α} (hbefore : before.Sublist before') (h : Follows move fault final before s r) :
    Follows move fault final' before' s r := by
  match r, h with
  | .ok (result, out), ⟨ys, u, hchain, hlast, hout⟩ =>
    exact ⟨ys, u, hchain, hfinal _ _ hlast, hout.trans (hbefore.append_right ys)⟩
  | .error e, h => exact h

theorem left {r : Except ε (τ × List α)} {final' : τ → σ → Prop}
    (h : Follows move fault (fun result t => final result t ∧ final' result t) before s r) :
    Follows move fault final before s r :=
  mono (fun _ _ h => h.1) (List.Sublist.refl _) h

theorem ite {c : Prop} [Decidable c] {a b : Except ε (τ × List α)} (ha : c → Follows move fault final before s a)
    (hb : ¬ c → Follows move fault final before s b) : Follows move fault final before s (if c then a else b) := by
  split
  · next h => exact ha h
  · next h => exact hb h

theorem and {r : Except ε (τ × List α)} {P : τ → Prop} (h : Follows move fault final before s r)
    (hP : ∀ result out, r = .ok (result, out) → P result) :
    Follows move fault (fun result t => final result t ∧ P result) before s r := by
  match r, h with
  | .ok (result, out), ⟨ys, u, hchain, hfinal, hout⟩ => exact ⟨ys, u, hchain, ⟨hfinal, hP result out rfl⟩, hout⟩
  | .error e, h => exact h

theorem after {r : Except ε (τ × List α)} {drafts : List α} (hdrafts : drafts.Sublist before)
    (h : Follows move fault final [] s r) :
    Follows move fault final before s (r.map fun p => (p.1, drafts ++ p.2)) := by
  match r, h with
  | .ok (result, out), ⟨ys, u, hchain, hlast, hout⟩ =>
    exact ⟨ys, u, hchain, hlast, hdrafts.append (by simpa using hout)⟩
  | .error e, h => exact h

theorem bind {x : Except ε (τ × List α)} {f : τ × List α → Except ε (υ × List α)}
    (hx : Follows move fault final before s x)
    (hf : ∀ result out t, final result t → Follows move fault last out t (f (result, out))) :
    Follows move fault last before s (x >>= f) := by
  match x, hx with
  | .ok (result, out), ⟨xs, t, hchain, hfinal, hout⟩ =>
    change Follows move fault last before s (f (result, out))
    have h := hf result out t hfinal
    match f (result, out), h with
    | .ok (result', out'), ⟨ys, u, hchain', hlast, hout'⟩ =>
      refine ⟨xs ++ ys, u, hchain.trans hchain', hlast, hout'.trans ?_⟩
      rw [← append_assoc]
      exact hout.append_right ys
    | .error e, ⟨ys, u, hchain', hfault⟩ => exact ⟨xs ++ ys, u, hchain.trans hchain', hfault⟩
  | .error e, h => exact h

end Follows

end Pluribus.Lib
