import Pluribus.Lib.Prog

namespace Pluribus.Lib

open List

variable {Op : Type} {Res : Op → Type} {W D α : Type}

/-- Calls of one program run side by side over a world; `D` is what a call is made with. A call
that has returned keeps its result. -/
structure Pool (Op : Type) (Res : Op → Type) (W D α : Type) where
  world : W
  calls : List (D × Prog Op Res α)

namespace Pool

/-- One step of any call or of the rest of the world. A crash drops a call between two of its
operations. -/
inductive Step (c : Contract Op Res W) (body : D → Prog Op Res α) : Pool Op Res W D α → Pool Op Res W D α → Prop
  | start {w : W} {calls : List (D × Prog Op Res α)} (d : D) :
      Step c body ⟨w, calls⟩ ⟨w, calls ++ [(d, body d)]⟩
  | operation {w w' : W} {before after : List (D × Prog Op Res α)} {d : D} {op : Op}
      {next : Res op → Prog Op Res α} {r : Res op} (hanswer : c.answers op w r w') (hgood : c.good w') :
      Step c body ⟨w, before ++ (d, .call op next) :: after⟩ ⟨w', before ++ (d, next r) :: after⟩
  | crash {w : W} {before after : List (D × Prog Op Res α)} {d : D} {op : Op} {next : Res op → Prog Op Res α} :
      Step c body ⟨w, before ++ (d, .call op next) :: after⟩ ⟨w, before ++ after⟩
  | interfere {w w' : W} {calls : List (D × Prog Op Res α)} (hw : c.interferes w w') (hgood : c.good w') :
      Step c body ⟨w, calls⟩ ⟨w', calls⟩

variable {c : Contract Op Res W} {body : D → Prog Op Res α}

def Reachable (c : Contract Op Res W) (body : D → Prog Op Res α) (w : W) (pool : Pool Op Res W D α) : Prop :=
  Relation.ReflTransGen (Step c body) ⟨w, []⟩ pool

theorem Step.good {pool pool' : Pool Op Res W D α} (h : Step c body pool pool') (hgood : c.good pool.world) :
    c.good pool'.world := by
  cases h with
  | start d | crash => exact hgood
  | operation _ hgood' | interfere _ hgood' => exact hgood'

/-- What one call ensures on its own, every call of the pool ensures, as long as the operations
of one are no more than interference to the others. -/
theorem Step.ensures {post : D → α → W → Prop} {pool pool' : Pool Op Res W D α}
    (hanswers : ∀ op w r w', c.answers op w r w' → c.interferes w w')
    (hbody : ∀ d w, c.good w → c.Ensures (body d) (post d) w) (h : Step c body pool pool')
    (hgood : c.good pool.world) (hcalls : ∀ call ∈ pool.calls, c.Ensures call.2 (post call.1) pool.world) :
    ∀ call ∈ pool'.calls, c.Ensures call.2 (post call.1) pool'.world := by
  cases h with
  | start d =>
    intro call hmem
    rcases mem_append.mp hmem with hold | hnew
    · exact hcalls call hold
    · rw [mem_singleton.mp hnew]
      exact hbody d _ hgood
  | operation hanswer hgood' =>
    rename_i w w' before after d op next r
    have hothers : ∀ call ∈ before ++ after, c.Ensures call.2 (post call.1) w' := by
      intro call hmem
      refine (hcalls call ?_).interferes (hanswers op w r w' hanswer)
      rcases mem_append.mp hmem with hb | ha
      · exact mem_append_left _ hb
      · exact mem_append_right _ (mem_cons_of_mem _ ha)
    have hself : c.Ensures (.call op next) (post d) w :=
      hcalls (d, .call op next) (mem_append_right _ mem_cons_self)
    intro call hmem
    rcases mem_append.mp hmem with hb | hrest
    · exact hothers call (mem_append_left _ hb)
    rcases mem_cons.mp hrest with rfl | ha
    · exact (hself w (c.interferes_refl w) hgood).2 r w' hanswer hgood'
    · exact hothers call (mem_append_right _ ha)
  | crash =>
    intro call hmem
    refine hcalls call ?_
    rcases mem_append.mp hmem with hb | ha
    · exact mem_append_left _ hb
    · exact mem_append_right _ (mem_cons_of_mem _ ha)
  | interfere hw hgood' =>
    intro call hmem
    exact (hcalls call hmem).interferes hw

theorem Reachable.good {w : W} {pool : Pool Op Res W D α} (hw : c.good w) (h : Reachable c body w pool) :
    c.good pool.world := by
  induction h with
  | refl => exact hw
  | tail _ hstep ih => exact hstep.good ih

theorem Reachable.ensures {post : D → α → W → Prop} {w : W} {pool : Pool Op Res W D α}
    (hanswers : ∀ op w r w', c.answers op w r w' → c.interferes w w')
    (hbody : ∀ d w, c.good w → c.Ensures (body d) (post d) w) (hw : c.good w)
    (h : Reachable c body w pool) :
    ∀ call ∈ pool.calls, c.Ensures call.2 (post call.1) pool.world := by
  induction h with
  | refl =>
    intro call hmem
    cases hmem
  | tail hsteps hstep ih => exact hstep.ensures hanswers hbody (Reachable.good hw hsteps) ih

theorem Reachable.result {post : D → α → W → Prop} {w : W} {pool : Pool Op Res W D α}
    (hanswers : ∀ op w r w', c.answers op w r w' → c.interferes w w')
    (hbody : ∀ d w, c.good w → c.Ensures (body d) (post d) w) (hw : c.good w)
    (h : Reachable c body w pool) {d : D} {a : α} (hmem : (d, .done a) ∈ pool.calls) :
    post d a pool.world :=
  Reachable.ensures hanswers hbody hw h _ hmem pool.world (c.interferes_refl _) (Reachable.good hw h)

theorem Reachable.invariant {I : W → Prop} (hinterferes : ∀ w w', c.interferes w w' → I w → I w')
    (hanswers : ∀ op w r w', c.answers op w r w' → I w → I w') {w : W} {pool : Pool Op Res W D α}
    (hw : I w) (h : Reachable c body w pool) :
    Reachable { c with good := fun w => c.good w ∧ I w } body w pool ∧ I pool.world := by
  induction h with
  | refl => exact ⟨.refl, hw⟩
  | tail _ hstep ih =>
    obtain ⟨hreach, hI⟩ := ih
    cases hstep with
    | start d => exact ⟨hreach.tail (.start d), hI⟩
    | operation hanswer hgood =>
      have hI' := hanswers _ _ _ _ hanswer hI
      exact ⟨hreach.tail (.operation hanswer ⟨hgood, hI'⟩), hI'⟩
    | crash => exact ⟨hreach.tail .crash, hI⟩
    | interfere hinterfere hgood =>
      have hI' := hinterferes _ _ hinterfere hI
      exact ⟨hreach.tail (.interfere hinterfere ⟨hgood, hI'⟩), hI'⟩

section Complete

variable {handler : (op : Op) → W → Res op × W} {w₀ : W}

theorem Reachable.run (hanswers : ∀ op w, c.answers op w (handler op w).1 (handler op w).2)
    (hgood : ∀ op w, c.good (handler op w).2) {d : D} {p : Prog Op Res α} {w : W}
    {calls : List (D × Prog Op Res α)} (h : Reachable c body w₀ ⟨w, calls ++ [(d, p)]⟩) :
    Reachable c body w₀ ⟨(p.run handler w).2, calls ++ [(d, .done (p.run handler w).1)]⟩ := by
  induction p generalizing w with
  | done a => exact h
  | call op next ih =>
    refine ih _ (h.tail ?_)
    exact Step.operation (hanswers op w) (hgood op w)

theorem Reachable.complete (hanswers : ∀ op w, c.answers op w (handler op w).1 (handler op w).2)
    (hgood : ∀ op w, c.good (handler op w).2) {pool : Pool Op Res W D α} (h : Reachable c body w₀ pool) (d : D) :
    Reachable c body w₀ ⟨((body d).run handler pool.world).2,
      pool.calls ++ [(d, .done ((body d).run handler pool.world).1)]⟩ :=
  Reachable.run hanswers hgood (h.tail (.start d))

end Complete

end Pool

end Pluribus.Lib
