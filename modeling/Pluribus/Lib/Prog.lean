import Mathlib.Logic.Relation

namespace Pluribus.Lib

/-- A program that talks to the world through operations and goes on with their answers. -/
inductive Prog (Op : Type) (Res : Op → Type) (α : Type) where
  | done (result : α)
  | call (op : Op) (next : Res op → Prog Op Res α)

variable {Op : Type} {Res : Op → Type} {W α β ε : Type}

namespace Prog

protected def bind : Prog Op Res α → (α → Prog Op Res β) → Prog Op Res β
  | .done a, f => f a
  | .call op next, f => .call op fun r => (next r).bind f

instance : Monad (Prog Op Res) where
  pure := .done
  bind := Prog.bind

def perform (op : Op) : Prog Op Res (Res op) := .call op .done

/-- The same program over a larger vocabulary of operations. -/
def lift {Op' : Type} {Res' : Op' → Type} (f : Op → Op') (g : ∀ op, Res' (f op) → Res op) :
    Prog Op Res α → Prog Op' Res' α
  | .done a => .done a
  | .call op next => .call (f op) fun r => (next (g op r)).lift f g

def run (handler : (op : Op) → W → Res op × W) : Prog Op Res α → W → α × W
  | .done a, w => (a, w)
  | .call op next, w => (next (handler op w).1).run handler (handler op w).2

/-- Every operation the program may call, whatever the answers, is one of `S`. -/
def All (S : Op → Prop) : Prog Op Res α → Prop
  | .done _ => True
  | .call op next => S op ∧ ∀ r, (next r).All S

@[simp]
theorem pure_eq (a : α) : (pure a : Prog Op Res α) = .done a := rfl

@[simp]
theorem done_bind (a : α) (f : α → Prog Op Res β) : (.done a >>= f : Prog Op Res β) = f a := rfl

@[simp]
theorem call_bind (op : Op) (next : Res op → Prog Op Res α) (f : α → Prog Op Res β) :
    (.call op next >>= f : Prog Op Res β) = .call op fun r => next r >>= f := rfl

theorem All.bind {S : Op → Prop} {p : Prog Op Res α} {f : α → Prog Op Res β} (hp : p.All S) (hf : ∀ a, (f a).All S) :
    (p >>= f).All S := by
  induction p with
  | done a => exact hf a
  | call op next ih => exact ⟨hp.1, fun r => ih r (hp.2 r)⟩

theorem all_true (p : Prog Op Res α) : p.All fun _ => True := by
  induction p with
  | done a => trivial
  | call op next ih => exact ⟨trivial, ih⟩

/-- Every operation a fallible program may call is one of `S`. -/
def Uses (S : Op → Prop) (x : ExceptT ε (Prog Op Res) α) : Prop := x.run.All S

section Uses

variable {S : Op → Prop}

theorem Uses.pure (a : α) : Uses S (pure a : ExceptT ε (Prog Op Res) α) := trivial

theorem Uses.throw (e : ε) : Uses S (throw e : ExceptT ε (Prog Op Res) α) := trivial

theorem Uses.bind {x : ExceptT ε (Prog Op Res) α} {f : α → ExceptT ε (Prog Op Res) β} (hx : Uses S x)
    (hf : ∀ a, Uses S (f a)) : Uses S (x >>= f) := by
  refine All.bind hx fun r => ?_
  cases r with
  | error e => trivial
  | ok a => exact hf a

theorem Uses.ite {c : Prop} [Decidable c] {x y : ExceptT ε (Prog Op Res) α} (hx : c → Uses S x) (hy : ¬ c → Uses S y) :
    Uses S (if c then x else y) := by
  split
  · next h => exact hx h
  · next h => exact hy h

theorem Uses.lift {p : Prog Op Res α} (hp : p.All S) : Uses S (ExceptT.lift p : ExceptT ε (Prog Op Res) α) :=
  All.bind hp fun _ => trivial

theorem uses_true (x : ExceptT ε (Prog Op Res) α) : Uses (fun _ => True) x := all_true x.run

end Uses

theorem All.lift {Op' : Type} {Res' : Op' → Type} {f : Op → Op'} {g : ∀ op, Res' (f op) → Res op} {S : Op' → Prop}
    {p : Prog Op Res α} (hp : p.All fun op => S (f op)) : (p.lift f g).All S := by
  induction p with
  | done a => trivial
  | call op next ih => exact ⟨hp.1, fun r => ih _ (hp.2 _)⟩

end Prog

/-- What a program may count on and what it owes: the worlds a run passes through, what others
may do between two operations, what must hold when an operation is called, and its answers. -/
structure Contract (Op : Type) (Res : Op → Type) (W : Type) where
  good : W → Prop
  interferes : W → W → Prop
  demands : Op → W → Prop
  answers : (op : Op) → W → Res op → W → Prop
  interferes_refl : ∀ w, interferes w w
  interferes_trans : ∀ {u v w}, interferes u v → interferes v w → interferes u w

namespace Contract

variable (c : Contract Op Res W)

/-- Whatever others do and the operations answer, the program meets every demand on its way,
and `post` holds of its result from then on. -/
def Ensures : Prog Op Res α → (α → W → Prop) → W → Prop
  | .done a, post, w => ∀ w', c.interferes w w' → c.good w' → post a w'
  | .call op next, post, w => ∀ w', c.interferes w w' → c.good w' →
      c.demands op w' ∧ ∀ r w'', c.answers op w' r w'' → c.good w'' → Ensures (next r) post w''

variable {c}

theorem Ensures.interferes {p : Prog Op Res α} {post : α → W → Prop} {w w' : W}
    (h : c.Ensures p post w) (hw : c.interferes w w') : c.Ensures p post w' := by
  cases p <;> exact fun w'' hw'' hgood => h w'' (c.interferes_trans hw hw'') hgood

theorem Ensures.mono {p : Prog Op Res α} {post post' : α → W → Prop} {w : W}
    (h : c.Ensures p post w) (hpost : ∀ a w', c.good w' → post a w' → post' a w') :
    c.Ensures p post' w := by
  induction p generalizing w with
  | done a =>
    intro w' hw' hgood
    exact hpost a w' hgood (h w' hw' hgood)
  | call op next ih =>
    intro w' hw' hgood
    obtain ⟨hdemand, hnext⟩ := h w' hw' hgood
    refine ⟨hdemand, fun r w'' hr hgood' => ?_⟩
    exact ih r (hnext r w'' hr hgood')

theorem Ensures.intro {p : Prog Op Res α} {post : α → W → Prop} {w : W}
    (h : ∀ w', c.interferes w w' → c.good w' → c.Ensures p post w') : c.Ensures p post w := by
  cases p <;> exact fun w' hw' hgood => h w' hw' hgood w' (c.interferes_refl w') hgood

theorem Ensures.stable {p : Prog Op Res α} {post : α → W → Prop} {w : W} (h : c.Ensures p post w) :
    c.Ensures p (fun a w' => ∀ u, c.interferes w' u → c.good u → post a u) w := by
  induction p generalizing w with
  | done a =>
    intro w' hw' _ u hu hgood
    exact h u (c.interferes_trans hw' hu) hgood
  | call op next ih =>
    intro w' hw' hgood
    obtain ⟨hdemand, hnext⟩ := h w' hw' hgood
    exact ⟨hdemand, fun r w'' hr hgood' => ih r (hnext r w'' hr hgood')⟩

theorem Ensures.bind {p : Prog Op Res α} {f : α → Prog Op Res β} {post : β → W → Prop} {w : W}
    (h : c.Ensures p (fun a w' => c.Ensures (f a) post w') w) : c.Ensures (p >>= f) post w := by
  induction p generalizing w with
  | done a => exact Ensures.intro h
  | call op next ih =>
    intro w' hw' hgood
    obtain ⟨hdemand, hnext⟩ := h w' hw' hgood
    refine ⟨hdemand, fun r w'' hr hgood' => ?_⟩
    exact ih r (hnext r w'' hr hgood')

theorem Ensures.of_all {p : Prog Op Res α} {S : Op → Prop} (hp : p.All S)
    (hS : ∀ op w, S op → c.good w → c.demands op w) (w : W) : c.Ensures p (fun _ _ => True) w := by
  induction p generalizing w with
  | done a =>
    intro _ _ _
    trivial
  | call op next ih =>
    intro w' _ hgood
    exact ⟨hS op w' hp.1 hgood, fun r w'' _ _ => ih r (hp.2 r) w''⟩

/-- The frame rule: a fact that neither the others nor the program's operations break is still
there at the end. -/
theorem Ensures.frame {p : Prog Op Res α} {post : α → W → Prop} {S : Op → Prop} {F : W → Prop} {w : W}
    (hp : p.All S) (hinterferes : ∀ w w', c.interferes w w' → F w → F w')
    (hanswers : ∀ op w r w', S op → c.good w → c.answers op w r w' → F w → F w') (h : c.Ensures p post w) (hF : F w) :
    c.Ensures p (fun a w' => post a w' ∧ F w') w := by
  induction p generalizing w with
  | done a =>
    intro w' hw' hgood
    exact ⟨h w' hw' hgood, hinterferes w w' hw' hF⟩
  | call op next ih =>
    intro w' hw' hgood
    obtain ⟨hdemand, hnext⟩ := h w' hw' hgood
    refine ⟨hdemand, fun r w'' hr hgood' => ?_⟩
    exact ih r (hp.2 r) (hnext r w'' hr hgood') (hanswers op w' r w'' hp.1 hgood hr (hinterferes w w' hw' hF))

variable (c) in
/-- The contract as a program with a smaller vocabulary of operations sees it. -/
def view {Op' : Type} {Res' : Op' → Type} (f : Op' → Op) (g : ∀ op, Res (f op) → Res' op) : Contract Op' Res' W where
  good := c.good
  interferes := c.interferes
  demands op := c.demands (f op)
  answers op w r w' := ∃ r', g op r' = r ∧ c.answers (f op) w r' w'
  interferes_refl := c.interferes_refl
  interferes_trans := c.interferes_trans

theorem Ensures.lift {Op' : Type} {Res' : Op' → Type} {f : Op' → Op} {g : ∀ op, Res (f op) → Res' op}
    {p : Prog Op' Res' α} {post : α → W → Prop} {w : W} (h : (c.view f g).Ensures p post w) :
    c.Ensures (p.lift f g) post w := by
  induction p generalizing w with
  | done a => exact h
  | call op next ih =>
    intro w' hw' hgood
    obtain ⟨hdemand, hnext⟩ := h w' hw' hgood
    exact ⟨hdemand, fun r w'' hr hgood' => ih _ (hnext _ w'' ⟨r, rfl, hr⟩ hgood')⟩

variable (c) in
def EnsuresOk (x : ExceptT ε (Prog Op Res) α) (post : α → W → Prop) : W → Prop :=
  c.Ensures x.run fun r w => ∀ a, r = .ok a → post a w

theorem EnsuresOk.bind {x : ExceptT ε (Prog Op Res) α} {f : α → ExceptT ε (Prog Op Res) β}
    {post : β → W → Prop} {w : W} (h : c.EnsuresOk x (fun a w' => c.EnsuresOk (f a) post w') w) :
    c.EnsuresOk (x >>= f) post w := by
  refine Ensures.bind (Ensures.mono h fun r w' _ hr => ?_)
  cases r with
  | ok a => exact hr a rfl
  | error e =>
    intro w'' _ _ b hb
    cases hb

theorem EnsuresOk.of_uses {x : ExceptT ε (Prog Op Res) α} {S : Op → Prop} (hx : Prog.Uses S x)
    (hS : ∀ op w, S op → c.good w → c.demands op w) (w : W) : c.EnsuresOk x (fun _ _ => True) w :=
  Ensures.mono (Ensures.of_all hx hS w) fun _ _ _ _ _ _ => trivial

theorem EnsuresOk.frame {x : ExceptT ε (Prog Op Res) α} {post : α → W → Prop} {S : Op → Prop} {F : W → Prop} {w : W}
    (hx : Prog.Uses S x) (hinterferes : ∀ w w', c.interferes w w' → F w → F w')
    (hanswers : ∀ op w r w', S op → c.good w → c.answers op w r w' → F w → F w') (h : c.EnsuresOk x post w) (hF : F w) :
    c.EnsuresOk x (fun a w' => post a w' ∧ F w') w :=
  Ensures.mono (Ensures.frame hx hinterferes hanswers h hF) fun _ _ _ hr a ha => ⟨hr.1 a ha, hr.2⟩

theorem EnsuresOk.pure {a : α} {post : α → W → Prop} {w : W}
    (h : ∀ w', c.interferes w w' → c.good w' → post a w') :
    c.EnsuresOk (pure a : ExceptT ε (Prog Op Res) α) post w := by
  intro w' hw' hgood b hb
  cases hb
  exact h w' hw' hgood

theorem EnsuresOk.throw {e : ε} {post : α → W → Prop} {w : W} :
    c.EnsuresOk (throw e : ExceptT ε (Prog Op Res) α) post w := by
  intro w' _ _ b hb
  cases hb

theorem EnsuresOk.mono {x : ExceptT ε (Prog Op Res) α} {post post' : α → W → Prop} {w : W}
    (h : c.EnsuresOk x post w) (hpost : ∀ a w', c.good w' → post a w' → post' a w') :
    c.EnsuresOk x post' w :=
  Ensures.mono h fun _ w' hgood hr a ha => hpost a w' hgood (hr a ha)

end Contract

end Pluribus.Lib
