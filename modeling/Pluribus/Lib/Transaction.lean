import Mathlib.Logic.Relation

namespace Pluribus.Lib

variable {σ ε α β : Type}

theorem except_map_ok {x : Except ε α} {f : α → β} {b : β} : x.map f = .ok b ↔ ∃ a, x = .ok a ∧ f a = b := by
  cases x <;> simp [Except.map]

theorem except_bind_ok {x : Except ε α} {f : α → Except ε β} {b : β} :
    (x >>= f) = .ok b ↔ ∃ a, x = .ok a ∧ f a = .ok b := by
  cases x <;> simp [bind, Except.bind]

abbrev Tx (σ ε α : Type) := StateT σ (Except ε) α

namespace Tx

def fail (error : ε) : Tx σ ε α := fun _ => .error error

def ofExcept : Except ε α → Tx σ ε α
  | .ok a => fun s => .ok (a, s)
  | .error e => fun _ => .error e

def mapError {ε' : Type} (f : ε → ε') (tx : Tx σ ε α) : Tx σ ε' α := fun s =>
  match tx s with
  | .ok r => .ok r
  | .error e => .error (f e)

/-- Run a program as one transaction: a failure leaves the state as it was. -/
def atomically (tx : Tx σ ε α) (s : σ) : Except ε α × σ :=
  match tx s with
  | .ok (a, s') => (.ok a, s')
  | .error e => (.error e, s)

theorem bind_ok {x : Tx σ ε α} {f : α → Tx σ ε β} {s t : σ} {b : β} :
    (x >>= f) s = .ok (b, t) ↔ ∃ a s', x s = .ok (a, s') ∧ f a s' = .ok (b, t) := by
  change (x s >>= fun r => f r.1 r.2) = _ ↔ _
  cases hx : x s with
  | error e => simp [bind, Except.bind]
  | ok r =>
    obtain ⟨a, s'⟩ := r
    constructor
    · intro h
      exact ⟨a, s', rfl, h⟩
    · rintro ⟨a', t', heq, h⟩
      cases heq
      exact h

@[simp]
theorem pure_apply (a : α) (s : σ) : (pure a : Tx σ ε α) s = .ok (a, s) := rfl

theorem pure_ok {a b : α} {s t : σ} :
    (pure a : Tx σ ε α) s = .ok (b, t) ↔ a = b ∧ s = t := by
  simp

@[simp]
theorem fail_ok {e : ε} {s t : σ} {a : α} : (fail e : Tx σ ε α) s = .ok (a, t) ↔ False := by
  simp [fail]

theorem ofExcept_ok {x : Except ε α} {s t : σ} {a : α} :
    ofExcept x s = .ok (a, t) ↔ x = .ok a ∧ s = t := by
  cases x <;> simp [ofExcept]

theorem mapError_ok {ε' : Type} {f : ε → ε'} {tx : Tx σ ε α} {s t : σ} {a : α} :
    mapError f tx s = .ok (a, t) ↔ tx s = .ok (a, t) := by
  unfold mapError
  cases tx s <;> simp

theorem atomically_ok {tx : Tx σ ε α} {s : σ} {a : α} (h : (atomically tx s).1 = .ok a) :
    tx s = .ok (a, (atomically tx s).2) := by
  unfold atomically at h ⊢
  cases htx : tx s with
  | error e => rw [htx] at h; cases h
  | ok r => rw [htx] at h; cases h; rfl

theorem atomically_error {tx : Tx σ ε α} {s : σ} {e : ε} (h : (atomically tx s).1 = .error e) :
    (atomically tx s).2 = s := by
  unfold atomically at h ⊢
  cases htx : tx s with
  | error e' => rfl
  | ok r => rw [htx] at h; cases h

theorem mapM_relation {R : σ → List α → List β → σ → Prop} {f : α → Tx σ ε β}
    (hnil : ∀ s, R s [] [] s)
    (hcons : ∀ s a b t as bs u, f a s = .ok (b, t) → R t as bs u → R s (a :: as) (b :: bs) u)
    {as : List α} {bs : List β} {s u : σ} (h : (as.mapM f : Tx σ ε (List β)) s = .ok (bs, u)) :
    R s as bs u := by
  induction as generalizing s bs with
  | nil =>
    rw [List.mapM_nil, pure_ok] at h
    obtain ⟨rfl, rfl⟩ := h
    exact hnil s
  | cons a as ih =>
    rw [List.mapM_cons, bind_ok] at h
    obtain ⟨b, t, hb, h⟩ := h
    rw [bind_ok] at h
    obtain ⟨bs', u', hbs, h⟩ := h
    rw [pure_ok] at h
    obtain ⟨rfl, rfl⟩ := h
    exact hcons s a b t as bs' u' hb (ih hbs)

end Tx

end Pluribus.Lib
