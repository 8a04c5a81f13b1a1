import Mathlib.Logic.Basic

namespace Pluribus.Lib

variable {ε α β : Type}

theorem ok_of_toOption {x : Except ε α} {a : α} (h : x.toOption = some a) : x = .ok a := by
  cases x with
  | ok => exact congrArg Except.ok (Option.some.inj h)
  | error => cases h

theorem error_of_toOption {x : Except ε α} (h : x.toOption = none) : ∃ e, x = .error e := by
  cases x with
  | ok => cases h
  | error e => exact ⟨e, rfl⟩

theorem of_map_ok {x : Except ε α} {f : α → β} {b : β} (h : x.map f = .ok b) : ∃ a, x = .ok a ∧ f a = b := by
  cases x with
  | ok a => exact ⟨a, rfl, Except.ok.inj h⟩
  | error => cases h

def Gives (Q : α → Prop) : Except ε α → Prop
  | .ok a => Q a
  | .error _ => True

namespace Gives

variable {P Q : α → Prop} {S : β → Prop} {x : Except ε α} {f : α → Except ε β}

theorem ok {a : α} (h : Q a) : Gives Q (.ok a : Except ε α) := h

theorem error (e : ε) : Gives Q (.error e : Except ε α) := trivial

theorem of_ok {a : α} (h : Gives Q x) (hx : x = .ok a) : Q a := by
  subst hx
  exact h

theorem mono (h : Gives P x) (hQ : ∀ a, P a → Q a) : Gives Q x := by
  match x, h with
  | .ok a, h => exact hQ a h
  | .error _, _ => trivial

theorem bind (hx : Gives P x) (hf : ∀ a, P a → Gives S (f a)) : Gives S (x >>= f) := by
  match x, hx with
  | .ok a, h => exact hf a h
  | .error _, _ => trivial

theorem map {g : α → β} (h : Gives (fun a => S (g a)) x) : Gives S (x.map g) := by
  match x, h with
  | .ok _, h => exact h
  | .error _, _ => trivial

theorem ite {c : Prop} [Decidable c] {a b : Except ε α} (ha : c → Gives Q a) (hb : ¬ c → Gives Q b) :
    Gives Q (if c then a else b) := by
  split
  · next h => exact ha h
  · next h => exact hb h

end Gives

end Pluribus.Lib
