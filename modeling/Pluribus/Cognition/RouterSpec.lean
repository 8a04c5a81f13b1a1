import Pluribus.Cognition.Router

namespace Pluribus.Cognition.Router

open Lib Lib.Contract Lib.Prog Pluribus.Core Storage

variable {W : Type} {c : Contract StoreOp StoreOp.Res W} {router : Router}

theorem pages_ensures {σ β : Type} {next : Nat → RouterM (List CommittedEvent)}
    {visit : σ → List CommittedEvent → RouterM (σ ⊕ β)} {finish : σ → RouterM β} {post : β → W → Prop}
    (inv : Nat → Nat → σ → W → Prop)
    (hlimit : ∀ after s w, inv 0 after s w → c.EnsuresOk (finish s) post w)
    (hpage : ∀ n after s w, inv (n + 1) after s w → c.EnsuresOk (next after) (fun page w' =>
      (page = [] → c.EnsuresOk (finish s) post w') ∧
      ∀ last, page.getLast? = some last → c.EnsuresOk (visit s page) (fun r w'' =>
        (∀ s', r = .inl s' → inv n last.sequence s' w'') ∧
        ∀ b, r = .inr b → ∀ u, c.interferes w'' u → c.good u → post b u) w') w)
    {n after : Nat} {s : σ} {w : W} (h : inv n after s w) :
    c.EnsuresOk (pages next visit finish n after s) post w := by
  induction n generalizing after s w with
  | zero => exact hlimit after s w h
  | succ n ih =>
    refine EnsuresOk.bind ((hpage n after s w h).mono fun page w' hgood hpage' => ?_)
    cases hlast : page.getLast? with
    | none => exact hpage'.1 (List.getLast?_eq_none_iff.mp hlast)
    | some last =>
      refine EnsuresOk.bind ((hpage'.2 last hlast).mono fun r w'' hgood' hr => ?_)
      cases r with
      | inl s' => exact ih (hr.1 s' rfl)
      | inr b => exact EnsuresOk.pure (hr.2 b rfl)

theorem validated_ensures {request : AppendRequest} {post : AppendRequest → W → Prop} {w : W}
    (h : ∀ w', c.interferes w w' → c.good w' → post request w') :
    c.EnsuresOk (router.validated request) post w := by
  unfold validated
  cases router.registry.validate request with
  | ok _ => exact EnsuresOk.pure h
  | error e => exact EnsuresOk.throw

end Pluribus.Cognition.Router
