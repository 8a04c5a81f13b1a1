import Pluribus.Cognition.World
import Pluribus.Cognition.RouterSpec

namespace Pluribus.Cognition

open Lib Lib.Contract Lib.Prog Pluribus.Core Storage

namespace AgentM

variable {α β : Type}

section Rules

variable {W : Type} {c : Contract AgentOp AgentOp.Res W} {w : W}

abbrev routerView (c : Contract AgentOp AgentOp.Res W) : Contract StoreOp StoreOp.Res W :=
  c.view .store fun _ r => r

theorem perform_ensures {op : AgentOp} {post : op.Res → W → Prop}
    (h : ∀ w', c.interferes w w' → c.good w' → c.demands op w' ∧
      ∀ r w'', c.answers op w' r w'' → c.good w'' → ∀ u, c.interferes w'' u → c.good u → post r u) :
    c.EnsuresOk (perform op) post w := by
  intro w' hw' hgood
  obtain ⟨hdemand, hnext⟩ := h w' hw' hgood
  refine ⟨hdemand, fun r w'' hr hgood' u hu hgoodu a ha => ?_⟩
  cases ha
  exact hnext r w'' hr hgood' u hu hgoodu

theorem lift_ensures {p : Prog AgentOp AgentOp.Res α} {post : α → W → Prop} (h : c.Ensures p post w) :
    c.EnsuresOk (ExceptT.lift p : AgentM α) post w := by
  refine Ensures.bind (h.stable.mono fun a w' _ ha => ?_)
  intro u hu hgood b hb
  cases hb
  exact ha u hu hgood

theorem route_ensures {x : RouterM α} {post : α → W → Prop} (h : (routerView c).EnsuresOk x post w) :
    c.EnsuresOk (route x) post w := by
  refine EnsuresOk.bind ((lift_ensures (Ensures.lift (f := AgentOp.store) h).stable).mono fun r w' _ hr => ?_)
  cases r with
  | error error => exact EnsuresOk.throw
  | ok a => exact EnsuresOk.pure fun u hu hgood => hr u hu hgood a rfl

end Rules

section Uses

variable {S : AgentOp → Prop}

theorem perform_uses {op : AgentOp} (h : S op) : Uses S (perform op) := ⟨h, fun _ => trivial⟩

theorem route_uses {x : RouterM α} (h : Uses (fun op => S (.store op)) x) : Uses S (route x) := by
  refine Uses.bind (Uses.lift (Prog.All.lift h)) fun r => ?_
  cases r with
  | error error => exact Uses.throw _
  | ok value => exact Uses.pure _

theorem guest_uses {x : AgentM (Except Runtime.RuntimeError α)} (h : Uses S x) : Uses S (guest x) := by
  refine Uses.bind h fun r => ?_
  cases r with
  | error error => exact Uses.throw _
  | ok value => exact Uses.pure _

end Uses

end AgentM

end Pluribus.Cognition
