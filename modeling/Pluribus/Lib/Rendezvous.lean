import Mathlib.Data.List.Nodup

namespace Pluribus.Lib

open List

/-- A caller that waits for each of its messages to be answered, and a worker that takes one
message at a time. Messages are told apart by the number they were issued. -/
structure Rendezvous (B R : Type) where
  inbox : Option (B × Nat)
  pending : Option (B × Nat)
  calling : Option Nat
  issued : Nat
  replies : List (Nat × R)

namespace Rendezvous

variable {B R : Type}

def fresh : Rendezvous B R := ⟨none, none, none, 0, []⟩

def post (z : Rendezvous B R) (message : B) : Rendezvous B R :=
  { z with inbox := some (message, z.issued), calling := some z.issued, issued := z.issued + 1 }

def take (z : Rendezvous B R) : Rendezvous B R :=
  { z with inbox := none, pending := z.inbox }

def answer (z : Rendezvous B R) (id : Nat) (result : R) : Rendezvous B R :=
  { z with pending := none, replies := z.replies ++ [(id, result)] }

def collect (z : Rendezvous B R) : Rendezvous B R := { z with calling := none }

def abandon (z : Rendezvous B R) : Rendezvous B R :=
  { z with inbox := none, pending := none, calling := none }

def replied (z : Rendezvous B R) (id : Nat) : Prop := ∃ result, (id, result) ∈ z.replies

inductive Move (z : Rendezvous B R) : Rendezvous B R → Prop
  | post (message : B) (h : z.calling = none) : Move z (z.post message)
  | take {message : B} {id : Nat} (h : z.inbox = some (message, id)) : Move z z.take
  | answer {message : B} {id : Nat} (result : R) (h : z.pending = some (message, id)) : Move z (z.answer id result)
  | collect {id : Nat} (h : z.calling = some id) (hreplied : z.replied id) : Move z z.collect
  | abandon : Move z z.abandon

/-- The one message under way is the one the caller waits for, and it has no answer yet. -/
structure WellFormed (z : Rendezvous B R) : Prop where
  once : (z.replies.map (·.1)).Nodup
  bound : ∀ id, z.replied id ∨ z.calling = some id → id < z.issued
  inbox : ∀ message id, z.inbox = some (message, id) → z.calling = some id ∧ ¬ z.replied id ∧ z.pending = none
  pending : ∀ message id, z.pending = some (message, id) → z.calling = some id ∧ ¬ z.replied id ∧ z.inbox = none

variable {z z' : Rendezvous B R}

theorem WellFormed.fresh : (Rendezvous.fresh : Rendezvous B R).WellFormed where
  once := nodup_nil
  bound := by
    rintro id (⟨result, h⟩ | h)
    · cases h
    · cases h
  inbox := nofun
  pending := nofun

theorem replied_answer {id other : Nat} {result : R} :
    (z.answer id result).replied other ↔ z.replied other ∨ other = id := by
  simp only [replied, Rendezvous.answer, mem_append, mem_singleton, Prod.mk.injEq]
  constructor
  · rintro ⟨r, h | ⟨h, -⟩⟩
    · exact .inl ⟨r, h⟩
    · exact .inr h
  · rintro (⟨r, h⟩ | h)
    · exact ⟨r, .inl h⟩
    · exact ⟨result, .inr ⟨h, rfl⟩⟩

theorem Move.wellFormed (h : Move z z') (hz : z.WellFormed) : z'.WellFormed := by
  cases h with
  | post message h =>
    have hfree : z.pending = none := by
      cases hp : z.pending with
      | none => rfl
      | some p => exact absurd ((hz.pending p.1 p.2 hp).1.symm.trans h) nofun
    refine ⟨hz.once, ?_, ?_, ?_⟩
    · rintro id (hreplied | hcalling)
      · exact Nat.lt_succ_of_lt (hz.bound id (.inl hreplied))
      · cases hcalling
        exact Nat.lt_succ_self _
    · intro m id hm
      cases hm
      exact ⟨rfl, fun hreplied => Nat.lt_irrefl _ (hz.bound _ (.inl hreplied)), hfree⟩
    · intro m id hm
      exact absurd (hfree.symm.trans hm) nofun
  | take h =>
    refine ⟨hz.once, hz.bound, nofun, fun m id hm => ?_⟩
    obtain ⟨hcalling, hreplied, -⟩ := hz.inbox m id hm
    exact ⟨hcalling, hreplied, rfl⟩
  | @answer message id result h =>
    obtain ⟨hcalling, hreplied, hinbox⟩ := hz.pending _ _ h
    refine ⟨?_, ?_, fun m other hm => absurd (hinbox.symm.trans hm) nofun, nofun⟩
    · have hnot : id ∉ z.replies.map (·.1) := by
        intro hmem
        obtain ⟨⟨k, r⟩, hr, rfl⟩ := mem_map.mp hmem
        exact hreplied ⟨r, hr⟩
      change ((z.replies ++ [(id, result)]).map (·.1)).Nodup
      rw [map_append, nodup_append]
      refine ⟨hz.once, by simp, fun a ha b hb => ?_⟩
      rw [map_singleton, mem_singleton] at hb
      rintro rfl
      exact hnot ((show a = id from hb) ▸ ha)
    · rintro other (hother | hother)
      · rcases replied_answer.mp hother with hold | rfl
        · exact hz.bound other (.inl hold)
        · exact hz.bound _ (.inr hcalling)
      · exact hz.bound other (.inr hother)
  | @collect id h hreplied =>
    refine ⟨hz.once, ?_, fun m other hm => ?_, fun m other hm => ?_⟩
    · rintro other (hother | hother)
      · exact hz.bound other (.inl hother)
      · cases hother
    · obtain ⟨hcalling, hnot, -⟩ := hz.inbox m other hm
      cases h.symm.trans hcalling
      exact absurd hreplied hnot
    · obtain ⟨hcalling, hnot, -⟩ := hz.pending m other hm
      cases h.symm.trans hcalling
      exact absurd hreplied hnot
  | abandon =>
    refine ⟨hz.once, ?_, nofun, nofun⟩
    rintro other (hother | hother)
    · exact hz.bound other (.inl hother)
    · cases hother

/-- A message that will never be answered: it was issued, and nobody waits for it any more. -/
structure Lost (z : Rendezvous B R) (id : Nat) : Prop where
  issued : id < z.issued
  calling : z.calling ≠ some id
  replied : ¬ z.replied id

theorem Move.lost (h : Move z z') (hz : z.WellFormed) {id : Nat} (hlost : z.Lost id) : z'.Lost id := by
  obtain ⟨hissued, hcalling, hreplied⟩ := hlost
  cases h with
  | post message h =>
    refine ⟨Nat.lt_succ_of_lt hissued, fun he => ?_, hreplied⟩
    cases he
    exact Nat.lt_irrefl _ hissued
  | take h => exact ⟨hissued, hcalling, hreplied⟩
  | @answer message other result h =>
    refine ⟨hissued, hcalling, fun hr => ?_⟩
    rcases replied_answer.mp hr with hold | rfl
    · exact hreplied hold
    · exact hcalling (hz.pending _ _ h).1
  | _ => exact ⟨hissued, nofun, hreplied⟩

theorem Move.replies (h : Move z z') : z.replies <+: z'.replies := by
  cases h with
  | answer result h => exact prefix_append _ _
  | post | take | collect | abandon => exact prefix_refl _

theorem Move.pending (h : Move z z') (hz : z.WellFormed) (hsome : z'.pending.isSome) :
    z'.pending = z.pending ∨ z.pending = none := by
  cases h with
  | post | collect => exact .inl rfl
  | @take message id h => exact .inr (hz.inbox message id h).2.2
  | answer | abandon => cases hsome

theorem WellFormed.unique (hz : z.WellFormed) {id : Nat} {r r' : R} (h : (id, r) ∈ z.replies)
    (h' : (id, r') ∈ z.replies) : r = r' :=
  congrArg Prod.snd (inj_on_of_nodup_map hz.once h h' rfl)

end Rendezvous

end Pluribus.Lib
