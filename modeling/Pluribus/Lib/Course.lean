import Mathlib.Order.WellFounded
import Mathlib.Order.Nat
import Mathlib.Data.Nat.Find

namespace Pluribus.Lib

structure Course {S L : Type} (step : L → S → S → Prop) where
  state : Nat → S
  label : Nat → L
  steps : ∀ n, step (label n) (state n) (state (n + 1))

namespace Course

variable {S L M : Type} {step : L → S → S → Prop} (run : Course step) {I Q : S → Prop} {start : Nat}

theorem always (hstart : I (run.state start)) (hkeep : ∀ n, start ≤ n → I (run.state n) → I (run.state (n + 1)))
    (n : Nat) (hn : start ≤ n) : I (run.state n) := by
  induction n, hn using Nat.le_induction with
  | base => exact hstart
  | succ n hn ih => exact hkeep n hn ih

/-- Steps that count occur again and again, each lowers the rank or reaches the goal, and the others do not
raise it: the goal is reached. -/
theorem eventually [PartialOrder M] [WellFoundedLT M] {counts : Nat → Prop} (rank : S → M)
    (hfair : ∀ n, ∃ k, n ≤ k ∧ counts k) (hstart : I (run.state start))
    (hlower : ∀ n, start ≤ n → I (run.state n) → counts n →
      Q (run.state (n + 1)) ∨ (I (run.state (n + 1)) ∧ rank (run.state (n + 1)) < rank (run.state n)))
    (hkeep : ∀ n, start ≤ n → I (run.state n) → ¬ counts n →
      I (run.state (n + 1)) ∧ rank (run.state (n + 1)) ≤ rank (run.state n)) :
    ∃ n, start ≤ n ∧ Q (run.state n) := by
  induction hrank : rank (run.state start) using WellFoundedLT.induction generalizing start with
  | ind m ih =>
    obtain ⟨k, hk, hcounts⟩ := hfair start
    -- up to the next step that counts the rank does not rise
    have hwait : ∀ n, start ≤ n → (∀ j, start ≤ j → j < n → ¬ counts j) →
        I (run.state n) ∧ rank (run.state n) ≤ rank (run.state start) := by
      intro n hn
      induction n, hn using Nat.le_induction with
      | base => exact fun _ => ⟨hstart, le_rfl⟩
      | succ n hn ihn =>
        intro hquiet
        obtain ⟨hI, hle⟩ := ihn fun j hj hjn => hquiet j hj (Nat.lt_succ_of_lt hjn)
        obtain ⟨hI', hle'⟩ := hkeep n hn hI (hquiet n hn (Nat.lt_succ_self n))
        exact ⟨hI', hle'.trans hle⟩
    classical
    have hexists : ∃ k, start ≤ k ∧ counts k := ⟨k, hk, hcounts⟩
    have hfirst := Nat.find_spec hexists
    have hquiet : ∀ j, start ≤ j → j < Nat.find hexists → ¬ counts j :=
      fun j hj hlt hcounts => Nat.find_min hexists hlt ⟨hj, hcounts⟩
    obtain ⟨hI, hle⟩ := hwait _ hfirst.1 hquiet
    rcases hlower _ hfirst.1 hI hfirst.2 with hQ | ⟨hI', hless⟩
    · exact ⟨_, Nat.le_succ_of_le hfirst.1, hQ⟩
    · have hlater : ∀ n, Nat.find hexists + 1 ≤ n → start ≤ n := fun n hn => by
        omega
      obtain ⟨n, hn, hQ⟩ := ih _ (hrank ▸ hless.trans_le hle) hI'
        (fun n hn => hlower n (hlater n hn)) (fun n hn => hkeep n (hlater n hn)) rfl
      exact ⟨n, hlater n hn, hQ⟩

end Course

end Pluribus.Lib
