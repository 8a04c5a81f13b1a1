import Mathlib.Data.Nat.Digits.Defs
import Pluribus.Lib.Lists
import Pluribus.Lib.Text

namespace Pluribus.Lib

open List

theorem isDigit_of_mem_repr {n : Nat} {c : Char} (h : c ∈ n.repr.toList) : c.isDigit = true :=
  Nat.isDigit_of_mem_toDigits (b := 10) (by decide) (by decide) (Nat.toList_repr ▸ h)

theorem toNat_of_mem_repr {n : Nat} {c : Char} (h : c ∈ n.repr.toList) : 48 ≤ c.toNat ∧ c.toNat ≤ 57 := by
  have hdigit := isDigit_of_mem_repr h
  simp only [Char.isDigit, Bool.and_eq_true, decide_eq_true_eq, UInt32.le_iff_toNat_le] at hdigit
  exact hdigit

theorem nat_repr_inj {m n : Nat} (h : m.repr = n.repr) : m = n := by
  have hlist := congrArg (fun text : String => Nat.ofDigitChars 10 text.toList 0) h
  simpa only [Nat.toList_repr, Nat.ofDigitChars_ten_toDigits] using hlist

theorem int_repr_inj {m n : Int} (h : m.repr = n.repr) : m = n := by
  -- a sign is no digit
  have hsign : ∀ k l : Nat, k.repr ≠ "-" ++ l.repr := by
    intro k l heq
    have hmem : '-' ∈ k.repr.toList := by simp [heq]
    exact absurd (isDigit_of_mem_repr hmem) (by decide)
  rw [Int.repr_eq_if, Int.repr_eq_if] at h
  split at h <;> split at h
  · have := nat_repr_inj h
    omega
  · exact absurd h (hsign _ _)
  · exact absurd h.symm (hsign _ _)
  · have hlist := congrArg String.toList h
    rw [String.toList_append, String.toList_append] at hlist
    have := nat_repr_inj (String.toList_inj.mp (append_cancel_left hlist))
    omega

theorem parseU64_repr {n : Nat} (h : n ≤ 18446744073709551615) : Text.parseU64 n.repr.toList = some n := by
  have hdigits : ∀ c ∈ n.repr.toList, Text.isDigit c = true := by
    intro c hc
    simpa [Char.isDigit, Text.isDigit, Char.le_def] using isDigit_of_mem_repr hc
  have hsign : Text.after ['+'] n.repr.toList = none := by
    cases hlist : n.repr.toList with
    | nil => rfl
    | cons c rest =>
      have hne : c ≠ '+' := fun heq => absurd (hdigits '+' (hlist ▸ heq ▸ mem_cons_self)) (by decide)
      simp [Text.after, hne.symm]
  have hvalue : n.repr.toList.foldl (fun n c => 10 * n + (c.toNat - '0'.toNat)) 0 = n := by
    rw [Nat.toList_repr]
    exact Nat.ofDigitChars_ten_toDigits
  have hempty : n.repr.toList.isEmpty = false := by
    rw [Nat.toList_repr, isEmpty_eq_false_iff]
    exact Nat.toDigits_ne_nil
  have hall : n.repr.toList.all Text.isDigit = true := all_eq_true.mpr hdigits
  unfold Text.parseU64
  simp only [hsign, Option.getD_none, hvalue, hempty, hall, Bool.not_true, Bool.or_self, Bool.false_or, decide_eq_true_eq]
  rw [if_neg (Nat.not_lt.mpr h)]

theorem colon_not_mem_repr (n : Nat) : ':' ∉ n.repr.toList :=
  fun h => absurd (isDigit_of_mem_repr h) (by decide)

theorem colon_not_mem_int_repr (n : Int) : ':' ∉ n.repr.toList := by
  rw [Int.repr_eq_if]
  split
  · exact colon_not_mem_repr _
  · rw [String.toList_append, mem_append, not_or]
    exact ⟨by decide, colon_not_mem_repr _⟩

theorem colon_inj {a a' b b' : String} (hb : ':' ∉ b.toList) (hb' : ':' ∉ b'.toList)
    (h : a ++ ":" ++ b = a' ++ ":" ++ b') : a = a' ∧ b = b' := by
  have hlist := congrArg String.toList h
  simp only [String.toList_append, append_assoc] at hlist
  have hcut := append_cons_right_inj hb hb' hlist
  exact ⟨String.toList_inj.mp hcut.1, String.toList_inj.mp hcut.2⟩

theorem colon_left_inj {a a' b b' : String} (ha : ':' ∉ a.toList) (ha' : ':' ∉ a'.toList)
    (h : a ++ ":" ++ b = a' ++ ":" ++ b') : a = a' ∧ b = b' := by
  have hlist := congrArg String.toList h
  simp only [String.toList_append, append_assoc] at hlist
  have hcut := append_cons_left_inj ha ha' hlist
  exact ⟨String.toList_inj.mp hcut.1, String.toList_inj.mp hcut.2⟩

end Pluribus.Lib
