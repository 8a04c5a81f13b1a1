import Mathlib.Data.List.Nodup
import Mathlib.Data.List.Infix

namespace Pluribus.Lib

open List

/-- Entries under keys, in the order they were made. No key is used twice. -/
@[ext]
structure Journal (κ ε : Type) where
  entries : List (κ × ε)
  nodup : (entries.map Prod.fst).Nodup

namespace Journal

variable {κ ε : Type}

def empty : Journal κ ε := ⟨[], nodup_nil⟩

def keys (j : Journal κ ε) : List κ := j.entries.map Prod.fst

variable [DecidableEq κ] (j : Journal κ ε)

/-- A new entry; what comes under a key that is used already changes nothing. -/
def enter (entry : κ × ε) : Journal κ ε :=
  if h : entry.1 ∈ j.keys then j
  else ⟨j.entries ++ [entry], by
    rw [map_append, nodup_append]
    refine ⟨j.nodup, nodup_singleton _, ?_⟩
    intro a ha b hb hab
    rw [map_singleton, mem_singleton] at hb
    exact h (hb ▸ hab ▸ ha)⟩

def record (entries : List (κ × ε)) : Journal κ ε := entries.foldl enter j

variable {j} {entry : κ × ε} {entries : List (κ × ε)} {key : κ}

theorem enter_of_mem (h : entry.1 ∈ j.keys) : j.enter entry = j := dif_pos h

theorem entries_enter (h : entry.1 ∉ j.keys) : (j.enter entry).entries = j.entries ++ [entry] := by
  rw [enter, dif_neg h]

theorem prefix_enter : j.entries <+: (j.enter entry).entries := by
  by_cases h : entry.1 ∈ j.keys
  · rw [enter_of_mem h]
  · rw [entries_enter h]
    exact prefix_append _ _

theorem mem_enter {e : κ × ε} (h : e ∈ (j.enter entry).entries) : e ∈ j.entries ∨ e = entry := by
  by_cases hkey : entry.1 ∈ j.keys
  · rw [enter_of_mem hkey] at h
    exact .inl h
  · rw [entries_enter hkey, mem_append, mem_singleton] at h
    exact h

theorem mem_keys_enter : key ∈ (j.enter entry).keys ↔ key ∈ j.keys ∨ key = entry.1 := by
  by_cases h : entry.1 ∈ j.keys
  · rw [enter_of_mem h]
    exact ⟨.inl, fun hkey => hkey.elim id fun heq => heq ▸ h⟩
  · rw [keys, entries_enter h, map_append, mem_append, map_singleton, mem_singleton, keys]

theorem record_cons : j.record (entry :: entries) = (j.enter entry).record entries := rfl

theorem prefix_record : j.entries <+: (j.record entries).entries := by
  induction entries generalizing j with
  | nil => exact prefix_rfl
  | cons entry entries ih => exact prefix_enter.trans ih

theorem mem_record {e : κ × ε} (h : e ∈ (j.record entries).entries) : e ∈ j.entries ∨ e ∈ entries := by
  induction entries generalizing j with
  | nil => exact .inl h
  | cons entry entries ih =>
    rcases ih h with hfirst | hrest
    · rcases mem_enter hfirst with hold | rfl
      · exact .inl hold
      · exact .inr mem_cons_self
    · exact .inr (mem_cons_of_mem _ hrest)

theorem mem_keys_record : key ∈ (j.record entries).keys ↔ key ∈ j.keys ∨ ∃ e ∈ entries, e.1 = key := by
  induction entries generalizing j with
  | nil => simp [record]
  | cons entry entries ih =>
    rw [record_cons, ih, mem_keys_enter, exists_mem_cons_iff, or_assoc, eq_comm]

theorem entries_record (hnew : ∀ e ∈ entries, e.1 ∉ j.keys) (hnodup : (entries.map Prod.fst).Nodup) :
    (j.record entries).entries = j.entries ++ entries := by
  induction entries generalizing j with
  | nil => simp [record]
  | cons entry entries ih =>
    rw [map_cons, nodup_cons] at hnodup
    have hentry := hnew entry mem_cons_self
    rw [record_cons, ih _ hnodup.2, entries_enter hentry, append_assoc, singleton_append]
    intro e he hkeys
    rcases mem_keys_enter.mp hkeys with hold | heq
    · exact hnew e (mem_cons_of_mem _ he) hold
    · exact hnodup.1 (heq ▸ mem_map_of_mem he)

theorem count_keys (h : key ∈ j.keys) : j.keys.count key = 1 := count_eq_one_of_mem j.nodup h

omit [DecidableEq κ] in
theorem mem_keys_of_prefix {j' : Journal κ ε} (h : j.entries <+: j'.entries) (hkey : key ∈ j.keys) : key ∈ j'.keys :=
  (h.map Prod.fst).subset hkey

end Journal

end Pluribus.Lib
