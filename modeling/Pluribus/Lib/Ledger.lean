import Mathlib.Data.List.Nodup
import Mathlib.Data.List.Range

namespace Pluribus.Lib.Ledger

open List

variable {α σ κ ι τ : Type} [DecidableEq σ]

/-- How entries of a shared log are read: the stream an entry belongs to and its position
there, an optional key unique in that stream, a global identifier, and the stream's kind. -/
structure View (α σ κ ι τ : Type) where
  stream : α → σ
  position : α → Nat
  key : α → Option κ
  id : α → ι
  kind : α → τ

variable (v : View α σ κ ι τ)

def ofStream (s : σ) (log : List α) : List α := log.filter (v.stream · = s)

/-- A log whose streams are numbered from one without gaps, with one entry per identifier
and at most one entry per stream and key, and one kind per stream. -/
structure WellFormed (log : List α) : Prop where
  numbered : ∀ s, (ofStream v s log).map v.position = List.range' 1 (ofStream v s log).length
  ids : (log.map v.id).Nodup
  keys : ∀ e ∈ log, ∀ f ∈ log, v.stream e = v.stream f → ∀ k, v.key e = some k → v.key f = some k → e = f
  kinds : ∀ e ∈ log, ∀ f ∈ log, v.stream e = v.stream f → v.kind e = v.kind f

variable {v}

@[simp]
theorem ofStream_nil (s : σ) : ofStream v s [] = [] := rfl

theorem ofStream_append (s : σ) (left right : List α) :
    ofStream v s (left ++ right) = ofStream v s left ++ ofStream v s right :=
  filter_append ..

theorem ofStream_self (e : α) : ofStream v (v.stream e) [e] = [e] := by
  simp [ofStream]

theorem ofStream_other {s : σ} {e : α} (h : v.stream e ≠ s) : ofStream v s [e] = [] := by
  simp [ofStream, h]

theorem mem_ofStream {s : σ} {log : List α} {e : α} :
    e ∈ ofStream v s log ↔ e ∈ log ∧ v.stream e = s := by
  simp [ofStream]

theorem WellFormed.nil : WellFormed v ([] : List α) :=
  ⟨fun _ => rfl, nodup_nil, fun _ he => absurd he not_mem_nil,
    fun _ he => absurd he not_mem_nil⟩

section Keyed

variable [DecidableEq κ]

variable (v) in
def findKey (s : σ) (k : κ) (log : List α) : Option α :=
  log.find? fun e => v.stream e = s ∧ v.key e = some k

variable (v) in
structure Fresh (log : List α) (e : α) : Prop where
  position : v.position e = (ofStream v (v.stream e) log).length + 1
  id : ∀ f ∈ log, v.id f ≠ v.id e
  key : ∀ k, v.key e = some k → findKey v (v.stream e) k log = none
  kind : ∀ f ∈ log, v.stream f = v.stream e → v.kind f = v.kind e

theorem findKey_some {s : σ} {k : κ} {log : List α} {e : α} (h : findKey v s k log = some e) :
    e ∈ log ∧ v.stream e = s ∧ v.key e = some k := by
  have hp := find?_some h
  exact ⟨mem_of_find?_eq_some h, by simpa using hp⟩

theorem findKey_none {s : σ} {k : κ} {log : List α} (h : findKey v s k log = none) {e : α}
    (he : e ∈ log) (hs : v.stream e = s) : v.key e ≠ some k := by
  intro hk
  have := find?_eq_none.mp h e he
  simp [hs, hk] at this

theorem findKey_append_of_some {s : σ} {k : κ} {log more : List α} {e : α}
    (h : findKey v s k log = some e) : findKey v s k (log ++ more) = some e := by
  unfold findKey at h ⊢
  rw [find?_append, h]
  rfl

theorem WellFormed.findKey_of_mem {log : List α} (h : WellFormed v log) {e : α} (he : e ∈ log)
    {k : κ} (hk : v.key e = some k) : findKey v (v.stream e) k log = some e := by
  cases hf : findKey v (v.stream e) k log with
  | none => exact absurd hk (findKey_none hf he rfl)
  | some f =>
    obtain ⟨hmem, hs, hkf⟩ := findKey_some hf
    rw [h.keys f hmem e he hs k hkf hk]

theorem WellFormed.snoc {log : List α} (h : WellFormed v log) {e : α} (he : Fresh v log e) :
    WellFormed v (log ++ [e]) := by
  refine ⟨fun s => ?_, ?_, ?_, ?_⟩
  · rw [ofStream_append]
    by_cases hs : v.stream e = s
    · subst hs
      rw [ofStream_self, map_append, h.numbered, length_append, length_singleton,
        range'_concat, map_singleton, he.position, Nat.one_mul, Nat.add_comm]
    · rw [ofStream_other hs, append_nil]
      exact h.numbered s
  · rw [map_append, map_singleton, nodup_append]
    refine ⟨h.ids, nodup_singleton _, ?_⟩
    intro a ha b hb
    obtain ⟨f, hf, rfl⟩ := mem_map.mp ha
    rw [mem_singleton.mp hb]
    exact he.id f hf
  · intro f hf g hg hs k hkf hkg
    rcases mem_append.mp hf with hf | hf <;> rcases mem_append.mp hg with hg | hg
    · exact h.keys f hf g hg hs k hkf hkg
    · cases mem_singleton.mp hg
      exact absurd hkf (findKey_none (he.key k hkg) hf hs)
    · cases mem_singleton.mp hf
      exact absurd hkg (findKey_none (he.key k hkf) hg hs.symm)
    · rw [mem_singleton.mp hf, mem_singleton.mp hg]
  · intro f hf g hg hs
    rcases mem_append.mp hf with hf | hf <;> rcases mem_append.mp hg with hg | hg
    · exact h.kinds f hf g hg hs
    · cases mem_singleton.mp hg
      exact he.kind f hf hs
    · cases mem_singleton.mp hf
      exact (he.kind g hg hs.symm).symm
    · rw [mem_singleton.mp hf, mem_singleton.mp hg]

end Keyed

end Pluribus.Lib.Ledger
