import Mathlib.Data.List.Nodup
import Mathlib.Data.String.Basic
import Mathlib.Logic.Function.Basic
import Pluribus.Lib.Table

namespace Pluribus.Lib

open List Option Function

variable {κ ν : Type} [LinearOrder κ]

structure Map (κ ν : Type) [LinearOrder κ] where
  rows : Table κ ν
  sorted : rows.Pairwise fun row later => row.1 < later.1
deriving DecidableEq

theorem Table.mem_insert {key : κ} {value : ν} {row : κ × ν} {table : Table κ ν}
    (h : row ∈ table.insert key value) : row = (key, value) ∨ row ∈ table := by
  induction table with
  | nil => exact .inl (mem_singleton.mp h)
  | cons first rest ih =>
    unfold Table.insert at h
    split at h
    · exact (mem_cons.mp h).imp_right (mem_cons_of_mem _)
    split at h
    · exact mem_cons.mp h
    · rcases mem_cons.mp h with hfirst | hrest
      · exact .inr (hfirst ▸ mem_cons_self)
      · exact (ih hrest).imp_right (mem_cons_of_mem _)

theorem Table.insert_sorted {key : κ} {value : ν} {table : Table κ ν}
    (h : table.Pairwise fun row later => row.1 < later.1) :
    (table.insert key value).Pairwise fun row later => row.1 < later.1 := by
  induction table with
  | nil => exact pairwise_singleton _ _
  | cons first rest ih =>
    obtain ⟨hfirst, hrest⟩ := pairwise_cons.mp h
    unfold Table.insert
    split
    · rename_i heq
      exact pairwise_cons.mpr ⟨fun row hrow => heq ▸ hfirst row hrow, hrest⟩
    split
    · rename_i hlt
      refine pairwise_cons.mpr ⟨fun row hrow => ?_, h⟩
      rcases mem_cons.mp hrow with rfl | hin
      · exact hlt
      · exact hlt.trans (hfirst row hin)
    · rename_i hne hnlt
      refine pairwise_cons.mpr ⟨fun row hrow => ?_, ih hrest⟩
      rcases Table.mem_insert hrow with rfl | hin
      · exact lt_of_le_of_ne (not_lt.mp hnlt) (Ne.symm hne)
      · exact hfirst row hin

namespace Map

def empty : Map κ ν := ⟨[], .nil⟩

instance : Inhabited (Map κ ν) := ⟨empty⟩

variable (m : Map κ ν)

def find (key : κ) : Option ν := m.rows.find key

def contains (key : κ) : Bool := (m.find key).isSome

def keys : List κ := m.rows.map (·.1)

def values : List ν := m.rows.map (·.2)

def isEmpty : Bool := m.rows.isEmpty

def insert (key : κ) (value : ν) : Map κ ν := ⟨m.rows.insert key value, Table.insert_sorted m.sorted⟩

def retain (p : κ → ν → Bool) : Map κ ν := ⟨m.rows.filter fun row => p row.1 row.2, m.sorted.filter _⟩

def erase (key : κ) : Map κ ν := m.retain fun k _ => k ≠ key

def update (f : κ → ν → ν) : Map κ ν :=
  ⟨m.rows.map fun row => (row.1, f row.1 row.2), m.sorted.map _ fun _ _ h => h⟩

def modify (key : κ) (f : ν → ν) : Map κ ν := m.update fun k v => if k = key then f v else v

theorem keys_nodup : m.keys.Nodup :=
  pairwise_map.mpr (m.sorted.imp ne_of_lt)

variable {m}

theorem find_eq_some {key : κ} {value : ν} : m.find key = some value ↔ (key, value) ∈ m.rows := by
  obtain ⟨rows, hsorted⟩ := m
  change rows.find key = some value ↔ (key, value) ∈ rows
  induction rows with
  | nil => simp
  | cons first rest ih =>
    obtain ⟨k, v⟩ := first
    obtain ⟨hfirst, hrest⟩ := pairwise_cons.mp hsorted
    rw [Table.find_cons, mem_cons, ← ih hrest, Prod.mk.injEq]
    by_cases hk : k = key
    · subst hk
      have hnone : ¬ Table.find rest k = some value := by
        rw [ih hrest]
        exact fun hmem => absurd (hfirst _ hmem) (lt_irrefl k)
      simp [hnone, eq_comm]
    · simp [hk, Ne.symm hk]

theorem find_eq_none {key : κ} : m.find key = none ↔ ∀ value, (key, value) ∉ m.rows := by
  constructor
  · intro h value hmem
    rw [find_eq_some.mpr hmem] at h
    cases h
  · intro h
    cases hfind : m.find key with
    | none => rfl
    | some value => exact absurd (find_eq_some.mp hfind) (h value)

theorem contains_iff {key : κ} : m.contains key = true ↔ ∃ value, m.find key = some value := by
  unfold contains
  rw [isSome_iff_exists]

theorem mem_keys {key : κ} : key ∈ m.keys ↔ ∃ value, m.find key = some value := by
  simp [keys, find_eq_some]

theorem mem_values {value : ν} : value ∈ m.values ↔ ∃ key, m.find key = some value := by
  simp [values, find_eq_some]

theorem length_le_one (h : ∀ key key' value value', m.find key = some value → m.find key' = some value' → key = key') :
    m.rows.length ≤ 1 := by
  have hsorted := m.sorted
  match hrows : m.rows with
  | [] => simp
  | [_] => simp
  | (key, value) :: (key', value') :: rest =>
    have hfirst := m.find_eq_some.mpr (by simp [hrows] : (key, value) ∈ m.rows)
    have hsecond := m.find_eq_some.mpr (by simp [hrows] : (key', value') ∈ m.rows)
    rw [hrows] at hsorted
    have hless := (pairwise_cons.mp hsorted).1 (key', value') (by simp)
    exact absurd (h key key' value value' hfirst hsecond) (ne_of_lt hless)

theorem isEmpty_iff : m.isEmpty = true ↔ ∀ key, m.find key = none := by
  unfold isEmpty
  rw [List.isEmpty_iff]
  constructor
  · intro h key
    simp [find_eq_none, h]
  · intro h
    rcases hrows : m.rows with _ | ⟨⟨key, value⟩, rest⟩
    · rfl
    · have := find_eq_none.mp (h key) value
      simp [hrows] at this

@[simp]
theorem find_empty (key : κ) : (empty : Map κ ν).find key = none := rfl

variable (m)

theorem find_insert (key k : κ) (value : ν) :
    (m.insert key value).find k = if key = k then some value else m.find k :=
  Table.find_insert key k value m.rows

theorem find_insert_self (key : κ) (value : ν) : (m.insert key value).find key = some value := by
  rw [find_insert, if_pos rfl]

theorem insert_self {key : κ} {value : ν} (h : m.find key = some value) : m.insert key value = m := by
  obtain ⟨rows, hsorted⟩ := m
  have hrows : rows.insert key value = rows := by
    change rows.find key = some value at h
    induction rows with
    | nil => cases h
    | cons first rest ih =>
      obtain ⟨k, v⟩ := first
      obtain ⟨hfirst, hrest⟩ := pairwise_cons.mp hsorted
      rw [Table.find_cons] at h
      by_cases hk : k = key
      · simp only [hk, if_true, some.injEq] at h
        simp [Table.insert, hk, h]
      · rw [if_neg hk] at h
        have hless : k < key := hfirst (key, value) ((find_eq_some (m := ⟨rest, hrest⟩)).mp h)
        simp [Table.insert, Ne.symm hk, not_lt_of_gt hless, ih hrest h]
  unfold insert
  congr 1

theorem find_retain (p : κ → ν → Bool) (key : κ) : (m.retain p).find key = (m.find key).filter (p key) := by
  ext value
  rw [filter_eq_some_iff, find_eq_some, find_eq_some]
  exact mem_filter

theorem ext_find {m' : Map κ ν} (h : ∀ key, m.find key = m'.find key) : m = m' := by
  have hmem : ∀ row, row ∈ m.rows ↔ row ∈ m'.rows := fun row => by
    rw [← Prod.mk.eta (p := row), ← find_eq_some, ← find_eq_some, h]
  have hnodup : ∀ m : Map κ ν, m.rows.Nodup := fun m => m.sorted.imp fun hlt heq => absurd (heq ▸ hlt) (lt_irrefl _)
  have hrows : m.rows = m'.rows :=
    ((perm_ext_iff_of_nodup (hnodup m) (hnodup m')).mpr hmem).eq_of_pairwise
      (fun _ _ _ _ hlt hgt => absurd hgt (lt_asymm hlt)) m.sorted m'.sorted
  obtain ⟨rows', hsorted'⟩ := m'
  cases hrows
  rfl

theorem values_retain (p : ν → Bool) : (m.retain fun _ => p).values = m.values.filter p := by
  simp only [retain, values, List.filter_map]
  rfl

theorem find_erase (key k : κ) : (m.erase key).find k = if k = key then none else m.find k := by
  unfold erase
  rw [find_retain]
  by_cases h : k = key <;> cases m.find k <;> simp [h]

theorem find_update (f : κ → ν → ν) (key : κ) : (m.update f).find key = (m.find key).map (f key) := by
  ext value
  rw [map_eq_some_iff, find_eq_some]
  simp only [update, List.mem_map, Prod.mk.injEq, find_eq_some]
  constructor
  · rintro ⟨⟨k, v⟩, hmem, rfl, rfl⟩
    exact ⟨v, hmem, rfl⟩
  · rintro ⟨v, hmem, rfl⟩
    exact ⟨(key, v), hmem, rfl, rfl⟩

theorem find_modify (key k : κ) (f : ν → ν) :
    (m.modify key f).find k = if k = key then (m.find k).map f else m.find k := by
  unfold modify
  rw [find_update]
  by_cases h : k = key <;> simp [h]

theorem find_insert_update (key : κ) (value : ν) : (m.insert key value).find = Function.update m.find key (some value) := by
  funext k
  rw [find_insert, update_apply]
  simp only [eq_comm]

theorem find_erase_update (key : κ) : (m.erase key).find = Function.update m.find key none := by
  funext k
  rw [find_erase, update_apply]

section Through

variable {β : Type} (f : ν → β)

def through (key : κ) : Option β := (m.find key).map f

variable {m f}

theorem through_eq_some {key : κ} {value : ν} (h : m.find key = some value) : m.through f key = some (f value) := by
  rw [through, h, map_some]

theorem of_through {key : κ} {b : β} (h : m.through f key = some b) : ∃ value, m.find key = some value ∧ f value = b :=
  map_eq_some_iff.mp h

theorem through_eq_none {key : κ} : m.through f key = none ↔ m.find key = none := map_eq_none_iff

variable (m f)

theorem through_insert (key : κ) (value : ν) :
    (m.insert key value).through f = Function.update (m.through f) key (some (f value)) := by
  funext k
  rw [through, find_insert, update_apply]
  by_cases h : key = k
  · simp [h]
  · simp [h, Ne.symm h, through]

theorem through_erase (key : κ) : (m.erase key).through f = Function.update (m.through f) key none := by
  funext k
  rw [through, find_erase, update_apply]
  by_cases h : k = key <;> simp [h, through]

theorem through_update {g : κ → ν → ν} (g' : κ → β → β) (h : ∀ key value, f (g key value) = g' key (f value)) :
    (m.update g).through f = fun key => (m.through f key).map (g' key) := by
  funext key
  rw [through, find_update, through, Option.map_map, Option.map_map]
  exact congrArg (Option.map · _) (funext fun value => h key value)

theorem through_update_same {g : κ → ν → ν} (h : ∀ key value, f (g key value) = f value) :
    (m.update g).through f = m.through f := by
  rw [m.through_update f (fun _ => id) h]
  simp

theorem through_modify {g : ν → ν} (g' : β → β) (key : κ) (h : ∀ value, f (g value) = g' (f value)) :
    (m.modify key g).through f = Function.update (m.through f) key ((m.through f key).map g') := by
  funext k
  rw [through, find_modify, update_apply]
  by_cases hk : k = key
  · subst hk
    simp only [if_true, through, Option.map_map]
    exact congrArg (Option.map · _) (funext h)
  · simp [hk, through]

theorem through_modify_same {g : ν → ν} (key : κ) (h : ∀ value, f (g value) = f value) :
    (m.modify key g).through f = m.through f := by
  rw [m.through_modify f id key h]
  simp

theorem through_retain {p : κ → ν → Bool} (p' : κ → β → Bool) (h : ∀ key value, p key value = p' key (f value)) :
    (m.retain p).through f = fun key => (m.through f key).filter (p' key) := by
  funext key
  rw [through, find_retain, through]
  cases m.find key with
  | none => rfl
  | some value => simp only [map_some, filter_some, h]; split <;> rfl

end Through

end Map

end Pluribus.Lib
