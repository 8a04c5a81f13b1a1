import Mathlib.Data.List.Basic

namespace Pluribus.Lib

variable {κ ν : Type} [DecidableEq κ]

abbrev Table (κ ν : Type) := List (κ × ν)

namespace Table

def find (table : Table κ ν) (key : κ) : Option ν :=
  (table.find? (·.1 = key)).map (·.2)

def insertOrIgnore (key : κ) (value : ν) (table : Table κ ν) : Table κ ν :=
  if (table.find key).isSome then table else table ++ [(key, value)]

def update (key : κ) (f : ν → ν) (table : Table κ ν) : Table κ ν :=
  table.map fun row => if row.1 = key then (row.1, f row.2) else row

def upsert (key : κ) (value : ν) (table : Table κ ν) : Table κ ν :=
  (table.insertOrIgnore key value).update key fun _ => value

def deleteWhere (p : κ → Bool) (table : Table κ ν) : Table κ ν :=
  table.filter fun row => !p row.1

/-- Insertion into a table kept in the order of its keys; a row of the key is replaced. -/
def insert [LT κ] [DecidableLT κ] (key : κ) (value : ν) : Table κ ν → Table κ ν
  | [] => [(key, value)]
  | (k, v) :: rest =>
    if key = k then (key, value) :: rest
    else if key < k then (key, value) :: (k, v) :: rest
    else (k, v) :: insert key value rest

def contains (key : κ) (table : Table κ ν) : Bool := (table.find key).isSome

def erase (key : κ) (table : Table κ ν) : Table κ ν := table.deleteWhere (· = key)

def keys (table : Table κ ν) : List κ := table.map (·.1)

@[simp]
theorem find_nil (key : κ) : find ([] : Table κ ν) key = none := rfl

theorem find_cons (k key : κ) (v : ν) (table : Table κ ν) :
    find ((k, v) :: table) key = if k = key then some v else find table key := by
  by_cases h : k = key <;> simp [find, h]

theorem find_append (left right : Table κ ν) (key : κ) :
    find (left ++ right) key = (find left key).or (find right key) := by
  simp [find, Option.map_or]

theorem find_of_not_mem {key : κ} {table : Table κ ν} (h : key ∉ table.keys) : table.find key = none := by
  rw [find, Option.map_eq_none_iff, List.find?_eq_none]
  rintro row hrow heq
  exact h (List.mem_map.mpr ⟨row, hrow, of_decide_eq_true heq⟩)

theorem find_of_mem {row : κ × ν} {table : Table κ ν} (hkeys : table.keys.Nodup) (h : row ∈ table) :
    table.find row.1 = some row.2 := by
  induction table with
  | nil => cases h
  | cons first rest ih =>
    obtain ⟨hfirst, hkeys⟩ := List.nodup_cons.mp hkeys
    rw [find_cons]
    cases h with
    | head => exact if_pos rfl
    | tail _ h => rw [if_neg fun heq => hfirst (List.mem_map.mpr ⟨row, h, heq.symm⟩), ih hkeys h]

theorem find_insertOrIgnore (k key : κ) (v : ν) (table : Table κ ν) :
    (table.insertOrIgnore k v).find key =
      if k = key then some ((table.find key).getD v) else table.find key := by
  unfold insertOrIgnore
  by_cases h : k = key
  · subst h
    cases hf : table.find k <;> simp [hf, find_append, find_cons]
  · split <;> simp [h, find_append, find_cons]

theorem find_update (k key : κ) (f : ν → ν) (table : Table κ ν) :
    (table.update k f).find key = if k = key then (table.find key).map f else table.find key := by
  induction table with
  | nil => simp [update]
  | cons row rest ih =>
    obtain ⟨k', v⟩ := row
    have hcons : update k f ((k', v) :: rest) =
        (if k' = k then (k', f v) else (k', v)) :: update k f rest := rfl
    rw [hcons, find_cons]
    by_cases h : k' = k
    · subst h
      by_cases hk : k' = key <;> simp [find_cons, hk, ih]
    · by_cases hk : k' = key
      · subst hk
        simp [find_cons, h, Ne.symm h]
      · simp [find_cons, h, hk, ih]

theorem find_upsert (k key : κ) (v : ν) (table : Table κ ν) :
    (table.upsert k v).find key = if k = key then some v else table.find key := by
  rw [upsert, find_update, find_insertOrIgnore]
  by_cases h : k = key <;> simp [h]

theorem find_insert [LT κ] [DecidableLT κ] (k key : κ) (v : ν) (table : Table κ ν) :
    (table.insert k v).find key = if k = key then some v else table.find key := by
  induction table with
  | nil => rw [insert, find_cons]
  | cons row rest ih =>
    obtain ⟨k', v'⟩ := row
    unfold insert
    by_cases hk : k = k'
    · subst hk
      by_cases h : k = key <;> simp [find_cons, h]
    · by_cases hlt : k < k'
      · simp only [hk, hlt, if_true, if_false, find_cons]
      · simp only [hk, hlt, if_false, find_cons, ih]
        by_cases h : k = key
        · subst h
          simp [Ne.symm hk]
        · simp [h]

theorem find_deleteWhere (p : κ → Bool) (key : κ) (table : Table κ ν) :
    (table.deleteWhere p).find key = if p key then none else table.find key := by
  induction table with
  | nil => simp [deleteWhere]
  | cons row rest ih =>
    obtain ⟨k, v⟩ := row
    unfold deleteWhere at ih ⊢
    by_cases hp : p k
    · by_cases hk : k = key
      · subst hk
        simpa [hp] using ih
      · simpa [hp, find_cons, hk] using ih
    · by_cases hk : k = key
      · subst hk
        simp [hp, find_cons]
      · simpa [hp, find_cons, hk] using ih

end Table

end Pluribus.Lib
