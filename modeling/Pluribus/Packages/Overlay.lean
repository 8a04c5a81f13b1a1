import Pluribus.Lib.Json
import Pluribus.Lib.Map

namespace Pluribus.Packages

open Lib List

mutual

/-- Recursively overlays operator settings on package defaults. -/
def mergeConfig : Json → Json → Json
  | .object base, .object patch => .object (mergeFields base patch)
  | _, overrides => overrides

def mergeFields (base : List (String × Json)) : List (String × Json) → List (String × Json)
  | [] => base
  | (key, value) :: rest =>
    mergeFields (Table.insert key (match Table.find base key with
      | some existing => mergeConfig existing value
      | none => value) base) rest

end

/-- The order of the keys of an object, and of the objects in its fields. -/
inductive Ordered : Json → Prop where
  | leaf {value : Json} (h : value.isObject = false) : Ordered value
  | object (fields : Map String Json) (h : ∀ key value, fields.find key = some value → Ordered value) :
    Ordered (.object fields.rows)

def Json.at (value : Json) : List String → Option Json
  | [] => some value
  | key :: path => (value.get key).bind (Json.at · path)

theorem at_object (fields : Map String Json) (key : String) (path : List String) :
    Json.at (.object fields.rows) (key :: path) = (fields.find key).bind (Json.at · path) := rfl

def overlay : Option Json → Option Json → Option Json
  | old, none => old
  | none, some value => some value
  | some existing, some value => some (mergeConfig existing value)

variable {defaults overrides leaf : Json} {path : List String}

theorem mergeConfig_leaf (h : defaults.isObject = false ∨ overrides.isObject = false) :
    mergeConfig defaults overrides = overrides := by
  cases defaults <;> cases overrides <;> simp_all [mergeConfig, Json.isObject]

theorem mergeConfig_object (base patch : Map String Json) : ∃ merged : Map String Json,
    mergeConfig (.object base.rows) (.object patch.rows) = .object merged.rows ∧
      ∀ key, merged.find key = overlay (base.find key) (patch.find key) := by
  obtain ⟨patch, hpatch⟩ := patch
  rw [mergeConfig]
  induction patch generalizing base with
  | nil => exact ⟨base, rfl, fun key => rfl⟩
  | cons field rest ih =>
    obtain ⟨name, value⟩ := field
    obtain ⟨hfirst, hrest⟩ := pairwise_cons.mp hpatch
    rw [mergeFields]
    obtain ⟨merged, hmerged, hfind⟩ := ih (base.insert name _) hrest
    refine ⟨merged, hmerged, fun key => ?_⟩
    rw [hfind, Map.find_insert]
    change overlay _ (Table.find rest key) = overlay _ (Table.find ((name, value) :: rest) key)
    rw [Table.find_cons]
    by_cases hkey : name = key
    · subst hkey
      have hlast : Table.find rest name = none := Table.find_of_not_mem fun hmem => by
        obtain ⟨row, hrow, heq⟩ := mem_map.mp hmem
        exact lt_irrefl name (heq ▸ hfirst row hrow)
      rw [if_pos rfl, if_pos rfl, hlast, Map.find]
      cases Table.find base.rows name <;> rfl
    · rw [if_neg hkey, if_neg hkey]

theorem mergeConfig_self {value : Json} (h : Ordered value) : mergeConfig value value = value := by
  induction h with
  | leaf h => exact mergeConfig_leaf (.inl h)
  | object fields hfields ih =>
    obtain ⟨merged, hmerged, hfind⟩ := mergeConfig_object fields fields
    suffices merged = fields by rw [hmerged, this]
    refine Map.ext_find merged fun key => ?_
    rw [hfind]
    cases hvalue : fields.find key with
    | none => rfl
    | some value => exact congrArg some (ih key value hvalue)

theorem at_mergeConfig (hd : Ordered defaults) (ho : Ordered overrides) (h : Json.at overrides path = some leaf)
    (hleaf : leaf.isObject = false) :
    Json.at (mergeConfig defaults overrides) path = some leaf := by
  induction path generalizing defaults overrides with
  | nil =>
    cases h
    rw [mergeConfig_leaf (.inr hleaf)]
    rfl
  | cons key path ih =>
    cases hd with
    | leaf hd => rwa [mergeConfig_leaf (.inl hd)]
    | object base hbase =>
      cases ho with
      | leaf ho => rwa [mergeConfig_leaf (.inr ho)]
      | object patch hpatch =>
        obtain ⟨merged, hmerged, hfind⟩ := mergeConfig_object base patch
        obtain ⟨value, hnew, hrest⟩ := Option.bind_eq_some_iff.mp (at_object patch key path ▸ h)
        rw [hmerged, at_object, hfind, hnew]
        cases hold : base.find key with
        | none => exact hrest
        | some old => exact ih (hbase key old hold) (hpatch key value hnew) hrest

def Leaf (value : Json) : Prop := value.isObject = false ∨ value = .object []

theorem exists_leaf {value : Json} (h : Ordered value) : ∃ path leaf, Json.at value path = some leaf ∧ Leaf leaf := by
  induction h with
  | leaf h => exact ⟨[], _, rfl, .inl h⟩
  | object fields hfields ih =>
    obtain ⟨rows, hsorted⟩ := fields
    cases rows with
    | nil => exact ⟨[], _, rfl, .inr rfl⟩
    | cons field rest =>
      have hfind : Table.find (field :: rest) field.1 = some field.2 := by simp [Table.find]
      obtain ⟨path, leaf, hpath, hleaf⟩ := ih field.1 field.2 hfind
      exact ⟨field.1 :: path, leaf, by rw [Json.at, Json.get, hfind]; exact hpath, hleaf⟩

theorem at_mergeConfig_kept (hd : Ordered defaults) (ho : Ordered overrides) (h : Json.at defaults path = some leaf)
    (hapart : ∀ other value, Json.at overrides other = some value → Leaf value → ¬ other <+: path ∧ ¬ path <+: other) :
    Json.at (mergeConfig defaults overrides) path = some leaf := by
  induction path generalizing defaults overrides with
  | nil =>
    obtain ⟨other, value, hother, hvalue⟩ := exists_leaf ho
    exact absurd nil_prefix (hapart other value hother hvalue).2
  | cons key path ih =>
    cases hd with
    | leaf hd => cases defaults <;> first | exact absurd h (Option.some_ne_none _).symm | cases hd
    | object base hbase =>
      cases ho with
      | leaf ho => exact absurd nil_prefix (hapart [] _ rfl (.inl ho)).1
      | object patch hpatch =>
        obtain ⟨merged, hmerged, hfind⟩ := mergeConfig_object base patch
        obtain ⟨old, hold, hrest⟩ := Option.bind_eq_some_iff.mp (at_object base key path ▸ h)
        rw [hmerged, at_object, hfind, hold]
        cases hnew : patch.find key with
        | none => exact hrest
        | some value =>
          refine ih (hbase key old hold) (hpatch key value hnew) hrest fun other leaf hother hleaf => ?_
          have hne := hapart (key :: other) leaf (by rwa [at_object, hnew]) hleaf
          rwa [prefix_cons_inj, prefix_cons_inj] at hne

theorem mergeConfig_assoc {first second : Json} (hd : Ordered defaults) (hfirst : Ordered first)
    (hsecond : Ordered second) (hobject : first.isObject = second.isObject)
    (hagree : ∀ path x y, Json.at first path = some x → Json.at second path = some y → x.isObject = y.isObject) :
    mergeConfig (mergeConfig defaults first) second = mergeConfig defaults (mergeConfig first second) := by
  induction hsecond generalizing defaults first with
  | leaf h => rw [mergeConfig_leaf (.inr h), mergeConfig_leaf (.inr h), mergeConfig_leaf (.inr h)]
  | object patch hpatch ih =>
    cases hfirst with
    | leaf h => rw [h] at hobject; cases hobject
    | object fields hfields =>
      cases hd with
      | leaf h => rw [mergeConfig_leaf (.inl h), mergeConfig_leaf (.inl h)]
      | object base hbase =>
        obtain ⟨once, honce, hfind₁⟩ := mergeConfig_object base fields
        obtain ⟨twice, htwice, hfind₂⟩ := mergeConfig_object once patch
        obtain ⟨both, hboth, hfind₃⟩ := mergeConfig_object fields patch
        obtain ⟨whole, hwhole, hfind₄⟩ := mergeConfig_object base both
        suffices twice = whole by rw [honce, htwice, hboth, hwhole, this]
        refine Map.ext_find twice fun key => ?_
        rw [hfind₂, hfind₁, hfind₄, hfind₃]
        cases hx : fields.find key with
        | none => cases patch.find key <;> rfl
        | some x =>
        cases hy : patch.find key with
        | none => cases base.find key <;> rfl
        | some y =>
        cases hold : base.find key with
        | none => rfl
        | some old =>
          refine congrArg some (ih key y hy (hbase key old hold) (hfields key x hx) ?_ ?_)
          · exact hagree [key] x y (by rw [at_object, hx]; rfl) (by rw [at_object, hy]; rfl)
          · intro path x' y' hx' hy'
            exact hagree (key :: path) x' y' (by rwa [at_object, hx]) (by rwa [at_object, hy])

/-- The laws of overlaying, over all JSON values. -/
theorem overlay_lawful :
    (∀ defaults overrides, Ordered defaults → Ordered overrides →
      mergeConfig (mergeConfig defaults overrides) overrides = mergeConfig defaults overrides) ∧
    (∀ fields, mergeConfig (.object fields) (.object []) = .object fields) ∧
    (∀ defaults overrides path leaf, Ordered defaults → Ordered overrides → Json.at overrides path = some leaf →
      leaf.isObject = false → Json.at (mergeConfig defaults overrides) path = some leaf) ∧
    (∀ defaults overrides path leaf, Ordered defaults → Ordered overrides → Json.at defaults path = some leaf →
      Leaf leaf → (∀ other value, Json.at overrides other = some value → Leaf value → ¬ other <+: path ∧ ¬ path <+: other) →
      Json.at (mergeConfig defaults overrides) path = some leaf) ∧
    ∀ defaults a b, Ordered defaults → Ordered a → Ordered b → a.isObject = true → b.isObject = true →
      (∀ path x y, Json.at a path = some x → Json.at b path = some y → x.isObject = y.isObject) →
      mergeConfig (mergeConfig defaults a) b = mergeConfig defaults (mergeConfig a b) := by
  refine ⟨fun defaults overrides hd ho => ?_, fun fields => rfl, fun _ _ _ _ => at_mergeConfig,
    fun _ _ _ _ hd ho h _ => at_mergeConfig_kept hd ho h, fun _ _ _ hd ha hb hobject hobject' => ?_⟩
  · rw [mergeConfig_assoc hd ho ho rfl fun path x y hx hy => ?_, mergeConfig_self ho]
    rw [Option.some.inj (hx.symm.trans hy)]
  · exact mergeConfig_assoc hd ha hb (hobject.trans hobject'.symm)

end Pluribus.Packages
