import Mathlib.Data.List.Induction
import Mathlib.Data.List.Nodup
import Pluribus.Lib.Map
import Pluribus.Lib.Numeral

namespace Pluribus.Providers

open Lib List

structure ToolDefinition where
  name : String

def MAX_PROVIDER_TOOL_NAME_BYTES : Nat := 64

def plain (c : Char) : Bool := c.isAlphanum || c = '_' || c = '-'

def stem (name : String) (maximum : Nat) : List Char :=
  let result := (name.toList.map fun c => if plain c then c else '_').take maximum
  if result.isEmpty then "tool".toList else result

def suffix (index : Nat) : String := "_t" ++ index.repr

def providerToolName (name : String) (index : Nat) : String :=
  String.ofList (stem name (MAX_PROVIDER_TOOL_NAME_BYTES - (suffix index).utf8ByteSize)) ++ suffix index

structure ToolNames where
  providerByOriginal : Map String String
  originalByProvider : Map String String

namespace ToolNames

def add (names : ToolNames) (tool : ToolDefinition × Nat) : ToolNames :=
  let provider := providerToolName tool.1.name tool.2
  ⟨names.providerByOriginal.insert tool.1.name provider, names.originalByProvider.insert provider tool.1.name⟩

def new (tools : List ToolDefinition) : ToolNames := tools.zipIdx.foldl add ⟨.empty, .empty⟩

def provider (names : ToolNames) (original : String) : String := (names.providerByOriginal.find original).getD original

def original (names : ToolNames) (provider : String) : String := (names.originalByProvider.find provider).getD provider

end ToolNames

theorem toList_providerToolName (name : String) (index : Nat) : (providerToolName name index).toList =
    stem name (MAX_PROVIDER_TOOL_NAME_BYTES - (suffix index).utf8ByteSize) ++ ['_'] ++ 't' :: index.repr.toList := by
  rw [providerToolName, String.toList_append, String.toList_ofList, append_assoc]
  conv_lhs => rw [suffix, String.toList_append]
  rfl

theorem providerToolName_index {name name' : String} {index index' : Nat}
    (h : providerToolName name index = providerToolName name' index') : index = index' := by
  have hdigits : ∀ n : Nat, 't' ∉ n.repr.toList := fun n hmem => absurd (isDigit_of_mem_repr hmem) (by decide)
  have hlist := congrArg String.toList h
  rw [toList_providerToolName, toList_providerToolName] at hlist
  have hcut := append_cons_right_inj (hdigits index) (hdigits index') hlist
  exact nat_repr_inj (String.toList_inj.mp hcut.2)

theorem length_le_utf8ByteSize (text : String) : text.length ≤ text.utf8ByteSize := by
  rw [← String.ofList_toList (s := text), String.utf8ByteSize_ofList, String.length_ofList]
  induction text.toList with
  | nil => rfl
  | cons c rest ih =>
    rw [length_cons, String.utf8Len]
    have hsize := c.utf8Size_pos
    omega

theorem stem_plain (name : String) (maximum : Nat) :
    ((stem name maximum).length ≤ maximum ∨ (stem name maximum).length = 4) ∧ ∀ c ∈ stem name maximum, plain c = true := by
  unfold stem
  generalize hresult : (name.toList.map fun c => if plain c then c else '_').take maximum = result
  dsimp only
  split
  · exact ⟨.inr rfl, List.all_eq_true.mp (by decide)⟩
  · refine ⟨.inl (hresult ▸ length_take_le _ _), fun c hc => ?_⟩
    rw [← hresult] at hc
    obtain ⟨d, -, rfl⟩ := mem_map.mp (mem_of_mem_take hc)
    split
    · assumption
    · rfl

theorem providerToolName_plain (name : String) {index : Nat} (h : index < 10 ^ 50) :
    (providerToolName name index).length ∈ Set.Icc 1 64 ∧ ∀ c ∈ (providerToolName name index).toList, plain c = true := by
  obtain ⟨hlength, hplain⟩ := stem_plain name (MAX_PROVIDER_TOOL_NAME_BYTES - (suffix index).utf8ByteSize)
  have hbytes := length_le_utf8ByteSize (suffix index)
  have hdigits := Nat.repr_length index 50 (by decide) h
  rw [← String.length_toList, toList_providerToolName]
  constructor
  · rw [suffix, String.length_append] at hbytes
    simp only [length_append, length_cons, length_nil, String.length_toList, MAX_PROVIDER_TOOL_NAME_BYTES, Set.mem_Icc]
      at hlength ⊢
    have hmark : "_t".length = 2 := rfl
    rw [suffix] at hlength ⊢
    omega
  · intro c hc
    rw [append_assoc, mem_append, cons_append, nil_append, mem_cons, mem_cons] at hc
    rcases hc with hc | rfl | rfl | hc
    · exact hplain c hc
    · rfl
    · rfl
    · simp [plain, Char.isAlphanum, isDigit_of_mem_repr hc]

/-- Every listed name has the provider name of one of its positions, and the provider name of every position leads back. -/
structure ToolNames.Kept (names : ToolNames) (tools : List ToolDefinition) : Prop where
  listed : ∀ tool ∈ tools, ∃ i, (tool, i) ∈ tools.zipIdx ∧
    names.providerByOriginal.find tool.name = some (providerToolName tool.name i)
  back : ∀ tool ∈ tools.zipIdx, names.originalByProvider.find (providerToolName tool.1.name tool.2) = some tool.1.name

theorem zipIdx_snoc (tools : List ToolDefinition) (tool : ToolDefinition) :
    (tools ++ [tool]).zipIdx = tools.zipIdx ++ [(tool, tools.length)] := by
  rw [zipIdx_append, Nat.zero_add, zipIdx_singleton]

theorem ToolNames.Kept.add {names : ToolNames} {tools : List ToolDefinition} (h : names.Kept tools)
    (tool : ToolDefinition) : (names.add (tool, tools.length)).Kept (tools ++ [tool]) := by
  rw [ToolNames.add]
  constructor
  · intro other hother
    rw [zipIdx_snoc, Map.find_insert]
    by_cases heq : tool.name = other.name
    · obtain rfl : tool = other := congrArg ToolDefinition.mk heq
      exact ⟨_, mem_append_right _ (mem_singleton_self _), if_pos rfl⟩
    · rcases mem_append.mp hother with hold | hnew
      · obtain ⟨i, hi, hfind⟩ := h.listed other hold
        exact ⟨i, mem_append_left _ hi, (if_neg heq).trans hfind⟩
      · exact absurd (mem_singleton.mp hnew ▸ rfl) heq
  · intro other hother
    rw [zipIdx_snoc] at hother
    rw [Map.find_insert]
    rcases mem_append.mp hother with hold | hnew
    · have hlt := snd_lt_of_mem_zipIdx hold
      exact (if_neg fun heq => absurd (providerToolName_index heq) (Nat.ne_of_gt hlt)).trans (h.back other hold)
    · rw [mem_singleton.mp hnew, if_pos rfl]

theorem kept_new (tools : List ToolDefinition) : (ToolNames.new tools).Kept tools := by
  induction tools using reverseRecOn with
  | nil => exact ⟨fun _ h => absurd h not_mem_nil, fun _ h => absurd h not_mem_nil⟩
  | append_singleton tools tool ih =>
    rw [ToolNames.new, zipIdx_snoc, foldl_append]
    exact ih.add tool

/-- Provider names are distinct and well formed; the one used for a listed name is that of a position of the name, and
leads back to it. -/
theorem tool_names_survive (tools : List ToolDefinition) :
    (tools.zipIdx.map fun tool => providerToolName tool.1.name tool.2).Nodup ∧
    (tools.length < 10 ^ 50 → ∀ tool ∈ tools.zipIdx, (providerToolName tool.1.name tool.2).length ∈ Set.Icc 1 64 ∧
      ∀ c ∈ (providerToolName tool.1.name tool.2).toList, plain c = true) ∧
    ∀ tool ∈ tools, (∃ i, (tool, i) ∈ tools.zipIdx ∧
      (ToolNames.new tools).provider tool.name = providerToolName tool.name i) ∧
      (ToolNames.new tools).original ((ToolNames.new tools).provider tool.name) = tool.name := by
  refine ⟨?_, fun hfew tool htool => ?_, fun tool htool => ?_⟩
  · have hpositions : (tools.zipIdx.map Prod.snd).Nodup := by
      rw [zipIdx_map_snd]
      exact nodup_range'
    exact pairwise_map.mpr ((pairwise_map.mp hpositions).imp fun hne heq => hne (providerToolName_index heq))
  · exact providerToolName_plain _ (Nat.lt_trans (snd_lt_of_mem_zipIdx htool) (by simpa using hfew))
  · obtain ⟨i, hi, hfind⟩ := (kept_new tools).listed tool htool
    rw [ToolNames.provider, hfind, Option.getD_some, ToolNames.original, (kept_new tools).back _ hi, Option.getD_some]
    exact ⟨⟨i, hi, rfl⟩, rfl⟩

end Pluribus.Providers
