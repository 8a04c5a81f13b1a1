import Pluribus.Lib.Map
import Pluribus.Runtime.Commit
import Pluribus.Runtime.Imports

namespace Pluribus.Runtime

open Lib Pluribus.Core Storage List

section References

variable {key : String} {value : Json} {fields : List (String × Json)} {blob : BlobRef}

/-- A reference to the blob stands somewhere in the value. -/
inductive Occurs (blob : BlobRef) : Json → Prop
  | here {fields : List (String × Json)} (h : blobRefFrom fields = some blob) : Occurs blob (.object fields)
  | field {fields : List (String × Json)} {field : String × Json} (hmem : field ∈ fields) (h : Occurs blob field.2) :
      Occurs blob (.object fields)
  | item {items : List Json} {item : Json} (hmem : item ∈ items) (h : Occurs blob item) : Occurs blob (.array items)

theorem mem_collectFields : blob ∈ collectFields fields ↔ ∃ field ∈ fields, blob ∈ collectBlobRefs field.2 := by
  induction fields with
  | nil => simp [collectFields]
  | cons field rest ih => simp [collectFields, ih]

theorem mem_collectItems {items : List Json} : blob ∈ collectItems items ↔ ∃ item ∈ items, blob ∈ collectBlobRefs item := by
  induction items with
  | nil => simp [collectItems]
  | cons item rest ih => simp [collectItems, ih]

theorem occurs_of_mem (value : Json) (h : blob ∈ collectBlobRefs value) : Occurs blob value := by
  match value with
  | .object fields =>
    rcases mem_append.mp h with h | h
    · exact .here (by simpa using h)
    · obtain ⟨⟨key, inner⟩, hmem, h⟩ := mem_collectFields.mp h
      exact .field hmem (occurs_of_mem inner h)
  | .array items =>
    obtain ⟨item, hmem, h⟩ := mem_collectItems.mp h
    exact .item hmem (occurs_of_mem item h)
termination_by sizeOf value
decreasing_by
  all_goals
    have hless := sizeOf_lt_of_mem hmem
    simp only [Prod.mk.sizeOf_spec, Json.object.sizeOf_spec, Json.array.sizeOf_spec] at hless ⊢
    omega

theorem mem_collectBlobRefs : blob ∈ collectBlobRefs value ↔ Occurs blob value := by
  refine ⟨occurs_of_mem value, fun h => ?_⟩
  induction h with
  | here h => exact mem_append_left _ (by simpa using h)
  | field hmem _ ih => exact mem_append_right _ (mem_collectFields.mpr ⟨_, hmem, ih⟩)
  | item hmem _ ih => exact mem_collectItems.mpr ⟨_, hmem, ih⟩

theorem mem_collectFields_insert (h : blob ∈ collectFields (Table.insert key value fields)) :
    blob ∈ collectBlobRefs value ∨ blob ∈ collectFields fields := by
  obtain ⟨row, hrow, h⟩ := mem_collectFields.mp h
  rcases Table.mem_insert hrow with rfl | hrow
  · exact .inl h
  · exact .inr (mem_collectFields.mpr ⟨row, hrow, h⟩)

theorem mem_collectFields_find (hfind : Table.find fields key = some value) (h : blob ∈ collectBlobRefs value) :
    blob ∈ collectFields fields := by
  obtain ⟨row, hrow, rfl⟩ := Option.map_eq_some_iff.mp hfind
  exact mem_collectFields.mpr ⟨row, mem_of_find?_eq_some hrow, h⟩

def referenceFields : List String := ["algorithm", "digest", "size", "media_type", "media-type", "mediaType"]

theorem blobRefFrom_insert (hkey : key ∉ referenceFields) (value : Json) (fields : List (String × Json)) :
    blobRefFrom (Table.insert key value fields) = blobRefFrom fields := by
  simp only [referenceFields, mem_cons, not_mem_nil, or_false, not_or] at hkey
  obtain ⟨h₁, h₂, h₃, h₄, h₅, h₆⟩ := hkey
  simp only [blobRefFrom, Table.find_insert, h₁, h₂, h₃, h₄, h₅, h₆, if_false]

/-- A field that is no part of a reference adds the references of its value and no others. -/
theorem mem_collectBlobRefs_insert (hkey : key ∉ referenceFields)
    (h : blob ∈ collectBlobRefs (.object (Table.insert key value fields))) :
    blob ∈ collectBlobRefs value ∨ blob ∈ collectBlobRefs (.object fields) := by
  simp only [collectBlobRefs, mem_append, blobRefFrom_insert hkey] at h ⊢
  rcases h with hself | hfields
  · exact .inr (.inl hself)
  · exact (mem_collectFields_insert hfields).imp id .inr

theorem mem_collect_pair {key' : String} (hkey : key ∉ referenceFields) (hkey' : key' ∉ referenceFields) {value' : Json}
    (h : blob ∈ collectBlobRefs (Json.ofFields [(key, value), (key', value')])) :
    blob ∈ collectBlobRefs value ∨ blob ∈ collectBlobRefs value' := by
  rcases mem_collectBlobRefs_insert hkey' h with hsecond | hrest
  · exact .inr hsecond
  · rcases mem_collectBlobRefs_insert hkey hrest with hfirst | hnone
    · exact .inl hfirst
    · cases hnone

theorem collect_identityContent (identity : String) : collectBlobRefs (identityContent identity) = [] := by
  refine eq_nil_iff_forall_not_mem.mpr fun blob h => ?_
  rcases mem_collect_pair (by decide) (by decide) h with hkind | htext
  · cases hkind
  · cases htext

theorem collect_systemMessage (identity : String) : collectBlobRefs (instruct.systemMessage identity) = [] := by
  refine eq_nil_iff_forall_not_mem.mpr fun blob h => ?_
  rcases mem_collect_pair (by decide) (by decide) h with hrole | hcontent
  · cases hrole
  · simp [collectBlobRefs, collectItems, collect_identityContent] at hcontent

theorem instruct_refs {identity : String} {messages messages' : List Json}
    (h : instruct identity messages = .ok messages') (hblob : blob ∈ collectItems messages') :
    blob ∈ collectItems messages := by
  have hfresh : ∀ {others : List Json}, blob ∈ collectItems (instruct.systemMessage identity :: others) →
      blob ∈ collectItems others := by
    simp [collectItems, collect_systemMessage]
  unfold instruct at h
  split at h
  · rename_i fields rest
    split at h
    · split at h
      · rename_i items hcontent
        cases h
        simp only [collectItems, mem_append] at hblob ⊢
        refine hblob.imp (fun hmessage => ?_) id
        rcases mem_collectBlobRefs_insert (by decide) hmessage with hitems | hold
        · have hitem : blob ∈ collectBlobRefs (.array items) := by
            simpa [collectBlobRefs, collectItems, collect_identityContent] using hitems
          exact mem_append_right _ (mem_collectFields_find hcontent hitem)
        · exact hold
      · cases h
    · cases h
      exact hfresh hblob
  · cases h
    exact hfresh hblob

namespace HostState

variable {host : HostState}

variable {blob : BlobRef}

theorem chooseModel_refs {object object' : List (String × Json)} (h : host.chooseModel object = .ok object')
    (hblob : blob ∈ collectBlobRefs (.object object')) : blob ∈ collectBlobRefs (.object object) := by
  unfold chooseModel at h
  split at h
  · cases h
    exact hblob
  · split at h
    · cases h
      rcases mem_collectBlobRefs_insert (by decide) hblob with hmodel | hold
      · cases hmodel
      · exact hold
    · cases h

theorem addIdentity_refs {object object' : List (String × Json)} (h : host.addIdentity object = .ok object')
    (hblob : blob ∈ collectBlobRefs (.object object')) : blob ∈ collectBlobRefs (.object object) := by
  unfold addIdentity at h
  split at h
  · cases h
    exact hblob
  split at h
  · rename_i messages hmessages
    obtain ⟨messages', hinstruct, h₁⟩ := except_bind_ok.mp h
    cases h₁
    rcases mem_collectBlobRefs_insert (by decide) hblob with hnew | hold
    · rw [collectBlobRefs] at hnew
      have hitem : blob ∈ collectBlobRefs (.array messages) := by
        exact instruct_refs hinstruct hnew
      exact mem_append_right _ (mem_collectFields_find hmessages hitem)
    · exact hold
  · cases h

theorem completePayload_refs {eventType : String} {payload payload' : EventPayload}
    (h : host.completePayload eventType payload = .ok payload') (hblob : blob ∈ payloadBlobs payload') :
    blob ∈ payloadBlobs payload := by
  unfold completePayload at h
  split at h
  · rename_i value
    split at h
    · obtain ⟨value', hvalue, h₁⟩ := except_bind_ok.mp h
      cases h₁
      unfold completeModelRequest at hvalue
      split at hvalue
      · obtain ⟨chosen, hchosen, h₂⟩ := except_bind_ok.mp hvalue
        obtain ⟨added, hadded, h₃⟩ := except_bind_ok.mp h₂
        cases h₃
        exact chooseModel_refs hchosen (addIdentity_refs hadded hblob)
      · cases hvalue
    · cases h
      exact hblob
  · cases h
    exact hblob

end HostState

theorem authorizeBlobReferences_ok {payload : EventPayload} {visible : List BlobRef}
    (h : authorizeBlobReferences payload visible = .ok ()) (hblob : blob ∈ payloadBlobs payload)
    (hvalid : isValid blob = true) : ∃ shown ∈ visible, sameBlobContent blob shown = true := by
  unfold authorizeBlobReferences at h
  split at h
  · cases h
  split at h
  · cases h
  · rename_i hany
    by_contra hnone
    refine hany (any_eq_true.mpr ⟨blob, mem_filter.mpr ⟨hblob, hvalid⟩, ?_⟩)
    simpa using hnone

theorem HostState.appendRequest_refs {host : HostState} {proposal : Proposal} {cause : Option EventId}
    {key : Option String} {request : AppendRequest} (h : host.appendRequest proposal cause key = .ok request)
    (hblob : blob ∈ payloadBlobs request.payload) (hvalid : isValid blob = true) :
    ∃ shown ∈ host.visibleBlobs, sameBlobContent blob shown = true := by
  have hstamped := host.appendRequest_ok h
  exact authorizeBlobReferences_ok hstamped.blobs (HostState.completePayload_refs hstamped.payload hblob) hvalid

end References

end Pluribus.Runtime
