import Pluribus.Rlm.Engine

namespace Pluribus.Rlm

open Lib List Option

/-- The calls open in the messages after the first two. -/
def History.calls (history : History) : Option (List String) := openCalls (history.rest.map Message.toJson)

/-- A message without calls or results may only stand where no call is open. -/
def plainNote (pending : List String) : Option (List String) := if pending = [] then some [] else none

def answerCall (id : Json) (pending : List String) : Option (List String) :=
  match id.asStr with
  | some id => if id ∈ pending then some (pending.erase id) else none
  | none => none

@[simp]
theorem speech_role (role : String) (content : List Json) : (speech role content).index "role" = .string role := by
  simp [speech, Json.index, Json.get, Table.find]

@[simp]
theorem speech_content (role : String) (content : List Json) : contentItems (speech role content) = content := by
  simp [contentItems, speech, Json.index, Json.get, Table.find]

@[simp]
theorem textPart_kind (text : String) : (textPart text).index "kind" = .string "text" := by
  simp [textPart, Json.index, Json.get, Table.find]

@[simp]
theorem imagePart_kind (blob : BlobRef) : blob.imagePart.index "kind" = .string "image" := by
  simp [BlobRef.imagePart, Json.index, Json.get, Table.find]

theorem toolItem_plain {role item : Json} {pending : List String} (hcall : item.index "kind" ≠ .string "tool-call")
    (hresult : item.index "kind" ≠ .string "tool-result") : toolItem role item pending = some pending := by
  rw [toolItem, if_neg hcall, if_neg hresult]

theorem toolItems_plain {role : Json} {items : List Json} {pending : List String}
    (h : ∀ item ∈ items, item.index "kind" ≠ .string "tool-call" ∧ item.index "kind" ≠ .string "tool-result") :
    items.foldlM (fun pending item => toolItem role item pending) pending = some pending := by
  induction items with
  | nil => rfl
  | cons item rest ih =>
    obtain ⟨hcall, hresult⟩ := h item mem_cons_self
    rw [foldlM_cons, toolItem_plain hcall hresult]
    exact ih fun item hitem => h item (mem_cons_of_mem _ hitem)

theorem toolMessage_plain {role : String} {content : List Json} (pending : List String) (hrole : role ≠ "tool")
    (h : ∀ item ∈ content, item.index "kind" ≠ .string "tool-call" ∧ item.index "kind" ≠ .string "tool-result") :
    toolMessage pending (speech role content) = plainNote pending := by
  unfold toolMessage plainNote
  rw [speech_role, speech_content, toolItems_plain h]
  by_cases hp : pending = [] <;> simp [hp, hrole]

theorem toolMessage_user (pending : List String) (text : String) :
    toolMessage pending (Message.user text).toJson = plainNote pending :=
  toolMessage_plain pending (by decide) (by simp)

theorem toolMessage_note (pending : List String) (lead : String) (value : Json) :
    toolMessage pending (Message.note lead value).toJson = plainNote pending :=
  toolMessage_plain pending (by decide) (by simp)

theorem toolMessage_turn (turn : Turn) : toolMessage [] turn.toJson = some [] := by
  cases turn <;> exact toolMessage_plain [] (by decide) (by simp)

theorem toolMessage_result (pending : List String) (id : Json) (schema : String) (output error : Json) :
    toolMessage pending (Message.result id schema output error).toJson = answerCall id pending := by
  unfold toolMessage Message.toJson answerCall
  rw [speech_role, speech_content]
  simp only [foldlM_cons, foldlM_nil, toolItem, Json.index, Json.get, Table.find]
  cases h : id.asStr <;> simp [h]

section Histories

variable (history : History)

variable {pending next : List String}

theorem History.calls_push (message : Message) :
    (history.push message).calls = history.calls.bind fun pending => toolMessage pending message.toJson := by
  unfold History.calls History.push openCalls
  rw [map_append, foldlM_append]
  cases List.foldlM toolMessage [] (history.rest.map Message.toJson) <;> simp

theorem openCalls_toJson : openCalls history.toJson = history.calls := by
  unfold openCalls History.toJson History.calls
  have hsystem : toolMessage [] (speech "system" [textPart history.system.text]) = some [] :=
    toolMessage_plain [] (by decide) (by simp)
  rw [foldlM_cons, hsystem, bind_eq_bind, bind_some, foldlM_cons, toolMessage_turn]
  rfl

def pendingStep (pending : List String) (item : Json) : List String :=
  match (item.index "call_id").asStr with
  | some id =>
    if item.index "kind" = .string "tool-call" then (if id ∈ pending then pending else id :: pending)
    else if item.index "kind" = .string "tool-result" then pending.erase id
    else pending
  | none => pending

theorem toolItem_pendingStep {role item : Json} (h : toolItem role item pending = some next) :
    pendingStep pending item = next := by
  unfold toolItem at h
  unfold pendingStep
  by_cases hcall : item.index "kind" = .string "tool-call"
  · rw [if_pos hcall] at h
    cases hid : (item.index "call_id").asStr with
    | none => simp [hid] at h
    | some id =>
      simp only [hid, if_pos hcall] at h ⊢
      split at h
      · cases h
      · next hgood =>
        simp only [not_or] at hgood
        simpa [hgood.2.2] using h
  · rw [if_neg hcall] at h
    by_cases hresult : item.index "kind" = .string "tool-result"
    · rw [if_pos hresult] at h
      cases hid : (item.index "call_id").asStr with
      | none => simp [hid] at h
      | some id =>
        simp only [hid, if_neg hcall, if_pos hresult] at h ⊢
        split at h
        · cases h
        · simpa using h
    · rw [if_neg hresult, Option.some.injEq] at h
      cases (item.index "call_id").asStr <;> simp [hcall, hresult, h]

theorem toolItems_pendingStep {role : Json} {items : List Json}
    (h : items.foldlM (fun pending item => toolItem role item pending) pending = some next) :
    items.foldl pendingStep pending = next := by
  induction items generalizing pending with
  | nil => simpa using h
  | cons item rest ih =>
    obtain ⟨middle, hitem, hrest⟩ := bind_eq_some_iff.mp h
    rw [foldl_cons, toolItem_pendingStep hitem]
    exact ih hrest

theorem foldl_pendingStep {messages : List Json} (h : messages.foldlM toolMessage pending = some next) :
    (messages.flatMap contentItems).foldl pendingStep pending = next := by
  induction messages generalizing pending with
  | nil => simpa using h
  | cons message rest ih =>
    obtain ⟨middle, hmessage, hrest⟩ := bind_eq_some_iff.mp h
    unfold toolMessage at hmessage
    split at hmessage
    · cases hmessage
    · rw [flatMap_cons, foldl_append, toolItems_pendingStep hmessage]
      exact ih hrest

theorem unanswered_perm {messages : List Json} (h : openCalls messages = some pending) :
    (unanswered messages).Perm pending := by
  have hfold : (messages.flatMap contentItems).foldl pendingStep [] = pending := foldl_pendingStep h
  exact (perm_insertionSort (· ≤ ·) _).trans (.of_eq hfold)

theorem foldlM_answerCall {ids : List String} (h : ids.Perm pending) :
    ids.foldlM (fun pending id => answerCall (.string id) pending) pending = some [] := by
  induction ids generalizing pending with
  | nil => simp [nil_perm.mp h]
  | cons id rest ih =>
    have hmem : id ∈ pending := h.subset mem_cons_self
    have hrest : rest.Perm (pending.erase id) := (cons_perm_iff_perm_erase.mp h).2
    rw [foldlM_cons]
    simp only [answerCall, Json.asStr, hmem, if_true, bind_eq_bind, bind_some]
    exact ih hrest

theorem calls_pushResults (ids : List String) (output : String → Json) (error : Json) (task : Task) :
    (ids.foldl (fun (task : Task) id => task.push (.result (.string id) "pluribus.code-result/1" (output id) error))
      task).messages.calls =
      task.messages.calls.bind fun pending => ids.foldlM (fun pending id => answerCall (.string id) pending) pending := by
  induction ids generalizing task with
  | nil => simp
  | cons id rest ih =>
    rw [foldl_cons, ih]
    change ((task.messages.push _).calls.bind _) = _
    rw [History.calls_push]
    cases task.messages.calls with
    | none => rfl
    | some pending =>
      simp only [bind_some, toolMessage_result, foldlM_cons]
      rfl

theorem calls_closeInterruptedTools (reason : String) (task : Task) :
    (closeInterruptedTools reason task).messages.calls = task.messages.calls.map fun _ => [] := by
  unfold closeInterruptedTools
  rw [calls_pushResults _ fun _ => _]
  cases h : task.messages.calls with
  | none => rfl
  | some pending =>
    rw [← openCalls_toJson] at h
    rw [bind_some, foldlM_answerCall (unanswered_perm h), map_some]

end Histories

end Pluribus.Rlm
