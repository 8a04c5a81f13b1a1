import Pluribus.Lib.JsonText
import Pluribus.Lib.Lists
import Pluribus.Runtime.Proposal

namespace Pluribus.Cli

open Lib Pluribus.Core Pluribus.Runtime List Json

def MAX_RESPONSE : Nat := 256 * 1024
def MAX_TEXT : Nat := 16 * 1024
def MAX_MESSAGES : Nat := 32

structure Message where
  sequence : Nat
  atMs : Int
  text : String
  sequence_le : sequence ≤ u64Max
  atMs_bounds : -9223372036854775808 ≤ atMs ∧ atMs ≤ 9223372036854775807
  text_le : Text.bytes text ≤ MAX_TEXT
deriving DecidableEq

/-- The identifier of a run of the bridge: 32 hexadecimal digits. -/
def SessionId : Type := { s : String // Text.bytes s = 32 }

structure Inbox where
  messages : List Message
  next : Nat
  sessionId : SessionId

def Message.toJson (m : Message) : Json :=
  .object [("at_ms", Json.ofInt m.atMs), ("sequence", Json.ofNat m.sequence), ("text", .string m.text)]

def responseJson (sessionId : SessionId) (messages : List Message) : Json :=
  .object [("messages", .array (messages.map Message.toJson)), ("session_id", .string sessionId.val),
    ("status", .string "messages")]

def responseFits (sessionId : SessionId) (messages : List Message) : Bool :=
  (responseJson sessionId messages).bytes < MAX_RESPONSE

def collect (sessionId : SessionId) (pending : List Message) : List Message → List Message
  | [] => pending
  | m :: rest => if responseFits sessionId (pending ++ [m]) then collect sessionId (pending ++ [m]) rest else pending

def Inbox.waitForInput (inbox : Inbox) (requested : Option String) (after : Nat) : List Message × Inbox :=
  let effective := if requested = some inbox.sessionId.val then after else 0
  let pending := collect inbox.sessionId [] ((inbox.messages.filter (effective < ·.sequence)).take MAX_MESSAGES)
  match pending.getLast? with
  | none => ([], inbox)
  | some last => (pending, { inbox with messages := inbox.messages.filter (last.sequence < ·.sequence) })

structure Config where
  conversationId : String
  sender : String

structure Cursor where
  sessionId : Option String
  sequence : Nat
deriving DecidableEq, Repr

def inputKey (sessionId : String) (sequence : Nat) : String := "cli:input:" ++ sessionId ++ ":" ++ sequence.repr

def observation (config : Config) (sessionId : String) (m : Message) : Proposal where
  eventType := "observation.received"
  payloadSchema := "dev.pluribus.cli.observation.v1"
  payload := .canonicalJson (.json (Json.ofFields [
    ("provider", .string "cli"),
    ("conversationId", .string config.conversationId),
    ("externalSenderId", .string config.sender),
    ("observedAtMs", Json.ofInt m.atMs),
    ("message", Json.ofFields [("text", .string m.text)])]))
  idempotencyKey := some (inputKey sessionId m.sequence)
  causationId := none

def cursorAfter (current : Cursor) (sessionId : String) (messages : List Message) : Cursor where
  sessionId := some sessionId
  sequence :=
    match messages.getLast? with
    | some m => m.sequence
    | none => if current.sessionId = some sessionId then current.sequence else 0

theorem responseFits_single (sessionId : SessionId) (m : Message) : responseFits sessionId [m] = true := by
  have hsession := bytes_string_le sessionId.val
  have htext := bytes_string_le m.text
  have hsequence := bytes_ofNat_le (e := 20) (by decide) (Nat.lt_of_le_of_lt m.sequence_le (by decide))
  have hat := bytes_ofInt_le (e := 20) (i := m.atMs) (by decide) (by have := m.atMs_bounds; omega)
  have hbound := m.text_le
  have hlength := sessionId.property
  have hsize : (responseJson sessionId [m]).bytes = (ofInt m.atMs).bytes + (ofNat m.sequence).bytes +
      (string m.text).bytes + (string sessionId.val).bytes + 79 := by
    have hmessages : quotedWeight (fun _ => 1) "messages" = 10 := by decide +kernel
    have hid : quotedWeight (fun _ => 1) "session_id" = 12 := by decide +kernel
    have hstatus : quotedWeight (fun _ => 1) "status" = 8 := by decide +kernel
    have hatMs : quotedWeight (fun _ => 1) "at_ms" = 7 := by decide +kernel
    have hsequence : quotedWeight (fun _ => 1) "sequence" = 10 := by decide +kernel
    have htext : quotedWeight (fun _ => 1) "text" = 6 := by decide +kernel
    simp only [responseJson, bytes, weigh, fieldsWeight, itemsWeight, map_cons, map_nil,
      Message.toJson, commas, length_cons, length_nil, hmessages, hid, hstatus, hatMs, hsequence, htext]
    omega
  rw [responseFits, hsize, decide_eq_true_eq]
  unfold MAX_RESPONSE
  unfold MAX_TEXT at hbound
  omega

section WaitForInput

variable {sessionId : SessionId} {messages : List Message}

theorem collect_prefix (sessionId : SessionId) (pending messages : List Message) : ∃ taken rest, messages = taken ++ rest ∧
    collect sessionId pending messages = pending ++ taken := by
  induction messages generalizing pending with
  | nil => exact ⟨[], [], rfl, (append_nil _).symm⟩
  | cons m messages ih =>
    unfold collect
    split
    · obtain ⟨taken, rest, hmessages, hcollect⟩ := ih (pending ++ [m])
      refine ⟨m :: taken, rest, by rw [hmessages, cons_append], ?_⟩
      rw [hcollect, append_assoc, singleton_append]
    · exact ⟨[], m :: messages, rfl, (append_nil _).symm⟩

theorem collect_ne_nil {m : Message} : collect sessionId [] (m :: messages) ≠ [] := by
  unfold collect
  rw [nil_append, if_pos (responseFits_single sessionId m)]
  obtain ⟨taken, rest, -, hcollect⟩ := collect_prefix sessionId [m] messages
  rw [hcollect]
  exact cons_ne_nil _ _

def Inbox.Ordered (inbox : Inbox) : Prop := inbox.messages.Pairwise fun m later => m.sequence < later.sequence

theorem waitForInput_nil {inbox : Inbox} {requested : Option String} {after : Nat}
    (h : (inbox.waitForInput requested after).1 = []) : (inbox.waitForInput requested after).2 = inbox := by
  unfold Inbox.waitForInput at h ⊢
  dsimp only at h ⊢
  split
  · rfl
  · rename_i last hlast
    rw [hlast] at h
    dsimp only at h
    rw [h] at hlast
    cases hlast

theorem waitForInput_subset (inbox : Inbox) (requested : Option String) (after : Nat) :
    (inbox.waitForInput requested after).1 ⊆ inbox.messages := by
  unfold Inbox.waitForInput
  dsimp only
  split
  · exact nil_subset _
  · obtain ⟨taken, rest, hmessages, hcollect⟩ := collect_prefix inbox.sessionId [] ((inbox.messages.filter
      ((if requested = some inbox.sessionId.val then after else 0) < ·.sequence)).take MAX_MESSAGES)
    rw [hcollect, nil_append]
    intro m hm
    have htake : m ∈ (inbox.messages.filter
        ((if requested = some inbox.sessionId.val then after else 0) < ·.sequence)).take MAX_MESSAGES :=
      hmessages ▸ mem_append_left rest hm
    exact mem_of_mem_filter (mem_of_mem_take htake)

theorem waitForInput_kept (inbox : Inbox) (requested : Option String) (after : Nat) :
    ∃ kept, (inbox.waitForInput requested after).2 = { inbox with messages := kept } ∧ kept ⊆ inbox.messages := by
  unfold Inbox.waitForInput
  dsimp only
  split
  · exact ⟨inbox.messages, rfl, List.Subset.refl _⟩
  · exact ⟨_, rfl, filter_sublist.subset⟩

theorem filter_after {front rest : List Message} {last : Message}
    (h : (front ++ last :: rest).Pairwise fun m later => m.sequence < later.sequence) :
    (front ++ last :: rest).filter (last.sequence < ·.sequence) = rest := by
  obtain ⟨-, hrest, hfront⟩ := pairwise_append.mp h
  have hlater := (pairwise_cons.mp hrest).1
  rw [filter_append, filter_cons_of_neg (by simp), filter_eq_nil_iff.mpr, nil_append,
    filter_eq_self]
  · exact fun m hm => by simpa using hlater m hm
  · exact fun m hm => by simpa using (hfront m hm last mem_cons_self).le

/-- Where all that is in the inbox is new to the caller, the first messages are handed out, and some are if there
are any. -/
theorem waitForInput_new {inbox : Inbox} (requested : Option String) (after : Nat) (hordered : inbox.Ordered)
    (hnew : requested = some inbox.sessionId.val → ∀ m ∈ inbox.messages, after < m.sequence)
    (hpos : ∀ m ∈ inbox.messages, 0 < m.sequence) :
    inbox.messages = (inbox.waitForInput requested after).1 ++ (inbox.waitForInput requested after).2.messages ∧
    (inbox.waitForInput requested after).2.next = inbox.next ∧
    (inbox.waitForInput requested after).2.sessionId = inbox.sessionId ∧
    ((inbox.waitForInput requested after).1 = [] → inbox.messages = []) := by
  have hall : inbox.messages.filter
      ((if requested = some inbox.sessionId.val then after else 0) < ·.sequence) = inbox.messages := by
    rw [filter_eq_self]
    intro m hm
    rw [decide_eq_true_eq]
    split
    · rename_i hsession
      exact hnew hsession m hm
    · exact hpos m hm
  unfold Inbox.waitForInput
  dsimp only
  rw [hall]
  generalize hpending : collect inbox.sessionId [] (inbox.messages.take MAX_MESSAGES) = pending
  cases hlast : pending.getLast? with
  | none =>
    refine ⟨(nil_append _).symm, rfl, rfl, fun _ => ?_⟩
    have hnil : pending = [] := getLast?_eq_none_iff.mp hlast
    by_contra hne
    obtain ⟨m, rest, hmessages⟩ := exists_cons_of_ne_nil hne
    rw [hnil, hmessages] at hpending
    exact collect_ne_nil hpending
  | some last =>
    obtain ⟨taken, left, htake, hcollect⟩ := collect_prefix inbox.sessionId [] (inbox.messages.take MAX_MESSAGES)
    have htaken : pending = taken := by rw [← hpending, hcollect, nil_append]
    obtain ⟨front, hfront⟩ := getLast?_eq_some_iff.mp hlast
    -- what is kept comes after the last message that is handed out
    have hsplit : inbox.messages = pending ++ (left ++ inbox.messages.drop MAX_MESSAGES) := by
      rw [← append_assoc, htaken, ← htake, take_append_drop]
    have hkept : inbox.messages.filter (last.sequence < ·.sequence) = left ++ inbox.messages.drop MAX_MESSAGES := by
      unfold Inbox.Ordered at hordered
      rw [hfront, append_assoc, singleton_append] at hsplit
      rw [hsplit] at hordered
      have hfilter := filter_after hordered
      rwa [← hsplit] at hfilter
    dsimp only
    refine ⟨by rw [hkept, ← hsplit], rfl, rfl, fun hnil => ?_⟩
    rw [hnil] at hlast
    cases hlast

end WaitForInput

end Pluribus.Cli
