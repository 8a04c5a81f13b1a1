import Mathlib.Data.List.TakeWhile
import Pluribus.Lib.JsonText
import Pluribus.Lib.Numeral
import Pluribus.Runtime.Proposal

namespace Pluribus.Listen

open Lib Pluribus.Core Pluribus.Runtime List Json

def usizeMax : Nat := 18446744073709551615

/-- A request as it waits for the agent. The values of the headers and the body are in base64. -/
structure Request where
  requestId : String
  routeId : String
  consumer : String
  method : String
  target : String
  headers : List (String × String)
  body : String
  receivedAtMs : Int
  deadlineAtMs : Int
deriving DecidableEq, Repr

def Request.toJson (r : Request) : Json := Json.ofFields [
  ("requestId", .string r.requestId),
  ("routeId", .string r.routeId),
  ("consumer", .string r.consumer),
  ("method", .string r.method),
  ("target", .string r.target),
  ("headers", .array (r.headers.map fun (name, value) => .array [.string name, .string value])),
  ("body", .string r.body),
  ("receivedAtMs", Json.ofInt r.receivedAtMs),
  ("deadlineAtMs", Json.ofInt r.deadlineAtMs)]

structure Message where
  sequence : Nat
  request : Request
  size : Nat
deriving DecidableEq, Repr

/-- The requests that wait, in the order they arrived, and the bytes they take. -/
structure Inbox where
  session : String
  sequence : Nat
  bytes : Nat
  messages : List Message
  ordered : messages.Pairwise fun m later => m.sequence < later.sequence
  numbered : ∀ m ∈ messages, 0 < m.sequence ∧ m.sequence ≤ sequence
  bounded : sequence ≤ u64Max
  counted : bytes = (messages.map Message.size).sum

namespace Inbox

def new (session : String) : Inbox where
  session := session
  sequence := 0
  bytes := 0
  messages := []
  ordered := .nil
  numbered m hm := by cases hm
  bounded := Nat.zero_le _
  counted := rfl

variable (inbox : Inbox)

def without (gone kept : List Message) (hkept : kept.Sublist inbox.messages)
    (hsizes : (gone.map Message.size).sum + (kept.map Message.size).sum = (inbox.messages.map Message.size).sum) :
    Inbox where
  session := inbox.session
  sequence := inbox.sequence
  bytes := inbox.bytes - (gone.map Message.size).sum
  messages := kept
  ordered := inbox.ordered.sublist hkept
  numbered m hm := inbox.numbered m (hkept.subset hm)
  bounded := inbox.bounded
  counted := by
    have := inbox.counted
    omega

def enqueue (request : Request) (limit : Nat) : Option Inbox :=
  let size := request.toJson.bytes
  if min (inbox.bytes + size) usizeMax > limit then none
  else if h : inbox.sequence < u64Max then
    some {
      session := inbox.session
      sequence := inbox.sequence + 1
      bytes := inbox.bytes + size
      messages := inbox.messages ++ [⟨inbox.sequence + 1, request, size⟩]
      ordered := by
        refine pairwise_append.mpr ⟨inbox.ordered, pairwise_singleton _ _, fun m hm later hlater => ?_⟩
        rw [mem_singleton.mp hlater]
        exact Nat.lt_succ_of_le (inbox.numbered m hm).2
      numbered := by
        intro m hm
        rcases mem_append.mp hm with hold | hnew
        · exact ⟨(inbox.numbered m hold).1, Nat.le_succ_of_le (inbox.numbered m hold).2⟩
        · rw [mem_singleton.mp hnew]
          exact ⟨Nat.succ_pos _, le_rfl⟩
      bounded := h
      counted := by simp [inbox.counted] }
  else none

def acknowledge (session : Option String) (after : Nat) : Inbox :=
  if session = some inbox.session then
    inbox.without (inbox.messages.takeWhile fun m => m.sequence ≤ after)
      (inbox.messages.dropWhile fun m => m.sequence ≤ after) (dropWhile_sublist _)
      (by rw [← sum_append, ← map_append, takeWhile_append_dropWhile])
  else inbox

def messageJson (m : Message) : Json :=
  Json.ofFields [("sequence", Json.ofNat m.sequence), ("request", m.request.toJson)]

def answer (session : String) (front : Option Message) : Json :=
  Json.ofFields [("session", .string session), ("messages", .array (front.map messageJson).toList)]

def poll (session : Option String) (after : Nat) : Json × Inbox :=
  let inbox := inbox.acknowledge session after
  (answer inbox.session inbox.messages.head?, inbox)

theorem sum_eraseP (p : Message → Bool) (messages : List Message) :
    ((messages.find? p).toList.map Message.size).sum + ((messages.eraseP p).map Message.size).sum =
      (messages.map Message.size).sum := by
  induction messages with
  | nil => rfl
  | cons m messages ih =>
    by_cases hm : p m = true
    · simp [hm]
    · simp only [find?_cons_of_neg hm, eraseP_cons_of_neg hm, map_cons, sum_cons]
      omega

def remove (id : String) : Inbox :=
  inbox.without (inbox.messages.find? fun m => m.request.requestId = id).toList
    (inbox.messages.eraseP fun m => m.request.requestId = id) eraseP_sublist (sum_eraseP _ _)

end Inbox

/-- A poll as it is dispatched, and whether the listener tells its subscribers of more. -/
def dispatchPoll (inbox : Inbox) (request : Json) : Json × Inbox × Bool :=
  match (request.index "after").asU64 with
  | none => (Json.ofFields [("error", .string "invalid cursor")], inbox, false)
  | some after =>
    let (result, inbox) := inbox.poll (request.index "session").asStr after
    (result, inbox, decide (inbox.messages.length > 1))

/-- What the connector keeps from one poll to the next. -/
structure Kept where
  cursor : Option String
  session : Option String
deriving DecidableEq, Repr

inductive Mutation where
  | setCursor (value : String)
  | setSession (value : String)
deriving DecidableEq, Repr

def Kept.apply (kept : Kept) : Mutation → Kept
  | .setCursor value => { kept with cursor := some value }
  | .setSession value => { kept with session := some value }

def Kept.after (kept : Kept) : Nat := (kept.cursor.bind fun value => Text.parseU64 value.toList).getD 0

structure SourceOutput where
  events : List Proposal
  mutations : List Mutation
deriving DecidableEq, Repr

def pollRequest (kept : Kept) : Json :=
  Json.ofFields [("op", .string "poll"), ("after", Json.ofNat kept.after), ("session", Json.ofOption .string kept.session)]

def exchanged (answer : Json) : Except String Json :=
  if (answer.get "error").isSome then .error "native operation unavailable" else .ok answer

def receivedKey (requestId : String) : String := "http:" ++ requestId

def received (request : Json) (key : String) : Proposal where
  eventType := "http.request.received"
  payloadSchema := "pluribus.http.request.received/1"
  payload := .canonicalJson (.json request)
  idempotencyKey := some key
  causationId := none

def required {α : Type} (message : String) : Option α → Except String α
  | some a => .ok a
  | none => .error message

def SourceOutput.take (output : SourceOutput) (message : Json) : Except String SourceOutput := do
  let id ← required "missing request id" ((message.index "request").index "requestId").asStr
  let cursor ← required "invalid listener cursor" (message.index "sequence").asU64
  return ⟨output.events ++ [received (message.index "request") (receivedKey id)],
    output.mutations ++ [.setCursor cursor.repr]⟩

def pollOutput (kept : Kept) (answer : Json) : Except String SourceOutput := do
  let result ← exchanged answer
  let current ← required "missing listener session" (result.index "session").asStr
  let messages ← required "missing messages" ((result.index "messages").asArray)
  messages.foldlM SourceOutput.take ⟨[], if kept.session = some current then [] else [.setSession current]⟩

section Exchange

variable {inbox inbox' : Inbox} {kept : Kept} {session : String} {front : Option Message}

variable {after : Nat} {m : Message}

theorem messages_enqueue {request : Request} {limit : Nat} (h : inbox.enqueue request limit = some inbox') :
    inbox'.session = inbox.session ∧ inbox'.sequence = inbox.sequence + 1 ∧
    inbox'.messages = inbox.messages ++ [⟨inbox.sequence + 1, request, request.toJson.bytes⟩] := by
  unfold Inbox.enqueue at h
  dsimp only at h
  split at h
  · cases h
  · split at h
    · cases h
      exact ⟨rfl, rfl, rfl⟩
    · cases h

theorem mem_acknowledge {session : Option String} (hm : m ∈ inbox.messages)
    (hgone : m ∉ (inbox.acknowledge session after).messages) : session = some inbox.session ∧ m.sequence ≤ after := by
  unfold Inbox.acknowledge at hgone
  split at hgone
  · rename_i hsession
    refine ⟨hsession, ?_⟩
    rw [← takeWhile_append_dropWhile (p := fun m => decide (m.sequence ≤ after)) (l := inbox.messages)] at hm
    have htaken := (mem_append.mp hm).resolve_right hgone
    simpa using mem_takeWhile_imp htaken
  · exact absurd hm hgone

structure Inbox.Shrinks (inbox inbox' : Inbox) : Prop where
  session : inbox'.session = inbox.session
  sequence : inbox'.sequence = inbox.sequence
  messages : inbox'.messages ⊆ inbox.messages

theorem sublist_acknowledge (session : Option String) (after : Nat) :
    (inbox.acknowledge session after).messages.Sublist inbox.messages := by
  unfold Inbox.acknowledge
  split
  · exact dropWhile_sublist _
  · exact Sublist.refl _

theorem shrinks_acknowledge (session : Option String) (after : Nat) : inbox.Shrinks (inbox.acknowledge session after) := by
  refine ⟨?_, ?_, (sublist_acknowledge session after).subset⟩
  · unfold Inbox.acknowledge
    split <;> rfl
  · unfold Inbox.acknowledge
    split <;> rfl

theorem shrinks_remove (id : String) : inbox.Shrinks (inbox.remove id) := ⟨rfl, rfl, eraseP_sublist.subset⟩

theorem mem_remove {id : String} (hid : m.request.requestId ≠ id) (hm : m ∈ inbox.messages) :
    m ∈ (inbox.remove id).messages :=
  (mem_eraseP_of_neg (by simpa using hid)).mpr hm

theorem head_acknowledge {session : Option String} (h : (inbox.acknowledge session after).messages.head? = some m)
    (hsession : session = some inbox.session) : after < m.sequence := by
  unfold Inbox.acknowledge at h
  rw [if_pos hsession] at h
  have hhead := head?_dropWhile_not (fun m : Message => decide (m.sequence ≤ after)) inbox.messages
  rw [show (inbox.messages.dropWhile fun m => decide (m.sequence ≤ after)).head? = some m from h] at hhead
  simpa using hhead

theorem acknowledge_of_head {session : Option String} {f : Message} (hf : inbox.messages.head? = some f)
    (h : ¬ (session = some inbox.session ∧ f.sequence ≤ after)) :
    (inbox.acknowledge session after).messages = inbox.messages := by
  obtain ⟨rest, hmessages⟩ := head?_eq_some_iff.mp hf
  unfold Inbox.acknowledge
  split
  · rename_i hsession
    have hafter : ¬ f.sequence ≤ after := fun hle => h ⟨hsession, hle⟩
    change inbox.messages.dropWhile (fun m => m.sequence ≤ after) = inbox.messages
    rw [hmessages, dropWhile_cons_of_neg (by simpa using hafter)]
  · rfl

theorem Inbox.head_le {f : Message} (h : inbox.messages.head? = some f) (hm : m ∈ inbox.messages)
    (hle : m.sequence ≤ f.sequence) : m = f := by
  obtain ⟨rest, hmessages⟩ := head?_eq_some_iff.mp h
  have hordered := inbox.ordered
  rw [hmessages] at hm hordered
  rcases mem_cons.mp hm with rfl | hrest
  · rfl
  · exact absurd ((pairwise_cons.mp hordered).1 m hrest) (Nat.not_lt.mpr hle)

theorem dispatchPoll_pollRequest (inbox : Inbox) (kept : Kept) : dispatchPoll inbox (pollRequest kept) =
    (Inbox.answer inbox.session (inbox.acknowledge kept.session kept.after).messages.head?,
      inbox.acknowledge kept.session kept.after,
      decide ((inbox.acknowledge kept.session kept.after).messages.length > 1)) := by
  have hsession : ((pollRequest kept).index "session").asStr = kept.session := by
    cases hkept : kept.session <;> simp [pollRequest, index, get_ofFields, hkept, ofOption, asStr]
  have hafter : ((pollRequest kept).index "after").asU64 = some kept.after := by
    simp [pollRequest, index, get_ofFields, ofNat, asU64]
  have hinbox : (inbox.acknowledge kept.session kept.after).session = inbox.session := (shrinks_acknowledge _ _).session
  simp only [dispatchPoll, hafter, hsession, Inbox.poll, hinbox]

theorem messageJson_take (output : SourceOutput) (m : Message) : output.take (Inbox.messageJson m) =
    .ok ⟨output.events ++ [received m.request.toJson (receivedKey m.request.requestId)],
      output.mutations ++ [.setCursor m.sequence.repr]⟩ := by
  have hrequest : (Inbox.messageJson m).index "request" = m.request.toJson := by
    simp [Inbox.messageJson, index, get_ofFields]
  have hid : (m.request.toJson.index "requestId").asStr = some m.request.requestId := by
    simp [Request.toJson, index, get_ofFields, asStr]
  have hsequence : ((Inbox.messageJson m).index "sequence").asU64 = some m.sequence := by
    simp [Inbox.messageJson, index, get_ofFields, ofNat, asU64]
  simp only [SourceOutput.take, hrequest, hid, hsequence, required, bind, Except.bind, pure, Except.pure]

theorem pollOutput_answer (kept : Kept) (session : String) (front : Option Message) :
    pollOutput kept (Inbox.answer session front) =
      .ok ⟨front.toList.map fun m => received m.request.toJson (receivedKey m.request.requestId),
        (if kept.session = some session then [] else [.setSession session]) ++
          front.toList.map fun m => .setCursor m.sequence.repr⟩ := by
  have hsession : ((Inbox.answer session front).index "session").asStr = some session := by
    simp [Inbox.answer, index, get_ofFields, asStr]
  have hmessages : ((Inbox.answer session front).index "messages").asArray =
      some (front.map Inbox.messageJson).toList := by
    simp [Inbox.answer, index, get_ofFields, asArray]
  have herror : ((Inbox.answer session front).get "error").isSome = false := by
    simp [Inbox.answer, get_ofFields]
  simp only [pollOutput, exchanged, herror, Bool.false_eq_true, if_false, bind, Except.bind, hsession, hmessages, required]
  cases front with
  | none => simp [pure, Except.pure]
  | some m => simp [foldlM, messageJson_take, bind, Except.bind, pure, Except.pure]

end Exchange

end Pluribus.Listen
