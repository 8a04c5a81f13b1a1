import Pluribus.Lib.Course
import Pluribus.Lib.Numeral
import Pluribus.Cli.Bridge
import Pluribus.Lib.Journal
import Pluribus.Runtime.Commit

namespace Pluribus.Cli

open Lib Pluribus.Core Pluribus.Runtime List Function

/-- What the bridge does for a connection: it waits for input with the cursor that came with the poll, or has
answered. -/
inductive Served where
  | nothing
  | waiting (cursor : Cursor)
  | answered (messages : List Message)

/-- Bridge, connector and host. `typed` are all lines the bridge has accepted, and `current` is the connection the
connector reads from. -/
structure World where
  inbox : Inbox
  typed : List Message
  served : Nat → Served
  opened : Nat
  current : Option Nat
  cursor : Cursor
  journal : Journal String Proposal

def World.start (sessionId : SessionId) (cursor : Cursor) (journal : Journal String Proposal) : World :=
  ⟨⟨[], 0, sessionId⟩, [], fun _ => .nothing, 0, none, cursor, journal⟩

inductive Action where
  | type (m : Message)
  | poll
  | look (connection : Nat) (messages : List Message)
  | receive
  | fail
deriving Inhabited

section Step

variable (config : Config)

/-- The commit of an answer: its observations, and the cursor after it. -/
def World.commit (w : World) (messages : List Message) : World :=
  { w with
    journal := w.journal.record (messages.map fun m => (observation config w.inbox.sessionId.val m).keyed)
    cursor := cursorAfter w.cursor w.inbox.sessionId.val messages
    current := none }

/-- One step: a line is typed, the connector polls, the bridge looks into the inbox for a connection and answers
it (without messages when the wait is over), the connector reads its answer and commits it, or it fails: the
connection is lost, the commit is refused, or the connector is restarted. -/
inductive Step : Action → World → World → Prop
  | type {w : World} {m : Message} (hsequence : m.sequence = w.inbox.next + 1) (htext : Text.blank m.text = false) :
      Step (.type m) w { w with
        inbox := { w.inbox with messages := w.inbox.messages ++ [m], next := w.inbox.next + 1 }
        typed := w.typed ++ [m] }
  | poll {w : World} (h : w.current = none) :
      Step .poll w { w with
        served := Function.update w.served w.opened (.waiting w.cursor)
        opened := w.opened + 1
        current := some w.opened }
  | look {w : World} {connection : Nat} {cursor : Cursor} (h : w.served connection = .waiting cursor) :
      Step (.look connection (w.inbox.waitForInput cursor.sessionId cursor.sequence).1) w { w with
        inbox := (w.inbox.waitForInput cursor.sessionId cursor.sequence).2
        served := Function.update w.served connection
          (.answered (w.inbox.waitForInput cursor.sessionId cursor.sequence).1) }
  | receive {w : World} {connection : Nat} {messages : List Message} (hcurrent : w.current = some connection)
      (h : w.served connection = .answered messages) : Step .receive w (w.commit config messages)
  | fail {w : World} : Step .fail w { w with current := none }

def World.inFlight (w : World) : List Message :=
  match w.current.map w.served with
  | some (.answered messages) => messages
  | _ => []

/-- Messages are only handed out to the connection the connector reads, and it does not fail before it has
committed them. -/
def Unbroken (action : Action) (w : World) : Prop :=
  match action with
  | .look connection messages => messages ≠ [] → w.current = some connection
  | .fail => w.inFlight = []
  | _ => True

def UnbrokenStep (action : Action) (w w' : World) : Prop := Step config action w w' ∧ Unbroken action w

def Runs : World → World → Prop := Relation.ReflTransGen fun w w' => ∃ action, UnbrokenStep config action w w'

end Step

def entry (config : Config) (sessionId : SessionId) (m : Message) : String × Proposal :=
  (observation config sessionId.val m).keyed

theorem inputKey_inj {sessionId : String} {n n' : Nat} (h : inputKey sessionId n = inputKey sessionId n') : n = n' :=
  nat_repr_inj (colon_inj (colon_not_mem_repr n) (colon_not_mem_repr n') h).2

structure Fresh (sessionId : SessionId) (cursor : Cursor) (journal : Journal String Proposal) : Prop where
  cursor : cursor.sessionId ≠ some sessionId.val
  journal : ∀ n, inputKey sessionId.val n ∉ journal.keys

section Invariant

variable (config : Config) (sessionId : SessionId) (journal : Journal String Proposal)

/-- Every line is committed, on its way or in the inbox, in the order it was typed. -/
structure Orderly (w : World) (committed : List Message) : Prop where
  session : w.inbox.sessionId = sessionId
  typed : w.typed = committed ++ w.inFlight ++ w.inbox.messages
  entries : w.journal.entries = journal.entries ++ committed.map (entry config sessionId)
  ordered : w.typed.Pairwise fun m later => m.sequence < later.sequence
  numbered : ∀ m ∈ w.typed, 0 < m.sequence ∧ m.sequence ≤ w.inbox.next
  cursor : w.cursor.sessionId = some sessionId.val → ∀ m ∈ w.inFlight ++ w.inbox.messages, w.cursor.sequence < m.sequence
  behind : w.cursor.sessionId = some sessionId.val → w.cursor.sequence ≤ w.inbox.next
  asked : ∀ connection cursor, w.current = some connection → w.served connection = .waiting cursor → cursor = w.cursor

end Invariant

section Orderly

variable {config : Config} {sessionId : SessionId} {journal : Journal String Proposal} {w w' : World}
  {committed : List Message} {action : Action}

theorem orderly_start {cursor : Cursor} (hfresh : Fresh sessionId cursor journal) :
    Orderly config sessionId journal (.start sessionId cursor journal) [] where
  session := rfl
  typed := rfl
  entries := (append_nil _).symm
  ordered := .nil
  numbered m hm := by cases hm
  cursor h := absurd h hfresh.cursor
  behind h := absurd h hfresh.cursor
  asked _ _ h := by cases h

theorem inFlight_none (h : w.current = none) : w.inFlight = [] := by
  simp [World.inFlight, h]

theorem inFlight_answered {connection : Nat} {messages : List Message} (hcurrent : w.current = some connection)
    (h : w.served connection = .answered messages) : w.inFlight = messages := by
  simp [World.inFlight, hcurrent, h]

theorem inFlight_waiting {connection : Nat} {cursor : Cursor} (hcurrent : w.current = some connection)
    (h : w.served connection = .waiting cursor) : w.inFlight = [] := by
  simp [World.inFlight, hcurrent, h]

section

variable (h : Orderly config sessionId journal w committed)

include h

theorem Orderly.type {m : Message}
    (hsequence : m.sequence = w.inbox.next + 1) : Orderly config sessionId journal { w with
      inbox := { w.inbox with messages := w.inbox.messages ++ [m], next := w.inbox.next + 1 }
      typed := w.typed ++ [m] } committed where
  session := h.session
  typed := by
    have htyped := h.typed
    change w.typed ++ [m] = committed ++ w.inFlight ++ (w.inbox.messages ++ [m])
    rw [htyped, append_assoc]
  entries := h.entries
  ordered := by
    refine pairwise_append.mpr ⟨h.ordered, pairwise_singleton _ _, fun a ha b hb => ?_⟩
    rw [mem_singleton.mp hb]
    have := (h.numbered a ha).2
    omega
  numbered a ha := by
    rcases mem_append.mp ha with hold | hnew
    · have := h.numbered a hold
      exact ⟨this.1, Nat.le_succ_of_le this.2⟩
    · rw [mem_singleton.mp hnew, hsequence]
      exact ⟨Nat.succ_pos _, le_rfl⟩
  cursor hsession a ha := by
    rw [← append_assoc] at ha
    rcases mem_append.mp ha with hold | hnew
    · exact h.cursor hsession a hold
    · rw [mem_singleton.mp hnew, hsequence]
      exact Nat.lt_succ_of_le (h.behind hsession)
  behind hsession := Nat.le_succ_of_le (h.behind hsession)
  asked := h.asked

theorem Orderly.poll (hcurrent : w.current = none) :
    Orderly config sessionId journal { w with
      served := update w.served w.opened (.waiting w.cursor)
      opened := w.opened + 1
      current := some w.opened } committed := by
  have hflight := inFlight_none hcurrent
  have hflight' : World.inFlight { w with
      served := update w.served w.opened (.waiting w.cursor)
      opened := w.opened + 1
      current := some w.opened } = [] := inFlight_waiting rfl (update_self w.opened (.waiting w.cursor) w.served)
  refine ⟨h.session, ?_, h.entries, h.ordered, h.numbered, ?_, h.behind, ?_⟩
  · rw [hflight', ← hflight]
    exact h.typed
  · rw [hflight', ← hflight]
    exact h.cursor
  · intro connection cursor hconnection hserved
    cases hconnection
    dsimp only at hserved
    rw [update_self] at hserved
    cases hserved
    rfl

theorem Orderly.inbox_ordered : w.inbox.Ordered := by
  have hordered := h.ordered
  rw [h.typed] at hordered
  exact (pairwise_append.mp hordered).2.1

theorem Orderly.mem_typed {m : Message} (hm : m ∈ w.inFlight ++ w.inbox.messages) : m ∈ w.typed := by
  rw [h.typed, append_assoc]
  exact mem_append_right _ hm

theorem Orderly.handed : w.inbox.messages = (w.inbox.waitForInput w.cursor.sessionId w.cursor.sequence).1 ++
      (w.inbox.waitForInput w.cursor.sessionId w.cursor.sequence).2.messages ∧
    (w.inbox.waitForInput w.cursor.sessionId w.cursor.sequence).2.next = w.inbox.next ∧
    (w.inbox.waitForInput w.cursor.sessionId w.cursor.sequence).2.sessionId = w.inbox.sessionId ∧
    ((w.inbox.waitForInput w.cursor.sessionId w.cursor.sequence).1 = [] → w.inbox.messages = []) := by
  apply waitForInput_new _ _ h.inbox_ordered
  · intro hsame m hm
    exact h.cursor (h.session ▸ hsame) m (mem_append_right _ hm)
  · intro m hm
    exact (h.numbered m (h.mem_typed (mem_append_right _ hm))).1

theorem Orderly.look {connection : Nat} {cursor : Cursor}
    (hserved : w.served connection = .waiting cursor)
    (hcurrent : (w.inbox.waitForInput cursor.sessionId cursor.sequence).1 ≠ [] → w.current = some connection) :
    Orderly config sessionId journal { w with
      inbox := (w.inbox.waitForInput cursor.sessionId cursor.sequence).2
      served := update w.served connection
        (.answered (w.inbox.waitForInput cursor.sessionId cursor.sequence).1) } committed := by
  have hasked : ∀ messages other cursor', w.current = some other →
      update w.served connection (.answered messages) other = .waiting cursor' → cursor' = w.cursor := by
    intro messages other cursor' hother hwaiting
    by_cases hsame : other = connection
    · rw [hsame, update_self] at hwaiting
      cases hwaiting
    · rw [update_of_ne hsame] at hwaiting
      exact h.asked other cursor' hother hwaiting
  by_cases hnone : (w.inbox.waitForInput cursor.sessionId cursor.sequence).1 = []
  · have hflight : World.inFlight { w with served := update w.served connection (.answered []) } = w.inFlight := by
      unfold World.inFlight
      cases hwho : w.current with
      | none => rfl
      | some other =>
        by_cases hsame : other = connection
        · simp [hsame, hserved]
        · simp [update_of_ne hsame]
    rw [hnone, waitForInput_nil hnone]
    refine ⟨h.session, ?_, h.entries, h.ordered, h.numbered, ?_, h.behind, hasked []⟩
    · rw [hflight]
      exact h.typed
    · rw [hflight]
      exact h.cursor
  · have hconnection := hcurrent hnone
    obtain rfl := h.asked connection cursor hconnection hserved
    have hflight := inFlight_waiting hconnection hserved
    obtain ⟨hsplit, hnext, hsession, -⟩ := h.handed
    have hflight' : World.inFlight { w with
        inbox := (w.inbox.waitForInput w.cursor.sessionId w.cursor.sequence).2
        served := update w.served connection
          (.answered (w.inbox.waitForInput w.cursor.sessionId w.cursor.sequence).1) } =
        (w.inbox.waitForInput w.cursor.sessionId w.cursor.sequence).1 :=
      inFlight_answered hconnection (update_self connection (.answered _) w.served)
    refine ⟨hsession.trans h.session, ?_, h.entries, h.ordered, ?_, ?_, ?_, hasked _⟩
    · rw [hflight', append_assoc, ← hsplit]
      simpa [hflight] using h.typed
    · exact fun m hm => ⟨(h.numbered m hm).1, hnext.symm ▸ (h.numbered m hm).2⟩
    · rw [hflight', ← hsplit]
      exact fun hsame m hm => h.cursor hsame m (mem_append_right _ hm)
    · rw [hnext]
      exact h.behind

theorem Orderly.fail (hflight : w.inFlight = []) :
    Orderly config sessionId journal { w with current := none } committed := by
  have hflight' : World.inFlight { w with current := none } = [] := inFlight_none rfl
  refine ⟨h.session, ?_, h.entries, h.ordered, h.numbered, ?_, h.behind, nofun⟩
  · rw [hflight', ← hflight]
    exact h.typed
  · rw [hflight', ← hflight]
    exact h.cursor

theorem Orderly.cursorAfter_le : (cursorAfter w.cursor sessionId.val w.inFlight).sequence ≤ w.inbox.next ∧
    ∀ m ∈ w.inbox.messages, (cursorAfter w.cursor sessionId.val w.inFlight).sequence < m.sequence := by
  unfold cursorAfter
  cases hlast : w.inFlight.getLast? with
  | some last =>
    have hmem : last ∈ w.inFlight := mem_of_getLast? hlast
    refine ⟨(h.numbered last (h.mem_typed (mem_append_left _ hmem))).2, fun m hm => ?_⟩
    have hordered := h.ordered
    rw [h.typed] at hordered
    exact (pairwise_append.mp hordered).2.2 last (mem_append_right _ hmem) m hm
  | none =>
    dsimp only
    split
    · rename_i hsame
      exact ⟨h.behind hsame, fun m hm => h.cursor hsame m (mem_append_right _ hm)⟩
    · exact ⟨Nat.zero_le _, fun m hm => (h.numbered m (h.mem_typed (mem_append_right _ hm))).1⟩

theorem Orderly.entries_commit (hfresh : ∀ n, inputKey sessionId.val n ∉ journal.keys) :
    (w.journal.record (w.inFlight.map (entry config sessionId))).entries =
      journal.entries ++ (committed ++ w.inFlight).map (entry config sessionId) := by
  have hordered := h.ordered
  rw [h.typed] at hordered
  obtain ⟨hfront, -, -⟩ := pairwise_append.mp hordered
  obtain ⟨-, hflight, hcross⟩ := pairwise_append.mp hfront
  rw [Journal.entries_record, h.entries, map_append, append_assoc]
  · intro e he hkey
    obtain ⟨m, hm, rfl⟩ := mem_map.mp he
    rw [Journal.keys, h.entries, map_append, mem_append] at hkey
    rcases hkey with hold | hnew
    · exact hfresh m.sequence hold
    · obtain ⟨e, he, heq⟩ := mem_map.mp hnew
      obtain ⟨m', hm', rfl⟩ := mem_map.mp he
      have := hcross m' hm' m hm
      have := inputKey_inj heq
      omega
  · rw [map_map]
    refine pairwise_map.mpr (hflight.imp fun {a b} hless heq => ?_)
    have := inputKey_inj heq
    omega

theorem Orderly.receive (hfresh : ∀ n, inputKey sessionId.val n ∉ journal.keys) :
    Orderly config sessionId journal (w.commit config w.inFlight) (committed ++ w.inFlight) := by
  have hflight' : (w.commit config w.inFlight).inFlight = [] := inFlight_none rfl
  obtain ⟨hle, hless⟩ := h.cursorAfter_le
  have hsession := h.session
  refine ⟨hsession, ?_, ?_, h.ordered, h.numbered, ?_, ?_, nofun⟩
  · rw [hflight', append_nil]
    exact h.typed
  · simp only [World.commit, hsession]
    exact h.entries_commit hfresh
  · intro _ m hm
    simp only [World.commit, hsession]
    exact hless m hm
  · intro _
    simp only [World.commit, hsession]
    exact hle

def World.delivers (w : World) : Action → List Message
  | .receive => w.inFlight
  | _ => []

def Action.accepts : Action → List Message
  | .type m => [m]
  | _ => []

theorem Orderly.step
    (hfresh : ∀ n, inputKey sessionId.val n ∉ journal.keys) (hstep : UnbrokenStep config action w w') :
    Orderly config sessionId journal w' (committed ++ w.delivers action) := by
  obtain ⟨hstep, hunbroken⟩ := hstep
  cases hstep with
  | type hsequence htext => exact (append_nil committed).symm ▸ h.type hsequence
  | poll hcurrent => exact (append_nil committed).symm ▸ h.poll hcurrent
  | look hserved => exact (append_nil committed).symm ▸ h.look hserved hunbroken
  | receive hcurrent hserved =>
    obtain rfl := inFlight_answered hcurrent hserved
    exact h.receive hfresh
  | fail => exact (append_nil committed).symm ▸ h.fail hunbroken

end

theorem typed_step (hstep : Step config action w w') : w'.typed = w.typed ++ action.accepts := by
  cases hstep with
  | type hsequence htext => rfl
  | _ => exact (append_nil _).symm

theorem Orderly.moves (h : Orderly config sessionId journal w committed)
    (hfresh : ∀ n, inputKey sessionId.val n ∉ journal.keys) (hstep : UnbrokenStep config action w w') :
    w.delivers action ++ (w'.inFlight ++ w'.inbox.messages) = (w.inFlight ++ w.inbox.messages) ++ action.accepts := by
  have hafter := (h.step hfresh hstep).typed
  rw [typed_step hstep.1, h.typed] at hafter
  simpa using hafter.symm

end Orderly

end Pluribus.Cli
