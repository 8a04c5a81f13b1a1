import Pluribus.Lib.Course
import Pluribus.Listen.Sound

namespace Pluribus.Listen

open Lib Pluribus.Core Pluribus.Runtime List Option

variable {w w' : World} {old : Journal String Proposal} {m : Message}

def World.Acks (w : World) (m : Message) : Prop := w.kept.session = some w.inbox.session ∧ m.sequence ≤ w.kept.after

instance (w : World) (m : Message) : Decidable (w.Acks m) := inferInstanceAs (Decidable (_ ∧ _))

theorem Sound.serve_acks (h : Sound old w) {connection : Nat} (hnext : w.serve connection = some w')
    (hm : m ∈ w.inbox.messages) (hgone : m ∉ w'.inbox.messages) : w.Acks m := by
  obtain ⟨kept, -, -, hkept, rfl⟩ := h.served hnext
  obtain ⟨hsession, hle⟩ := mem_acknowledge hm hgone
  exact ⟨(hkept hsession).1, hle.trans (hkept hsession).2⟩

theorem Sound.serve_committed (h : Sound old w) {connection : Nat} (hnext : w.serve connection = some w')
    (hm : m ∈ w.inbox.messages) (hgone : m ∉ w'.inbox.messages) : entry m.request ∈ w.journal.entries := by
  obtain ⟨hsession, hle⟩ := h.serve_acks hnext hm hgone
  exact h.acknowledged hsession m hm hle

section Distance

/-- The messages that come to the connector before the given one. -/
def World.ahead (w : World) (m : Message) : List Message :=
  w.inbox.messages.filter fun other => other.sequence < m.sequence ∧ ¬ w.Acks other

/-- The connector has an answer whose message is still the first that waits. -/
def World.Fresh (w : World) : Prop :=
  ∃ f, w.reply = some (Inbox.answer w.inbox.session (some f)) ∧ w.inbox.messages.head? = some f ∧ ¬ w.Acks f

open Classical in
/-- How far a message is from being committed: the messages ahead of it, and an answer that brings none of them. -/
noncomputable def World.distance (w : World) (m : Message) : Nat :=
  2 * (w.ahead m).length + if w.reply.isSome ∧ ¬ w.Fresh then 1 else 0

theorem distance_le (hahead : (w'.ahead m).length ≤ (w.ahead m).length)
    (hfresh : w'.reply.isSome → ¬ w'.Fresh → w.reply.isSome ∧ ¬ w.Fresh) : w'.distance m ≤ w.distance m := by
  unfold World.distance
  split
  · rename_i hstale
    rw [if_pos (hfresh hstale.1 hstale.2)]
    omega
  · omega

structure Nears (w w' : World) (m : Message) : Prop where
  stays : m ∈ w'.inbox.messages
  distance : w'.distance m ≤ w.distance m

theorem nears_of_eq (hm : m ∈ w.inbox.messages) (hinbox : w'.inbox = w.inbox) (hkept : w'.kept = w.kept)
    (hreply : w'.reply = w.reply ∨ w'.reply = none) : Nears w w' m := by
  have hacks : ∀ other, w'.Acks other ↔ w.Acks other := by
    intro other
    rw [World.Acks, World.Acks, hinbox, hkept]
  refine ⟨hinbox ▸ hm, distance_le ?_ fun hsome hfresh => ?_⟩
  · simp only [World.ahead, hinbox, hacks]
    exact le_rfl
  · rcases hreply with hsame | hnone
    · simpa only [World.Fresh, hsame, hinbox, hacks] using And.intro hsome hfresh
    · rw [hnone] at hsome
      cases hsome

theorem nears_arrive {limit : Nat} {request : Request} (hnext : w.arrive limit request = some w')
    (hm : m ∈ w.inbox.messages) : Nears w w' m := by
  unfold World.arrive at hnext
  split at hnext
  · cases hnext
  obtain ⟨inbox, hinbox, rfl⟩ := map_eq_some_iff.mp hnext
  obtain ⟨hsession, -, hmessages⟩ := messages_enqueue hinbox
  have hacks : ∀ other, World.Acks { w with inbox := inbox, owed := w.owed + 1, accepted := w.accepted ++ [request] } other ↔
      w.Acks other := by
    intro other
    simp only [World.Acks, hsession]
  have hlast : ¬ (w.inbox.sequence + 1 < m.sequence) := by
    have := (w.inbox.numbered m hm).2
    omega
  refine ⟨?_, distance_le ?_ fun hsome hfresh => ⟨hsome, fun ⟨f, hreply, hhead, hf⟩ => hfresh ⟨f, ?_, ?_, ?_⟩⟩⟩
  · dsimp only
    rw [hmessages]
    exact mem_append_left _ hm
  · simp only [World.ahead, hacks]
    rw [hmessages, filter_append]
    simp [hlast]
  · dsimp only
    rw [hsession]
    exact hreply
  · dsimp only
    rw [hmessages, head?_append, hhead, some_or]
  · rwa [hacks]

theorem nears_leave {id : String} (hid : m.request.requestId ≠ id) (hm : m ∈ w.inbox.messages) :
    Nears w { w with inbox := w.inbox.remove id } m := by
  refine ⟨mem_remove hid hm, ?_⟩
  have hahead : (World.ahead { w with inbox := w.inbox.remove id } m).Sublist (w.ahead m) :=
    Sublist.filter _ eraseP_sublist
  by_cases hfresh : w.Fresh
  · obtain ⟨f, hreply, hhead, hf⟩ := hfresh
    obtain ⟨rest, hmessages⟩ := head?_eq_some_iff.mp hhead
    have hremoved : (w.inbox.remove id).messages = (f :: rest).eraseP fun m => m.request.requestId = id := by
      rw [← hmessages]
      rfl
    by_cases hleaves : f.request.requestId = id
    · -- the first message was ahead of the given one
      have hrest : m ∈ rest := by
        rw [hmessages] at hm
        exact (mem_cons.mp hm).resolve_left fun heq => hid (heq ▸ hleaves)
      have hless : f.sequence < m.sequence := by
        have hordered := w.inbox.ordered
        rw [hmessages] at hordered
        exact (pairwise_cons.mp hordered).1 m hrest
      have hbefore : w.ahead m = f :: World.ahead { w with inbox := w.inbox.remove id } m := by
        simp only [World.ahead, hremoved]
        rw [hmessages, filter_cons_of_pos (by simpa using ⟨hless, hf⟩),
          eraseP_cons_of_pos (by simpa using hleaves)]
        rfl
      have := congrArg length hbefore
      rw [length_cons] at this
      unfold World.distance
      split <;> split <;> omega
    · refine distance_le hahead.length_le fun _ hnot => absurd ⟨f, hreply, ?_, hf⟩ hnot
      rw [hremoved, eraseP_cons_of_neg (by simpa using hleaves), head?_cons]
  · refine distance_le hahead.length_le fun hsome _ => ⟨hsome, hfresh⟩

theorem Sound.nears_serve (h : Sound old w) {connection : Nat} (hnext : w.serve connection = some w')
    (hm : m ∈ w.inbox.messages) (huncommitted : entry m.request ∉ w.journal.entries) : Nears w w' m := by
  have hstays : m ∈ w'.inbox.messages := by
    by_contra hgone
    exact huncommitted (h.serve_committed hnext hm hgone)
  obtain ⟨kept, hserved, hown, hkept, rfl⟩ := h.served hnext
  have hshrinks : w.inbox.Shrinks (w.inbox.acknowledge kept.session kept.after) := shrinks_acknowledge _ _
  refine ⟨hstays, distance_le ?_ fun hsome hnot => ?_⟩
  · refine Sublist.length_le ?_
    simp only [World.ahead, World.Acks, hshrinks.session]
    exact (sublist_acknowledge _ _).filter _
  · by_cases hphase : w.phase = .polling connection
    · -- the connector's own poll brings the first message it has not acknowledged
      obtain rfl := hown hphase
      obtain ⟨f, rest, hmessages⟩ := exists_cons_of_ne_nil (ne_nil_of_mem hstays)
      have hhead : (w.inbox.acknowledge w.kept.session w.kept.after).messages.head? = some f := by
        rw [hmessages, head?_cons]
      refine absurd ⟨f, ?_, hhead, fun hacks => ?_⟩ hnot
      · simp [World.reply, hphase, hhead, hshrinks.session]
      · rw [World.Acks, hshrinks.session] at hacks
        exact absurd (head_acknowledge hhead hacks.1) (Nat.not_lt.mpr hacks.2)
    · have hreply : World.reply { w with
          served := Function.update w.served connection (.answered
            (Inbox.answer w.inbox.session (w.inbox.acknowledge kept.session kept.after).messages.head?)) } = w.reply := by
        unfold World.reply
        cases hwho : w.phase with
        | polling other =>
          have hother : other ≠ connection := fun heq => hphase (heq ▸ hwho)
          simp [Function.update_of_ne hother]
        | _ => rfl
      refine ⟨hreply ▸ hsome, fun hfresh => ?_⟩
      obtain ⟨f, hf, hhead, hacks⟩ := hfresh
      refine hnot ⟨f, ?_, ?_, ?_⟩
      · dsimp only
        rw [hshrinks.session]
        exact hreply.trans hf
      · dsimp only
        rw [acknowledge_of_head hhead fun h => hacks ⟨(hkept h.1).1, h.2.trans (hkept h.1).2⟩]
        exact hhead
      · rwa [World.Acks, hshrinks.session]

theorem distance_listening (h : w.phase = .listening) : w.distance m = 2 * (w.ahead m).length := by
  simp [World.distance, World.reply, h]

theorem Reply.acks_committed {session : String} {front : Option Message} (hfront : Reply w session front)
    {other : Message} (hacks : w.Acks other) : (w.keep session front).Acks other := by
  have hcurrent : session = w.inbox.session := by
    by_contra hne
    exact hfront.outdated hne hacks.1
  refine ⟨congrArg some hcurrent, ?_⟩
  rw [World.keep, after_pollOutput w.kept session fun m hm => (hfront.arrived m hm).2]
  cases front with
  | none => exact hacks.2
  | some f => exact hacks.2.trans ((hfront.numbered hcurrent f rfl).2 (hcurrent ▸ hacks.1)).le

theorem acks_front {f : Message} (hf : f ∈ w.inbox.messages) (other : Message) :
    (w.keep w.inbox.session (some f)).Acks other ↔ other.sequence ≤ f.sequence := by
  have hbound : ∀ m, some f = some m → m.sequence ≤ u64Max := by
    rintro m ⟨⟩
    exact (w.inbox.numbered f hf).2.trans w.inbox.bounded
  unfold World.Acks World.keep
  rw [after_pollOutput w.kept w.inbox.session hbound]
  exact ⟨And.right, fun hle => ⟨rfl, hle⟩⟩

theorem Sound.nears_commit (h : Sound old w) (hnext : w.commit = some w') (hm : m ∈ w.inbox.messages) :
    entry m.request ∈ w'.journal.entries ∨ (m ∈ w'.inbox.messages ∧ w'.distance m < w.distance m) := by
  by_cases hfresh : w.Fresh
  · obtain ⟨f, hreply, hhead, hf⟩ := hfresh
    rw [commit_answer hreply] at hnext
    cases hnext
    have hmem : f ∈ w.inbox.messages := mem_of_head? hhead
    by_cases hsame : m = f
    · left
      rw [hsame]
      exact h.entry_committed (h.arrived f hmem) rfl
    · right
      refine ⟨hm, ?_⟩
      obtain ⟨rest, hmessages⟩ := head?_eq_some_iff.mp hhead
      have hordered := w.inbox.ordered
      rw [hmessages] at hordered hm
      have hlater := (pairwise_cons.mp hordered).1
      have hless : f.sequence < m.sequence := hlater m ((mem_cons.mp hm).resolve_left hsame)
      have hbefore : w.ahead m = f :: rest.filter fun other => other.sequence < m.sequence ∧ ¬ w.Acks other := by
        rw [World.ahead, hmessages, filter_cons_of_pos (by simpa using ⟨hless, hf⟩)]
      have hafter : ((w.keep w.inbox.session (some f)).ahead m).Sublist
          (rest.filter fun other => other.sequence < m.sequence ∧ ¬ w.Acks other) := by
        simp only [World.ahead, acks_front hmem]
        rw [World.keep, hmessages, filter_cons_of_neg (by simp)]
        refine monotone_filter_right rest fun other hother => ?_
        rw [decide_eq_true_eq] at hother ⊢
        refine ⟨hother.1, fun hacks => hf ⟨hacks.1, ?_⟩⟩
        have := hacks.2
        omega
      have hlength := hafter.length_le
      have := congrArg length hbefore
      rw [length_cons] at this
      rw [distance_listening rfl]
      unfold World.distance
      omega
  · right
    cases hreply : w.reply with
    | none => simp [World.commit, hreply] at hnext
    | some answer =>
      obtain ⟨session, front, rfl, hfront⟩ := h.reply answer hreply
      rw [commit_answer hreply] at hnext
      cases hnext
      refine ⟨hm, ?_⟩
      have hafter : ((w.keep session front).ahead m).Sublist (w.ahead m) := by
        refine monotone_filter_right w.inbox.messages fun other hother => ?_
        rw [decide_eq_true_eq] at hother ⊢
        exact ⟨hother.1, fun hacks => hother.2 (hfront.acks_committed hacks)⟩
      have hlength := hafter.length_le
      rw [distance_listening rfl]
      unfold World.distance
      rw [if_pos ⟨hreply ▸ rfl, hfresh⟩]
      omega

/-- A step that is no commit, does not take the message and does not restart the listener. -/
theorem Sound.nears (h : Sound old w) {limit : Nat} {action : Action} (hnext : w.next limit action = some w')
    (hm : m ∈ w.inbox.messages) (huncommitted : entry m.request ∉ w.journal.entries) (hcommit : action ≠ .commit)
    (hleave : action ≠ .leave m.request.requestId) (hrestart : ∀ session, action ≠ .restart session) :
    Nears w w' m := by
  cases action with
  | arrive request => exact nears_arrive hnext hm
  | leave id =>
    cases hnext
    exact nears_leave (fun heq => hleave (heq ▸ rfl)) hm
  | restart session => exact absurd rfl (hrestart session)
  | serve connection => exact h.nears_serve hnext hm huncommitted
  | commit => exact absurd rfl hcommit
  | connect =>
    change w.connect = some w' at hnext
    unfold World.connect at hnext
    split at hnext
    · cases hnext
      exact nears_of_eq hm rfl rfl (.inr rfl)
    · cases hnext
  | wake =>
    change w.wake = some w' at hnext
    unfold World.wake at hnext
    split at hnext
    · cases hnext
      exact nears_of_eq hm rfl rfl (.inr (by simp [World.reply]))
    · cases hnext
  | fail =>
    cases hnext
    exact nears_of_eq hm rfl rfl (.inr rfl)
  | _ =>
    obtain ⟨owed, subscription, -, rfl⟩ := quiet_next (by simp) hnext
    exact nears_of_eq hm rfl rfl (.inl rfl)

end Distance

section Runs

variable (limit : Nat)

def RenewedStep (action : Action) (w w' : World) : Prop := w.next limit action = some w' ∧ w.Renewed action

def Runs : World → World → Prop := Relation.ReflTransGen fun w w' => ∃ action, RenewedStep limit action w w'

variable {limit}

theorem Sound.runs (h : Sound old w) (hruns : Runs limit w w') : Sound old w' := by
  induction hruns with
  | refl => exact h
  | tail _ hstep ih =>
    obtain ⟨action, hnext, hrenewed⟩ := hstep
    exact ih.next hnext hrenewed

theorem journal_next {action : Action} (hnext : w.next limit action = some w') :
    (action ≠ .commit → w'.journal = w.journal) ∧ w.journal.entries <+: w'.journal.entries := by
  cases action with
  | commit =>
    obtain ⟨answer, -, hanswer⟩ := bind_eq_some_iff.mp hnext
    obtain ⟨output, -, rfl⟩ := map_eq_some_iff.mp hanswer
    exact ⟨fun hne => absurd rfl hne, Journal.prefix_record⟩
  | _ =>
    have hsame : w'.journal = w.journal := by
      grind [World.next, World.arrive, World.announce, World.restart, World.connect, World.subscribe, World.check,
        World.notify, World.wake, World.serve, World.fail, map_eq_some_iff]
    exact ⟨fun _ => hsame, hsame ▸ prefix_rfl⟩

end Runs

section Received

variable {limit : Nat} {session : String} {journal : Journal String Proposal}

theorem sound_course (run : Course (RenewedStep limit)) (hstart : run.state 0 = .start session journal) (n : Nat) :
    Sound journal (run.state n) := by
  have hfirst : Sound journal (run.state 0) := hstart ▸ sound_start session journal
  exact run.always hfirst (fun k _ h => h.next (run.steps k).1 (run.steps k).2) n (Nat.zero_le n)

theorem message_committed (run : Course (RenewedStep limit)) (hstart : run.state 0 = .start session journal)
    (hfair : ∀ n, ∃ k, n ≤ k ∧ (run.label k = .commit ∨ (run.state k).Idle)) {n : Nat}
    (hm : m ∈ (run.state n).inbox.messages)
    (hpending : ∀ k, n ≤ k → run.label k ≠ .leave m.request.requestId ∧ ∀ session, run.label k ≠ .restart session) :
    ∃ k, n ≤ k ∧ entry m.request ∈ (run.state k).journal.entries := by
  by_cases hdone : entry m.request ∈ (run.state n).journal.entries
  · exact ⟨n, le_rfl, hdone⟩
  refine run.eventually (I := fun w => m ∈ w.inbox.messages ∧ entry m.request ∉ w.journal.entries)
    (Q := fun w => entry m.request ∈ w.journal.entries) (fun w => w.distance m) hfair ⟨hm, hdone⟩ ?_ ?_
  · rintro k - ⟨hk, hundone⟩ hcounts
    have h := sound_course run hstart k
    rcases hcounts with hcommit | ⟨hlistening, hnotdue⟩
    · have hnext := (run.steps k).1
      rw [hcommit] at hnext
      by_cases hentered : entry m.request ∈ (run.state (k + 1)).journal.entries
      · exact .inl hentered
      · obtain ⟨hstays, hless⟩ := (h.nears_commit hnext hk).resolve_left hentered
        exact .inr ⟨⟨hstays, hentered⟩, hless⟩
    · -- the connector does not sleep while the message waits
      exact absurd ((h.awake hlistening).resolve_left hnotdue m hk) hundone
  · rintro k hn ⟨hk, hundone⟩ hcounts
    have h := sound_course run hstart k
    have hcommit : run.label k ≠ .commit := fun heq => hcounts (.inl heq)
    obtain ⟨hstays, hle⟩ := h.nears (run.steps k).1 hk hundone hcommit (hpending k hn).1 (hpending k hn).2
    rw [(journal_next (run.steps k).1).1 hcommit]
    exact ⟨⟨hstays, hundone⟩, hle⟩

/-- As long as an answer without messages is never of a new session while the connector keeps a cursor of the old
one: a poll only takes requests out of the inbox that are committed, nothing is recorded but requests that arrived,
and a request that stays pending is committed once, if the connector commits answers again and again or sleeps. -/
theorem requests_received_once (limit : Nat) (session : String) (journal : Journal String Proposal) :
    (∀ w, Runs limit (.start session journal) w →
      (∀ e ∈ w.journal.entries, e ∈ journal.entries ∨ ∃ r ∈ w.accepted, e = entry r) ∧
      ∀ connection w', w.serve connection = some w' → ∀ m ∈ w.inbox.messages, m ∉ w'.inbox.messages →
        entry m.request ∈ w.journal.entries) ∧
    ∀ run : Course (RenewedStep limit), run.state 0 = .start session journal →
      (∀ n, ∃ k, n ≤ k ∧ (run.label k = .commit ∨ (run.state k).Idle)) →
      ∀ n, ∀ m ∈ (run.state n).inbox.messages,
        (∀ k, n ≤ k → run.label k ≠ .leave m.request.requestId ∧ ∀ session, run.label k ≠ .restart session) →
        ∃ k, n ≤ k ∧ ∀ later, k ≤ later → entry m.request ∈ (run.state later).journal.entries ∧
          (run.state later).journal.keys.count (receivedKey m.request.requestId) = 1 := by
  refine ⟨fun w hruns => ?_, fun run hstart hfair n m hm hpending => ?_⟩
  · have h := (sound_start session journal).runs hruns
    exact ⟨h.recorded, fun connection w' hnext m hm hgone => h.serve_committed hnext hm hgone⟩
  · obtain ⟨k, hk, hentry⟩ := message_committed run hstart hfair hm hpending
    refine ⟨k, hk, fun later hlater => ?_⟩
    have hlasts := run.always (I := fun w => entry m.request ∈ w.journal.entries) hentry
      (fun n _ h => (journal_next (run.steps n).1).2.subset h) later hlater
    exact ⟨hlasts, Journal.count_keys (mem_map_of_mem (f := Prod.fst) hlasts)⟩

end Received

def sampleRequest (id : String) : Request := ⟨id, "hook", "github/receive", "POST", "/", [], "", 0, 8000⟩

/-- A request arrives and is committed; from there on nothing changes. -/
def receivedLabel (n : Nat) : Action :=
  [.connect, .subscribe, .check, .arrive (sampleRequest "a"), .announce, .notify, .wake, .serve 0, .commit].getD n
    (.leave "nobody")

def receivedState : Nat → World
  | 0 => .start "one" .empty
  | n + 1 => ((receivedState n).next 1048576 (receivedLabel n)).getD (receivedState n)

theorem receivedState_rest (n : Nat) : receivedState (n + 9) = receivedState 9 := by
  induction n with
  | zero => rfl
  | succ n ih =>
    change ((receivedState (n + 9)).next 1048576 (.leave "nobody")).getD (receivedState (n + 9)) = _
    rw [ih]
    rfl

theorem receivedLabel_cases (n : Nat) : receivedLabel n ≠ .leave "a" ∧ (∀ session, receivedLabel n ≠ .restart session) ∧
    (receivedLabel n = .commit → (receivedState n).kept.after = 0) ∧
      ((receivedState n).next 1048576 (receivedLabel n)).isSome = true := by
  match n with
  | 0 | 1 | 2 | 3 | 4 | 5 | 6 | 7 | 8 => exact ⟨nofun, nofun, fun _ => rfl, rfl⟩
  | n + 9 => exact ⟨(by decide : Action.leave "nobody" ≠ .leave "a"), nofun, nofun, rfl⟩

def receivedCourse : Course (RenewedStep 1048576) where
  state := receivedState
  label := receivedLabel
  steps n := by
    obtain ⟨-, -, hcommit, hsome⟩ := receivedLabel_cases n
    obtain ⟨w, hw⟩ := isSome_iff_exists.mp hsome
    refine ⟨by rw [receivedState, hw]; rfl, ?_⟩
    unfold World.Renewed
    split
    · exact fun _ _ => .inr (hcommit ‹_›)
    · trivial

theorem requests_received_once_sample : ∃ k, ∀ later, k ≤ later →
    (receivedCourse.state later).journal.keys.count (receivedKey "a") = 1 := by
  have hidle (n : Nat) : (receivedCourse.state (n + 9)).Idle := by
    change (receivedState (n + 9)).Idle
    rw [receivedState_rest]
    exact ⟨rfl, by unfold World.Due; decide +kernel⟩
  obtain ⟨k, -, hlater⟩ := (requests_received_once 1048576 "one" .empty).2 receivedCourse rfl
    (fun n => ⟨n + 9, by omega, .inr (hidle n)⟩) 4 ⟨1, sampleRequest "a", (sampleRequest "a").toJson.bytes⟩
    (by decide +kernel) fun k _ => ⟨(receivedLabel_cases k).1, (receivedLabel_cases k).2.1⟩
  exact ⟨k, fun later h => (hlater later h).2⟩
/-- The connector commits two requests of the first listener. The second one wakes it with a request that has
left the inbox when the poll comes, and the next request has the number 2. -/
def sampleActions : List Action :=
  [.connect, .subscribe, .check, .arrive (sampleRequest "a"), .announce, .arrive (sampleRequest "b"), .announce,
    .notify, .wake, .serve 0, .commit, .notify, .wake, .serve 1, .commit,
    .restart "two", .fail, .connect, .subscribe, .arrive (sampleRequest "c"), .announce, .check, .leave "c",
    .wake, .serve 2, .commit, .arrive (sampleRequest "d"), .announce, .notify, .wake]

def World.run (limit : Nat) (w : World) (actions : List Action) : Option World :=
  actions.foldlM (fun w action => w.next limit action) w

def Reaches (limit : Nat) : World → World → Prop :=
  Relation.ReflTransGen fun w w' => ∃ action, w.next limit action = some w'

theorem run_reaches {limit : Nat} {actions : List Action} (h : w.run limit actions = some w') : Reaches limit w w' := by
  induction actions generalizing w with
  | nil =>
    cases h
    exact .refl
  | cons action actions ih =>
    obtain ⟨between, hnext, hrest⟩ := bind_eq_some_iff.mp h
    exact .head ⟨action, hnext⟩ (ih hrest)

/-- The poll takes a request out of the inbox that is not committed. -/
def World.discards (w : World) (connection : Nat) (m : Message) : Bool :=
  (w.serve connection).any fun w' => m ∈ w.inbox.messages ∧ m ∉ w'.inbox.messages ∧ entry m.request ∉ w.journal.entries

/-- After a restart of the listener a request that was never committed is acknowledged and discarded. -/
theorem empty_answer_discards_request :
    ∃ (w w' : World) (m : Message), Reaches 1048576 (.start "one" .empty) w ∧ w.serve 3 = some w' ∧
      m ∈ w.inbox.messages ∧ m ∉ w'.inbox.messages ∧ entry m.request ∉ w.journal.entries := by
  have hrun : ((World.start "one" .empty).run 1048576 sampleActions).any
      (·.discards 3 ⟨2, sampleRequest "d", (sampleRequest "d").toJson.bytes⟩) = true := by decide +kernel
  obtain ⟨w, hw, hdiscards⟩ := (any_eq_true _ _).mp hrun
  obtain ⟨w', hserve, hgone⟩ := (any_eq_true _ _).mp hdiscards
  exact ⟨w, w', _, run_reaches hw, hserve, of_decide_eq_true hgone⟩

end Pluribus.Listen
