import Mathlib.Data.List.Pairwise
import Pluribus.Listen.World

namespace Pluribus.Listen

open Lib Pluribus.Core Pluribus.Runtime List Option Function

variable {w w' : World} {old : Journal String Proposal} {session : String} {front : Option Message}

theorem kept_pollOutput (kept : Kept) (session : String) (front : Option Message) :
    ((if kept.session = some session then [] else [Mutation.setSession session]) ++
      front.toList.map fun m : Message => Mutation.setCursor m.sequence.repr).foldl Kept.apply kept =
    ⟨(front.map fun m : Message => m.sequence.repr).or kept.cursor, some session⟩ := by
  obtain ⟨cursor, previous⟩ := kept
  by_cases hsame : previous = some session <;> cases front <;> simp [hsame, Kept.apply]

theorem after_pollOutput (kept : Kept) (session : String) (h : ∀ m, front = some m → m.sequence ≤ u64Max) :
    Kept.after ⟨(front.map fun m => m.sequence.repr).or kept.cursor, some session⟩ =
      front.elim kept.after Message.sequence := by
  cases front with
  | none => rfl
  | some m =>
    have hparse : Text.parseU64 m.sequence.repr.toList = some m.sequence := parseU64_repr (h m rfl)
    rw [Kept.after, map_some, some_or, bind_some, hparse, getD_some, elim_some]

/-- The connector has committed an answer. -/
def World.keep (w : World) (session : String) (front : Option Message) : World :=
  { w with
    journal := w.journal.record (front.toList.map fun m => entry m.request)
    kept := ⟨(front.map fun m => m.sequence.repr).or w.kept.cursor, some session⟩
    phase := .listening }

theorem commit_answer (h : w.reply = some (Inbox.answer session front)) : w.commit = some (w.keep session front) := by
  simp only [World.commit, h, bind_some, pollOutput_answer, Except.toOption, map_some, World.committed,
    kept_pollOutput, List.map_map]
  rfl

theorem changed_ne (subscription : Subscription) : subscription.changed ≠ .streaming false false := by
  cases subscription <;> nofun

/-- The steps of the listener that only concern the subscription leave the connector something to do, unless no
message waits. -/
theorem quiet_next {limit : Nat} {action : Action}
    (haction : action = .announce ∨ action = .subscribe ∨ action = .check ∨ action = .notify)
    (hnext : w.next limit action = some w') :
    ∃ owed subscription, (subscription ≠ .streaming false false ∨ w.inbox.messages = []) ∧
      w' = { w with owed := owed, subscription := subscription } := by
  rcases haction with rfl | rfl | rfl | rfl
  · change w.announce = some w' at hnext
    unfold World.announce at hnext
    split at hnext
    · cases hnext
    · cases hnext
      exact ⟨_, _, .inl (changed_ne _), rfl⟩
  · change w.subscribe = some w' at hnext
    unfold World.subscribe at hnext
    split at hnext
    · cases hnext
      exact ⟨w.owed, .watching false, .inl nofun, rfl⟩
    · cases hnext
  · change w.check = some w' at hnext
    unfold World.check at hnext
    split at hnext
    · cases hnext
      refine ⟨_, _, ?_, rfl⟩
      by_cases hempty : w.inbox.messages = []
      · exact .inr hempty
      · refine .inl fun heq => hempty ?_
        injection heq with _ hwritten
        simpa using hwritten
    · cases hnext
  · change w.notify = some w' at hnext
    unfold World.notify at hnext
    split at hnext
    · cases hnext
      exact ⟨w.owed, .streaming false true, .inl nofun, rfl⟩
    · cases hnext

/-- An answer that the connector has and has not committed: it is of an earlier listener, or its message is the first
of the inbox, or was. -/
structure Reply (w : World) (session : String) (front : Option Message) : Prop where
  known : session ∈ w.sessions
  arrived : ∀ m, front = some m → m.request ∈ w.accepted ∧ m.sequence ≤ u64Max
  outdated : session ≠ w.inbox.session → w.kept.session ≠ some w.inbox.session
  numbered : session = w.inbox.session → ∀ m, front = some m →
    m.sequence ≤ w.inbox.sequence ∧ (w.kept.session = some session → w.kept.after < m.sequence)
  first : session = w.inbox.session → ∀ f, front = some f → ∀ m ∈ w.inbox.messages, m.sequence ≤ f.sequence → m = f
  rest : w.Due ∨ ∀ m ∈ w.inbox.messages, entry m.request ∈ w.journal.entries ∨ front = some m

/-- Of the polls that wait none acknowledges more than what the connector keeps, what it keeps acknowledges nothing
that is not committed, and it does not sleep while a message waits. -/
structure Sound (old : Journal String Proposal) (w : World) : Prop where
  current : w.inbox.session ∈ w.sessions
  keptKnown : ∀ session, w.kept.session = some session → session ∈ w.sessions
  ids : (w.accepted.map Request.requestId).Nodup
  arrived : ∀ m ∈ w.inbox.messages, m.request ∈ w.accepted
  entered : ∀ r ∈ w.accepted, receivedKey r.requestId ∈ w.journal.keys → entry r ∈ w.journal.entries
  recorded : ∀ e ∈ w.journal.entries, e ∈ old.entries ∨ ∃ r ∈ w.accepted, e = entry r
  behind : w.kept.session = some w.inbox.session → w.kept.after ≤ w.inbox.sequence
  acknowledged : w.kept.session = some w.inbox.session →
    ∀ m ∈ w.inbox.messages, m.sequence ≤ w.kept.after → entry m.request ∈ w.journal.entries
  waiting : ∀ connection request, w.served connection = .waiting request → ∃ kept : Kept, request = pollRequest kept ∧
    (kept.session = some w.inbox.session → w.kept.session = some w.inbox.session ∧ kept.after ≤ w.kept.after)
  asked : ∀ connection request, w.phase = .polling connection → w.served connection = .waiting request →
    request = pollRequest w.kept
  reply : ∀ answer, w.reply = some answer → ∃ session front, answer = Inbox.answer session front ∧ Reply w session front
  awake : w.phase = .listening → w.Due ∨ ∀ m ∈ w.inbox.messages, entry m.request ∈ w.journal.entries

theorem sound_start (session : String) (journal : Journal String Proposal) :
    Sound journal (.start session journal) where
  current := mem_singleton.mpr rfl
  keptKnown _ h := by cases h
  ids := nodup_nil
  arrived m hm := by cases hm
  entered r hr := by cases hr
  recorded e he := .inl he
  behind h := by cases h
  acknowledged h := by cases h
  waiting _ _ h := by cases h
  asked _ _ h := by cases h
  reply _ h := by cases h
  awake h := by cases h

namespace Sound

section

variable (h : Sound old w)

include h

theorem arrive {limit : Nat} {request : Request} (hnext : w.arrive limit request = some w') : Sound old w' := by
  unfold World.arrive at hnext
  split at hnext
  · cases hnext
  rename_i hfresh
  rw [not_or] at hfresh
  obtain ⟨inbox, hinbox, rfl⟩ := map_eq_some_iff.mp hnext
  obtain ⟨hsession, hsequence, hmessages⟩ := messages_enqueue hinbox
  have hdue : World.Due { w with inbox := inbox, owed := w.owed + 1, accepted := w.accepted ++ [request] } :=
    .inr (Nat.succ_pos _)
  constructor
  · exact hsession ▸ h.current
  · exact h.keptKnown
  · rw [map_append, nodup_append]
    refine ⟨h.ids, nodup_singleton _, fun id hid other hother heq => ?_⟩
    rw [mem_singleton.mp hother] at heq
    exact hfresh.1 (heq ▸ hid)
  · intro m hm
    rw [hmessages] at hm
    rcases mem_append.mp hm with hold | hnew
    · exact mem_append_left _ (h.arrived m hold)
    · rw [mem_singleton.mp hnew]
      exact mem_append_right _ (mem_singleton.mpr rfl)
  · intro r hr hkey
    rcases mem_append.mp hr with hold | hnew
    · exact h.entered r hold hkey
    · rw [mem_singleton.mp hnew] at hkey
      exact absurd hkey hfresh.2
  · intro e he
    rcases h.recorded e he with hold | ⟨r, hr, heq⟩
    · exact .inl hold
    · exact .inr ⟨r, mem_append_left _ hr, heq⟩
  · intro hkept
    rw [hsequence]
    exact Nat.le_succ_of_le (h.behind (hsession ▸ hkept))
  · intro hkept m hm hle
    rw [hsession] at hkept
    rw [hmessages] at hm
    rcases mem_append.mp hm with hold | hnew
    · exact h.acknowledged hkept m hold hle
    · -- the new message has a number that is not acknowledged
      rw [mem_singleton.mp hnew] at hle
      have := h.behind hkept
      dsimp only at hle
      omega
  · intro connection request hserved
    rw [hsession]
    exact h.waiting connection request hserved
  · exact h.asked
  · intro answer hreply
    obtain ⟨session, front, hanswer, hfront⟩ := h.reply answer hreply
    refine ⟨session, front, hanswer, hfront.known, fun m hm => ?_, ?_, ?_, ?_, .inl hdue⟩
    · exact ⟨mem_append_left _ (hfront.arrived m hm).1, (hfront.arrived m hm).2⟩
    · dsimp only
      rw [hsession]
      exact hfront.outdated
    · intro hcurrent m hm
      rw [hsequence]
      have hnumbered := hfront.numbered (hsession ▸ hcurrent) m hm
      exact ⟨Nat.le_succ_of_le hnumbered.1, hnumbered.2⟩
    · intro hcurrent f hf m hm hle
      rw [hsession] at hcurrent
      rw [hmessages] at hm
      rcases mem_append.mp hm with hold | hnew
      · exact hfront.first hcurrent f hf m hold hle
      · rw [mem_singleton.mp hnew] at hle
        have := (hfront.numbered hcurrent f hf).1
        dsimp only at hle
        omega
  · exact fun _ => .inl hdue

/-- The listener may always change the subscription so that the connector has something to do, and where no message
waits it need not. -/
theorem subscription {owed : Nat} {subscription : Subscription}
    (hs : subscription ≠ .streaming false false ∨ w.inbox.messages = []) :
    Sound old { w with owed := owed, subscription := subscription } := by
  have hempty : ∀ {P : Message → Prop}, World.Due { w with owed := owed, subscription := subscription } ∨
      ∀ m ∈ w.inbox.messages, P m := by
    rcases hs with hs | hs
    · exact .inl (.inl hs)
    · rw [hs]
      exact .inr fun m hm => by cases hm
  refine { h with reply := fun answer hreply => ?_, awake := fun _ => hempty }
  obtain ⟨session, front, hanswer, hfront⟩ := h.reply answer hreply
  exact ⟨session, front, hanswer, { hfront with rest := hempty }⟩

theorem shrink {inbox : Inbox} (hinbox : w.inbox.Shrinks inbox) :
    Sound old { w with inbox := inbox } := by
  constructor
  · exact hinbox.session ▸ h.current
  · exact h.keptKnown
  · exact h.ids
  · exact fun m hm => h.arrived m (hinbox.messages hm)
  · exact h.entered
  · exact h.recorded
  · dsimp only
    rw [hinbox.session, hinbox.sequence]
    exact h.behind
  · dsimp only
    rw [hinbox.session]
    exact fun hkept m hm => h.acknowledged hkept m (hinbox.messages hm)
  · dsimp only
    rw [hinbox.session]
    exact h.waiting
  · exact h.asked
  · intro answer hreply
    obtain ⟨session, front, hanswer, hfront⟩ := h.reply answer hreply
    refine ⟨session, front, hanswer, hfront.known, hfront.arrived, ?_, ?_, ?_, ?_⟩
    · dsimp only
      rw [hinbox.session]
      exact hfront.outdated
    · dsimp only
      rw [hinbox.session, hinbox.sequence]
      exact hfront.numbered
    · dsimp only
      rw [hinbox.session]
      exact fun hcurrent f hf m hm => hfront.first hcurrent f hf m (hinbox.messages hm)
    · exact hfront.rest.imp_right fun hall m hm => hall m (hinbox.messages hm)
  · exact fun hlistening => (h.awake hlistening).imp_right fun hall m hm => hall m (hinbox.messages hm)

theorem restart {session : String} (hnext : w.restart session = some w') : Sound old w' := by
  unfold World.restart at hnext
  split at hnext
  · cases hnext
  rename_i hnew
  have hw := some.inj hnext
  have hkept : w.kept.session ≠ some session := fun heq => hnew (h.keptKnown session heq)
  have hwaiting : ∀ connection request, w'.served connection ≠ .waiting request := by
    intro connection request hserved
    rw [← hw] at hserved
    dsimp only at hserved
    split at hserved
    · cases hserved
    · rename_i hne
      exact hne request hserved
  subst hw
  refine ⟨mem_cons_self, fun other hother => mem_cons_of_mem _ (h.keptKnown other hother), h.ids, ?_, h.entered,
    h.recorded, fun heq => absurd heq hkept, fun heq => absurd heq hkept,
    fun connection request hserved => absurd hserved (hwaiting connection request),
    fun connection request _ hserved => absurd hserved (hwaiting connection request), fun answer hreply => ?_,
    fun _ => .inl (.inl (by simp))⟩
  · exact fun m hm => by cases hm
  · have hreply' : w.reply = some answer := by
      unfold World.reply at hreply ⊢
      dsimp only at hreply
      split at hreply
      · rename_i connection hphase
        cases hserved : w.served connection with
        | answered other => simpa [hserved] using hreply
        | _ => simp [hserved] at hreply
      · cases hreply
    obtain ⟨other, front, hanswer, hfront⟩ := h.reply answer hreply'
    have hother : other ≠ session := fun heq => hnew (heq ▸ hfront.known)
    exact ⟨other, front, hanswer, mem_cons_of_mem _ hfront.known, hfront.arrived, fun _ => hkept,
      fun heq => absurd heq hother, fun heq => absurd heq hother, .inl (.inl (by simp))⟩

theorem answer {connection : Nat} {answer : Json}
    (hreply : w.phase = .polling connection → ∃ session front, answer = Inbox.answer session front ∧ Reply w session front) :
    Sound old { w with served := update w.served connection (.answered answer) } := by
  have hwaiting : ∀ other request, update w.served connection (.answered answer) other = .waiting request →
      w.served other = .waiting request := by
    intro other request hother
    by_cases hsame : other = connection
    · rw [hsame, update_self] at hother
      cases hother
    · rwa [update_of_ne hsame] at hother
  refine { h with
    waiting := fun other request hother => h.waiting other request (hwaiting other request hother)
    asked := fun other request hphase hother => h.asked other request hphase (hwaiting other request hother)
    reply := fun answer' hanswer' => ?_ }
  have hfound : ∃ session front, answer' = Inbox.answer session front ∧ Reply w session front := by
    unfold World.reply at hanswer'
    dsimp only at hanswer'
    split at hanswer'
    · rename_i other hphase
      by_cases hsame : other = connection
      · rw [hsame, update_self] at hanswer'
        cases hanswer'
        exact hreply (hsame ▸ hphase)
      · rw [update_of_ne hsame] at hanswer'
        apply h.reply answer'
        unfold World.reply
        rw [hphase]
        exact hanswer'
    · cases hanswer'
  obtain ⟨session, front, hanswer, hfront⟩ := hfound
  exact ⟨session, front, hanswer, { hfront with }⟩

/-- What the connector learns from its own poll: the first message that it has not acknowledged. -/
theorem replies {subscription : Subscription}
    (hmore : 1 < (w.inbox.acknowledge w.kept.session w.kept.after).messages.length →
      subscription ≠ .streaming false false) :
    Reply { w with
      inbox := w.inbox.acknowledge w.kept.session w.kept.after
      subscription := subscription } w.inbox.session
      (w.inbox.acknowledge w.kept.session w.kept.after).messages.head? := by
  have hshrinks : w.inbox.Shrinks (w.inbox.acknowledge w.kept.session w.kept.after) := shrinks_acknowledge _ _
  have hmem : ∀ m, (w.inbox.acknowledge w.kept.session w.kept.after).messages.head? = some m → m ∈ w.inbox.messages :=
    fun m hm => hshrinks.messages (mem_of_head? hm)
  refine ⟨h.current, fun m hm => ?_, fun hne => absurd hshrinks.session.symm hne, fun _ m hm => ⟨?_, fun hkept => ?_⟩,
    fun _ f hf m hm hle => Inbox.head_le hf hm hle, ?_⟩
  · exact ⟨h.arrived m (hmem m hm), (w.inbox.numbered m (hmem m hm)).2.trans w.inbox.bounded⟩
  · dsimp only
    rw [hshrinks.sequence]
    exact (w.inbox.numbered m (hmem m hm)).2
  · exact head_acknowledge hm hkept
  · by_cases hlength : 1 < (w.inbox.acknowledge w.kept.session w.kept.after).messages.length
    · exact .inl (.inl (hmore hlength))
    · -- a single message is the first
      refine .inr fun m hm => .inr ?_
      cases hmessages : (w.inbox.acknowledge w.kept.session w.kept.after).messages with
      | nil =>
        rw [hmessages] at hm
        cases hm
      | cons first rest =>
        rw [hmessages] at hm hlength
        have hrest : rest = [] := by
          rw [length_cons] at hlength
          exact length_eq_zero_iff.mp (by omega)
        rw [hrest] at hm
        rw [mem_singleton.mp hm, head?_cons]

theorem served {connection : Nat} (hnext : w.serve connection = some w') :
    ∃ kept : Kept, w.served connection = .waiting (pollRequest kept) ∧ (w.phase = .polling connection → kept = w.kept) ∧
      (kept.session = some w.inbox.session → w.kept.session = some w.inbox.session ∧ kept.after ≤ w.kept.after) ∧
      w' = { w with
        inbox := w.inbox.acknowledge kept.session kept.after
        served := update w.served connection
          (.answered (Inbox.answer w.inbox.session (w.inbox.acknowledge kept.session kept.after).messages.head?))
        subscription := if decide ((w.inbox.acknowledge kept.session kept.after).messages.length > 1)
          then w.subscription.changed else w.subscription } := by
  unfold World.serve at hnext
  split at hnext
  · rename_i request hserved
    have hrequest : ∃ kept, request = pollRequest kept ∧ (w.phase = .polling connection → kept = w.kept) ∧
        (kept.session = some w.inbox.session → w.kept.session = some w.inbox.session ∧ kept.after ≤ w.kept.after) := by
      by_cases hphase : w.phase = .polling connection
      · exact ⟨w.kept, h.asked connection request hphase hserved, fun _ => rfl, fun hsession => ⟨hsession, le_rfl⟩⟩
      · obtain ⟨kept, hrequest, hkept⟩ := h.waiting connection request hserved
        exact ⟨kept, hrequest, fun heq => absurd heq hphase, hkept⟩
    obtain ⟨kept, rfl, hown, hkept⟩ := hrequest
    rw [dispatchPoll_pollRequest] at hnext
    cases hnext
    exact ⟨kept, hserved, hown, hkept, rfl⟩
  · cases hnext

theorem serve {connection : Nat} (hnext : w.serve connection = some w') : Sound old w' := by
  obtain ⟨kept, -, hown, -, rfl⟩ := h.served hnext
  have hshrunk := h.shrink (shrinks_acknowledge kept.session kept.after)
  have hnotified : Sound old { w with
      inbox := w.inbox.acknowledge kept.session kept.after
      subscription := if decide ((w.inbox.acknowledge kept.session kept.after).messages.length > 1)
        then w.subscription.changed else w.subscription } := by
    split
    · exact hshrunk.subscription (.inl (changed_ne _))
    · exact hshrunk
  refine hnotified.answer fun hphase => ⟨_, _, rfl, ?_⟩
  obtain rfl := hown hphase
  refine h.replies fun hlength => ?_
  rw [if_pos (decide_eq_true hlength)]
  exact changed_ne _

theorem connect (hnext : w.connect = some w') : Sound old w' := by
  unfold World.connect at hnext
  split at hnext
  · cases hnext
    exact { h with asked := nofun, reply := nofun, awake := fun _ => .inl (.inl nofun) }
  · cases hnext

theorem fail : Sound old w.fail := { h with asked := nofun, reply := nofun, awake := nofun }

theorem wake (hnext : w.wake = some w') : Sound old w' := by
  unfold World.wake at hnext
  split at hnext
  · cases hnext
    refine { h with waiting := ?_, asked := ?_, reply := ?_, awake := nofun }
    · intro connection request hserved
      dsimp only at hserved
      by_cases hnew : connection = w.opened
      · rw [hnew, update_self] at hserved
        cases hserved
        exact ⟨w.kept, rfl, fun hsession => ⟨hsession, le_rfl⟩⟩
      · rw [update_of_ne hnew] at hserved
        exact h.waiting connection request hserved
    · intro connection request hphase hserved
      cases hphase
      dsimp only at hserved
      rw [update_self] at hserved
      cases hserved
      rfl
    · intro answer hreply
      simp [World.reply] at hreply
  · cases hnext

theorem entry_committed {m : Message} (harrived : m.request ∈ w.accepted) (hm : front = some m) :
    entry m.request ∈ (w.journal.record (front.toList.map fun m => entry m.request)).entries := by
  subst hm
  by_cases hkey : receivedKey m.request.requestId ∈ w.journal.keys
  · exact Journal.prefix_record.subset (h.entered m.request harrived hkey)
  · have hentries : (w.journal.record [entry m.request]).entries = w.journal.entries ++ [entry m.request] :=
      Journal.entries_enter hkey
    rw [toList_some, map_singleton, hentries]
    exact mem_append_right _ (mem_singleton.mpr rfl)

theorem committed (hfront : Reply w session front)
    (hrenewed : front = none → w.kept.session = some session ∨ w.kept.after = 0) : Sound old (w.keep session front) := by
  have hprefix : w.journal.entries <+: (w.journal.record (front.toList.map fun m => entry m.request)).entries :=
    Journal.prefix_record
  have hafter : (w.keep session front).kept.after = _ :=
    after_pollOutput w.kept session fun m hm => (hfront.arrived m hm).2
  constructor
  · exact h.current
  · intro other hother
    cases hother
    exact hfront.known
  · exact h.ids
  · exact h.arrived
  · intro r hr hkey
    rcases Journal.mem_keys_record.mp hkey with hold | ⟨e, he, heq⟩
    · exact hprefix.subset (h.entered r hr hold)
    · obtain ⟨m, hm, rfl⟩ := mem_map.mp he
      have hsome : front = some m := mem_toList.mp hm
      have hsame : m.request = r :=
        inj_on_of_nodup_map h.ids (hfront.arrived m hsome).1 hr (receivedKey_inj heq)
      exact hsame ▸ h.entry_committed (hfront.arrived m hsome).1 hsome
  · intro e he
    rcases Journal.mem_record he with hold | hnew
    · exact h.recorded e hold
    · obtain ⟨m, hm, rfl⟩ := mem_map.mp hnew
      exact .inr ⟨m.request, (hfront.arrived m (mem_toList.mp hm)).1, rfl⟩
  · intro hsession
    have hcurrent : session = w.inbox.session := some.inj hsession
    rw [hafter]
    cases front with
    | some f => exact (hfront.numbered hcurrent f rfl).1
    | none =>
      rcases hrenewed rfl with hsame | hzero
      · exact h.behind (hcurrent ▸ hsame)
      · exact hzero ▸ Nat.zero_le _
  · intro hsession m hm hle
    have hcurrent : session = w.inbox.session := some.inj hsession
    rw [hafter] at hle
    cases front with
    | some f =>
      rw [hfront.first hcurrent f rfl m hm hle]
      exact h.entry_committed (hfront.arrived f rfl).1 rfl
    | none =>
      rcases hrenewed rfl with hsame | hzero
      · exact hprefix.subset (h.acknowledged (hcurrent ▸ hsame) m hm hle)
      · have := (w.inbox.numbered m hm).1
        rw [elim_none, hzero] at hle
        omega
  · intro connection request hserved
    obtain ⟨kept, hrequest, hkept⟩ := h.waiting connection request hserved
    refine ⟨kept, hrequest, fun hsession => ?_⟩
    obtain ⟨hown, hle⟩ := hkept hsession
    have hcurrent : session = w.inbox.session := by
      by_contra hne
      exact hfront.outdated hne hown
    rw [hafter, hcurrent]
    refine ⟨rfl, ?_⟩
    cases front with
    | some f => exact hle.trans ((hfront.numbered hcurrent f rfl).2 (hcurrent ▸ hown)).le
    | none => exact hle
  · nofun
  · nofun
  · intro _
    exact hfront.rest.imp_right fun hall m hm => (hall m hm).elim (fun hdone => hprefix.subset hdone)
      fun hm => h.entry_committed (hfront.arrived m hm).1 hm

end

end Sound

/-- An answer without messages is committed only if it is of the session the connector knows, or the connector has
acknowledged nothing. -/
def World.Renewed (w : World) : Action → Prop
  | .commit => ∀ session, w.reply = some (Inbox.answer session none) → w.kept.session = some session ∨ w.kept.after = 0
  | _ => True

theorem Sound.quiet (h : Sound old w) {limit : Nat} {action : Action}
    (haction : action = .announce ∨ action = .subscribe ∨ action = .check ∨ action = .notify)
    (hnext : w.next limit action = some w') : Sound old w' := by
  obtain ⟨owed, subscription, hs, rfl⟩ := quiet_next haction hnext
  exact h.subscription hs

theorem Sound.next (h : Sound old w) {limit : Nat} {action : Action} (hnext : w.next limit action = some w')
    (hrenewed : w.Renewed action) : Sound old w' := by
  cases action with
  | arrive request => exact h.arrive hnext
  | announce | subscribe | check | notify => exact h.quiet (by simp) hnext
  | leave id =>
    cases hnext
    exact h.shrink (shrinks_remove id)
  | restart session => exact h.restart hnext
  | connect => exact h.connect hnext
  | wake => exact h.wake hnext
  | serve connection => exact h.serve hnext
  | commit =>
    change w.commit = some w' at hnext
    cases hreply : w.reply with
    | none => simp [World.commit, hreply] at hnext
    | some answer =>
      obtain ⟨session, front, rfl, hfront⟩ := h.reply answer hreply
      rw [commit_answer hreply] at hnext
      cases hnext
      exact h.committed hfront fun hnone => hrenewed session (hnone ▸ hreply)
  | fail =>
    cases hnext
    exact h.fail

end Pluribus.Listen
