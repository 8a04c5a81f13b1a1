import Pluribus.Lib.Course
import Pluribus.Email.Announcements
import Pluribus.Email.Delivery

namespace Pluribus.Email

open Lib Pluribus.Core Pluribus.Runtime List Option

section Progress

variable {render : StoredCursor → Fetched → Int → Except HostError Json} {config : Config} {account : Account}
  {uidValidity : Nat} {w w' : World} {around : Surroundings}

variable {cursor : StoredCursor} {label : Option Surroundings}

/-- The connector commits a batch, or finds nothing new and goes on to IDLE. -/
def Progress (label : Option Surroundings) (w w' : World) : Prop :=
  (∃ around cursor proposals complete, label = some around ∧ around.crash = false ∧ around.commit = .ok () ∧
      w.session.phase = .committing cursor proposals complete) ∨
    ∃ cursor cursor' pending tag, w.session.phase = .searchSince cursor pending ∧
      w'.session.phase = .idleBegin cursor' tag

theorem searched_in_vain {s : Session} {cursor' : StoredCursor} {pending : Pending} {tag : String}
    (hphase : s.phase = .searchSince cursor pending)
    (hidle : (s.step render config account around).2.phase = .idleBegin cursor' tag) :
    (∃ completion, s.completion = some completion ∧ completion.status = .ok ∧
      searchSince completion.untagged cursor.lastUid config.batch = []) ∧
    (s.step render config account around).1.any Act.isSend = true := by
  obtain ⟨connection, phase⟩ := s
  cases hphase
  unfold Session.step at hidle ⊢
  split at hidle
  · cases hidle
  rename_i hcrash
  rw [if_neg hcrash]
  cases hbuffer : connection.buffer with
  | nil =>
    simp only [Session.readOn, Connection.read, hbuffer] at hidle
    cases hchunk : around.chunk with
    | bytes responses | failed error => rw [hchunk] at hidle; cases hidle
    | empty =>
      rw [hchunk] at hidle
      dsimp only at hidle
      split at hidle <;> cases hidle
  | cons item rest =>
    cases item with
    | error error =>
      simp only [Session.readOn, Connection.read, hbuffer] at hidle
      cases hidle
    | ok response =>
      simp only [Session.readOn, Connection.read, hbuffer, received, Phase.pending, Pending.collect] at hidle ⊢
      cases hstatus : taggedStatus response pending.tag with
      | error error => rw [hstatus] at hidle; cases hidle
      | ok status =>
        cases status with
        | none => rw [hstatus] at hidle; cases hidle
        | some status =>
          simp only [hstatus, completed] at hidle ⊢
          cases hok : requireOk ⟨status, pending.untagged⟩ "UID SEARCH" with
          | error error => rw [hok] at hidle; cases hidle
          | ok =>
            simp only [hok] at hidle ⊢
            cases huids : searchSince pending.untagged cursor.lastUid config.batch with
            | cons uid uids =>
              simp only [huids, startBatch, issue] at hidle
              split at hidle <;> cases hidle
            | nil =>
              refine ⟨⟨⟨status, pending.untagged⟩, ?_, requireOk_ok hok, huids⟩, ?_⟩
              · simp [Session.completion, Phase.pending, hbuffer, hstatus]
              · simp only [huids, startBatch, startIdle, issue] at hidle ⊢
                cases hsend : around.send with
                | error error => rw [hsend] at hidle; cases hidle
                | ok => simp [Act.isSend]

/-- A message that stays in the mailbox and was not yet observed, seen from a world of the run. -/
structure Awaits (config : Config) (uidValidity boundary uid : Nat) (w : World) : Prop where
  consistent : Consistent config uidValidity w
  gone : w.scene.absent ⊆ w.scene.mail.expunged
  first : w.scene.books.boundary = some boundary
  above : boundary < uid
  present : w.scene.mail.Present uid

variable {boundary uid : Nat}

theorem Awaits.booked (h : Awaits config uidValidity boundary uid w) :
    ∃ cursor, w.scene.books.stored = some cursor ∧ Booked config uidValidity w.scene boundary cursor := by
  rcases h.consistent.kept with ⟨-, hnone, -⟩ | ⟨boundary', cursor, hcursor, hboundary, hbooked⟩
  · rw [h.first] at hnone
    cases hnone
  · rw [h.first, some.injEq] at hboundary
    subst hboundary
    exact ⟨cursor, hcursor, hbooked⟩

theorem Awaits.observed (h : Awaits config uidValidity boundary uid w) (hcursor : w.scene.books.stored = some cursor)
    (hle : uid ≤ cursor.lastUid) : messageKey config.mailbox uidValidity uid ∈ w.scene.books.journal.keys := by
  obtain ⟨cursor', hcursor', hbooked⟩ := h.booked
  rw [hcursor, some.injEq] at hcursor'
  subst hcursor'
  exact (hbooked.observed uid h.present.1 h.above hle).resolve_right fun hgone => h.present.2 (h.gone hgone)

/-- How far the cursor is from the message, and whether the last command knows of it. -/
def distance (uid : Nat) (w : World) : Nat :=
  2 * (uid + 1 - (w.scene.books.stored.map (·.lastUid)).getD 0) + if uid ∈ w.scene.asked.arrived then 0 else 1

theorem asked_arrived (hpresent : uid ∈ w.scene.mail.arrived)
    (hstep : SolicitedStep render config account uidValidity label w w') (h : uid ∈ w.scene.asked.arrived) :
    uid ∈ w'.scene.asked.arrived := by
  cases hstep.1 with
  | mail hmail => exact h
  | act hstored hasked hnow hanswer =>
    simp only [World.act, Scene.after]
    split
    · exact hpresent
    · exact h

theorem Awaits.distance_le (h : Awaits config uidValidity boundary uid w)
    (hstep : SolicitedStep render config account uidValidity label w w') : distance uid w' ≤ distance uid w := by
  have hasked := asked_arrived h.present.1 hstep
  obtain ⟨cursor, hcursor, -⟩ := h.booked
  obtain ⟨cursor', hcursor', hle⟩ := (h.consistent.step hstep).2.stored cursor hcursor
  simp only [distance, hcursor, hcursor', map_some, getD_some]
  by_cases hknown : uid ∈ w.scene.asked.arrived
  · rw [if_pos hknown, if_pos (hasked hknown)]
    omega
  · rw [if_neg hknown]
    split <;> omega

theorem books_issue (books : Books) (connection : Connection) (command : Command) (next : Pending → Phase) :
    (issue around connection command next).1.foldl Books.act books = books := by
  unfold issue
  split <;> rfl

variable (render config account) in
theorem stored_committing (answering : Mail) {proposals : List Proposal} {complete : Bool}
    (hphase : w.session.phase = .committing cursor proposals complete) (hcrash : around.crash = false)
    (hcommit : around.commit = .ok ()) :
    (w.act render config account around answering).scene.books.stored = some cursor := by
  simp only [World.act, Scene.after, Session.step, hphase, hcrash, hcommit, Bool.false_eq_true, if_false, foldl_cons]
  split
  · rw [startSearch, books_issue]
    rfl
  · rw [startIdle, books_issue]
    rfl

theorem Awaits.unknown (h : Awaits config uidValidity boundary uid w) {answering : Mail} {pending : Pending}
    {completion : Completion} (hphase : w.session.phase = .searchSince cursor pending) (hless : cursor.lastUid < uid)
    (hasked : w.scene.asked.Later answering) (hnow : answering.Later w.scene.mail)
    (hanswer : Answered uidValidity answering completion.untagged w.session.phase)
    (hvain : searchSince completion.untagged cursor.lastUid config.batch = []) : uid ∉ w.scene.asked.arrived := by
  intro hknown
  rw [hphase] at hanswer
  have hpresent : answering.Present uid := ⟨hasked.arrived hknown, fun hgone => h.present.2 (hnow.expunged hgone)⟩
  have hmem := mem_inRange.mpr ⟨hanswer.1 uid hpresent.1 hless hpresent, hless⟩
  have hpos := config.batch_pos
  have hlength : ((inRange completion.untagged cursor.lastUid).take config.batch).length = 0 :=
    congrArg length hvain
  have := length_pos_of_mem hmem
  rw [length_take] at hlength
  omega

/-- A step that counts brings the cursor nearer to the message, or the message is observed. -/
theorem Awaits.distance_lt (h : Awaits config uidValidity boundary uid w)
    (hstep : SolicitedStep render config account uidValidity label w w') (hprogress : Progress label w w') :
    messageKey config.mailbox uidValidity uid ∈ w.scene.books.journal.keys ∨ distance uid w' < distance uid w := by
  obtain ⟨cursor, hcursor, -⟩ := h.booked
  by_cases hle : uid ≤ cursor.lastUid
  · exact .inl (h.observed hcursor hle)
  have hgrows := (h.consistent.step hstep).2
  have hfits := h.consistent.fits
  rcases hprogress with ⟨around, cursor', proposals, complete, rfl, hcrash, hcommit, hphase⟩ |
    ⟨cursor', cursor'', pending, tag, hphase, hidle⟩
  · obtain ⟨hstep, -⟩ := hstep
    rw [hphase] at hfits
    obtain ⟨stored, hstored, hless, -⟩ := hfits
    rw [hcursor, some.injEq] at hstored
    subst hstored
    cases hstep with
    | act hread hasked hnow hanswer =>
      rename_i answering
      have hstored' := stored_committing render config account answering hphase hcrash hcommit
      simp only [distance, hcursor, hstored', map_some, getD_some]
      split <;> split <;> omega
  · rw [hphase] at hfits
    obtain rfl : cursor' = cursor := some.inj (hfits.symm.trans hcursor)
    obtain ⟨stored, hstored, hle'⟩ := hgrows.stored cursor' hcursor
    obtain ⟨hstep, -⟩ := hstep
    cases hstep with
    | mail hmail =>
      rw [hphase] at hidle
      cases hidle
    | act hread hasked hnow hanswer =>
      rename_i around answering
      obtain ⟨⟨completion, hcompletion, hok, hvain⟩, hsent⟩ := searched_in_vain hphase hidle
      have hunknown := h.unknown hphase (not_le.mp hle) hasked hnow (hanswer completion hcompletion hok) hvain
      have hknown' : uid ∈ (w.act render config account around answering).scene.asked.arrived := by
        simp only [World.act, Scene.after, hsent, if_true]
        exact h.present.1
      simp only [distance, hcursor, hstored, map_some, getD_some, if_neg hunknown, if_pos hknown']
      omega

end Progress

section Observed

variable (render : StoredCursor → Fetched → Int → Except HostError Json) (config : Config) (account : Account)
  (uidValidity : Nat)

/-- What the books say about the messages above the boundary, and about nothing else: one observation for each that
the stored cursor has passed, except for those that were gone when they were searched or fetched. -/
structure World.Delivered (w : World) : Prop where
  once : ∀ boundary cursor, w.scene.books.boundary = some boundary → w.scene.books.stored = some cursor →
    ∀ uid ∈ w.scene.mail.arrived, boundary < uid → uid ≤ cursor.lastUid →
      w.scene.books.journal.keys.count (messageKey config.mailbox uidValidity uid) = 1 ∨ uid ∈ w.scene.absent
  none : ∀ boundary, w.scene.books.boundary = some boundary → ∀ uid, uid ≤ boundary →
    messageKey config.mailbox uidValidity uid ∉ w.scene.books.journal.keys
  only : ∀ key ∈ w.scene.books.journal.keys, ∃ uid, key = messageKey config.mailbox uidValidity uid

theorem Consistent.delivered {config : Config} {uidValidity : Nat} {w : World} (h : Consistent config uidValidity w) :
    w.Delivered config uidValidity := by
  rcases h.kept with ⟨hstored, hboundary, hempty⟩ | ⟨boundary, cursor, hstored, hboundary, hbooked⟩
  · have hkeys : w.scene.books.journal.keys = [] := congrArg (map Prod.fst) hempty
    refine ⟨fun _ _ hsome => ?_, fun _ hsome => ?_, fun key hkey => ?_⟩
    · rw [hboundary] at hsome
      cases hsome
    · rw [hboundary] at hsome
      cases hsome
    · rw [hkeys] at hkey
      cases hkey
  · refine ⟨fun boundary' cursor' hboundary' hstored' uid huid hless hle => ?_, fun boundary' hboundary' uid hle hkey => ?_,
      fun key hkey => ?_⟩
    · rw [hboundary, some.injEq] at hboundary'
      rw [hstored, some.injEq] at hstored'
      subst hboundary' hstored'
      exact (hbooked.observed uid huid hless hle).imp Journal.count_keys id
    · rw [hboundary, some.injEq] at hboundary'
      obtain ⟨uid', heq, hless, -⟩ := hbooked.above _ hkey
      have := messageKey_inj heq
      omega
    · obtain ⟨uid, heq, -⟩ := hbooked.above key hkey
      exact ⟨uid, heq⟩

/-- A message that stays in the mailbox is observed once the connector makes progress again and again. -/
theorem present_observed (run : Course (SolicitedStep render config account uidValidity)) {mail : Mail}
    (hstart : run.state 0 = .start mail)
    (hfair : ∀ n, ∃ k, n ≤ k ∧ Progress (run.label k) (run.state k) (run.state (k + 1)))
    {start boundary uid : Nat} (hboundary : (run.state start).scene.books.boundary = some boundary)
    (habove : boundary < uid) (hpresent : ∀ n, start ≤ n → (run.state n).scene.mail.Present uid) :
    ∃ n, start ≤ n ∧ (run.state n).scene.books.journal.keys.count (messageKey config.mailbox uidValidity uid) = 1 := by
  have hbasic : ∀ n, Consistent config uidValidity (run.state n) ∧
      (run.state n).scene.absent ⊆ (run.state n).scene.mail.expunged := by
    intro n
    induction n with
    | zero =>
      rw [hstart]
      exact ⟨consistent_start mail, nil_subset _⟩
    | succ n ih => exact ⟨(ih.1.step (run.steps n)).1, absent_gone ih.2 (run.steps n)⟩
  have hnext : ∀ n, start ≤ n → Awaits config uidValidity boundary uid (run.state n) →
      Awaits config uidValidity boundary uid (run.state (n + 1)) := fun n hn h =>
    ⟨(hbasic (n + 1)).1, (hbasic (n + 1)).2, (h.consistent.step (run.steps n)).2.boundary _ h.first, habove,
      hpresent (n + 1) (Nat.le_succ_of_le hn)⟩
  obtain ⟨n, hn, hkey⟩ := run.eventually (I := Awaits config uidValidity boundary uid)
    (Q := fun w => messageKey config.mailbox uidValidity uid ∈ w.scene.books.journal.keys) (distance uid) hfair
    ⟨(hbasic start).1, (hbasic start).2, hboundary, habove, hpresent start le_rfl⟩
    (fun n hn h hprogress => (h.distance_lt (run.steps n) hprogress).imp
      (Journal.mem_keys_of_prefix (h.consistent.step (run.steps n)).2.journal) fun hless => ⟨hnext n hn h, hless⟩)
    (fun n hn h _ => ⟨hnext n hn h, h.distance_le (run.steps n)⟩)
  exact ⟨n, hn, Journal.count_keys hkey⟩

/-- Every message above the boundary is observed exactly once, whatever interrupts the connector: up to the stored
cursor in every world of a run, and in the end when it stays in the mailbox. The cursor does not go back. -/
theorem mail_observed_once (mail : Mail) :
    (∀ w, Runs render config account uidValidity (.start mail) w → w.Delivered config uidValidity) ∧
    (∀ w w', Runs render config account uidValidity (.start mail) w → Runs render config account uidValidity w w' →
      w.scene.books.Grows w'.scene.books) ∧
    ∀ run : Course (SolicitedStep render config account uidValidity), run.state 0 = .start mail →
      (∀ n, ∃ k, n ≤ k ∧ Progress (run.label k) (run.state k) (run.state (k + 1))) →
      ∀ start boundary uid, (run.state start).scene.books.boundary = some boundary → boundary < uid →
        (∀ n, start ≤ n → (run.state n).scene.mail.Present uid) →
        ∃ n, start ≤ n ∧
          (run.state n).scene.books.journal.keys.count (messageKey config.mailbox uidValidity uid) = 1 := by
  refine ⟨fun w hw => ?_, fun w w' hw hw' => ?_, ?_⟩
  · exact ((consistent_start mail).runs hw).1.delivered
  · exact (((consistent_start mail).runs hw).1.runs hw').2
  · intro run hstart hfair start boundary uid hboundary habove hpresent
    exact present_observed render config account uidValidity run hstart hfair hboundary habove hpresent

end Observed

section Sample

variable {w : World}

/-- A mailbox with one message, read from its beginning. -/
def sampleMail : Mail := ⟨[1], [], 2, by decide, by decide, by decide⟩

def importConfig : Config := { sampleConfig with importHistory := true }

def sampleResponses (size : List Response) : List Response :=
  ["* OK ready", "* CAPABILITY IMAP4rev2 IDLE", "p0001 OK done", "p0002 OK done", "* OK [UIDVALIDITY 7]",
    "* OK [UIDNEXT 2]", "p0003 OK done", "* SEARCH 1", "p0004 OK done"].map (⟨·, none⟩) ++ size ++
  [⟨"p0005 OK done", none⟩]

def sampleSize : Response := ⟨"* 1 FETCH (UID 1 RFC822.SIZE 10)", some ⟨some 1, some 10, none, none⟩⟩

def sampleFlags : Response := ⟨"* 1 FETCH (UID 1 FLAGS (Seen))", some ⟨some 1, none, none, none⟩⟩

def World.meets (w : World) (responses : List Response) : Surroundings :=
  { sampleAround [] with chunk := .bytes (responses.map .ok), stored := .ok w.scene.books.stored }

def World.served (responses : List Response) (w : World) : World :=
  w.act sampleRender importConfig sampleAccount (w.meets responses) w.scene.mail

/-- The server's answer is that of the mailbox as it is. -/
def World.permits (w : World) : Bool :=
  w.session.completion.all fun completion => completion.status ≠ .ok ||
    decide (Answered 7 w.scene.mail completion.untagged w.session.phase)

section

variable (responses : List Response) (hasked : w.scene.asked = w.scene.mail)

include responses hasked

theorem step_served (h : w.permits = true) :
    Step sampleRender importConfig sampleAccount 7 (some (w.meets responses)) w (w.served responses) := by
  refine .act (fun stored hstored => (Except.ok.inj hstored).symm) (hasked ▸ .refl _) (.refl _) ?_
  intro completion hcompletion hok
  unfold World.permits at h
  rw [hcompletion] at h
  simpa [hok] using h

theorem asked_served : (w.served responses).scene.asked = (w.served responses).scene.mail := by
  simp only [World.served, World.act, Scene.after]
  split
  · rfl
  · exact hasked

theorem served_reaches {P : World → Prop} (n : Nat)
    (h : ∀ k < n, ((World.served responses)^[k] w).permits = true ∧ P ((World.served responses)^[k] w)) :
    Relation.ReflTransGen (fun w w' => ∃ label, Step sampleRender importConfig sampleAccount 7 label w w' ∧ P w) w
      ((World.served responses)^[n] w) := by
  have hsame : ∀ k, ((World.served responses)^[k] w).scene.asked = ((World.served responses)^[k] w).scene.mail := by
    intro k
    induction k with
    | zero => exact hasked
    | succ k ih =>
      rw [Function.iterate_succ_apply']
      exact asked_served responses ih
  induction n with
  | zero => exact .refl
  | succ n ih =>
    rw [Function.iterate_succ_apply']
    obtain ⟨hpermits, hn⟩ := h n (by omega)
    exact .tail (ih fun k hk => h k (by omega)) ⟨_, step_served responses (hsame n) hpermits, hn⟩

end

def sampleBody : List Response :=
  [⟨"* 1 FETCH (UID 1 BODY[])", some ⟨some 1, none, none, some "hi".toUTF8.toList⟩⟩, ⟨"p0006 OK done", none⟩]

theorem mail_observed_once_sample : ∃ w, Runs sampleRender importConfig sampleAccount 7 (.start sampleMail) w ∧
    w.scene.books.stored = some ⟨7, 1⟩ ∧
    w.scene.books.journal.keys.count (messageKey importConfig.mailbox 7 1) = 1 := by
  have hruns : Runs sampleRender importConfig sampleAccount 7 (.start sampleMail)
      ((World.served (sampleResponses [sampleSize] ++ sampleBody))^[17] (.start sampleMail)) :=
    served_reaches (P := fun w => w.solicited = true) _ rfl 17 (by decide +kernel)
  have hdelivered := (mail_observed_once sampleRender importConfig sampleAccount 7 sampleMail).1 _ hruns
  refine ⟨_, hruns, by decide +kernel, ?_⟩
  refine (hdelivered.once 0 ⟨7, 1⟩ (by decide +kernel) (by decide +kernel) 1 (by decide +kernel) (by decide)
    (by decide)).resolve_right ?_
  decide +kernel

/-- A FETCH that tells the flags of the message comes before the one that tells its size: the message counts as
expunged, and the cursor passes it. -/
theorem unsolicited_fetch_loses_message :
    ∃ w, Relation.ReflTransGen (fun w w' => ∃ label, Step sampleRender importConfig sampleAccount 7 label w w')
      (.start sampleMail) w ∧ ¬ w.Delivered importConfig 7 := by
  have hreaches := served_reaches (w := .start sampleMail) (P := fun _ => True) (sampleResponses [sampleFlags, sampleSize])
    rfl 16 (by decide +kernel)
  simp only [and_true] at hreaches
  refine ⟨_, hreaches, fun h => ?_⟩
  rcases h.once 0 ⟨7, 1⟩ (by decide +kernel) (by decide +kernel) 1 (by decide +kernel) (by decide) (by decide) with
    hcount | habsent
  · exact absurd hcount (by decide +kernel)
  · exact absurd habsent (by decide +kernel)

end Sample

end Pluribus.Email
