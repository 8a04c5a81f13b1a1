import Pluribus.Email.Mail

namespace Pluribus.Email

open Lib Pluribus.Core Pluribus.Runtime List Option

section Invariant

variable (config : Config) (uidValidity : Nat)

def Proposed (proposals : List Proposal) (uid : Nat) : Prop :=
  ∃ p ∈ proposals, p.idempotencyKey = some (messageKey config.mailbox uidValidity uid)

structure Booked (scene : Scene) (boundary : Nat) (cursor : StoredCursor) : Prop where
  validity : cursor.uidValidity = uidValidity
  ordered : boundary ≤ cursor.lastUid
  given : cursor.lastUid < scene.mail.next
  observed : ∀ uid ∈ scene.mail.arrived, boundary < uid → uid ≤ cursor.lastUid →
    messageKey config.mailbox uidValidity uid ∈ scene.books.journal.keys ∨ uid ∈ scene.absent
  above : ∀ key ∈ scene.books.journal.keys, ∃ uid, key = messageKey config.mailbox uidValidity uid ∧
    boundary < uid ∧ uid ≤ cursor.lastUid

/-- The books are empty, or in order up to their cursor. -/
def Scene.kept (scene : Scene) : Prop :=
  (scene.books.stored = none ∧ scene.books.boundary = none ∧ scene.books.journal.entries = []) ∨
    ∃ boundary cursor, scene.books.stored = some cursor ∧ scene.books.boundary = some boundary ∧
      Booked config uidValidity scene boundary cursor

/-- A batch that has come from the stored cursor to another one, with the messages that are left of it. -/
structure Passing (scene : Scene) (stored cursor : StoredCursor) (proposals : List Proposal) (rest : List Nat) : Prop where
  validity : cursor.uidValidity = uidValidity
  ordered : stored.lastUid ≤ cursor.lastUid
  given : cursor.lastUid < scene.mail.next
  proposed : ∀ p ∈ proposals, ∃ uid, p.idempotencyKey = some (messageKey config.mailbox uidValidity uid) ∧
    stored.lastUid < uid ∧ uid ≤ cursor.lastUid
  covered : ∀ uid ∈ scene.mail.arrived, stored.lastUid < uid → uid ≤ cursor.lastUid →
    Proposed config uidValidity proposals uid ∨ uid ∈ scene.absent
  sorted : rest.Pairwise (· < ·)
  ahead : ∀ uid ∈ rest, cursor.lastUid < uid ∧ uid ∈ scene.mail.arrived
  left : ∀ uid ∈ scene.mail.arrived, cursor.lastUid < uid → uid ∈ rest ∨ uid ∈ scene.absent ∨ ∀ u ∈ rest, u < uid

def Phase.fits (scene : Scene) : Phase → Prop
  | .examine _ => ∀ stored, scene.books.stored = some stored → stored.lastUid < scene.asked.next
  | .highestUid _ _ => False
  | .opening cursor notice => notice = [] ∧ cursor.uidValidity = uidValidity ∧ cursor.lastUid < scene.mail.next ∧
      ∀ stored, scene.books.stored = some stored → cursor = stored
  | .searchSince cursor _ => scene.books.stored = some cursor
  | .idleBegin cursor _ => scene.books.stored = some cursor
  | .idle cursor _ _ => scene.books.stored = some cursor
  | .idleEnd cursor _ => scene.books.stored = some cursor
  | .fetchSize cursor batch _ => batch.uid ∈ scene.asked.arrived ∧ ∃ stored, scene.books.stored = some stored ∧
      Passing config uidValidity scene stored cursor batch.proposals (batch.uid :: batch.rest)
  | .fetchBody cursor batch _ _ => batch.uid ∈ scene.asked.arrived ∧ ∃ stored, scene.books.stored = some stored ∧
      Passing config uidValidity scene stored cursor batch.proposals (batch.uid :: batch.rest)
  | .committing cursor proposals _ => ∃ stored, scene.books.stored = some stored ∧ stored.lastUid < cursor.lastUid ∧
      Passing config uidValidity scene stored cursor proposals []
  | _ => True

structure Consistent (w : World) : Prop where
  kept : w.scene.kept config uidValidity
  fits : w.session.phase.fits config uidValidity w.scene

end Invariant

variable {config : Config} {uidValidity : Nat}

section Advance

variable {scene scene' : Scene}

structure Scene.Advances (scene scene' : Scene) : Prop where
  books : scene'.books = scene.books
  mail : scene.mail.Later scene'.mail
  absent : scene.absent ⊆ scene'.absent

theorem Booked.advance {boundary : Nat} {cursor : StoredCursor} (h : Booked config uidValidity scene boundary cursor)
    (hscene : scene.Advances scene') : Booked config uidValidity scene' boundary cursor where
  __ := h
  given := h.given.trans_le hscene.mail.next
  observed uid huid hboundary hcursor := by
    have hold := hscene.mail.arrived_of_lt huid (hcursor.trans_lt h.given)
    rw [hscene.books]
    exact (h.observed uid hold hboundary hcursor).imp id fun hgone => hscene.absent hgone
  above := by
    rw [hscene.books]
    exact h.above

theorem Scene.kept_advance (h : scene.kept config uidValidity) (hscene : scene.Advances scene') :
    scene'.kept config uidValidity := by
  unfold Scene.kept
  rw [hscene.books]
  rcases h with hnone | ⟨boundary, cursor, hstored, hboundary, hbooked⟩
  · exact .inl hnone
  · exact .inr ⟨boundary, cursor, hstored, hboundary, hbooked.advance hscene⟩

theorem Passing.advance {stored cursor : StoredCursor} {proposals : List Proposal} {rest : List Nat}
    (h : Passing config uidValidity scene stored cursor proposals rest) (hscene : scene.Advances scene') :
    Passing config uidValidity scene' stored cursor proposals rest where
  __ := h
  given := h.given.trans_le hscene.mail.next
  covered uid huid hstored hcursor := by
    have hold := hscene.mail.arrived_of_lt huid (hcursor.trans_lt h.given)
    exact (h.covered uid hold hstored hcursor).imp id fun hgone => hscene.absent hgone
  ahead uid huid := ⟨(h.ahead uid huid).1, hscene.mail.arrived (h.ahead uid huid).2⟩
  left uid huid hcursor := by
    rcases hscene.mail.grows uid huid with hold | hnew
    · exact (h.left uid hold hcursor).imp id (Or.imp (fun hgone => hscene.absent hgone) id)
    · exact .inr (.inr fun u hu => (scene.mail.bounded u (h.ahead u hu).2).trans_le hnew)

theorem Phase.fits_advance {phase : Phase} (h : phase.fits config uidValidity scene) (hscene : scene.Advances scene')
    (hasked : scene'.asked = scene.asked) : phase.fits config uidValidity scene' := by
  cases phase with
  | examine pending =>
    unfold Phase.fits
    rw [hscene.books, hasked]
    exact h
  | opening cursor notice =>
    refine ⟨h.1, h.2.1, h.2.2.1.trans_le hscene.mail.next, ?_⟩
    rw [hscene.books]
    exact h.2.2.2
  | searchSince cursor pending | idleBegin cursor tag | idle cursor tag entered | idleEnd cursor pending =>
    exact (congrArg Books.stored hscene.books).trans h
  | fetchSize cursor batch pending | fetchBody cursor batch size pending =>
    obtain ⟨harrived, stored, hstored, hpassing⟩ := h
    rw [← hasked] at harrived
    exact ⟨harrived, stored, (congrArg Books.stored hscene.books).trans hstored, hpassing.advance hscene⟩
  | committing cursor proposals complete =>
    obtain ⟨stored, hstored, hless, hpassing⟩ := h
    exact ⟨stored, (congrArg Books.stored hscene.books).trans hstored, hless, hpassing.advance hscene⟩
  | _ => exact h

end Advance

variable {scene : Scene} {proposals : List Proposal} {uid : Nat}

section Batch

variable {answering : Mail} {stored cursor : StoredCursor} {untagged : List Response} {rest : List Nat}

theorem passing_search {boundary : Nat} (hbooked : Booked config uidValidity scene boundary cursor)
    (hanswer : (∀ uid ∈ answering.arrived, cursor.lastUid < uid → answering.Present uid →
        uid ∈ untagged.flatMap Response.uids) ∧
      ∀ uid ∈ untagged.flatMap Response.uids, cursor.lastUid < uid → answering.Present uid)
    (hnow : answering.Later scene.mail) (habsent : answering.expunged.filter (cursor.lastUid < ·) ⊆ scene.absent) :
    Passing config uidValidity scene cursor cursor [] (searchSince untagged cursor.lastUid config.batch) := by
  have hpresent : ∀ u ∈ searchSince untagged cursor.lastUid config.batch, answering.Present u := fun u hu =>
    hanswer.2 u (mem_searchSince hu).1 (mem_searchSince hu).2
  refine ⟨hbooked.validity, le_rfl, hbooked.given, nofun, fun uid _ hlt hle => absurd hlt (not_lt_of_ge hle),
    searchSince_sorted, fun u hu => ⟨(mem_searchSince hu).2, ?_⟩, ?_⟩
  · exact hnow.arrived (hpresent u hu).1
  · intro uid huid hcursor
    rcases hnow.grows uid huid with hold | hnew
    · by_cases hgone : uid ∈ answering.expunged
      · exact .inr (.inl (habsent (mem_filter.mpr ⟨hgone, by simpa using hcursor⟩)))
      · rcases searchSince_cut (hanswer.1 uid hold hcursor ⟨hold, hgone⟩) hcursor with hmem | hlast
        · exact .inl hmem
        · exact .inr (.inr hlast)
    · exact .inr (.inr fun u hu => (answering.bounded u (hpresent u hu).1).trans_le hnew)

theorem Passing.pass (h : Passing config uidValidity scene stored cursor proposals (uid :: rest))
    {observation : List Proposal}
    (hobservation : ∀ p ∈ observation, p.idempotencyKey = some (messageKey config.mailbox uidValidity uid))
    (hpassed : Proposed config uidValidity observation uid ∨ uid ∈ scene.absent) :
    Passing config uidValidity scene stored { cursor with lastUid := max cursor.lastUid uid }
      (proposals ++ observation) rest := by
  obtain ⟨hahead, harrived⟩ := h.ahead uid mem_cons_self
  have hgiven := scene.mail.bounded uid harrived
  have hmax : max cursor.lastUid uid = uid := max_eq_right hahead.le
  obtain ⟨hfirst, hsorted⟩ := pairwise_cons.mp h.sorted
  rw [hmax]
  refine ⟨h.validity, h.ordered.trans hahead.le, hgiven, ?_, ?_, hsorted, fun u hu => ⟨hfirst u hu, ?_⟩, ?_⟩
  · intro p hp
    rcases mem_append.mp hp with hold | hnew
    · obtain ⟨u, hkey, hstored, hcursor⟩ := h.proposed p hold
      exact ⟨u, hkey, hstored, hcursor.trans hahead.le⟩
    · exact ⟨uid, hobservation p hnew, h.ordered.trans_lt hahead, le_rfl⟩
  · intro u hu hstored hle
    have hmono : ∀ {ps}, ps ⊆ proposals ++ observation → Proposed config uidValidity ps u →
        Proposed config uidValidity (proposals ++ observation) u := fun hsub ⟨p, hp, hkey⟩ => ⟨p, hsub hp, hkey⟩
    by_cases hcursor : u ≤ cursor.lastUid
    · exact (h.covered u hu hstored hcursor).imp (hmono (subset_append_left _ _)) id
    · rcases h.left u hu (not_le.mp hcursor) with hmem | habsent | hlast
      · rcases mem_cons.mp hmem with rfl | hlater
        · exact hpassed.imp (hmono (subset_append_right _ _)) id
        · exact absurd (hfirst u hlater) (not_lt_of_ge hle)
      · exact .inr habsent
      · exact absurd (hlast uid mem_cons_self) (not_lt_of_ge hle)
  · exact (h.ahead u (mem_cons_of_mem _ hu)).2
  · intro u hu hless
    rcases h.left u hu (hahead.trans hless) with hmem | habsent | hlast
    · rcases mem_cons.mp hmem with rfl | hlater
      · exact absurd hless (lt_irrefl _)
      · exact .inl hlater
    · exact .inr (.inl habsent)
    · exact .inr (.inr fun v hv => hlast v (mem_cons_of_mem _ hv))

theorem Passing.booked {boundary : Nat} (h : Passing config uidValidity scene stored cursor proposals [])
    (hbooked : Booked config uidValidity scene boundary stored) :
    Booked config uidValidity { scene with books := scene.books.act (.commit proposals cursor) } boundary cursor where
  validity := h.validity
  ordered := hbooked.ordered.trans h.ordered
  given := h.given
  observed uid huid hboundary hle := by
    have hkeys : ∀ key, key ∈ (scene.books.act (.commit proposals cursor)).journal.keys ↔ _ := fun key =>
      Journal.mem_keys_record
    by_cases hstored : uid ≤ stored.lastUid
    · exact (hbooked.observed uid huid hboundary hstored).imp (fun hkey => (hkeys _).mpr (.inl hkey)) id
    · refine (h.covered uid huid (not_le.mp hstored) hle).imp (fun ⟨p, hp, hkey⟩ => ?_) id
      exact (hkeys _).mpr (.inr ⟨p.keyed, mem_map_of_mem hp, by simp [Proposal.keyed, hkey]⟩)
  above key hkey := by
    rcases Journal.mem_keys_record.mp hkey with hold | ⟨e, he, rfl⟩
    · obtain ⟨uid, hkey, hboundary, hle⟩ := hbooked.above key hold
      exact ⟨uid, hkey, hboundary, hle.trans h.ordered⟩
    · obtain ⟨p, hp, rfl⟩ := mem_map.mp he
      obtain ⟨uid, hkey, hstored, hle⟩ := h.proposed p hp
      exact ⟨uid, by simp [Proposal.keyed, hkey], hbooked.ordered.trans_lt hstored, hle⟩

end Batch

variable {render : StoredCursor → Fetched → Int → Except HostError Json} {account : Account}

section Sound

variable {around : Surroundings} {connection : Connection}

variable {cursor : StoredCursor} {tag : String} {s : Session}

/-- What is recorded stays, the cursor does not go back, and its first value is remembered. -/
structure Books.Grows (books books' : Books) : Prop where
  journal : books.journal.entries <+: books'.journal.entries
  stored : ∀ cursor, books.stored = some cursor → ∃ cursor', books'.stored = some cursor' ∧
    cursor.lastUid ≤ cursor'.lastUid
  boundary : ∀ uid, books.boundary = some uid → books'.boundary = some uid

theorem Books.Grows.refl (books : Books) : books.Grows books :=
  ⟨prefix_rfl, fun cursor h => ⟨cursor, h, le_rfl⟩, fun _ => id⟩

theorem Books.Grows.trans {books books' books'' : Books} (h : books.Grows books') (h' : books'.Grows books'') :
    books.Grows books'' where
  journal := h.journal.trans h'.journal
  boundary uid hboundary := h'.boundary uid (h.boundary uid hboundary)
  stored cursor hcursor := by
    obtain ⟨cursor', hcursor', hle⟩ := h.stored cursor hcursor
    obtain ⟨cursor'', hcursor'', hle'⟩ := h'.stored cursor' hcursor'
    exact ⟨cursor'', hcursor'', hle.trans hle'⟩

theorem Books.grows_commit {books : Books} (h : ∀ stored, books.stored = some stored → stored.lastUid ≤ cursor.lastUid) :
    books.Grows (books.act (.commit proposals cursor)) where
  journal := Journal.prefix_record
  stored stored hstored := ⟨cursor, rfl, h stored hstored⟩
  boundary uid hboundary := by simp [Books.act, hboundary]

/-- Acts and the session after them leave books that are kept consistent, and the books only grow. -/
def Sound (config : Config) (uidValidity : Nat) (scene : Scene) (result : List Act × Session) : Prop :=
  scene.kept config uidValidity → Consistent config uidValidity ⟨result.2, scene.after result.1⟩ ∧
    scene.books.Grows (scene.after result.1).books

theorem sound_stay {phase : Phase} (h : phase.fits config uidValidity scene) :
    Sound config uidValidity scene ([], ⟨connection, phase⟩) := fun hkept => ⟨⟨hkept, h⟩, .refl _⟩

theorem sound_finish (result : Except HostError Unit) : Sound config uidValidity scene (finish connection result) :=
  sound_stay trivial

theorem advances_asked (scene : Scene) (asked : Mail) : scene.Advances { scene with asked := asked } :=
  ⟨rfl, .refl _, Subset.refl _⟩

theorem sound_issue {command : Command} {next : Pending → Phase}
    (h : ∀ tag, (next ⟨tag, []⟩).fits config uidValidity { scene with asked := scene.mail }) :
    Sound config uidValidity scene (issue around connection command next) := by
  unfold issue
  split
  · exact sound_finish _
  · exact fun hkept => ⟨⟨Scene.kept_advance hkept (advances_asked scene scene.mail), h _⟩, .refl _⟩

theorem sound_startSearch (h : scene.books.stored = some cursor) :
    Sound config uidValidity scene (startSearch around connection cursor) := sound_issue fun _ => h

theorem sound_startIdle (h : scene.books.stored = some cursor) :
    Sound config uidValidity scene (startIdle around connection cursor) := sound_issue fun _ => h

theorem sound_startBatch {uids : List Nat}
    (hstored : scene.books.stored = some cursor) (h : Passing config uidValidity scene cursor cursor [] uids) :
    Sound config uidValidity scene (startBatch config around connection cursor uids) := by
  cases uids with
  | nil => exact sound_startIdle hstored
  | cons uid rest =>
    have harrived := (h.ahead uid mem_cons_self).2
    exact sound_issue fun _ => ⟨harrived, cursor, hstored, h.advance (advances_asked scene scene.mail)⟩

theorem sound_passMessage {stored : StoredCursor} {batch : Batch} {observation : List Proposal}
    (hstored : scene.books.stored = some stored)
    (h : Passing config uidValidity scene stored cursor batch.proposals (batch.uid :: batch.rest))
    (hobservation : ∀ p ∈ observation, p.idempotencyKey = some (messageKey config.mailbox uidValidity batch.uid))
    (hpassed : Proposed config uidValidity observation batch.uid ∨ batch.uid ∈ scene.absent) :
    Sound config uidValidity scene (passMessage around connection cursor batch observation) := by
  have hpass := h.pass hobservation hpassed
  have hahead := (h.ahead batch.uid mem_cons_self).1
  unfold passMessage
  cases hrest : batch.rest with
  | nil =>
    rw [hrest] at hpass
    refine sound_stay ⟨stored, hstored, ?_, hpass⟩
    exact (h.ordered.trans_lt hahead).trans_le (le_max_right _ _)
  | cons uid rest =>
    rw [hrest] at hpass
    have harrived := (hpass.ahead uid mem_cons_self).2
    exact sound_issue fun _ => ⟨harrived, stored, hstored, hpass.advance (advances_asked scene scene.mail)⟩

theorem requireOk_ok {completion : Completion} {command : String} (h : requireOk completion command = .ok ()) :
    completion.status = .ok := by
  unfold requireOk at h
  split at h
  · assumption
  · cases h
  · cases h

theorem sound_open {answering : Mail} {opened : Mailbox}
    (hstored : ∀ stored, around.stored = .ok stored → stored = scene.books.stored)
    (hasked : ∀ stored, scene.books.stored = some stored → stored.lastUid < answering.next)
    (hnow : answering.Later scene.mail) (hvalidity : opened.uidValidity = uidValidity)
    (hnext : opened.uidNext = answering.next) :
    Sound config uidValidity scene (open_ config around connection opened) := by
  have hpos := answering.next_pos
  have hlater := hnow.next
  unfold open_
  split
  · exact sound_finish _
  rename_i stored hread
  obtain rfl := hstored stored hread
  intro hkept
  refine sound_stay ?_ hkept
  rcases hkept with ⟨hnone, -, -⟩ | ⟨boundary, cursor, hcursor, -, hbooked⟩
  · rw [hnone]
    refine ⟨rfl, hvalidity, ?_, fun stored hsome => by rw [hnone] at hsome; cases hsome⟩
    simp only [hnext]
    split <;> omega
  · have hmin : min cursor.lastUid (opened.uidNext - 1) = cursor.lastUid := by
      have := hasked cursor hcursor
      omega
    have hsame : cursor.uidValidity = opened.uidValidity := hbooked.validity.trans hvalidity.symm
    rw [hcursor]
    simp only [hsame, if_true, hmin]
    refine ⟨rfl, hvalidity, hbooked.given, fun stored hsome => ?_⟩
    rw [hcursor, some.injEq] at hsome
    rw [← hsome, ← hsame]

theorem size_of_solicited {untagged : List Response}
    (hsome : ∃ items ∈ untagged.filterMap Response.fetch, items.uid = some uid ∧ items.size.isSome = true)
    (hsolicited : ∀ items ∈ untagged.filterMap Response.fetch, items.uid = some uid → items.size.isSome = true) :
    ((fetchItems untagged uid).bind (·.size)).isSome = true := by
  unfold fetchItems
  cases hfind : (untagged.filterMap Response.fetch).find? (·.uid = some uid) with
  | none =>
    obtain ⟨items, hmem, huid, -⟩ := hsome
    exact absurd huid (by simpa using find?_eq_none.mp hfind items hmem)
  | some items =>
    exact hsolicited items (mem_of_find?_eq_some hfind) (by simpa using find?_some hfind)

theorem fetchItems_isSome {untagged : List Response}
    (hsome : ∃ items ∈ untagged.filterMap Response.fetch, items.uid = some uid) :
    (fetchItems untagged uid).isSome = true := by
  obtain ⟨items, hmem, huid⟩ := hsome
  rw [fetchItems, find?_isSome]
  exact ⟨items, hmem, by simpa using huid⟩

theorem gone_of_unanswered {answering : Mail} {found : Bool} (harrived : uid ∈ answering.arrived)
    (hanswer : answering.Present uid → found = true) (habsent : answering.expunged.filter (· = uid) ⊆ scene.absent)
    (hnone : found = false) : uid ∈ scene.absent := by
  by_contra hpresent
  have hgone : uid ∉ answering.expunged := fun h =>
    hpresent (habsent (mem_filter.mpr ⟨h, by simp⟩))
  rw [hanswer ⟨harrived, hgone⟩] at hnone
  cases hnone

section Completed

variable {answering : Mail} {phase : Phase} {completion : Completion}
  (hstored : ∀ stored, around.stored = .ok stored → stored = scene.books.stored)
  (hasked : scene.asked.Later answering) (hnow : answering.Later scene.mail)
  (habsent : phase.absentees answering ⊆ scene.absent)

include hstored hasked hnow habsent

theorem sound_completed (hfits : phase.fits config uidValidity scene)
    (hanswer : completion.status = .ok → Answered uidValidity answering completion.untagged phase)
    (hsolicited : ∀ cursor batch pending, phase = .fetchSize cursor batch pending →
      ∀ items ∈ completion.untagged.filterMap Response.fetch, items.uid = some batch.uid → items.size.isSome = true) :
    Sound config uidValidity scene (completed render config account around connection phase completion) := by
  cases phase with
  | capabilities pending =>
    simp only [completed]
    split
    · exact sound_finish _
    split
    · exact sound_finish _
    split
    · exact sound_finish _
    split
    · exact sound_finish _
    · exact sound_issue fun _ => trivial
  | login pending =>
    simp only [completed]
    split
    · split
      · exact sound_finish _
      · intro hkept
        refine sound_issue (fun _ stored hsome => ?_) hkept
        rcases hkept with ⟨hnone, -, -⟩ | ⟨boundary, cursor, hcursor, -, hbooked⟩
        · rw [hnone] at hsome
          cases hsome
        · rw [hcursor, some.injEq] at hsome
          exact hsome ▸ hbooked.given
    · exact sound_finish _
  | examine pending =>
    simp only [completed]
    split
    · exact sound_finish _
    rename_i hok
    obtain ⟨hopened, hnext⟩ := hanswer (requireOk_ok hok)
    split
    · exact sound_finish _
    rw [if_neg (by have := answering.next_pos; omega)]
    exact sound_open hstored (fun stored hsome => (hfits stored hsome).trans_le hasked.next) hnow hopened hnext
  | highestUid opened pending => exact hfits.elim
  | searchSince cursor pending =>
    simp only [completed]
    split
    · exact sound_finish _
    rename_i hok
    have hcursor : scene.books.stored = some cursor := hfits
    intro hkept
    rcases id hkept with ⟨hnone, -, -⟩ | ⟨boundary, stored, hsome, -, hbooked⟩
    · rw [hnone] at hcursor
      cases hcursor
    · rw [hcursor, some.injEq] at hsome
      subst hsome
      exact sound_startBatch hcursor (passing_search hbooked (hanswer (requireOk_ok hok)) hnow habsent) hkept
  | fetchSize cursor batch pending =>
    obtain ⟨harrived, stored, hsome, hpassing⟩ := hfits
    simp only [completed]
    split
    · exact sound_finish _
    rename_i hok
    split
    · rename_i hnone
      refine sound_passMessage hsome hpassing (by simp) (.inr ?_)
      have hfound : answering.Present batch.uid →
          ((fetchItems completion.untagged batch.uid).bind (·.size)).isSome = true := fun hpresent =>
        size_of_solicited (hanswer (requireOk_ok hok) hpresent) (hsolicited cursor batch pending rfl)
      exact gone_of_unanswered (hasked.arrived harrived) hfound habsent (by rw [hnone]; rfl)
    · exact sound_issue fun _ => ⟨hpassing.ahead batch.uid mem_cons_self |>.2, stored, hsome,
        hpassing.advance (advances_asked scene scene.mail)⟩
  | fetchBody cursor batch size pending =>
    obtain ⟨harrived, stored, hsome, hpassing⟩ := hfits
    simp only [completed]
    split
    · exact sound_finish _
    rename_i hok
    split
    · rename_i hnone
      refine sound_passMessage hsome hpassing (by simp) (.inr ?_)
      have hfound : answering.Present batch.uid → (fetchItems completion.untagged batch.uid).isSome = true :=
        fun hpresent => fetchItems_isSome (hanswer (requireOk_ok hok) hpresent)
      exact gone_of_unanswered (hasked.arrived harrived) hfound habsent (by rw [hnone]; rfl)
    split
    · exact sound_finish _
    · rw [hpassing.validity]
      refine sound_passMessage hsome hpassing ?_ (.inl ⟨_, mem_singleton_self _, rfl⟩)
      intro p hp
      rw [mem_singleton.mp hp]
      rfl
  | idleEnd cursor pending =>
    simp only [completed]
    split
    · exact sound_finish _
    · exact sound_startSearch hfits
  | _ => exact sound_stay hfits

end Completed

section

variable (h : scene.books.stored = some cursor)

include h

theorem sound_idleOn {entered : Nat} :
    Sound config uidValidity scene (idleOn around connection cursor tag entered) := by
  unfold idleOn
  split
  · exact sound_finish _
  · exact sound_stay h

theorem sound_leaveIdle : Sound config uidValidity scene (leaveIdle around connection cursor tag) := by
  unfold leaveIdle
  split
  · exact sound_finish _
  · exact fun hkept => ⟨⟨hkept, h⟩, .refl _⟩

theorem sound_idleRound {entered : Nat} :
    Sound config uidValidity scene (idleRound around connection cursor tag entered) := by
  unfold idleRound
  split
  · exact sound_leaveIdle h
  · exact sound_idleOn h

end

theorem fits_more {phase : Phase} {pending : Pending} {more : Pending → Phase}
    (hpending : phase.pending = some (pending, more)) (h : phase.fits config uidValidity scene) (pending' : Pending) :
    (more pending').fits config uidValidity scene := by
  cases phase <;> cases hpending <;> exact h

section Received

variable {phase : Phase} (hfits : phase.fits config uidValidity scene)

include hfits

theorem sound_nothing : Sound config uidValidity scene (received render config account around connection phase .nothing) := by
  cases phase with
  | idle cursor tag entered => exact sound_idleRound hfits
  | opening cursor notice | committing cursor proposals complete | ended result => exact sound_stay hfits
  | _ => exact sound_finish _

theorem sound_collected {pending : Pending} {more : Pending → Phase} {response : Response}
    (hpending : phase.pending = some (pending, more))
    (hcompleted : ∀ status, taggedStatus response pending.tag = .ok (some status) → Sound config uidValidity scene
      (completed render config account around connection phase ⟨status, pending.untagged⟩)) :
    Sound config uidValidity scene (match pending.collect (.response response) with
      | .more pending => ([], ⟨connection, more pending⟩)
      | .failed error => finish connection (.error error)
      | .complete completion => completed render config account around connection phase completion) := by
  simp only [Pending.collect]
  cases hstatus : taggedStatus response pending.tag with
  | error error => exact sound_finish _
  | ok status =>
    cases status with
    | none => exact sound_stay (fits_more hpending hfits _)
    | some status => exact hcompleted status hstatus

theorem sound_response {response : Response}
    (hcompleted : ∀ pending more status, phase.pending = some (pending, more) →
      taggedStatus response pending.tag = .ok (some status) → Sound config uidValidity scene
        (completed render config account around connection phase ⟨status, pending.untagged⟩)) :
    Sound config uidValidity scene (received render config account around connection phase (.response response)) := by
  cases phase with
  | greet =>
    simp only [received]
    split
    · exact sound_issue fun _ => trivial
    split <;> exact sound_finish _
  | idleBegin cursor tag =>
    simp only [received]
    split
    · exact sound_idleOn hfits
    split
    · exact sound_finish _
    · exact sound_stay hfits
  | idle cursor tag entered =>
    simp only [received]
    split
    · exact sound_leaveIdle hfits
    · exact sound_idleRound hfits
  | opening cursor notice | committing cursor proposals complete | ended result => exact sound_stay hfits
  | _ => exact sound_collected hfits rfl fun status => hcompleted _ _ status rfl

end Received

theorem sound_readActs {result : List Act × Session} (h : Sound config uidValidity scene result) :
    Sound config uidValidity scene (readActs s ++ result.1, result.2) := by
  have hafter : scene.after (readActs s ++ result.1) = scene.after result.1 := by
    unfold readActs
    split <;> rfl
  unfold Sound
  rw [hafter]
  exact h

theorem sound_readOn (hfits : s.phase.fits config uidValidity scene)
    (hcompleted : ∀ completion connection, s.completion = some completion → Sound config uidValidity scene
      (completed render config account around connection s.phase completion)) :
    Sound config uidValidity scene (s.readOn render config account around) := by
  have hreceived : Sound config uidValidity scene (received render config account around
      (s.connection.read around.chunk).2 s.phase (s.connection.read around.chunk).1) := ?_
  · exact sound_readActs hreceived
  cases hbuffer : s.connection.buffer with
  | cons item rest =>
    simp only [Connection.read, hbuffer]
    cases item with
    | ok response =>
      apply sound_response hfits
      intro pending more status hpending hstatus
      apply hcompleted
      simp [Session.completion, hpending, hbuffer, hstatus]
    | error error => cases s.phase <;> exact sound_finish _
  | nil =>
    simp only [Connection.read, hbuffer]
    cases around.chunk with
    | bytes responses => exact sound_stay hfits
    | failed error => cases s.phase <;> exact sound_finish _
    | empty =>
      dsimp only
      split
      · cases s.phase <;> exact sound_finish _
      · exact sound_nothing hfits

theorem sound_commit {result : List Act × Session}
    (hcursor : ∀ stored, scene.books.stored = some stored → stored.lastUid ≤ cursor.lastUid)
    (hkept : scene.kept config uidValidity →
      { scene with books := scene.books.act (.commit proposals cursor) }.kept config uidValidity)
    (h : Sound config uidValidity { scene with books := scene.books.act (.commit proposals cursor) } result) :
    Sound config uidValidity scene (.commit proposals cursor :: result.1, result.2) := fun hold =>
  ⟨(h (hkept hold)).1, (Books.grows_commit hcursor).trans (h (hkept hold)).2⟩

theorem kept_opening (hkept : scene.kept config uidValidity)
    (hfits : (Phase.opening cursor []).fits config uidValidity scene) :
    { scene with books := scene.books.act (.commit [] cursor) }.kept config uidValidity := by
  obtain ⟨-, hvalidity, hgiven, hsame⟩ := hfits
  rcases hkept with ⟨hnone, hboundary, hempty⟩ | ⟨boundary, stored, hsome, hboundary, hbooked⟩
  · refine .inr ⟨cursor.lastUid, cursor, rfl, by simp [Books.act, hboundary], hvalidity, le_rfl, hgiven, ?_, ?_⟩
    · intro uid huid hlt hle
      exact absurd hlt (not_lt_of_ge hle)
    · intro key hkey
      change key ∈ scene.books.journal.entries.map Prod.fst at hkey
      rw [hempty] at hkey
      cases hkey
  · obtain rfl := hsame stored hsome
    exact .inr ⟨boundary, cursor, rfl, by simp [Books.act, hboundary], { hbooked with }⟩

theorem kept_committing {complete : Bool} (hkept : scene.kept config uidValidity)
    (hfits : (Phase.committing cursor proposals complete).fits config uidValidity scene) :
    { scene with books := scene.books.act (.commit proposals cursor) }.kept config uidValidity := by
  obtain ⟨stored, hstored, -, hpassing⟩ := hfits
  rcases hkept with ⟨hnone, -, -⟩ | ⟨boundary, stored', hsome, hboundary, hbooked⟩
  · rw [hnone] at hstored
    cases hstored
  · rw [hstored, some.injEq] at hsome
    subst hsome
    exact .inr ⟨boundary, cursor, rfl, by simp [Books.act, hboundary], hpassing.booked hbooked⟩

theorem sound_step (hfits : s.phase.fits config uidValidity scene)
    (hcompleted : ∀ completion connection, s.completion = some completion → Sound config uidValidity scene
      (completed render config account around connection s.phase completion)) :
    Sound config uidValidity scene (s.step render config account around) := by
  obtain ⟨connection, phase⟩ := s
  unfold Session.step
  split
  · exact sound_stay trivial
  cases phase with
  | ended result =>
    dsimp only
    split
    · exact sound_finish _
    · exact sound_stay trivial
  | opening cursor notice =>
    dsimp only
    split
    · exact sound_finish _
    · obtain rfl : notice = [] := hfits.1
      apply sound_commit
      · intro stored hstored
        rw [hfits.2.2.2 stored hstored]
      · exact fun hkept => kept_opening hkept hfits
      · exact sound_startSearch rfl
  | committing cursor proposals complete =>
    dsimp only
    split
    · exact sound_finish _
    · apply sound_commit
      · obtain ⟨stored, hstored, hless, -⟩ := hfits
        intro stored' hstored'
        rw [hstored, some.injEq] at hstored'
        exact hstored' ▸ hless.le
      · exact fun hkept => kept_committing hkept hfits
      · split
        · exact sound_startSearch rfl
        · exact sound_startIdle rfl
  | _ => exact sound_readOn hfits hcompleted

end Sound

section Runs

variable {w w' : World} {label : Option Surroundings}

theorem consistent_start (mail : Mail) : Consistent config uidValidity (.start mail) :=
  ⟨.inl ⟨rfl, rfl, rfl⟩, trivial⟩

theorem Consistent.step (h : Consistent config uidValidity w)
    (hstep : SolicitedStep render config account uidValidity label w w') :
    Consistent config uidValidity w' ∧ w.scene.books.Grows w'.scene.books := by
  obtain ⟨hstep, hsolicited⟩ := hstep
  cases hstep with
  | mail hmail =>
    rename_i mail
    have hadvance : w.scene.Advances { w.scene with mail := mail } := ⟨rfl, hmail, Subset.refl _⟩
    exact ⟨⟨Scene.kept_advance h.kept hadvance, Phase.fits_advance h.fits hadvance rfl⟩, .refl _⟩
  | act hstored hasked hnow hanswer =>
    rename_i around answering
    have hadvance : w.scene.Advances (w.known answering) := ⟨rfl, .refl _, subset_append_left _ _⟩
    have hkept := Scene.kept_advance h.kept hadvance
    have hfits := Phase.fits_advance h.fits hadvance rfl
    refine sound_step hfits (fun completion connection hcompletion => ?_) hkept
    have habsent : w.session.phase.absentees answering ⊆ (w.known answering).absent := by
      unfold World.known
      rw [hcompletion]
      exact subset_append_right _ _
    refine sound_completed hstored hasked hnow habsent hfits (hanswer completion hcompletion) ?_
    intro cursor batch pending hphase items hitems huid
    rw [World.solicited, hphase, hcompletion] at hsolicited
    simpa [huid] using all_eq_true.mp hsolicited items hitems

theorem Consistent.runs (h : Consistent config uidValidity w)
    (hruns : Runs render config account uidValidity w w') :
    Consistent config uidValidity w' ∧ w.scene.books.Grows w'.scene.books := by
  induction hruns with
  | refl => exact ⟨h, .refl _⟩
  | tail _ hstep ih =>
    obtain ⟨label, hstep⟩ := hstep
    obtain ⟨hconsistent, hgrows⟩ := ih.1.step hstep
    exact ⟨hconsistent, ih.2.trans hgrows⟩

theorem absent_gone (h : w.scene.absent ⊆ w.scene.mail.expunged)
    (hstep : SolicitedStep render config account uidValidity label w w') :
    w'.scene.absent ⊆ w'.scene.mail.expunged := by
  cases hstep.1 with
  | mail hmail => exact Subset.trans h hmail.expunged
  | act hstored hasked hnow hanswer =>
    apply append_subset.mpr
    refine ⟨h, Subset.trans ?_ hnow.expunged⟩
    split
    · cases w.session.phase with
      | searchSince cursor pending | fetchSize cursor batch pending | fetchBody cursor batch size pending =>
        exact filter_sublist.subset
      | _ => exact nil_subset _
    · exact nil_subset _

end Runs

end Pluribus.Email
