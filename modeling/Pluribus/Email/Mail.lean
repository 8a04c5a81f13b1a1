import Pluribus.Lib.Numeral
import Pluribus.Email.Session
import Pluribus.Lib.Journal
import Pluribus.Runtime.Commit

namespace Pluribus.Email

open Lib Pluribus.Core Pluribus.Runtime List

/-- The mailbox on the server: the UIDs it has given, those of them that are expunged, and what it calls
the next one. -/
structure Mail where
  arrived : List Nat
  expunged : List Nat
  next : Nat
  bounded : ∀ uid ∈ arrived, uid < next
  known : expunged ⊆ arrived
  next_pos : 0 < next

namespace Mail

def Present (mail : Mail) (uid : Nat) : Prop := uid ∈ mail.arrived ∧ uid ∉ mail.expunged

instance (mail : Mail) (uid : Nat) : Decidable (mail.Present uid) := inferInstanceAs (Decidable (_ ∧ _))

/-- The mailbox at some later time: UIDs grow strictly, and what is expunged stays so. -/
structure Later (mail mail' : Mail) : Prop where
  arrived : mail.arrived ⊆ mail'.arrived
  expunged : mail.expunged ⊆ mail'.expunged
  grows : ∀ uid ∈ mail'.arrived, uid ∈ mail.arrived ∨ mail.next ≤ uid
  next : mail.next ≤ mail'.next

theorem Later.refl (mail : Mail) : mail.Later mail :=
  ⟨Subset.refl _, Subset.refl _, fun _ h => .inl h, le_rfl⟩

theorem Later.arrived_of_lt {mail mail' : Mail} (h : mail.Later mail') {uid : Nat} (huid : uid ∈ mail'.arrived)
    (hlt : uid < mail.next) : uid ∈ mail.arrived :=
  (h.grows uid huid).resolve_right (by omega)

end Mail

/-- What the host keeps for the connector: the cursor, the events it has recorded under their keys, and the
first cursor there was. -/
structure Books where
  stored : Option StoredCursor
  journal : Journal String Proposal
  boundary : Option Nat

/-- A commit records the events and the cursor together. -/
def Books.act (books : Books) : Act → Books
  | .commit proposals cursor =>
    ⟨some cursor, books.journal.record (proposals.map Proposal.keyed), books.boundary.or (some cursor.lastUid)⟩
  | _ => books

/-- The connector's surroundings over a run. `asked` is the mailbox when the last command was sent, and
`absent` are the messages that were gone when a search or a fetch that concerned them was answered. -/
structure Scene where
  books : Books
  mail : Mail
  asked : Mail
  absent : List Nat

structure World where
  session : Session
  scene : Scene

def World.start (mail : Mail) : World := ⟨.initial, ⟨none, .empty, none⟩, mail, mail, []⟩

def Act.isSend : Act → Bool
  | .send _ _ => true
  | _ => false

def Scene.after (scene : Scene) (acts : List Act) : Scene :=
  { scene with
    books := acts.foldl Books.act scene.books
    asked := if acts.any Act.isSend then scene.mail else scene.asked }

def Session.completion (s : Session) : Option Completion :=
  match s.phase.pending, s.connection.buffer with
  | some (pending, _), .ok response :: _ =>
    match taggedStatus response pending.tag with
    | .ok (some status) => some ⟨status, pending.untagged⟩
    | _ => none
  | _, _ => none

/-- What a server that has this mailbox answers a command: EXAMINE tells UIDVALIDITY and UIDNEXT, a search
lists the messages in its range, and a FETCH of a message that is there brings its items. -/
def Answered (uidValidity : Nat) (mail : Mail) (untagged : List Response) : Phase → Prop
  | .examine _ => (Mailbox.opened untagged).uidValidity = uidValidity ∧ (Mailbox.opened untagged).uidNext = mail.next
  | .searchSince cursor _ =>
      (∀ uid ∈ mail.arrived, cursor.lastUid < uid → mail.Present uid → uid ∈ untagged.flatMap Response.uids) ∧
      ∀ uid ∈ untagged.flatMap Response.uids, cursor.lastUid < uid → mail.Present uid
  | .fetchSize _ batch _ => mail.Present batch.uid →
      ∃ items ∈ untagged.filterMap Response.fetch, items.uid = some batch.uid ∧ items.size.isSome = true
  | .fetchBody _ batch _ _ => mail.Present batch.uid →
      ∃ items ∈ untagged.filterMap Response.fetch, items.uid = some batch.uid
  | _ => True

instance (uidValidity : Nat) (mail : Mail) (untagged : List Response) (phase : Phase) :
    Decidable (Answered uidValidity mail untagged phase) := by
  unfold Answered
  split <;> infer_instance

/-- The messages that are gone when a command about them is answered. -/
def Phase.absentees (mail : Mail) : Phase → List Nat
  | .searchSince cursor _ => mail.expunged.filter (cursor.lastUid < ·)
  | .fetchSize _ batch _ => mail.expunged.filter (· = batch.uid)
  | .fetchBody _ batch _ _ => mail.expunged.filter (· = batch.uid)
  | _ => []

def World.known (w : World) (answering : Mail) : Scene :=
  { w.scene with absent := w.scene.absent ++
      (if w.session.completion.isSome then w.session.phase.absentees answering else []) }

section Step

variable (render : StoredCursor → Fetched → Int → Except HostError Json) (config : Config) (account : Account)
  (uidValidity : Nat)

def World.act (w : World) (around : Surroundings) (answering : Mail) : World :=
  let (acts, session) := w.session.step render config account around
  ⟨session, (w.known answering).after acts⟩

/-- The mailbox changes, or the connector takes a step. The state it reads is what was committed, and a
command is answered from the mailbox as it was at some time since the command was sent. -/
inductive Step : Option Surroundings → World → World → Prop
  | mail {w : World} {mail : Mail} (h : w.scene.mail.Later mail) :
      Step none w { w with scene := { w.scene with mail := mail } }
  | act {w : World} {around : Surroundings} {answering : Mail}
      (hstored : ∀ stored, around.stored = .ok stored → stored = w.scene.books.stored)
      (hasked : w.scene.asked.Later answering) (hnow : answering.Later w.scene.mail)
      (hanswer : ∀ completion, w.session.completion = some completion → completion.status = .ok →
        Answered uidValidity answering completion.untagged w.session.phase) :
      Step (some around) w (w.act render config account around answering)

/-- A FETCH that was not asked for is not taken for the answer: every FETCH of the message among the responses
to the request for its size tells the size. -/
def World.solicited (w : World) : Bool :=
  match w.session.phase, w.session.completion with
  | .fetchSize _ batch _, some completion =>
    (completion.untagged.filterMap Response.fetch).all fun items => items.uid ≠ some batch.uid || items.size.isSome
  | _, _ => true

def SolicitedStep (label : Option Surroundings) (w w' : World) : Prop :=
  Step render config account uidValidity label w w' ∧ w.solicited = true

def Runs : World → World → Prop :=
  Relation.ReflTransGen fun w w' => ∃ label, SolicitedStep render config account uidValidity label w w'

end Step

theorem messageKey_inj {mailbox : String} {uidValidity uid uid' : Nat}
    (h : messageKey mailbox uidValidity uid = messageKey mailbox uidValidity uid') : uid = uid' :=
  nat_repr_inj (colon_inj (colon_not_mem_repr uid) (colon_not_mem_repr uid') h).2

section SearchSince

variable {untagged : List Response} {after limit uid : Nat}

def inRange (untagged : List Response) (after : Nat) : List Nat :=
  (((untagged.flatMap Response.uids).filter (after < ·)).mergeSort (· ≤ ·)).dedup

theorem inRange_sorted : (inRange untagged after).Pairwise (· < ·) := by
  have hsorted := (pairwise_mergeSort' (· ≤ ·) ((untagged.flatMap Response.uids).filter (after < ·))).sublist
    (dedup_sublist _)
  exact (hsorted.and (nodup_dedup _)).imp fun h => lt_of_le_of_ne h.1 h.2

theorem mem_inRange : uid ∈ inRange untagged after ↔ uid ∈ untagged.flatMap Response.uids ∧ after < uid := by
  rw [inRange, mem_dedup, mem_mergeSort, mem_filter, decide_eq_true_eq]

theorem searchSince_sorted : (searchSince untagged after limit).Pairwise (· < ·) :=
  inRange_sorted.sublist (take_sublist _ _)

theorem mem_searchSince (h : uid ∈ searchSince untagged after limit) :
    uid ∈ untagged.flatMap Response.uids ∧ after < uid :=
  mem_inRange.mp (mem_of_mem_take h)

theorem searchSince_cut (h : uid ∈ untagged.flatMap Response.uids) (hafter : after < uid) :
    uid ∈ searchSince untagged after limit ∨ ∀ u ∈ searchSince untagged after limit, u < uid := by
  have hmem : uid ∈ (inRange untagged after).take limit ++ (inRange untagged after).drop limit := by
    rw [take_append_drop]
    exact mem_inRange.mpr ⟨h, hafter⟩
  have hsorted : ((inRange untagged after).take limit ++ (inRange untagged after).drop limit).Pairwise (· < ·) := by
    rw [take_append_drop]
    exact inRange_sorted
  rcases mem_append.mp hmem with htake | hdrop
  · exact .inl htake
  · exact .inr fun u hu => (pairwise_append.mp hsorted).2.2 u hu uid hdrop

end SearchSince

end Pluribus.Email
