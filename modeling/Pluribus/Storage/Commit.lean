import Pluribus.Storage.Integrity

namespace Pluribus.Storage.Sqlite

open Lib Pluribus.Core Storage.Row Function

variable {database : Database} {store : Store}

def entry (database : Database) (ns : StateNamespace) (key : String) : Option Bytes :=
  database.componentState.find (ns, key)

def holdsKey (request : AppendRequest) (event : CommittedEvent) : Prop :=
  event.request.streamId = request.streamId ∧ request.deduplicationKey ≠ none ∧
    event.request.deduplicationKey = request.deduplicationKey

/-- A request of a batch is answered by the event that held its key before the commit, or,
when none did, by a new event of its own. -/
def AnswersProposal (old : List CommittedEvent) (request : AppendRequest) (event : CommittedEvent) : Prop :=
  (event ∈ old ∧ holdsKey request event) ∨
    ((∀ other ∈ old, ¬ holdsKey request other) ∧ event ∉ old ∧ event.request = request)

structure CommitEffect (delivery : DeliveryCommit) (before after : Database) (receipt : DeliveryReceipt) :
    Prop where
  expected : readCheckpoint delivery.cursor before = delivery.expectedCheckpoint
  state : entry after delivery.cursor.namespace =
    applyMutations (entry before delivery.cursor.namespace) delivery.mutations
  otherState : ∀ ns, ns ≠ delivery.cursor.namespace → entry after ns = entry before ns
  revision : stateRevision delivery.cursor.namespace after =
    stateRevision delivery.cursor.namespace before + if delivery.mutations = [] then 0 else 1
  otherRevision : ∀ ns, ns ≠ delivery.cursor.namespace → stateRevision ns after = stateRevision ns before
  cursor : readCheckpoint delivery.cursor after =
    delivery.checkpoint.getD (readCheckpoint delivery.cursor before)
  otherCursor : ∀ cursor, cursor ≠ delivery.cursor → readCheckpoint cursor after = readCheckpoint cursor before
  receiptCheckpoint : receipt.checkpoint = readCheckpoint delivery.cursor after
  receiptRevision : receipt.revision = stateRevision delivery.cursor.namespace after
  events : ∃ old, Intact before old ∧ List.Forall₂ (AnswersProposal old) delivery.events receipt.events ∧
    Intact after (old ++ receipt.events.filter (· ∉ old))

theorem answersProposal {log : Log} {request : AppendRequest} {event : CommittedEvent}
    (h : Answers log request event) : AnswersProposal log.events request event := by
  rcases h with hfound | ⟨hnone, hrequest, hnew⟩
  · obtain ⟨key, hkey, hfind⟩ := Option.bind_eq_some_iff.mp hfound
    obtain ⟨hmem, hstream, hk⟩ := Ledger.findKey_some hfind
    exact .inl ⟨hmem, hstream, by simp [hkey], hk.trans hkey.symm⟩
  · refine .inr ⟨fun other hother hholds => ?_, hnew, hrequest⟩
    obtain ⟨hstream, hsome, hkey⟩ := hholds
    obtain ⟨key, hk⟩ := Option.ne_none_iff_exists'.mp hsome
    rw [Log.existing, hk] at hnone
    exact Ledger.findKey_none hnone hother hstream (hkey.trans hk)

theorem Represents.entry (h : Represents database store) (ns : StateNamespace) : entry database ns = store.state ns :=
  funext fun key => h.state ns key

theorem commit_effect (h : Represents database store) {o : Outside} {delivery : DeliveryCommit}
    {receipt : DeliveryReceipt} (hcommit : (Sqlite.commit o delivery database).1 = .ok receipt) :
    CommitEffect delivery database (Sqlite.commit o delivery database).2 receipt := by
  obtain ⟨draws, store', hstore, hrep⟩ := h.commit hcommit
  obtain ⟨hvalid, hexpected, hbatch, hstate, hrevision, hcursor, hcheckpoint, hrec⟩ := Store.commit_ok hstore
  obtain ⟨hanswers, hlog⟩ := appendAll_answers (validate_ok hvalid).keys hbatch
  refine ⟨(h.cursor _).trans hexpected, ?_, fun ns hns => ?_, ?_, fun ns hns => ?_, ?_, fun cursor hc => ?_,
    hcheckpoint.trans (hrep.cursor _).symm, hrec.trans (hrep.revision _).symm,
    store.log.events, h.intact, hanswers.imp fun _ _ => answersProposal, hlog ▸ hrep.intact⟩
  · rw [hrep.entry, h.entry, hstate, update_self]
  · rw [hrep.entry, h.entry, hstate, update_of_ne hns]
  · rw [hrep.revision, h.revision, hrevision, update_self]
  · rw [hrep.revision, h.revision, hrevision, update_of_ne hns]
  · rw [hrep.cursor, h.cursor, hcursor, update_self]
  · rw [hrep.cursor, h.cursor, hcursor, update_of_ne hc]

theorem call_cursor_le (h : Represents database store) (o : Outside) {call : Call} {cursor : CursorKey}
    (hcall : call ≠ .discard cursor) :
    readCheckpoint cursor database ≤ readCheckpoint cursor (call.run o database) := by
  cases call with
  | append request =>
    cases hr : (Sqlite.append o request database).1 with
    | error e => rw [Call.run, append_error hr]
    | ok event =>
      obtain ⟨eventId, recordedAtMs, store', happend, hrep⟩ := h.append hr
      obtain ⟨log', -, rfl⟩ := Store.append_log happend
      rw [Call.run, hrep.cursor, h.cursor]
  | commit delivery =>
    cases hr : (Sqlite.commit o delivery database).1 with
    | error e => rw [Call.run, commit_error hr]
    | ok receipt =>
      have heffect := commit_effect h hr
      have hmono := (validate_ok (commit_ok hr).1).monotone
      by_cases hc : cursor = delivery.cursor
      · subst hc
        rw [Call.run, heffect.cursor]
        cases hk : delivery.checkpoint with
        | none => exact Nat.le_refl _
        | some checkpoint =>
          rw [heffect.expected]
          exact hmono checkpoint hk
      · rw [Call.run, heffect.otherCursor cursor hc]
  | apply ns expected mutations =>
    cases hr : (Sqlite.apply o ns expected mutations database).1 with
    | error e => rw [Call.run, apply_error hr]
    | ok revision =>
      obtain ⟨store', happly, hrep⟩ := h.apply hr
      rw [Call.run, hrep.cursor, h.cursor, (Store.advance_ok (Store.apply_ok happly).2.1).2.1]
  | discard cursor' =>
    cases hr : (Sqlite.discard o cursor' database).1 with
    | error e => rw [Call.run, discard_error hr]
    | ok u =>
      have hne : cursor ≠ cursor' := fun heq => hcall (by rw [heq])
      rw [Call.run, (h.discard hr).cursor, h.cursor]
      exact (update_of_ne hne 0 store.cursor).ge

theorem run_cursor_le (h : Represents database store) {calls : List (Outside × Call)} {cursor : CursorKey}
    (hcalls : ∀ call ∈ calls, call.2 ≠ .discard cursor) :
    readCheckpoint cursor database ≤ readCheckpoint cursor (runCalls database calls) := by
  induction calls generalizing database store with
  | nil => exact Nat.le_refl _
  | cons call rest ih =>
    obtain ⟨store₁, h₁, -⟩ := h.call call.1 call.2
    have hfirst := call_cursor_le h call.1 (hcalls call List.mem_cons_self)
    exact hfirst.trans (ih h₁ fun other hother => hcalls other (List.mem_cons_of_mem _ hother))

/-- A delivery commit is all or nothing, cursors never move back except by a discard, and an
advance shuts out every commit that still expects the checkpoint before it. -/
theorem commit_atomic (calls : List (Outside × Call)) :
    (∀ o delivery error, (Sqlite.commit o delivery (runCalls Database.empty calls)).1 = .error error →
      (Sqlite.commit o delivery (runCalls Database.empty calls)).2 = runCalls Database.empty calls) ∧
    (∀ o delivery receipt, (Sqlite.commit o delivery (runCalls Database.empty calls)).1 = .ok receipt →
      CommitEffect delivery (runCalls Database.empty calls)
        (Sqlite.commit o delivery (runCalls Database.empty calls)).2 receipt) ∧
    (∀ more cursor, (∀ call ∈ more, call.2 ≠ Call.discard cursor) →
      readCheckpoint cursor (runCalls Database.empty calls) ≤
        readCheckpoint cursor (runCalls (runCalls Database.empty calls) more)) ∧
    (∀ o delivery receipt checkpoint,
      (Sqlite.commit o delivery (runCalls Database.empty calls)).1 = .ok receipt →
      delivery.checkpoint = some checkpoint → delivery.expectedCheckpoint < checkpoint →
      ∀ more, (∀ call ∈ more, call.2 ≠ Call.discard delivery.cursor) →
      ∀ o' delivery' receipt', delivery'.cursor = delivery.cursor →
        delivery'.expectedCheckpoint = delivery.expectedCheckpoint →
        (Sqlite.commit o' delivery'
          (runCalls (Sqlite.commit o delivery (runCalls Database.empty calls)).2 more)).1 ≠ .ok receipt') := by
  obtain ⟨store, h, -⟩ := represents_empty.run calls
  refine ⟨fun o delivery error herror => commit_error herror,
    fun o delivery receipt hok => commit_effect h hok, fun more cursor hmore => run_cursor_le h hmore, ?_⟩
  intro o delivery receipt checkpoint hok hcheckpoint hlt more hmore o' delivery' receipt' hcursor hexpected hok'
  have heffect := commit_effect h hok
  obtain ⟨store₁, h₁, -⟩ := h.call o (.commit delivery)
  obtain ⟨store₂, h₂, -⟩ := h₁.run more
  have hadvanced := run_cursor_le h₁ hmore
  have hexpected' := (commit_effect h₂ hok').expected
  have hread := heffect.cursor
  rw [hcheckpoint, Option.getD_some] at hread
  rw [hcursor, hexpected] at hexpected'
  simp only [Call.run] at hadvanced hexpected'
  omega

def quiet : Outside := ⟨fun n => "event-" ++ n.repr, fun n => n, fun _ => none⟩

def shellCursor : CursorKey := ⟨"personal", "shell-1"⟩

/-- A delivery of the shell that records an event and an entry of its state. -/
def shellDelivery (checkpoint : Nat) : DeliveryCommit :=
  ⟨shellCursor, 0, some checkpoint, [.set "last" [104, 105]],
    [⟨"personal", .agent, none, "capability.output", "test/1", .canonicalJson (.json .null), ⟨.component, "shell-1"⟩, none,
      none, none, none, some "output:1"⟩]⟩

def shellDone : Except DeliveryError DeliveryReceipt × Database := Sqlite.commit quiet (shellDelivery 1) Database.empty

theorem commit_atomic_shell : ∃ receipt, shellDone.1 = .ok receipt ∧
    entry shellDone.2 shellCursor.namespace "last" = some [104, 105] ∧ receipt.events.length = 1 ∧
    ∀ receipt', (Sqlite.commit quiet (shellDelivery 2) shellDone.2).1 ≠ .ok receipt' := by
  obtain ⟨-, heffect, -, hshuts⟩ := commit_atomic []
  have hok : ∃ receipt, shellDone.1 = .ok receipt ∧ receipt.events.length = 1 := ⟨_, rfl, rfl⟩
  obtain ⟨receipt, hok, hone⟩ := hok
  refine ⟨receipt, hok, ?_, hone, fun receipt' => ?_⟩
  · have hstate := (heffect quiet (shellDelivery 1) receipt hok).state
    exact (congrFun hstate "last").trans rfl
  · exact hshuts quiet (shellDelivery 1) receipt 1 hok rfl (by decide) [] (by simp) quiet (shellDelivery 2) receipt' rfl rfl
/-- A delivery of the shell's cursor from its start, with nothing but a checkpoint. -/
def checkpointOnly (checkpoint : Option Nat) : DeliveryCommit := ⟨shellCursor, 0, checkpoint, [], []⟩

/-- Two commits that expect the same checkpoint both succeed, although the second advances it:
the first leaves the cursor where it was, or a discard takes the first advance back. -/
theorem unmoved_commit_excludes_none :
    (Sqlite.commit quiet (checkpointOnly none) Database.empty).1 = .ok ⟨[], 0, 0⟩ ∧
    (Sqlite.commit quiet (checkpointOnly (some 1))
      (Sqlite.commit quiet (checkpointOnly none) Database.empty).2).1 = .ok ⟨[], 1, 0⟩ ∧
    (Sqlite.commit quiet (checkpointOnly (some 1)) Database.empty).1 = .ok ⟨[], 1, 0⟩ ∧
    (Sqlite.commit quiet (checkpointOnly (some 1)) (Sqlite.discard quiet shellCursor
      (Sqlite.commit quiet (checkpointOnly (some 1)) Database.empty).2).2).1 = .ok ⟨[], 1, 0⟩ := by
  decide

end Pluribus.Storage.Sqlite
