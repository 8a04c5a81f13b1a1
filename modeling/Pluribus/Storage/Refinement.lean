import Pluribus.Storage.Model
import Pluribus.Storage.SqliteSpec

namespace Pluribus.Storage.Sqlite

open Lib Pluribus.Core Storage.Row List Function

/-- The `streams` row of a stream with the given events. A stream has no row before its
first event: both are written by one transaction. -/
def streamRow : List CommittedEvent → Option StreamRow
  | [] => none
  | event :: rest => some ⟨encodeStreamKind event.request.streamKind, rest.length + 2⟩

theorem streamRow_snoc {events : List CommittedEvent} {event : CommittedEvent}
    (h : ∀ f ∈ events, f.request.streamKind = event.request.streamKind) :
    streamRow (events ++ [event]) =
      some ⟨encodeStreamKind event.request.streamKind, events.length + 2⟩ := by
  cases events with
  | nil => rfl
  | cons first rest =>
    rw [cons_append, streamRow, h first mem_cons_self, length_append]
    rfl

structure Represents (database : Database) (store : Store) : Prop where
  events : List.Forall₂ (fun row event => decodeEvent row = .ok event) database.events store.log.events
  streams : ∀ s, database.streams.find s = streamRow (store.log.stream s)
  revision : ∀ ns, stateRevision ns database = store.revision ns
  state : ∀ ns key, database.componentState.find (ns, key) = store.state ns key
  cursor : ∀ cursor, readCheckpoint cursor database = store.cursor cursor

theorem represents_empty : Represents Database.empty Store.empty :=
  ⟨.nil, fun _ => rfl, fun _ => rfl, fun _ _ => rfl, fun _ => rfl⟩

/-- The columns of a row that queries test, as the decoded event has them. -/
structure Columns (row : EventRow) (event : CommittedEvent) : Prop where
  streamId : row.streamId = event.request.streamId
  eventId : row.eventId = event.eventId
  sequence : row.sequence = event.sequence
  recordedAtMs : row.recordedAtMs = event.recordedAtMs
  eventType : row.eventType = event.request.eventType
  activityId : row.activityId = event.request.activityId
  correlationId : row.correlationId = event.request.correlationId
  deduplicationKey : row.deduplicationKey = event.request.deduplicationKey

theorem decodeEvent_ok {row : EventRow} {event : CommittedEvent} (h : decodeEvent row = .ok event) :
    Columns row event := by
  unfold decodeEvent at h
  cases hp : decodePayload row with
  | error e => simp [hp, bind, Except.bind] at h
  | ok payload =>
    by_cases hs : row.sequence < 0
    · simp [hp, hs, bind, Except.bind] at h
    · cases hk : decodeStreamKind row.streamKind with
      | error e => simp [hp, hs, hk, bind, Except.bind] at h
      | ok kind =>
        cases ha : decodePrincipalKind row.actorKind with
        | error e => simp [hp, hs, hk, ha, bind, Except.bind] at h
        | ok actor =>
          simp only [hp, hs, hk, ha, bind, Except.bind, pure, Except.pure, if_false, Except.ok.injEq] at h
          subst h
          exact ⟨rfl, rfl, (Int.toNat_of_nonneg (Int.not_lt.mp hs)).symm, rfl, rfl, rfl, rfl, rfl⟩

namespace Represents

variable {database : Database} {store : Store}

variable {request : AppendRequest} {event : CommittedEvent} {o : Outside}

theorem selectKey (h : Represents database store) (stream : StreamId) (key : String) :
    selectKey stream key database = .ok (store.log.find stream key) := by
  have hfind := forall₂_find (p := fun row => decide (row.streamId = stream ∧ row.deduplicationKey = some key))
    (fun row event hdecode => by
      rw [(decodeEvent_ok hdecode).streamId, (decodeEvent_ok hdecode).deduplicationKey]) h.events
  change Option.Rel _ _ (store.log.find stream key) at hfind
  unfold Sqlite.selectKey
  generalize hrow : database.events.find? _ = found at hfind ⊢
  generalize store.log.find stream key = event at hfind ⊢
  cases hfind with
  | none => rfl
  | some hdecode => simp [hdecode, Except.map]

theorem eventExists (h : Represents database store) (eventId : EventId) :
    eventExists eventId database = store.log.events.any (·.eventId = eventId) := by
  refine forall₂_any (fun row event hdecode => ?_) h.events
  rw [(decodeEvent_ok hdecode).eventId]

theorem insertStream (h : Represents database store) {stored : StreamRow}
    (hfind : (insertStream request.streamId (encodeStreamKind request.streamKind) database).streams.find
      request.streamId = some stored) (hkind : stored.streamKind = encodeStreamKind request.streamKind) :
    stored.nextSequence = (store.log.stream request.streamId).length + 1 ∧
    ∀ f ∈ store.log.stream request.streamId, f.request.streamKind = request.streamKind := by
  unfold Sqlite.insertStream at hfind
  rw [Table.find_insertOrIgnore, if_pos rfl, h.streams] at hfind
  cases hs : store.log.stream request.streamId with
  | nil =>
    rw [hs] at hfind
    cases hfind
    exact ⟨rfl, fun f hf => absurd hf not_mem_nil⟩
  | cons event rest =>
    rw [hs] at hfind
    cases hfind
    refine ⟨?_, fun f hf => ?_⟩
    · change ((rest.length + 2 : Nat) : Int) = _
      rfl
    have hmem : ∀ g ∈ event :: rest, g ∈ store.log.events ∧ g.request.streamId = request.streamId :=
      fun g hg => Ledger.mem_ofStream.mp (hs ▸ hg)
    have hev := hmem event mem_cons_self
    have hf' := hmem f hf
    rw [← encodeStreamKind_inj hkind]
    exact store.log.wellFormed.kinds f hf'.1 event hev.1 (hf'.2.trans hev.2.symm)

theorem appended (h : Represents database store) {after : Database} (hvalid : request.validate = .ok ())
    (hnone : store.log.existing request = none) (hinserted : Inserted request database after event) :
    ∃ eventId recordedAtMs log', store.log.append eventId recordedAtMs request = .ok (event, log') ∧
      Represents after { store with log := log' } := by
  obtain ⟨stored, eventId, recordedAtMs, hfind, hkind, hpos, hmax, hfresh, hevent, hafter⟩ := hinserted
  obtain ⟨hseq, hkinds⟩ := h.insertStream hfind hkind
  have hid : ∀ f ∈ store.log.events, f.eventId ≠ eventId := by
    rw [h.eventExists] at hfresh
    simpa using hfresh
  have hlength : (store.log.stream request.streamId).length + 1 ≠ i64Max := by
    intro hl
    exact hmax (by rw [hseq, ← hl]; rfl)
  have hnext : event = store.log.next eventId recordedAtMs request := by
    rw [hevent, hseq]
    rfl
  obtain ⟨log', happend, hlog'⟩ := Log.append_fresh recordedAtMs hvalid hnone hkinds hlength hid
  rw [← hnext] at happend hlog'
  refine ⟨eventId, recordedAtMs, log', happend, ?_⟩
  have hdecode : decodeEvent (encodeEvent request eventId stored.nextSequence recordedAtMs) = .ok event := by
    rw [decodeEvent_encode hvalid eventId hpos recordedAtMs, hevent]
  refine ⟨?_, fun s => ?_, fun ns => ?_, fun ns key => ?_, fun cursor => ?_⟩
  · rw [hafter, hlog']
    exact rel_append h.events (.cons hdecode .nil)
  · have hstream : Log.stream log' s = store.log.stream s ++ Ledger.ofStream eventView s [event] := by
      unfold Log.stream
      rw [hlog', Ledger.ofStream_append]
    rw [hafter, hstream]
    unfold setNextSequence
    rw [Table.find_update]
    have hkindEq : event.request.streamKind = request.streamKind := by rw [hevent]
    by_cases hs : request.streamId = s
    · have hself : eventView.stream event = s := by rw [hevent]; exact hs
      rw [if_pos hs, ← hs, hfind, hs, ← hself, Ledger.ofStream_self, hself, ← hs,
        streamRow_snoc (hkindEq ▸ hkinds), hkindEq, ← hkind, hseq, Option.map_some]
      simp only [Option.some.injEq, StreamRow.mk.injEq, true_and]
      omega
    · have hother : eventView.stream event ≠ s := by rw [hevent]; exact hs
      rw [if_neg hs, Ledger.ofStream_other hother, append_nil, ← h.streams s]
      exact (Table.find_insertOrIgnore _ _ _ _).trans (if_neg hs)
  · rw [hafter]
    exact h.revision ns
  · rw [hafter]
    exact h.state ns key
  · rw [hafter]
    exact h.cursor cursor

theorem appendIn {s t : Session} (h : Represents s.database store) (happend : appendIn o request s = .ok (event, t)) :
    ∃ eventId recordedAtMs log', store.log.append eventId recordedAtMs request = .ok (event, log') ∧
      Represents t.database { store with log := log' } := by
  obtain ⟨hvalid, ⟨key, hkey, hfound, hdb⟩ | ⟨hmiss, hinserted⟩⟩ := appendIn_ok happend
  · rw [h.selectKey, Except.ok.injEq] at hfound
    have hexisting : store.log.existing request = some event := by
      rw [Log.existing, hkey]
      exact hfound
    exact ⟨"", 0, store.log, Log.append_existing _ _ hvalid hexisting, hdb ▸ h⟩
  · refine h.appended hvalid ?_ hinserted
    cases hkey : request.deduplicationKey with
    | none => rw [Log.existing, hkey]; rfl
    | some key =>
      have hnone := hmiss key hkey
      rw [h.selectKey, Except.ok.injEq] at hnone
      rw [Log.existing, hkey]
      exact hnone

theorem appendAll {s t : Session} (h : Represents s.database store) {requests : List AppendRequest}
    {events : List CommittedEvent}
    (hloop : (requests.mapM fun request => Tx.mapError DeliveryError.append (Sqlite.appendIn o request) :
      Tx Session DeliveryError (List CommittedEvent)) s = .ok (events, t)) :
    ∃ draws log', store.log.appendAll draws requests = .ok (events, log') ∧
      Represents t.database { store with log := log' } := by
  refine Tx.mapM_relation (R := fun s requests events t => ∀ store, Represents s.database store →
    ∃ draws log', store.log.appendAll draws requests = .ok (events, log') ∧
      Represents t.database { store with log := log' }) ?_ ?_ hloop store h
  · intro s store h
    exact ⟨fun _ => ("", 0), store.log, rfl, h⟩
  · intro s request event t requests events u hstep ih store h
    obtain ⟨eventId, recordedAtMs, log₁, hfirst, h₁⟩ := h.appendIn (Tx.mapError_ok.mp hstep)
    obtain ⟨draws, log₂, hrest, h₂⟩ := ih _ h₁
    exact ⟨_, log₂, Log.appendAll_cons hfirst hrest, h₂⟩

theorem insertNamespace (h : Represents database store) (ns : StateNamespace) :
    Represents (insertNamespace ns database) store :=
  ⟨h.events, h.streams, fun ns' => (stateRevision_insertNamespace ns ns' database).trans (h.revision ns'),
    h.state, h.cursor⟩

theorem mutate (h : Represents database store) (ns : StateNamespace) (mutation : StateMutation) :
    Represents (mutate ns mutation database)
      { store with state := update store.state ns (applyMutation (store.state ns) mutation) } := by
  refine ⟨?_, ?_, ?_, ?_, ?_⟩
  · cases mutation <;> exact h.events
  · cases mutation <;> exact h.streams
  · cases mutation <;> exact h.revision
  · intro ns' key'
    cases mutation with
    | set key value =>
      unfold Sqlite.mutate
      rw [Table.find_upsert, h.state]
      by_cases hns : ns' = ns
      · subst hns
        by_cases hkey : key' = key
        · subst hkey
          simp [applyMutation]
        · simp [applyMutation, hkey, Ne.symm hkey]
      · simp [hns, Ne.symm hns]
    | delete key =>
      unfold Sqlite.mutate
      rw [Table.find_deleteWhere, h.state]
      by_cases hns : ns' = ns
      · subst hns
        by_cases hkey : key' = key <;> simp [applyMutation, hkey]
      · simp [hns]
  · cases mutation <;> exact h.cursor

theorem mutateAll (h : Represents database store) (ns : StateNamespace) (mutations : List StateMutation) :
    Represents (mutations.foldl (fun database mutation => Sqlite.mutate ns mutation database) database)
      { store with state := update store.state ns (applyMutations (store.state ns) mutations) } := by
  induction mutations generalizing database store with
  | nil =>
    have hsame : update store.state ns (applyMutations (store.state ns) []) = store.state :=
      update_eq_self ns store.state
    rw [hsame]
    exact h
  | cons mutation rest ih =>
    have hrest := ih (h.mutate ns mutation)
    simpa [applyMutations] using hrest

theorem mutateAll_namespaces (ns : StateNamespace) (mutations : List StateMutation) (database : Database) :
    (mutations.foldl (fun database mutation => Sqlite.mutate ns mutation database) database).componentStateNamespaces =
      database.componentStateNamespaces := by
  induction mutations generalizing database with
  | nil => rfl
  | cons mutation rest ih =>
    rw [foldl_cons, ih]
    cases mutation <;> rfl

section

variable (h : Represents database store)

include h

theorem advance {ε : Type} (storage : String → ε) (ns : StateNamespace)
    (mutations : List StateMutation) (hmax : mutations ≠ [] → stateRevision ns database ≠ u64Max) :
    ∃ store', store.advance storage ns mutations = .ok store' ∧ Represents (advanced ns mutations database) store' ∧
      nextRevision ns mutations database = store'.revision ns ∧
      store'.log = store.log ∧ store'.cursor = store.cursor := by
  unfold Store.advance advanced nextRevision
  by_cases hm : mutations = []
  · simp only [hm, if_true]
    exact ⟨store, rfl, h.insertNamespace ns, h.revision ns, rfl, rfl⟩
  · have hrev := hmax hm
    rw [h.revision] at hrev
    simp only [hm, if_false, hrev, h.revision]
    refine ⟨_, rfl, ?_, by simp, rfl, rfl⟩
    have hmutated := (h.insertNamespace ns).mutateAll ns mutations
    refine ⟨hmutated.events, hmutated.streams, fun ns' => ?_, hmutated.state, hmutated.cursor⟩
    unfold stateRevision setRevision
    rw [Table.find_update, mutateAll_namespaces]
    by_cases hns : ns' = ns
    · subst hns
      have hinserted := Table.find_insertOrIgnore ns' ns' 0 database.componentStateNamespaces
      unfold Sqlite.insertNamespace
      rw [hinserted]
      simp
    · rw [if_neg (Ne.symm hns)]
      exact ((h.insertNamespace ns).revision ns').trans (update_of_ne hns _ _).symm

theorem setCheckpoint (cursor : CursorKey) (checkpoint : Nat) : Represents (setCheckpoint cursor checkpoint database)
      { store with cursor := update store.cursor cursor checkpoint } := by
  refine ⟨h.events, h.streams, h.revision, h.state, fun cursor' => ?_⟩
  unfold readCheckpoint Sqlite.setCheckpoint
  rw [Table.find_upsert]
  by_cases hc : cursor' = cursor
  · simp [hc]
  · rw [if_neg (Ne.symm hc)]
    exact (h.cursor cursor').trans (update_of_ne hc _ _).symm

theorem commit {commit : DeliveryCommit} {receipt : DeliveryReceipt}
    (hcommit : (Sqlite.commit o commit database).1 = .ok receipt) :
    ∃ draws store', store.commit draws commit = .ok (receipt, store') ∧
      Represents (Sqlite.commit o commit database).2 store' := by
  obtain ⟨hvalid, hdelivered⟩ := commit_ok hcommit
  obtain ⟨advancedStore, hadvance, hadvanced, hnext, hlog, hcursor⟩ :=
    h.advance DeliveryError.storage commit.cursor.namespace commit.mutations hdelivered.revision
  obtain ⟨s, t, hs, hloop, hafter⟩ := hdelivered.events
  obtain ⟨draws, log', hbatch, hrep⟩ := appendAll (hs ▸ hadvanced) hloop
  have hstored : store.cursor commit.cursor = commit.expectedCheckpoint :=
    (h.cursor commit.cursor).symm.trans hdelivered.checkpoint
  have hreceipt : receipt = ⟨receipt.events, commit.checkpoint.getD (store.cursor commit.cursor),
      advancedStore.revision commit.cursor.namespace⟩ := by
    rw [hstored, ← hdelivered.receiptCheckpoint, ← hnext, ← hdelivered.receiptRevision]
  refine ⟨draws, { advancedStore with
    log := log'
    cursor := update store.cursor commit.cursor
      (commit.checkpoint.getD (store.cursor commit.cursor)) }, ?_, ?_⟩
  · rw [hreceipt]
    simp [Store.commit, Store.commitWork, hvalid, hstored, hadvance, hbatch]
  · rw [hafter]
    cases commit.checkpoint with
    | none =>
      rw [Option.getD_none, update_eq_self, ← hcursor]
      exact hrep
    | some checkpoint =>
      rw [← hcursor]
      exact hrep.setCheckpoint commit.cursor checkpoint

theorem apply {ns : StateNamespace} {expected revision : Nat}
    {mutations : List StateMutation} (happly : (Sqlite.apply o ns expected mutations database).1 = .ok revision) :
    ∃ store', store.apply ns expected mutations = .ok (revision, store') ∧
      Represents (Sqlite.apply o ns expected mutations database).2 store' := by
  obtain ⟨hexpected, hmax, hrevision, hdb⟩ := apply_ok happly
  obtain ⟨store', hadvance, hstore', hnext, -, -⟩ := h.advance StateError.storage ns mutations hmax
  rw [h.revision] at hexpected
  refine ⟨store', ?_, hdb ▸ hstore'⟩
  simp [Store.apply, hexpected, hadvance, Except.map, hrevision, hnext]

theorem append (happend : (Sqlite.append o request database).1 = .ok event) :
    ∃ eventId recordedAtMs store', store.append eventId recordedAtMs request = .ok (event, store') ∧
      Represents (Sqlite.append o request database).2 store' := by
  obtain ⟨s, t, hs, hin, hdb⟩ := append_ok happend
  subst hs
  obtain ⟨eventId, recordedAtMs, log', hlog, hrep⟩ := h.appendIn hin
  refine ⟨eventId, recordedAtMs, { store with log := log' }, ?_, hdb ▸ hrep⟩
  simp [Store.append, hlog, Except.map]

theorem discard {cursor : CursorKey} {u : Unit} (hdiscard : (Sqlite.discard o cursor database).1 = .ok u) :
    Represents (Sqlite.discard o cursor database).2 (store.discard cursor) := by
  rw [discard_ok hdiscard]
  refine ⟨h.events, h.streams, fun ns => ?_, fun ns key => ?_, fun cursor' => ?_⟩
  · unfold stateRevision dropCursor dropNamespace clearNamespace Store.discard
    rw [Table.find_deleteWhere]
    by_cases hns : ns = cursor.namespace
    · simp [hns]
    · simpa [hns, stateRevision] using h.revision ns
  · unfold dropCursor dropNamespace clearNamespace Store.discard
    rw [Table.find_deleteWhere]
    by_cases hns : ns = cursor.namespace
    · simp [hns]
    · simpa [hns] using h.state ns key
  · unfold readCheckpoint dropCursor dropNamespace clearNamespace Store.discard
    rw [Table.find_deleteWhere]
    by_cases hc : cursor' = cursor
    · simp [hc]
    · simpa [hc, readCheckpoint] using h.cursor cursor'

end

end Represents

end Pluribus.Storage.Sqlite
