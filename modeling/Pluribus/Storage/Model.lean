import Mathlib.Logic.Function.Basic
import Mathlib.Logic.Relation
import Pluribus.Lib.Lists
import Pluribus.Storage.Log

namespace Pluribus.Storage

open Lib Pluribus.Core List Function

variable {log log' : Log} {eventId : EventId} {recordedAtMs : Int} {request : AppendRequest}
  {requests : List AppendRequest} {event : CommittedEvent} {events : List CommittedEvent}

/-- What a store holds: the log, the revision and the entries of every namespace, and the
delivery cursors. -/
structure Store where
  log : Log
  revision : StateNamespace → Nat
  state : StateNamespace → String → Option Bytes
  cursor : CursorKey → Nat

def Store.empty : Store := ⟨Log.empty, fun _ => 0, fun _ _ => none, fun _ => 0⟩

abbrev Draws := Nat → EventId × Int

def Draws.cons (first : EventId × Int) (rest : Draws) : Draws
  | 0 => first
  | n + 1 => rest n

def Log.appendAll (log : Log) (draws : Draws) :
    List AppendRequest → Except AppendError (List CommittedEvent × Log)
  | [] => .ok ([], log)
  | request :: rest =>
    match log.append (draws 0).1 (draws 0).2 request with
    | .error error => .error error
    | .ok (event, log') =>
      match log'.appendAll (fun n => draws (n + 1)) rest with
      | .error error => .error error
      | .ok (events, log'') => .ok (event :: events, log'')

variable {draws : Draws}

theorem Log.appendAll_cons {log₁ log₂ : Log} (hfirst : log.append eventId recordedAtMs request = .ok (event, log₁))
    (hrest : log₁.appendAll draws requests = .ok (events, log₂)) :
    log.appendAll (Draws.cons (eventId, recordedAtMs) draws) (request :: requests) =
      .ok (event :: events, log₂) := by
  simp only [Log.appendAll, Draws.cons, hfirst, hrest]

def applyMutation (entries : String → Option Bytes) : StateMutation → String → Option Bytes
  | .set key value => Function.update entries key (some value)
  | .delete key => Function.update entries key none

def applyMutations (entries : String → Option Bytes) (mutations : List StateMutation) : String → Option Bytes :=
  mutations.foldl applyMutation entries

namespace Store

def advance {ε : Type} (store : Store) (storage : String → ε) (ns : StateNamespace)
    (mutations : List StateMutation) : Except ε Store :=
  if mutations = [] then .ok store
  else if store.revision ns = u64Max then .error (storage "state revision exhausted")
  else .ok { store with
    revision := Function.update store.revision ns (store.revision ns + 1)
    state := Function.update store.state ns (applyMutations (store.state ns) mutations) }

def append (store : Store) (eventId : EventId) (recordedAtMs : Int) (request : AppendRequest) :
    Except AppendError (CommittedEvent × Store) :=
  (store.log.append eventId recordedAtMs request).map fun r => (r.1, { store with log := r.2 })

def apply (store : Store) (ns : StateNamespace) (expectedRevision : Nat) (mutations : List StateMutation) :
    Except StateError (Nat × Store) :=
  if store.revision ns ≠ expectedRevision then
    .error (.conflict expectedRevision (store.revision ns))
  else (store.advance StateError.storage ns mutations).map fun store' => (store'.revision ns, store')

def commitWork (store : Store) (draws : Draws) (commit : DeliveryCommit) :
    Except DeliveryError (DeliveryReceipt × Store) :=
  match store.advance DeliveryError.storage commit.cursor.namespace commit.mutations with
  | .error error => .error error
  | .ok advanced =>
    match advanced.log.appendAll draws commit.events with
    | .error error => .error (.append error)
    | .ok (events, log) =>
      let checkpoint := commit.checkpoint.getD (store.cursor commit.cursor)
      .ok (⟨events, checkpoint, advanced.revision commit.cursor.namespace⟩,
        { advanced with
          log := log
          cursor := Function.update store.cursor commit.cursor checkpoint })

def commit (store : Store) (draws : Draws) (commit : DeliveryCommit) :
    Except DeliveryError (DeliveryReceipt × Store) :=
  match commit.validate with
  | .error error => .error error
  | .ok () =>
    if store.cursor commit.cursor ≠ commit.expectedCheckpoint then
      .error (.conflict commit.expectedCheckpoint (store.cursor commit.cursor))
    else store.commitWork draws commit

def discard (store : Store) (cursor : CursorKey) : Store :=
  { store with
    revision := Function.update store.revision cursor.namespace 0
    state := Function.update store.state cursor.namespace fun _ => none
    cursor := Function.update store.cursor cursor 0 }

end Store

/-- What a request is answered with: the original under a key already held, or a new event. -/
def Answers (log : Log) (request : AppendRequest) (event : CommittedEvent) : Prop :=
  log.existing request = some event ∨
    (log.existing request = none ∧ event.request = request ∧ event ∉ log.events)

theorem Log.existing_mem (h : log.existing request = some event) : event ∈ log.events := by
  obtain ⟨key, -, hkey⟩ := Option.bind_eq_some_iff.mp h
  exact (Ledger.findKey_some hkey).1

theorem Log.append_answers (h : log.append eventId recordedAtMs request = .ok (event, log')) :
    Answers log request event := by
  obtain ⟨-, ⟨hfound, -⟩ | ⟨hnone, hevent, hid, -⟩⟩ := append_cases h
  · exact .inl hfound
  · refine .inr ⟨hnone, by rw [hevent]; rfl, fun hmem => ?_⟩
    exact hid event hmem (by rw [hevent]; rfl)

theorem Log.existing_snoc (hlog : log'.events = log.events ++ [event])
    (hkey : ∀ key, request.deduplicationKey = some key → event.request.deduplicationKey ≠ some key) :
    log'.existing request = log.existing request := by
  unfold existing
  cases hk : request.deduplicationKey with
  | none => rfl
  | some key =>
    change Ledger.findKey eventView request.streamId key log'.events = _
    have hne : event.request.deduplicationKey ≠ some key := hkey key hk
    rw [hlog, Ledger.findKey, find?_append]
    have hlast : [event].find? (fun e => eventView.stream e = request.streamId ∧ eventView.key e = some key) = none := by
      simp [eventView, hne]
    rw [hlast, Option.or_none]
    rfl

/-- A batch without repeated keys: every request is answered by itself, and the log grows by
the new events in order. -/
theorem appendAll_answers (hkeys : (requests.filterMap (·.deduplicationKey)).Nodup)
    (h : log.appendAll draws requests = .ok (events, log')) :
    Forall₂ (Answers log) requests events ∧
    log'.events = log.events ++ events.filter (· ∉ log.events) := by
  induction requests generalizing log draws events with
  | nil =>
    cases h
    exact ⟨.nil, by simp⟩
  | cons request rest ih =>
    unfold Log.appendAll at h
    split at h
    · cases h
    rename_i event log₁ hfirst
    split at h
    · cases h
    rename_i events' log₂ hrest
    cases h
    have hrestKeys : (rest.filterMap (·.deduplicationKey)).Nodup := by
      cases hk : request.deduplicationKey with
      | none => simpa [filterMap_cons, hk] using hkeys
      | some key => exact (nodup_cons.mp (by simpa [filterMap_cons, hk] using hkeys)).2
    obtain ⟨hanswers, hlog'⟩ := ih hrestKeys hrest
    have hhead := Log.append_answers hfirst
    obtain ⟨-, ⟨hfound, rfl⟩ | ⟨hnone, hevent, hid, hlog₁⟩⟩ := Log.append_cases hfirst
    · refine ⟨.cons hhead hanswers, ?_⟩
      rw [hlog', filter_cons_of_neg (by simpa using Log.existing_mem hfound)]
    · have hreq : event.request = request := by rw [hevent]; rfl
      have hfresh : event ∉ log.events := fun hmem => hid event hmem (by rw [hevent]; rfl)
      have hexisting : ∀ r ∈ rest, log₁.existing r = log.existing r := by
        intro r hr
        refine Log.existing_snoc hlog₁ fun key hk hk' => ?_
        rw [hreq] at hk'
        rw [filterMap_cons, hk'] at hkeys
        exact (nodup_cons.mp hkeys).1 (mem_filterMap.mpr ⟨r, hr, hk⟩)
      have htail : Forall₂ (fun r e => Answers log r e ∧ e ≠ event) rest events' := by
        refine ((forall₂_and_left _ _).mpr ⟨hexisting, hanswers⟩).imp ?_
        rintro r e ⟨hr, hfound | ⟨hmiss, hreq', hnew⟩⟩
        · rw [hr] at hfound
          exact ⟨.inl hfound, fun he => hfresh (he ▸ Log.existing_mem hfound)⟩
        · rw [hr] at hmiss
          rw [hlog₁] at hnew
          simp only [mem_append, mem_singleton, not_or] at hnew
          exact ⟨.inr ⟨hmiss, hreq', hnew.1⟩, hnew.2⟩
      have hne : ∀ e ∈ events', e ≠ event := by
        intro e he
        obtain ⟨r, -, -, hr⟩ := forall₂_mem_right htail he
        exact hr
      refine ⟨.cons hhead (htail.imp fun _ _ h => h.1), ?_⟩
      have hfilter : events'.filter (· ∉ log₁.events) = events'.filter (· ∉ log.events) := by
        refine filter_congr fun e he => ?_
        simp [hlog₁, hne e he]
      rw [hlog', hfilter, hlog₁, filter_cons_of_pos (by simpa using hfresh), append_assoc,
        singleton_append]


theorem appendAll_extends (h : log.appendAll draws requests = .ok (events, log')) : log.events <+: log'.events := by
  induction requests generalizing log draws events with
  | nil =>
    cases h
    exact prefix_refl _
  | cons request rest ih =>
    unfold Log.appendAll at h
    split at h
    · cases h
    rename_i event log₁ hfirst
    split at h
    · cases h
    rename_i events' log₂ hrest
    cases h
    exact (Log.append_extends hfirst).trans (ih hrest)

inductive Store.Step : Store → Store → Prop
  | append {store store' : Store} {eventId : EventId} {recordedAtMs : Int} {request : AppendRequest}
      {event : CommittedEvent} (h : store.append eventId recordedAtMs request = .ok (event, store')) :
      Step store store'
  | commit {store store' : Store} {draws : Draws} {commit : DeliveryCommit} {receipt : DeliveryReceipt}
      (h : store.commit draws commit = .ok (receipt, store')) : Step store store'
  | apply {store store' : Store} {ns : StateNamespace} {expected revision : Nat}
      {mutations : List StateMutation} (h : store.apply ns expected mutations = .ok (revision, store')) :
      Step store store'
  | discard {store : Store} (cursor : CursorKey) : Step store (store.discard cursor)

variable {store store' : Store}

theorem Store.append_log (h : store.append eventId recordedAtMs request = .ok (event, store')) :
    ∃ log', store.log.append eventId recordedAtMs request = .ok (event, log') ∧
      store' = { store with log := log' } := by
  unfold Store.append at h
  cases hlog : store.log.append eventId recordedAtMs request with
  | error e => simp [hlog, Except.map] at h
  | ok r =>
    obtain ⟨event', log'⟩ := r
    simp only [hlog, Except.map, Except.ok.injEq, Prod.mk.injEq] at h
    obtain ⟨rfl, rfl⟩ := h
    exact ⟨log', rfl, rfl⟩

theorem Store.advance_ok {ε : Type} {storage : String → ε} {ns : StateNamespace} {mutations : List StateMutation}
    (h : store.advance storage ns mutations = .ok store') :
    store'.log = store.log ∧ store'.cursor = store.cursor ∧
    store'.state = update store.state ns (applyMutations (store.state ns) mutations) ∧
    store'.revision = update store.revision ns
      (store.revision ns + if mutations = [] then 0 else 1) := by
  unfold Store.advance at h
  split at h
  · rename_i hm
    cases h
    subst hm
    exact ⟨rfl, rfl, (update_eq_self ns store.state).symm,
      (update_eq_self ns store.revision).symm⟩
  · rename_i hm
    split at h
    · cases h
    · cases h
      simp [hm]

theorem Store.apply_ok {ns : StateNamespace} {expected revision : Nat} {mutations : List StateMutation}
    (h : store.apply ns expected mutations = .ok (revision, store')) :
    store.revision ns = expected ∧ store.advance StateError.storage ns mutations = .ok store' ∧
    revision = store'.revision ns := by
  unfold Store.apply at h
  split at h
  · cases h
  · rename_i hexpected
    cases hadvance : store.advance StateError.storage ns mutations with
    | error e => simp [hadvance, Except.map] at h
    | ok advanced =>
      simp only [hadvance, Except.map, Except.ok.injEq, Prod.mk.injEq] at h
      obtain ⟨rfl, rfl⟩ := h
      exact ⟨not_not.mp hexpected, rfl, rfl⟩

theorem Store.commit_ok {commit : DeliveryCommit} {receipt : DeliveryReceipt}
    (h : store.commit draws commit = .ok (receipt, store')) :
    commit.validate = .ok () ∧ store.cursor commit.cursor = commit.expectedCheckpoint ∧
    store.log.appendAll draws commit.events = .ok (receipt.events, store'.log) ∧
    store'.state = update store.state commit.cursor.namespace
      (applyMutations (store.state commit.cursor.namespace) commit.mutations) ∧
    store'.revision = update store.revision commit.cursor.namespace
      (store.revision commit.cursor.namespace + if commit.mutations = [] then 0 else 1) ∧
    store'.cursor = update store.cursor commit.cursor
      (commit.checkpoint.getD (store.cursor commit.cursor)) ∧
    receipt.checkpoint = store'.cursor commit.cursor ∧
    receipt.revision = store'.revision commit.cursor.namespace := by
  unfold Store.commit at h
  split at h
  · cases h
  rename_i hvalid
  split at h
  · cases h
  rename_i hexpected
  unfold Store.commitWork at h
  split at h
  · cases h
  rename_i advanced hadvance
  split at h
  · cases h
  rename_i events log hevents
  cases h
  obtain ⟨hlog, -, hstate, hrevision⟩ := Store.advance_ok hadvance
  exact ⟨hvalid, not_not.mp hexpected, hlog ▸ hevents, hstate, hrevision, rfl, by simp, rfl⟩

theorem Store.Step.extends (h : Store.Step store store') : store.log.events <+: store'.log.events := by
  cases h with
  | append h =>
    obtain ⟨log', hlog, rfl⟩ := Store.append_log h
    exact Log.append_extends hlog
  | commit h => exact appendAll_extends (Store.commit_ok h).2.2.1
  | apply h =>
    have hlog := (Store.advance_ok (Store.apply_ok h).2.1).1
    exact hlog ▸ prefix_refl _
  | discard cursor => exact prefix_refl _

theorem Store.append_new {x : CommittedEvent} (h : store.append eventId recordedAtMs request = .ok (event, store'))
    (hx : x ∈ store'.log.events) : x ∈ store.log.events ∨ x.request = request := by
  obtain ⟨log', hlog, rfl⟩ := Store.append_log h
  exact Log.append_new hlog hx

theorem Store.commit_new {commit : DeliveryCommit} {receipt : DeliveryReceipt} {x : CommittedEvent}
    (h : store.commit draws commit = .ok (receipt, store')) (hx : x ∈ store'.log.events) :
    x ∈ store.log.events ∨ x.request ∈ commit.events := by
  obtain ⟨hvalid, -, hevents, -⟩ := Store.commit_ok h
  obtain ⟨hanswers, hlog⟩ := appendAll_answers (validate_ok hvalid).keys hevents
  rw [hlog, mem_append, mem_filter] at hx
  refine hx.imp_right fun hnew => ?_
  obtain ⟨request, hrequest, hanswer⟩ := forall₂_mem_right hanswers hnew.1
  rcases hanswer with hexisting | ⟨-, heq, -⟩
  · exact absurd (Log.existing_mem hexisting) (by simpa using hnew.2)
  · exact heq ▸ hrequest

theorem Store.reachable_extends (h : Relation.ReflTransGen Store.Step store store') :
    store.log.events <+: store'.log.events := by
  induction h with
  | refl => exact prefix_refl _
  | tail _ hstep ih => exact ih.trans hstep.extends

end Pluribus.Storage
