import Pluribus.Storage.Refinement

namespace Pluribus.Storage.Sqlite

open Lib Pluribus.Core Storage.Row List

variable {database : Database} {store : Store}

inductive Call where
  | append (request : AppendRequest)
  | commit (delivery : DeliveryCommit)
  | apply (ns : StateNamespace) (expectedRevision : Nat) (mutations : List StateMutation)
  | discard (cursor : CursorKey)

def Call.run (o : Outside) : Call → Database → Database
  | .append request, database => (Sqlite.append o request database).2
  | .commit delivery, database => (Sqlite.commit o delivery database).2
  | .apply ns expected mutations, database => (Sqlite.apply o ns expected mutations database).2
  | .discard cursor, database => (Sqlite.discard o cursor database).2

/-- Transactions are serializable, so any interleaving of callers is a sequence of calls. -/
def runCalls (database : Database) (calls : List (Outside × Call)) : Database :=
  calls.foldl (fun database call => call.2.run call.1 database) database

def committed (database : Database) : Except String (List CommittedEvent) :=
  database.events.mapM decodeEvent

section

variable (h : Represents database store)

include h

theorem Represents.call (o : Outside) (call : Call) :
    ∃ store', Represents (call.run o database) store' ∧ Relation.ReflTransGen Store.Step store store' := by
  cases call with
  | append request =>
    cases hr : (Sqlite.append o request database).1 with
    | error e => exact ⟨store, by rw [Call.run, append_error hr]; exact h, .refl⟩
    | ok event =>
      obtain ⟨eventId, recordedAtMs, store', happend, hrep⟩ := h.append hr
      exact ⟨store', hrep, .single (.append happend)⟩
  | commit delivery =>
    cases hr : (Sqlite.commit o delivery database).1 with
    | error e => exact ⟨store, by rw [Call.run, commit_error hr]; exact h, .refl⟩
    | ok receipt =>
      obtain ⟨draws, store', hcommit, hrep⟩ := h.commit hr
      exact ⟨store', hrep, .single (.commit hcommit)⟩
  | apply ns expected mutations =>
    cases hr : (Sqlite.apply o ns expected mutations database).1 with
    | error e => exact ⟨store, by rw [Call.run, apply_error hr]; exact h, .refl⟩
    | ok revision =>
      obtain ⟨store', happly, hrep⟩ := h.apply hr
      exact ⟨store', hrep, .single (.apply happly)⟩
  | discard cursor =>
    cases hr : (Sqlite.discard o cursor database).1 with
    | error e => exact ⟨store, by rw [Call.run, discard_error hr]; exact h, .refl⟩
    | ok u => exact ⟨store.discard cursor, h.discard hr, .single (.discard cursor)⟩

theorem Represents.run (calls : List (Outside × Call)) :
    ∃ store', Represents (runCalls database calls) store' ∧ Relation.ReflTransGen Store.Step store store' := by
  induction calls generalizing database store with
  | nil => exact ⟨store, h, .refl⟩
  | cons call rest ih =>
    obtain ⟨store₁, h₁, hstep⟩ := h.call call.1 call.2
    obtain ⟨store₂, h₂, hsteps⟩ := ih h₁
    exact ⟨store₂, h₂, hstep.trans hsteps⟩

theorem Represents.committed : committed database = .ok store.log.events :=
  forall₂_mapM h.events

def inStream (s : StreamId) (events : List CommittedEvent) : List CommittedEvent :=
  events.filter (·.request.streamId = s)

/-- The tables hold these events: numbered from one in every stream that has a row, with the
row's head and kind, and with unique identifiers and keys. -/
structure Intact (database : Database) (events : List CommittedEvent) : Prop where
  committed : committed database = .ok events
  sequences : ∀ s, (inStream s events).map (·.sequence) = List.range' 1 (inStream s events).length
  rows : ∀ s, database.streams.find s = none ↔ inStream s events = []
  heads : ∀ s row, database.streams.find s = some row →
    row.nextSequence = (inStream s events).length + 1
  kinds : ∀ s row, database.streams.find s = some row →
    ∀ event ∈ inStream s events, encodeStreamKind event.request.streamKind = row.streamKind
  ids : (events.map (·.eventId)).Nodup
  keys : ∀ event ∈ events, ∀ other ∈ events, event.request.streamId = other.request.streamId →
    ∀ key, event.request.deduplicationKey = some key → other.request.deduplicationKey = some key →
      event = other

theorem Represents.intact : Intact database store.log.events where
  committed := h.committed
  sequences := store.log.wellFormed.numbered
  rows s := by
    rw [h.streams]
    change _ ↔ store.log.stream s = []
    cases store.log.stream s <;> simp [streamRow]
  heads s row hrow := by
    rw [h.streams] at hrow
    change row.nextSequence = (store.log.stream s).length + 1
    cases hs : store.log.stream s with
    | nil => rw [hs] at hrow; cases hrow
    | cons event rest =>
      rw [hs] at hrow
      cases hrow
      rfl
  kinds s row hrow event hevent := by
    change event ∈ store.log.stream s at hevent
    rw [h.streams] at hrow
    cases hs : store.log.stream s with
    | nil => rw [hs] at hevent; cases hevent
    | cons first rest =>
      have hfirst : first ∈ store.log.stream s := hs ▸ mem_cons_self
      rw [hs] at hrow
      cases hrow
      have hf := Ledger.mem_ofStream.mp hfirst
      have he := Ledger.mem_ofStream.mp hevent
      exact congrArg encodeStreamKind
        (store.log.wellFormed.kinds event he.1 first hf.1 (he.2.trans hf.2.symm))
  ids := store.log.wellFormed.ids
  keys := store.log.wellFormed.keys

/-- How a store with these events answers a request that repeats the key of one of them. -/
structure AnswersRepeated (database : Database) (event : CommittedEvent) (request : AppendRequest) : Prop where
  unchanged : ∀ o, (Sqlite.append o request database).2 = database
  original : ∀ o answer, (Sqlite.append o request database).1 = .ok answer → answer = event
  answered : ∀ o, (∀ n, o.failure n = none) → request.validate = .ok () →
    (Sqlite.append o request database).1 = .ok event
  batch : ∀ o delivery receipt, (Sqlite.commit o delivery database).1 = .ok receipt →
    ∀ i : Nat, delivery.events[i]? = some request → receipt.events[i]? = some event

theorem Represents.answersRepeated {event : CommittedEvent}
    (hevent : event ∈ store.log.events) {key : String} (hkey : event.request.deduplicationKey = some key)
    {request : AppendRequest} (hstream : request.streamId = event.request.streamId)
    (hrequest : request.deduplicationKey = some key) : AnswersRepeated database event request := by
  have hfind : store.log.find request.streamId key = some event := by
    rw [hstream]
    exact store.log.wellFormed.findKey_of_mem hevent hkey
  have hselect : Sqlite.selectKey request.streamId key database = .ok (some event) := by
    rw [h.selectKey, hfind]
  have happend : ∀ o answer, (Sqlite.append o request database).1 = .ok answer →
      answer = event ∧ (Sqlite.append o request database).2 = database := by
    intro o answer hok
    obtain ⟨s, t, hs, hin, hdb⟩ := append_ok hok
    obtain ⟨-, ⟨key', hkey', hfound, ht⟩ | ⟨hmiss, -⟩⟩ := appendIn_ok hin
    · rw [hrequest] at hkey'
      cases hkey'
      rw [hs, hselect] at hfound
      cases hfound
      exact ⟨rfl, by rw [hdb, ht, hs]⟩
    · have hnone := hmiss key hrequest
      rw [hs, hselect] at hnone
      cases hnone
  refine ⟨fun o => ?_, fun o answer hok => (happend o answer hok).1, fun o hfailure hvalid => ?_, ?_⟩
  · cases hr : (Sqlite.append o request database).1 with
    | error e => exact append_error hr
    | ok answer => exact (happend o answer hr).2
  · rw [append_repeated hfailure hvalid hrequest hselect]
  · intro o delivery receipt hcommit i hi
    obtain ⟨draws, store', hstore, -⟩ := h.commit hcommit
    obtain ⟨hvalid, -, hbatch, -⟩ := Store.commit_ok hstore
    have hanswers := (appendAll_answers (validate_ok hvalid).keys hbatch).1
    obtain ⟨hlt, hget⟩ := List.getElem?_eq_some_iff.mp hi
    have hlt' : i < receipt.events.length := hanswers.length_eq ▸ hlt
    have hat : Answers store.log request receipt.events[i] := by
      have hpair := hanswers.get hlt hlt'
      rw [get_eq_getElem, get_eq_getElem, hget] at hpair
      exact hpair
    have hexisting : store.log.existing request = some event := by
      rw [Log.existing, hrequest]
      exact hfind
    rcases hat with hfound | ⟨hnone, -⟩
    · rw [hexisting] at hfound
      rw [getElem?_eq_getElem hlt', ← hfound]
    · rw [hexisting] at hnone
      cases hnone

end

/-- Stream integrity over every sequence of calls and every continuation of it. -/
theorem stream_integrity (calls more : List (Outside × Call)) :
    ∃ before after : List CommittedEvent,
      Intact (runCalls Database.empty calls) before ∧
      Intact (runCalls Database.empty (calls ++ more)) after ∧
      before <+: after ∧
      (∀ s row, (runCalls Database.empty calls).streams.find s = some row →
        ∃ row', (runCalls Database.empty (calls ++ more)).streams.find s = some row' ∧
          row'.streamKind = row.streamKind) ∧
      ∀ event ∈ before, ∀ key, event.request.deduplicationKey = some key →
        ∀ request : AppendRequest, request.streamId = event.request.streamId →
          request.deduplicationKey = some key →
          AnswersRepeated (runCalls Database.empty (calls ++ more)) event request := by
  obtain ⟨store, hstore, -⟩ := represents_empty.run calls
  obtain ⟨store', hstore', hsteps⟩ := hstore.run more
  have hrun : runCalls Database.empty (calls ++ more) = runCalls (runCalls Database.empty calls) more :=
    foldl_append ..
  rw [← hrun] at hstore'
  have hextends := Store.reachable_extends hsteps
  have hbefore := hstore.intact
  have hafter := hstore'.intact
  refine ⟨store.log.events, store'.log.events, hbefore, hafter, hextends, ?_, ?_⟩
  · intro s row hrow
    have hmem : inStream s store.log.events ≠ [] := by
      rw [ne_eq, ← hbefore.rows, hrow]
      simp
    obtain ⟨event, hevent⟩ := exists_mem_of_ne_nil _ hmem
    obtain ⟨hold, hs⟩ := mem_filter.mp hevent
    have hevent' : event ∈ inStream s store'.log.events := mem_filter.mpr ⟨hextends.subset hold, hs⟩
    cases hrow' : (runCalls Database.empty (calls ++ more)).streams.find s with
    | none => rw [(hafter.rows s).mp hrow'] at hevent'; cases hevent'
    | some row' =>
      exact ⟨row', rfl, (hafter.kinds s row' hrow' event hevent').symm.trans (hbefore.kinds s row hrow event hevent)⟩
  · intro event hevent key hkey request hstream hrequest
    exact hstore'.answersRepeated (hextends.subset hevent) hkey hstream hrequest

/-- After any calls, failed ones too, the tables stand for a store that its own steps reach, and a call that succeeds
then answers as this store does. -/
theorem tables_refine_store (calls : List (Outside × Call)) (o : Outside) :
    let database := runCalls Database.empty calls
    ∃ store, Represents database store ∧ Relation.ReflTransGen Store.Step Store.empty store ∧
      (∀ request event, (Sqlite.append o request database).1 = .ok event → ∃ eventId time store',
        store.append eventId time request = .ok (event, store') ∧
          Represents (Sqlite.append o request database).2 store') ∧
      (∀ delivery receipt, (Sqlite.commit o delivery database).1 = .ok receipt → ∃ draws store',
        store.commit draws delivery = .ok (receipt, store') ∧ Represents (Sqlite.commit o delivery database).2 store') ∧
      ∀ ns expected mutations revision, (Sqlite.apply o ns expected mutations database).1 = .ok revision → ∃ store',
        store.apply ns expected mutations = .ok (revision, store') ∧
          Represents (Sqlite.apply o ns expected mutations database).2 store' := by
  obtain ⟨store, h, hsteps⟩ := represents_empty.run calls
  exact ⟨store, h, hsteps, fun _ _ => h.append, fun _ _ => h.commit, fun _ _ _ _ => h.apply⟩

end Pluribus.Storage.Sqlite
