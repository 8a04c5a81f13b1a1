import Pluribus.Core.Delivery
import Pluribus.Lib.Ledger

namespace Pluribus.Storage

open Lib Pluribus.Core List

def eventView : Ledger.View CommittedEvent StreamId String EventId StreamKind where
  stream event := event.request.streamId
  position event := event.sequence
  key event := event.request.deduplicationKey
  id event := event.eventId
  kind event := event.request.streamKind

/-- The committed events of every stream, in the order of their commits. -/
@[ext]
structure Log where
  events : List CommittedEvent
  wellFormed : Ledger.WellFormed eventView events
  bounded : ∀ s, (Ledger.ofStream eventView s events).length < i64Max

namespace Log

variable {log log' : Log} {eventId : EventId} {recordedAtMs : Int} {request : AppendRequest} {event : CommittedEvent}
  {s : StreamId}

def empty : Log := ⟨[], Ledger.WellFormed.nil, fun _ => Nat.zero_lt_succ _⟩

def stream (log : Log) (s : StreamId) : List CommittedEvent := Ledger.ofStream eventView s log.events

def find (log : Log) (s : StreamId) (key : String) : Option CommittedEvent :=
  Ledger.findKey eventView s key log.events

def get (log : Log) (eventId : EventId) : Option CommittedEvent :=
  log.events.find? (·.eventId = eventId)

def read (log : Log) (s : StreamId) (afterSequence limit : Nat) : List CommittedEvent :=
  ((log.stream s).filter (afterSequence < ·.sequence)).take limit

/-- The text index answers which events a text finds, or nothing when the text has no token. -/
abbrev Search := String → Option (EventId → Bool)

def textMatches (search : Search) (query : EventQuery) (event : CommittedEvent) : Bool :=
  query.textQuery.all fun text => (search text).any fun found => found event.eventId

/-- Matching events in sequence order, newest first when the query asks for it. -/
def query (log : Log) (search : Search) (s : StreamId) (query : EventQuery) (limit : Nat) :
    List CommittedEvent :=
  if query.beforeSequence.any (i64Max < ·) then []
  else
    let hits := (log.stream s).filter fun event => query.matches event && textMatches search query event
    (if query.descending then hits.reverse else hits).take limit

def push (log : Log) (event : CommittedEvent) (h : Ledger.Fresh eventView log.events event)
    (hbound : (log.stream event.request.streamId).length + 1 ≠ i64Max) : Log where
  events := log.events ++ [event]
  wellFormed := log.wellFormed.snoc h
  bounded s := by
    rw [Ledger.ofStream_append, length_append]
    have hold := log.bounded s
    by_cases hs : eventView.stream event = s
    · subst hs
      rw [Ledger.ofStream_self, length_singleton]
      exact lt_of_le_of_ne hold hbound
    · rw [Ledger.ofStream_other hs]
      exact hold

def next (log : Log) (eventId : EventId) (recordedAtMs : Int) (request : AppendRequest) : CommittedEvent :=
  ⟨CommittedEvent.SCHEMA, eventId, (log.stream request.streamId).length + 1, recordedAtMs, request⟩

def existing (log : Log) (request : AppendRequest) : Option CommittedEvent :=
  request.deduplicationKey.bind (log.find request.streamId)

theorem next_fresh (hkey : log.existing request = none)
    (hkind : ∀ f ∈ log.stream request.streamId, f.request.streamKind = request.streamKind)
    (hid : ∀ f ∈ log.events, f.eventId ≠ eventId) :
    Ledger.Fresh eventView log.events (log.next eventId recordedAtMs request) where
  position := rfl
  id := hid
  key := by
    intro k hk
    change request.deduplicationKey = some k at hk
    rwa [existing, hk] at hkey
  kind := fun f hf hs => hkind f (Ledger.mem_ofStream.mpr ⟨hf, hs⟩)

/-- Appends one event, given the identifier and the time drawn for it. A repeated
deduplication key answers with the event committed first. -/
def append (log : Log) (eventId : EventId) (recordedAtMs : Int) (request : AppendRequest) :
    Except AppendError (CommittedEvent × Log) :=
  match request.validate with
  | .error error => .error error
  | .ok () =>
    match hkey : log.existing request with
    | some event => .ok (event, log)
    | none =>
      if hkind : ∀ f ∈ log.stream request.streamId, f.request.streamKind = request.streamKind then
        if hbound : (log.stream request.streamId).length + 1 = i64Max then
          .error (.storage "stream sequence exhausted")
        else if hid : ∀ f ∈ log.events, f.eventId ≠ eventId then
          let event := log.next eventId recordedAtMs request
          .ok (event, log.push event (next_fresh hkey hkind hid) hbound)
        else .error (.storage ("event ID collision: " ++ eventId))
      else .error (.invalidEvent ("stream kind changed for " ++ request.streamId))

def appended (log : Log) (eventId : EventId) (recordedAtMs : Int) (request : AppendRequest) : Log :=
  match log.append eventId recordedAtMs request with
  | .ok (_, log') => log'
  | .error _ => log

/-- Every outcome of a successful append: the event under the repeated key, or one fresh
event at the end of the log. -/
theorem append_cases (h : log.append eventId recordedAtMs request = .ok (event, log')) :
    request.validate = .ok () ∧
    ((log.existing request = some event ∧ log' = log) ∨
      (log.existing request = none ∧ event = log.next eventId recordedAtMs request ∧
        (∀ f ∈ log.events, f.eventId ≠ eventId) ∧ log'.events = log.events ++ [event])) := by
  unfold append at h
  split at h
  · cases h
  rename_i hvalid
  refine ⟨hvalid, ?_⟩
  split at h
  · rename_i found hfound
    cases h
    exact .inl ⟨hfound, rfl⟩
  rename_i hnone
  split at h
  · split at h
    · cases h
    split at h
    · rename_i hid
      cases h
      exact .inr ⟨hnone, rfl, hid, rfl⟩
    · cases h
  · cases h

theorem stream_pairwise (log : Log) (s : StreamId) :
    (log.stream s).Pairwise fun event later => event.sequence < later.sequence := by
  have hsorted : ((log.stream s).map eventView.position).Pairwise (· < ·) := by
    rw [stream, log.wellFormed.numbered]
    exact pairwise_lt_range'
  exact pairwise_map.mp hsorted

theorem sequence_le (h : event ∈ log.events) :
    1 ≤ event.sequence ∧ event.sequence ≤ (log.stream event.request.streamId).length := by
  have hmem : event.sequence ∈ (log.stream event.request.streamId).map eventView.position :=
    mem_map_of_mem (Ledger.mem_ofStream.mpr ⟨h, rfl⟩)
  rw [stream, log.wellFormed.numbered, mem_range'_1] at hmem
  exact ⟨hmem.1, by unfold stream; omega⟩

theorem sequence_le_length (h : event ∈ log.stream s) : event.sequence ≤ (log.stream s).length := by
  obtain ⟨hmem, hstream⟩ := Ledger.mem_ofStream.mp h
  have hle := (sequence_le hmem).2
  rwa [show event.request.streamId = s from hstream] at hle

theorem stream_grows (h : log.events <+: log'.events) (s : StreamId) : log.stream s <+: log'.stream s :=
  h.filter _

theorem old_of_sequence_le (h : log.events <+: log'.events) (hmem : event ∈ log'.stream s)
    (hle : event.sequence ≤ (log.stream s).length) : event ∈ log.stream s := by
  obtain ⟨more, hmore⟩ := stream_grows h s
  rw [← hmore] at hmem
  rcases mem_append.mp hmem with hold | hnew
  · exact hold
  · exfalso
    have hnumbered := log'.wellFormed.numbered s
    change (log'.stream s).map eventView.position = List.range' 1 (log'.stream s).length at hnumbered
    rw [← hmore, map_append, length_append, ← range'_append_1] at hnumbered
    have hnew' := (append_inj hnumbered (by simp)).2
    have hposition : event.sequence ∈ more.map eventView.position := mem_map_of_mem hnew
    rw [hnew', mem_range'_1] at hposition
    omega

theorem sequence_lt_new (h : log.events <+: log'.events) {old new : CommittedEvent} (hold : old ∈ log.stream s)
    (hnew : new ∈ log'.stream s) (hfresh : new ∉ log.events) : old.sequence < new.sequence := by
  by_contra hle
  have hlength := (Nat.le_of_not_lt hle).trans (sequence_le_length hold)
  exact hfresh (Ledger.mem_ofStream.mp (old_of_sequence_le h hnew hlength)).1

theorem event_unique (log : Log) {x y : CommittedEvent} (hx : x ∈ log.events) (hy : y ∈ log.events)
    (h : x.eventId = y.eventId) : x = y :=
  inj_on_of_nodup_map log.wellFormed.ids hx hy h

theorem append_existing (eventId : EventId) (recordedAtMs : Int) (hvalid : request.validate = .ok ())
    (h : log.existing request = some event) : log.append eventId recordedAtMs request = .ok (event, log) := by
  unfold append
  simp only [hvalid]
  split
  · rename_i found hfound
    rw [h] at hfound
    cases hfound
    rfl
  · rename_i hnone
    rw [h] at hnone
    cases hnone

theorem append_fresh (recordedAtMs : Int) (hvalid : request.validate = .ok ()) (hnone : log.existing request = none)
    (hkind : ∀ f ∈ log.stream request.streamId, f.request.streamKind = request.streamKind)
    (hlength : (log.stream request.streamId).length + 1 ≠ i64Max) (hid : ∀ f ∈ log.events, f.eventId ≠ eventId) :
    ∃ log', log.append eventId recordedAtMs request = .ok (log.next eventId recordedAtMs request, log') ∧
      log'.events = log.events ++ [log.next eventId recordedAtMs request] := by
  refine ⟨log.push _ (next_fresh hnone hkind hid) hlength, ?_, rfl⟩
  unfold append
  simp only [hvalid]
  split
  · rename_i found hfound
    rw [hnone] at hfound
    cases hfound
  · rw [dif_pos hkind, dif_neg hlength, dif_pos hid]

theorem append_extends (h : log.append eventId recordedAtMs request = .ok (event, log')) :
    log.events <+: log'.events := by
  obtain ⟨-, ⟨-, rfl⟩ | ⟨-, -, -, hlog⟩⟩ := append_cases h
  · exact prefix_refl _
  · rw [hlog]
    exact prefix_append _ _

/-- A log that has grown by one append holds no event but those of before and the answer. -/
theorem append_new {x : CommittedEvent} (h : log.append eventId recordedAtMs request = .ok (event, log'))
    (hx : x ∈ log'.events) : x ∈ log.events ∨ x.request = request := by
  obtain ⟨-, ⟨-, rfl⟩ | ⟨-, rfl, -, hlog⟩⟩ := append_cases h
  · exact .inl hx
  · rw [hlog, mem_append, mem_singleton] at hx
    exact hx.imp_right fun hx => by rw [hx]; rfl

theorem find_append {key : String} (hlog : log.events <+: log'.events) (h : log.find s key = some event) :
    log'.find s key = some event := by
  obtain ⟨rest, hrest⟩ := hlog
  unfold find
  rw [← hrest]
  exact Ledger.findKey_append_of_some h

theorem append_find {key : String} (hkey : request.deduplicationKey = some key)
    (h : log.append eventId recordedAtMs request = .ok (event, log')) :
    log'.find request.streamId key = some event := by
  obtain ⟨-, ⟨hfound, rfl⟩ | ⟨-, rfl, -, hlog⟩⟩ := append_cases h
  · rwa [existing, hkey] at hfound
  · have hmem : log.next eventId recordedAtMs request ∈ log'.events := by
      rw [hlog]
      exact mem_append_right _ (mem_singleton_self _)
    exact log'.wellFormed.findKey_of_mem hmem hkey

theorem mem_query {search : Search} {q : EventQuery} {limit : Nat} (h : event ∈ log.query search s q limit) :
    event ∈ log.stream s ∧ q.matches event = true := by
  unfold query at h
  split at h
  · cases h
  · have hhits := mem_of_mem_take h
    have hmem : event ∈ (log.stream s).filter fun event => q.matches event && textMatches search q event := by
      split at hhits
      · exact mem_reverse.mp hhits
      · exact hhits
    obtain ⟨hstream, hmatch⟩ := mem_filter.mp hmem
    exact ⟨hstream, (Bool.and_eq_true_iff.mp hmatch).1⟩

theorem append_mem (h : log.append eventId recordedAtMs request = .ok (event, log')) : event ∈ log'.events := by
  obtain ⟨-, ⟨hfound, rfl⟩ | ⟨-, -, -, hlog⟩⟩ := append_cases h
  · obtain ⟨key, -, hkey⟩ := Option.bind_eq_some_iff.mp hfound
    exact (Ledger.findKey_some hkey).1
  · rw [hlog]
    exact mem_append_right _ (mem_singleton_self _)

end Log

end Pluribus.Storage
