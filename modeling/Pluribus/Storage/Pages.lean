import Pluribus.Storage.Ops

namespace Pluribus.Storage

open Lib Pluribus.Core List

theorem Log.query_types (log : Log) (search : Log.Search) (s : StreamId) (after limit : Nat) {types : List String}
    (htypes : types ≠ []) :
    log.query search s { afterSequence := some after, eventTypes := types } limit =
      ((log.stream s).filter fun event => after < event.sequence ∧ event.request.eventType ∈ types).take limit := by
  unfold query
  simp only [Option.any_none, Bool.false_eq_true, if_false]
  congr 1
  refine filter_congr fun event _ => ?_
  rw [Bool.eq_iff_iff, Bool.and_eq_true, EventQuery.matches_types, decide_eq_true_iff]
  simp [textMatches, htypes]

def lastSequence (events : List CommittedEvent) : Nat := (events.getLast?.map (·.sequence)).getD 0

theorem lastSequence_le {events : List CommittedEvent} {bound : Nat} (h : ∀ event ∈ events, event.sequence ≤ bound) :
    lastSequence events ≤ bound := by
  unfold lastSequence
  cases hlast : events.getLast? with
  | none => exact Nat.zero_le _
  | some last => exact h last (mem_of_getLast? hlast)

theorem lastSequence_append {seen page : List CommittedEvent} (h : page ≠ []) :
    lastSequence (seen ++ page) = lastSequence page := by
  simp [lastSequence, getLast?_append, getLast?_eq_some_getLast h]

theorem Log.unread_eq {log : Log} {s : StreamId} {p : CommittedEvent → Prop} [DecidablePred p]
    {seen rest : List CommittedEvent} (h : (log.stream s).filter (p ·) = seen ++ rest) :
    ((log.stream s).filter fun event => lastSequence seen < event.sequence ∧ p event) = rest := by
  have hsorted := (log.stream_pairwise s).filter (p ·)
  rw [h] at hsorted
  rw [← filter_after hsorted, ← h, filter_filter]
  refine filter_congr fun event hevent => ?_
  have hpos := (Log.sequence_le (Ledger.mem_ofStream.mp hevent).1).1
  cases hlast : seen.getLast? <;> simp [lastSequence, hlast]
  omega

end Pluribus.Storage
