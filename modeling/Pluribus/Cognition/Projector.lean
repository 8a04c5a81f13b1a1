import Pluribus.Cognition.Refresh

namespace Pluribus.Cognition

open Lib Pluribus.Core Storage List

/-- The log, the projection of one of its streams, and the page size of the refresh that holds the projection. -/
structure Projector where
  log : Log
  projection : DispatchProjection := {}
  refreshing : Option Nat := none

inductive Projector.Act where
  | append (eventId : EventId) (recordedAtMs : Int) (request : AppendRequest)
  | refresh (pageSize : Nat)
  | page
  | failPage (error : RouterError)

namespace Projector

variable (search : Log.Search) (stream : StreamId)

/-- One act, and the outcome of the refresh it ends. A refresh reads a page at a time, and others append in between. -/
def act (s : Projector) : Act → Projector × Option (Except RouterError Unit)
  | .append eventId recordedAtMs request => ({ s with log := s.log.appended eventId recordedAtMs request }, none)
  | .refresh pageSize => ({ s with refreshing := s.refreshing.or (some pageSize) }, none)
  | .page =>
    match s.refreshing with
    | none => (s, none)
    | some pageSize =>
      let page := s.log.query search stream { afterSequence := some s.projection.through
                                              eventTypes := DispatchProjection.types } (max pageSize 1)
      if page.isEmpty then ({ s with refreshing := none }, some (.ok ()))
      else
        match s.projection.absorb page with
        | (projection, none) => ({ s with projection := projection }, none)
        | (projection, some error) => ({ s with projection := projection, refreshing := none }, some (.error error))
  -- the query of the next page fails
  | .failPage error => ({ s with refreshing := none }, s.refreshing.map fun _ => .error error)

def run (s : Projector) (acts : List Act) : Projector := acts.foldl (fun s a => (s.act search stream a).1) s

def resultFor (s : Projector) (request : EventId) : Option CommittedEvent :=
  (s.projection.results.find request).bind s.log.get

/-- The projection is the fold of the events seen, with which the stream begins. -/
structure Folds (stream : StreamId) (seen : List CommittedEvent) (s : Projector) : Prop where
  begins : seen <+: projected stream s.log
  projection : s.projection = .ofEvents seen

variable {stream} {s : Projector} {seen : List CommittedEvent}

theorem page_folds (search : Log.Search) (h : Folds stream seen s) :
    ∃ more, Folds stream (seen ++ more) (s.act search stream .page).1 ∧
      ((s.act search stream .page).2 = some (.ok ()) → seen ++ more = projected stream s.log) ∧
      (s.refreshing ≠ none → (s.act search stream .page).2 = none →
        s.projection.through < (s.act search stream .page).1.projection.through) := by
  have hstill {s' : Projector} (hlog : s'.log = s.log) (hsame : s'.projection = s.projection) :
      Folds stream (seen ++ []) s' := by
    rw [append_nil]
    exact ⟨hlog ▸ h.begins, hsame.trans h.projection⟩
  obtain ⟨⟨rest, hrest⟩, hprojection⟩ := h
  unfold act
  cases hrefreshing : s.refreshing with
  | none => exact ⟨[], hstill rfl rfl, by simp, by simp⟩
  | some pageSize =>
    dsimp only
    rw [hprojection, unread_page search _ hrest.symm]
    by_cases hempty : (rest.take (max pageSize 1)).isEmpty = true
    · rw [if_pos hempty]
      have hpos : max pageSize 1 ≠ 0 := by omega
      have hnil : rest = [] := by simpa [hpos] using hempty
      exact ⟨[], hstill rfl hprojection.symm, fun _ => by rw [← hrest, hnil], by simp⟩
    · rw [if_neg hempty]
      cases habsorb : (DispatchProjection.ofEvents seen).absorb (rest.take (max pageSize 1)) with
      | mk projection error =>
        obtain ⟨taken, htaken, rfl, hall⟩ := DispatchProjection.absorb_ofEvents habsorb
        have hseen : seen ++ taken <+: projected stream s.log := by
          rw [← hrest, prefix_append_right_inj]
          exact htaken.trans ( take_prefix _ _)
        cases error with
        | none =>
          refine ⟨taken, ⟨hseen, rfl⟩, by simp, fun _ _ => ?_⟩
          exact through_lt_of_page hrest.symm (hall rfl) (by simpa [hall rfl] using hempty)
        | some error => exact ⟨taken, ⟨hseen, rfl⟩, by simp, by simp⟩

theorem append_grows (log : Log) (eventId : EventId) (recordedAtMs : Int) (request : AppendRequest) :
    log.events <+: (log.appended eventId recordedAtMs request).events := by
  unfold Log.appended
  split
  · rename_i h
    exact Log.append_extends h
  · exact prefix_refl _

theorem act_folds (search : Log.Search) (h : Folds stream seen s) (a : Act) :
    ∃ more, Folds stream (seen ++ more) (s.act search stream a).1 ∧
      ((s.act search stream a).2 = some (.ok ()) → seen ++ more = projected stream s.log) := by
  cases a with
  | append eventId recordedAtMs request =>
    refine ⟨[], ?_, by simp [act]⟩
    rw [append_nil]
    exact ⟨h.begins.trans (projected_grows (append_grows s.log eventId recordedAtMs request) stream), h.projection⟩
  | refresh pageSize =>
    refine ⟨[], ?_, by simp [act]⟩
    rw [append_nil]
    exact ⟨h.begins, h.projection⟩
  | page =>
    obtain ⟨more, hfolds, hall, -⟩ := page_folds search h
    exact ⟨more, hfolds, hall⟩
  | failPage error =>
    refine ⟨[], ?_, by simp [act]⟩
    rw [append_nil]
    exact ⟨h.begins, h.projection⟩

theorem run_folds (search : Log.Search) (h : Folds stream seen s) (acts : List Act) :
    ∃ more, Folds stream (seen ++ more) (s.run search stream acts) := by
  induction acts generalizing s seen with
  | nil => exact ⟨[], by simpa [run] using h⟩
  | cons a rest ih =>
    obtain ⟨first, hfirst, -⟩ := act_folds search h a
    obtain ⟨more, hmore⟩ := ih hfirst
    exact ⟨first ++ more, by rwa [← append_assoc]⟩

theorem resultFor_eq (h : Folds stream seen s) (request : EventId) :
    s.resultFor request = seen.find? (Terminates request ·) := by
  rw [resultFor, h.projection, DispatchProjection.ofEvents_find fun e he => (projected_types (h.begins.subset he)).2]
  cases hfirst : seen.find? (Terminates request ·) with
  | none => rfl
  | some event =>
    have hmem := (projected_types (h.begins.subset (mem_of_find?_eq_some hfirst))).1
    have hlog := (Ledger.mem_ofStream.mp hmem).1
    cases hget : s.log.get event.eventId with
    | none => exact absurd (find?_eq_none.mp hget event hlog) (by simp)
    | some found =>
      have hsame : found.eventId = event.eventId := by simpa using find?_some hget
      rw [s.log.event_unique (mem_of_find?_eq_some hget) hlog hsame] at hget
      exact hget

/-- Whatever is appended in between and whichever refreshes fail, the projection is the fold of a beginning of the
stream, and of all of it once a refresh succeeds; results are the earliest ones and stay. -/
theorem projection_folds (search : Log.Search) (stream : StreamId) (log : Log) (acts : List Act) :
    ∃ s, s = run search stream ⟨log, {}, none⟩ acts ∧
      (∃ seen, seen <+: projected stream s.log ∧ s.projection = .ofEvents seen) ∧
      (∀ a, (s.act search stream a).2 = some (.ok ()) →
        (s.act search stream a).1.projection = .ofEvents (projected stream s.log) ∧
        ∀ request, (s.act search stream a).1.resultFor request = (projected stream s.log).find? (Terminates request ·)) ∧
      (s.refreshing ≠ none → (s.act search stream .page).2 = none →
        s.projection.through < (s.act search stream .page).1.projection.through) ∧
      ∀ request event more, s.resultFor request = some event →
        (s.run search stream more).resultFor request = some event := by
  have hstart : Folds stream [] ⟨log, {}, none⟩ := ⟨ nil_prefix, rfl⟩
  obtain ⟨seen, hfolds⟩ := run_folds search hstart acts
  refine ⟨_, rfl, ⟨seen, hfolds.begins, hfolds.projection⟩, fun a hok => ?_, ?_, ?_⟩
  · obtain ⟨more, hmore, hall⟩ := act_folds search hfolds a
    rw [← hall hok]
    exact ⟨hmore.projection, resultFor_eq hmore⟩
  · obtain ⟨-, -, -, hprogress⟩ := page_folds search hfolds
    exact hprogress
  · intro request event more hresult
    obtain ⟨later, hlater⟩ := run_folds search hfolds more
    rw [resultFor_eq hfolds] at hresult
    rw [resultFor_eq hlater, find?_append, hresult, Option.some_or]

def sampleRequest (eventType : String) (cause : Option EventId) : AppendRequest :=
  ⟨"agent", .agent, none, eventType, "test/1", .canonicalJson (.json .null), ⟨.component, "shell"⟩, none, none, none,
    cause, none⟩

/-- A request is answered twice while a refresh goes on. -/
def sampleActs : List Act :=
  [.append "done" 0 (sampleRequest "capability.completed" (some "r")), .refresh 1, .page,
    .append "late" 1 (sampleRequest "capability.failed" (some "r")), .page]

theorem projection_folds_answered : ∃ s, s = run (fun _ => none) "agent" ⟨.empty, {}, none⟩ sampleActs ∧
    (s.act (fun _ => none) "agent" .page).1.projection = .ofEvents (projected "agent" s.log) ∧
    (s.resultFor "r").map (·.eventId) = some "done" := by
  obtain ⟨s, hs, -, hall, -⟩ := projection_folds (fun _ => none) "agent" .empty sampleActs
  refine ⟨s, hs, (hall .page ?_).1, ?_⟩
  · rw [hs]
    decide +kernel
  · rw [hs]
    decide +kernel

end Projector

end Pluribus.Cognition
