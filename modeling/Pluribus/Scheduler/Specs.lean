import Pluribus.Scheduler.Machine
import Pluribus.Storage.Pages

namespace Pluribus.Scheduler

open Lib Pluribus.Core Storage Pluribus.Runtime List Projection Option

variable {lib : Library} {host : HostState} {log : Log} {kept : Projection}

section Refresh

variable {search : Log.Search}

variable {seen : List CommittedEvent}

def projected (agent : StreamId) (log : Log) : List CommittedEvent :=
  (log.stream agent).filter (·.request.eventType ∈ projectedTypes)

theorem projected_sees {event : CommittedEvent} (h : event.request.eventType ∈ projectedTypes) :
    host.sees event = true := by
  have hother : event.request.eventType ≠ "http.request.received" := by
    rintro heq
    rw [heq] at h
    revert h
    decide
  simp [HostState.sees, httpRequestVisible, hother]

variable (search) in
theorem query_page {rest : List CommittedEvent} (hseen : projected host.delivery.agentId log = seen ++ rest) :
    ∃ last, (host.query log search (refreshFilter (lastSequence seen)) PAGE).1 = .ok ⟨rest.take PAGE, last⟩ := by
  have hquery : log.query search host.delivery.agentId (refreshFilter (lastSequence seen)).query PAGE =
      rest.take PAGE := by
    have htypes := log.query_types search host.delivery.agentId (lastSequence seen) PAGE
      (show projectedTypes ≠ [] by decide)
    rw [Log.unread_eq (by simpa [projected] using hseen)] at htypes
    exact htypes
  refine ⟨_, host.query_plain rfl (by decide) hquery fun event hevent => ?_⟩
  have hmem : event ∈ projected host.delivery.agentId log := hseen ▸ mem_append_right _ hevent
  exact projected_sees (by simpa using (mem_filter.mp hmem).2)

theorem refresh_done (hseen : projected host.delivery.agentId log = seen) (hthrough : kept.through = lastSequence seen) :
    refresh lib host search log kept = .ok none := by
  obtain ⟨last, hquery⟩ := query_page search ((append_nil seen).symm ▸ hseen)
  simp [refresh, hthrough, hquery, bind, Except.bind, pure, Except.pure]

theorem refresh_page {rest : List CommittedEvent} (hseen : projected host.delivery.agentId log = seen ++ rest)
    (hthrough : kept.through = lastSequence seen) (hrest : rest ≠ []) :
    refresh lib host search log kept =
      ((rest.take PAGE).foldlM (replay lib host.delivery.instanceId) ⟨kept.timers, []⟩).map fun r =>
        some (rest.take PAGE, r.mutations ++ [.setThrough (lastSequence (rest.take PAGE))]) := by
  obtain ⟨last, hquery⟩ := query_page search hseen
  have hpage : rest.take PAGE ≠ [] := by
    simpa [take_eq_nil_iff, PAGE] using hrest
  obtain ⟨newest, hnewest⟩ := ne_none_iff_exists'.mp (mt getLast?_eq_none_iff.mp hpage)
  have hlast : lastSequence (rest.take PAGE) = newest.sequence := by simp [lastSequence, hnewest]
  simp only [refresh, hthrough, hquery, bind, Except.bind, hnewest, hlast]
  cases (rest.take PAGE).foldlM (replay lib host.delivery.instanceId) ⟨kept.timers, []⟩ <;> rfl

end Refresh

variable {event : CommittedEvent}

section Replay

variable {instanceId : String}

variable {r r' : Replay} {value : Json}

def timerSet (event : CommittedEvent) : Option Timer :=
  if event.request.eventType = "timer.set" then
    match payload event with
    | .ok value => (value.index "dueAtMs").asI64.map fun due => ⟨event.eventId, event.request.actor.id, due⟩
    | .error _ => none
  else none

def named (eventType : String) (event : CommittedEvent) : Option EventId :=
  if event.request.eventType = eventType then
    match payload event with
    | .ok value => (value.index "requestEventId").asStr
    | .error _ => none
  else none

/-- An event ends a timer when it says that the timer has fired, or when its owner cancels it. -/
def ends (event : CommittedEvent) (id owner : String) : Bool :=
  named "timer.fired" event = some id || (named "timer.cancel" event = some id && event.request.actor.id = owner)

def timerStep (id : String) (timer : Option Timer) (event : CommittedEvent) : Option Timer :=
  if (timerSet event).isSome ∧ event.eventId = id then timerSet event
  else timer.filter fun t => !ends event id t.owner

/-- The timer of an id that is pending after some events. -/
def pending (events : List CommittedEvent) (id : String) : Option Timer := events.foldl (timerStep id) none

def recordedBy (lib : Library) (instanceId : String) (event : CommittedEvent) : Option (String × Option Schedule) :=
  if event.request.eventType = "schedule.updated" ∧ event.request.actor.id = instanceId then
    match payload event with
    | .ok value =>
      match (value.index "id").asStr, snapshot lib (value.index "schedule") with
      | some id, .ok s => some (id, s)
      | _, _ => none
    | .error _ => none
  else none

def scheduleStep (lib : Library) (instanceId : String) (schedules : Schedules) (event : CommittedEvent) : Schedules :=
  match recordedBy lib instanceId event with
  | some (id, some s) => schedules.insert id s
  | some (id, none) => schedules.erase id
  | none => schedules

theorem filter_all {α : Type} {p : α → Bool} (x : Option α) (h : ∀ a, p a = true) : x.filter p = x := by
  cases x <;> simp [h]

/-- What one event does to the timers and, through the mutations it adds, to the state. -/
structure Replays (lib : Library) (instanceId : String) (r : Replay) (event : CommittedEvent) (r' : Replay) : Prop where
  intro ::
  timers : ∀ id, r'.timers.find id = timerStep id (r.timers.find id) event
  mutations : ∃ mutations, r'.mutations = r.mutations ++ mutations ∧ ∀ kept : Projection, kept.timers = r.timers →
    kept.applyAll mutations = ⟨kept.through, r'.timers, scheduleStep lib instanceId kept.schedules event⟩

theorem replaySet_replays (hvalue : payload event = .ok value) (htype : event.request.eventType = "timer.set") :
    Replays lib instanceId r event (replaySet r event value) := by
  have hschedules : ∀ schedules, scheduleStep lib instanceId schedules event = schedules := by
    simp [scheduleStep, recordedBy, htype]
  have hends : ∀ id owner, ends event id owner = false := by simp [ends, named, htype]
  unfold replaySet
  cases hdue : (value.index "dueAtMs").asI64 with
  | none =>
    refine ⟨fun id => ?_, [], by simp, fun kept hkept => by simp [applyAll, hschedules, ← hkept]⟩
    simp [timerStep, timerSet, htype, hvalue, hdue, hends, filter_all]
  | some due =>
    refine ⟨fun id => ?_, _, rfl, fun kept hkept => ?_⟩
    · by_cases hid : event.eventId = id <;>
        simp [Map.find_insert, timerStep, timerSet, htype, hvalue, hdue, hends, hid, filter_all]
    · simp [applyAll, apply, hschedules, hkept]

theorem replayEnd_replays (hvalue : payload event = .ok value)
    (htype : event.request.eventType = "timer.cancel" ∨ event.request.eventType = "timer.fired") :
    Replays lib instanceId r event (replayEnd r event value) := by
  have hschedules : ∀ schedules, scheduleStep lib instanceId schedules event = schedules := by
    rcases htype with htype | htype <;> simp [scheduleStep, recordedBy, htype]
  have hset : timerSet event = none := by
    rcases htype with htype | htype <;> simp [timerSet, htype]
  unfold replayEnd
  cases hid : (value.index "requestEventId").asStr with
  | none =>
    refine ⟨fun id => ?_, [], by simp, fun kept hkept => by simp [applyAll, hschedules, ← hkept]⟩
    simp [timerStep, hset, ends, named, hvalue, hid, filter_all]
  | some target =>
    dsimp only
    have hends : ∀ id owner, ends event id owner = (target = id &&
        (event.request.eventType = "timer.fired" || event.request.actor.id = owner)) := by
      intro id owner
      rcases htype with htype | htype <;> by_cases htarget : target = id <;>
        simp [ends, named, htype, hvalue, hid, htarget]
    split
    · rename_i hcond
      refine ⟨fun id => ?_, _, rfl, fun kept hkept => ?_⟩
      · rw [Map.find_erase, timerStep, hset]
        by_cases htarget : id = target
        · subst htarget
          simp only [Bool.or_eq_true, Option.any_eq_true] at hcond
          cases htimer : r.timers.find id with
          | none => simp
          | some timer =>
            rcases hcond with hfired | ⟨timer', htimer', howner⟩
            · simp [hends, of_decide_eq_true hfired]
            · rw [htimer, some.injEq] at htimer'
              subst htimer'
              simp [filter_some, hends, (of_decide_eq_true howner).symm]
        · simp [htarget, hends, Ne.symm htarget, filter_all]
      · simp [applyAll, apply, hschedules, hkept]
    · rename_i hcond
      refine ⟨fun id => ?_, [], by simp, fun kept hkept => by simp [applyAll, hschedules, ← hkept]⟩
      rw [timerStep, hset]
      simp only [Bool.or_eq_true, not_or, Option.any_eq_true, not_exists, not_and] at hcond
      obtain ⟨hfired, howner⟩ := hcond
      cases htimer : r.timers.find id with
      | none => simp
      | some timer =>
        have hkeep : ends event id timer.owner = false := by
          rw [hends]
          by_cases htarget : target = id
          · have hother := howner timer (htarget ▸ htimer)
            simp_all [eq_comm]
          · simp [htarget]
        simp [filter_some, hkeep]

theorem replaySnapshot_replays (hvalue : payload event = .ok value)
    (htype : event.request.eventType = "schedule.updated") (hactor : event.request.actor.id = instanceId)
    (h : replaySnapshot lib r value = .ok r') : Replays lib instanceId r event r' := by
  unfold replaySnapshot at h
  split at h
  · cases h
  rename_i id hid
  obtain ⟨s, hsnapshot, rfl⟩ := of_map_ok h
  have hrecorded : recordedBy lib instanceId event = some (id, s) := by
    simp [recordedBy, htype, hactor, hvalue, hid, hsnapshot]
  refine ⟨fun id => by simp [timerStep, timerSet, ends, named, htype, filter_all], _, rfl, fun kept hkept => ?_⟩
  cases s <;> simp [applyAll, apply, scheduleMutation, scheduleStep, hrecorded, hkept]

theorem replay_ok (h : replay lib instanceId r event = .ok r') : Replays lib instanceId r event r' := by
  obtain ⟨value, hvalue, h⟩ := except_bind_ok.mp h
  by_cases hset : event.request.eventType = "timer.set"
  · rw [if_pos hset] at h
    cases h
    exact replaySet_replays hvalue hset
  rw [if_neg hset] at h
  by_cases hend : event.request.eventType = "timer.cancel" || event.request.eventType = "timer.fired"
  · rw [if_pos hend] at h
    cases h
    exact replayEnd_replays hvalue (by simpa using hend)
  rw [if_neg hend] at h
  split at h
  · rename_i hown
    simp only [Bool.and_eq_true, decide_eq_true_eq] at hown
    exact replaySnapshot_replays hvalue hown.1 hown.2 h
  · rename_i hother
    cases h
    simp only [Bool.or_eq_true, decide_eq_true_eq, not_or] at hend
    have hschedules : ∀ schedules, scheduleStep lib instanceId schedules event = schedules := by
      simp only [Bool.and_eq_true, decide_eq_true_eq, not_and] at hother
      have hnone : recordedBy lib instanceId event = none := if_neg fun ⟨htype, hactor⟩ => hother htype hactor
      simp [scheduleStep, hnone]
    refine ⟨fun id => ?_, [], by simp, fun kept hkept => by simp [applyAll, hschedules, ← hkept]⟩
    simp [timerStep, timerSet, ends, named, hset, hend, filter_all]

theorem foldlM_replay {page : List CommittedEvent} (h : page.foldlM (replay lib instanceId) r = .ok r') :
    (∀ id, r'.timers.find id = page.foldl (timerStep id) (r.timers.find id)) ∧
    ∃ mutations, r'.mutations = r.mutations ++ mutations ∧ ∀ kept : Projection, kept.timers = r.timers →
      kept.applyAll mutations = ⟨kept.through, r'.timers, page.foldl (scheduleStep lib instanceId) kept.schedules⟩ := by
  induction page generalizing r with
  | nil =>
    cases h
    exact ⟨fun id => rfl, [], by simp, fun kept hkept => by simp [applyAll, ← hkept]⟩
  | cons event rest ih =>
    obtain ⟨middle, hmiddle, hrest⟩ := except_bind_ok.mp h
    obtain ⟨htimers, mutations, hmutations, happly⟩ := replay_ok hmiddle
    obtain ⟨htimers', mutations', hmutations', happly'⟩ := ih hrest
    refine ⟨fun id => ?_, mutations ++ mutations', ?_, fun kept hkept => ?_⟩
    · rw [htimers', htimers, foldl_cons]
    · rw [hmutations', hmutations, append_assoc]
    · have hfirst := happly kept hkept
      have hsecond := happly' ⟨kept.through, middle.timers, scheduleStep lib instanceId kept.schedules event⟩ rfl
      rw [applyAll, foldl_append]
      rw [applyAll] at hfirst
      rw [hfirst]
      exact hsecond

end Replay

variable {now : Int}

section Fire

def firedTimers (kept : Projection) (now : Int) : List (String × Timer) :=
  (kept.timers.rows.filter (·.2.due ≤ now)).take PAGE

/-- The schedules a pass takes an occurrence of, as far as the timers leave room. -/
def firedSchedules (kept : Projection) (now : Int) : List Schedule :=
  (kept.schedules.values.filter fun s => (s.due now).isSome).take ((PAGE + 1 - (firedTimers kept now).length) / 2)

def occurrenceOf (lib : Library) (now : Int) (s : Schedule) : List Proposal :=
  ((s.occurrence lib now).map fun o => occurrenceProposals o.1.1 o.1.2 o.2).getD []

def advanceOf (lib : Library) (now : Int) (s : Schedule) : List Mutation :=
  ((s.occurrence lib now).map fun o => Mutation.setSchedule o.2.id o.2).toList

variable (now) in
theorem foldl_fireTimer (rows : List (String × Timer)) (f : Firing) :
    (rows.foldl (fireTimer now) f).output =
      f.output ++ ((rows.filter (·.2.due ≤ now)).take (PAGE - f.output.length)).map (timerFired ·.2) ∧
    (rows.foldl (fireTimer now) f).mutations =
      f.mutations ++ ((rows.filter (·.2.due ≤ now)).take (PAGE - f.output.length)).map (.deleteTimer ·.1) := by
  induction rows generalizing f with
  | nil => simp
  | cons row rest ih =>
    rw [foldl_cons, filter_cons]
    obtain ⟨houtput, hmutations⟩ := ih (fireTimer now f row)
    rw [houtput, hmutations]
    by_cases hdue : row.2.due ≤ now
    · by_cases hroom : f.output.length < PAGE
      · have hcount : PAGE - f.output.length = PAGE - (f.output.length + 1) + 1 := by omega
        simp [fireTimer, hdue, hroom, hcount]
      · have hfull : PAGE - f.output.length = 0 := by omega
        simp [fireTimer, hroom, hfull]
    · simp [fireTimer, hdue]

variable (lib now) in
theorem foldl_fireSchedule (schedules : List Schedule) (f : Firing) :
    (schedules.foldl (fireSchedule lib now) f).output = f.output ++
      ((schedules.filter fun s => (s.due now).isSome).take ((PAGE + 1 - f.output.length) / 2)).flatMap
        (occurrenceOf lib now) ∧
    (schedules.foldl (fireSchedule lib now) f).mutations = f.mutations ++
      ((schedules.filter fun s => (s.due now).isSome).take ((PAGE + 1 - f.output.length) / 2)).flatMap
        (advanceOf lib now) := by
  induction schedules generalizing f with
  | nil => simp
  | cons s rest ih =>
    rw [foldl_cons, filter_cons]
    obtain ⟨houtput, hmutations⟩ := ih (fireSchedule lib now f s)
    rw [houtput, hmutations]
    cases hdue : s.due now with
    | none => simp [fireSchedule, Schedule.occurrence, hdue]
    | some due =>
      by_cases hroom : f.output.length < PAGE
      · have hcount : (PAGE + 1 - f.output.length) / 2 = (PAGE + 1 - (f.output.length + 2)) / 2 + 1 := by omega
        simp [fireSchedule, Schedule.occurrence, hdue, hroom, hcount, occurrenceOf, advanceOf, occurrenceProposals]
      · have hfull : (PAGE + 1 - f.output.length) / 2 = 0 := by omega
        simp [fireSchedule, hroom, hfull]

variable (lib kept now) in
theorem fire_eq :
    (fire lib kept now).output = (firedTimers kept now).map (timerFired ·.2) ++
      (firedSchedules kept now).flatMap (occurrenceOf lib now) ∧
    (fire lib kept now).mutations = (firedTimers kept now).map (.deleteTimer ·.1) ++
      (firedSchedules kept now).flatMap (advanceOf lib now) := by
  obtain ⟨htimers, hdeleted⟩ := foldl_fireTimer now kept.timers.rows
    ⟨[], [], min (now + 1000) 9223372036854775807⟩
  obtain ⟨houtput, hmutations⟩ := foldl_fireSchedule lib now kept.schedules.values
    (kept.timers.rows.foldl (fireTimer now) ⟨[], [], min (now + 1000) 9223372036854775807⟩)
  simp only [length_nil, Nat.sub_zero, nil_append] at htimers hdeleted
  have hcount : (kept.timers.rows.foldl (fireTimer now) ⟨[], [], min (now + 1000) 9223372036854775807⟩).output.length =
      (firedTimers kept now).length := by rw [htimers, length_map, firedTimers]
  unfold fire
  rw [houtput, hmutations, hcount, htimers, hdeleted]
  exact ⟨rfl, rfl⟩

end Fire

section Handle

inductive Handles (lib : Library) (host : HostState) (log : Log) (kept : Projection) (event : CommittedEvent)
    (now : Int) : Handling → Prop
  | ignored : Handles lib host log kept event now ⟨kept.schedules, [], [], []⟩
  | refused (reason : String) : Handles lib host log kept event now ⟨kept.schedules, [failed event reason], [], []⟩
  | answered (value : Json) : Handles lib host log kept event now ⟨kept.schedules, [completed event value], [], []⟩
  | changed {request : Json} {capability id : String} {call : Call} {s : Option Schedule} (value : Json)
      (htype : event.request.eventType = "capability.requested")
      (hcall : callOf host log event request capability now = .ok call)
      (hchanged : Changed lib kept.schedules call id s) :
      Handles lib host log kept event now ⟨kept.schedules.put id s,
        [proposal "schedule.updated" (snapshotJson id s) event.eventId none, completed event value],
        [scheduleMutation id s], [(call, id, s)]⟩

theorem handle_ok {h : Handling} (hhandle : handle lib host log kept [(event, now)] = .ok h) :
    Handles lib host log kept event now h := by
  obtain ⟨h', hevent, hhandle⟩ := except_bind_ok.mp hhandle
  cases hhandle
  unfold Handling.event at hevent
  split at hevent
  · cases hevent
    exact .ignored
  rename_i htype
  obtain ⟨request, -, hevent⟩ := except_bind_ok.mp hevent
  split at hevent
  · cases hevent
    exact .ignored
  cases hevent
  unfold Handling.serve
  split
  · exact .refused _
  rename_i call hcall
  split
  · exact .refused _
  rename_i value change schedules hmanage
  rcases manage_ok hmanage with ⟨rfl, rfl⟩ | ⟨id, s, rfl, hchanged, rfl⟩
  · exact .answered value
  · exact .changed value (not_not.mp htype) hcall hchanged

end Handle

end Pluribus.Scheduler
