import Pluribus.Scheduler.Specs

namespace Pluribus.Scheduler

open Lib Pluribus.Core Storage Pluribus.Runtime List

def Phase.ready : Phase → Bool
  | .caughtUp | .emitting _ _ | .waiting | .handling _ _ => true
  | .refreshing | .applying _ _ | .ended _ => false

theorem projected_grows (agent : StreamId) {log log' : Log} (h : log.events <+: log'.events) :
    projected agent log <+: projected agent log' :=
  (h.filter _).filter _

def Phase.coherent (lib : Library) (host : HostState) (log : Log) (kept : Projection) : Phase → Prop
  | .applying page mutations => ∃ seen unread r,
    projected host.delivery.agentId log = seen ++ (page ++ unread) ∧ kept.through = lastSequence seen ∧
    page.foldlM (replay lib host.delivery.instanceId) ⟨kept.timers, []⟩ = .ok r ∧
    mutations = r.mutations ++ [.setThrough (lastSequence page)] ∧ page ≠ []
  | .emitting now firing => firing = fire lib kept now
  | .handling event h => event ∈ log.stream host.delivery.agentId ∧
    ∃ before now, before.events <+: log.events ∧ Handles lib host before kept event now h
  | _ => True

/-- The position in the state is that of an event of the log, and what the loop holds before a commit
was computed from the state as it still is. -/
structure Coherent (lib : Library) (host : HostState) (w : World) : Prop where
  seen : ∃ seen unread, projected host.delivery.agentId w.log = seen ++ unread ∧ w.kept.through = lastSequence seen
  phase : w.phase.coherent lib host w.log w.kept

def Action.commits : Action → Bool
  | .apply | .emit _ | .finish _ => true
  | _ => false

inductive Effect (lib : Library) (host : HostState) (w w' : World) : Action → Prop
  | still (action : Action) (hlog : w'.log = w.log) (hkept : w'.kept = w.kept)
      (hready : w'.phase.ready = true → w.phase.ready = true ∨
        w.kept.through = lastSequence (projected host.delivery.agentId w.log))
      (hfailed : action.commits = true → ∃ message, w'.phase = .ended message) : Effect lib host w w' action
  | grown {eventId : EventId} {recordedAtMs : Int} {request : AppendRequest} {event : CommittedEvent}
      (hactor : request.actor ≠ me host) (hlog : w.log.append eventId recordedAtMs request = .ok (event, w'.log))
      (hkept : w'.kept = w.kept) (hphase : w'.phase = w.phase) : Effect lib host w w' .others
  | applied {seen page unread : List CommittedEvent}
      (hpage : projected host.delivery.agentId w.log = seen ++ (page ++ unread))
      (hthrough : w.kept.through = lastSequence seen) (hlog : w'.log = w.log)
      (htimers : ∀ id, w'.kept.timers.find id = page.foldl (timerStep id) (w.kept.timers.find id))
      (hschedules : w'.kept.schedules = page.foldl (scheduleStep lib host.delivery.instanceId) w.kept.schedules)
      (hthrough' : w'.kept.through = lastSequence (seen ++ page)) (hphase : w'.phase = .refreshing) (hne : page ≠ []) :
      Effect lib host w w' .apply
  | emitted {now : Int} (hready : w.phase.ready = true)
      (h : Committed host w w' ⟨(fire lib w.kept now).output, (fire lib w.kept now).mutations, none⟩)
      (hphase : w'.phase = .waiting) : Effect lib host w w' (.emit now)
  | finished {event : CommittedEvent} {now : Int} {handling : Handling} {log : Log} (hready : w.phase.ready = true)
      (hevent : event ∈ w.log.stream host.delivery.agentId) (hgrown : log.events <+: w.log.events)
      (hhandles : Handles lib host log w.kept event now handling)
      (h : Committed host w w' ⟨handling.events, handling.mutations, some event.sequence⟩)
      (hphase : w'.phase = .refreshing) : Effect lib host w w' (.finish handling.changes)
  | discarded (hlog : w'.log = w.log) (hkept : w'.kept = .empty) (hphase : w'.phase = .refreshing) :
      Effect lib host w w' .rebuild

section Types

variable {lib : Library} {host : HostState} {log : Log} {kept : Projection} {event : CommittedEvent} {now : Int}

/-- What a pass over the state puts out: receipts of due timers, and due occurrences with the
snapshots after them. -/
inductive Fires (lib : Library) (kept : Projection) (now : Int) : Proposal → Prop
  | timer {row : String × Timer} (h : row ∈ firedTimers kept now) : Fires lib kept now (timerFired row.2)
  | occurrence {s : Schedule} {due : Millis} (h : s ∈ firedSchedules kept now) (hdue : s.due now = some due) :
      Fires lib kept now
        (proposal "observation.received" (s.observation due now) s.cause (some (s.key due)))
  | snapshot {s : Schedule} {due : Millis} (h : s ∈ firedSchedules kept now) (hdue : s.due now = some due) :
      Fires lib kept now (proposal "schedule.updated" (snapshotJson s.id (some (s.advance lib due now))) s.cause
        (some (s.key due ++ ":state")))

theorem fires_of_mem {p : Proposal} (h : p ∈ (fire lib kept now).output) : Fires lib kept now p := by
  rw [(fire_eq lib kept now).1, mem_append, mem_map, mem_flatMap] at h
  rcases h with ⟨row, hrow, rfl⟩ | ⟨s, hs, hp⟩
  · exact .timer hrow
  · cases hdue : s.due now with
    | none => simp [occurrenceOf, Schedule.occurrence, hdue] at hp
    | some due =>
      obtain ⟨next, error, hadvance⟩ := s.advance_same lib due now
      simp only [occurrenceOf, Schedule.occurrence, hdue, Option.map_some, Option.getD_some, occurrenceProposals,
        mem_cons, not_mem_nil, or_false] at hp
      rcases hp with rfl | rfl
      · have hcause : (s.advance lib due now).cause = s.cause := by rw [hadvance]
        rw [hcause]
        exact .occurrence hs hdue
      · have hcause : (s.advance lib due now).cause = s.cause := by rw [hadvance]
        have hid : (s.advance lib due now).id = s.id := by rw [hadvance]
        rw [hcause, hid]
        exact .snapshot hs hdue

theorem fire_types : ∀ p ∈ (fire lib kept now).output, p.eventType ≠ "model.requested" := by
  intro p hp
  cases fires_of_mem hp <;> simp [timerFired, proposal]

theorem handle_kinds {h : Handling} (hhandles : Handles lib host log kept event now h) :
    ∀ p ∈ h.events, p.eventType ≠ "model.requested" ∧ p.eventType ≠ "timer.fired" ∧
      p.eventType ≠ "observation.received" ∧ p.eventType ≠ "timer.set" := by
  cases hhandles <;> simp [failed, completed, proposal]

end Types

section Step

variable {lib : Library} {host : HostState} {search : Log.Search} {w w' : World}

theorem Coherent.grow (h : Coherent lib host w) (hlog : w.log.events <+: w'.log.events) (hkept : w'.kept = w.kept)
    (hphase : w'.phase = w.phase) : Coherent lib host w' := by
  obtain ⟨more, hmore⟩ := projected_grows host.delivery.agentId hlog
  obtain ⟨⟨seen, unread, hseen, hthrough⟩, hcoherent⟩ := h
  refine ⟨⟨seen, unread ++ more, by rw [← hmore, hseen, append_assoc], hkept ▸ hthrough⟩, ?_⟩
  rw [hphase, hkept]
  revert hcoherent
  cases w.phase with
  | applying page mutations =>
    rintro ⟨seen, unread, r, hseen, hrest⟩
    exact ⟨seen, unread ++ more, r, by rw [← hmore, hseen]; simp, hrest⟩
  | handling event handling =>
    rintro ⟨hevent, log, now, hgrown, hhandles⟩
    exact ⟨(hlog.filter _).subset hevent, log, now, hgrown.trans hlog, hhandles⟩
  | _ => exact id

def Phase.plain : Phase → Bool
  | .refreshing | .caughtUp | .waiting | .ended _ => true
  | _ => false

theorem Phase.coherent_plain {phase : Phase} (h : phase.plain = true) {log : Log} {kept : Projection} :
    phase.coherent lib host log kept := by
  cases phase with
  | applying | emitting | handling => cases h
  | _ => trivial

theorem Coherent.rest (h : Coherent lib host w) (phase : Phase) (hphase : phase.plain = true) :
    Coherent lib host { w with phase := phase } :=
  ⟨h.seen, Phase.coherent_plain hphase⟩

theorem Coherent.fail (h : Coherent lib host w) (action : Action) (error : RuntimeError) (phase : Phase) :
    Effect lib host w (w.settle (.error error) phase) action ∧ Coherent lib host (w.settle (.error error) phase) := by
  exact ⟨.still _ rfl rfl (fun hready => Bool.noConfusion hready) fun _ => ⟨_, rfl⟩, h.rest _ rfl⟩

theorem Projection.applyAll_append (kept : Projection) (first second : List Mutation) :
    kept.applyAll (first ++ second) = (kept.applyAll first).applyAll second :=
  foldl_append

theorem Projection.applyAll_through {mutations : List Mutation} (h : ∀ m ∈ mutations, ∀ n, m ≠ .setThrough n)
    (kept : Projection) : (kept.applyAll mutations).through = kept.through := by
  induction mutations generalizing kept with
  | nil => rfl
  | cons m rest ih =>
    have hfirst : (kept.apply m).through = kept.through := by
      cases m with
      | setThrough n => exact absurd rfl (h _ mem_cons_self n)
      | _ => rfl
    exact (ih (fun m' hm' => h m' (mem_cons_of_mem _ hm')) (kept.apply m)).trans hfirst

theorem fire_mutations (kept : Projection) (now : Int) : ∀ m ∈ (fire lib kept now).mutations,
    (∃ row ∈ firedTimers kept now, m = .deleteTimer row.1) ∨
      ∃ s ∈ firedSchedules kept now, ∃ due, s.due now = some due ∧ m = .setSchedule s.id (s.advance lib due now) := by
  intro m hm
  rw [(fire_eq lib kept now).2, mem_append, mem_map, mem_flatMap] at hm
  rcases hm with ⟨row, hrow, rfl⟩ | ⟨s, hs, hm⟩
  · exact .inl ⟨row, hrow, rfl⟩
  · cases hdue : s.due now with
    | none => simp [advanceOf, Schedule.occurrence, hdue] at hm
    | some due =>
      obtain ⟨next, error, hadvance⟩ := s.advance_same lib due now
      have hid : (s.advance lib due now).id = s.id := by rw [hadvance]
      simp only [advanceOf, Schedule.occurrence, hdue, Option.map_some, Option.toList_some, mem_singleton] at hm
      exact .inr ⟨s, hs, due, hdue, hid ▸ hm⟩

theorem fire_through (kept : Projection) (now : Int) :
    (kept.applyAll (fire lib kept now).mutations).through = kept.through := by
  refine Projection.applyAll_through (fun m hm n => ?_) kept
  rcases fire_mutations kept now m hm with ⟨row, -, rfl⟩ | ⟨s, -, due, -, rfl⟩ <;> simp

theorem handle_through {log : Log} {kept : Projection} {event : CommittedEvent} {now : Int} {h : Handling}
    (hhandles : Handles lib host log kept event now h) :
    (kept.applyAll h.mutations).through = kept.through := by
  refine Projection.applyAll_through (fun m hm n => ?_) kept
  cases hhandles with
  | changed value htype hcall hchanged =>
    rename_i id call s
    rw [mem_singleton.mp hm]
    cases s <;> simp [scheduleMutation]
  | _ => cases hm

/-- A world whose log and state are those after a commit, and whose loop holds nothing over. -/
theorem Committed.coherent {output : Output} (h : Coherent lib host w) (hcommit : Committed host w w' output)
    (hthrough : (w.kept.applyAll output.mutations).through = w.kept.through)
    (hphase : w'.phase.plain = true) : Coherent lib host w' := by
  refine ⟨?_, Phase.coherent_plain hphase⟩
  obtain ⟨seen, unread, hseen, hthrough'⟩ := h.seen
  obtain ⟨more, hmore⟩ := projected_grows host.delivery.agentId hcommit.grows
  refine ⟨seen, unread ++ more, by rw [← hmore, hseen, append_assoc], ?_⟩
  rw [hcommit.kept, hthrough, hthrough']

theorem Committed.with_phase {output : Output} (h : Committed host w w' output) (phase : Phase) :
    Committed host w { w' with phase := phase } output :=
  ⟨h.fits, h.kept, h.cursor, h.admitted, h.events⟩

variable (search) in
theorem read_effect (h : Coherent lib host w) :
    Effect lib host w (w.read lib host search) .read ∧ Coherent lib host (w.read lib host search) := by
  obtain ⟨seen, unread, hseen, hthrough⟩ := h.seen
  unfold World.read
  rcases eq_nil_or_concat unread with rfl | ⟨init, last, rfl⟩
  · rw [append_nil] at hseen
    rw [refresh_done hseen hthrough]
    exact ⟨.still _ rfl rfl (fun _ => .inr (hseen ▸ hthrough)) nofun, h.rest _ rfl⟩
  · rw [refresh_page hseen hthrough (by simp)]
    cases hfold : ((init.concat last).take PAGE).foldlM (replay lib host.delivery.instanceId) ⟨w.kept.timers, []⟩ with
    | error error => exact ⟨.still _ rfl rfl (fun hready => Bool.noConfusion hready) nofun, h.rest _ rfl⟩
    | ok r =>
      refine ⟨.still _ rfl rfl (fun hready => Bool.noConfusion hready) nofun, h.seen, seen,
        (init.concat last).drop PAGE, r, ?_, hthrough, hfold, rfl, by simp [PAGE]⟩
      rw [take_append_drop]
      exact hseen

theorem apply_effect {page : List CommittedEvent} {mutations : List Mutation} (h : Coherent lib host w)
    (hphase : w.phase = .applying page mutations) (draws : Draws) :
    Effect lib host w (w.settle (w.commit host [] draws none ⟨[], mutations, none⟩) .refreshing) .apply ∧
      Coherent lib host (w.settle (w.commit host [] draws none ⟨[], mutations, none⟩) .refreshing) := by
  cases hcommit : w.commit host [] draws none ⟨[], mutations, none⟩ with
  | error error => exact h.fail _ error _
  | ok after =>
    have hdone := World.commit_ok (by simp) hcommit
    obtain ⟨seen, unread, r, hpage, hthrough, hfold, rfl, hne⟩ := hphase ▸ h.phase
    have hlog : after.log = w.log := by
      obtain ⟨events, hevents, hlog⟩ := hdone.events
      cases hevents
      exact Log.ext (by simpa using hlog)
    obtain ⟨htimers, replayed, hreplayed, happly⟩ := foldlM_replay hfold
    have hkept : after.kept = ⟨lastSequence (seen ++ page), r.timers,
        page.foldl (scheduleStep lib host.delivery.instanceId) w.kept.schedules⟩ := by
      rw [nil_append] at hreplayed
      rw [hdone.kept, Projection.applyAll_append, hreplayed, happly w.kept rfl, lastSequence_append hne]
      rfl
    have hlog' : w.settle (.ok after) .refreshing = { after with phase := .refreshing } := rfl
    rw [hlog']
    refine ⟨.applied hpage hthrough hlog ?_ ?_ ?_ rfl hne, ⟨seen ++ page, unread, ?_, ?_⟩, trivial⟩
    · simpa [hkept] using htimers
    · simp [hkept]
    · simp [hkept]
    · simp [hlog, hpage]
    · simp [hkept]

theorem Step.effect {action : Action} (h : Coherent lib host w) (hstep : Step lib host search action w w') :
    Effect lib host w w' action ∧ Coherent lib host w' := by
  cases hstep with
  | others hactor hlog => exact ⟨.grown hactor hlog rfl rfl, h.grow (Log.append_extends hlog) rfl rfl⟩
  | read hphase => exact read_effect search h
  | apply hphase draws => exact apply_effect h hphase draws
  | fire hphase now =>
    refine ⟨.still _ rfl rfl (fun _ => .inl (by rw [hphase]; rfl)) nofun, ?_⟩
    unfold World.fire
    dsimp only
    split
    · exact h.rest _ rfl
    · exact ⟨h.seen, rfl⟩
  | emit hphase visible draws =>
    rename_i now firing
    have hfiring := h.phase
    rw [hphase] at hfiring
    obtain rfl : firing = _ := hfiring
    cases hcommit : w.commit host visible draws none
        ⟨(Scheduler.fire lib w.kept now).output, (Scheduler.fire lib w.kept now).mutations, none⟩ with
    | error error => exact h.fail _ error _
    | ok after =>
      have hdone := (World.commit_ok fire_types hcommit).with_phase .waiting
      exact ⟨.emitted (by rw [hphase]; rfl) hdone rfl, hdone.coherent h (fire_through w.kept now) rfl⟩
  | wake hphase | crash => exact ⟨.still _ rfl rfl (fun hready => Bool.noConfusion hready) nofun, h.rest _ rfl⟩
  | deliver hphase hlog hcursor hattempt now =>
    rename_i event
    unfold World.deliver
    cases hhandle : handle lib host w.log w.kept [(event, now)] with
    | error error =>
      refine ⟨.still _ rfl rfl (fun hready => Bool.noConfusion hready) nofun, ?_⟩
      exact (h.rest .refreshing rfl).grow (prefix_refl _) rfl rfl
    | ok handling =>
      exact ⟨.still _ rfl rfl (fun _ => .inl (by rw [hphase]; rfl)) nofun, h.seen, hlog, w.log, now, prefix_refl _,
        handle_ok hhandle⟩
  | finish hphase visible draws =>
    rename_i event handling
    obtain ⟨hevent, log, now, hgrown, hhandles⟩ := hphase ▸ h.phase
    cases hcommit : w.commit host visible draws (some event.eventId)
        ⟨handling.events, handling.mutations, some event.sequence⟩ with
    | error error => exact h.fail _ error _
    | ok after =>
      have hdone := (World.commit_ok (fun p hp => (handle_kinds hhandles p hp).1) hcommit).with_phase .refreshing
      exact ⟨.finished (by rw [hphase]; rfl) hevent hgrown hhandles hdone rfl,
        hdone.coherent h (handle_through hhandles) rfl⟩
  | rebuild =>
    exact ⟨.discarded rfl rfl rfl, ⟨[], _, (nil_append _).symm, rfl⟩, trivial⟩

theorem Effect.grows {action : Action} (h : Effect lib host w w' action) : w.log.events <+: w'.log.events := by
  cases h with
  | still action hlog | applied hpage hthrough hlog | discarded hlog => exact hlog ▸ prefix_refl _
  | grown hactor hlog => exact Log.append_extends hlog
  | emitted hready hdone | finished hready hevent hgrown hhandles hdone => exact hdone.grows

theorem coherent_start : Coherent lib host World.start :=
  ⟨⟨[], [], rfl, rfl⟩, trivial⟩

theorem Runs.coherent {C : Action → World → World → Prop} (h : Runs lib host search C .start w) : Coherent lib host w := by
  induction h with
  | refl => exact coherent_start
  | tail _ hstep ih =>
    obtain ⟨action, hstep, -⟩ := hstep
    exact (hstep.effect ih).2

end Step

end Pluribus.Scheduler
