import Pluribus.Scheduler.Runs

namespace Pluribus.Scheduler

open Lib Pluribus.Core Storage Pluribus.Runtime List

section Pending

variable {id : String} {events page : List CommittedEvent}

variable {timer : Timer}

theorem pending_append (events page : List CommittedEvent) (id : String) :
    pending (events ++ page) id = page.foldl (timerStep id) (pending events id) :=
  foldl_append

theorem timerSet_some {event : CommittedEvent} (h : timerSet event = some timer) :
    event.request.eventType = "timer.set" ∧ timer.request = event.eventId ∧ timer.owner = event.request.actor.id := by
  unfold timerSet at h
  split at h
  · rename_i htype
    split at h
    · obtain ⟨due, -, rfl⟩ := Option.map_eq_some_iff.mp h
      exact ⟨htype, rfl, rfl⟩
    · cases h
  · cases h

theorem foldl_timerStep_some {start : Option Timer} (h : page.foldl (timerStep id) start = some timer) :
    start = some timer ∨ ∃ event ∈ page, timerSet event = some timer ∧ event.eventId = id := by
  induction page generalizing start with
  | nil => exact .inl h
  | cons event rest ih =>
    rcases ih h with hstart | ⟨set, hset, hrest⟩
    · unfold timerStep at hstart
      split at hstart
      · rename_i hset
        exact .inr ⟨event, mem_cons_self, hstart, hset.2⟩
      · exact .inl (Option.filter_eq_some_iff.mp hstart).1
    · exact .inr ⟨set, mem_cons_of_mem _ hset, hrest⟩

theorem pending_some (h : pending events id = some timer) :
    ∃ event ∈ events, timerSet event = some timer ∧ event.eventId = id :=
  (foldl_timerStep_some h).resolve_left nofun

theorem foldl_timerStep_none (page : List CommittedEvent) (id : String) (start : Option Timer) :
    page.foldl (timerStep id) none = none ∨ page.foldl (timerStep id) none = page.foldl (timerStep id) start := by
  induction page generalizing start with
  | nil => exact .inl rfl
  | cons event rest ih =>
    rw [foldl_cons, foldl_cons]
    by_cases hset : (timerSet event).isSome ∧ event.eventId = id
    · exact .inr (by simp [timerStep, hset])
    · have hnone : timerStep id none event = none := by simp [timerStep, hset]
      rw [hnone]
      exact ih (timerStep id start event)

theorem foldl_timerStep_ends (h : page.foldl (timerStep id) (some timer) ≠ some timer)
    (hset : ∀ event ∈ page, event.eventId ≠ id) : ∃ event ∈ page, ends event id timer.owner = true := by
  induction page with
  | nil => exact absurd rfl h
  | cons event rest ih =>
    by_cases hends : ends event id timer.owner = true
    · exact ⟨event, mem_cons_self, hends⟩
    · have hkeep : timerStep id (some timer) event = some timer := by
        simp [timerStep, hset event mem_cons_self, Option.filter_some, hends]
      rw [foldl_cons, hkeep] at h
      obtain ⟨last, hlast, hends⟩ := ih h fun e he => hset e (mem_cons_of_mem _ he)
      exact ⟨last, mem_cons_of_mem _ hlast, hends⟩

theorem pending_fired {before after : List CommittedEvent} {event : CommittedEvent}
    (hfired : named "timer.fired" event = some id) (hset : ∀ e ∈ event :: after, e.eventId ≠ id) :
    pending (before ++ event :: after) id = none := by
  have hgone : timerStep id (pending before id) event = none := by
    have hends : ∀ owner, ends event id owner = true := fun owner => by simp [ends, hfired]
    rw [timerStep, if_neg fun h => hset event mem_cons_self h.2]
    cases pending before id <;> simp [Option.filter_some, hends]
  rw [pending_append, foldl_cons, hgone]
  cases hend : after.foldl (timerStep id) none with
  | none => rfl
  | some timer =>
    obtain ⟨e, he, -, hid⟩ := (foldl_timerStep_some hend).resolve_left (by simp)
    exact absurd hid (hset e (mem_cons_of_mem _ he))

end Pending

variable {lib : Library} {host : HostState} {search : Log.Search} {w w' : World}

section Invariant

variable {log : Log} {now : Int}

def Holds (host : HostState) (log : Log) (id : EventId) (x : CommittedEvent) : Prop :=
  x ∈ log.stream host.delivery.agentId ∧ x.request.deduplicationKey = some ("timer:" ++ id)

def Receipt (host : HostState) (id : EventId) (x : CommittedEvent) : Prop :=
  x.request.actor = me host ∧ named "timer.fired" x = some id

/-- How the timers in the state stand to the log: what the scheduler has read of it leaves them
pending, or a firing has removed them, which leaves a holder of their key. Receipts only answer to
timers that were set before. -/
structure Timely (host : HostState) (w : World) : Prop where
  intro ::
  timers : ∃ seen unread, projected host.delivery.agentId w.log = seen ++ unread ∧
    w.kept.through = lastSequence seen ∧ ∀ id, w.kept.timers.find id = pending seen id ∨
      (w.kept.timers.find id = none ∧ ∃ x, Holds host w.log id x)
  receipts : ∀ x ∈ w.log.events, x.request.actor = me host → x.request.eventType = "timer.fired" →
    ∃ set ∈ w.log.stream host.delivery.agentId, ∃ timer, timerSet set = some timer ∧ set.sequence < x.sequence ∧
      Wrote host (timerFired timer) x.request

theorem seen_unique {agent : StreamId} {seen unread seen' unread' : List CommittedEvent}
    (h : projected agent log = seen ++ unread) (h' : projected agent log = seen' ++ unread')
    (hlast : lastSequence seen = lastSequence seen') : seen = seen' ∧ unread = unread' := by
  have hunread : unread = unread' := by
    have hrest := Log.unread_eq h
    rw [hlast] at hrest
    exact hrest.symm.trans (Log.unread_eq h')
  subst hunread
  exact ⟨append_cancel_right (h.symm.trans h'), rfl⟩

theorem Holds.mono {log' : Log} {id : EventId} {x : CommittedEvent} (h : Holds host log id x)
    (hlog : log.events <+: log'.events) : Holds host log' id x :=
  ⟨(Log.stream_grows hlog _).subset h.1, h.2⟩

theorem mem_projected {agent : StreamId} {event : CommittedEvent} (h : event ∈ projected agent log) :
    event ∈ log.stream agent ∧ event.request.eventType ∈ projectedTypes := by
  simpa [projected] using mem_filter.mp h

/-- What has been read and what has not hold no event id in common. -/
theorem projected_apart {agent : StreamId} {before after : List CommittedEvent} {x y : CommittedEvent}
    (h : projected agent log = before ++ after) (hx : x ∈ before) (hy : y ∈ after) : y.eventId ≠ x.eventId := by
  intro heq
  have hsorted : (before ++ after).Pairwise fun event later => event.sequence < later.sequence :=
    h ▸ (log.stream_pairwise _).filter _
  have hmem : ∀ e ∈ before ++ after, e ∈ log.events := fun e he =>
    (Ledger.mem_ofStream.mp (mem_projected (h ▸ he)).1).1
  have hsame := log.event_unique (hmem y (mem_append_right _ hy)) (hmem x (mem_append_left _ hx)) heq
  exact absurd (hsame ▸ (pairwise_append.mp hsorted).2.2 x hx y hy) (lt_irrefl _)

theorem Timely.seen (h : Timely host w) {id : String} {timer : Timer} (hfind : w.kept.timers.find id = some timer) :
    ∃ seen unread, projected host.delivery.agentId w.log = seen ++ unread ∧ w.kept.through = lastSequence seen ∧
      ∃ set ∈ seen, timerSet set = some timer ∧ set.eventId = id := by
  obtain ⟨seen, unread, hseen, hlast, htimers⟩ := h.timers
  rcases htimers id with hpending | ⟨hnone, -⟩
  · exact ⟨seen, unread, hseen, hlast, pending_some (hpending ▸ hfind)⟩
  · rw [hfind] at hnone
    cases hnone

theorem Timely.set (h : Timely host w) {id : String} {timer : Timer} (hfind : w.kept.timers.find id = some timer) :
    ∃ set ∈ w.log.stream host.delivery.agentId, timerSet set = some timer ∧ set.eventId = id := by
  obtain ⟨seen, unread, hseen, -, set, hset, hrest⟩ := h.seen hfind
  exact ⟨set, (mem_projected (hseen ▸ mem_append_left _ hset)).1, hrest⟩

theorem Projection.applyAll_timers {mutations : List Mutation} (h : ∀ m ∈ mutations, ∀ id timer, m ≠ .setTimer id timer)
    (kept : Projection) (id : String) : (kept.applyAll mutations).timers.find id =
      if .deleteTimer id ∈ mutations then none else kept.timers.find id := by
  induction mutations generalizing kept with
  | nil => rfl
  | cons m rest ih =>
    have hrest := ih (fun m' hm' => h m' (mem_cons_of_mem _ hm')) (kept.apply m)
    rw [show kept.applyAll (m :: rest) = (kept.apply m).applyAll rest from rfl, hrest]
    cases m with
    | setTimer id timer => exact absurd rfl (h _ mem_cons_self id timer)
    | deleteTimer target =>
      by_cases hmem : Mutation.deleteTimer id ∈ rest <;> by_cases hid : id = target <;>
        simp [hmem, hid, Projection.apply, Map.find_erase]
    | _ => simp [Projection.apply]

theorem fire_timers (kept : Projection) (now : Int) (id : String) :
    (kept.applyAll (fire lib kept now).mutations).timers.find id =
      if id ∈ (firedTimers kept now).map (·.1) then none else kept.timers.find id := by
  rw [Projection.applyAll_timers]
  · have hiff : Mutation.deleteTimer id ∈ (fire lib kept now).mutations ↔ id ∈ (firedTimers kept now).map (·.1) := by
      rw [(fire_eq lib kept now).2, mem_append, mem_map, mem_map]
      refine ⟨fun hmem => ?_, fun ⟨row, hrow, hid⟩ => .inl ⟨row, hrow, by rw [hid]⟩⟩
      rcases hmem with ⟨row, hrow, heq⟩ | hmem
      · exact ⟨row, hrow, Mutation.deleteTimer.inj heq⟩
      · obtain ⟨s, -, hs⟩ := mem_flatMap.mp hmem
        simp [advanceOf] at hs
    simp only [hiff]
  · intro m hm id' timer
    rcases fire_mutations kept now m hm with ⟨row, -, rfl⟩ | ⟨s, -, due, -, rfl⟩ <;> simp

theorem handle_timers {kept : Projection} {event : CommittedEvent} {h : Handling}
    (hhandles : Handles lib host log kept event now h) : (kept.applyAll h.mutations).timers = kept.timers := by
  cases hhandles with
  | changed value htype hcall hchanged =>
    rename_i id call s
    cases s <;> rfl
  | _ => rfl

theorem firedTimers_mem {kept : Projection} {row : String × Timer} (h : row ∈ firedTimers kept now) :
    kept.timers.find row.1 = some row.2 ∧ row.2.due ≤ now := by
  have hmem := mem_filter.mp (mem_of_mem_take h)
  exact ⟨Map.find_eq_some.mpr hmem.1, by simpa using hmem.2⟩

/-- The invariant is kept while the state is and the log grows by events that are no receipts of the scheduler. -/
theorem Timely.grow (h : Timely host w) (hlog : w.log.events <+: w'.log.events)
    (hthrough : w'.kept.through = w.kept.through) (htimers : ∀ id, w'.kept.timers.find id = w.kept.timers.find id ∨
      (w'.kept.timers.find id = none ∧ ∃ x, Holds host w'.log id x))
    (hnew : ∀ x ∈ w'.log.events, x ∉ w.log.events → x.request.actor = me host → x.request.eventType = "timer.fired" →
      ∃ set ∈ w.log.stream host.delivery.agentId, ∃ timer, timerSet set = some timer ∧
        Wrote host (timerFired timer) x.request) : Timely host w' := by
  obtain ⟨seen, unread, hseen, hlast, hpending⟩ := h.timers
  obtain ⟨more, hmore⟩ := projected_grows host.delivery.agentId hlog
  refine ⟨⟨seen, unread ++ more, by rw [← hmore, hseen, append_assoc], hthrough.trans hlast, fun id => ?_⟩, ?_⟩
  · rcases htimers id with hsame | hgone
    · rw [hsame]
      exact (hpending id).imp_right fun ⟨hnone, x, hx⟩ => ⟨hnone, x, hx.mono hlog⟩
    · exact .inr hgone
  · intro x hx hactor htype
    by_cases hold : x ∈ w.log.events
    · obtain ⟨set, hset, hrest⟩ := h.receipts x hold hactor htype
      exact ⟨set, (Log.stream_grows hlog _).subset hset, hrest⟩
    · obtain ⟨set, hset, timer, htimer, hwrote⟩ := hnew x hx hold hactor htype
      have hstream : x ∈ w'.log.stream host.delivery.agentId := Ledger.mem_ofStream.mpr ⟨hx, hwrote.stream⟩
      exact ⟨set, (Log.stream_grows hlog _).subset hset, timer, htimer, Log.sequence_lt_new hlog hset hstream hold, hwrote⟩

/-- A receipt is only written in a firing pass, and not before the time its timer was set to. -/
theorem Timely.fired {action : Action} (h : Timely host w) (heffect : Effect lib host w w' action) {x : CommittedEvent}
    (hx : x ∈ w'.log.events) (hold : x ∉ w.log.events) (hactor : x.request.actor = me host)
    (htype : x.request.eventType = "timer.fired") :
    ∃ now, action = .emit now ∧ ∃ set ∈ w.log.stream host.delivery.agentId, ∃ timer, timerSet set = some timer ∧
      timer.due ≤ now ∧ Wrote host (timerFired timer) x.request := by
  cases heffect with
  | still action hlog hkept | applied hpage hthrough hlog | discarded hlog => exact absurd (hlog ▸ hx) hold
  | grown hother hlog hkept hphase =>
    exact absurd hactor ((Log.append_new hlog hx).resolve_left hold ▸ hother)
  | emitted hready hdone hphase =>
    rename_i now
    obtain ⟨p, hp, hwrote⟩ := (hdone.new hx).resolve_left hold
    have hkind := hwrote.eventType.symm.trans htype
    cases fires_of_mem hp with
    | timer hrow =>
      obtain ⟨hfind, hdue⟩ := firedTimers_mem hrow
      obtain ⟨set, hset, htimer, -⟩ := h.set hfind
      exact ⟨now, rfl, set, hset, _, htimer, hdue, hwrote⟩
    | _ => simp [proposal] at hkind
  | finished hready hevent hgrown hhandles hdone hphase =>
    obtain ⟨p, hp, hwrote⟩ := (hdone.new hx).resolve_left hold
    exact absurd (hwrote.eventType.symm.trans htype) (handle_kinds hhandles p hp).2.1

theorem Timely.answered (h : Timely host w) {now : Int}
    (hdone : Committed host w w' ⟨(fire lib w.kept now).output, (fire lib w.kept now).mutations, none⟩)
    {row : String × Timer} (hrow : row ∈ firedTimers w.kept now) : ∃ x, Holds host w'.log row.1 x := by
  obtain ⟨set, -, htimer, hid⟩ := h.set (firedTimers_mem hrow).1
  have hout : timerFired row.2 ∈ (fire lib w.kept now).output := by
    rw [(fire_eq lib w.kept now).1]
    exact mem_append_left _ (mem_map_of_mem (f := fun row : String × Timer => timerFired row.2) hrow)
  have hkey : (timerFired row.2).idempotencyKey = some ("timer:" ++ row.1) := by
    have hrequest : row.2.request = row.1 := (timerSet_some htimer).2.1.trans hid
    simp [timerFired, proposal, hrequest]
  obtain ⟨x, hx, hheld, -⟩ := hdone.answered hout hkey
  exact ⟨x, hx, hheld⟩

theorem Timely.step {action : Action} (h : Timely host w) (heffect : Effect lib host w w' action) : Timely host w' := by
  have hnew : ∀ x ∈ w'.log.events, x ∉ w.log.events → x.request.actor = me host →
      x.request.eventType = "timer.fired" → ∃ set ∈ w.log.stream host.delivery.agentId, ∃ timer,
        timerSet set = some timer ∧ Wrote host (timerFired timer) x.request := by
    intro x hx hold hactor htype
    obtain ⟨-, -, set, hset, timer, htimer, -, hwrote⟩ := h.fired heffect hx hold hactor htype
    exact ⟨set, hset, timer, htimer, hwrote⟩
  have hgrows := heffect.grows
  cases heffect with
  | still action hlog hkept | grown hactor hlog hkept hphase =>
    exact h.grow hgrows (by rw [hkept]) (fun id => .inl (by rw [hkept])) hnew
  | applied hpage hthrough hlog htimers hschedules hthrough' hphase hne =>
    rename_i seen page unread
    obtain ⟨seen', unread', hseen, hlast, hpending⟩ := h.timers
    obtain ⟨rfl, -⟩ := seen_unique hpage hseen (hthrough.symm.trans hlast)
    refine ⟨⟨seen ++ page, unread, by rw [hlog, hpage, append_assoc], hthrough', fun id => ?_⟩, ?_⟩
    · rw [htimers id, pending_append]
      rcases hpending id with hsame | ⟨hnone, x, hx⟩
      · exact .inl (by rw [hsame])
      · rw [hnone]
        rcases foldl_timerStep_none page id (pending seen id) with hgone | hset
        · exact .inr ⟨hgone, x, hlog ▸ hx⟩
        · exact .inl hset
    · rw [hlog]
      exact h.receipts
  | emitted hready hdone hphase =>
    have hkept := hdone.kept
    refine h.grow hgrows (by rw [hkept, fire_through]) (fun id => ?_) hnew
    rw [hkept, fire_timers]
    split
    · rename_i hfired
      obtain ⟨row, hrow, rfl⟩ := mem_map.mp hfired
      exact .inr ⟨rfl, h.answered hdone hrow⟩
    · exact .inl rfl
  | finished hready hevent hgrown hhandles hdone hphase =>
    have hkept := hdone.kept
    exact h.grow hgrows (by rw [hkept, handle_through hhandles])
      (fun id => .inl (by rw [hkept, handle_timers hhandles])) hnew
  | discarded hlog hkept hphase =>
    refine ⟨⟨[], _, (nil_append _).symm, by rw [hkept]; rfl, fun id => .inl ?_⟩, ?_⟩
    · rw [hkept]
      rfl
    · rw [hlog]
      exact h.receipts

theorem timely_start : Timely host World.start :=
  ⟨⟨[], [], rfl, rfl, fun _ => .inl rfl⟩, fun _ hx => absurd hx not_mem_nil⟩

theorem Runs.timely {C : Action → World → World → Prop} (h : Runs lib host search C .start w) : Timely host w := by
  induction h with
  | refl => exact timely_start
  | tail hrun hstep ih =>
    obtain ⟨action, hstep, -⟩ := hstep
    exact ih.step (hstep.effect (Runs.coherent hrun)).1

end Invariant

section Results

variable {action : Action}

variable {x : CommittedEvent} {id : EventId}

theorem named_of_wrote {timer : Timer} (h : Wrote host (timerFired timer) x.request) :
    named "timer.fired" x = some timer.request := by
  have htype : x.request.eventType = "timer.fired" := h.eventType
  have hpayload : payload x = .ok (Json.ofFields [("requestEventId", .string timer.request),
      ("dueAtMs", Json.ofInt timer.due)]) := by
    rw [payload, h.payload]
    rfl
  simp [named, htype, hpayload, Json.index, Json.get_ofFields, Json.asStr]

theorem Receipt.eventType (h : Receipt host id x) : x.request.eventType = "timer.fired" := by
  by_contra hother
  simp [Receipt, named, hother] at h

theorem Timely.receipt (h : Timely host w) (hx : x ∈ w.log.events) (hreceipt : Receipt host id x) :
    Holds host w.log id x ∧
      ∃ set ∈ w.log.stream host.delivery.agentId, set.eventId = id ∧ set.sequence < x.sequence := by
  obtain ⟨set, hset, timer, htimer, hless, hwrote⟩ := h.receipts x hx hreceipt.1 hreceipt.eventType
  have hid : timer.request = id := Option.some.inj ((named_of_wrote hwrote).symm.trans hreceipt.2)
  refine ⟨⟨Ledger.mem_ofStream.mpr ⟨hx, hwrote.stream⟩, ?_⟩, set, hset, (timerSet_some htimer).2.1.symm.trans hid, hless⟩
  exact hid ▸ hwrote.key _ rfl

theorem Timely.once (h : Timely host w) {y : CommittedEvent} (hx : x ∈ w.log.events) (hy : y ∈ w.log.events)
    (hreceipt : Receipt host id x) (hreceipt' : Receipt host id y) : x = y := by
  obtain ⟨hholds, -⟩ := h.receipt hx hreceipt
  obtain ⟨hholds', -⟩ := h.receipt hy hreceipt'
  have hstream : x.request.streamId = y.request.streamId :=
    (Ledger.mem_ofStream.mp hholds.1).2.trans (Ledger.mem_ofStream.mp hholds'.1).2.symm
  exact w.log.wellFormed.keys x hx y hy hstream _ hholds.2 hholds'.2

/-- A timer leaves the state when an event read from the log ends it, when the scheduler fires it, or with the
whole state. -/
theorem Timely.removed (h : Timely host w) (heffect : Effect lib host w w' action) {timer : Timer}
    (hfind : w.kept.timers.find id = some timer) (hgone : w'.kept.timers.find id ≠ some timer) :
    (action = .apply ∧ ∃ x ∈ w.log.stream host.delivery.agentId, ends x id timer.owner = true) ∨
      (∃ now, action = .emit now ∧ timer.due ≤ now ∧ ∃ x, Holds host w'.log id x) ∨ action = .rebuild := by
  cases heffect with
  | still action hlog hkept | grown hother hlog hkept => exact absurd (hkept ▸ hfind) hgone
  | applied hpage hthrough hlog htimers hschedules hthrough' hphase hne =>
    rename_i seen page unread
    obtain ⟨seen', unread', hseen, hlast, set, hset, -, hid⟩ := h.seen hfind
    obtain ⟨rfl, -⟩ := seen_unique hpage hseen (hthrough.symm.trans hlast)
    -- the event that set the timer stands before the page
    have hother : ∀ event ∈ page, event.eventId ≠ id := fun event hevent =>
      hid ▸ projected_apart hpage hset (mem_append_left _ hevent)
    rw [htimers id, hfind] at hgone
    obtain ⟨event, hevent, hends⟩ := foldl_timerStep_ends hgone hother
    have hmem : event ∈ projected host.delivery.agentId w.log := by
      rw [hpage]
      exact mem_append_right _ (mem_append_left _ hevent)
    exact .inl ⟨rfl, event, (mem_projected hmem).1, hends⟩
  | emitted hready hdone hphase =>
    rename_i now
    have hkept := hdone.kept
    rw [hkept, fire_timers] at hgone
    split at hgone
    · rename_i hfired
      obtain ⟨row, hrow, rfl⟩ := mem_map.mp hfired
      obtain ⟨hfind', hdue⟩ := firedTimers_mem hrow
      obtain rfl : timer = row.2 := Option.some.inj (hfind.symm.trans hfind')
      exact .inr (.inl ⟨now, rfl, hdue, h.answered hdone hrow⟩)
    · exact absurd hfind hgone
  | finished hready hevent hgrown hhandles hdone hphase =>
    have hkept := hdone.kept
    rw [hkept, handle_timers hhandles] at hgone
    exact absurd hfind hgone
  | discarded hlog => exact .inr (.inr rfl)

/-- Once the log has been read to its end, the state holds the timers that the log leaves pending. -/
theorem Timely.caughtUp (h : Timely host w)
    (hread : w.kept.through = lastSequence (projected host.delivery.agentId w.log))
    (hholders : ∀ x, Holds host w.log id x → Receipt host id x) :
    w.kept.timers.find id = pending (projected host.delivery.agentId w.log) id := by
  obtain ⟨seen, unread, hseen, hlast, hpending⟩ := h.timers
  obtain ⟨rfl, -⟩ := seen_unique hseen (append_nil _).symm (hlast.symm.trans hread)
  rcases hpending id with hsame | ⟨hnone, x, hx⟩
  · exact hsame
  · have hreceipt := hholders x hx
    obtain ⟨-, set, hset, hid, hless⟩ := h.receipt (Ledger.mem_ofStream.mp hx.1).1 hreceipt
    have hmem : x ∈ projected host.delivery.agentId w.log :=
      mem_filter.mpr ⟨hx.1, by simp [hreceipt.eventType, projectedTypes]⟩
    obtain ⟨before, after, hsplit⟩ := append_of_mem hmem
    have hsorted : (before ++ x :: after).Pairwise fun event later => event.sequence < later.sequence :=
      hsplit ▸ (w.log.stream_pairwise _).filter _
    have hlater : ∀ e ∈ x :: after, e.eventId ≠ id := by
      intro e he heq
      have hle : x.sequence ≤ e.sequence := by
        rcases mem_cons.mp he with rfl | he
        · exact le_rfl
        · exact ((pairwise_cons.mp (pairwise_append.mp hsorted).2.1).1 e he).le
      have hmem' : e ∈ w.log.events :=
        (Ledger.mem_ofStream.mp (mem_projected (hsplit ▸ mem_append_right _ he)).1).1
      have hsame := w.log.event_unique hmem' (Ledger.mem_ofStream.mp hset).1 (heq.trans hid.symm)
      exact absurd (hsame ▸ hless) (Nat.not_lt.mpr hle)
    rw [hnone, hsplit, pending_fired hreceipt.2 hlater]

/-- What the scheduler keeps of its timers in a world: each fires once and not early, none is taken away except by
an event that ends it or by a firing, and the state is what the log leaves pending once the log is read. -/
structure TimersKept (lib : Library) (host : HostState) (search : Log.Search) (w : World) : Prop where
  once : ∀ id, ∀ x ∈ w.log.events, ∀ y ∈ w.log.events, Receipt host id x → Receipt host id y → x = y
  notEarly : ∀ action w', Step lib host search action w w' → ∀ x ∈ w'.log.events, x ∉ w.log.events →
    x.request.actor = me host → x.request.eventType = "timer.fired" → ∃ now, action = .emit now ∧
      ∃ set ∈ w.log.stream host.delivery.agentId, ∃ timer, timerSet set = some timer ∧
        named "timer.fired" x = some set.eventId ∧ timer.due ≤ now
  removed : ∀ action w', Step lib host search action w w' → ∀ id timer, w.kept.timers.find id = some timer →
    w'.kept.timers.find id ≠ some timer →
      (∃ set ∈ w.log.stream host.delivery.agentId, timerSet set = some timer ∧ set.eventId = id) ∧
      ((action = .apply ∧ ∃ x ∈ w.log.stream host.delivery.agentId, named "timer.fired" x = some id ∨
          (named "timer.cancel" x = some id ∧ x.request.actor.id = timer.owner)) ∨
        (∃ now, action = .emit now ∧ timer.due ≤ now ∧ ∃ x, Holds host w'.log id x) ∨ action = .rebuild)
  caughtUp : ∀ w', Step lib host search .read w w' → w'.phase = .caughtUp → ∀ id,
    (∀ x, Holds host w'.log id x → Receipt host id x) →
      w'.kept.timers.find id = pending (projected host.delivery.agentId w'.log) id

/-- In every run, whatever others write and wherever the instance is started anew, the timers are kept. -/
theorem timers_fire_once (lib : Library) (host : HostState) (search : Log.Search) {w : World}
    (h : Reachable lib host search w) : TimersKept lib host search w where
  once _ _ hx _ hy hreceipt hreceipt' := (Runs.timely h).once hx hy hreceipt hreceipt'
  notEarly action w' hstep x hx hold hactor htype := by
    obtain ⟨now, haction, set, hset, timer, htimer, hdue, hwrote⟩ :=
      (Runs.timely h).fired (hstep.effect (Runs.coherent h)).1 hx hold hactor htype
    exact ⟨now, haction, set, hset, timer, htimer, (timerSet_some htimer).2.1 ▸ named_of_wrote hwrote, hdue⟩
  removed action w' hstep id timer hfind hgone := by
    refine ⟨(Runs.timely h).set hfind, ?_⟩
    refine ((Runs.timely h).removed (hstep.effect (Runs.coherent h)).1 hfind hgone).imp_left ?_
    rintro ⟨haction, x, hx, hends⟩
    exact ⟨haction, x, hx, by simpa [ends] using hends⟩
  caughtUp w' hstep hphase id hholders := by
    have heffect := (hstep.effect (Runs.coherent h)).1
    have htimely := (Runs.timely h).step heffect
    refine htimely.caughtUp ?_ hholders
    cases hstep with
    | read hrefreshing =>
      cases heffect with
      | still _ hlog hkept hready =>
        rw [hlog, hkept]
        refine (hready (by rw [hphase]; rfl)).resolve_left fun hbefore => ?_
        rw [hrefreshing] at hbefore
        cases hbefore

end Results

def sampleSet : World := World.start.told "set" sampleTimer

theorem sampleSet_reachable : Reachable sampleLibrary sampleHost sampleSearch sampleSet :=
  World.told_runs .refl (by decide) (by decide +kernel)

theorem timers_fire_once_set : ∃ w, Reachable sampleLibrary sampleHost sampleSearch w ∧
    (∃ x ∈ w.log.events, x.request.actor = me sampleHost ∧ named "timer.fired" x = some "set") ∧
    TimersKept sampleLibrary sampleHost sampleSearch w :=
  have h := World.steps_runs sampleSet_reachable 7 5
  ⟨_, h, by decide +kernel, timers_fire_once _ _ _ h⟩

/-- The timer has been read, and a third component writes that it has fired. -/
def sampleForged : World :=
  (((sampleSet.steps 0 2).told "forged" (sampleRequest "other" "timer.fired"
    (.canonicalJson (.json (.object [("requestEventId", .string "set")]))))).steps 0 1)

theorem sampleForged_reachable : Reachable sampleLibrary sampleHost sampleSearch sampleForged :=
  World.steps_runs (World.told_runs (World.steps_runs sampleSet_reachable 0 2) (by decide) (by decide +kernel)) 0 1

/-- Nobody but the owner has cancelled the timer and the scheduler has not fired it, and yet it goes. -/
theorem timer_ended_by_other : ∃ w w' action, Reachable sampleLibrary sampleHost sampleSearch w ∧
    Step sampleLibrary sampleHost sampleSearch action w w' ∧
    w.kept.timers.find "set" = some ⟨"set", "rlm", 5⟩ ∧ w'.kept.timers.find "set" = none ∧
    (∀ x ∈ w'.log.events, x.request.actor ≠ me sampleHost ∧ x.request.eventType ≠ "timer.cancel") ∧
    action = .apply :=
  ⟨sampleForged, _, _, sampleForged_reachable, Step.next _ _ _ 0 (sampleDraws 0) _, by decide +kernel, by decide +kernel,
    by decide +kernel, rfl⟩

/-- In every run a kept timer is pending after what was read of the log or its key is taken, receipts answer to timers
set before, and what the loop holds before a commit was computed from the state as it still is. -/
theorem state_follows_log (lib : Library) (host : HostState) (search : Log.Search) {w : World}
    (h : Reachable lib host search w) : Coherent lib host w ∧ Timely host w :=
  ⟨Runs.coherent h, Runs.timely h⟩

/-- The timer is set, and the loop goes on until it has fired and its receipt has been read. -/
theorem state_follows_log_set :
    (∃ x ∈ (sampleSet.steps 7 11).log.events, named "timer.fired" x = some "set") ∧
    (sampleSet.steps 7 11).kept.timers.find "set" = none ∧
    Coherent sampleLibrary sampleHost (sampleSet.steps 7 11) ∧ Timely sampleHost (sampleSet.steps 7 11) :=
  ⟨by decide +kernel, by decide +kernel, state_follows_log _ _ _ (World.steps_runs sampleSet_reachable 7 11)⟩

end Pluribus.Scheduler
