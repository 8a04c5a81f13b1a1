import Mathlib.Data.List.Induction
import Pluribus.Scheduler.Specs

namespace Pluribus.Scheduler

open Lib Pluribus.Core Storage Pluribus.Runtime List

/-- Provider, sender and conversation, as `owned_by` compares them. -/
abbrev Owner := Json × Json × Json

def ownerOf (origin : Fields) : Owner :=
  (origin.index "provider", origin.index "externalSenderId", origin.index "conversationId")

def Call.owner (call : Call) : Owner := ownerOf call.origin

def Schedule.owner (s : Schedule) : Owner := ownerOf s.origin

def Schedules.ownedBy (schedules : Schedules) (who : Owner) : Schedules := schedules.retain fun _ s => s.owner = who

section Calls

variable (lib : Library)

/-- One call: its answer, and the schedules after it. A call that fails changes nothing. -/
def serve (schedules : Schedules) (call : Call) : Except String (Json × Change) × Schedules :=
  match manage lib schedules call with
  | .ok (answer, schedules') => (.ok answer, schedules')
  | .error message => (.error message, schedules)

def serveAll (schedules : Schedules) (calls : List Call) : Schedules :=
  calls.foldl (fun schedules call => (serve lib schedules call).2) schedules

def answers (schedules : Schedules) : List Call → List (Call × Except String (Json × Change))
  | [] => []
  | call :: rest => (call, (serve lib schedules call).1) :: answers (serve lib schedules call).2 rest

end Calls

section Isolation

variable {lib : Library} {schedules schedules' : Schedules} {call : Call} {who : Owner}

variable {s : Schedule} {id : String} {calls : List Call}

theorem ownedBy_iff (s : Schedule) (origin : Fields) : s.ownedBy origin = true ↔ s.owner = ownerOf origin := by
  simp [Schedule.ownedBy, Schedule.owner, ownerOf]

theorem find_ownedBy (id : String) :
    (schedules.ownedBy who).find id = (schedules.find id).filter fun s => s.owner = who :=
  Map.find_retain _ _ id

theorem find_ownedBy_filter (hwho : call.owner = who) (id : String) :
    ((schedules.ownedBy who).find id).filter (·.ownedBy call.origin) =
      (schedules.find id).filter (·.ownedBy call.origin) := by
  rw [find_ownedBy, Option.filter_filter]
  congr 1
  funext s
  by_cases hs : s.ownedBy call.origin
  · have howner : s.owner = who := ((ownedBy_iff s _).mp hs).trans hwho
    simp [hs, howner]
  · simp [hs]

variable (schedules) in
theorem ownedBy_insert (hs : s.owner = who) (id : String) :
    Schedules.ownedBy (Map.insert schedules id s) who = (schedules.ownedBy who).insert id s := by
  apply Map.ext_find
  intro k
  by_cases hk : id = k <;> simp [find_ownedBy, Map.find_insert, hk, Option.filter_some, hs]

theorem ownedBy_erase (id : String) : Schedules.ownedBy (Map.erase schedules id) who = (schedules.ownedBy who).erase id := by
  apply Map.ext_find
  intro k
  by_cases hk : k = id <;> simp [find_ownedBy, Map.find_erase, hk]

theorem ownedBy_put_other {s : Option Schedule} (hs : ∀ s', s = some s' → s'.owner ≠ who)
    (hold : ∀ old, schedules.find id = some old → old.owner ≠ who) :
    (schedules.put id s).ownedBy who = schedules.ownedBy who := by
  apply Map.ext_find
  intro k
  rw [find_ownedBy, find_ownedBy, Schedules.find_put]
  by_cases hk : k = id
  · subst hk
    have hnone : (schedules.find k).filter (fun s => s.owner = who) = none := by
      simpa [Option.filter_eq_none_iff] using hold
    rw [if_pos rfl, hnone]
    simpa [Option.filter_eq_none_iff] using hs
  · rw [if_neg hk]

theorem create_owner (h : create lib call = .ok s) : s.id = call.requestId ∧ s.owner = call.owner := by
  obtain ⟨name, prompt, timing, due, -, rfl⟩ := create_ok h
  exact ⟨rfl, rfl⟩

theorem revised_owner {s' : Schedule} (h : revised call s = .ok s') : s'.owner = call.owner := by
  rw [revised_ok h]
  rfl

theorem listed_ownedBy (hwho : call.owner = who) : listed (schedules.ownedBy who) call = listed schedules call := by
  have hrows : (schedules.ownedBy who).values.filter (fun s =>
        (call.args.index "after").asStr.getD "" < s.id && s.ownedBy call.origin) =
      schedules.values.filter (fun s => (call.args.index "after").asStr.getD "" < s.id && s.ownedBy call.origin) := by
    rw [Schedules.ownedBy, Map.values_retain, filter_filter]
    apply filter_congr
    intro s _
    by_cases hs : s.ownedBy call.origin
    · have howner : s.owner = who := ((ownedBy_iff s _).mp hs).trans hwho
      simp [howner]
    · simp [hs]
  simp only [listed, hrows]

theorem manage_ownedBy (hwho : call.owner = who) : manage lib (schedules.ownedBy who) call =
    (manage lib schedules call).map fun result => (result.1, Schedules.ownedBy result.2 who) := by
  unfold manage
  by_cases hlist : call.capability = "schedule.list"
  · simp [hlist, listed_ownedBy hwho, Except.map]
  by_cases hcreate : call.capability = "schedule.create"
  · simp only [hcreate, String.reduceEq, if_false, if_true]
    cases h : create lib call with
    | error message => rfl
    | ok s =>
      have hinsert := ownedBy_insert schedules ((create_owner h).2.trans hwho) s.id
      simp only [bind, Except.bind, pure, Except.pure, Except.map, hinsert]
  rw [if_neg hlist, if_neg hlist, if_neg hcreate, if_neg hcreate]
  cases text call.args "id" 256 with
  | error message => rfl
  | ok id =>
    simp only [bind, Except.bind, find_ownedBy_filter hwho]
    cases hfind : (schedules.find id).filter (·.ownedBy call.origin) with
    | none => rfl
    | some s =>
      dsimp only
      by_cases hget : call.capability = "schedule.get"
      · simp [hget, Except.map]
      by_cases hdelete : call.capability = "schedule.delete"
      · simp [hdelete, Except.map, ownedBy_erase]
      rw [if_neg hget, if_neg hget, if_neg hdelete, if_neg hdelete]
      cases edited lib call s with
      | error message => rfl
      | ok changed =>
        dsimp only
        cases hrevised : revised call changed with
        | error message => rfl
        | ok s' =>
          have hinsert := ownedBy_insert schedules ((revised_owner hrevised).trans hwho) id
          simp only [pure, Except.pure, Except.map, hinsert]

/-- Every schedule goes back to a call that created it, and is still its owner's. -/
def Founded (calls : List Call) (schedules : Schedules) : Prop :=
  ∀ id s, schedules.find id = some s → ∃ call ∈ calls, call.requestId = id ∧ call.owner = s.owner

/-- A request is made by one event, which has one origin. -/
def OneOrigin (calls : List Call) : Prop :=
  ∀ call ∈ calls, ∀ other ∈ calls, call.requestId = other.requestId → call.owner = other.owner

variable (lib) in
theorem serve_cases (schedules : Schedules) (call : Call) : (serve lib schedules call).2 = schedules ∨
    ∃ id s, Changed lib schedules call id s ∧ (serve lib schedules call).2 = schedules.put id s := by
  unfold serve
  cases h : manage lib schedules call with
  | error message => exact .inl rfl
  | ok result =>
    obtain ⟨⟨value, change⟩, schedules'⟩ := result
    rcases manage_ok h with ⟨-, hsame⟩ | ⟨id, s, -, hchanged, hput⟩
    · exact .inl hsame
    · exact .inr ⟨id, s, hchanged, hput⟩

theorem Changed.owner {s : Option Schedule} (h : Changed lib schedules call id s) :
    (∀ s', s = some s' → s'.owner = call.owner) ∧
      (id = call.requestId ∨ ∃ old, schedules.find id = some old ∧ old.owner = call.owner) := by
  cases h with
  | created hcapability h =>
    obtain ⟨hid, howner⟩ := create_owner h
    refine ⟨fun s' hs' => ?_, .inl hid⟩
    cases hs'
    exact howner
  | deleted hfind howned =>
    refine ⟨fun s' hs' => ?_, .inr ⟨_, hfind, (ownedBy_iff _ _).mp howned⟩⟩
    cases hs'
  | edited hcapability hfind howned hedited hrevised =>
    refine ⟨fun s' hs' => ?_, .inr ⟨_, hfind, (ownedBy_iff _ _).mp howned⟩⟩
    cases hs'
    exact revised_owner hrevised

theorem Changed.touches (hfounded : Founded calls schedules) (hone : OneOrigin (calls ++ [call])) {s : Option Schedule}
    (h : Changed lib schedules call id s) {old : Schedule} (hold : schedules.find id = some old) :
    old.owner = call.owner := by
  rcases h.owner.2 with hid | ⟨old', hold', howner⟩
  · obtain ⟨first, hfirst, hrequest, howner⟩ := hfounded id old hold
    rw [← howner]
    exact hone first (mem_append_left _ hfirst) call (mem_append_right _ (mem_singleton_self _))
      (hrequest.trans hid)
  · rw [hold, Option.some.injEq] at hold'
    exact hold' ▸ howner

variable (lib call) in
theorem Founded.serve (hfounded : Founded calls schedules) :
    Founded (calls ++ [call]) (serve lib schedules call).2 := by
  have hmono : Founded (calls ++ [call]) schedules := fun id s hfind => by
    obtain ⟨first, hfirst, hrest⟩ := hfounded id s hfind
    exact ⟨first, mem_append_left _ hfirst, hrest⟩
  rcases serve_cases lib schedules call with hsame | ⟨id, s, hchanged, hput⟩
  · rw [hsame]
    exact hmono
  · rw [hput]
    intro k s' hfind
    rw [Schedules.find_put] at hfind
    split at hfind
    · rename_i hk
      have howner := hchanged.owner.1 s' hfind
      rcases hchanged.owner.2 with hid | ⟨old, hold, holder⟩
      · exact ⟨call, mem_append_right _ (mem_singleton_self _), (hk.trans hid).symm, howner.symm⟩
      · obtain ⟨first, hfirst, hrequest, hsame⟩ := hmono id old hold
        exact ⟨first, hfirst, hrequest.trans hk.symm, hsame.trans (holder.trans howner.symm)⟩
    · exact hmono k s' hfind

theorem serve_other (hfounded : Founded calls schedules) (hone : OneOrigin (calls ++ [call])) (hwho : call.owner ≠ who) :
    Schedules.ownedBy (serve lib schedules call).2 who = schedules.ownedBy who := by
  rcases serve_cases lib schedules call with hsame | ⟨id, s, hchanged, hput⟩
  · rw [hsame]
  · rw [hput]
    apply ownedBy_put_other
    · intro s' hs'
      rw [hchanged.owner.1 s' hs']
      exact hwho
    · intro old hold
      rw [hchanged.touches hfounded hone hold]
      exact hwho

theorem serve_own (hwho : call.owner = who) : serve lib (schedules.ownedBy who) call =
    ((serve lib schedules call).1, Schedules.ownedBy (serve lib schedules call).2 who) := by
  unfold serve
  rw [manage_ownedBy hwho]
  cases manage lib schedules call <;> rfl

variable (lib) in
theorem founded_serveAll (calls : List Call) : Founded calls (serveAll lib .empty calls) := by
  induction calls using List.reverseRecOn with
  | nil => exact fun id s hfind => by cases hfind
  | append_singleton calls call ih =>
    rw [serveAll, foldl_append]
    exact ih.serve lib call

theorem OneOrigin.sublist {few : List Call} (h : OneOrigin calls) (hfew : few ⊆ calls) : OneOrigin few :=
  fun call hcall other hother => h call (hfew hcall) other (hfew hother)

/-- From schedules that earlier calls have left, an owner gets the answers it would get alone. -/
theorem answers_isolated {earlier : List Call} (hfounded : Founded earlier schedules)
    (hone : OneOrigin (earlier ++ calls)) :
    (answers lib schedules calls).filter (·.1.owner = who) =
      answers lib (schedules.ownedBy who) (calls.filter (·.owner = who)) := by
  induction calls generalizing earlier schedules with
  | nil => rfl
  | cons call rest ih =>
    have hrest := ih (hfounded.serve lib call) (by rwa [append_assoc])
    have hone' : OneOrigin (earlier ++ [call]) := hone.sublist (by simp)
    by_cases hwho : call.owner = who
    · simp [answers, hwho, serve_own hwho, hrest]
    · simp [answers, hwho, hrest, serve_other hfounded hone' hwho]

end Isolation

section Made

variable {host host' : HostState} {log log' whole : Log} {event : CommittedEvent}

/-- The component makes a call of a request in the log, when the log had got as far as `earlier`. -/
def Made (log : Log) (call : Call) : Prop :=
  ∃ (host : HostState) (earlier : Log) (event : CommittedEvent) (request : Json) (capability : String) (now : Int),
    earlier.events ⊆ log.events ∧ event ∈ log.events ∧ callOf host earlier event request capability now = .ok call

theorem get_mem {id : EventId} (h : (host.get log id).1 = .ok event) : event ∈ log.events ∧ event.eventId = id := by
  unfold HostState.get at h
  split at h
  · cases h
  · rename_i found hfound
    cases h
    have hget := (Option.filter_eq_some_iff.mp hfound).1
    exact ⟨mem_of_find?_eq_some hget, by simpa using find?_some hget⟩

/-- The log never shows another origin for an event. -/
theorem originWithin_unique (hlog : log.events ⊆ whole.events) (hlog' : log'.events ⊆ whole.events) {n : Nat}
    {found found' : EventId × Fields} (h : originWithin host log n event = .ok found)
    (h' : originWithin host' log' n event = .ok found') : found = found' := by
  induction n generalizing event with
  | zero => cases h
  | succ n ih =>
    unfold originWithin at h h'
    by_cases htype : event.request.eventType = "observation.received"
    · rw [if_pos htype] at h h'
      exact Except.ok.inj (h.symm.trans h')
    rw [if_neg htype] at h h'
    cases hcause : event.request.causationId with
    | none =>
      rw [hcause] at h
      cases h
    | some cause =>
      rw [hcause] at h h'
      obtain ⟨parent, hparent, h⟩ := except_bind_ok.mp h
      obtain ⟨parent', hparent', h'⟩ := except_bind_ok.mp h'
      have hmem := get_mem hparent
      have hmem' := get_mem hparent'
      cases whole.event_unique (hlog hmem.1) (hlog' hmem'.1) (hmem.2.trans hmem'.2.symm)
      by_cases hless : parent.sequence ≥ event.sequence
      · rw [if_pos hless] at h
        cases h
      · rw [if_neg hless] at h h'
        exact ih h h'

theorem oneOrigin_of_made {calls : List Call} (h : ∀ call ∈ calls, Made whole call) : OneOrigin calls := by
  intro call hcall other hother hrequest
  obtain ⟨host, log, event, _, _, _, hlog, hevent, hok⟩ := h call hcall
  obtain ⟨host', log', event', _, _, _, hlog', hevent', hok'⟩ := h other hother
  obtain ⟨⟨originId, fields⟩, horigin, hcalled⟩ := except_bind_ok.mp hok
  obtain ⟨⟨originId', fields'⟩, horigin', hcalled'⟩ := except_bind_ok.mp hok'
  cases hcalled
  cases hcalled'
  cases whole.event_unique hevent hevent' hrequest
  have hsame := originWithin_unique hlog hlog' horigin horigin'
  rw [Prod.mk.injEq] at hsame
  rw [Call.owner, Call.owner, hsame.2]

end Made

/-- Owners do not interfere: whatever calls the component makes of requests in a log, the answers one owner gets are those
it would get if only its own calls had been made, and no call makes a schedule change hands. -/
theorem owners_isolated (lib : Library) (log : Log) (calls : List Call) (hmade : ∀ call ∈ calls, Made log call) (who : Owner) :
    (answers lib .empty calls).filter (·.1.owner = who) = answers lib .empty (calls.filter (·.owner = who)) ∧
    ∀ earlier call later, calls = earlier ++ call :: later → ∀ id s s', (serveAll lib .empty earlier).find id = some s →
      (serve lib (serveAll lib .empty earlier) call).2.find id = some s' → s'.owner = s.owner := by
  have hone := oneOrigin_of_made hmade
  refine ⟨answers_isolated (founded_serveAll lib []) hone, ?_⟩
  rintro earlier call later rfl id s s' hfind hfind'
  have hfounded := founded_serveAll lib earlier
  have hone' : OneOrigin (earlier ++ [call]) := hone.sublist (by simp)
  rcases serve_cases lib (serveAll lib .empty earlier) call with hsame | ⟨k, changed, hchanged, hput⟩
  · rw [hsame, hfind] at hfind'
    cases hfind'
    rfl
  · rw [hput, Schedules.find_put] at hfind'
    split at hfind'
    · rename_i hk
      subst hk
      rw [hchanged.owner.1 s' hfind', hchanged.touches hfounded hone' hfind]
    · rw [hfind] at hfind'
      cases hfind'
      rfl

def createArgs : Json := Json.ofFields [("name", .string "tea"), ("prompt", .string "make tea"),
  ("timing", Json.ofFields [("kind", .string "after"), ("milliseconds", Json.ofNat 9)])]

def deleteArgs : Json := Json.ofFields [("id", .string "event-2")]

def callJson (capability : String) (args : Json) : Json :=
  Json.ofFields [("capability", .string capability), ("arguments", args)]

/-- Two people of one provider: the first has a schedule created, the second one names it. -/
def sampleLog : Log :=
  let request (eventType : String) (payload : Json) (cause : Option EventId) : AppendRequest :=
    ⟨"agent", .agent, none, eventType, "test/1", .canonicalJson (.json payload), ⟨.component, "chat"⟩, none, none, none, cause,
      none⟩
  let said (sender : String) : AppendRequest := request "observation.received" (Json.ofFields [("provider", .string "chat"),
    ("externalSenderId", .string sender), ("conversationId", .string "room")]) none
  (((Log.empty.appended "event-1" 1 (said "ann")).appended "event-2" 2
    (request "capability.requested" (callJson "schedule.create" createArgs) (some "event-1"))).appended "event-3" 3
      (said "bob")).appended "event-4" 4 (request "capability.requested" (callJson "schedule.delete" deleteArgs) (some "event-3"))

def sampleCalls : List Call :=
  let origin (sender : String) : Fields := [("conversationId", .string "room"), ("externalSenderId", .string sender),
    ("provider", .string "chat"), ("trusted", .bool true)]
  [⟨"schedule.create", createArgs, "event-2", "event-1", origin "ann", 7⟩,
    ⟨"schedule.delete", deleteArgs, "event-4", "event-3", origin "bob", 8⟩]

theorem owners_isolated_sample : (∀ call ∈ sampleCalls, Made sampleLog call) ∧ ∀ who,
    (answers sampleLibrary .empty sampleCalls).filter (·.1.owner = who) =
      answers sampleLibrary .empty (sampleCalls.filter (·.owner = who)) := by
  have hmade : ∀ call ∈ sampleCalls, Made sampleLog call := by
    have hat : ∀ {event : CommittedEvent} {n : Nat}, sampleLog.events[n]? = some event → event ∈ sampleLog.events :=
      mem_of_getElem?
    let host : HostState := .bare "scheduler" "agent" ["observation.received", "capability.requested"]
    rw [sampleCalls, forall_mem_cons, forall_mem_singleton]
    exact ⟨⟨host, sampleLog, _, callJson "schedule.create" createArgs, _, 7, List.Subset.refl _, hat (n := 1) rfl, rfl⟩,
      ⟨host, sampleLog, _, callJson "schedule.delete" deleteArgs, _, 8, List.Subset.refl _, hat (n := 3) rfl, rfl⟩⟩
  exact ⟨hmade, fun who => (owners_isolated sampleLibrary sampleLog sampleCalls hmade who).1⟩

end Pluribus.Scheduler
