import Pluribus.Cognition.Router

namespace Pluribus.Cognition

open Lib Pluribus.Core Storage List

/-- What dispatch remembers of the stream: the result of every request, the last revision and
status of every job, and the observations cognition has not settled. -/
structure DispatchProjection where
  through : Nat := 0
  results : Table String EventId := []
  jobs : Table (String × String) (Int × String) := []
  observations : Table String (List String) := []
deriving DecidableEq, Repr

namespace DispatchProjection

def cognitionTypes : List String :=
  ["cognition.checkpoint", "cognition.job-updated", "cognition.observation-associated"]

def resultTypes : List String :=
  ["code.completed", "code.failed", "code.yielded", "model.completed", "model.failed", "capability.completed",
    "capability.failed", "capability.denied", "capability.timed-out", "capability.cancelled"]

def types : List String := cognitionTypes ++ resultTypes

section Update

variable (p : DispatchProjection)

def jobEntry (job : Json) : Int × String :=
  ((job.index "revision").asI64.getD (-1), (job.index "status").asStr.getD "")

def updateJob (actor id : String) (job : Json) : DispatchProjection :=
  { p with jobs := p.jobs.upsert (actor, id) (jobEntry job) }

def updateObservation (actor id : String) (observation : Json) : DispatchProjection :=
  let pending := (p.observations.find actor).getD []
  let pending' :=
    if observation.index "status" = .string "pending" then
      if pending.contains id then pending else pending ++ [id]
    else pending.filter (· ≠ id)
  { p with observations := p.observations.upsert actor pending' }

def updateCognition (event : CommittedEvent) : Except RouterError DispatchProjection :=
  match event.request.payload with
  | .blob _ => .ok p
  | .canonicalJson (.other _ message) => .error (.storage message)
  | .canonicalJson (.json value) =>
    let actor := event.request.actor.id
    if event.request.actor.kind ≠ .component then .ok p
    else if event.request.eventType = "cognition.job-updated" then
      match ((value.index "job").index "id").asStr with
      | some id => .ok (p.updateJob actor id (value.index "job"))
      | none => .ok p
    else if event.request.eventType = "cognition.observation-associated" then
      match ((value.index "observation").index "id").asStr with
      | some id => .ok (p.updateObservation actor id (value.index "observation"))
      | none => .ok p
    else .ok p

def enter (request : Option String) (id : EventId) (results : Table String EventId) : Table String EventId :=
  match request with
  | some request => results.insertOrIgnore request id
  | none => results

def updateResults (event : CommittedEvent) : DispatchProjection :=
  let caused := enter event.request.causationId event.eventId p.results
  { p with results := enter (payloadField event "requestEventId") event.eventId caused }

def update (event : CommittedEvent) : DispatchProjection × Option RouterError :=
  let p := { p with through := event.sequence }
  if event.request.eventType ∈ cognitionTypes then
    match p.updateCognition event with
    | .ok p' => (p', none)
    | .error error => (p, some error)
  else (p.updateResults event, none)

end Update

def absorb : DispatchProjection → List CommittedEvent → DispatchProjection × Option RouterError
  | p, [] => (p, none)
  | p, event :: rest =>
    match p.update event with
    | (p', none) => absorb p' rest
    | (p', some error) => (p', some error)

def ofEvents (events : List CommittedEvent) : DispatchProjection :=
  events.foldl (fun p event => (p.update event).1) {}

@[simp]
theorem ofEvents_snoc (events : List CommittedEvent) (event : CommittedEvent) :
    ofEvents (events ++ [event]) = ((ofEvents events).update event).1 := by
  simp [ofEvents]

theorem absorb_ofEvents {seen page : List CommittedEvent} {p : DispatchProjection} {error : Option RouterError}
    (h : absorb (ofEvents seen) page = (p, error)) :
    ∃ taken, taken <+: page ∧ p = ofEvents (seen ++ taken) ∧ (error = none → taken = page) := by
  induction page generalizing seen with
  | nil =>
    cases h
    exact ⟨[], prefix_refl _, by simp, fun _ => rfl⟩
  | cons event rest ih =>
    have hsnoc := ofEvents_snoc seen event
    unfold absorb at h
    split at h
    · rename_i p' hupdate
      rw [hupdate] at hsnoc
      replace h : absorb (ofEvents (seen ++ [event])) rest = (p, error) := hsnoc ▸ h
      obtain ⟨taken, htaken, hp, hall⟩ := ih h
      refine ⟨event :: taken, (prefix_cons_inj _).mpr htaken, ?_, fun hnone => by rw [hall hnone]⟩
      rw [hp, append_assoc, singleton_append]
    · rename_i p' failed hupdate
      cases h
      rw [hupdate] at hsnoc
      exact ⟨[event], (prefix_cons_inj _).mpr nil_prefix, hsnoc.symm, fun hnone => nomatch hnone⟩

section Fields

variable (p : DispatchProjection) (event : CommittedEvent)

/-- The update changes the results only by a result, and the jobs only by a record of cognition. -/
theorem updateCognition_fields {p p' : DispatchProjection} {event : CommittedEvent}
    (h : p.updateCognition event = .ok p') : p'.through = p.through ∧ p'.results = p.results := by
  unfold updateCognition at h
  split at h
  · cases h
    exact ⟨rfl, rfl⟩
  · cases h
  · split at h
    · cases h
      exact ⟨rfl, rfl⟩
    split at h
    · split at h <;> cases h <;> exact ⟨rfl, rfl⟩
    split at h
    · split at h <;> cases h <;> exact ⟨rfl, rfl⟩
    · cases h
      exact ⟨rfl, rfl⟩

theorem update_through : (p.update event).1.through = event.sequence := by
  unfold update
  dsimp only
  split
  · split
    · rename_i h
      exact (updateCognition_fields h).1
    · rfl
  · rfl

theorem update_results :
    (p.update event).1.results =
      if event.request.eventType ∈ cognitionTypes then p.results else (p.updateResults event).results := by
  unfold update
  dsimp only
  split
  · split
    · rename_i h
      exact (updateCognition_fields h).2
    · rfl
  · rfl

end Fields

end DispatchProjection

def Terminates (request : EventId) (event : CommittedEvent) : Prop :=
  event.request.eventType ∈ DispatchProjection.resultTypes ∧
    (event.request.causationId = some request ∨ payloadField event "requestEventId" = some request)

instance (request : EventId) (event : CommittedEvent) : Decidable (Terminates request event) :=
  inferInstanceAs (Decidable (_ ∧ _))

/-- The revision and status an event records for the job, if the component wrote it about that job. -/
def jobRecord (actor job : String) (event : CommittedEvent) : Option (Int × String) :=
  match event.request.payload with
  | .canonicalJson (.json value) =>
    if event.request.actor = ⟨.component, actor⟩ ∧ event.request.eventType = "cognition.job-updated" ∧
        ((value.index "job").index "id").asStr = some job then
      some (DispatchProjection.jobEntry (value.index "job"))
    else none
  | _ => none

namespace DispatchProjection

theorem find_enter (request : Option String) (id : EventId) (results : Table String EventId) (key : String) :
    (enter request id results).find key =
      if request = some key then some ((results.find key).getD id) else results.find key := by
  cases request with
  | none => simp [enter]
  | some request => simp [enter, Table.find_insertOrIgnore]

theorem find_updateResults (p : DispatchProjection) (event : CommittedEvent) (key : String) :
    (p.updateResults event).results.find key =
      if event.request.causationId = some key ∨ payloadField event "requestEventId" = some key then
        some ((p.results.find key).getD event.eventId)
      else p.results.find key := by
  unfold updateResults
  simp only [find_enter]
  by_cases hcause : event.request.causationId = some key <;>
    by_cases hnamed : payloadField event "requestEventId" = some key <;> simp [hcause, hnamed]

theorem resultTypes_not_cognition {eventType : String} (h : eventType ∈ resultTypes) :
    eventType ∉ cognitionTypes := by
  revert eventType
  decide

/-- The result kept for a request is the first one in the log that names it. -/
theorem ofEvents_find {events : List CommittedEvent} (htypes : ∀ event ∈ events, event.request.eventType ∈ types)
    (request : String) :
    (ofEvents events).results.find request = (events.find? (Terminates request ·)).map (·.eventId) := by
  induction events using List.reverseRecOn with
  | nil => rfl
  | append_singleton events event ih =>
    have hold := ih fun e he => htypes e (mem_append_left _ he)
    rw [ofEvents_snoc, update_results, find?_append]
    by_cases hkind : event.request.eventType ∈ cognitionTypes
    · have hother : ¬ Terminates request event := fun h => resultTypes_not_cognition h.1 hkind
      simp [hkind, hother, hold]
    · have hresult := (mem_append.mp (htypes event (by simp))).resolve_left hkind
      rw [if_neg hkind, find_updateResults, hold]
      cases events.find? (Terminates request ·) <;>
        by_cases hnamed : event.request.causationId = some request ∨ payloadField event "requestEventId" = some request <;>
          simp [Terminates, hresult, hnamed]

end DispatchProjection

end Pluribus.Cognition
