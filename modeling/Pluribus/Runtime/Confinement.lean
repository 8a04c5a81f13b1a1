import Pluribus.Runtime.Blobs

namespace Pluribus.Runtime

open Lib Pluribus.Core Storage List Function

variable {host : HostState} {blob : BlobRef}

/-- A running instance and the blobs it has stored itself. -/
structure Member where
  host : HostState
  stored : List BlobRef

/-- An event the instance sees on its agent's stream names the blob. -/
def Member.Shown (log : Log) (m : Member) (blob : BlobRef) : Prop :=
  isValid blob = true ∧ ∃ e ∈ log.stream m.host.delivery.agentId, m.host.sees e = true ∧
    blob ∈ payloadBlobs e.request.payload

/-- What one instance does without writing to the event store: it reads events, takes a
delivery, uploads, ends a call, or is instantiated again. -/
inductive Member.Act (log : Log) (m : Member) : Member → Prop
  | get (eventId : EventId) : Act log m { m with host := (m.host.get log eventId).2 }
  | query (search : Log.Search) (filter : Filter) (limit : Nat) :
      Act log m { m with host := (m.host.query log search filter limit).2 }
  | deliver (batch : List CommittedEvent) (hbatch : ∀ e ∈ batch, e ∈ log.stream m.host.delivery.agentId) :
      Act log m { m with host := m.host.revealEventBlobs batch }
  | openWrite (upload : Except BlobError String) : Act log m { m with host := (m.host.openWrite upload).2 }
  | finish {handle : String} {stored : Except BlobError BlobRef} {blob : BlobRef} {host' : HostState}
      (h : m.host.finish handle stored = (.ok blob, host')) : Act log m ⟨host', blob :: m.stored⟩
  | finishFailed {handle : String} {stored : Except BlobError BlobRef} {error : HostError} {host' : HostState}
      (h : m.host.finish handle stored = (.error error, host')) : Act log m { m with host := host' }
  | put {size : Nat} {stored : Except BlobError BlobRef} {blob : BlobRef} {host' : HostState}
      (h : m.host.put size stored = (.ok blob, host')) : Act log m ⟨host', blob :: m.stored⟩
  | endCall (replaying emitCall : Bool) :
      Act log m { m with host := { m.host.releaseHandles with replaying := replaying, emitCall := emitCall } }
  | restart : Act log m { m with
      host := { m.host.releaseHandles with visibleBlobs := m.host.delivery.visibleBlobs } }

/-- Any number of instances over one event store and one blob store. -/
structure World where
  store : Store
  members : Nat → Option Member

namespace World

def empty : World := ⟨Store.empty, fun _ => none⟩

/-- A step of the whole: an instance joins, acts, appends or commits, or the host or an
operator writes events of its own. -/
inductive Step : World → World → Prop
  | join {w : World} (i : Nat) (host : HostState) (hfree : w.members i = none)
      (hinitial : host.visibleBlobs = host.delivery.visibleBlobs) :
      Step w { w with members := Function.update w.members i (some ⟨host, []⟩) }
  | act {w : World} {i : Nat} {m m' : Member} (hm : w.members i = some m) (hact : m.Act w.store.log m') :
      Step w { w with members := Function.update w.members i (some m') }
  | append {w : World} {i : Nat} {m : Member} {eventId : EventId} {recordedAtMs : Int} {proposal : Proposal}
      {sequence : Nat} {store' : Store} (hm : w.members i = some m)
      (h : m.host.append w.store eventId recordedAtMs proposal = .ok (sequence, store')) :
      Step w { w with store := store' }
  | commit {w : World} {i : Nat} {m : Member} {failed : String} {draws : Draws} {cause : Option EventId}
      {phase : CommitPhase} {checkpoint : Nat} {outcome : GuestOutcome} {answer : Outcome} {store' : Store}
      (hm : w.members i = some m)
      (h : m.host.transact failed w.store draws cause phase checkpoint outcome = .ok (answer, store')) :
      Step w { w with store := store' }
  | others {w : World} {store' : Store} (h : Store.Step w.store store')
      (hothers : ∀ e ∈ store'.log.events, e ∈ w.store.log.events ∨ e.request.actor.kind ≠ .component) :
      Step w { w with store := store' }

abbrev Reachable : World → Prop := Relation.ReflTransGen Step empty

def Granted (w : World) (m : Member) (blob : BlobRef) : Prop :=
  blob ∈ m.host.delivery.visibleBlobs ∨ blob ∈ m.stored ∨ m.Shown w.store.log blob

/-- The event was proposed by an instance that could see every blob it names. -/
def Vouched (w : World) (e : CommittedEvent) : Prop :=
  ∃ i m, w.members i = some m ∧ e.request.actor = ⟨.component, m.host.delivery.instanceId⟩ ∧
    e.request.streamId = m.host.delivery.agentId ∧
    ∀ blob ∈ payloadBlobs e.request.payload, isValid blob = true →
      ∃ shown ∈ m.host.visibleBlobs, sameBlobContent blob shown = true

/-- Content an agent was given: some instance of it started with it or stored it, or an event
that no plugin proposed names it on the agent's stream. -/
def Given (w : World) (agentId : String) (blob : BlobRef) : Prop :=
  ∃ origin, sameBlobContent blob origin = true ∧
    ((∃ i m, w.members i = some m ∧ m.host.delivery.agentId = agentId ∧
        (origin ∈ m.host.delivery.visibleBlobs ∨ origin ∈ m.stored)) ∨
      ∃ e ∈ w.store.log.stream agentId, e.request.actor.kind ≠ .component ∧
        origin ∈ payloadBlobs e.request.payload)

end World

section Member

variable {log : Log} {m m' : Member}

variable {host : HostState} {blob : BlobRef}

theorem mem_revealEventBlobs {events : List CommittedEvent} (h : blob ∈ (host.revealEventBlobs events).visibleBlobs) :
    blob ∈ host.visibleBlobs ∨ (isValid blob = true ∧
      ∃ e ∈ events, host.sees e = true ∧ blob ∈ payloadBlobs e.request.payload) := by
  rcases mem_append.mp h with hold | hnew
  · exact .inl hold
  · obtain ⟨hfound, hvalid⟩ := mem_filter.mp hnew
    obtain ⟨e, he, hblob⟩ := mem_flatMap.mp hfound
    obtain ⟨hmem, hsees⟩ := mem_filter.mp he
    exact .inr ⟨hvalid, e, hmem, hsees, hblob⟩

theorem reveal_shown {events : List CommittedEvent} (hevents : ∀ e ∈ events, e ∈ log.stream m.host.delivery.agentId)
    (h : blob ∈ (m.host.revealEventBlobs events).visibleBlobs) : blob ∈ m.host.visibleBlobs ∨ m.Shown log blob := by
  refine (mem_revealEventBlobs h).imp id ?_
  rintro ⟨hvalid, e, he, hsees, hblob⟩
  exact ⟨hvalid, e, hevents e he, hsees, hblob⟩

theorem get_shown {eventId : EventId} (h : blob ∈ (m.host.get log eventId).2.visibleBlobs) :
    blob ∈ m.host.visibleBlobs ∨ m.Shown log blob := by
  unfold HostState.get at h
  split at h
  · exact .inl h
  · rename_i event hevent
    obtain ⟨hget, hfilter⟩ := Option.filter_eq_some_iff.mp hevent
    simp only [Bool.and_eq_true, decide_eq_true_eq] at hfilter
    refine reveal_shown (fun e he => ?_) h
    rw [mem_singleton.mp he]
    exact Ledger.mem_ofStream.mpr ⟨mem_of_find?_eq_some hget, hfilter.1⟩

theorem query_shown {search : Log.Search} {filter : Filter} {limit : Nat}
    (h : blob ∈ (m.host.query log search filter limit).2.visibleBlobs) :
    blob ∈ m.host.visibleBlobs ∨ m.Shown log blob := by
  unfold HostState.query at h
  split at h
  · exact .inl h
  split at h
  · exact .inl h
  · refine reveal_shown (fun e he => ?_) h
    exact (Log.mem_query (mem_filter.mp (mem_of_mem_take he)).1).1

/-- A store of a blob, with its answer, shows the instance nothing but that blob. -/
def HostState.Stores (host : HostState) (answer : Except HostError BlobRef × HostState) : Prop :=
  answer.2.delivery = host.delivery ∧
    ∀ blob ∈ answer.2.visibleBlobs, blob ∈ host.visibleBlobs ∨ answer.1 = .ok blob

theorem finish_stores (host : HostState) (handle : String) (stored : Except BlobError BlobRef) :
    host.Stores (host.finish handle stored) := by
  unfold HostState.finish
  split
  · split
    · exact ⟨rfl, fun _ => .inl⟩
    · exact ⟨rfl, fun blob hblob => (mem_append.mp hblob).imp_right fun hnew => by rw [mem_singleton.mp hnew]⟩
  · exact ⟨rfl, fun _ => .inl⟩

theorem put_stores (host : HostState) (size : Nat) (stored : Except BlobError BlobRef) :
    host.Stores (host.put size stored) := by
  unfold HostState.put
  split
  · exact ⟨rfl, fun _ => .inl⟩
  split
  · exact ⟨rfl, fun _ => .inl⟩
  · exact ⟨rfl, fun blob hblob => (mem_append.mp hblob).imp_right fun hnew => by rw [mem_singleton.mp hnew]⟩

theorem get_delivery (host : HostState) (log : Log) (eventId : EventId) :
    (host.get log eventId).2.delivery = host.delivery := by
  unfold HostState.get
  split <;> rfl

theorem query_delivery (host : HostState) (log : Log) (search : Log.Search) (filter : Filter) (limit : Nat) :
    (host.query log search filter limit).2.delivery = host.delivery := by
  unfold HostState.query
  split
  · rfl
  · split <;> rfl

theorem openWrite_state (host : HostState) (upload : Except BlobError String) :
    (host.openWrite upload).2.delivery = host.delivery ∧
      (host.openWrite upload).2.visibleBlobs = host.visibleBlobs := by
  unfold HostState.openWrite
  split <;> exact ⟨rfl, rfl⟩

/-- All an instance's own step does: its provenance stays, and what it newly sees was shown
to it, stored by it, or granted at its start. -/
theorem Member.Act.effect (h : m.Act log m') :
    m'.host.delivery = m.host.delivery ∧ m.stored ⊆ m'.stored ∧
    ∀ blob ∈ m'.host.visibleBlobs, blob ∈ m.host.visibleBlobs ∨ blob ∈ m.host.delivery.visibleBlobs ∨
      blob ∈ m'.stored ∨ m.Shown log blob := by
  have hown : ∀ {host' blob}, m.host.Stores (.ok blob, host') → host'.delivery = m.host.delivery ∧
      m.stored ⊆ blob :: m.stored ∧ ∀ b ∈ host'.visibleBlobs, b ∈ m.host.visibleBlobs ∨
        b ∈ m.host.delivery.visibleBlobs ∨ b ∈ blob :: m.stored ∨ m.Shown log b := by
    rintro host' blob ⟨hdelivery, hvisible⟩
    refine ⟨hdelivery, subset_cons_self _ _, fun b hb => (hvisible b hb).imp id fun h => ?_⟩
    cases h
    exact .inr (.inl mem_cons_self)
  cases h with
  | get eventId =>
    exact ⟨get_delivery .., Subset.refl _, fun blob hb => (get_shown hb).imp id fun h => .inr (.inr h)⟩
  | query search filter limit =>
    exact ⟨query_delivery .., Subset.refl _, fun blob hb => (query_shown hb).imp id fun h => .inr (.inr h)⟩
  | deliver batch hbatch =>
    exact ⟨rfl, Subset.refl _, fun blob hb => (reveal_shown hbatch hb).imp id fun h => .inr (.inr h)⟩
  | openWrite upload =>
    obtain ⟨hdelivery, hvisible⟩ := openWrite_state m.host upload
    exact ⟨hdelivery, Subset.refl _, fun blob hb => .inl (hvisible ▸ hb)⟩
  | finish h => exact hown (h ▸ finish_stores ..)
  | finishFailed h =>
    obtain ⟨hdelivery, hvisible⟩ : m.host.Stores _ := h ▸ finish_stores ..
    exact ⟨hdelivery, Subset.refl _, fun blob hb => .inl ((hvisible blob hb).resolve_right nofun)⟩
  | put h => exact hown (h ▸ put_stores ..)
  | endCall replaying emitCall => exact ⟨rfl, Subset.refl _, fun _ => .inl⟩
  | restart => exact ⟨rfl, Subset.refl _, fun _ hb => .inr (.inl hb)⟩

end Member

theorem sameBlobContent_iff {left right : BlobRef} : sameBlobContent left right = true ↔
    left.algorithm = right.algorithm ∧ left.digest = right.digest ∧ left.size = right.size := by
  simp only [sameBlobContent, Bool.and_eq_true, decide_eq_true_eq, and_assoc]

theorem sameBlobContent_refl (blob : BlobRef) : sameBlobContent blob blob = true :=
  sameBlobContent_iff.mpr ⟨rfl, rfl, rfl⟩

theorem sameBlobContent_trans {left middle right : BlobRef} (h₁ : sameBlobContent left middle = true)
    (h₂ : sameBlobContent middle right = true) : sameBlobContent left right = true := by
  rw [sameBlobContent_iff] at h₁ h₂ ⊢
  exact ⟨h₁.1.trans h₂.1, h₁.2.1.trans h₂.2.1, h₁.2.2.trans h₂.2.2⟩

namespace World

variable {w w' : World}

variable {e : CommittedEvent} {blob : BlobRef} {m : Member} {i : Nat}

/-- Nothing an agent was given is ever taken from the record. -/
structure Grows (w w' : World) : Prop where
  events : ∀ e ∈ w.store.log.events, e ∈ w'.store.log.events
  members : ∀ i m, w.members i = some m → ∃ m', w'.members i = some m' ∧
    m'.host.delivery = m.host.delivery ∧ m.stored ⊆ m'.stored

theorem Grows.stream (h : Grows w w') {s : StreamId} (he : e ∈ w.store.log.stream s) : e ∈ w'.store.log.stream s := by
  obtain ⟨hmem, hs⟩ := Ledger.mem_ofStream.mp he
  exact Ledger.mem_ofStream.mpr ⟨h.events e hmem, hs⟩

theorem Given.mono (h : Grows w w') {agentId : String} (hgiven : Given w agentId blob) : Given w' agentId blob := by
  obtain ⟨origin, hsame, ⟨i, m, hm, hagent, horigin⟩ | ⟨e, he, hkind, hblob⟩⟩ := hgiven
  · obtain ⟨m', hm', hdelivery, hstored⟩ := h.members i m hm
    refine ⟨origin, hsame, .inl ⟨i, m', hm', hdelivery ▸ hagent, ?_⟩⟩
    exact horigin.imp (fun hin => hdelivery ▸ hin) fun hin => hstored hin
  · exact ⟨origin, hsame, .inr ⟨e, h.stream he, hkind, hblob⟩⟩

theorem Granted.mono (h : Grows w w') {m' : Member} (hdelivery : m'.host.delivery = m.host.delivery)
    (hstored : m.stored ⊆ m'.stored) (hgranted : Granted w m blob) : Granted w' m' blob := by
  rcases hgranted with hinitial | hin | ⟨hvalid, e, he, hsees, hblob⟩
  · exact .inl (hdelivery ▸ hinitial)
  · exact .inr (.inl (hstored hin))
  · refine .inr (.inr ⟨hvalid, e, hdelivery ▸ h.stream he, ?_, hblob⟩)
    rwa [HostState.sees, hdelivery]

theorem Step.grows (h : Step w w') : Grows w w' := by
  have hstay : ∀ {store}, w.store.log.events <+: store.log.events → Grows w { w with store := store } :=
    fun h => ⟨fun e he => h.subset he, fun i m hm => ⟨m, hm, rfl, Subset.refl _⟩⟩
  cases h with
  | join i host hfree hinitial =>
    refine ⟨fun _ he => he, fun j m hm => ⟨m, ?_, rfl, Subset.refl _⟩⟩
    have hne : j ≠ i := by
      rintro rfl
      rw [hfree] at hm
      cases hm
    exact (update_of_ne hne ..).trans hm
  | @act i m m' hm hact =>
    obtain ⟨hdelivery, hstored, -⟩ := hact.effect
    refine ⟨fun _ he => he, fun j n hn => ?_⟩
    by_cases hj : j = i
    · subst hj
      rw [hm] at hn
      cases hn
      exact ⟨m', update_self .., hdelivery, hstored⟩
    · exact ⟨n, (update_of_ne hj ..).trans hn, rfl, Subset.refl _⟩
  | append hm h =>
    obtain ⟨_, _, -, -, hstep⟩ := HostState.append_ok _ h
    exact hstay (Store.Step.append hstep).extends
  | commit hm h =>
    obtain ⟨commit, receipt, hcommit, -⟩ := HostState.transact_ok _ h
    exact hstay (Store.Step.commit hcommit).extends
  | others h hothers => exact hstay h.extends

theorem vouched_of_request (hm : w.members i = some m) {proposal : Proposal} {cause : Option EventId}
    {key : Option String} {request : AppendRequest} (h : m.host.appendRequest proposal cause key = .ok request)
    (he : e.request = request) : w.Vouched e := by
  have hstamped := m.host.appendRequest_ok h
  refine ⟨i, m, hm, he ▸ hstamped.actor, he ▸ hstamped.streamId, fun blob hblob hvalid => ?_⟩
  rw [he] at hblob
  exact HostState.appendRequest_refs h hblob hvalid

theorem Step.vouched (h : Step w w') (he : e ∈ w'.store.log.events) (hnew : e ∉ w.store.log.events)
    (hkind : e.request.actor.kind = .component) : w.Vouched e := by
  cases h with
  | join i host hfree hinitial | act hm hact => exact absurd he hnew
  | append hm h =>
    obtain ⟨request, event, hrequest, -, hstep⟩ := HostState.append_ok _ h
    exact vouched_of_request hm hrequest ((Store.append_new hstep he).resolve_left hnew)
  | commit hm h =>
    obtain ⟨commit, receipt, hcommit, hrequests, -⟩ := HostState.transact_ok _ h
    have hrequest := (Store.commit_new hcommit he).resolve_left hnew
    obtain ⟨proposal, -, key, hkey⟩ := HostState.mem_requests _ hrequests hrequest
    exact vouched_of_request hm hkey rfl
  | others h hothers => exact absurd hkind ((hothers e he).resolve_left hnew)

theorem Step.member (h : Step w w') {m' : Member} (hm' : w'.members i = some m') :
    w.members i = some m' ∨ m'.host.visibleBlobs = m'.host.delivery.visibleBlobs ∨
      (∃ m, w.members i = some m ∧ m.Act w.store.log m') := by
  cases h with
  | join j host hfree hinitial =>
    by_cases hi : i = j
    · subst hi
      cases (update_self ..).symm.trans hm'
      exact .inr (.inl hinitial)
    · exact .inl ((update_of_ne hi ..).symm.trans hm')
  | @act j m n hm hact =>
    by_cases hi : i = j
    · subst hi
      cases (update_self ..).symm.trans hm'
      exact .inr (.inr ⟨m, hm, hact⟩)
    · exact .inl ((update_of_ne hi ..).symm.trans hm')
  | _ => exact .inl hm'

/-- What holds in every state: instances see what they were granted, and what their events
name was given to their agent. -/
structure Confined (w : World) : Prop where
  granted : ∀ i m, w.members i = some m → ∀ blob ∈ m.host.visibleBlobs, w.Granted m blob
  events : ∀ e ∈ w.store.log.events, e.request.actor.kind = .component →
    ∀ blob ∈ payloadBlobs e.request.payload, isValid blob = true → w.Given e.request.streamId blob

theorem Confined.given (hw : Confined w) (hm : w.members i = some m) (hblob : blob ∈ m.host.visibleBlobs) :
    w.Given m.host.delivery.agentId blob := by
  have hself := sameBlobContent_refl blob
  rcases hw.granted i m hm blob hblob with hinitial | hstored | ⟨hvalid, e, he, -, hmem⟩
  · exact ⟨blob, hself, .inl ⟨i, m, hm, rfl, .inl hinitial⟩⟩
  · exact ⟨blob, hself, .inl ⟨i, m, hm, rfl, .inr hstored⟩⟩
  · obtain ⟨hlog, hstream⟩ := Ledger.mem_ofStream.mp he
    by_cases hkind : e.request.actor.kind = .component
    · exact hstream ▸ hw.events e hlog hkind blob hmem hvalid
    · exact ⟨blob, hself, .inr ⟨e, he, hkind, hmem⟩⟩

theorem Confined.step (h : Step w w') (hw : Confined w) : Confined w' := by
  have hgrows := h.grows
  refine ⟨fun i m' hm' blob hblob => ?_, fun e he hkind blob hblob hvalid => ?_⟩
  · rcases h.member hm' with hsame | hinitial | ⟨m, hm, hact⟩
    · exact (hw.granted i m' hsame blob hblob).mono hgrows rfl (Subset.refl _)
    · exact .inl (hinitial ▸ hblob)
    · obtain ⟨hdelivery, hstored, hvisible⟩ := hact.effect
      rcases hvisible blob hblob with hold | hinitial | hown | hshown
      · exact (hw.granted i m hm blob hold).mono hgrows hdelivery hstored
      · exact .inl (hdelivery ▸ hinitial)
      · exact .inr (.inl hown)
      · exact Granted.mono hgrows hdelivery hstored (.inr (.inr hshown))
  · by_cases hold : e ∈ w.store.log.events
    · exact (hw.events e hold hkind blob hblob hvalid).mono hgrows
    · obtain ⟨i, m, hm, -, hstream, hshown⟩ := h.vouched he hold hkind
      obtain ⟨shown, hvisible, hsame⟩ := hshown blob hblob hvalid
      obtain ⟨origin, hsame', horigin⟩ := (hw.given hm hvisible).mono hgrows
      exact ⟨origin, sameBlobContent_trans hsame hsame', hstream ▸ horigin⟩

theorem Reachable.confined (h : Reachable w) : Confined w := by
  induction h with
  | refl =>
    refine ⟨fun i m hm => ?_, fun e he => ?_⟩
    · cases hm
    · cases he
  | tail _ hstep ih => exact ih.step hstep

end World

theorem ensureVisibleBlob_ok (h : host.ensureVisibleBlob blob = .ok ()) : blob ∈ host.visibleBlobs := by
  unfold HostState.ensureVisibleBlob at h
  split at h
  · cases h
  split at h
  · rename_i hcontains
    exact contains_iff_mem.mp hcontains
  · cases h

theorem read_visible {α : Type} {content : Except BlobError α} {chunk : α} (h : host.read blob content = .ok chunk) :
    blob ∈ host.visibleBlobs := by
  unfold HostState.read at h
  split at h
  · cases h
  · rename_i hvisible
    exact ensureVisibleBlob_ok hvisible

theorem resolveVisible_visible {digest : String} (h : host.resolveVisible digest = .ok blob) :
    blob ∈ host.visibleBlobs := by
  unfold HostState.resolveVisible at h
  split at h
  · cases h
  split at h
  · cases h
  rename_i first others hmatches
  split at h
  · cases h
  · cases h
    exact (mem_filter.mp (hmatches ▸ mem_cons_self)).1

/-- Blob confinement. In every state of every run an instance sees only its initial set, the
blobs it stored and those named by events it sees on its agent's stream; a plugin's event
enters the log only if its proposer saw every blob it names; and content that is read, or
resolved from a digest, was given to the agent other than by a plugin naming it. The blobs named by
a payload are those whose reference occurs in it. -/
theorem blobs_confined {w : World} (h : w.Reachable) :
    (∀ i m, w.members i = some m → ∀ blob ∈ m.host.visibleBlobs, w.Granted m blob) ∧
    (∀ w', World.Step w w' → ∀ e ∈ w'.store.log.events, e ∉ w.store.log.events →
      e.request.actor.kind = .component → w.Vouched e) ∧
    (∀ i m blob, w.members i = some m → blob ∈ m.host.visibleBlobs → w.Given m.host.delivery.agentId blob) ∧
    (∀ i m blob (content : Except BlobError Bytes) chunk, w.members i = some m →
      m.host.read blob content = .ok chunk → blob ∈ m.host.visibleBlobs) ∧
    (∀ i m digest blob, w.members i = some m → m.host.resolveVisible digest = .ok blob →
      blob ∈ m.host.visibleBlobs) ∧
    ∀ blob value, blob ∈ collectBlobRefs value ↔ Occurs blob value :=
  ⟨h.confined.granted, fun _ hstep _ he hnew hkind => hstep.vouched he hnew hkind,
    fun _ _ _ hm hblob => h.confined.given hm hblob, fun _ _ _ _ _ _ hread => read_visible hread,
    fun _ _ _ _ _ hresolve => resolveVisible_visible hresolve, fun _ _ => mem_collectBlobRefs⟩

def camera : HostState := .bare "camera" "personal" ["capability.output"]

def photo : BlobRef :=
  ⟨sha256Algorithm, "0000000000000000000000000000000000000000000000000000000000000001", 3, "image/png"⟩

def holder : HostState := { camera with visibleBlobs := [photo] }

def viewer : HostState := .bare "viewer" "personal" []

def photoProposal : Proposal where
  eventType := "capability.output"
  payloadSchema := "test/1"
  payload := .canonicalJson (.json (.object [("images", .array [.object [("algorithm", .string photo.algorithm),
    ("digest", .string photo.digest), ("mediaType", .string photo.mediaType), ("size", Json.ofNat photo.size)]])]))
  idempotencyKey := some "photo"
  causationId := none

theorem put_photo : camera.put 3 (.ok photo) = (.ok photo, holder) := rfl

/-- The camera has stored a photo, and a viewer has joined. -/
def withPhoto : World where
  store := Store.empty
  members := update (update (update World.empty.members 0 (some ⟨camera, []⟩)) 0 (some ⟨holder, [photo]⟩)) 1
    (some ⟨viewer, []⟩)

theorem withPhoto_reachable : withPhoto.Reachable :=
  .tail (.tail (.tail .refl (.join 0 camera rfl rfl)) (.act (m := ⟨camera, []⟩) rfl (.put put_photo)))
    (.join 1 viewer rfl rfl)

/-- The event with the photo is vouched for by the camera, and shows the photo to the viewer. -/
theorem blobs_confined_photo : ∃ (store : Store) (m : Member) (w : World), World.Step withPhoto ⟨store, withPhoto.members⟩ ∧
    w.Reachable ∧ w.store = store ∧ w.members 1 = some m ∧ photo ∈ m.host.visibleBlobs ∧ w.Granted m photo ∧
    w.Given "personal" photo ∧ ∀ e ∈ store.log.events, withPhoto.Vouched e := by
  have hstore : ∃ store, holder.append Store.empty "event-1" 0 photoProposal = .ok (1, store) ∧
      store.log.events = store.log.stream "personal" ∧ (∀ e ∈ store.log.events, e.request.actor.kind = .component) ∧
      photo ∈ (viewer.revealEventBlobs store.log.events).visibleBlobs := ⟨_, rfl, rfl, by decide +kernel, by decide +kernel⟩
  obtain ⟨store, hstore, hstream, hkind, hphoto⟩ := hstore
  have hstep : World.Step withPhoto ⟨store, withPhoto.members⟩ := .append (i := 0) rfl hstore
  have hseen : World.Reachable _ := (withPhoto_reachable.tail hstep).tail (.act (m := ⟨viewer, []⟩) (i := 1) rfl
    (.deliver store.log.events fun e he => hstream ▸ he))
  obtain ⟨hgranted, -, hgiven, -⟩ := blobs_confined hseen
  refine ⟨store, _, _, hstep, hseen, rfl, rfl, hphoto, hgranted 1 _ rfl photo hphoto,
    hgiven 1 ⟨viewer.revealEventBlobs store.log.events, []⟩ photo rfl hphoto, fun e he => ?_⟩
  exact (blobs_confined withPhoto_reachable).2.1 _ hstep e he not_mem_nil (hkind e he)

end Pluribus.Runtime
