import Pluribus.Runtime.Runner

namespace Pluribus.Runtime

open Lib Pluribus.Core Storage List

theorem HostState.transact_cursor {host : HostState} {failed : String} {store store' : Store} {draws : Draws}
    {cause : Option EventId} {phase : CommitPhase} {checkpoint : Nat} {outcome : GuestOutcome} {answer : Outcome}
    (h : host.transact failed store draws cause phase checkpoint outcome = .ok (answer, store')) :
    store'.cursor host.cursor = answer.checkpoint ∧
    answer.checkpoint = outcome.checkpoint.getD (store.cursor host.cursor) ∧
    store.cursor host.cursor ≤ answer.checkpoint := by
  obtain ⟨commit, receipt, hcommit, -, hcursor, hexpected, hcheckpoint, rfl⟩ := HostState.transact_ok _ h
  obtain ⟨hvalid, hstored, -, -, -, hafter, hreceipt, -⟩ := Store.commit_ok hcommit
  rw [hcursor] at hstored hafter hreceipt
  have hvalue : receipt.checkpoint = outcome.checkpoint.getD (store.cursor host.cursor) := by
    rw [hreceipt, hafter, Function.update_self, hcheckpoint]
  refine ⟨hreceipt.symm, hvalue, ?_⟩
  rw [hvalue]
  cases hc : outcome.checkpoint with
  | none => exact Nat.le_refl _
  | some c =>
    rw [hstored]
    exact (validate_ok hvalid).monotone c (hcheckpoint.trans hc)

namespace Runner

variable {r r' : Runner}

variable {batch : Batch} {id : Nat} {actor : Actor}

/-- A successful reply: the cursor went to a place between the first and the last event of the
delivery it answers. -/
structure Advanced (r r' : Runner) (id : Nat) (answer : Outcome) : Prop where
  batch : ∃ batch : Batch, r.slot.pending = some (batch, id) ∧
    (batch.val.head batch.property).sequence ≤ answer.checkpoint ∧
    answer.checkpoint ≤ (batch.val.getLast batch.property).sequence
  stored : r'.store.cursor r.host.cursor = answer.checkpoint
  forward : r.store.cursor r.host.cursor ≤ answer.checkpoint

/-- Everything a step can do to the store, the checkpoint and the deliveries. -/
inductive Effect (r r' : Runner) : Actor → Prop
  | moved {actor : Actor} (hstore : r'.store = r.store) (hcheckpoint : r'.checkpoint = r.checkpoint)
      (hslot : r'.slot = r.slot ∨ (r.slot.Move r'.slot ∧
        ∀ id answer, (id, .ok answer) ∈ r'.slot.replies → (id, .ok answer) ∈ r.slot.replies)) : Effect r r' actor
  | wrote {actor : Actor} (hfree : r.slot.pending = none) (hslot : r'.slot = r.slot)
      (hcheckpoint : r'.checkpoint = r'.store.cursor r.host.cursor) : Effect r r' actor
  | answered {actor : Actor} {id : Nat} {answer : Outcome} (hslot : r'.slot = r.slot.answer id (.ok answer))
      (hcheckpoint : r'.checkpoint = answer.checkpoint) (hadvanced : Advanced r r' id answer) : Effect r r' actor
  | dropped {actor : Actor} (hslot : r'.slot = r.slot.abandon)
      (hcheckpoint : r'.checkpoint = r'.store.cursor r.host.cursor) : Effect r r' actor
  | others (hslot : r'.slot = r.slot) (hcheckpoint : r'.checkpoint = r.checkpoint)
      (hcursor : r'.store.cursor r.host.cursor = r.store.cursor r.host.cursor) : Effect r r' .others

structure Coherent (r : Runner) : Prop where
  checkpoint : r.checkpoint = r.store.cursor r.host.cursor
  slot : r.slot.WellFormed

theorem commitCause_pending {outcome : GuestOutcome} {cause : Option EventId}
    (hpending : r.slot.pending = some (batch, id)) (h : r.commitCause outcome = .ok cause) :
    ∃ c, outcome.checkpoint = some c ∧ (batch.val.head batch.property).sequence ≤ c ∧
      c ≤ (batch.val.getLast batch.property).sequence := by
  unfold commitCause at h
  split at h
  · cases h
  simp only [hpending, head?_eq_some_head batch.property, getLast?_eq_some_getLast batch.property] at h
  split at h
  · rename_i hrange
    cases hc : outcome.checkpoint with
    | none =>
      rw [hc] at hrange
      cases hrange
    | some c =>
      simp only [hc, Option.map_some, Option.getD_some, Option.any_some, Bool.and_eq_true, decide_eq_true_eq]
        at hrange
      exact ⟨c, rfl, hrange⟩
  · cases h

theorem transaction_ok {draws : Draws} {outcome : GuestOutcome} {answer : Outcome} {store : Store}
    (h : r.transaction draws outcome = .ok (answer, store)) :
    (∃ cause, r.commitCause outcome = .ok cause) ∧ store.cursor r.host.cursor = answer.checkpoint ∧
    answer.checkpoint = outcome.checkpoint.getD (r.store.cursor r.host.cursor) ∧
    r.store.cursor r.host.cursor ≤ answer.checkpoint := by
  unfold transaction at h
  split at h
  · cases h
  · rename_i cause hcause
    exact ⟨⟨cause, hcause⟩, HostState.transact_cursor h⟩

theorem ready_eq (events : List Proposal) (mutations : List StateMutation) :
    ∃ startup started, (r.ready events mutations).2 = { r with startup := startup, started := started } := by
  unfold ready
  split <;> exact ⟨_, _, rfl⟩

theorem next_eq : ∃ stopping waiting, r.next.2 = { r with stopping := stopping, waiting := waiting } := by
  unfold next
  split
  · exact ⟨_, _, rfl⟩
  split
  · exact ⟨_, _, rfl⟩
  split <;> exact ⟨_, _, rfl⟩

/-- A commit is only begun with no delivery pending or one that is not cancelled. -/
theorem commit_eq (outcome : GuestOutcome) : (r.commit outcome).2 = r ∨
    (r.slot.pending = none ∨ r.cancelled = false) ∧ (r.commit outcome).2 = { r with committing := some outcome } := by
  unfold commit
  split
  · exact .inl rfl
  split
  · exact .inl rfl
  rename_i hopen
  split
  · exact .inl rfl
  refine .inr ⟨?_, rfl⟩
  cases hpending : r.slot.pending with
  | none => exact .inl rfl
  | some delivery => exact .inr (by simpa [hpending, interrupted] using hopen)

theorem hostCommit_kept (failed : String) (draws : Draws) (checkpoint : Nat) (events : List AppendRequest) :
    (r.hostCommit failed draws checkpoint events).2.slot = r.slot ∧
    (r.hostCommit failed draws checkpoint events).2.host = r.host := by
  unfold hostCommit
  split <;> exact ⟨rfl, rfl⟩

theorem coreCommit_kept (draws : Draws) (cause : Option EventId) (phase : CommitPhase) (outcome : GuestOutcome) :
    (r.coreCommit draws cause phase outcome).2.slot = r.slot ∧
    (r.coreCommit draws cause phase outcome).2.host = r.host := by
  unfold coreCommit
  split
  · exact ⟨rfl, rfl⟩
  split <;> exact ⟨rfl, rfl⟩

theorem finishCommit_effect (draws : Draws) (outcome : GuestOutcome) (actor : Actor) :
    Effect r (r.finishCommit draws outcome).2 actor := by
  unfold finishCommit
  split
  · exact .moved rfl rfl (.inl rfl)
  · rename_i answer store hcommit
    obtain ⟨⟨cause, hcause⟩, hcursor, hvalue, hforward⟩ := transaction_ok hcommit
    unfold publish
    split
    · rename_i batch id hpending
      obtain ⟨c, hc, hlow, hhigh⟩ := commitCause_pending hpending hcause
      have hanswer : answer.checkpoint = c := by rw [hvalue, hc, Option.getD_some]
      exact .answered rfl rfl ⟨⟨batch, hpending, hanswer ▸ hlow, hanswer ▸ hhigh⟩, hcursor, hforward⟩
    · rename_i hpending
      split <;> exact .wrote hpending rfl hcursor.symm

theorem answer_error_effect (hpending : r.slot.pending = some (batch, id)) (hstore : r'.store = r.store)
    (hcheckpoint : r'.checkpoint = r.checkpoint) (hslot : ∃ error, r'.slot = r.slot.answer id (.error error))
    (actor : Actor) : Effect r r' actor := by
  obtain ⟨error, hslot⟩ := hslot
  refine .moved hstore hcheckpoint (.inr ⟨hslot ▸ .answer _ hpending, fun other answer hmem => ?_⟩)
  rw [hslot] at hmem
  rcases mem_append.mp hmem with hold | hnew
  · exact hold
  · cases mem_singleton.mp hnew

theorem reject_effect (error : GuestError) (actor : Actor) : Effect r (r.reject error).2 actor := by
  unfold reject
  split
  · exact .moved rfl rfl (.inl rfl)
  · rename_i batch id hpending
    apply answer_error_effect hpending
    · rfl
    · rfl
    · exact ⟨_, rfl⟩

theorem finishTask_effect (result : Except RuntimeError Unit) (actor : Actor) :
    Effect r (r.finishTask result) actor := by
  cases hpending : r.slot.pending with
  | none => exact .moved rfl rfl (.inl (by simp only [finishTask, hpending]))
  | some delivery =>
    apply answer_error_effect hpending
    · rfl
    · rfl
    · exact ⟨_, by simp only [finishTask, hpending]; rfl⟩

theorem hostCommit_effect (hfree : r.slot.pending = none) (failed : String) (draws : Draws) (checkpoint : Nat)
    (events : List AppendRequest) (actor : Actor) :
    Effect r (r.hostCommit failed draws checkpoint events).2 actor := by
  unfold hostCommit
  split
  · exact .moved rfl rfl (.inl rfl)
  · rename_i receipt store hcommit
    obtain ⟨-, -, -, -, -, -, hreceipt, -⟩ := Store.commit_ok hcommit
    exact .wrote hfree rfl hreceipt

theorem coreCommit_effect (hfree : r.slot.pending = none) (draws : Draws) (cause : Option EventId)
    (phase : CommitPhase) (outcome : GuestOutcome) (actor : Actor) :
    Effect r (r.coreCommit draws cause phase outcome).2 actor := by
  unfold coreCommit
  split
  · exact .moved rfl rfl (.inl rfl)
  split
  · exact .moved rfl rfl (.inl rfl)
  · rename_i answer store hcommit
    exact .wrote hfree rfl (HostState.transact_cursor hcommit).1.symm

theorem Effect.congr {r'' : Runner} (h : Effect r r' actor) (hstore : r''.store = r'.store)
    (hcheckpoint : r''.checkpoint = r'.checkpoint) (hslot : r''.slot = r'.slot) : Effect r r'' actor := by
  cases h with
  | moved h₁ h₂ h₃ => exact .moved (hstore.trans h₁) (hcheckpoint.trans h₂) (hslot ▸ h₃)
  | wrote h₁ h₂ h₃ => exact .wrote h₁ (hslot.trans h₂) (by rw [hcheckpoint, hstore, h₃])
  | answered h₁ h₂ h₃ =>
    exact .answered (hslot.trans h₁) (hcheckpoint.trans h₂) ⟨h₃.batch, hstore ▸ h₃.stored, h₃.forward⟩
  | dropped h₁ h₂ => exact .dropped (hslot.trans h₁) (by rw [hcheckpoint, hstore, h₂])
  | others h₁ h₂ h₃ => exact .others (hslot.trans h₁) (hcheckpoint.trans h₂) (hstore ▸ h₃)

theorem Coherent.free (h : r.Coherent) (hcalling : r.slot.calling = none) : r.slot.pending = none := by
  cases hp : r.slot.pending with
  | none => rfl
  | some p => exact absurd ((h.slot.pending p.1 p.2 hp).1.symm.trans hcalling) nofun

theorem Step.effect (h : Step actor r r') (hr : r.Coherent) : Effect r r' actor := by
  cases h with
  | ready _ events mutations =>
    obtain ⟨_, _, heq⟩ := r.ready_eq events mutations
    exact heq ▸ .moved rfl rfl (.inl rfl)
  | next =>
    obtain ⟨_, _, heq⟩ := r.next_eq
    exact heq ▸ .moved rfl rfl (.inl rfl)
  | receive _ _ hinbox => exact .moved rfl rfl (.inr ⟨.take hinbox, fun _ _ h => h⟩)
  | halt | forget | begin | replay | start | cancel | shutdown | reset | stop | join => exact .moved rfl rfl (.inl rfl)
  | commit _ outcome =>
    rcases r.commit_eq outcome with heq | ⟨-, heq⟩ <;> rw [heq] <;> exact .moved rfl rfl (.inl rfl)
  | finishCommit => exact finishCommit_effect ..
  | reject => exact reject_effect ..
  | finishTask => exact finishTask_effect ..
  | init _ hcalling | lastCommit _ hcalling => exact (coreCommit_effect (hr.free hcalling) ..).congr rfl rfl rfl
  | rebuild _ hcalling => exact coreCommit_effect (hr.free hcalling) ..
  | deliver _ hcalling batch => exact .moved rfl rfl (.inr ⟨.post batch hcalling, fun _ _ h => h⟩)
  | collect hcalling hreplied => exact .moved rfl rfl (.inr ⟨.collect hcalling hreplied, fun _ _ h => h⟩)
  | skip hcalling | skipWithEvents hcalling => exact hostCommit_effect (hr.free hcalling) ..
  | drop | dropCommitting => exact .dropped rfl rfl
  | others h hcursor => exact .others rfl rfl hcursor

theorem Step.delivery (h : Step actor r r') : r'.host.delivery = r.host.delivery := by
  cases h with
  | ready _ events mutations =>
    obtain ⟨_, _, heq⟩ := r.ready_eq events mutations
    rw [heq]
  | next =>
    obtain ⟨_, _, heq⟩ := r.next_eq
    rw [heq]
  | commit _ outcome => rcases r.commit_eq outcome with heq | ⟨-, heq⟩ <;> rw [heq]
  | finishCommit => unfold Runner.finishCommit; split <;> rfl
  | reject => unfold Runner.reject; split <;> rfl
  | init | rebuild | lastCommit => exact congrArg HostState.delivery (coreCommit_kept ..).2
  | skip | skipWithEvents => exact congrArg HostState.delivery (hostCommit_kept ..).2
  | receive | halt | forget | finishTask | begin | replay | start | deliver | collect | cancel | shutdown
  | reset | stop | join | drop | dropCommitting | others => rfl

theorem Effect.move (h : Effect r r' actor) : r'.slot = r.slot ∨ r.slot.Move r'.slot := by
  cases h with
  | moved _ _ hslot => exact hslot.imp id (·.1)
  | wrote _ hslot _ | others hslot _ _ => exact .inl hslot
  | answered hslot _ hadvanced =>
    obtain ⟨batch, hpending, -⟩ := hadvanced.batch
    exact .inr (hslot ▸ .answer _ hpending)
  | dropped hslot _ => exact .inr (hslot ▸ .abandon)

theorem Coherent.step (h : Step actor r r') (hr : r.Coherent) : r'.Coherent := by
  have heffect := h.effect hr
  have hcursor : r'.host.cursor = r.host.cursor := by rw [HostState.cursor, h.delivery]; rfl
  refine ⟨?_, ?_⟩
  · rw [hcursor]
    cases heffect with
    | moved hstore hcheckpoint _ => rw [hcheckpoint, hstore, hr.checkpoint]
    | wrote _ _ hcheckpoint | dropped _ hcheckpoint => exact hcheckpoint
    | answered _ hcheckpoint hadvanced => rw [hcheckpoint, hadvanced.stored]
    | others _ hcheckpoint hstored => rw [hcheckpoint, hr.checkpoint, hstored]
  · rcases heffect.move with hsame | hmove
    · exact hsame ▸ hr.slot
    · exact hmove.wellFormed hr.slot

theorem instantiate_coherent (host : HostState) (store : Store) :
    (instantiate host store .fresh).Coherent :=
  ⟨rfl, .fresh⟩

theorem Effect.ok_reply (h : Effect r r' actor) {answer : Outcome} (hreply : (id, .ok answer) ∈ r'.slot.replies) :
    (id, .ok answer) ∈ r.slot.replies ∨ Advanced r r' id answer := by
  cases h with
  | moved _ _ hslot =>
    rcases hslot with hsame | ⟨-, hold⟩
    · exact .inl (hsame ▸ hreply)
    · exact .inl (hold id answer hreply)
  | wrote _ hslot _ | others hslot _ _ => exact .inl (hslot ▸ hreply)
  | answered hslot _ hadvanced =>
    rw [hslot] at hreply
    rcases mem_append.mp hreply with hold | hnew
    · exact .inl hold
    · cases mem_singleton.mp hnew
      exact .inr hadvanced
  | dropped hslot _ => exact .inl (show (id, Except.ok answer) ∈ r.slot.abandon.replies from hslot ▸ hreply)

/-- A step that writes while a delivery is pending is the one that answers it with success,
or the delivery is never answered. -/
theorem Effect.written (h : Effect r r' actor) (hr : r.Coherent) (hactor : actor ≠ .others)
    (hpending : r.slot.pending = some (batch, id)) :
    r'.store = r.store ∨ (∃ answer, (id, .ok answer) ∈ r'.slot.replies) ∨ r'.slot.Lost id := by
  obtain ⟨hcalling, hreplied, -⟩ := hr.slot.pending _ _ hpending
  cases h with
  | moved hstore _ _ => exact .inl hstore
  | wrote hfree _ _ => exact absurd (hfree.symm.trans hpending) nofun
  | @answered _ other answer hslot _ hadvanced =>
    obtain ⟨batch', hpending', -⟩ := hadvanced.batch
    cases hpending.symm.trans hpending'
    refine .inr (.inl ⟨answer, ?_⟩)
    rw [hslot]
    exact mem_append_right _ (mem_singleton_self _)
  | dropped hslot _ =>
    refine .inr (.inr ?_)
    rw [hslot]
    exact ⟨hr.slot.bound id (.inr hcalling), nofun, hreplied⟩
  | others => exact absurd rfl hactor

/-- A step of the instance itself writes while the delivery is pending. -/
def Writes (id : Nat) (t : Transition Runner Actor) : Prop :=
  t.label ≠ .others ∧ (∃ batch, t.before.slot.pending = some (batch, id)) ∧ t.after.store ≠ t.before.store

/-- The delivery has been answered with success or is never answered; no later step undoes this. -/
def Over (r : Runner) (id : Nat) : Prop := (∃ answer, (id, .ok answer) ∈ r.slot.replies) ∨ r.slot.Lost id

theorem Step.over_of_writes (h : Step actor r r') (hr : r.Coherent) (hwrites : Writes id ⟨r, actor, r'⟩) : r'.Over id := by
  obtain ⟨hactor, ⟨batch, hpending⟩, hchanged⟩ := hwrites
  exact ((h.effect hr).written hr hactor hpending).resolve_left hchanged

theorem Step.over (h : Step actor r r') (hr : r.Coherent) (hover : r.Over id) : r'.Over id := by
  rcases (h.effect hr).move with hsame | hmove
  · rwa [Over, hsame]
  · exact hover.imp (fun ⟨answer, hin⟩ => ⟨answer, hmove.replies.subset hin⟩) (hmove.lost hr.slot)

/-- The delivery is cancelled before it is answered, and none of its commits is at work. -/
structure Cancelled (r : Runner) (id : Nat) : Prop where
  cancelled : r.cancelled = true
  calling : r.slot.calling = some id
  unanswered : ¬ r.slot.replied id
  still : r.slot.pending = none ∨ r.committing = none

/-- What stays after a delivery is cancelled: as long as it waits for its reply it can be committed no more. -/
structure Barred (r : Runner) (id : Nat) : Prop where
  issued : id < r.slot.issued
  barred : r.slot.calling = some id → r.cancelled = true ∧ (r.slot.pending = none ∨ r.committing = none)

namespace Barred

theorem keep (h : r.Barred id) (hslot : r'.slot = r.slot) (hcancelled : r'.cancelled = r.cancelled)
    (hcommitting : r'.committing = r.committing) : r'.Barred id :=
  ⟨hslot ▸ h.issued, by rw [hslot, hcancelled, hcommitting]; exact h.barred⟩

theorem free (h : r.Barred id) (hissued : r'.slot.issued = r.slot.issued) (hnone : r'.slot.calling = none) :
    r'.Barred id :=
  ⟨hissued ▸ h.issued, fun hid => absurd (hnone.symm.trans hid) nofun⟩

theorem free_of_slot (h : r.Barred id) (hslot : r'.slot = r.slot) (hnone : r.slot.calling = none) : r'.Barred id :=
  h.free (congrArg Rendezvous.issued hslot) ((congrArg Rendezvous.calling hslot).trans hnone)

theorem still (h : r.Barred id) (hissued : r'.slot.issued = r.slot.issued)
    (hcalling : r'.slot.calling = r.slot.calling) (hcancelled : r'.cancelled = r.cancelled)
    (hstill : r'.slot.pending = none ∨ r'.committing = none) : r'.Barred id :=
  ⟨hissued ▸ h.issued, fun hid => ⟨hcancelled.trans (h.barred (hcalling.symm.trans hid)).1, hstill⟩⟩

theorem finishCommit (h : r.Barred id) (draws : Draws) (outcome : GuestOutcome) :
    (r.finishCommit draws outcome).2.Barred id := by
  unfold Runner.finishCommit
  split
  · exact h.still rfl rfl rfl (.inr rfl)
  unfold publish
  split
  · exact h.still rfl rfl rfl (.inr rfl)
  split <;> exact h.still rfl rfl rfl (.inr rfl)

theorem finishTask (h : r.Barred id) (result : Except RuntimeError Unit) : (r.finishTask result).Barred id := by
  cases hpending : r.slot.pending with
  | none => exact h.keep (by simp only [Runner.finishTask, hpending]) rfl rfl
  | some delivery =>
    refine h.still ?_ ?_ rfl (.inl ?_) <;> simp only [Runner.finishTask, hpending] <;> rfl

end Barred

theorem Step.barred (h : Step actor r r') (hbarred : r.Barred id) : r'.Barred id := by
  cases h with
  | ready _ events mutations =>
    obtain ⟨_, _, heq⟩ := r.ready_eq events mutations
    exact heq ▸ hbarred.keep rfl rfl rfl
  | next =>
    obtain ⟨_, _, heq⟩ := r.next_eq
    exact heq ▸ hbarred.keep rfl rfl rfl
  | receive hfree => exact hbarred.still rfl rfl rfl (.inr hfree)
  | commit _ outcome =>
    rcases r.commit_eq outcome with heq | ⟨hopen, heq⟩
    · rwa [heq]
    · rw [heq]
      refine ⟨hbarred.issued, fun hid => ⟨(hbarred.barred hid).1, .inl (hopen.resolve_right fun hlive => ?_)⟩⟩
      exact absurd (hlive.symm.trans (hbarred.barred hid).1) nofun
  | finishCommit => exact hbarred.finishCommit ..
  | reject =>
    unfold Runner.reject
    split
    · exact hbarred
    · exact hbarred.still rfl rfl rfl (.inl rfl)
  | finishTask => exact hbarred.finishTask _
  | init _ hnone | lastCommit _ hnone | rebuild _ hnone => exact hbarred.free_of_slot (coreCommit_kept ..).1 hnone
  | skip hnone | skipWithEvents hnone => exact hbarred.free_of_slot (hostCommit_kept ..).1 hnone
  | deliver =>
    refine ⟨Nat.lt_succ_of_lt hbarred.issued, fun hid => ?_⟩
    cases hid
    exact absurd hbarred.issued (Nat.lt_irrefl _)
  | reset hnone | stop hnone => exact hbarred.free rfl hnone
  | collect | drop | dropCommitting => exact hbarred.free rfl rfl
  | cancel | shutdown => exact ⟨hbarred.issued, fun hid => ⟨rfl, (hbarred.barred hid).2⟩⟩
  | halt | forget | begin | replay | start | join | others => exact hbarred.keep rfl rfl rfl

/-- Without a commit at work, a step while a delivery is pending writes nothing. -/
theorem Step.store_kept (h : Step actor r r') (hr : r.Coherent) (hactor : actor ≠ .others) (hidle : r.committing = none)
    (hpending : r.slot.pending = some (batch, id)) : r'.store = r.store := by
  have hcalling := (hr.slot.pending _ _ hpending).1
  have hbusy {P : Prop} (hnone : r.slot.calling = none) : P := absurd (hnone.symm.trans hcalling) nofun
  cases h with
  | ready _ events mutations =>
    obtain ⟨_, _, heq⟩ := r.ready_eq events mutations
    rw [heq]
  | next =>
    obtain ⟨_, _, heq⟩ := r.next_eq
    rw [heq]
  | commit _ outcome => rcases r.commit_eq outcome with heq | ⟨-, heq⟩ <;> rw [heq]
  | finishCommit h | dropCommitting h => exact absurd (hidle.symm.trans h) nofun
  | reject => unfold Runner.reject; split <;> rfl
  | init _ hnone | rebuild _ hnone | lastCommit _ hnone => exact hbusy hnone
  | skip hnone | skipWithEvents hnone => exact hbusy hnone
  | others => exact absurd rfl hactor
  | receive | halt | forget | finishTask | begin | replay | start | deliver | collect | cancel | shutdown | reset | stop
  | join | drop => rfl

end Runner

open Runner in
/-- The runner protocol, over every run of an instance. -/
theorem runner_protocol {host : HostState} {store : Store} {steps : List (Transition Runner Actor)} {r : Runner}
    (h : Trace Step (instantiate host store .fresh) steps r) :
    (r.slot.replies.map (·.1)).Nodup ∧
    (∀ id answer, (id, .ok answer) ∈ r.slot.replies → ∃ t ∈ steps, Advanced t.before t.after id answer) ∧
    (∀ id error, (id, .error error) ∈ r.slot.replies → ∀ t ∈ steps, t.label ≠ .others →
      (∃ batch, t.before.slot.pending = some (batch, id)) → t.after.store = t.before.store) ∧
    (∀ id, ∀ s ∈ steps, s.after.Cancelled id → ∀ t ∈ steps, t.label ≠ .others →
      (∃ batch, t.before.slot.pending = some (batch, id)) → t.after.store = t.before.store) ∧
    (∀ t ∈ steps, t.after.slot.pending.isSome →
      t.after.slot.pending = t.before.slot.pending ∨ t.before.slot.pending = none) ∧
    (∀ t ∈ steps, t.after.checkpoint = t.after.store.cursor t.after.host.cursor) := by
  have hstart := instantiate_coherent host store
  have hstep : ∀ a s s', Step a s s' → s.Coherent → s'.Coherent := fun _ _ _ hs => Coherent.step hs
  have hmem := h.mem hstart hstep
  have hr := h.invariant hstart hstep
  refine ⟨hr.slot.once, fun id answer hreply => ?_, fun id error hreply t ht hactor hpending => ?_,
    fun id s hs hcancelled t ht hactor hpending => ?_, fun t ht hsome => ?_, fun t ht => ?_⟩
  · rcases h.origin (F := fun s => (id, .ok answer) ∈ s.slot.replies)
      (Q := fun t => Advanced t.before t.after id answer) hstart hstep
      (fun _ _ _ hs hI hF => (hs.effect hI).ok_reply hF) hreply with hnone | hfound
    · cases hnone
    · exact hfound
  · by_contra hchanged
    rcases h.lasting (G := fun _ s => s.Over id) hstart hstep (fun _ _ _ => Step.over_of_writes) (fun _ _ _ _ => Step.over)
      t ht ⟨hactor, hpending, hchanged⟩ with ⟨answer, hok⟩ | hlost
    · cases hr.slot.unique hreply hok
    · exact hlost.replied ⟨_, hreply⟩
  · by_contra hchanged
    refine h.apart (Q := fun t => t.after.Cancelled id) (K := fun s => s.Barred id) (G := fun s => s.Over id) hstart hstep ?_
      (fun _ _ _ hs _ => hs.barred) (fun _ _ _ => Step.over_of_writes) (fun _ _ _ => Step.over) ?_ ?_ s hs hcancelled t ht
      ⟨hactor, hpending, hchanged⟩
    · intro _ _ s' hs hI hQ
      exact ⟨(hI.step hs).slot.bound id (.inr hQ.calling), fun _ => ⟨hQ.cancelled, hQ.still⟩⟩
    · rintro _ s _ hs hI hK ⟨hactor, ⟨batch, hpending⟩, hchanged⟩
      obtain ⟨-, hstill⟩ := hK.barred (hI.slot.pending _ _ hpending).1
      refine hchanged (hs.store_kept hI hactor (hstill.resolve_left fun hnone => ?_) hpending)
      exact absurd (hnone.symm.trans hpending) nofun
    · rintro _ _ s' - (⟨answer, hok⟩ | hlost) hQ
      · exact hQ.unanswered ⟨_, hok⟩
      · exact hlost.calling hQ.calling
  · obtain ⟨hs, hI⟩ := hmem t ht
    rcases (hs.effect hI).move with hsame | hmove
    · exact .inl (congrArg Rendezvous.pending hsame)
    · exact hmove.pending hI.slot hsome
  · obtain ⟨hs, hI⟩ := hmem t ht
    exact (hI.step hs).checkpoint

def job : CommittedEvent :=
  ⟨CommittedEvent.SCHEMA, "event-1", 1, 0,
    (HostState.bare "caller" "personal" []).stamp
      ⟨"capability.requested", "pluribus.request/1", .canonicalJson (.json .null), none, none⟩ none none
      (.canonicalJson (.json .null))⟩

def jobBatch : Batch := ⟨[job], cons_ne_nil _ _⟩

def handled : GuestOutcome := ⟨[], [.set "seen" [1]], some 1⟩

def noDraws : Draws := fun _ => ("", 0)

namespace Runner

def created : Runner := instantiate (.bare "shell" "personal" []) Store.empty .fresh

def running : Runner :=
  ((({ created with startup := true } : Runner).ready [] []).2.init noDraws ⟨[], [], none⟩).2.start

def taken : Runner := ((running.next.2.deliver jobBatch).receive jobBatch).2

def served : Runner := ((taken.commit handled).2.finishCommit noDraws handled).2

theorem running_trace : ∃ steps, Trace Step created steps running :=
  ⟨_, (((Trace.nil.snoc (.begin rfl)).snoc (.ready rfl [] [])).snoc (.init rfl rfl rfl noDraws)).snoc
    (.start rfl rfl)⟩

theorem served_replies : served.slot.replies = [(0, .ok ⟨[], 1⟩)] := rfl

def withdrawn : GuestError := ⟨.cancelled, "call cancelled", none⟩

/-- A delivery that is cancelled before its commit, and one that is cancelled while its commit is at work. -/
def refused : Runner := ((taken.cancel.commit handled).2.reject withdrawn).2

def overtaken : Runner := ((taken.commit handled).2.cancel.finishCommit noDraws handled).2

theorem taken_trace : ∃ steps, Trace Step created steps taken := by
  obtain ⟨steps, h⟩ := running_trace
  have hinbox : (running.next.2.deliver jobBatch).slot.inbox = some (jobBatch, 0) := rfl
  exact ⟨_, ((h.snoc (.next rfl)).snoc (.deliver rfl rfl jobBatch)).snoc (.receive rfl Nat.one_pos hinbox)⟩

end Runner

open Runner in
theorem runner_protocol_served :
    (∃ steps, Trace Step created steps served ∧ ∃ t ∈ steps, Advanced t.before t.after 0 ⟨[], 1⟩) ∧
    ∃ steps, Trace Step created steps refused ∧ refused.slot.replies = [(0, .error (pluginFailure withdrawn))] ∧
      (∃ s ∈ steps, s.after.Cancelled 0) ∧ ∀ t ∈ steps, t.label ≠ .others →
        (∃ batch, t.before.slot.pending = some (batch, 0)) → t.after.store = t.before.store := by
  obtain ⟨steps, h⟩ := taken_trace
  have hserved := (h.snoc (.commit rfl handled)).snoc (.finishCommit rfl noDraws)
  have hrefused := ((h.snoc .cancel).snoc (.commit rfl handled)).snoc (.reject rfl withdrawn)
  have hcancelled : taken.cancel.Cancelled 0 := ⟨rfl, rfl, fun ⟨_, hmem⟩ => absurd hmem not_mem_nil, .inr rfl⟩
  have hmem : (⟨taken, .host, taken.cancel⟩ : Transition Runner Actor) ∈
      ((steps ++ [⟨taken, .host, taken.cancel⟩]) ++ [⟨taken.cancel, .guest, (taken.cancel.commit handled).2⟩]) ++
        [⟨(taken.cancel.commit handled).2, .guest, refused⟩] := by
    simp
  refine ⟨⟨_, hserved, (runner_protocol hserved).2.1 0 ⟨[], 1⟩ ?_⟩, _, hrefused, rfl, ⟨_, hmem, hcancelled⟩, ?_⟩
  · rw [show ((taken.commit handled).2.finishCommit noDraws handled).2 = served from rfl, served_replies]
    exact mem_singleton_self _
  · exact (runner_protocol hrefused).2.2.2.1 0 _ hmem hcancelled

open Runner in
/-- A delivery that is cancelled while its commit waits is recorded all the same. -/
theorem cancelled_delivery_recorded : ∃ steps, Trace Step created steps overtaken ∧
    (∃ s ∈ steps, s.label = .host ∧ s.after = s.before.cancel ∧ s.after.slot.pending = some (jobBatch, 0)) ∧
    overtaken.slot.replies = [(0, .ok ⟨[], 1⟩)] ∧ created.store.cursor created.host.cursor = 0 ∧
    overtaken.store.cursor created.host.cursor = 1 := by
  obtain ⟨steps, h⟩ := taken_trace
  refine ⟨_, ((h.snoc (.commit rfl handled)).snoc .cancel).snoc (.finishCommit rfl noDraws), ⟨⟨(taken.commit handled).2, .host,
    (taken.commit handled).2.cancel⟩, by simp, rfl, rfl, rfl⟩, rfl, rfl, rfl⟩

end Pluribus.Runtime
