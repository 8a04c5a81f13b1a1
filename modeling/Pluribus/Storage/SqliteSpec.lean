import Pluribus.Storage.Sqlite

namespace Pluribus.Storage.Sqlite

open Lib Pluribus.Core Storage.Row

variable {α ε : Type} {o : Outside} {s t : Session}

variable {u : Unit} {database : Database} {request : AppendRequest} {event : CommittedEvent} {ns : StateNamespace}
  {mutations : List StateMutation} {revision : Nat}

theorem statement_ok {f : Database → Except String (α × Database)} {a : α}
    (h : statement o f s = .ok (a, t)) : f s.database = .ok (a, t.database) := by
  unfold statement at h
  split at h
  · cases h
  · split at h
    · rename_i hf
      cases h
      exact hf
    · cases h

theorem select_ok {f : Database → Except String α} {e : String → ε} {a : α}
    (h : Tx.mapError e (select o f) s = .ok (a, t)) : f s.database = .ok a ∧ t.database = s.database := by
  have hs := statement_ok (Tx.mapError_ok.mp h)
  cases hf : f s.database with
  | error m => simp [hf, Except.map] at hs
  | ok b =>
    simp only [hf, Except.map, Except.ok.injEq, Prod.mk.injEq] at hs
    exact ⟨by rw [hs.1], hs.2.symm⟩

theorem execute_ok {f : Database → Except String Database} {e : String → ε}
    (h : Tx.mapError e (execute o f) s = .ok (u, t)) : f s.database = .ok t.database := by
  have hs := statement_ok (Tx.mapError_ok.mp h)
  cases hf : f s.database with
  | error m => simp [hf, Except.map] at hs
  | ok database => simpa [hf, Except.map] using hs

theorem draw_ok {source : Nat → α} {a : α} (h : (draw source : Tx Session ε α) s = .ok (a, t)) :
    t.database = s.database := by
  cases h
  rfl

theorem transaction_ok {e : String → ε} {work : Tx Session ε α} {a : α}
    (h : transaction o e work s = .ok (a, t)) :
    ∃ s' t', s'.database = s.database ∧ work s' = .ok (a, t') ∧ t'.database = t.database := by
  obtain ⟨_, s₁, hbegin, h⟩ := Tx.bind_ok.mp h
  obtain ⟨b, s₂, hwork, h⟩ := Tx.bind_ok.mp h
  obtain ⟨_, s₃, hcommit, h⟩ := Tx.bind_ok.mp h
  obtain ⟨rfl, rfl⟩ := Tx.pure_ok.mp h
  have hb : s.database = s₁.database := by simpa using execute_ok hbegin
  have hc : s₂.database = s₃.database := by simpa using execute_ok hcommit
  exact ⟨s₁, s₂, hb.symm, hwork, hc⟩

theorem call_ok {work : Tx Session ε α} {a : α} (h : (call work database).1 = .ok a) :
    ∃ t, work ⟨database, 0⟩ = .ok (a, t) ∧ (call work database).2 = t.database :=
  ⟨_, Tx.atomically_ok h, rfl⟩

theorem call_error {work : Tx Session ε α} {e : ε} (h : (call work database).1 = .error e) :
    (call work database).2 = database := by
  have hs : (Tx.atomically work ⟨database, 0⟩).2 = ⟨database, 0⟩ := Tx.atomically_error h
  exact congrArg Session.database hs

def Inserted (request : AppendRequest) (before after : Database) (event : CommittedEvent) : Prop :=
  ∃ (stored : StreamRow) (eventId : EventId) (recordedAtMs : Int),
    (insertStream request.streamId (encodeStreamKind request.streamKind) before).streams.find
      request.streamId = some stored ∧
    stored.streamKind = encodeStreamKind request.streamKind ∧
    0 < stored.nextSequence ∧ stored.nextSequence ≠ i64Max ∧
    eventExists eventId before = false ∧
    event = ⟨CommittedEvent.SCHEMA, eventId, stored.nextSequence.toNat, recordedAtMs, request⟩ ∧
    after = setNextSequence request.streamId (stored.nextSequence + 1)
      { insertStream request.streamId (encodeStreamKind request.streamKind) before with
        events := before.events ++ [encodeEvent request eventId stored.nextSequence recordedAtMs] }

theorem insertRow_ok {row : EventRow} {before after : Database} (h : insertRow row before = .ok after) :
    after = { before with events := before.events ++ [row] } := by
  unfold insertRow at h
  split at h
  · cases h
  split at h
  · cases h
  · cases h
    rfl

theorem appendFresh_ok (h : appendFresh o request s = .ok (event, t)) :
    Inserted request s.database t.database event := by
  unfold appendFresh at h
  obtain ⟨_, s₁, hstream, h⟩ := Tx.bind_ok.mp h
  obtain ⟨stored, s₂, hstored, h⟩ := Tx.bind_ok.mp h
  have h₁ : insertStream request.streamId (encodeStreamKind request.streamKind) s.database = s₁.database := by
    simpa using execute_ok hstream
  obtain ⟨hrow, h₂⟩ := select_ok hstored
  split at h
  · exact absurd h (by simp)
  rename_i hkind
  split at h
  · exact absurd h (by simp)
  rename_i hseq
  obtain ⟨eventId, s₃, hid, h⟩ := Tx.bind_ok.mp h
  obtain ⟨collision, s₄, hcollision, h⟩ := Tx.bind_ok.mp h
  have h₃ := draw_ok hid
  obtain ⟨hexists, h₄⟩ := select_ok hcollision
  split at h
  · exact absurd h (by simp)
  rename_i hfresh
  obtain ⟨recordedAtMs, s₅, hnow, h⟩ := Tx.bind_ok.mp h
  have h₅ := draw_ok hnow
  obtain ⟨_, s₆, hinsert, h⟩ := Tx.bind_ok.mp h
  obtain ⟨rfl, rfl⟩ := Tx.pure_ok.mp h
  obtain ⟨_, s₇, hevent, hnext⟩ := Tx.bind_ok.mp hinsert
  have h₆ := insertRow_ok (execute_ok hevent)
  have h₇ := execute_ok hnext
  simp only [Except.ok.injEq] at h₇ hexists
  have hdb : s₅.database =
      insertStream request.streamId (encodeStreamKind request.streamKind) s.database := by
    rw [h₅, h₄, h₃, h₂, h₁]
  have hdb₁ : s₁.database = insertStream request.streamId (encodeStreamKind request.streamKind) s.database :=
    h₁.symm
  refine ⟨stored, eventId, recordedAtMs, ?_, not_not.mp hkind, by omega, fun hmax => hseq (.inr hmax), ?_, rfl, ?_⟩
  · rw [hdb₁] at hrow
    unfold selectStream at hrow
    split at hrow
    · rename_i hfind
      cases hrow
      exact hfind
    · cases hrow
  · rw [h₃, h₂, hdb₁] at hexists
    rw [← Bool.not_eq_true]
    intro hex
    exact hfresh (by rw [← hexists]; exact hex)
  · rw [← h₇, h₆, hdb]
    rfl

theorem appendIn_ok (h : appendIn o request s = .ok (event, t)) :
    request.validate = .ok () ∧
    ((∃ key, request.deduplicationKey = some key ∧
        selectKey request.streamId key s.database = .ok (some event) ∧ t.database = s.database) ∨
      ((∀ key, request.deduplicationKey = some key →
          selectKey request.streamId key s.database = .ok none) ∧
        Inserted request s.database t.database event)) := by
  obtain ⟨_, s₁, hcheck, h⟩ := Tx.bind_ok.mp h
  obtain ⟨hvalid, rfl⟩ := Tx.ofExcept_ok.mp hcheck
  refine ⟨hvalid, ?_⟩
  cases hkey : request.deduplicationKey with
  | none =>
    simp only [hkey] at h
    exact .inr ⟨fun key hk => (by cases hk), appendFresh_ok h⟩
  | some key =>
    simp only [hkey] at h
    obtain ⟨existing, s₂, hselect, h⟩ := Tx.bind_ok.mp h
    obtain ⟨hfound, hdb⟩ := select_ok hselect
    cases existing with
    | some found =>
      obtain ⟨rfl, rfl⟩ := Tx.pure_ok.mp h
      exact .inl ⟨key, rfl, hfound, hdb⟩
    | none =>
      refine .inr ⟨fun key' hk => ?_, hdb ▸ appendFresh_ok h⟩
      cases hk
      exact hfound

theorem mutateAll_ok {e : String → ε} (h : mutateAll o e ns mutations s = .ok (u, t)) :
    t.database = mutations.foldl (fun database mutation => mutate ns mutation database) s.database := by
  obtain ⟨us, s', hloop, h⟩ := Tx.bind_ok.mp h
  obtain ⟨-, rfl⟩ := Tx.pure_ok.mp h
  refine Tx.mapM_relation (R := fun s ms _ t => t.database =
    ms.foldl (fun database mutation => mutate ns mutation database) s.database) (fun _ => rfl) ?_ hloop
  intro s m b t ms bs u hstep hrest
  have hm : mutate ns m s.database = t.database := by simpa using execute_ok hstep
  rw [hrest, List.foldl_cons, hm]

theorem advanceRevision_ok {e : String → ε} {revision' : Nat}
    (h : advanceRevision o e ns mutations revision s = .ok (revision', t)) :
    revision ≠ u64Max ∧ revision' = revision + 1 ∧
    t.database = setRevision ns (revision + 1)
      (mutations.foldl (fun database mutation => mutate ns mutation database) s.database) := by
  obtain ⟨_, s₁, hmutate, h⟩ := Tx.bind_ok.mp h
  split at h
  · exact absurd h (by simp)
  rename_i hmax
  obtain ⟨_, s₂, hset, h⟩ := Tx.bind_ok.mp h
  obtain ⟨rfl, rfl⟩ := Tx.pure_ok.mp h
  have hdb : setRevision ns (revision + 1) s₁.database = s₂.database := by simpa using execute_ok hset
  exact ⟨hmax, rfl, by rw [← hdb, mutateAll_ok hmutate]⟩

theorem stateRevision_insertNamespace (ns ns' : StateNamespace) (database : Database) :
    stateRevision ns' (insertNamespace ns database) = stateRevision ns' database := by
  unfold stateRevision insertNamespace
  rw [Table.find_insertOrIgnore]
  split <;> simp

def advanced (ns : StateNamespace) (mutations : List StateMutation) (database : Database) : Database :=
  if mutations = [] then insertNamespace ns database
  else setRevision ns (stateRevision ns database + 1)
    (mutations.foldl (fun database mutation => mutate ns mutation database) (insertNamespace ns database))

def nextRevision (ns : StateNamespace) (mutations : List StateMutation) (database : Database) : Nat :=
  if mutations = [] then stateRevision ns database else stateRevision ns database + 1

theorem advanceState_ok {e : String → ε} (hs : s.database = insertNamespace ns database)
    (h : advanceState o e ns mutations (stateRevision ns database) s = .ok (revision, t)) :
    (mutations ≠ [] → stateRevision ns database ≠ u64Max) ∧
    revision = nextRevision ns mutations database ∧ t.database = advanced ns mutations database := by
  unfold advanceState at h
  unfold advanced nextRevision
  by_cases hm : mutations = []
  · simp only [hm, if_true] at h ⊢
    obtain ⟨rfl, rfl⟩ := Tx.pure_ok.mp h
    exact ⟨fun hne => absurd rfl hne, rfl, hs⟩
  · simp only [hm, if_false] at h ⊢
    obtain ⟨hmax, hnext, hdb⟩ := advanceRevision_ok h
    exact ⟨fun _ => hmax, hnext, by rw [hdb, hs]⟩

/-- Everything a successful delivery has done before it returns. -/
structure Delivered (o : Outside) (commit : DeliveryCommit) (before after : Database)
    (receipt : DeliveryReceipt) : Prop where
  intro ::
  checkpoint : readCheckpoint commit.cursor before = commit.expectedCheckpoint
  revision : commit.mutations ≠ [] → stateRevision commit.cursor.namespace before ≠ u64Max
  receiptRevision : receipt.revision = nextRevision commit.cursor.namespace commit.mutations before
  receiptCheckpoint : receipt.checkpoint = commit.checkpoint.getD commit.expectedCheckpoint
  events : ∃ s t : Session, s.database = advanced commit.cursor.namespace commit.mutations before ∧
    (commit.events.mapM fun request => Tx.mapError DeliveryError.append (appendIn o request) :
      Tx Session DeliveryError (List CommittedEvent)) s = .ok (receipt.events, t) ∧
    after = (commit.checkpoint.elim id (setCheckpoint commit.cursor)) t.database

theorem commitIn_ok {commit : DeliveryCommit} {receipt : DeliveryReceipt}
    (h : commitIn o commit s = .ok (receipt, t)) :
    Delivered o commit s.database t.database receipt := by
  obtain ⟨stored, s₁, hstored, h⟩ := Tx.bind_ok.mp h
  obtain ⟨hread, h₁⟩ := select_ok hstored
  simp only [Except.ok.injEq] at hread
  split at h
  · exact absurd h (by simp)
  rename_i hexpected
  obtain ⟨_, s₂, hinsert, h⟩ := Tx.bind_ok.mp h
  obtain ⟨current, s₃, hcurrent, h⟩ := Tx.bind_ok.mp h
  obtain ⟨revision, s₄, hrevision, h⟩ := Tx.bind_ok.mp h
  obtain ⟨events, s₅, hevents, h⟩ := Tx.bind_ok.mp h
  have h₂ : insertNamespace commit.cursor.namespace s.database = s₂.database := by
    simpa [h₁] using execute_ok hinsert
  obtain ⟨hcur, h₃⟩ := select_ok hcurrent
  simp only [Except.ok.injEq, ← h₂, stateRevision_insertNamespace] at hcur
  rw [← hcur] at hrevision
  obtain ⟨hmax, hrev, hdb⟩ := advanceState_ok (h₃.trans h₂.symm) hrevision
  have hstored : stored = commit.expectedCheckpoint := not_not.mp hexpected
  cases hc : commit.checkpoint with
  | none =>
    simp only [hc] at h
    obtain ⟨rfl, rfl⟩ := Tx.pure_ok.mp h
    exact ⟨hread.trans hstored, hmax, hrev, by rw [hc]; exact hstored, s₄, s₅, hdb, hevents, by rw [hc]; rfl⟩
  | some checkpoint =>
    simp only [hc] at h
    obtain ⟨_, s₆, hset, h⟩ := Tx.bind_ok.mp h
    obtain ⟨rfl, rfl⟩ := Tx.pure_ok.mp h
    have h₆ : setCheckpoint commit.cursor checkpoint s₅.database = s₆.database := by simpa using execute_ok hset
    exact ⟨hread.trans hstored, hmax, hrev, by rw [hc]; rfl, s₄, s₅, hdb, hevents, by rw [hc]; exact h₆.symm⟩

theorem commit_ok {commit : DeliveryCommit} {receipt : DeliveryReceipt}
    (h : (Sqlite.commit o commit database).1 = .ok receipt) :
    commit.validate = .ok () ∧ Delivered o commit database (Sqlite.commit o commit database).2 receipt := by
  obtain ⟨t, hwork, hdb⟩ := call_ok h
  obtain ⟨_, s₁, hcheck, hwork⟩ := Tx.bind_ok.mp hwork
  obtain ⟨hvalid, rfl⟩ := Tx.ofExcept_ok.mp hcheck
  obtain ⟨s', t', hs, hin, ht⟩ := transaction_ok hwork
  have hdelivered := commitIn_ok hin
  rw [hs, ht] at hdelivered
  exact ⟨hvalid, by unfold Sqlite.commit; rw [hdb]; exact hdelivered⟩

theorem append_ok (h : (append o request database).1 = .ok event) :
    ∃ s t, s.database = database ∧ appendIn o request s = .ok (event, t) ∧
      (append o request database).2 = t.database := by
  obtain ⟨t, hwork, hdb⟩ := call_ok h
  obtain ⟨s', t', hs, hin, ht⟩ := transaction_ok hwork
  exact ⟨s', t', hs, hin, by unfold append; rw [hdb, ht]⟩

theorem append_repeated {key : String} (hok : ∀ n, o.failure n = none) (hvalid : request.validate = .ok ())
    (hkey : request.deduplicationKey = some key) (hselect : selectKey request.streamId key database = .ok (some event)) :
    append o request database = (.ok event, database) := by
  simp [append, call, Tx.atomically, transaction, appendIn, hvalid, hkey, Tx.ofExcept, Tx.mapError, execute,
    select, statement, hok, hselect, Except.map, bind, StateT.bind, Except.bind, Tx.pure_apply]

theorem append_error {e : AppendError} (h : (append o request database).1 = .error e) :
    (append o request database).2 = database :=
  call_error h

theorem commit_error {delivery : DeliveryCommit} {e : DeliveryError}
    (h : (Sqlite.commit o delivery database).1 = .error e) : (Sqlite.commit o delivery database).2 = database :=
  call_error h

theorem apply_error {expected : Nat} {e : StateError} (h : (apply o ns expected mutations database).1 = .error e) :
    (apply o ns expected mutations database).2 = database :=
  call_error h

theorem discard_error {cursor : CursorKey} {e : DeliveryError} (h : (discard o cursor database).1 = .error e) :
    (discard o cursor database).2 = database :=
  call_error h

theorem apply_ok {expected : Nat} (h : (apply o ns expected mutations database).1 = .ok revision) :
    stateRevision ns database = expected ∧
    (mutations ≠ [] → stateRevision ns database ≠ u64Max) ∧
    revision = nextRevision ns mutations database ∧
    (apply o ns expected mutations database).2 = advanced ns mutations database := by
  obtain ⟨t, hwork, hdb⟩ := call_ok h
  obtain ⟨s', t', hs, hin, ht⟩ := transaction_ok hwork
  obtain ⟨_, s₁, hinsert, hin⟩ := Tx.bind_ok.mp hin
  obtain ⟨actual, s₂, hactual, hin⟩ := Tx.bind_ok.mp hin
  have h₁ : insertNamespace ns database = s₁.database := by simpa [hs] using execute_ok hinsert
  obtain ⟨hread, h₂⟩ := select_ok hactual
  simp only [Except.ok.injEq, ← h₁, stateRevision_insertNamespace] at hread
  split at hin
  · exact absurd hin (by simp)
  rename_i hexpected
  subst hread
  obtain ⟨hmax, hrev, hadvanced⟩ := advanceState_ok (h₂.trans h₁.symm) hin
  exact ⟨not_not.mp hexpected, hmax, hrev, by unfold apply; rw [hdb, ← ht, hadvanced]⟩

theorem discard_ok {cursor : CursorKey} (h : (discard o cursor database).1 = .ok u) :
    (discard o cursor database).2 =
      dropCursor cursor (dropNamespace cursor.namespace (clearNamespace cursor.namespace database)) := by
  obtain ⟨t, hwork, hdb⟩ := call_ok h
  obtain ⟨s', t', hs, hin, ht⟩ := transaction_ok hwork
  obtain ⟨_, s₁, hclear, hin⟩ := Tx.bind_ok.mp hin
  obtain ⟨_, s₂, hdrop, hin⟩ := Tx.bind_ok.mp hin
  have h₁ : clearNamespace cursor.namespace database = s₁.database := by simpa [hs] using execute_ok hclear
  have h₂ : dropNamespace cursor.namespace s₁.database = s₂.database := by simpa using execute_ok hdrop
  have h₃ : dropCursor cursor s₂.database = t'.database := by simpa using execute_ok hin
  unfold discard
  rw [hdb, ← ht, ← h₃, ← h₂, ← h₁]

end Pluribus.Storage.Sqlite
