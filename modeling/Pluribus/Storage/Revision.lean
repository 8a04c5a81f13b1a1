import Pluribus.Storage.Commit

namespace Pluribus.Storage.Sqlite

open Lib Pluribus.Core Function

variable {ns : StateNamespace} {database : Database} {store : Store}

/-- The call empties the namespace and forgets its revision. A discard that fails rolls back. -/
def Call.Discards (ns : StateNamespace) (o : Outside) (database : Database) : Call → Prop
  | .discard cursor => cursor.namespace = ns ∧ (Sqlite.discard o cursor database).1 = .ok ()
  | .append _ | .commit _ | .apply _ _ _ => False

def Undiscarded (ns : StateNamespace) (database : Database) (calls : List (Outside × Call)) : Prop :=
  ∀ before call after, calls = before ++ call :: after →
    ¬ call.2.Discards ns call.1 (runCalls database before)

theorem Undiscarded.head {call : Outside × Call} {rest : List (Outside × Call)}
    (h : Undiscarded ns database (call :: rest)) : ¬ call.2.Discards ns call.1 database :=
  h [] call rest rfl

theorem Undiscarded.tail {call : Outside × Call} {rest : List (Outside × Call)}
    (h : Undiscarded ns database (call :: rest)) : Undiscarded ns (call.2.run call.1 database) rest := by
  intro before later after heq
  exact h (call :: before) later after (by rw [heq, List.cons_append])

/-- A reader of the namespace sees the same in both, or a later revision in the second. -/
def Succeeds (ns : StateNamespace) (before after : Database) : Prop :=
  (stateRevision ns after = stateRevision ns before ∧ entry after ns = entry before ns) ∨
    stateRevision ns before < stateRevision ns after

theorem Succeeds.refl : Succeeds ns database database :=
  .inl ⟨rfl, rfl⟩

theorem Succeeds.trans {first second third : Database} (h : Succeeds ns first second) (h' : Succeeds ns second third) :
    Succeeds ns first third := by
  rcases h with ⟨hrevision, hentry⟩ | hless
  · rcases h' with ⟨hrevision', hentry'⟩ | hless'
    · exact .inl ⟨hrevision'.trans hrevision, hentry'.trans hentry⟩
    · exact .inr (hrevision ▸ hless')
  · rcases h' with ⟨hrevision', -⟩ | hless'
    · exact .inr (hrevision' ▸ hless)
    · exact .inr (hless.trans hless')

theorem Represents.succeeds {before after : Database} {store' : Store} (h : Represents before store)
    (h' : Represents after store') {changed : StateNamespace} {mutations : List StateMutation}
    (hstate : store'.state = update store.state changed (applyMutations (store.state changed) mutations))
    (hrevision : store'.revision = update store.revision changed
      (store.revision changed + if mutations = [] then 0 else 1)) : Succeeds ns before after := by
  unfold Succeeds
  rw [h.revision, h'.revision, h.entry, h'.entry, hstate, hrevision]
  by_cases hns : ns = changed
  · subst hns
    rw [update_self, update_self]
    by_cases hm : mutations = []
    · subst hm
      exact .inl ⟨by simp, rfl⟩
    · exact .inr (by simp [hm])
  · rw [update_of_ne hns, update_of_ne hns]
    exact .inl ⟨rfl, rfl⟩

theorem call_succeeds (h : Represents database store) (o : Outside) {call : Call}
    (hkept : ¬ call.Discards ns o database) : Succeeds ns database (call.run o database) := by
  cases call with
  | append request =>
    cases hr : (Sqlite.append o request database).1 with
    | error e =>
      rw [Call.run, append_error hr]
      exact .refl
    | ok event =>
      obtain ⟨eventId, recordedAtMs, store', happend, hrep⟩ := h.append hr
      obtain ⟨log', -, rfl⟩ := Store.append_log happend
      refine .inl ⟨?_, ?_⟩
      · rw [Call.run, hrep.revision, h.revision]
      · rw [Call.run, hrep.entry, h.entry]
  | commit delivery =>
    cases hr : (Sqlite.commit o delivery database).1 with
    | error e =>
      rw [Call.run, commit_error hr]
      exact .refl
    | ok receipt =>
      obtain ⟨draws, store', hcommit, hrep⟩ := h.commit hr
      obtain ⟨-, -, -, hstate, hrevision, -⟩ := Store.commit_ok hcommit
      exact h.succeeds hrep hstate hrevision
  | apply changed expected mutations =>
    cases hr : (Sqlite.apply o changed expected mutations database).1 with
    | error e =>
      rw [Call.run, apply_error hr]
      exact .refl
    | ok revision =>
      obtain ⟨store', happly, hrep⟩ := h.apply hr
      obtain ⟨-, -, hstate, hrevision⟩ := Store.advance_ok (Store.apply_ok happly).2.1
      exact h.succeeds hrep hstate hrevision
  | discard cursor =>
    cases hr : (Sqlite.discard o cursor database).1 with
    | error e =>
      rw [Call.run, discard_error hr]
      exact .refl
    | ok u =>
      have hne : ns ≠ cursor.namespace := fun heq => hkept ⟨heq.symm, hr⟩
      have hrep := h.discard hr
      refine .inl ⟨?_, ?_⟩
      · rw [Call.run, hrep.revision, h.revision]
        exact update_of_ne hne 0 store.revision
      · rw [Call.run, hrep.entry, h.entry]
        exact update_of_ne hne _ store.state

theorem run_succeeds (h : Represents database store) {calls : List (Outside × Call)}
    (hkept : Undiscarded ns database calls) : Succeeds ns database (runCalls database calls) := by
  induction calls generalizing database store with
  | nil => exact .refl
  | cons call rest ih =>
    obtain ⟨store₁, h₁, -⟩ := h.call call.1 call.2
    exact (call_succeeds h call.1 hkept.head).trans (ih h₁ hkept.tail)

/-- A revision that was read with some entries and is still the one an `apply` succeeds on
stands for these entries, as long as the namespace was not discarded since. -/
theorem revision_identifies_state (calls more : List (Outside × Call)) (ns : StateNamespace)
    (hkept : Undiscarded ns (runCalls Database.empty calls) more) (o : Outside) (expected revision : Nat)
    (mutations : List StateMutation) (hobserved : stateRevision ns (runCalls Database.empty calls) = expected)
    (happly : (Sqlite.apply o ns expected mutations
      (runCalls (runCalls Database.empty calls) more)).1 = .ok revision) :
    entry (runCalls (runCalls Database.empty calls) more) ns = entry (runCalls Database.empty calls) ns := by
  obtain ⟨store, h, -⟩ := represents_empty.run calls
  have hmatch := (apply_ok happly).1
  rcases run_succeeds h hkept with ⟨-, hentry⟩ | hless
  · exact hentry
  · omega

def setNote (text : Bytes) : List StateMutation := [.set "note" text]

theorem revision_identifies_state_note :
    entry (runCalls (runCalls Database.empty [(quiet, .apply "shell-1" 0 (setNote [1]))])
      [(quiet, .apply "web-1" 0 (setNote [2]))]) "shell-1" =
    entry (runCalls Database.empty [(quiet, .apply "shell-1" 0 (setNote [1]))]) "shell-1" := by
  refine revision_identifies_state [(quiet, .apply "shell-1" 0 (setNote [1]))]
    [(quiet, .apply "web-1" 0 (setNote [2]))] "shell-1" ?_ quiet 1 2 (setNote [3]) (by decide) (by decide)
  intro before call after heq
  cases before with
  | nil =>
    obtain ⟨rfl, -⟩ := List.cons_eq_cons.mp heq
    exact id
  | cons first rest => simp at heq

/-- After a discard revision 1 comes again, with other entries, and an `apply` that expects it succeeds. -/
theorem revision_recurs_after_discard :
    stateRevision "shell-1" (runCalls Database.empty [(quiet, .apply "shell-1" 0 (setNote [1]))]) = 1 ∧
    entry (runCalls Database.empty [(quiet, .apply "shell-1" 0 (setNote [1]))]) "shell-1" "note" = some [1] ∧
    (Sqlite.apply quiet "shell-1" 1 (setNote [3]) (runCalls
      (runCalls Database.empty [(quiet, .apply "shell-1" 0 (setNote [1]))])
      [(quiet, .discard shellCursor), (quiet, .apply "shell-1" 0 (setNote [2]))])).1 = .ok 2 ∧
    entry (runCalls (runCalls Database.empty [(quiet, .apply "shell-1" 0 (setNote [1]))])
      [(quiet, .discard shellCursor), (quiet, .apply "shell-1" 0 (setNote [2]))]) "shell-1" "note" = some [2] := by
  decide

end Pluribus.Storage.Sqlite
