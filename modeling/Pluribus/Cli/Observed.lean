import Pluribus.Cli.Delivery

namespace Pluribus.Cli

open Lib Pluribus.Core Pluribus.Runtime List Function

section Runs

variable {config : Config} {sessionId : SessionId} {journal : Journal String Proposal} {w w' : World}
  {committed : List Message} {action : Action}

theorem Orderly.runs (h : Orderly config sessionId journal w committed)
    (hfresh : ∀ n, inputKey sessionId.val n ∉ journal.keys) (hruns : Runs config w w') :
    ∃ committed', Orderly config sessionId journal w' committed' := by
  induction hruns with
  | refl => exact ⟨committed, h⟩
  | tail _ hstep ih =>
    obtain ⟨action, hstep⟩ := hstep
    obtain ⟨committed', hcommitted⟩ := ih
    exact ⟨_, hcommitted.step hfresh hstep⟩

theorem prefix_step (hstep : Step config action w w') : w.journal.entries <+: w'.journal.entries := by
  cases hstep with
  | receive hcurrent hserved => exact Journal.prefix_record
  | _ => exact prefix_rfl

end Runs

section Eventually

variable {config : Config} {sessionId : SessionId} {journal : Journal String Proposal} {w w' : World}
  {committed : List Message} {action : Action} {m : Message}

def World.idle (w : World) : Bool :=
  match w.current.map w.served with
  | some (.answered []) => true
  | _ => false

/-- How far a line is from being committed: the lines before it, each worth two answers, and an empty answer. -/
def World.distance (m : Message) (w : World) : Nat :=
  2 * (w.inFlight ++ w.inbox.messages).idxOf m + w.idle.toNat

theorem idle_none (h : w.current = none) : w.idle = false := by
  simp [World.idle, h]

theorem idle_waiting {connection : Nat} {cursor : Cursor} (hcurrent : w.current = some connection)
    (h : w.served connection = .waiting cursor) : w.idle = false := by
  simp [World.idle, hcurrent, h]

theorem idle_answered {connection : Nat} {messages : List Message} (hcurrent : w.current = some connection)
    (h : w.served connection = .answered messages) : w.idle = messages.isEmpty := by
  cases messages <;> simp [World.idle, hcurrent, h]

theorem Orderly.idle_step (h : Orderly config sessionId journal w committed) (hstep : UnbrokenStep config action w w')
    (hm : m ∈ w.inFlight ++ w.inbox.messages) (hidle : w'.idle = true) : w.idle = true := by
  obtain ⟨hstep, hunbroken⟩ := hstep
  cases hstep with
  | type hsequence htext => exact hidle
  | poll hcurrent =>
    rw [idle_waiting rfl (update_self w.opened (.waiting w.cursor) w.served)] at hidle
    cases hidle
  | receive hcurrent hserved | fail =>
    cases hidle
  | look hserved =>
    rename_i connection cursor
    by_cases hcurrent : w.current = some connection
    · -- the cursor of the poll is the connector's own, so the line in the inbox is handed out
      obtain rfl := h.asked connection cursor hcurrent hserved
      rw [inFlight_waiting hcurrent hserved, nil_append] at hm
      obtain ⟨-, -, -, hnone⟩ := h.handed
      have hanswered : World.idle { w with
          inbox := (w.inbox.waitForInput w.cursor.sessionId w.cursor.sequence).2
          served := Function.update w.served connection
            (.answered (w.inbox.waitForInput w.cursor.sessionId w.cursor.sequence).1) } =
          (w.inbox.waitForInput w.cursor.sessionId w.cursor.sequence).1.isEmpty :=
        idle_answered hcurrent (update_self connection (.answered _) w.served)
      rw [hanswered, List.isEmpty_iff] at hidle
      rw [hnone hidle] at hm
      cases hm
    · unfold World.idle at hidle ⊢
      cases hwho : w.current with
      | none => simp [hwho] at hidle
      | some other =>
        have hother : other ≠ connection := fun heq => hcurrent (heq ▸ hwho)
        simpa [hwho, update_of_ne hother] using hidle

theorem Orderly.waits (h : Orderly config sessionId journal w committed)
    (hfresh : ∀ n, inputKey sessionId.val n ∉ journal.keys) (hstep : UnbrokenStep config action w w')
    (hm : m ∈ w.inFlight ++ w.inbox.messages) (hreceive : action ≠ .receive) :
    m ∈ w'.inFlight ++ w'.inbox.messages ∧ w'.distance m ≤ w.distance m := by
  have hmoves := h.moves hfresh hstep
  have hnone : w.delivers action = [] := by
    cases action with
    | receive => exact absurd rfl hreceive
    | _ => rfl
  rw [hnone, nil_append] at hmoves
  have hidle : w'.idle.toNat ≤ w.idle.toNat := Bool.toNat_le_toNat (h.idle_step hstep hm)
  rw [World.distance, World.distance, hmoves, idxOf_append_of_mem hm]
  exact ⟨mem_append_left _ hm, by omega⟩

theorem Orderly.nears (h : Orderly config sessionId journal w committed)
    (hfresh : ∀ n, inputKey sessionId.val n ∉ journal.keys) (hstep : UnbrokenStep config .receive w w')
    (hm : m ∈ w.inFlight ++ w.inbox.messages) :
    entry config sessionId m ∈ w'.journal.entries ∨
    (m ∈ w'.inFlight ++ w'.inbox.messages ∧ w'.distance m < w.distance m) := by
  have hmoves : w.inFlight ++ (w'.inFlight ++ w'.inbox.messages) = w.inFlight ++ w.inbox.messages ++ [] :=
    h.moves hfresh hstep
  rw [append_nil] at hmoves
  by_cases hflight : m ∈ w.inFlight
  · left
    rw [(h.step hfresh hstep).entries]
    exact mem_append_right _ (mem_map_of_mem (mem_append_right _ hflight))
  · right
    rw [World.distance, World.distance, ← hmoves, idxOf_append_of_notMem hflight]
    refine ⟨?_, ?_⟩
    · rw [← hmoves] at hm
      exact (mem_append.mp hm).resolve_left hflight
    · obtain ⟨hstep, -⟩ := hstep
      cases hstep with
      | receive hcurrent hserved =>
        rename_i connection messages
        rw [idle_none rfl, idle_answered hcurrent hserved, inFlight_answered hcurrent hserved]
        cases messages with
        | nil => simp
        | cons first rest =>
          rw [length_cons, isEmpty_cons]
          omega

end Eventually

section Observed

variable {config : Config} {sessionId : SessionId} {cursor : Cursor} {journal : Journal String Proposal}

theorem line_committed (hfresh : Fresh sessionId cursor journal) (run : Course (UnbrokenStep config))
    (hstart : run.state 0 = .start sessionId cursor journal) (hfair : ∀ n, ∃ k, n ≤ k ∧ run.label k = .receive)
    {n : Nat} {m : Message} (hm : m ∈ (run.state n).typed) :
    ∃ k, n ≤ k ∧ entry config sessionId m ∈ (run.state k).journal.entries := by
  have horderly : ∀ n, ∃ committed, Orderly config sessionId journal (run.state n) committed := by
    intro n
    have hfirst : ∃ committed, Orderly config sessionId journal (run.state 0) committed :=
      ⟨[], hstart ▸ orderly_start hfresh⟩
    refine run.always (I := fun w => ∃ committed, Orderly config sessionId journal w committed) hfirst ?_ n (Nat.zero_le n)
    rintro n - ⟨committed, h⟩
    exact ⟨_, h.step hfresh.journal (run.steps n)⟩
  obtain ⟨committed, h⟩ := horderly n
  rw [h.typed, append_assoc] at hm
  rcases mem_append.mp hm with hdone | hwaits
  · refine ⟨n, le_rfl, ?_⟩
    rw [h.entries]
    exact mem_append_right _ (mem_map_of_mem hdone)
  · refine run.eventually (I := fun w => m ∈ w.inFlight ++ w.inbox.messages)
      (Q := fun w => entry config sessionId m ∈ w.journal.entries) (World.distance m) hfair hwaits ?_ ?_
    · intro k _ hk hreceive
      obtain ⟨committed, h⟩ := horderly k
      exact h.nears hfresh.journal (hreceive ▸ run.steps k) hk
    · intro k _ hk hreceive
      obtain ⟨committed, h⟩ := horderly k
      exact h.waits hfresh.journal (run.steps k) hk hreceive

variable (config sessionId cursor journal) in
/-- While messages only go to the connection that the connector reads, and are committed before it fails, what the
journal gains is the lines that were typed, in their order, and every line is in it in the end, once. -/
theorem typed_observed_once (hfresh : Fresh sessionId cursor journal) :
    (∀ w, Runs config (.start sessionId cursor journal) w → ∃ committed, committed <+: w.typed ∧
      w.journal.entries = journal.entries ++ committed.map (entry config sessionId)) ∧
    ∀ run : Course (UnbrokenStep config), run.state 0 = .start sessionId cursor journal →
      (∀ n, ∃ k, n ≤ k ∧ run.label k = .receive) →
      ∀ n, ∀ m ∈ (run.state n).typed, ∃ k, n ≤ k ∧ ∀ later, k ≤ later →
        entry config sessionId m ∈ (run.state later).journal.entries ∧
        (run.state later).journal.keys.count (inputKey sessionId.val m.sequence) = 1 := by
  refine ⟨fun w hruns => ?_, fun run hstart hfair n m hm => ?_⟩
  · obtain ⟨committed, h⟩ := (orderly_start hfresh).runs hfresh.journal hruns
    refine ⟨committed, ?_, h.entries⟩
    rw [h.typed, append_assoc]
    exact prefix_append _ _
  · obtain ⟨k, hk, hentry⟩ := line_committed hfresh run hstart hfair hm
    refine ⟨k, hk, fun later hlater => ?_⟩
    have hlasts := run.always (I := fun w => entry config sessionId m ∈ w.journal.entries) hentry
      (fun n _ h => (prefix_step (run.steps n).1).subset h) later hlater
    exact ⟨hlasts, Journal.count_keys (mem_map_of_mem (f := Prod.fst) hlasts)⟩

def sampleSession : SessionId := ⟨"0123456789abcdef0123456789abcdef", by decide +kernel⟩

def sampleConfig : Config := ⟨"terminal", "local"⟩

def sampleStart : World := .start sampleSession ⟨none, 0⟩ .empty

def sampleLine : Message := ⟨1, 0, "hello", by decide, by decide, by decide⟩

def sampleTyped : World := { sampleStart with inbox := ⟨[sampleLine], 1, sampleSession⟩, typed := [sampleLine] }

def samplePolled : World := { sampleTyped with
  served := Function.update (fun _ => .nothing) 0 (.waiting ⟨none, 0⟩)
  opened := 1
  current := some 0 }

def sampleAnswered : World := { samplePolled with
  inbox := (samplePolled.inbox.waitForInput none 0).2
  served := Function.update samplePolled.served 0 (.answered (samplePolled.inbox.waitForInput none 0).1) }

theorem sampleAnswered_runs : Runs sampleConfig sampleStart sampleAnswered := by
  have htype : Step sampleConfig (.type sampleLine) sampleStart sampleTyped := .type rfl (by decide +kernel)
  have hpoll : Step sampleConfig .poll sampleTyped samplePolled := .poll rfl
  have hlook := @Step.look sampleConfig samplePolled 0 ⟨none, 0⟩ rfl
  exact .tail (.tail (.single ⟨_, htype, trivial⟩) ⟨_, hpoll, trivial⟩) ⟨_, hlook, fun _ => rfl⟩

theorem typed_observed_once_sample : ∃ w, Runs sampleConfig sampleStart w ∧ w.typed = [sampleLine] ∧
    w.journal.keys = [inputKey sampleSession.val 1] ∧
    ∃ committed, committed <+: w.typed ∧ w.journal.entries = committed.map (entry sampleConfig sampleSession) := by
  have hfresh : Fresh sampleSession ⟨none, 0⟩ .empty := ⟨nofun, fun n hn => by cases hn⟩
  have hruns : Runs sampleConfig sampleStart (sampleAnswered.commit sampleConfig [sampleLine]) :=
    .tail sampleAnswered_runs ⟨_, @Step.receive sampleConfig sampleAnswered 0 _ rfl rfl, trivial⟩
  exact ⟨_, hruns, rfl, by decide +kernel, (typed_observed_once sampleConfig sampleSession ⟨none, 0⟩ .empty hfresh).1 _ hruns⟩

end Observed

section Lost

variable {config : Config} {sessionId : SessionId} {w w' : World} {action : Action} {sequence : Nat}

/-- The line of a number is out of reach: it has left the inbox, and only connections that the connector has
given up have it. -/
structure Lost (sessionId : SessionId) (sequence : Nat) (w : World) : Prop where
  session : w.inbox.sessionId = sessionId
  counted : sequence ≤ w.inbox.next
  inbox : ∀ m ∈ w.inbox.messages, m.sequence ≠ sequence
  answered : ∀ connection messages, w.served connection = .answered messages → (∃ m ∈ messages, m.sequence = sequence) →
    connection < w.opened ∧ w.current ≠ some connection
  journal : inputKey sessionId.val sequence ∉ w.journal.keys

theorem Lost.step (h : Lost sessionId sequence w) (hstep : Step config action w w') : Lost sessionId sequence w' := by
  cases hstep with
  | type hsequence htext =>
    refine ⟨h.session, Nat.le_succ_of_le h.counted, fun m hm => ?_, h.answered, h.journal⟩
    rcases mem_append.mp hm with hold | hnew
    · exact h.inbox m hold
    · have := h.counted
      rw [mem_singleton.mp hnew]
      omega
  | poll hcurrent =>
    refine ⟨h.session, h.counted, h.inbox, fun connection messages hserved hm => ?_, h.journal⟩
    dsimp only at hserved
    by_cases hnew : connection = w.opened
    · rw [hnew, update_self] at hserved
      cases hserved
    · rw [update_of_ne hnew] at hserved
      have := (h.answered connection messages hserved hm).1
      refine ⟨Nat.lt_succ_of_lt this, fun heq => hnew (Option.some.inj heq).symm⟩
  | look hserved =>
    rename_i connection cursor
    have hsubset := waitForInput_subset w.inbox cursor.sessionId cursor.sequence
    obtain ⟨kept, hinbox, hkept⟩ := waitForInput_kept w.inbox cursor.sessionId cursor.sequence
    rw [hinbox]
    refine ⟨h.session, h.counted, fun m hm => h.inbox m (hkept hm), fun other messages hanswered hm => ?_, h.journal⟩
    dsimp only at hanswered
    by_cases hsame : other = connection
    · rw [hsame, update_self] at hanswered
      cases hanswered
      obtain ⟨m, hm, hsequence⟩ := hm
      exact absurd hsequence (h.inbox m (hsubset hm))
    · rw [update_of_ne hsame] at hanswered
      exact h.answered other messages hanswered hm
  | receive hcurrent hserved =>
    rename_i connection messages
    refine ⟨h.session, h.counted, h.inbox,
      fun other messages hanswered hm => ⟨(h.answered other messages hanswered hm).1, nofun⟩, fun hkey => ?_⟩
    rcases Journal.mem_keys_record.mp hkey with hold | ⟨e, he, heq⟩
    · exact h.journal hold
    · obtain ⟨m, hm, rfl⟩ := mem_map.mp he
      rw [h.session] at heq
      exact (h.answered connection messages hserved ⟨m, hm, inputKey_inj heq⟩).2 hcurrent
  | fail =>
    exact ⟨h.session, h.counted, h.inbox,
      fun connection messages hserved hm => ⟨(h.answered connection messages hserved hm).1, nofun⟩, h.journal⟩

theorem Lost.runs (h : Lost sessionId sequence w)
    (hruns : Relation.ReflTransGen (fun w w' => ∃ action, Step config action w w') w w') : Lost sessionId sequence w' := by
  induction hruns with
  | refl => exact h
  | tail _ hstep ih =>
    obtain ⟨action, hstep⟩ := hstep
    exact ih.step hstep

def sampleBroken : World := { sampleAnswered with current := none }

theorem sampleBroken_reached :
    Relation.ReflTransGen (fun w w' => ∃ action, Step sampleConfig action w w') sampleStart sampleBroken :=
  .tail (Relation.ReflTransGen.mono (fun _ _ h => h.imp fun _ h => h.1) _ _ sampleAnswered_runs) ⟨_, .fail⟩

theorem sampleBroken_lost : Lost sampleSession 1 sampleBroken where
  session := rfl
  counted := by decide +kernel
  inbox := by
    exact fun m hm => by cases hm
  answered connection messages hserved _ := by
    refine ⟨?_, nofun⟩
    by_contra hout
    have hne : connection ≠ 0 := fun heq => hout (heq ▸ Nat.one_pos)
    have hnothing : sampleBroken.served connection = .nothing := by
      simp [sampleBroken, sampleAnswered, samplePolled, update_of_ne hne]
    rw [hnothing] at hserved
    cases hserved
  journal := nofun

/-- The bridge hands a line out, and the connection is lost before the answer is read: whatever happens from there,
the line is never committed. -/
theorem lost_answer_loses_line :
    ∃ w, Relation.ReflTransGen (fun w w' => ∃ action, Step sampleConfig action w w') sampleStart w ∧
      sampleLine ∈ w.typed ∧
      ∀ w', Relation.ReflTransGen (fun w w' => ∃ action, Step sampleConfig action w w') w w' →
        inputKey sampleSession.val sampleLine.sequence ∉ w'.journal.keys := by
  refine ⟨sampleBroken, sampleBroken_reached, mem_singleton.mpr rfl, fun w' hruns => ?_⟩
  exact (sampleBroken_lost.runs hruns).journal

end Lost

end Pluribus.Cli
