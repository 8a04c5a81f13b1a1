import Pluribus.Email.Session

namespace Pluribus.Email

open Lib Pluribus.Core Pluribus.Runtime List

def Act.isSearch : Act → Bool
  | .send _ (.searchSince _) => true
  | _ => false

def Act.announces : Act → Bool
  | .read response => response.announcesArrival
  | _ => false

/-- Between a response that announces an arrival and every later idle wait there is a search. -/
def Heeded (acts : List Act) : Prop :=
  ∀ earlier announcement between later, acts = earlier ++ announcement :: (between ++ .block :: later) →
    announcement.announces = true → ∃ act ∈ between, act.isSearch = true

/-- Whether an arrival has been announced and no search been sent since. -/
def owes (owed : Bool) (act : Act) : Bool := (owed || act.announces) && !act.isSearch

def Paid (owed : Bool) (acts : List Act) : Prop :=
  ∀ earlier later, acts = earlier ++ .block :: later → earlier.foldl owes owed = false

section Monitor

variable {acts : List Act}

theorem paid_nil (owed : Bool) : Paid owed [] := fun earlier later h => by simp at h

theorem paid_cons {owed : Bool} {act : Act} (hact : act = .block → owed = false) (hacts : Paid (owes owed act) acts) :
    Paid owed (act :: acts) := by
  intro earlier later h
  cases earlier with
  | nil =>
    rw [nil_append, cons.injEq] at h
    exact hact h.1
  | cons first rest =>
    rw [cons_append, cons.injEq] at h
    rw [foldl_cons, ← h.1]
    exact hacts rest later h.2

theorem Paid.append {owed : Bool} {more : List Act} (hacts : Paid owed acts) (hmore : Paid (acts.foldl owes owed) more) :
    Paid owed (acts ++ more) := by
  induction acts generalizing owed with
  | nil => exact hmore
  | cons act acts ih =>
    apply paid_cons
    · rintro rfl
      exact hacts [] acts rfl
    · apply ih
      · intro earlier later h
        exact hacts (act :: earlier) later (by rw [h, cons_append])
      · exact hmore

theorem search_of_paid (h : acts.foldl owes true = false) : ∃ act ∈ acts, act.isSearch = true := by
  induction acts with
  | nil => cases h
  | cons act acts ih =>
    by_cases hsearch : act.isSearch = true
    · exact ⟨act, mem_cons_self, hsearch⟩
    · have howes : owes true act = true := by simp [owes, hsearch]
      rw [foldl_cons, howes] at h
      obtain ⟨found, hfound, hsearch⟩ := ih h
      exact ⟨found, mem_cons_of_mem _ hfound, hsearch⟩

theorem Paid.heeded (h : Paid false acts) : Heeded acts := by
  intro earlier announcement between later hacts hannounces
  have hpaid := h (earlier ++ announcement :: between) later (by simp [hacts])
  rw [foldl_append, foldl_cons] at hpaid
  have howes : owes (earlier.foldl owes false) announcement = true := by
    cases announcement with
    | read response => simpa [owes, Act.isSearch] using .inr hannounces
    | _ => cases hannounces
  rw [howes] at hpaid
  exact search_of_paid hpaid

end Monitor

/-- A search that is owed is still to come in this phase. -/
def Phase.pays (owed : Bool) : Phase → Prop
  | .searchSince _ pending => owed = true → pending.untagged.any Response.announcesArrival = true
  | .fetchSize _ batch _ => owed = true → batch.complete = true
  | .fetchBody _ batch _ _ => owed = true → batch.complete = true
  | .committing _ _ complete => owed = true → complete = true
  | .idleBegin _ _ => owed = false
  | .idle _ _ _ => owed = false
  | _ => True

/-- A response that does not announce an arrival where nothing would come of it: with a search that does not
fill the batch, with the fetches of such a batch, or before the continuation of IDLE. -/
def Phase.attentive (config : Config) (response : Response) : Phase → Bool
  | .searchSince cursor pending =>
    match taggedStatus response pending.tag with
    | .ok (some _) => (Email.searchSince pending.untagged cursor.lastUid config.batch).length = config.batch ||
        (pending.untagged ++ [response]).all (!·.announcesArrival)
    | _ => true
  | .fetchSize _ batch _ => batch.complete || !response.announcesArrival
  | .fetchBody _ batch _ _ => batch.complete || !response.announcesArrival
  | .idleBegin _ _ => !response.announcesArrival
  | _ => true

def Session.attentive (config : Config) (s : Session) : Bool :=
  match s.connection.buffer with
  | .ok response :: _ => s.phase.attentive config response
  | _ => true

section Steps

variable {render : StoredCursor → Fetched → Int → Except HostError Json} {config : Config} {account : Account}
  {around : Surroundings} {connection : Connection} {cursor : StoredCursor} {batch : Batch} {owed : Bool}

variable {phase : Phase} {tag : String} {pending : Pending} {response : Response} {s : Session}

/-- Acts and the session after them, when this much was owed before. -/
structure Good (owed : Bool) (result : List Act × Session) : Prop where
  paid : Paid owed result.1
  pays : result.2.phase.pays (result.1.foldl owes owed)

theorem good_stay (h : phase.pays owed) : Good owed ([], ⟨connection, phase⟩) :=
  ⟨paid_nil owed, h⟩

theorem good_finish (result : Except HostError Unit) : Good owed (finish connection result) := good_stay trivial

theorem good_issue {command : Command} {next : Pending → Phase}
    (h : ∀ tag, (next ⟨tag, []⟩).pays (owes owed (.send tag command))) :
    Good owed (issue around connection command next) := by
  unfold issue
  split
  · exact good_finish _
  · exact ⟨paid_cons nofun (paid_nil _), h _⟩

theorem good_startSearch : Good owed (startSearch around connection cursor) :=
  good_issue fun tag => by simp [Phase.pays, owes, Act.isSearch]

theorem good_startIdle (h : owed = false) : Good owed (startIdle around connection cursor) :=
  good_issue fun tag => by simp [Phase.pays, owes, h, Act.announces]

theorem good_startBatch {uids : List Nat} (h : owed = true → uids.length = config.batch) :
    Good owed (startBatch config around connection cursor uids) := by
  cases uids with
  | nil =>
    apply good_startIdle
    by_contra howed
    have := config.batch_pos
    simp [← h (by simpa using howed)] at this
  | cons uid rest =>
    apply good_issue
    intro tag howed
    simpa [Phase.pays] using h (by simpa [owes, Act.announces, Act.isSearch] using howed)

theorem good_passMessage {observation : List Proposal} (h : owed = true → batch.complete = true) :
    Good owed (passMessage around connection cursor batch observation) := by
  unfold passMessage
  cases batch.rest with
  | nil => exact good_stay h
  | cons uid rest =>
    apply good_issue
    intro tag howed
    exact h (by simpa [owes, Act.announces, Act.isSearch] using howed)

theorem good_open {opened : Mailbox} : Good owed (open_ config around connection opened) := by
  unfold open_
  split
  · exact good_finish _
  · exact good_stay trivial

theorem good_completed {completion : Completion}
    (hpays : (∀ cursor pending, phase ≠ .searchSince cursor pending) → phase.pays owed)
    (hsearch : ∀ cursor pending, phase = .searchSince cursor pending → owed = true →
      (searchSince completion.untagged cursor.lastUid config.batch).length = config.batch) :
    Good owed (completed render config account around connection phase completion) := by
  cases phase with
  | capabilities pending =>
    simp only [completed]
    split
    · exact good_finish _
    split
    · exact good_finish _
    split
    · exact good_finish _
    split
    · exact good_finish _
    · exact good_issue fun _ => trivial
  | login pending =>
    simp only [completed]
    split
    · split
      · exact good_finish _
      · exact good_issue fun _ => trivial
    · exact good_finish _
  | examine pending =>
    simp only [completed]
    split
    · exact good_finish _
    split
    · exact good_finish _
    split
    · exact good_issue fun _ => trivial
    · exact good_open
  | highestUid opened pending =>
    simp only [completed]
    split
    · exact good_finish _
    · exact good_open
  | searchSince cursor pending =>
    simp only [completed]
    split
    · exact good_finish _
    · exact good_startBatch (hsearch cursor pending rfl)
  | fetchSize cursor batch pending =>
    simp only [completed]
    split
    · exact good_finish _
    split
    · exact good_passMessage (hpays (by simp))
    · apply good_issue
      intro tag howed
      exact hpays (by simp) (by simpa [owes, Act.announces, Act.isSearch] using howed)
  | fetchBody cursor batch size pending =>
    simp only [completed]
    split
    · exact good_finish _
    split
    · exact good_passMessage (hpays (by simp))
    split
    · exact good_finish _
    · exact good_passMessage (hpays (by simp))
  | idleEnd cursor pending =>
    simp only [completed]
    split
    · exact good_finish _
    · exact good_startSearch
  | _ => exact good_stay (hpays (by simp))

theorem good_idleOn {entered : Nat} (h : owed = false) : Good owed (idleOn around connection cursor tag entered) := by
  unfold idleOn
  split
  · exact good_finish _
  · exact good_stay h

theorem good_leaveIdle : Good owed (leaveIdle around connection cursor tag) := by
  unfold leaveIdle
  split
  · exact good_finish _
  · exact ⟨paid_cons nofun (paid_nil _), trivial⟩

theorem good_idleRound {entered : Nat} (h : owed = false) :
    Good owed (idleRound around connection cursor tag entered) := by
  unfold idleRound
  split
  · exact good_leaveIdle
  · exact good_idleOn h

theorem filled_of_attentive {status : Status} (hpays : (Phase.searchSince cursor pending).pays owed)
    (hattentive : (Phase.searchSince cursor pending).attentive config response = true)
    (hstatus : taggedStatus response pending.tag = .ok (some status))
    (howed : (owed || response.announcesArrival) = true) :
    (searchSince pending.untagged cursor.lastUid config.batch).length = config.batch := by
  by_contra hlength
  have hquiet : ∀ r ∈ pending.untagged ++ [response], r.announcesArrival = false := by
    simp only [Phase.attentive, hstatus, hlength, decide_false, Bool.false_or, all_eq_true] at hattentive
    exact fun r hr => by simpa using hattentive r hr
  rw [Bool.or_eq_true] at howed
  rcases howed with howed | hannounces
  · obtain ⟨r, hr, hannounces⟩ := any_eq_true.mp (hpays howed)
    rw [hquiet r (mem_append_left _ hr)] at hannounces
    cases hannounces
  · rw [hquiet response (mem_append_right _ (mem_singleton_self _))] at hannounces
    cases hannounces

theorem complete_of_attentive (hpays : owed = true → batch.complete = true)
    (hattentive : (batch.complete || !response.announcesArrival) = true)
    (howed : (owed || response.announcesArrival) = true) : batch.complete = true := by
  by_contra hcomplete
  have hquiet : response.announcesArrival = false := by simpa [hcomplete] using hattentive
  rw [hquiet, Bool.or_false] at howed
  exact hcomplete (hpays howed)

theorem pays_more {more : Pending → Phase} (hpending : phase.pending = some (pending, more)) (hpays : phase.pays owed)
    (hattentive : phase.attentive config response = true) :
    (more ⟨pending.tag, pending.untagged ++ [response]⟩).pays (owed || response.announcesArrival) := by
  cases phase with
  | searchSince cursor p =>
    cases hpending
    intro howed
    rw [any_append, Bool.or_eq_true]
    rw [Bool.or_eq_true] at howed
    exact howed.imp hpays fun h => by simpa using h
  | fetchSize cursor batch p | fetchBody cursor batch size p =>
    cases hpending
    exact complete_of_attentive hpays hattentive
  | _ => cases hpending <;> trivial

theorem good_collected {more : Pending → Phase} (hpending : phase.pending = some (pending, more))
    (hpays : phase.pays owed) (hattentive : phase.attentive config response = true) :
    Good (owed || response.announcesArrival) (match pending.collect (.response response) with
      | .more pending => ([], ⟨connection, more pending⟩)
      | .failed error => finish connection (.error error)
      | .complete completion => completed render config account around connection phase completion) := by
  simp only [Pending.collect]
  cases hstatus : taggedStatus response pending.tag with
  | error error => exact good_finish _
  | ok status =>
    cases status with
    | none => exact good_stay (pays_more hpending hpays hattentive)
    | some status =>
      apply good_completed
      · intro hother
        cases phase with
        | searchSince cursor p => exact absurd rfl (hother cursor p)
        | fetchSize cursor batch p | fetchBody cursor batch size p => exact pays_more rfl hpays hattentive
        | _ => cases hpending <;> trivial
      · rintro cursor p rfl howed
        cases hpending
        exact filled_of_attentive hpays hattentive hstatus howed

theorem good_response (hphase : ∀ cursor proposals complete, phase ≠ .committing cursor proposals complete)
    (hpays : phase.pays owed) (hattentive : phase.attentive config response = true) :
    Good (owed || response.announcesArrival)
      (received render config account around connection phase (.response response)) := by
  cases phase with
  | greet =>
    simp only [received]
    split
    · exact good_issue fun _ => trivial
    split <;> exact good_finish _
  | idleBegin cursor tag =>
    have howed : (owed || response.announcesArrival) = false := by
      rw [show owed = false from hpays, Bool.false_or]
      simpa [Phase.attentive] using hattentive
    simp only [received]
    split
    · exact good_idleOn howed
    split
    · exact good_finish _
    · exact good_stay howed
  | idle cursor tag entered =>
    simp only [received]
    split
    · exact good_leaveIdle
    · rename_i hquiet
      apply good_idleRound
      rw [show owed = false from hpays]
      simpa using hquiet
  | opening cursor notice | ended result => exact good_stay trivial
  | committing cursor proposals complete => exact absurd rfl (hphase cursor proposals complete)
  | _ => exact good_collected rfl hpays hattentive

theorem good_nothing (hpays : phase.pays owed) :
    Good owed (received render config account around connection phase .nothing) := by
  cases phase with
  | idle cursor tag entered => exact good_idleRound hpays
  | opening cursor notice | committing cursor proposals complete | ended result => exact good_stay hpays
  | _ => exact good_finish _

theorem Good.prepend {act : Act} {result : List Act × Session} (hact : act = .block → owed = false)
    (h : Good (owes owed act) result) : Good owed (act :: result.1, result.2) :=
  ⟨paid_cons hact h.paid, h.pays⟩

variable (render account around)

theorem good_readOn (hphase : ∀ cursor proposals complete, s.phase ≠ .committing cursor proposals complete)
    (hpays : s.phase.pays owed) (hattentive : s.attentive config = true) :
    Good owed (s.readOn render config account around) := by
  cases hbuffer : s.connection.buffer with
  | cons item rest =>
    cases item with
    | ok response =>
      simp only [Session.readOn, Connection.read, readActs, hbuffer]
      refine Good.prepend (by nofun) ?_
      have howes : owes owed (.read response) = (owed || response.announcesArrival) := Bool.and_true _
      rw [howes]
      exact good_response hphase hpays (by simpa [Session.attentive, hbuffer] using hattentive)
    | error error =>
      simp only [Session.readOn, Connection.read, readActs, hbuffer]
      cases s.phase <;> exact good_finish _
  | nil =>
    have hrest : Good owed (received render config account around (s.connection.read around.chunk).2 s.phase
        (s.connection.read around.chunk).1) := by
      simp only [Connection.read, hbuffer]
      cases around.chunk with
      | bytes responses => exact good_stay hpays
      | failed error => cases s.phase <;> exact good_finish _
      | empty =>
        dsimp only
        split
        · cases s.phase <;> exact good_finish _
        · exact good_nothing hpays
    by_cases hidle : ∃ cursor tag entered, s.phase = .idle cursor tag entered
    · obtain ⟨cursor, tag, entered, hidle⟩ := hidle
      have howed : owed = false := by rwa [hidle] at hpays
      simp only [Session.readOn, readActs, hbuffer]
      rw [hidle] at hrest ⊢
      apply Good.prepend (fun _ => howed)
      rwa [show owes owed .block = owed by simp [owes, Act.announces, Act.isSearch]]
    · have hacts : readActs s = [] := by
        unfold readActs
        rw [hbuffer]
        split
        · rename_i h
          cases h
        · rename_i h
          cases h
        · rename_i h
          exact absurd ⟨_, _, _, h⟩ hidle
        · rfl
      simp only [Session.readOn, hacts]
      exact hrest

/-- One step: nothing is waited for that is owed a search, and what is owed then is still to come. -/
theorem good_step (hpays : s.phase.pays owed) (hattentive : s.attentive config = true) :
    Good owed (s.step render config account around) := by
  obtain ⟨connection, phase⟩ := s
  unfold Session.step
  split
  · exact good_stay trivial
  cases phase with
  | ended result =>
    dsimp only
    split
    · exact good_finish _
    · exact good_stay trivial
  | opening cursor notice =>
    dsimp only
    split
    · exact good_finish _
    · exact Good.prepend nofun good_startSearch
  | committing cursor proposals complete =>
    dsimp only
    split
    · exact good_finish _
    refine Good.prepend (by nofun) ?_
    have howes : owes owed (.commit proposals cursor) = owed := by simp [owes, Act.announces, Act.isSearch]
    rw [howes]
    split
    · exact good_startSearch
    · rename_i hcomplete
      exact good_startIdle (by simpa using mt hpays hcomplete)
  | _ => exact good_readOn render account around nofun hpays hattentive

/-- The sessions a run passes through when it starts from `s`, with the surroundings it meets there. -/
def Session.passes (config : Config) (s : Session) : List Surroundings → List Session
  | [] => []
  | around :: rest => s :: (s.step render config account around).2.passes config rest

theorem good_run {surroundings : List Surroundings} (hpays : s.phase.pays owed)
    (hattentive : ∀ s' ∈ s.passes render account config surroundings, s'.attentive config = true) :
    Paid owed (s.run render config account surroundings).1 := by
  induction surroundings generalizing s owed with
  | nil => exact paid_nil owed
  | cons around rest ih =>
    have hstep := good_step render account around hpays (hattentive s mem_cons_self)
    apply hstep.paid.append
    exact ih hstep.pays fun s' hs' => hattentive s' (mem_cons_of_mem _ hs')

end Steps

def sampleConfig : Config := ⟨"INBOX", 2097152, 20, false, by decide, by decide⟩

def sampleAccount : Account := ⟨"ann", "secret"⟩

def sampleRender : StoredCursor → Fetched → Int → Except HostError Json :=
  fun _ fetched _ => .ok (Json.ofFields [("uid", Json.ofNat fetched.uid)])

def sampleAround (texts : List String) : Surroundings where
  connect := .ok ()
  send := .ok ()
  chunk := .bytes (texts.map fun text => .ok ⟨text, none⟩)
  commit := .ok ()
  stored := .ok none
  now := 0
  monotonic := 0
  stopping := false
  crash := false

def sampleOpening : List String :=
  ["* OK ready", "* CAPABILITY IMAP4rev2 IDLE", "p0001 OK done", "p0002 OK done", "* OK [UIDVALIDITY 7]",
    "* OK [UIDNEXT 1]", "p0003 OK done", "p0004 OK done"]

def sampleSurroundings (texts : List String) : List Surroundings :=
  List.replicate (texts.length + 4) (sampleAround texts)

/-- Where every session of a run is attentive, no announcement waits for the renewal of IDLE. -/
theorem announcements_heeded (render : StoredCursor → Fetched → Int → Except HostError Json) (config : Config)
    (account : Account) (surroundings : List Surroundings)
    (hattentive : ∀ s ∈ Session.initial.passes render account config surroundings, s.attentive config = true) :
    Heeded (Session.initial.run render config account surroundings).1 :=
  Paid.heeded (good_run render account (s := .initial) trivial hattentive)

/-- The arrival is announced while the connector idles; it searches and idles again. -/
theorem announcements_heeded_idle : ∃ acts, acts = (Session.initial.run sampleRender sampleConfig sampleAccount
      (sampleSurroundings (sampleOpening ++ ["+ idling", "* 1 EXISTS", "p0005 OK done", "p0006 OK done", "+ idling"]))).1 ∧
    Heeded acts ∧ acts.getLast? = some .block ∧ ∃ act ∈ acts.drop 16, act.isSearch = true :=
  ⟨_, rfl, announcements_heeded _ _ _ _ (by decide +kernel), by decide +kernel⟩

/-- An arrival that is announced before the continuation of IDLE: the connector blocks without a search. -/
theorem announcement_before_idle_dropped :
    ¬ Heeded (Session.initial.run sampleRender sampleConfig sampleAccount
      (sampleSurroundings (sampleOpening ++ ["* 1 EXISTS", "+ idling"]))).1 := by
  intro h
  have hacts : (Session.initial.run sampleRender sampleConfig sampleAccount
      (sampleSurroundings (sampleOpening ++ ["* 1 EXISTS", "+ idling"]))).1 =
      (Session.initial.run sampleRender sampleConfig sampleAccount
        (sampleSurroundings (sampleOpening ++ ["* 1 EXISTS", "+ idling"]))).1.take 14 ++
        .read ⟨"* 1 EXISTS", none⟩ :: ([.read ⟨"+ idling", none⟩] ++ .block :: []) := by decide +kernel
  obtain ⟨act, hact, hsearch⟩ := h _ _ _ _ hacts (by decide +kernel)
  rw [mem_singleton.mp hact] at hsearch
  cases hsearch

end Pluribus.Email
