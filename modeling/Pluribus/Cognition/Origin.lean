import Mathlib.Data.List.Chain
import Pluribus.Cognition.Authority

namespace Pluribus.Cognition.OriginAuthority

open Lib Pluribus.Core Storage List

variable {a : OriginAuthority} {failures : Nat → Option AppendError} {log : Log}

variable {origin observation : CommittedEvent} {inherited : Inherited} {value : Json}

def isObservation (event : CommittedEvent) : Bool := event.request.eventType = "observation.received"

def Causes (log : Log) (child parent : CommittedEvent) : Prop :=
  child.request.causationId = some parent.eventId ∧ parent ∈ log.events ∧ parent.sequence < child.sequence

/-- The observation says of its sender anything else than that it is trusted. -/
def Untrusted (value : Json) : Prop := ∃ flag, value.get "trusted" = some flag ∧ flag ≠ .bool true

theorem isTrusted_eq_true : isTrusted value = true ↔ ¬ Untrusted value := by
  cases hflag : value.get "trusted" <;> simp [isTrusted, Untrusted, hflag]

theorem isTrusted_eq {expected : Json} : isTrusted value = isTrusted expected ↔ (Untrusted value ↔ Untrusted expected) := by
  rw [Bool.eq_iff_iff, isTrusted_eq_true, isTrusted_eq_true, not_iff_not]

structure Derives (derived observation : CommittedEvent) : Prop where
  intro ::
  values : ∃ value expected, observationValue observation = .ok value ∧ observationValue derived = .ok expected ∧
    expected.index "originEventId" = .string observation.eventId ∧
    value.index "provider" = expected.index "provider" ∧
    value.index "externalSenderId" = expected.index "externalSenderId" ∧
    value.index "conversationId" = expected.index "conversationId" ∧
    (Untrusted value ↔ Untrusted expected)

/-- A path along causation links from a request to the observation its authority comes from. -/
structure OriginPath (a : OriginAuthority) (log : Log) (request : CommittedEvent) (path : List CommittedEvent)
    (origin : CommittedEvent) : Prop where
  starts : path.head? = some request
  ends : path.getLast? = some origin
  causes : path.IsChain (Causes log)
  stream : ∀ event ∈ path, event.request.streamId = a.agent.id
  observation : isObservation origin = true
  recognized : ∃ connector, a.connectorOf origin = .ok connector ∧ connector.inheritsOrigin = false
  derived : (path.filter isObservation).IsChain Derives

theorem parentOf_ok {failure : Option AppendError} {parent : CommittedEvent}
    (h : parentOf failure log origin = .ok parent) : Causes log origin parent := by
  unfold parentOf at h
  split at h
  · cases h
  rename_i cause hcause
  split at h
  · cases h
  split at h
  · cases h
  rename_i found hget
  split at h
  · cases h
  rename_i hlt
  cases h
  have hid : parent.eventId = cause := by simpa using find?_some hget
  exact ⟨hid ▸ hcause, mem_of_find?_eq_some hget, Nat.lt_of_not_le hlt⟩

/-- What the walk carries from a derived observation to the next one. -/
def Expects (inherited : Inherited) (observation : CommittedEvent) : Prop :=
  ∀ expected ∈ inherited, observation.eventId = expected.1 ∧
    ∃ value, observationValue observation = .ok value ∧ agreesOn value expected.2 = true

theorem expects_of_unchanged (hvalue : observationValue observation = .ok value)
    (h : changesOrigin inherited observation value = false) : Expects inherited observation := by
  intro expected hexpected
  rw [Option.mem_def] at hexpected
  simp only [changesOrigin, hexpected, Option.any_some, Bool.or_eq_false_iff, Bool.not_eq_false',
    decide_eq_false_iff_not, not_not] at h
  exact ⟨h.1, value, hvalue, h.2⟩

theorem asStr_some {text : String} (h : value.asStr = some text) : value = .string text := by
  cases value <;> simp_all [Json.asStr]

theorem visit_ok {visit : Visit} (h : a.visit origin inherited = .ok visit) :
    origin.request.streamId = a.agent.id ∧
    ((isObservation origin = false ∧ visit = .follow inherited) ∨
      (isObservation origin = true ∧ Expects inherited origin ∧
        ∃ connector value, a.connectorOf origin = .ok connector ∧ observationValue origin = .ok value ∧
          ((connector.inheritsOrigin = true ∧
              ∃ id, value.index "originEventId" = .string id ∧ visit = .follow (some (id, value))) ∨
            (connector.inheritsOrigin = false ∧
              ∃ authority, a.issue origin = .ok authority ∧ visit = .issued authority)))) := by
  unfold OriginAuthority.visit at h
  split at h
  · cases h
  rename_i hstream
  refine ⟨not_not.mp hstream, ?_⟩
  split at h
  · rename_i htype
    cases h
    exact .inl ⟨by simpa [isObservation] using htype, rfl⟩
  rename_i htype
  refine .inr ⟨by simpa [isObservation] using htype, ?_⟩
  cases hconnector : a.connectorOf origin with
  | error e => simp [hconnector, bind, Except.bind] at h
  | ok connector =>
    cases hvalue : observationValue origin with
    | error e => simp [hconnector, hvalue, bind, Except.bind] at h
    | ok value =>
      simp only [hconnector, hvalue, bind, Except.bind] at h
      split at h
      · cases h
      rename_i hchanges
      refine ⟨expects_of_unchanged hvalue (by simpa using hchanges), connector, value, rfl, rfl, ?_⟩
      split at h
      · rename_i hinherits
        split at h
        · cases h
        · rename_i id hid
          cases h
          exact .inl ⟨hinherits, id, asStr_some hid, rfl⟩
      · rename_i hinherits
        cases hissue : a.issue origin with
        | error e => simp [hissue, Except.map] at h
        | ok authority =>
          simp only [hissue, Except.map, Except.ok.injEq] at h
          exact .inr ⟨by simpa using hinherits, authority, rfl, h.symm⟩

theorem agreesOn_iff {expected : Json} :
    agreesOn value expected = true ↔
      value.index "provider" = expected.index "provider" ∧
      value.index "externalSenderId" = expected.index "externalSenderId" ∧
      value.index "conversationId" = expected.index "conversationId" ∧
      (Untrusted value ↔ Untrusted expected) := by
  simp [agreesOn, and_assoc, isTrusted_eq]

theorem OriginPath.cons {request parent source : CommittedEvent} {path : List CommittedEvent}
    (h : OriginPath a log parent path source) (hcauses : Causes log request parent)
    (hstream : request.request.streamId = a.agent.id)
    (hderives : isObservation request = true →
      ∀ first ∈ (path.filter isObservation).head?, Derives request first) :
    OriginPath a log request (request :: path) source where
  starts := rfl
  ends := by
    rw [getLast?_cons, h.ends]
    rfl
  causes := by
    refine isChain_cons.mpr ⟨fun next hnext => ?_, h.causes⟩
    rw [h.starts, Option.mem_def, Option.some.injEq] at hnext
    exact hnext ▸ hcauses
  stream := by
    intro event hevent
    rcases mem_cons.mp hevent with rfl | hevent
    · exact hstream
    · exact h.stream event hevent
  observation := h.observation
  recognized := h.recognized
  derived := by
    rw [filter_cons]
    split
    · rename_i hobservation
      exact isChain_cons.mpr ⟨hderives hobservation, h.derived⟩
    · exact h.derived

theorem derives_of_expects {derived : CommittedEvent} {id : String} (hvalue : observationValue derived = .ok value)
    (hid : value.index "originEventId" = .string id) (h : Expects (some (id, value)) observation) :
    Derives derived observation := by
  obtain ⟨heq, observed, hobserved, hagrees⟩ := h _ rfl
  subst heq
  exact ⟨observed, value, hobserved, hvalue, hid, agreesOn_iff.mp hagrees⟩

theorem walk_ok {n : Nat} {authority : Authority} (h : a.walk failures log n origin inherited = .ok authority) :
    ∃ path source, OriginPath a log origin path source ∧ a.issue source = .ok authority ∧
      ∀ first ∈ (path.filter isObservation).head?, Expects inherited first := by
  induction n generalizing origin inherited with
  | zero => cases h
  | succ n ih =>
    unfold walk at h
    cases hvisit : a.visit origin inherited with
    | error e => simp [hvisit, bind, Except.bind] at h
    | ok visit =>
      simp only [hvisit, bind, Except.bind] at h
      obtain ⟨hstream, ⟨hother, rfl⟩ | ⟨hobservation, hexpects, connector, value, hconnector, hvalue,
        ⟨hinherits, id, hid, rfl⟩ | ⟨hinherits, issued, hissue, rfl⟩⟩⟩ := visit_ok hvisit
      · cases hparent : parentOf (failures n) log origin with
        | error e => simp [hparent] at h
        | ok parent =>
          simp only [hparent] at h
          obtain ⟨path, source, hpath, hissue, hfirst⟩ := ih h
          refine ⟨origin :: path, source, hpath.cons (parentOf_ok hparent) hstream ?_, hissue, ?_⟩
          · exact fun hobservation => absurd (hother.symm.trans hobservation) (by simp)
          · rw [filter_cons_of_neg (by simp [hother])]
            exact hfirst
      · cases hparent : parentOf (failures n) log origin with
        | error e => simp [hparent] at h
        | ok parent =>
          simp only [hparent] at h
          obtain ⟨path, source, hpath, hissue, hfirst⟩ := ih h
          refine ⟨origin :: path, source, hpath.cons (parentOf_ok hparent) hstream ?_, hissue, ?_⟩
          · exact fun _ first hmem => derives_of_expects hvalue hid (hfirst first hmem)
          · rw [filter_cons_of_pos hobservation]
            rintro first ⟨⟩
            exact hexpects
      · cases h
        refine ⟨[origin], origin, ⟨rfl, rfl, .singleton _, by simpa using hstream, hobservation,
          ⟨connector, hconnector, hinherits⟩, ?_⟩, hissue, ?_⟩
        · rw [filter_cons_of_pos hobservation]
          exact .singleton _
        · rw [filter_cons_of_pos hobservation]
          rintro first ⟨⟩
          exact hexpects

/-- What an authority grants for an observation of a connector: nothing when it is untrusted,
and otherwise the standing grants, with the reply capabilities confined to its conversation. -/
structure Grants (a : OriginAuthority) (observation : CommittedEvent) (connector : Connector)
    (authority : Authority) : Prop where
  intro ::
  value : ∃ value conversation, observationValue observation = .ok value ∧
    value.index "conversationId" = .string conversation ∧
    (Untrusted value → authority.grants = [] ∧ authority.audiences = []) ∧
    (¬ Untrusted value → ∀ capability,
      authority.grants.find capability =
        if capability ∈ connector.replyCapabilities then
          some [⟨capability, some ⟨.component, connector.reply⟩,
            .json (.object [("conversation_ids", .array [.string conversation])])⟩]
        else a.grants.find capability)

theorem find_replyGrants (connector : Connector) (conversation : String) (capabilities : List CapabilityName)
    (grants : Core.Grants) (capability : CapabilityName) :
    (capabilities.foldl (fun grants capability =>
        grants.insert capability [replyGrant connector conversation capability]) grants).find capability =
      if capability ∈ capabilities then some [replyGrant connector conversation capability]
      else grants.find capability := by
  induction capabilities generalizing grants with
  | nil => simp
  | cons first rest ih =>
    rw [foldl_cons, ih, Table.find_insert]
    by_cases hrest : capability ∈ rest
    · simp [hrest]
    · by_cases hfirst : first = capability
      · subst hfirst
        simp
      · simp [hrest, hfirst, Ne.symm hfirst]

theorem issue_grants {connector : Connector} {authority : Authority}
    (hconnector : a.connectorOf observation = .ok connector) (h : a.issue observation = .ok authority) :
    Grants a observation connector authority := by
  unfold issue at h
  cases hvalue : observationValue observation with
  | error e => simp [hconnector, hvalue, bind, Except.bind] at h
  | ok value =>
    simp only [hconnector, hvalue, bind, Except.bind] at h
    split at h
    · cases h
    split at h
    · cases h
    rename_i conversation hconversation
    split at h
    · cases h
    cases h
    refine ⟨value, conversation, hvalue, asStr_some hconversation, fun htrusted => ?_, fun htrusted capability => ?_⟩
    · rw [← not_not (a := Untrusted value), ← isTrusted_eq_true, Bool.not_eq_true] at htrusted
      simp [issuedGrants, htrusted]
    · simp only [issuedGrants, isTrusted_eq_true.mpr htrusted, if_true]
      exact find_replyGrants connector conversation _ _ capability

/-- Authority never escalates: it is always the one issued for a single observation of a
connector on the agent's own stream, reached by causation through observations that agree. -/
theorem resolve_never_escalates (a : OriginAuthority) (failures : Nat → Option AppendError) (log : Log)
    (request : CommittedEvent) (authority : Authority) (h : a.resolve failures log request = .ok authority) :
    ∃ path origin connector, OriginPath a log request path origin ∧
      a.connectorOf origin = .ok connector ∧ connector ∈ a.connectors ∧ connector.inheritsOrigin = false ∧
      origin.request.actor = ⟨.component, connector.ingress⟩ ∧
      a.issue origin = .ok authority ∧ Grants a origin connector authority := by
  obtain ⟨path, origin, hpath, hissue, -⟩ := walk_ok h
  obtain ⟨connector, hconnector, hinherits⟩ := hpath.recognized
  have hfind : a.connectors.find? (fun connector => origin.request.actor = ⟨.component, connector.ingress⟩) =
      some connector := by
    unfold connectorOf at hconnector
    split at hconnector
    · rename_i hfind
      cases hconnector
      exact hfind
    · cases hconnector
  refine ⟨path, origin, connector, hpath, hconnector, mem_of_find?_eq_some hfind, hinherits, ?_, hissue,
    issue_grants hconnector hissue⟩
  simpa using find?_some hfind

def telegram : Connector := ⟨"telegram", false, "telegram-1/receive", "telegram-1/send", ["telegram.send"]⟩

def scheduler : Connector := ⟨"scheduler", true, "scheduler", "scheduler", []⟩

def personal : OriginAuthority := ⟨⟨.agent, "personal"⟩, [telegram, scheduler], [("shell.run", [])], 4⟩

def agentRequest (eventType : String) (payload : Json) (actor : PrincipalRef) (cause : Option EventId) :
    AppendRequest :=
  ⟨"personal", .agent, none, eventType, "test/1", .canonicalJson (.json payload), actor, none, none, none, cause,
    none⟩

def strangerSays (more : List (String × Json)) : Json :=
  .object ([("conversationId", .string "c"), ("externalSenderId", .string "s")] ++ more ++
    [("provider", .string "telegram"), ("trusted", .bool false)])

/-- A schedule set by a stranger fires, and a capability is requested. -/
def strangerLog : Log :=
  ((Log.empty.appended "message" 1 (agentRequest "observation.received" (strangerSays [])
    ⟨.component, "telegram-1/receive"⟩ none)).appended "fired" 2 (agentRequest "observation.received"
      (strangerSays [("originEventId", .string "message")]) ⟨.component, "scheduler"⟩ (some "message"))).appended "call" 3
    (agentRequest "capability.requested" (.object [("capability", .string "shell.run")]) ⟨.component, "rlm-1"⟩ (some "fired"))

theorem resolve_never_escalates_stranger : ∃ request ∈ strangerLog.events, ∃ authority,
    personal.resolve (fun _ => none) strangerLog request = .ok authority ∧ authority.grants = [] ∧
    ∃ path origin connector, OriginPath personal strangerLog request path origin ∧
      origin.request.actor = ⟨.component, connector.ingress⟩ ∧ Grants personal origin connector authority := by
  have hresolve : ∃ request ∈ strangerLog.events, ∃ authority,
      personal.resolve (fun _ => none) strangerLog request = .ok authority ∧ authority.grants = [] :=
    ⟨strangerLog.events.getLast (by decide), getLast_mem _, _, rfl, rfl⟩
  obtain ⟨request, hmem, authority, hresolve, hempty⟩ := hresolve
  obtain ⟨path, origin, connector, hpath, -, -, -, hactor, -, hgrants⟩ :=
    resolve_never_escalates personal (fun _ => none) strangerLog request authority hresolve
  exact ⟨request, hmem, authority, hresolve, hempty, path, origin, connector, hpath, hactor, hgrants⟩

end Pluribus.Cognition.OriginAuthority
