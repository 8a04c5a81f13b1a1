import Pluribus.Cognition.Admission

namespace Pluribus.Cognition

open Lib Pluribus.Core Storage ProjectedConstraints List Option

/-- Matches operator allowlists against host-projected request selectors. -/
def OriginConstraints.allows (grant : Grant) (selectors : JsonBytes) : Except String Bool := do
  let constraints ← grant.constraints.parse
  let selectors ← selectors.parse
  match constraints with
  | .object constraints =>
    .ok (constraints.all fun entry =>
      entry.2.asArray.any fun values => (selectors.get entry.1).any values.contains)
  | _ => .error "constraints must be an object"

def originConstraints : ConstraintPolicy where
  allows := OriginConstraints.allows
  allowsProjected grant _ selectors := OriginConstraints.allows grant selectors

def Router.routeRequest (router : Router) (event : CommittedEvent) (authority : Authority) (nowMs : Int) :
    RouterM Routed :=
  match payloadField event "capability" with
  | none => pure (.noProvider "request has no capability name")
  | some capability => do
    let routed := router.decideRequest event capability authority nowMs
    router.appendDecision event capability routed
    return routed

/-- The selector a binding projects from the arguments. -/
def ConstraintBinding.project (request : Json) (binding : ConstraintBinding) : Option Json :=
  if binding.parts = [] then none else (selector request binding.parts).map .string

/-- The documented rule: every key has an allowlist with its selector, and no required key is missing. -/
def Permits (bindings : Table String ConstraintBinding) (request : Json) (grant : Grant) : Prop :=
  ∃ entries, grant.constraints = .json (.object entries) ∧
    (∀ entry ∈ entries, ∃ values, entry.2.asArray = some values ∧
      ∃ value, (bindings.find entry.1).bind (·.project request) = some value ∧ value ∈ values) ∧
    ∀ row ∈ bindings, row.2.required → ∃ entry ∈ entries, entry.1 = row.1

variable {bindings : Table String ConstraintBinding} {constraints request : Json} {grant : Grant}
  {fields : List (String × Json)} {key : String}

theorem selectors_cons (row : String × ConstraintBinding) :
    selectors constraints request (row :: bindings) =
      if (constraints.get row.1).isSome then
        (row.2.project request).bind fun text => (selectors constraints request bindings).map ((row.1, text) :: ·)
      else if row.2.required then none else selectors constraints request bindings := by
  rw [selectors, ConstraintBinding.project]
  cases constraints.get row.1 with
  | none => rfl
  | some allowed =>
    by_cases hparts : row.2.parts = []
    · simp [hparts]
    · cases selector request row.2.parts <;> simp [hparts]

theorem get_selectors (hkeys : bindings.keys.Nodup) (h : selectors constraints request bindings = some fields)
    (hkey : (constraints.get key).isSome) :
    (Json.ofFields fields).get key = (bindings.find key).bind (·.project request) := by
  rw [Json.get_ofFields]
  induction bindings generalizing fields with
  | nil =>
    cases h
    rfl
  | cons row rest ih =>
    obtain ⟨hrow, hkeys⟩ := nodup_cons.mp hkeys
    rw [selectors_cons] at h
    rw [Table.find_cons]
    split at h
    · obtain ⟨text, htext, h⟩ := bind_eq_some_iff.mp h
      obtain ⟨fields, hfields, rfl⟩ := map_eq_some_iff.mp h
      rw [reverse_cons, find?_append, map_or, ih hkeys hfields]
      by_cases heq : row.1 = key
      · have hrest : Table.find rest key = none := Table.find_of_not_mem (heq ▸ hrow)
        simp [heq, hrest, htext]
      · simp [heq]
    · rename_i hmissing
      rw [if_neg (by rintro rfl; exact hmissing hkey)]
      split at h
      · cases h
      · exact ih hkeys h

theorem selectors_isSome_iff :
    (selectors constraints request bindings).isSome ↔ ∀ row ∈ bindings,
      if (constraints.get row.1).isSome then (row.2.project request).isSome else row.2.required = false := by
  induction bindings with
  | nil => simp [selectors]
  | cons row rest ih =>
    rw [selectors_cons, forall_mem_cons, ← ih]
    split
    · cases row.2.project request <;> simp
    · cases row.2.required <;> simp

theorem isSome_get {entries : List (String × Json)} :
    ((Json.object entries).get key).isSome ↔ ∃ entry ∈ entries, entry.1 = key := by
  simp [Json.get, Table.find]

theorem allows_ok :
    ProjectedConstraints.allows originConstraints (some bindings) (.json request) grant = .ok true ↔
      ∃ entries fields, grant.constraints = .json (.object entries) ∧
        selectors (.object entries) request bindings = some fields ∧
        ∀ entry ∈ entries, ∃ values, entry.2.asArray = some values ∧
          ∃ value, (Json.ofFields fields).get entry.1 = some value ∧ value ∈ values := by
  unfold ProjectedConstraints.allows
  cases hconstraints : grant.constraints with
  | other bytes message => simp [JsonBytes.parse, bind, Except.bind]
  | json value =>
    cases value with
    | object entries =>
      cases h : selectors (.object entries) request bindings <;>
        simp [JsonBytes.parse, bind, Except.bind, h, hconstraints, originConstraints, OriginConstraints.allows,
          Option.any_eq_true]
    | _ => simp [JsonBytes.parse, bind, Except.bind]

/-- The host's rule of a grant is the documented one, the keys of the bindings being those of a map. -/
theorem allows_iff (hkeys : bindings.keys.Nodup) :
    ProjectedConstraints.allows originConstraints (some bindings) (.json request) grant = .ok true ↔
      Permits bindings request grant := by
  rw [allows_ok]
  constructor
  · rintro ⟨entries, fields, hconstraints, h, hentries⟩
    refine ⟨entries, hconstraints, fun entry hentry => ?_, fun row hrow hrequired => ?_⟩
    · rw [← get_selectors hkeys h (isSome_get.mpr ⟨entry, hentry, rfl⟩)]
      exact hentries entry hentry
    · by_contra hmissing
      have hfits := selectors_isSome_iff.mp (isSome_of_eq_some h) row hrow
      rw [if_neg (mt isSome_get.mp hmissing), hrequired] at hfits
      cases hfits
  · rintro ⟨entries, hconstraints, hentries, hrequired⟩
    have hsome : (selectors (.object entries) request bindings).isSome := by
      refine selectors_isSome_iff.mpr fun row hrow => ?_
      split
      · rename_i hkey
        obtain ⟨entry, hentry, hkey⟩ := isSome_get.mp hkey
        obtain ⟨_, -, value, hvalue, -⟩ := hentries entry hentry
        rw [hkey, Table.find_of_mem hkeys hrow] at hvalue
        exact isSome_of_eq_some hvalue
      · rename_i hkey
        exact Bool.eq_false_iff.mpr fun h => hkey (isSome_get.mpr (hrequired row hrow h))
    obtain ⟨fields, h⟩ := isSome_iff_exists.mp hsome
    refine ⟨entries, fields, hconstraints, h, fun entry hentry => ?_⟩
    rw [get_selectors hkeys h (isSome_get.mpr ⟨entry, hentry, rfl⟩)]
    exact hentries entry hentry

theorem decideGrants_allow {allows : Grant → Except String Bool} {seen : Bool} {policyError : Option String}
    {grants : List Grant} :
    (∃ grant, Authority.decideGrants allows seen policyError grants = .allow grant) ↔
      ∃ grant ∈ grants, allows grant = .ok true := by
  induction grants generalizing seen policyError with
  | nil => cases policyError <;> cases seen <;> simp [Authority.decideGrants]
  | cons grant rest ih =>
    rw [Authority.decideGrants]
    cases hallows : allows grant with
    | error message => simp [ih, hallows]
    | ok allowed => cases allowed <;> simp [ih, hallows]

/-- The authority is unexpired and within its depth, and one of its grants is open to the provider and allowed. -/
def Holds (authority : Authority) (capability : CapabilityName) (provider : PrincipalRef) (nowMs : Int)
    (allowed : Grant → Prop) : Prop :=
  authority.isExpiredAt nowMs = false ∧ authority.currentDepth ≤ authority.maxDepth ∧
    ∃ grant ∈ (authority.grants.find capability).getD [], grant.provider.all (· = provider) ∧ allowed grant

theorem decide_allow {authority : Authority} {capability : CapabilityName} {provider : PrincipalRef}
    {allows : Grant → Except String Bool} {nowMs : Int} :
    (∃ grant, authority.decide capability provider allows nowMs = .allow grant) ↔
      Holds authority capability provider nowMs (allows · = .ok true) := by
  unfold Authority.decide Holds
  cases authority.isExpiredAt nowMs with
  | true => simp
  | false =>
    by_cases hdepth : authority.currentDepth > authority.maxDepth
    · simp [hdepth]
    · cases authority.grants.find capability <;>
        simp [hdepth, Nat.not_lt.mp hdepth, decideGrants_allow, and_assoc]

namespace Router

variable (router : Router) (event : CommittedEvent) (authority : Authority) (nowMs : Int) (id : String)

/-- The instance is the only provider of the capability, and the authority holds a grant that `allowed` accepts. -/
def Delivers (capability : CapabilityName) (allowed : Table String ConstraintBinding → Json → Grant → Prop) : Prop :=
  ∃ registration, router.providers capability = [registration] ∧ registration.instanceId = id ∧
    Holds authority capability ⟨.component, id⟩ nowMs
      (allowed ((registration.subscriptions.constraintBindings.find capability).getD []) (argumentsOf event))

theorem decideRequest_deliver (capability : CapabilityName) :
    router.decideRequest event capability authority nowMs = .deliver id ↔
      router.Delivers event authority nowMs id capability fun bindings request grant =>
        ProjectedConstraints.allows router.constraints (some bindings) (.json request) grant = .ok true := by
  unfold decideRequest Delivers
  split
  · rename_i hnone
    simp [hnone]
  · rename_i registration hone
    simp only [hone, List.cons.injEq, and_true, exists_eq_left']
    constructor
    · intro hdeliver
      split at hdeliver
      · rename_i grant hallow
        cases hdeliver
        exact ⟨rfl, decide_allow.mp ⟨grant, hallow⟩⟩
      · cases hdeliver
    · rintro ⟨rfl, hholds⟩
      obtain ⟨grant, hallow⟩ := decide_allow.mpr hholds
      split
      · rfl
      · rename_i hdeny
        cases hdeny.symm.trans hallow
  · rename_i hmany
    constructor
    · intro h
      cases h
    · rintro ⟨registration, hone, -⟩
      exact absurd hone (hmany registration)

variable {W : Type} (handler : (op : StoreOp) → W → op.Res × W) (w : W)

theorem run_after {x : RouterM Unit} {routed routed' : Routed} :
    (Prog.run handler (do x; return routed : RouterM Routed) w).1 = .ok routed' ↔
      (Prog.run handler x w).1 = .ok () ∧ routed = routed' := by
  induction x generalizing w with
  | done r =>
    cases r <;> simp [Prog.run, bind, pure, Prog.bind, ExceptT.bind, ExceptT.mk, ExceptT.bindCont, ExceptT.pure]
  | call op next ih => exact ih _ _

/-- The call answers that the request goes to the instance. -/
def Routes : Prop := (Prog.run handler (router.routeRequest event authority nowMs) w).1 = .ok (.deliver id)

/-- A request goes where `allowed` lets it, once the decision is in the log. -/
def RoutesBy (allowed : Table String ConstraintBinding → Json → Grant → Prop) : Prop :=
  ∃ capability, payloadField event "capability" = some capability ∧
    (Prog.run handler (router.appendDecision event capability (.deliver id)) w).1 = .ok () ∧
    router.Delivers event authority nowMs id capability allowed

theorem routes_iff :
    router.Routes event authority nowMs id handler w ↔
      router.RoutesBy event authority nowMs id handler w fun bindings request grant =>
        ProjectedConstraints.allows router.constraints (some bindings) (.json request) grant = .ok true := by
  unfold Routes RoutesBy routeRequest
  cases payloadField event "capability" with
  | none => simp [Prog.run, pure, ExceptT.pure, ExceptT.mk]
  | some capability =>
    simp only [run_after, some.injEq, exists_eq_left', ← decideRequest_deliver]
    constructor
    · rintro ⟨haudit, hdeliver⟩
      exact ⟨hdeliver ▸ haudit, hdeliver⟩
    · rintro ⟨haudit, hdeliver⟩
      exact ⟨hdeliver ▸ haudit, hdeliver⟩

/-- The gate decides the documented rule, and whether it delivers does not depend on any order. -/
theorem gate_decides :
    (router.constraints = originConstraints →
      (∀ registration ∈ router.registrations, ∀ row ∈ registration.subscriptions.constraintBindings, row.2.keys.Nodup) →
      (router.Routes event authority nowMs id handler w ↔
        router.RoutesBy event authority nowMs id handler w Permits)) ∧
    ∀ registrations grants, registrations.Perm router.registrations →
      (∀ capability, ((Table.find grants capability).getD []).Perm ((authority.grants.find capability).getD [])) →
      ({ router with registrations := registrations }.Routes event { authority with grants := grants } nowMs id handler w ↔
        router.Routes event authority nowMs id handler w) := by
  constructor
  · intro hpolicy hkeys
    rw [routes_iff, hpolicy]
    refine exists_congr fun capability => and_congr_right fun _ => and_congr_right fun _ => ?_
    refine exists_congr fun registration => and_congr_right fun hone => and_congr_right fun _ => ?_
    have hmem : registration ∈ router.registrations := mem_of_mem_filter (hone ▸ mem_singleton_self _)
    have hnodup : ((registration.subscriptions.constraintBindings.find capability).getD []).keys.Nodup := by
      cases hfind : registration.subscriptions.constraintBindings.find capability with
      | none => exact nodup_nil
      | some bindings =>
        obtain ⟨row, hrow, rfl⟩ := map_eq_some_iff.mp hfind
        exact hkeys registration hmem row (mem_of_find?_eq_some hrow)
    simp only [Holds, allows_iff hnodup]
  · intro registrations grants hregistrations hgrants
    rw [routes_iff, routes_iff]
    refine exists_congr fun capability => and_congr_right fun _ => and_congr Iff.rfl ?_
    have hproviders := hregistrations.filter (·.subscriptions.capabilities.contains capability)
    refine exists_congr fun registration => and_congr ⟨fun h => ?_, fun h => ?_⟩ (and_congr_right fun _ => ?_)
    · exact perm_singleton.mp (h ▸ hproviders.symm)
    · exact perm_singleton.mp (h ▸ hproviders)
    · simp only [Holds, (hgrants capability).mem_iff]
      rfl

def granted (grants : List Grant) : Authority where
  schema := Authority.SCHEMA
  authorityId := "origin:event-1"
  agent := ⟨.agent, "personal"⟩
  origin := ⟨.autonomous, none, none, none, "event-1", true⟩
  delegationChain := []
  grants := [("web.read", grants)]
  audiences := []
  parentAuthority := none
  issuedAtMs := 0
  expiresAtMs := none
  maxDepth := 0
  currentDepth := 0

/-- Requests to `reader` are to name one of the hosts of a grant. -/
def hostRouter : Router :=
  let bindings := [("web.read", [("host", ⟨[⟨"/host", "", false⟩], true⟩)])]
  { Admission.readerRouter with
    registrations := [{ Admission.reader with
      subscriptions := { Admission.reader.subscriptions with constraintBindings := bindings } }]
    constraints := originConstraints }

def hostRequest : CommittedEvent :=
  Admission.requested [("capability", .string "web.read"), ("arguments", .object [("host", .string "b")])]

def hostGrants (hosts : List String) : Authority :=
  granted (hosts.map fun host => ⟨"web.read", none, .json (.object [("host", .array [.string host])])⟩)

theorem gate_decides_host :
    hostRouter.RoutesBy hostRequest (hostGrants ["a", "b"]) 0 "reader" StoreOp.serve Store.empty Permits ∧
      hostRouter.Routes hostRequest (hostGrants ["b", "a"]) 0 "reader" StoreOp.serve Store.empty := by
  have hroutes : hostRouter.Routes hostRequest (hostGrants ["a", "b"]) 0 "reader" StoreOp.serve Store.empty := by
    unfold Routes
    decide +kernel
  obtain ⟨hrule, horder⟩ := gate_decides hostRouter hostRequest (hostGrants ["a", "b"]) 0 "reader" StoreOp.serve Store.empty
  refine ⟨(hrule rfl (by decide +kernel)).mp hroutes, ?_⟩
  refine (horder hostRouter.registrations (hostGrants ["b", "a"]).grants (.refl _) fun capability => ?_).mpr hroutes
  rw [hostGrants, hostGrants, granted, granted, Table.find_cons, Table.find_cons]
  split
  · exact .swap _ _ _
  · exact .refl _
def answer (messages : List String) : Except RouterError Routed :=
  (Prog.run StoreOp.serve (Admission.readerRouter.routeRequest Admission.fieldRequest
    (granted (messages.map fun message => ⟨"web.read", none, .other [] message⟩)) 0) Store.empty).1

/-- Of two malformed grants the second gives the reason of the denial. -/
theorem denial_follows_order :
    answer ["a", "b"] = .ok (.denied "policy error: b") ∧ answer ["b", "a"] = .ok (.denied "policy error: a") := by
  decide +kernel

end Router

end Pluribus.Cognition
