import Pluribus.Github.Webhook
import Pluribus.Lib.Results

namespace Pluribus.Github

open Lib Pluribus.Core Storage Pluribus.Runtime List Option

section Checked

variable {lib : Library} {around : Surroundings} {config : Config} {stored : Option Bytes} {request : Json}

theorem refuse_ok {α : Type} {status : Nat} {found : Option α} {a : α} (h : refuse status found = .ok a) :
    found = some a := by
  cases found with
  | none => cases h
  | some b =>
    cases h
    rfl

structure Passed (lib : Library) (around : Surroundings) (config : Config) (stored : Option Bytes) (request : Json)
    (delivery : Checked) (signature secret : String) (bytes : Bytes) (authorized : Bool) : Prop where
  method : request.index "method" = .string "POST"
  header : Github.header lib request "x-hub-signature-256" = some signature
  kind : (Github.header lib request "x-github-event").filter isKind = some delivery.kind
  id : (Github.header lib request "x-github-delivery").filter isDelivery = some delivery.id
  loaded : load lib around stored = .ok (delivery.previous, delivery.doc)
  keyed : ((delivery.doc.index "app").index "webhook_secret").asStr = some secret
  decoded : lib.decode ((request.index "body").asStr.getD "") = some bytes
  verified : verify lib secret signature bytes = true
  parsed : lib.fromSlice bytes = some delivery.body
  checked : repositoryAuthorized around delivery.kind delivery.doc delivery.body = .ok authorized
  admitted : admitted delivery.body delivery.kind config.owner
    ⟨(delivery.doc.index "app").index "id", delivery.doc.index "installation_id", authorized⟩ = true
  nonzero : isLifecycle delivery.kind = true →
    ((delivery.body.index "installation").index "id").asU64.all (· = 0) = false

/-- A request that is signed and of an admitted kind. -/
def Accepted (lib : Library) (around : Surroundings) (config : Config) (stored : Option Bytes) (request : Json)
    (delivery : Checked) : Prop :=
  ∃ signature secret bytes authorized,
    Passed lib around config stored request delivery signature secret bytes authorized

theorem checked_ok {delivery : Checked} (h : checked lib around config stored request = .ok delivery) :
    Accepted lib around config stored request delivery := by
  unfold checked at h
  split at h
  · cases h
  rename_i hmethod
  obtain ⟨signature, hsignature, h⟩ := except_bind_ok.mp h
  obtain ⟨kind, hkind, h⟩ := except_bind_ok.mp h
  obtain ⟨id, hid, h⟩ := except_bind_ok.mp h
  obtain ⟨⟨previous, doc⟩, hload, h⟩ := except_bind_ok.mp h
  obtain ⟨secret, hsecret, h⟩ := except_bind_ok.mp h
  obtain ⟨bytes, hbytes, h⟩ := except_bind_ok.mp h
  split at h
  · cases h
  rename_i hverify
  obtain ⟨body, hbody, h⟩ := except_bind_ok.mp h
  obtain ⟨authorized, hauthorized, h⟩ := except_bind_ok.mp h
  split at h
  · cases h
  rename_i hadmitted
  split at h
  · cases h
  rename_i hnonzero
  cases h
  have hloaded : load lib around stored = .ok (previous, doc) := by
    cases hstored : load lib around stored with
    | error error => simp [hstored, Except.mapError] at hload
    | ok loaded => simpa [hstored, Except.mapError] using hload
  exact ⟨signature, secret, bytes, authorized, not_not.mp hmethod, refuse_ok hsignature, refuse_ok hkind, refuse_ok hid,
    hloaded, refuse_ok hsecret, refuse_ok hbytes, by simpa using hverify, refuse_ok hbody, hauthorized,
    by simpa using hadmitted, fun hlifecycle => by simpa [hlifecycle] using hnonzero⟩

theorem checked_of_accepted {delivery : Checked} (h : Accepted lib around config stored request delivery) :
    checked lib around config stored request = .ok delivery := by
  obtain ⟨signature, secret, bytes, authorized, h⟩ := h
  have hnonzero : ¬ (isLifecycle delivery.kind &&
      ((delivery.body.index "installation").index "id").asU64.all (· = 0)) = true := by
    rw [Bool.and_eq_true, not_and, Bool.not_eq_true]
    exact h.nonzero
  unfold checked
  rw [if_neg (not_not.mpr h.method), h.header, h.kind, h.id, h.loaded]
  simp only [refuse, Except.mapError, bind, Except.bind, h.keyed, h.decoded, h.verified, h.parsed, h.checked, h.admitted,
    Bool.not_true, Bool.false_eq_true, if_false, hnonzero]
  rfl

/-- A result that is an error only with the status of a check. -/
def Refused {α : Type} (x : Except Nat α) : Prop := ∀ status, x = .error status → status ∈ [400, 401, 403, 405, 503]

namespace Refused

variable {α β : Type} {status : Nat} {x : Except Nat α} {f : α → Except Nat β}

theorem error (h : status ∈ [400, 401, 403, 405, 503]) : Refused (.error status : Except Nat α) :=
  fun _ heq => Except.error.inj heq ▸ h

theorem refuse (h : status ∈ [400, 401, 403, 405, 503]) (found : Option α) : Refused (Github.refuse status found) := by
  cases found with
  | none => exact error h
  | some a => nofun

theorem bind (hx : Refused x) (hf : ∀ a, Refused (f a)) : Refused (x >>= f) := by
  cases x with
  | error status => exact error (hx status rfl)
  | ok a => exact hf a

end Refused

theorem repositoryAuthorized_refused (kind : String) (doc body : Json) :
    Refused (repositoryAuthorized around kind doc body) := by
  unfold repositoryAuthorized
  split
  · nofun
  refine .bind (.refuse (by decide) _) fun id => .bind (.refuse (by decide) _) fun token => ?_
  split
  · exact .error (by decide)
  split
  · nofun
  · exact .error (by decide)
  · exact .error (by decide)

theorem checked_refused : Refused (checked lib around config stored request) := by
  unfold checked
  split
  · exact .error (by decide)
  refine .bind (.refuse (by decide) _) fun signature => .bind (.refuse (by decide) _) fun kind =>
    .bind (.refuse (by decide) _) fun id => .bind ?_ fun loaded => .bind (.refuse (by decide) _) fun secret =>
      .bind (.refuse (by decide) _) fun bytes => ?_
  · cases load lib around stored with
    | error => exact .error (show 503 ∈ [400, 401, 403, 405, 503] by decide)
    | ok => nofun
  split
  · exact .error (by decide)
  refine .bind (.refuse (by decide) _) fun body => .bind (repositoryAuthorized_refused _ _ _) fun authorized => ?_
  split
  · exact .error (by decide)
  split
  · exact .error (by decide)
  · nofun

end Checked

section Sound

variable (lib : Library) (around : Surroundings) (config : Config) (request doc body : Json) (kind : String)

/-- The one signature header of a request holds the HMAC of the bytes under the secret. -/
structure Signed (secret : String) (bytes : Bytes) : Prop where
  decoded : lib.decode ((request.index "body").asStr.getD "") = some bytes
  signature : ∃ headers pair text hex, (request.index "headers").asArray = some headers ∧
    headers.filter (fun pair => (pair.nth 0).asStr.any fun s => Http.eqIgnoreAsciiCase s "x-hub-signature-256") = [pair] ∧
    ((pair.nth 1).asStr.bind lib.decode).bind Text.fromUtf8 = some text ∧ text.toList = "sha256=".toList ++ hex ∧
    Text.bytes (String.ofList hex) = 64 ∧ hexBytes (Text.utf8 (String.ofList hex)) = some (lib.hmacSha256 secret bytes)

/-- The installation's token, good for another half minute, lists the repository. -/
def Listed (repositoryId : Nat) : Prop :=
  ∃ token expires page value repositories, nonEmpty
      (((doc.index "exports").index "installation-token").index "value").asStr = some token ∧
    (((doc.index "exports").index "installation-token").index "expires_at_ms").asI64 = some expires ∧
    around.checkedAt + 30000 < expires ∧
    around.api "GET" ("/installation/repositories?per_page=100&page=" ++ Nat.repr page) (some token) = .ok value ∧
    (value.index "repositories").asArray = some repositories ∧
    ∃ repository ∈ repositories, (repository.index "id").asU64 = some repositoryId

/-- The event names a repository of the installation and of the owner; an installation it names is the stored one. -/
structure OfRepository : Prop where
  listed : ∃ repositoryId, 0 < repositoryId ∧ ((body.index "repository").index "id").asU64 = some repositoryId ∧
    Listed around doc repositoryId
  owner : owns config.owner ((body.index "repository").index "owner") = true
  installation : ∀ id, (body.get "installation").bind (Json.get "id") = some id →
    ∃ installationId, (doc.index "installation_id").asU64 = some installationId ∧ id.asU64 = some installationId

/-- The event tells of an installation of the App for an account of the owner. The ids of the App are compared as JSON
values, so that one that is missing equals one that is missing. -/
structure OfInstallation : Prop where
  kind : isLifecycle kind = true
  account : owns config.owner ((body.index "installation").index "account") = true
  app : (body.index "installation").index "app_id" = (doc.index "app").index "id"

/-- The event is a ping of the App without a repository. -/
structure OfApp : Prop where
  kind : kind = "ping"
  repository : (body.index "repository").isObject = false
  hook : (body.index "hook").index "type" = .string "App"

variable {lib around config request doc body kind}

theorem signed_of_verify {signature secret : String} {bytes : Bytes}
    (hheader : header lib request "x-hub-signature-256" = some signature)
    (hbytes : lib.decode ((request.index "body").asStr.getD "") = some bytes)
    (hverify : verify lib secret signature bytes = true) : Signed lib request secret bytes := by
  refine ⟨hbytes, ?_⟩
  unfold header at hheader
  split at hheader
  · cases hheader
  rename_i headers hheaders
  split at hheader
  · rename_i pair hpair
    unfold verify at hverify
    split at hverify
    · cases hverify
    rename_i hex hhex
    obtain ⟨hafter, hlength⟩ := filter_eq_some_iff.mp hhex
    unfold Text.after at hafter
    split at hafter
    · rename_i hstarts
      obtain ⟨rest, hrest⟩ := isPrefixOf_iff_prefix.mp hstarts
      rw [← hrest, drop_left, some_inj] at hafter
      split at hverify
      · cases hverify
      · rename_i decoded hdecoded
        refine ⟨headers, pair, signature, hex, hheaders, hpair, hheader, hafter ▸ hrest.symm, of_decide_eq_true hlength, ?_⟩
        rw [hdecoded, of_decide_eq_true hverify]
    · cases hafter
  · cases hheader

theorem listed_of_pages {repositoryId : Nat} {token : String} {expires : Int} {pages : List Nat}
    (h : authorizePages around repositoryId token pages = .ok true)
    (htoken : nonEmpty (((doc.index "exports").index "installation-token").index "value").asStr = some token)
    (hexpires : (((doc.index "exports").index "installation-token").index "expires_at_ms").asI64 = some expires)
    (hgood : around.checkedAt + 30000 < expires) :
    Listed around doc repositoryId := by
  induction pages with
  | nil => cases h
  | cons page pages ih =>
    unfold authorizePages at h
    split at h
    · cases h
    rename_i value hvalue
    split at h
    · cases h
    rename_i repositories hrepositories
    split at h
    · rename_i hany
      obtain ⟨repository, hmem, hid⟩ := List.any_eq_true.mp hany
      exact ⟨token, expires, page, value, repositories, htoken, hexpires, hgood, hvalue, hrepositories, repository, hmem,
        of_decide_eq_true hid⟩
    split at h
    · cases h
    · exact ih h

theorem repositoryAuthorized_true (h : repositoryAuthorized around kind doc body = .ok true) :
    ∃ repositoryId, 0 < repositoryId ∧ ((body.index "repository").index "id").asU64 = some repositoryId ∧
      Listed around doc repositoryId ∧ ∃ installationId, (doc.index "installation_id").asU64 = some installationId := by
  unfold repositoryAuthorized at h
  split at h
  · cases h
  obtain ⟨repositoryId, hid, h⟩ := except_bind_ok.mp h
  obtain ⟨token, htoken, h⟩ := except_bind_ok.mp h
  split at h
  · cases h
  rename_i hcurrent
  split at h
  · rename_i hauthorized
    obtain ⟨hasU64, hpos⟩ := filter_eq_some_iff.mp (refuse_ok hid)
    simp only [Bool.or_eq_true, not_or, Bool.not_eq_true, Option.all_eq_false, decide_eq_false_iff_not, not_le] at hcurrent
    obtain ⟨hinstallation, expires, hexpires, hgood⟩ := hcurrent
    refine ⟨repositoryId, by simpa using hpos, hasU64, listed_of_pages hauthorized (refuse_ok htoken) hexpires hgood, ?_⟩
    exact isSome_iff_exists.mp (by simpa using hinstallation)
  · cases h
  · cases h

theorem namesInstallation_id {verified : Verified} {account : Json → Bool}
    (h : namesInstallation verified body account = true) {id : Json}
    (hid : (body.get "installation").bind (Json.get "id") = some id) : verified.installationId.asU64 = id.asU64 := by
  obtain ⟨installation, hinstallation, hget⟩ := bind_eq_some_iff.mp hid
  unfold namesInstallation at h
  rw [hinstallation] at h
  cases installation with
  | object fields =>
    simp only [Bool.and_eq_true, hget, all_some, decide_eq_true_eq] at h
    exact h.2
  | _ => simp [Json.get] at hget

theorem ofRepository_of_matches {authorized : Bool}
    (hauthorized : repositoryAuthorized around kind doc body = .ok authorized)
    (h : repositoryMatches config.owner
      ⟨(doc.index "app").index "id", doc.index "installation_id", authorized⟩ body = true) :
    OfRepository around config doc body := by
  simp only [repositoryMatches, Bool.and_eq_true] at h
  obtain ⟨⟨⟨-, htrue⟩, howner⟩, hnames⟩ := h
  subst htrue
  obtain ⟨repositoryId, hpos, hid, hlisted, installationId, hinstallation⟩ := repositoryAuthorized_true hauthorized
  refine ⟨⟨repositoryId, hpos, hid, hlisted⟩, howner, fun id hget => ⟨installationId, hinstallation, ?_⟩⟩
  exact (namesInstallation_id hnames hget).symm.trans hinstallation

theorem ofInstallation_of_admitted {authorized : Bool} (hkind : isLifecycle kind = true)
    (h : admitted body kind config.owner
      ⟨(doc.index "app").index "id", doc.index "installation_id", authorized⟩ = true) :
    OfInstallation config doc body kind := by
  have hping : kind ≠ "ping" := by
    rintro rfl
    exact absurd hkind (by decide)
  simp only [admitted, hping, if_false, hkind, if_true, Bool.and_eq_true, decide_eq_true_eq] at h
  exact ⟨hkind, h.1, h.2⟩

theorem admitted_kinds {authorized : Bool} (hauthorized : repositoryAuthorized around kind doc body = .ok authorized)
    (h : admitted body kind config.owner
      ⟨(doc.index "app").index "id", doc.index "installation_id", authorized⟩ = true) :
    OfRepository around config doc body ∨ OfInstallation config doc body kind ∨ OfApp body kind := by
  by_cases hlifecycle : isLifecycle kind = true
  · exact .inr (.inl (ofInstallation_of_admitted hlifecycle h))
  by_cases hping : kind = "ping"
  · simp only [admitted, hping, if_true, Bool.and_eq_true] at h
    split at h
    · exact .inl (ofRepository_of_matches hauthorized h.2)
    · rename_i hrepository
      simp only [Bool.and_eq_true] at h
      have hhook : (body.index "hook").index "type" = .string "App" := by
        have happ := h.2.1
        unfold appMatches at happ
        split at happ
        · simpa using happ
        · exact of_decide_eq_true (Bool.and_eq_true_iff.mp happ).1
      exact .inr (.inr ⟨hping, by simpa using hrepository, hhook⟩)
  · simp only [admitted, hping, if_false, hlifecycle, Bool.false_eq_true] at h
    exact .inl (ofRepository_of_matches hauthorized h)

/-- Only a signed event of an admitted kind is observed, and only a signed event of an installation changes what is
stored. -/
theorem admission_sound (lib : Library) (around : Surroundings) (config : Config) (host : HostState)
    (search : Log.Search) (log : Log) (stored : Option Bytes) (request : Json) :
    (∀ status p stored',
      normalize lib config host search log around stored request = (.ok (status, some p), stored') →
      ∃ previous doc secret bytes body kind, load lib around stored = .ok (previous, doc) ∧
        ((doc.index "app").index "webhook_secret").asStr = some secret ∧ Signed lib request secret bytes ∧
        lib.fromSlice bytes = some body ∧ header lib request "x-github-event" = some kind ∧
        (OfRepository around config doc body ∨ OfInstallation config doc body kind ∨ OfApp body kind)) ∧
    ((normalize lib config host search log around stored request).2 ≠ stored →
      ∃ previous doc secret bytes body kind, load lib around stored = .ok (previous, doc) ∧
        ((doc.index "app").index "webhook_secret").asStr = some secret ∧ Signed lib request secret bytes ∧
        lib.fromSlice bytes = some body ∧ header lib request "x-github-event" = some kind ∧
        OfInstallation config doc body kind) := by
  constructor
  · intro status p stored' h
    unfold normalize at h
    split at h
    · cases h
    rename_i delivery hchecked
    obtain ⟨signature, secret, bytes, authorized, hpassed⟩ := checked_ok hchecked
    exact ⟨delivery.previous, delivery.doc, secret, bytes, delivery.body, delivery.kind, hpassed.loaded, hpassed.keyed,
      signed_of_verify hpassed.header hpassed.decoded hpassed.verified, hpassed.parsed,
      (filter_eq_some_iff.mp hpassed.kind).1, admitted_kinds hpassed.checked hpassed.admitted⟩
  · intro h
    unfold normalize at h
    split at h
    · exact absurd rfl h
    rename_i delivery hchecked
    obtain ⟨signature, secret, bytes, authorized, hpassed⟩ := checked_ok hchecked
    split at h
    · rename_i hlifecycle
      exact ⟨delivery.previous, delivery.doc, secret, bytes, delivery.body, delivery.kind, hpassed.loaded, hpassed.keyed,
        signed_of_verify hpassed.header hpassed.decoded hpassed.verified, hpassed.parsed,
        (filter_eq_some_iff.mp hpassed.kind).1, ofInstallation_of_admitted hlifecycle hpassed.admitted⟩
    · exact absurd rfl h

end Sound

section Samples

def sampleDoc (more : List (String × Json)) : Json :=
  Json.ofFields (("app", Json.ofFields [("id", Json.ofNat 7), ("webhook_secret", .string "s")]) :: more)

def sampleBody (action : String) : Json := Json.ofFields [
  ("action", .string action),
  ("installation", Json.ofFields [("id", Json.ofNat 5), ("app_id", Json.ofNat 7),
    ("account", Json.ofFields [("login", .string "owner"), ("type", .string "User")])])]

def sampleInstalled : Json := (sampleDoc [("exports", .object [])]).set "installation_id" (Json.ofNat 5)

/-- JSON texts are written as they are, and read back among those that occur here. -/
def sampleLibrary : Library where
  decode text := some (Text.utf8 text)
  encode text := text
  fromSlice bytes :=
    [sampleBody "created", sampleBody "deleted", sampleDoc [], sampleInstalled, clearInstallation sampleInstalled].find?
      fun doc => Text.utf8 doc.text = bytes
  toVec doc := Text.utf8 doc.text
  hmacSha256 _ _ := List.replicate 32 0
  jwt _ _ := .error "no key"
  parseRfc3339 _ := none

def sampleAround : Surroundings := ⟨0, 0, true, true, none, fun _ _ _ => .error "offline"⟩

def sampleConfig : Config := ⟨"app", "http", "route", "owner"⟩

def sampleHost : HostState := .bare "github" "agent" ["observation.received", "http.response.requested"]

def sampleSearch : Log.Search := fun _ => none

def sampleRequest (kind id : String) (body : Json) : Json := Json.ofFields [
  ("routeId", .string "route"), ("consumer", .string "github"), ("target", .string "/events"),
  ("method", .string "POST"), ("receivedAtMs", Json.ofNat 0), ("body", .string body.text),
  ("headers", .array [
    .array [.string "x-hub-signature-256", .string ("sha256=" ++ String.ofList (List.replicate 64 '0'))],
    .array [.string "x-github-event", .string kind],
    .array [.string "x-github-delivery", .string id]])]

/-- The first event of an installation is observed and stored. -/
theorem admission_sound_created :
    ∃ status p stored', normalize sampleLibrary sampleConfig sampleHost sampleSearch Log.empty sampleAround
        (some (sampleLibrary.toVec (sampleDoc []))) (sampleRequest "installation" "d1" (sampleBody "created")) =
      (.ok (status, some p), stored') ∧ stored' ≠ some (sampleLibrary.toVec (sampleDoc [])) ∧
      ∃ secret bytes doc body, Signed sampleLibrary (sampleRequest "installation" "d1" (sampleBody "created")) secret bytes ∧
        OfInstallation sampleConfig doc body "installation" := by
  have hresult : ((normalize sampleLibrary sampleConfig sampleHost sampleSearch Log.empty sampleAround
      (some (sampleLibrary.toVec (sampleDoc []))) (sampleRequest "installation" "d1" (sampleBody "created"))).1.toOption.bind
        Prod.snd).isSome = true := by
    decide +kernel
  have hstored : (normalize sampleLibrary sampleConfig sampleHost sampleSearch Log.empty sampleAround
      (some (sampleLibrary.toVec (sampleDoc []))) (sampleRequest "installation" "d1" (sampleBody "created"))).2 ≠
        some (sampleLibrary.toVec (sampleDoc [])) := by
    decide +kernel
  obtain ⟨hobserved, hchanged⟩ := admission_sound sampleLibrary sampleAround sampleConfig sampleHost sampleSearch Log.empty
    (some (sampleLibrary.toVec (sampleDoc []))) (sampleRequest "installation" "d1" (sampleBody "created"))
  obtain ⟨p, hp⟩ := isSome_iff_exists.mp hresult
  obtain ⟨⟨status, found⟩, hok, rfl⟩ := bind_eq_some_iff.mp hp
  refine ⟨status, p, _, Prod.ext (ok_of_toOption hok) rfl, hstored, ?_⟩
  obtain ⟨_, _, secret, bytes, _, _, _, _, hsigned, _⟩ := hobserved status p _ (Prod.ext (ok_of_toOption hok) rfl)
  obtain ⟨_, doc, _, _, body, kind, _, _, _, _, hkind, hinstallation⟩ := hchanged hstored
  have hheader : header sampleLibrary (sampleRequest "installation" "d1" (sampleBody "created")) "x-github-event" =
      some "installation" := by
    decide +kernel
  rw [hheader] at hkind
  cases hkind
  exact ⟨secret, bytes, doc, body, hsigned, hinstallation⟩

end Samples

end Pluribus.Github
