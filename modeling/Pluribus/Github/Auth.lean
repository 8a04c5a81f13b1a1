import Pluribus.Http.Policy
import Pluribus.Lib.JsonText

namespace Pluribus.Github

open Lib Pluribus.Core

structure Config where
  app : String
  httpInstance : String
  routeId : String
  owner : String

/-- The libraries: base64, JSON, HMAC, the signing of a token for the App, and RFC 3339 times in seconds. -/
structure Library where
  decode : String → Option Bytes
  encode : String → String
  fromSlice : Bytes → Option Json
  toVec : Json → Bytes
  hmacSha256 : String → Bytes → Bytes
  jwt : Json → Int → Except String String
  parseRfc3339 : String → Option Int

/-- What surrounds the handling of one event: the clock when it begins and when a token's expiry is looked at,
whether the credential can be read and written, what somebody else has stored between the two, and the API. -/
structure Surroundings where
  now : Int
  checkedAt : Int
  readable : Bool
  writable : Bool
  meanwhile : Option (Option Bytes)
  api : String → String → Option String → Except String Json

section Credential

variable (lib : Library) (around : Surroundings) (stored : Option Bytes)

def load : Except String (Option Bytes × Json) :=
  if around.readable then
    match stored with
    | none => .ok (none, .object [])
    | some bytes =>
      match lib.fromSlice bytes with
      | some doc => .ok (some bytes, doc)
      | none => .error "invalid credential record"
  else .error "credential unavailable"

/-- The compare-and-swap against the bytes that were loaded; also what is stored after it. -/
def save (previous : Option Bytes) (doc : Json) : Except String Unit × Option Bytes :=
  let current := around.meanwhile.getD stored
  if !around.writable then (.error "credential unavailable", current)
  else if current = previous then (.ok (), some (lib.toVec doc))
  else (.error "credential changed during operation", current)

end Credential

def hexDigit (b : UInt8) : Option Nat :=
  if 48 ≤ b ∧ b ≤ 57 then some (b.toNat - 48)
  else if 97 ≤ b ∧ b ≤ 102 then some (b.toNat - 87)
  else if 65 ≤ b ∧ b ≤ 70 then some (b.toNat - 55)
  else none

def hexByte (high low : UInt8) : Option UInt8 :=
  if high = 43 then (hexDigit low).map UInt8.ofNat
  else (hexDigit high).bind fun h => (hexDigit low).map fun l => UInt8.ofNat (16 * h + l)

def hexBytes : Bytes → Option Bytes
  | high :: low :: rest => (hexByte high low).bind fun b => (hexBytes rest).map (b :: ·)
  | _ => some []

def verify (lib : Library) (secret signature : String) (body : Bytes) : Bool :=
  match (Text.after "sha256=".toList signature.toList).filter fun hex => Text.bytes (String.ofList hex) = 64 with
  | none => false
  | some hex =>
    match hexBytes (Text.utf8 (String.ofList hex)) with
    | none => false
    | some bytes => lib.hmacSha256 secret body = bytes

section Api

variable (lib : Library) (around : Surroundings)

def authorizePages (repositoryId : Nat) (token : String) : List Nat → Except String Bool
  | [] => .error "GitHub repositories pagination exceeded limit"
  | page :: rest =>
    match around.api "GET" ("/installation/repositories?per_page=100&page=" ++ page.repr) (some token) with
    | .error error => .error error
    | .ok value =>
      match (value.index "repositories").asArray with
      | none => .error "invalid GitHub repositories response"
      | some repositories =>
        if repositories.any fun repository => (repository.index "id").asU64 = some repositoryId then .ok true
        else if repositories.length < 100 then .ok false
        else authorizePages repositoryId token rest

def authorizeRepository (repositoryId : Nat) (token : String) : Except String Bool :=
  authorizePages around repositoryId token (List.range' 1 1000)

def installationMatches (value : Json) (owner : String) (appId : Nat) : Bool :=
  (value.index "app_id").asU64 = some appId && value.index "suspended_at" = .null &&
    [some "User", some "Organization"].contains ((value.index "account").index "type").asStr &&
    ((value.index "account").index "login").asStr.any fun login => Http.eqIgnoreAsciiCase login owner

def installationPages (owner : String) (appId : Nat) (token : String) : List Nat → Except String Json
  | [] => .error "App is not installed for the configured owner"
  | page :: rest =>
    match around.api "GET" ("/app/installations?per_page=100&page=" ++ page.repr) (some token) with
    | .error error => .error error
    | .ok value =>
      match value.asArray with
      | none => .error "invalid GitHub installations response"
      | some installations =>
        match installations.find? fun value => installationMatches value owner appId with
        | some install => .ok install
        | none =>
          if installations.length < 100 then .error "App is not installed for the configured owner"
          else installationPages owner appId token rest

def installation (config : Config) (app : Json) : Except String Json :=
  match (app.index "id").asU64 with
  | none => .error "invalid App ID"
  | some appId => do
    let token ← lib.jwt app around.now
    installationPages around config.owner appId token (List.range' 1 100)

def REFRESH_MARGIN_MS : Int := 360000
def WEBHOOK_SECRET_TTL_MS : Int := 600000

def nonEmpty (text : Option String) : Option String := text.filter (· ≠ "")

def required {α : Type} (message : String) : Option α → Except String α
  | some a => .ok a
  | none => .error message

def exportsJson (token : String) (expires : Int) (secret : String) (now : Int) : Json := Json.ofFields [
  ("installation-token", Json.ofFields [("value", .string token), ("expires_at_ms", Json.ofInt expires)]),
  ("webhook-secret", Json.ofFields [("value", .string secret), ("expires_at_ms", Json.ofInt (now + WEBHOOK_SECRET_TTL_MS))])]

def makeExports (app token : Json) (now : Int) : Except String Json := do
  let expires ← required "invalid token expiry" (lib.parseRfc3339 ((token.index "expires_at").asStr.getD ""))
  let value ← required "missing installation token" (nonEmpty (token.index "token").asStr)
  let secret ← required "missing webhook secret" (nonEmpty (app.index "webhook_secret").asStr)
  if expires * 1000 ≤ now + REFRESH_MARGIN_MS then .error "installation token expires too soon"
  else return exportsJson value (expires * 1000) secret now

def cachedExports (app current : Json) (now : Int) : Except String (Option Json) :=
  let token := current.index "installation-token"
  let expiry := (token.index "expires_at_ms").asI64.getD 0
  match nonEmpty (token.index "value").asStr with
  | none => .ok none
  | some value =>
    if expiry ≤ now + REFRESH_MARGIN_MS then .ok none
    else do
      let secret ← required "missing webhook secret" (nonEmpty (app.index "webhook_secret").asStr)
      let kept := current.index "webhook-secret"
      if (kept.index "value").asStr = some secret &&
          (kept.index "expires_at_ms").asI64.any (fun expires => now + REFRESH_MARGIN_MS < expires) then
        return some current
      else return some (exportsJson value expiry secret now)

def clearInstallation (doc : Json) : Json := (doc.set "installation_id" .null).set "exports" (.object [])

/-- The document with a current token, from the cache or from the API. -/
def renewed (config : Config) (doc : Json) : Except String Json := do
  let install ← installation lib around config (doc.index "app")
  let installationId ← required "invalid installation" (install.index "id").asU64
  let cached ←
    if (doc.index "installation_id").asU64 = some installationId then
      cachedExports (doc.index "app") (doc.index "exports") around.now
    else .ok none
  let doc := doc.set "installation_id" (Json.ofNat installationId)
  match cached with
  | some current => return doc.set "exports" current
  | none => do
    let signed ← lib.jwt (doc.index "app") around.now
    let token ← around.api "POST" ("/app/installations/" ++ installationId.repr ++ "/access_tokens") (some signed)
    let fresh ← makeExports lib (doc.index "app") token around.now
    return doc.set "exports" fresh

def refresh (config : Config) (stored : Option Bytes) : Option Bytes :=
  match load lib around stored with
  | .error _ => stored
  | .ok (previous, doc) =>
    if doc.index "app" = .null then stored
    else
      match renewed lib around config doc with
      | .ok doc => (save lib around stored previous doc).2
      | .error _ => (save lib around stored previous (clearInstallation doc)).2

def appFromInput (input : Json) : Except String Json := do
  let id ← required "invalid App ID"
    (((input.index "app_id").asStr.bind fun text => Text.parseU64 text.toList).filter (0 < ·))
  let pem ← required "missing App key" (nonEmpty (input.index "private_key").asStr)
  let secret ← required "missing webhook secret" (nonEmpty (input.index "webhook_secret").asStr)
  let app := Json.ofFields [("id", Json.ofNat id), ("pem", .string pem), ("webhook_secret", .string secret)]
  let token ← lib.jwt app around.now
  let remote ← around.api "GET" "/app" (some token)
  if remote.index "id" ≠ Json.ofNat id then .error "App ID mismatch"
  else do
    let slug ← required "invalid App slug" ((nonEmpty (remote.index "slug").asStr).filter fun slug =>
      slug.toList.all fun c => c.isAlphanum || c = '-')
    return (app.set "slug" (.string slug)).set "owner" (remote.index "owner")

def enroll (enrollmentId : String) (stored : Option Bytes) : Except String String × Option Bytes :=
  match load lib around stored with
  | .error error => (.error error, stored)
  | .ok (previous, doc) =>
    if enrollmentId ≠ "" && (doc.index "enrollment_result").index "id" = .string enrollmentId then
      (required "invalid enrollment result" ((doc.index "enrollment_result").index "url").asStr, stored)
    else if enrollmentId = "" || (doc.index "enrollment").index "id" ≠ .string enrollmentId ||
        (((doc.index "enrollment").index "expires_at_ms").asI64.getD 0 ≤ around.now : Bool) then
      (.error "credential input unavailable", stored)
    else
      match appFromInput lib around ((doc.index "enrollment").index "input") with
      | .ok app =>
        let url := "https://github.com/apps/" ++ (app.index "slug").asStr.getD "" ++ "/installations/new"
        let result := Json.ofFields [("id", .string enrollmentId), ("url", .string url)]
        let saved := save lib around stored previous
          ((((doc.remove "enrollment").set "app" app |> clearInstallation)).set "enrollment_result" result)
        (saved.1.map fun _ => url, saved.2)
      | .error failure =>
        let saved := save lib around stored previous (doc.remove "enrollment")
        (saved.1.bind fun _ => .error failure, saved.2)

def response (status : Nat) (body : String) : Json := Json.ofFields [
  ("status", Json.ofNat status),
  ("body", .string (lib.encode body)),
  ("headers", .array [.array [.string "content-type", .string "text/plain; charset=utf-8"],
    .array [.string "cache-control", .string "no-store"]])]

end Api

end Pluribus.Github
