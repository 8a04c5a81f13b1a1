import Pluribus.Core.Delivery
import Pluribus.Core.Net

namespace Pluribus.Http

open Pluribus.Core

structure HttpHeader where
  name : String
  value : Bytes
deriving DecidableEq, Repr

structure HttpRequest where
  method : String
  url : String
  headers : List HttpHeader
  body : Option BlobRef
  timeoutMs : Nat
deriving DecidableEq

structure HttpGrant where
  origins : List String
  methods : List String
  allowHttp : Bool
  allowPrivateNetwork : Bool
  maxRequestBytes : Nat
  maxRedirects : Nat
  maxTimeoutMs : Nat
deriving DecidableEq

inductive HttpError where
  | invalid (message : String)
  | permissionDenied (message : String)
  | resourceExhausted (message : String)
  | timeout
  | unavailable (message : String)
  | internal (message : String)
deriving DecidableEq

structure Url where
  scheme : String
  username : String
  password : Option String
  hostStr : Option String
  port : Option Nat
  path : String
  query : Option String
  fragment : Option String
  cannotBeABase : Bool
deriving DecidableEq, Repr

structure SocketAddr where
  ip : IpAddr
  port : Nat
deriving DecidableEq, Repr

structure Response where
  status : Nat
  headers : List HttpHeader
deriving DecidableEq

/-- The URL, header and client libraries. `implied` are the headers the client adds for a URL itself. -/
structure Library where
  parse : String → Option Url
  join : Url → String → Option Url
  asciiOrigin : Url → String
  methodFromBytes : String → Option String
  headerName : String → Option String
  headerValue : Bytes → Option Bytes
  parseIp : String → Option IpAddr
  implied : Url → List HttpHeader

inductive Lookup where
  | timedOut
  | failed
  | addresses (addresses : List SocketAddr)
deriving DecidableEq

/-- What the clock, the name server, the client and the server say during one hop. -/
structure Hop where
  entered : Nat
  resolving : Nat
  connecting : Nat
  lookup : String → Nat → Lookup
  built : Bool
  answer : Except HttpError Response

def maxTimeout : Nat := 5 * 60 * 1000
def maxRedirectsLimit : Nat := 5
def maxHeaderBytes : Nat := 64 * 1024

def headerBytes (headers : List HttpHeader) : Nat :=
  headers.foldl (fun total header => total + header.name.utf8ByteSize + header.value.length) 0

def isHopByHop (name : String) : Bool :=
  ["connection", "keep-alive", "proxy-authenticate", "proxy-authorization", "te", "trailer", "transfer-encoding",
    "upgrade", "host", "content-length"].contains name

def isCredentialHeader (name : String) : Bool := ["authorization", "proxy-authorization", "cookie"].contains name

def Url.portOrKnownDefault (url : Url) : Option Nat :=
  url.port.or <|
    if url.scheme = "http" ∨ url.scheme = "ws" then some 80
    else if url.scheme = "https" ∨ url.scheme = "wss" then some 443
    else if url.scheme = "ftp" then some 21
    else none

def eqIgnoreAsciiCase (a b : String) : Bool := a.toList.map Char.toLower = b.toList.map Char.toLower

/-- Header values that are text have visible ASCII characters and tabs only. -/
def headerToStr (value : Bytes) : Option String :=
  if value.all fun byte => (32 ≤ byte && byte < 127) || byte = 9 then
    some (String.ofList (value.map fun byte => Char.ofNat byte.toNat))
  else none

def Response.location (response : Response) : Option Bytes :=
  (response.headers.find? (·.name = "location")).map (·.value)

section Request

variable (lib : Library) (grant : HttpGrant) (request : HttpRequest)

def prepareRequest : Except HttpError (Url × String × Nat) :=
  match lib.parse request.url with
  | none => .error (.invalid "URL is malformed")
  | some url =>
    if url.username ≠ "" ∨ url.password.isSome ∨ url.fragment.isSome then
      .error (.invalid "URL credentials and fragments are forbidden")
    else
      match lib.methodFromBytes request.method with
      | none => .error (.invalid "method is malformed")
      | some method =>
        let timeout := request.timeoutMs
        if timeout = 0 ∨ maxTimeout < timeout ∨ grant.maxTimeoutMs < request.timeoutMs then
          .error (.invalid "timeout exceeds the invocation or host limit")
        else if maxRedirectsLimit < grant.maxRedirects then .error (.invalid "redirect grant exceeds hard limit")
        else if maxHeaderBytes < headerBytes request.headers then
          .error (.resourceExhausted "request headers exceed 64 KiB")
        else if request.body.any (grant.maxRequestBytes < ·.size) then
          .error (.resourceExhausted "request body exceeds grant")
        else .ok (url, method, timeout)

def canonicalOrigin (url : Url) : Except HttpError String :=
  if url.hostStr.isNone ∨ url.cannotBeABase then .error (.invalid "URL has no network origin")
  else .ok (lib.asciiOrigin url)

def originAllowed (origin : String) : Bool :=
  grant.origins.any fun allowed =>
    match (lib.parse allowed).map (canonicalOrigin lib) with
    | some (.ok allowed) => allowed = origin
    | _ => false

def validateDestination (url : Url) (method : String) : Except HttpError String :=
  if url.scheme ≠ "https" ∧ url.scheme ≠ "http" then .error (.invalid "only HTTP and HTTPS are supported")
  else if url.scheme = "http" ∧ ¬ grant.allowHttp then .error (.permissionDenied "plaintext HTTP is not granted")
  else
    match canonicalOrigin lib url with
    | .error error => .error error
    | .ok origin =>
      if ¬ originAllowed lib grant origin then .error (.permissionDenied "origin is not granted")
      else if ¬ grant.methods.any (eqIgnoreAsciiCase · method) then .error (.permissionDenied "method is not granted")
      else .ok origin

/-- The addresses of a resolution, of which there is at least one. -/
structure Resolved where
  addresses : List SocketAddr
  nonempty : addresses ≠ []

def resolveDestination (lookup : String → Nat → Lookup) (url : Url) : Except HttpError Resolved :=
  match url.hostStr with
  | none => .error (.invalid "URL has no host")
  | some host =>
    match url.portOrKnownDefault with
    | none => .error (.invalid "URL has no port")
    | some port =>
      match lookup host port with
      | .timedOut => .error .timeout
      | .failed => .error (.unavailable "DNS resolution failed")
      | .addresses addresses =>
        if h : addresses = [] then .error (.unavailable "DNS returned no addresses")
        else if ¬ grant.allowPrivateNetwork ∧ addresses.any fun address => !isPublicAddress address.ip then
          .error (.permissionDenied "destination resolves to a non-public address")
        else .ok ⟨addresses, h⟩

/-- The address the client connects to: the host itself where it is an address, else the first one resolved. -/
def buildClient (built : Bool) (url : Url) (resolved : Resolved) : Except HttpError SocketAddr :=
  match url.hostStr with
  | none => .error (.invalid "URL has no host")
  | some host =>
    if ¬ built then .error (.internal "cannot initialize HTTP client")
    else
      match lib.parseIp host with
      | some ip => .ok ⟨ip, url.portOrKnownDefault.getD 0⟩
      | none => .ok (resolved.addresses.head resolved.nonempty)

def prepareHeaders (stripSensitiveHeaders : Bool) : List HttpHeader → Except HttpError (List HttpHeader)
  | [] => .ok []
  | header :: rest =>
    match lib.headerName header.name with
    | none => .error (.invalid "header name is malformed")
    | some name =>
      if isHopByHop name ∨ (stripSensitiveHeaders ∧ isCredentialHeader name) then
        prepareHeaders stripSensitiveHeaders rest
      else
        match lib.headerValue header.value with
        | none => .error (.invalid "header value is malformed")
        | some value => (prepareHeaders stripSensitiveHeaders rest).map (⟨name, value⟩ :: ·)

def remainingTime (deadline now : Nat) : Except HttpError Nat :=
  if deadline ≤ now then .error .timeout else .ok (deadline - now)

def redirectTarget (current : Url) (response : Response) : Except HttpError (Option Url) :=
  if ¬ (300 ≤ response.status ∧ response.status < 400) then .ok none
  else
    match response.location with
    | none => .ok none
    | some location =>
      match headerToStr location with
      | none => .error (.invalid "redirect location is not UTF-8")
      | some location =>
        match lib.join current location with
        | none => .error (.invalid "redirect location is malformed")
        | some next => .ok (some next)

end Request

section Loop

structure Redirecting where
  url : Url
  method : String
  body : Option BlobRef
  stripSensitiveHeaders : Bool
  redirectCount : Nat
deriving DecidableEq

structure Exchange where
  url : Url
  method : String
  address : SocketAddr
  headers : List HttpHeader
  body : Option BlobRef
  answer : Except HttpError Response
deriving DecidableEq

variable (lib : Library) (grant : HttpGrant) (request : HttpRequest) (deadline : Nat)

def contentLength (body : Option BlobRef) : List HttpHeader :=
  match body with
  | none => []
  | some blob => [⟨"content-length", blob.size.repr.toUTF8.toList⟩]

def sendHop (hop : Hop) (s : Redirecting) : Except HttpError Exchange := do
  let _ ← remainingTime deadline hop.entered
  let _ ← validateDestination lib grant s.url s.method
  let _ ← remainingTime deadline hop.resolving
  let resolved ← resolveDestination grant hop.lookup s.url
  let _ ← remainingTime deadline hop.connecting
  let address ← buildClient lib hop.built s.url resolved
  let headers ← prepareHeaders lib s.stripSensitiveHeaders request.headers
  return {
    url := s.url
    method := s.method
    address := address
    headers := lib.implied s.url ++ headers ++ contentLength s.body
    body := s.body
    answer := hop.answer }

def switchesToGet (status : Nat) (method : String) : Bool :=
  status = 303 || ((status = 301 || status = 302) && method = "POST")

/-- The next round of the loop, or none where the response is the result. -/
def followRedirect (s : Redirecting) (response : Response) : Except HttpError (Option Redirecting) := do
  match ← redirectTarget lib s.url response with
  | none => return none
  | some next =>
    if s.redirectCount = grant.maxRedirects then throw (.resourceExhausted "redirect limit exceeded")
    let previousOrigin ← canonicalOrigin lib s.url
    let nextOrigin ← canonicalOrigin lib next
    let switches := switchesToGet response.status s.method
    return some {
      url := next
      method := if switches then "GET" else s.method
      body := if switches then none else s.body
      stripSensitiveHeaders := s.stripSensitiveHeaders || previousOrigin ≠ nextOrigin
      redirectCount := s.redirectCount + 1 }

/-- The loop with what it has sent. It has no result only where the bound on its rounds is too small. -/
def redirectLoop (world : Nat → Hop) : Nat → Redirecting → List Exchange × Option (Except HttpError Response)
  | 0, _ => ([], none)
  | rounds + 1, s =>
    match sendHop lib grant request deadline (world s.redirectCount) s with
    | .error error => ([], some (.error error))
    | .ok exchange =>
      match exchange.answer with
      | .error error => ([exchange], some (.error error))
      | .ok response =>
        match followRedirect lib grant s response with
        | .error error => ([exchange], some (.error error))
        | .ok none => ([exchange], some (.ok response))
        | .ok (some next) =>
          let rest := redirectLoop world rounds next
          (exchange :: rest.1, rest.2)

def openResponse (started : Nat) (world : Nat → Hop) : List Exchange × Option (Except HttpError Response) :=
  match prepareRequest lib grant request with
  | .error error => ([], some (.error error))
  | .ok (url, method, timeout) =>
    redirectLoop lib grant request (started + timeout) world (grant.maxRedirects + 1)
      ⟨url, method, request.body, false, 0⟩

end Loop

end Pluribus.Http
