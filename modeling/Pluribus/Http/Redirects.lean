import Pluribus.Http.Policy
import Pluribus.Lib.Results
import Pluribus.Lib.Transaction

namespace Pluribus.Http

open Lib Pluribus.Core List

section Spec

variable (lib : Library) (grant : HttpGrant) (world : Nat → Hop)

structure Granted (exchange : Exchange) : Prop where
  scheme : exchange.url.scheme = "https" ∨ (exchange.url.scheme = "http" ∧ grant.allowHttp = true)
  origin : ∃ allowed ∈ grant.origins, ∃ url, lib.parse allowed = some url ∧
    canonicalOrigin lib url = canonicalOrigin lib exchange.url ∧
    canonicalOrigin lib url = .ok (lib.asciiOrigin exchange.url)
  method : ∃ allowed ∈ grant.methods, eqIgnoreAsciiCase allowed exchange.method = true

/-- The request went to an address of a resolution of its host that the grant accepts as a whole. -/
def Pinned (hop : Hop) (exchange : Exchange) : Prop :=
  ∃ host port addresses, exchange.url.hostStr = some host ∧ exchange.url.portOrKnownDefault = some port ∧
    hop.lookup host port = .addresses addresses ∧ exchange.address ∈ addresses ∧
    (grant.allowPrivateNetwork = true ∨ ∀ address ∈ addresses, isPublicAddress address.ip = true)

def SendsCredentials (exchange : Exchange) : Prop := ∃ header ∈ exchange.headers, isCredentialHeader header.name = true

def DropsBody (exchange : Exchange) : Prop :=
  ∃ response, exchange.answer = .ok response ∧ switchesToGet response.status exchange.method = true

/-- Some redirect before the request at `j` has led to another origin. -/
def Crossed (sent : List Exchange) (j : Nat) : Prop :=
  ∃ i x y, i < j ∧ sent[i]? = some x ∧ sent[i + 1]? = some y ∧ lib.asciiOrigin x.url ≠ lib.asciiOrigin y.url

/-- The requests sent one after the other keep to the grant. -/
structure Obeys (sent : List Exchange) : Prop where
  granted : ∀ x ∈ sent, Granted lib grant x
  pinned : ∀ i x, sent[i]? = some x → Pinned grant (world i) x
  bounded : sent.length ≤ grant.maxRedirects + 1
  stripped : ∀ j x, sent[j]? = some x → Crossed lib sent j → ¬ SendsCredentials x
  dropped : ∀ (i j : Nat) (x y : Exchange), i < j → sent[i]? = some x → sent[j]? = some y → DropsBody x → y.body = none

/-- The client itself makes a credential header of the user name or password in the URL. -/
def Library.Authorizes (url : Url) : Prop := ∃ header ∈ lib.implied url, isCredentialHeader header.name = true

def LiteralsResolve : Prop :=
  ∀ i host port ip addresses, lib.parseIp host = some ip → (world i).lookup host port = .addresses addresses →
    addresses = [⟨ip, port⟩]

variable (request : HttpRequest) (deadline : Nat)

/-- A request can be sent: in time, to a granted destination of accepted addresses, with headers that are well formed. -/
structure Passes (hop : Hop) (url : Url) (method : String) (crossed : Bool) : Prop where
  entered : hop.entered < deadline
  granted : ∃ origin, validateDestination lib grant url method = .ok origin
  resolving : hop.resolving < deadline
  resolved : ∃ resolved, resolveDestination grant hop.lookup url = .ok resolved
  connecting : hop.connecting < deadline
  built : hop.built = true
  headers : ∃ headers, prepareHeaders lib crossed request.headers = .ok headers

/-- Where the answers of the servers lead: the URL and method after some redirects, and whether one of these has led to
another origin. -/
inductive Leads : Nat → Url → String → Bool → Prop
  | request {url : Url} {method : String} {timeout : Nat}
    (h : prepareRequest lib grant request = .ok (url, method, timeout)) : Leads 0 url method false
  | redirect {i : Nat} {url next : Url} {method origin : String} {crossed : Bool} {response : Response}
    (h : Leads i url method crossed) (hpasses : Passes lib grant request deadline (world i) url method crossed)
    (hanswer : (world i).answer = .ok response) (htarget : redirectTarget lib url response = .ok (some next))
    (horigin : canonicalOrigin lib next = .ok origin) (hcount : i ≠ grant.maxRedirects) :
    Leads (i + 1) next (if switchesToGet response.status method then "GET" else method)
      (crossed || lib.asciiOrigin url ≠ lib.asciiOrigin next)

end Spec

section Functions

variable {lib : Library} {grant : HttpGrant} {request : HttpRequest} {deadline : Nat}

theorem canonicalOrigin_ok {url : Url} {origin : String} (h : canonicalOrigin lib url = .ok origin) :
    origin = lib.asciiOrigin url := by
  unfold canonicalOrigin at h
  split at h
  · cases h
  · exact (Except.ok.inj h).symm

theorem validateDestination_gives (url : Url) (method : String) :
    Gives (fun _ => ∀ exchange : Exchange, exchange.url = url → exchange.method = method →
      Granted lib grant exchange) (validateDestination lib grant url method) := by
  refine .ite (fun _ => .error _) fun hscheme => .ite (fun _ => .error _) fun hplain => ?_
  cases horigin : canonicalOrigin lib url with
  | error error => exact .error _
  | ok origin =>
    refine .ite (fun _ => .error _) fun hallowed => .ite (fun _ => .error _) fun hmethod => .ok ?_
    rintro exchange rfl rfl
    rw [not_not, originAllowed, any_eq_true] at hallowed
    rw [not_not, any_eq_true] at hmethod
    obtain ⟨allowed, hmem, hsame⟩ := hallowed
    refine ⟨?_, ⟨allowed, hmem, ?_⟩, hmethod⟩
    · by_cases hhttps : exchange.url.scheme = "https"
      · exact .inl hhttps
      · have hhttp : exchange.url.scheme = "http" := by
          by_contra hne
          exact hscheme ⟨hhttps, hne⟩
        refine .inr ⟨hhttp, ?_⟩
        by_contra hdenied
        exact hplain ⟨hhttp, hdenied⟩
    · cases hparse : lib.parse allowed with
      | none => simp [hparse] at hsame
      | some url =>
        cases hcanonical : canonicalOrigin lib url with
        | error error => simp [hparse, hcanonical] at hsame
        | ok origin' =>
          have heq : origin' = origin := by simpa [hparse, hcanonical] using hsame
          rw [heq] at hcanonical
          refine ⟨url, rfl, hcanonical.trans horigin.symm, ?_⟩
          rw [hcanonical, canonicalOrigin_ok horigin]

theorem resolveDestination_gives (lookup : String → Nat → Lookup) (url : Url) :
    Gives (fun resolved => ∃ host port, url.hostStr = some host ∧ url.portOrKnownDefault = some port ∧
      lookup host port = .addresses resolved.addresses ∧
      (grant.allowPrivateNetwork = true ∨ ∀ address ∈ resolved.addresses, isPublicAddress address.ip = true))
      (resolveDestination grant lookup url) := by
  unfold resolveDestination
  cases hhost : url.hostStr with
  | none => exact .error _
  | some host =>
    cases hport : url.portOrKnownDefault with
    | none => exact .error _
    | some port =>
      dsimp only
      cases hlookup : lookup host port with
      | timedOut | failed => exact .error _
      | addresses addresses =>
        dsimp only
        split
        · exact .error _
        refine .ite (fun _ => .error _) fun hprivate => .ok ⟨host, port, rfl, rfl, hlookup, ?_⟩
        by_cases hallowed : grant.allowPrivateNetwork = true
        · exact .inl hallowed
        · right
          intro address hmem
          by_contra hpublic
          refine hprivate ⟨hallowed, any_eq_true.mpr ⟨address, hmem, ?_⟩⟩
          simpa using hpublic

theorem buildClient_gives (built : Bool) (url : Url) (resolved : Resolved) :
    Gives (fun address => ∃ host, url.hostStr = some host ∧
      (lib.parseIp host = none ∧ address ∈ resolved.addresses ∨
        ∃ ip, lib.parseIp host = some ip ∧ address = ⟨ip, url.portOrKnownDefault.getD 0⟩))
      (buildClient lib built url resolved) := by
  unfold buildClient
  cases hhost : url.hostStr with
  | none => exact .error _
  | some host =>
    refine .ite (fun _ => .error _) fun _ => ?_
    cases hip : lib.parseIp host with
    | none => exact .ok ⟨host, rfl, .inl ⟨hip, head_mem _⟩⟩
    | some ip => exact .ok ⟨host, rfl, .inr ⟨ip, hip, rfl⟩⟩

theorem prepareHeaders_stripped (headers : List HttpHeader) :
    Gives (fun prepared => ∀ header ∈ prepared, isCredentialHeader header.name = false)
      (prepareHeaders lib true headers) := by
  induction headers with
  | nil => exact .ok fun _ hmem => absurd hmem not_mem_nil
  | cons header rest ih =>
    unfold prepareHeaders
    cases hname : lib.headerName header.name with
    | none => exact .error _
    | some name =>
      refine .ite (fun _ => ih) fun hkept => ?_
      cases hvalue : lib.headerValue header.value with
      | none => exact .error _
      | some value =>
        refine .map (ih.mono fun prepared hprepared other hmem => ?_)
        rcases mem_cons.mp hmem with rfl | hmem
        · rw [not_or] at hkept
          simpa using hkept.2
        · exact hprepared other hmem

theorem contentLength_plain (body : Option BlobRef) :
    ∀ header ∈ contentLength body, isCredentialHeader header.name = false := by
  cases body with
  | none => exact fun _ hmem => absurd hmem not_mem_nil
  | some blob =>
    intro header hmem
    rw [mem_singleton.mp hmem]
    exact (by decide : isCredentialHeader "content-length" = false)

structure SentFrom (lib : Library) (grant : HttpGrant) (hop : Hop) (s : Redirecting) (exchange : Exchange) : Prop where
  url : exchange.url = s.url
  method : exchange.method = s.method
  body : exchange.body = s.body
  answer : exchange.answer = hop.answer
  granted : Granted lib grant exchange
  pinned : (∀ host port ip addresses, lib.parseIp host = some ip → hop.lookup host port = .addresses addresses →
    addresses = [⟨ip, port⟩]) → Pinned grant hop exchange
  stripped : s.stripSensitiveHeaders = true → (SendsCredentials exchange ↔ lib.Authorizes s.url)

variable {hop : Hop} {s : Redirecting} {exchange : Exchange}

theorem remainingTime_ok {now left : Nat} :
    remainingTime deadline now = .ok left ↔ now < deadline ∧ deadline - now = left := by
  unfold remainingTime
  split
  · simp
    omega
  · simp
    omega

theorem sendHop_ok : sendHop lib grant request deadline hop s = .ok exchange ↔
    hop.entered < deadline ∧ (∃ origin, validateDestination lib grant s.url s.method = .ok origin) ∧
    hop.resolving < deadline ∧ ∃ resolved, resolveDestination grant hop.lookup s.url = .ok resolved ∧
    hop.connecting < deadline ∧ ∃ address, buildClient lib hop.built s.url resolved = .ok address ∧
    ∃ headers, prepareHeaders lib s.stripSensitiveHeaders request.headers = .ok headers ∧
      ⟨s.url, s.method, address, lib.implied s.url ++ headers ++ contentLength s.body, s.body, hop.answer⟩ = exchange := by
  simp [sendHop, except_bind_ok, remainingTime_ok, pure, Except.pure]

theorem SentFrom.of_ok (h : sendHop lib grant request deadline hop s = .ok exchange) : SentFrom lib grant hop s exchange := by
  obtain ⟨-, ⟨_, hvalid⟩, -, resolved, hresolved, -, address, hclient, headers, hheaders, rfl⟩ := sendHop_ok.mp h
  refine ⟨rfl, rfl, rfl, rfl, (validateDestination_gives s.url s.method).of_ok hvalid _ rfl rfl, fun hliteral => ?_,
    fun hstrip => ?_⟩
  · obtain ⟨host, port, hhost, hport, hlookup, hpublic⟩ := (resolveDestination_gives hop.lookup s.url).of_ok hresolved
    obtain ⟨host', hhost', haddress⟩ := (buildClient_gives hop.built s.url resolved).of_ok hclient
    obtain rfl := Option.some.inj (hhost.symm.trans hhost')
    refine ⟨host, port, resolved.addresses, hhost, hport, hlookup, ?_, hpublic⟩
    rcases haddress with ⟨-, hmem⟩ | ⟨ip, hip, rfl⟩
    · exact hmem
    · rw [hliteral host port ip resolved.addresses hip hlookup, hport]
      exact mem_singleton_self _
  · rw [hstrip] at hheaders
    constructor
    · rintro ⟨header, hmem, hcredential⟩
      rcases mem_append.mp hmem with hmem | hmem
      · rcases mem_append.mp hmem with hmem | hmem
        · exact ⟨header, hmem, hcredential⟩
        · rw [(prepareHeaders_stripped request.headers).of_ok hheaders header hmem] at hcredential
          cases hcredential
      · rw [contentLength_plain s.body header hmem] at hcredential
        cases hcredential
    · rintro ⟨header, hmem, hcredential⟩
      exact ⟨header, mem_append_left _ (mem_append_left _ hmem), hcredential⟩

theorem sendHop_ok_iff : (∃ exchange, sendHop lib grant request deadline hop s = .ok exchange) ↔
    Passes lib grant request deadline hop s.url s.method s.stripSensitiveHeaders := by
  constructor
  · rintro ⟨exchange, h⟩
    obtain ⟨hentered, hvalid, hresolving, resolved, hresolved, hconnecting, address, hclient, headers, hheaders, -⟩ :=
      sendHop_ok.mp h
    refine ⟨hentered, hvalid, hresolving, ⟨resolved, hresolved⟩, hconnecting, ?_, headers, hheaders⟩
    unfold buildClient at hclient
    split at hclient
    · cases hclient
    · split at hclient
      · cases hclient
      · exact not_not.mp ‹_›
  · rintro ⟨hentered, hvalid, hresolving, ⟨resolved, hresolved⟩, hconnecting, hbuilt, headers, hheaders⟩
    obtain ⟨host, _, hhost, -⟩ := (resolveDestination_gives hop.lookup s.url).of_ok hresolved
    have hclient : ∃ address, buildClient lib hop.built s.url resolved = .ok address := by
      unfold buildClient
      rw [hhost, hbuilt]
      cases hip : lib.parseIp host <;> simp [hip]
    obtain ⟨address, hclient⟩ := hclient
    exact ⟨_, sendHop_ok.mpr
      ⟨hentered, hvalid, hresolving, resolved, hresolved, hconnecting, address, hclient, headers, hheaders, rfl⟩⟩

/-- What following a redirect does to the variables of the loop. -/
structure Redirected (lib : Library) (grant : HttpGrant) (s : Redirecting) (response : Response) (next : Redirecting) :
    Prop where
  target : redirectTarget lib s.url response = .ok (some next.url)
  origin : ∃ origin, canonicalOrigin lib next.url = .ok origin
  count : s.redirectCount ≠ grant.maxRedirects ∧ next.redirectCount = s.redirectCount + 1
  strip : next.stripSensitiveHeaders =
    (s.stripSensitiveHeaders || lib.asciiOrigin s.url ≠ lib.asciiOrigin next.url)
  method : next.method = if switchesToGet response.status s.method then "GET" else s.method
  body : next.body = if switchesToGet response.status s.method then none else s.body

theorem followRedirect_redirected {s next : Redirecting} {response : Response}
    (h : followRedirect lib grant s response = .ok (some next)) : Redirected lib grant s response next := by
  obtain ⟨target, htarget, h⟩ := except_bind_ok.mp h
  cases target with
  | none => cases h
  | some url =>
    dsimp only at h
    split at h
    · cases h
    · rename_i hcount
      obtain ⟨previous, hprevious, h⟩ := except_bind_ok.mp h
      obtain ⟨nextOrigin, hnext, h⟩ := except_bind_ok.mp h
      cases h
      refine ⟨htarget, ⟨nextOrigin, hnext⟩, ⟨hcount, rfl⟩, ?_, rfl, rfl⟩
      rw [canonicalOrigin_ok hprevious, canonicalOrigin_ok hnext]

theorem followRedirect_of_redirected {s next : Redirecting} {response : Response} {origin : String}
    (horigin : canonicalOrigin lib s.url = .ok origin) (h : Redirected lib grant s response next) :
    followRedirect lib grant s response = .ok (some next) := by
  obtain ⟨htarget, ⟨nextOrigin, hnext⟩, ⟨hcount, hsucc⟩, hstrip, hmethod, hbody⟩ := h
  unfold followRedirect
  rw [htarget]
  simp only [bind, Except.bind, hcount, if_false, pure, Except.pure, horigin, hnext]
  rw [← hmethod, ← hbody, canonicalOrigin_ok horigin, canonicalOrigin_ok hnext, ← hstrip, ← hsucc]

theorem canonicalOrigin_of_valid {url : Url} {method origin : String}
    (h : validateDestination lib grant url method = .ok origin) : canonicalOrigin lib url = .ok origin := by
  unfold validateDestination at h
  split at h
  · cases h
  split at h
  · cases h
  split at h
  · cases h
  rename_i origin' horigin
  split at h
  · cases h
  split at h
  · cases h
  · rw [horigin, h]

end Functions

section Course

/-- What is fixed while one request is made. -/
structure Fetch where
  lib : Library
  grant : HttpGrant
  request : HttpRequest
  deadline : Nat
  world : Nat → Hop

namespace Fetch

variable (f : Fetch)

def send (s : Redirecting) : Except HttpError Exchange :=
  sendHop f.lib f.grant f.request f.deadline (f.world s.redirectCount) s

def follow (s : Redirecting) : Option Redirecting :=
  (f.send s).toOption.bind fun exchange =>
    exchange.answer.toOption.bind fun response => (followRedirect f.lib f.grant s response).toOption.join

/-- The variables of the loop after some redirects. -/
def after (s : Redirecting) : Nat → Option Redirecting
  | 0 => some s
  | k + 1 => (after s k).bind f.follow

def loop (rounds : Nat) (s : Redirecting) : List Exchange × Option (Except HttpError Response) :=
  redirectLoop f.lib f.grant f.request f.deadline f.world rounds s

variable {f} {s s' next : Redirecting} {i k rounds : Nat}

theorem follow_some (h : f.follow s = some next) : ∃ exchange response, f.send s = .ok exchange ∧
    exchange.answer = .ok response ∧ Redirected f.lib f.grant s response next := by
  obtain ⟨exchange, hsend, h⟩ := Option.bind_eq_some_iff.mp h
  obtain ⟨response, hanswer, h⟩ := Option.bind_eq_some_iff.mp h
  exact ⟨exchange, response, ok_of_toOption hsend, ok_of_toOption hanswer,
    followRedirect_redirected (ok_of_toOption (Option.join_eq_some_iff.mp h))⟩

theorem after_add (j : Nat) : f.after s (i + j) = (f.after s i).bind fun s' => f.after s' j := by
  induction j with
  | zero => simp [after]
  | succ j ih =>
    rw [← Nat.add_assoc, after, ih, Option.bind_assoc]
    rfl

theorem after_keeps {P : Redirecting → Prop} (hstep : ∀ s next, f.follow s = some next → P s → P next) (hs : P s)
    (h : f.after s k = some s') : P s' := by
  induction k generalizing s' with
  | zero => exact Option.some.inj h ▸ hs
  | succ k ih =>
    obtain ⟨s₁, hs₁, hfollow⟩ := Option.bind_eq_some_iff.mp h
    exact hstep s₁ s' hfollow (ih hs₁)

theorem after_count (hcount : s.redirectCount = 0) (h : f.after s k = some s') :
    s'.redirectCount = k ∧ s'.redirectCount ≤ f.grant.maxRedirects := by
  induction k generalizing s' with
  | zero =>
    obtain rfl := Option.some.inj h
    omega
  | succ k ih =>
    obtain ⟨s₁, hs₁, hfollow⟩ := Option.bind_eq_some_iff.mp h
    obtain ⟨_, _, -, -, hnext⟩ := follow_some hfollow
    obtain ⟨hk, hle⟩ := ih hs₁
    obtain ⟨hne, hsucc⟩ := hnext.count
    omega

/-- One round of the loop: nothing more is sent where it does not follow a redirect. -/
theorem loop_succ (rounds : Nat) (s : Redirecting) :
    (∃ next, f.follow s = some next ∧ (f.loop (rounds + 1) s).2 = (f.loop rounds next).2 ∧
      (f.loop (rounds + 1) s).1 = (f.send s).toOption.toList ++ (f.loop rounds next).1) ∨
    f.follow s = none ∧ (f.loop (rounds + 1) s).2.isSome = true ∧ (f.loop (rounds + 1) s).1 = (f.send s).toOption.toList := by
  simp only [loop, follow, send, redirectLoop]
  cases sendHop f.lib f.grant f.request f.deadline (f.world s.redirectCount) s with
  | error error => exact .inr ⟨rfl, rfl, rfl⟩
  | ok exchange =>
    cases hanswer : exchange.answer with
    | error error => simp [Except.toOption, hanswer]
    | ok response =>
      cases hfollow : followRedirect f.lib f.grant s response with
      | error error => simp [Except.toOption, hanswer, hfollow]
      | ok next => cases next <;> simp [Except.toOption, hanswer, hfollow]

theorem loop_finishes (hrounds : f.grant.maxRedirects < s.redirectCount + rounds)
    (hcount : s.redirectCount ≤ f.grant.maxRedirects) : (f.loop rounds s).2.isSome = true := by
  induction rounds generalizing s with
  | zero => exact absurd hrounds (Nat.not_lt.mpr hcount)
  | succ rounds ih =>
    rcases loop_succ rounds s with ⟨next, hfollow, hsame, -⟩ | ⟨-, hsome, -⟩
    · obtain ⟨_, _, -, -, hnext⟩ := follow_some hfollow
      obtain ⟨hne, hsucc⟩ := hnext.count
      rw [hsame]
      exact ih (by omega) (by omega)
    · exact hsome

theorem crossed_of_strip (hs : s.stripSensitiveHeaders = false) (h : f.after s k = some s')
    (hstrip : s'.stripSensitiveHeaders = true) :
    ∃ i a b, i < k ∧ f.after s i = some a ∧ f.after s (i + 1) = some b ∧
      f.lib.asciiOrigin a.url ≠ f.lib.asciiOrigin b.url := by
  induction k generalizing s' with
  | zero =>
    obtain rfl := Option.some.inj h
    simp [hs] at hstrip
  | succ k ih =>
    obtain ⟨s₁, hs₁, hfollow⟩ := Option.bind_eq_some_iff.mp h
    obtain ⟨_, _, -, -, hnext⟩ := follow_some hfollow
    rw [hnext.strip, Bool.or_eq_true, decide_eq_true_eq] at hstrip
    rcases hstrip with hstrip | horigin
    · obtain ⟨i, a, b, hlt, hab⟩ := ih hs₁ hstrip
      exact ⟨i, a, b, by omega, hab⟩
    · exact ⟨k, s₁, s', Nat.lt_succ_self k, hs₁, h, horigin⟩

theorem strip_kept (hs : s.stripSensitiveHeaders = true) (h : f.after s k = some s') : s'.stripSensitiveHeaders = true := by
  refine after_keeps (P := fun s => s.stripSensitiveHeaders = true) (fun s next hfollow hs => ?_) hs h
  obtain ⟨_, _, -, -, hnext⟩ := follow_some hfollow
  rw [hnext.strip, hs, Bool.true_or]

theorem body_kept (hs : s.body = none) (h : f.after s k = some s') : s'.body = none := by
  refine after_keeps (P := fun s => s.body = none) (fun s next hfollow hs => ?_) hs h
  obtain ⟨_, _, -, -, hnext⟩ := follow_some hfollow
  rw [hnext.body, hs, ite_self]

/-- These are the requests sent from the variables after each redirect. -/
def Sends (f : Fetch) (s : Redirecting) (sent : List Exchange) : Prop :=
  ∀ k, sent[k]? = (f.after s k).bind fun s' => (f.send s').toOption

theorem loop_sent (hrounds : f.grant.maxRedirects < s.redirectCount + rounds)
    (hcount : s.redirectCount ≤ f.grant.maxRedirects) : f.Sends s (f.loop rounds s).1 := by
  intro k
  induction rounds generalizing s k with
  | zero => exact absurd hrounds (Nat.not_lt.mpr hcount)
  | succ rounds ih =>
    have hstart : (f.send s).toOption.toList[0]? = (f.send s).toOption := by
      cases (f.send s).toOption <;> rfl
    have hone : f.after s 1 = f.follow s := rfl
    rcases loop_succ rounds s with ⟨next, hfollow, -, hsent⟩ | ⟨hfollow, -, hsent⟩
    · obtain ⟨exchange, _, hsend, -, hnext⟩ := follow_some hfollow
      obtain ⟨hne, hsucc⟩ := hnext.count
      rw [hsent, hsend]
      cases k with
      | zero => exact congrArg Except.toOption hsend.symm
      | succ k =>
        rw [Nat.add_comm k 1, after_add, hone, hfollow, Option.bind_some, ← ih (by omega) (by omega) k, Nat.add_comm 1 k]
        rfl
    · rw [hsent]
      cases k with
      | zero => exact hstart
      | succ k =>
        rw [Nat.add_comm k 1, after_add, hone, hfollow]
        cases (f.send s).toOption <;> simp

namespace Sends

variable {sent : List Exchange} {x y : Exchange} {j : Nat}

theorem getElem (h : f.Sends s sent) (hs' : f.after s k = some s') (hsend : f.send s' = .ok x) : sent[k]? = some x := by
  rw [h, hs', Option.bind_some, hsend]
  rfl

theorem origin (h : f.Sends s sent) (hcount : s.redirectCount = 0) (hx : sent[k]? = some x) :
    ∃ s', f.after s k = some s' ∧ k ≤ f.grant.maxRedirects ∧ f.send s' = .ok x ∧
      SentFrom f.lib f.grant (f.world k) s' x := by
  rw [h] at hx
  obtain ⟨s', hs', hsend⟩ := Option.bind_eq_some_iff.mp hx
  obtain ⟨rfl, hle⟩ := after_count hcount hs'
  exact ⟨s', hs', hle, ok_of_toOption hsend, .of_ok (ok_of_toOption hsend)⟩

/-- Headers are stripped from the requests after a redirect to another origin, and from no others. -/
theorem crossed_iff (h : f.Sends s sent) (hcount : s.redirectCount = 0) (hs : s.stripSensitiveHeaders = false)
    (hx : sent[k]? = some x) (hs' : f.after s k = some s') :
    Crossed f.lib sent k ↔ s'.stripSensitiveHeaders = true := by
  constructor
  · rintro ⟨i, y, z, hlt, hy, hz, horigin⟩
    obtain ⟨a, ha, -, -, hfroma⟩ := h.origin hcount hy
    obtain ⟨b, hb, -, -, hfromb⟩ := h.origin hcount hz
    obtain ⟨d, rfl⟩ := Nat.exists_eq_add_of_le hlt
    rw [after_add, hb, Option.bind_some] at hs'
    refine strip_kept ?_ hs'
    rw [after, ha, Option.bind_some] at hb
    obtain ⟨_, _, -, -, hnext⟩ := follow_some hb
    rw [hnext.strip, Bool.or_eq_true, decide_eq_true_eq, ← hfroma.url, ← hfromb.url]
    exact .inr horigin
  · intro hstrip
    have hlength : k < sent.length := (List.getElem?_eq_some_iff.mp hx).1
    obtain ⟨i, a, b, hlt, ha, hb, horigin⟩ := crossed_of_strip hs hs' hstrip
    have hi : sent[i]? = some sent[i] := getElem?_eq_getElem (by omega)
    have hi' : sent[i + 1]? = some sent[i + 1] := getElem?_eq_getElem (by omega)
    obtain ⟨a', ha', -, -, hfroma⟩ := h.origin hcount hi
    obtain ⟨b', hb', -, -, hfromb⟩ := h.origin hcount hi'
    obtain rfl := Option.some.inj (ha.symm.trans ha')
    obtain rfl := Option.some.inj (hb.symm.trans hb')
    exact ⟨i, sent[i], sent[i + 1], hlt, hi, hi', by rwa [hfroma.url, hfromb.url]⟩

theorem dropped (h : f.Sends s sent) (hcount : s.redirectCount = 0) (hlt : k < j) (hx : sent[k]? = some x)
    (hy : sent[j]? = some y) (hdrops : DropsBody x) : y.body = none := by
  obtain ⟨a, ha, -, hsend, hfroma⟩ := h.origin hcount hx
  obtain ⟨c, hc, -, -, hfromc⟩ := h.origin hcount hy
  obtain ⟨d, rfl⟩ := Nat.exists_eq_add_of_le hlt
  rw [after_add] at hc
  obtain ⟨b, hb, hc⟩ := Option.bind_eq_some_iff.mp hc
  rw [hfromc.body]
  refine body_kept ?_ hc
  rw [after, ha, Option.bind_some] at hb
  obtain ⟨exchange, response, hsend', hanswer, hnext⟩ := follow_some hb
  cases hsend.symm.trans hsend'
  obtain ⟨answered, hok, hswitch⟩ := hdrops
  cases hok.symm.trans hanswer
  rw [hnext.body, ← hfroma.method, if_pos hswitch]

/-- They obey the grant just when none is sent to a URL that authorizes once headers are stripped. -/
theorem obeys_iff (h : f.Sends s sent) (hliteral : LiteralsResolve f.lib f.world) (hcount : s.redirectCount = 0)
    (hs : s.stripSensitiveHeaders = false) :
    Obeys f.lib f.grant f.world sent ↔ ∀ k s' x, f.after s k = some s' → f.send s' = .ok x →
      s'.stripSensitiveHeaders = true → ¬ f.lib.Authorizes s'.url := by
  constructor
  · intro hobeys k s' x hs' hsend hstrip
    have hx := h.getElem hs' hsend
    have hplain := hobeys.stripped k x hx ((h.crossed_iff hcount hs hx hs').mpr hstrip)
    rwa [(SentFrom.of_ok hsend).stripped hstrip] at hplain
  · intro hplain
    refine ⟨fun x hmem => ?_, fun k x hx => ?_, ?_, fun k x hx hcrossed => ?_,
      fun i j x y hlt hx hy => h.dropped hcount hlt hx hy⟩
    · obtain ⟨k, hx⟩ := getElem?_of_mem hmem
      obtain ⟨s', -, -, -, hfrom⟩ := h.origin hcount hx
      exact hfrom.granted
    · obtain ⟨s', -, -, -, hfrom⟩ := h.origin hcount hx
      exact hfrom.pinned (hliteral k)
    · by_contra hlong
      obtain ⟨_, -, hle, -⟩ := h.origin hcount (getElem?_eq_getElem (show f.grant.maxRedirects + 1 < sent.length by omega))
      omega
    · obtain ⟨s', hs', -, hsend, hfrom⟩ := h.origin hcount hx
      have hstrip := (h.crossed_iff hcount hs hx hs').mp hcrossed
      rw [hfrom.stripped hstrip]
      exact hplain k s' x hs' hsend hstrip

end Sends

variable {url url' : Url} {method method' : String} {timeout : Nat} {crossed : Bool}

theorem leads_iff (hprepared : prepareRequest f.lib f.grant f.request = .ok (url, method, timeout)) :
    Leads f.lib f.grant f.world f.request f.deadline k url' method' crossed ↔ ∃ s',
      f.after ⟨url, method, f.request.body, false, 0⟩ k = some s' ∧
        s'.url = url' ∧ s'.method = method' ∧ s'.stripSensitiveHeaders = crossed := by
  constructor
  · intro h
    induction h with
    | request h =>
      cases h.symm.trans hprepared
      exact ⟨_, rfl, rfl, rfl, rfl⟩
    | @redirect i url next method origin crossed response _ hpasses hanswer htarget horigin hcount ih =>
      obtain ⟨s', hs', rfl, rfl, rfl⟩ := ih
      obtain ⟨exchange, hsend⟩ := sendHop_ok_iff.mpr hpasses
      obtain ⟨valid, hvalid⟩ := hpasses.granted
      obtain ⟨rfl, -⟩ := after_count rfl hs'
      let next' : Redirecting := ⟨next, if switchesToGet response.status s'.method then "GET" else s'.method,
        if switchesToGet response.status s'.method then none else s'.body,
        s'.stripSensitiveHeaders || f.lib.asciiOrigin s'.url ≠ f.lib.asciiOrigin next, s'.redirectCount + 1⟩
      have hfollow : followRedirect f.lib f.grant s' response = .ok (some next') :=
        followRedirect_of_redirected (canonicalOrigin_of_valid hvalid)
          ⟨htarget, ⟨origin, horigin⟩, ⟨hcount, rfl⟩, rfl, rfl, rfl⟩
      refine ⟨next', ?_, rfl, rfl, rfl⟩
      rw [after, hs', Option.bind_some, follow, send, hsend]
      simp [Except.toOption, (SentFrom.of_ok hsend).answer.trans hanswer, hfollow]
  · rintro ⟨s', h, rfl, rfl, rfl⟩
    induction k generalizing s' with
    | zero =>
      obtain rfl := Option.some.inj h
      exact .request hprepared
    | succ k ih =>
      obtain ⟨s₁, hs₁, hfollow⟩ := Option.bind_eq_some_iff.mp h
      obtain ⟨exchange, response, hsend, hanswer, hnext⟩ := follow_some hfollow
      obtain ⟨rfl, -⟩ := after_count rfl hs₁
      obtain ⟨origin, horigin⟩ := hnext.origin
      rw [hnext.method, hnext.strip]
      exact .redirect (ih s₁ hs₁) (sendHop_ok_iff.mp ⟨exchange, hsend⟩)
        ((SentFrom.of_ok hsend).answer.symm.trans hanswer) hnext.target horigin hnext.count.1

end Fetch

variable {lib : Library} {grant : HttpGrant} {request : HttpRequest} {url : Url} {method : String} {timeout : Nat}

theorem Leads.prepared {world : Nat → Hop} {deadline i : Nat} {crossed : Bool}
    (h : Leads lib grant world request deadline i url method crossed) :
    ∃ prepared, prepareRequest lib grant request = .ok prepared := by
  induction h with
  | request h => exact ⟨_, h⟩
  | redirect _ _ _ _ _ _ ih => exact ih

theorem prepareRequest_timeout
    (h : prepareRequest lib grant request = .ok (url, method, timeout)) : timeout = request.timeoutMs := by
  unfold prepareRequest at h
  split at h
  · cases h
  dsimp only at h
  repeat' split at h
  all_goals cases h
  rfl

theorem obeys_nil {world : Nat → Hop} : Obeys lib grant world [] where
  granted _ hmem := absurd hmem not_mem_nil
  pinned _ _ h := by simp at h
  bounded := Nat.zero_le _
  stripped _ _ h := by simp at h
  dropped _ _ _ _ _ h := by simp at h

end Course

/-- A request is answered after finitely many rounds, and what is sent obeys the grant just when the client makes no
credential header of a URL to which the answers lead across an origin. -/
theorem redirects_obey_grant (lib : Library) (grant : HttpGrant) (request : HttpRequest) (started : Nat)
    (world : Nat → Hop) (hliteral : LiteralsResolve lib world) :
    (openResponse lib grant request started world).2.isSome = true ∧
      (Obeys lib grant world (openResponse lib grant request started world).1 ↔
        ∀ j url method, Leads lib grant world request (started + request.timeoutMs) j url method true →
          Passes lib grant request (started + request.timeoutMs) (world j) url method true → ¬ lib.Authorizes url) := by
  unfold openResponse
  cases hprepared : prepareRequest lib grant request with
  | error error =>
    refine ⟨rfl, iff_of_true obeys_nil fun j url method hleads => ?_⟩
    obtain ⟨_, hok⟩ := hleads.prepared
    cases hprepared.symm.trans hok
  | ok prepared =>
    obtain ⟨url, method, timeout⟩ := prepared
    obtain rfl := prepareRequest_timeout hprepared
    let f : Fetch := ⟨lib, grant, request, started + request.timeoutMs, world⟩
    refine ⟨Fetch.loop_finishes (f := f) (by simp [f]) (Nat.zero_le _), ?_⟩
    refine ((Fetch.loop_sent (f := f) (by simp [f]) (Nat.zero_le _)).obeys_iff hliteral rfl rfl).trans ?_
    constructor
    · intro h j url' method' hleads hpasses
      obtain ⟨s, hs, rfl, rfl, hstrip⟩ := (Fetch.leads_iff (f := f) hprepared).mp hleads
      obtain ⟨rfl, -⟩ := Fetch.after_count rfl hs
      rw [← hstrip] at hpasses
      obtain ⟨exchange, hsend⟩ := sendHop_ok_iff.mpr hpasses
      exact h _ s exchange hs hsend hstrip
    · intro h k s exchange hs hsend hstrip
      obtain ⟨rfl, -⟩ := Fetch.after_count rfl hs
      have hpasses := sendHop_ok_iff.mp ⟨exchange, hsend⟩
      rw [hstrip] at hpasses
      exact h _ s.url s.method ((Fetch.leads_iff (f := f) hprepared).mpr ⟨s, hs, rfl, rfl, hstrip⟩) hpasses

def sampleUrl (username : String) (password : Option String) (host : String) : Url :=
  ⟨"https", username, password, some host, none, "/", none, none, false⟩

def sampleParse (url : String) : Option Url :=
  if url = "https://a.example/" then some (sampleUrl "" none "a.example")
  else if url = "https://b.example/" then some (sampleUrl "" none "b.example")
  else if url = "https://u:p@b.example/" then some (sampleUrl "u" (some "p") "b.example")
  else none

def sampleLibrary : Library where
  parse := sampleParse
  join _ location := sampleParse location
  asciiOrigin url := url.scheme ++ "://" ++ url.hostStr.getD ""
  methodFromBytes := some
  headerName := some
  headerValue := some
  parseIp _ := none
  implied url :=
    if url.username ≠ "" ∨ url.password.isSome = true then [⟨"authorization", "Basic dTpw".toUTF8.toList⟩] else []

def sampleGrant : HttpGrant := ⟨["https://a.example/", "https://b.example/"], ["GET"], false, false, 0, 1, 1000⟩

def sampleRequest : HttpRequest :=
  ⟨"GET", "https://a.example/", [⟨"authorization", "Bearer t".toUTF8.toList⟩], none, 1000⟩

def sampleWorld (location : String) (i : Nat) : Hop where
  entered := 0
  resolving := 0
  connecting := 0
  lookup _ port := .addresses [⟨.v4 ⟨93, 184, 216, 34⟩, port⟩]
  built := true
  answer := .ok (if i = 0 then ⟨302, [⟨"location", location.toUTF8.toList⟩]⟩ else ⟨200, []⟩)

theorem redirects_obey_grant_plain :
    Obeys sampleLibrary sampleGrant (sampleWorld "https://b.example/")
        (openResponse sampleLibrary sampleGrant sampleRequest 0 (sampleWorld "https://b.example/")).1 ∧
      ((openResponse sampleLibrary sampleGrant sampleRequest 0 (sampleWorld "https://b.example/")).1.map
        fun x => (x.url.hostStr, x.headers.map (·.name))) =
        [(some "a.example", ["authorization"]), (some "b.example", [])] := by
  have hplain : ∀ j url method crossed,
      Leads sampleLibrary sampleGrant (sampleWorld "https://b.example/") sampleRequest 1000 j url method crossed →
      url = sampleUrl "" none "a.example" ∨ url = sampleUrl "" none "b.example" := by
    intro j url method crossed h
    induction h with
    | request h =>
      cases h.symm.trans (show prepareRequest sampleLibrary sampleGrant sampleRequest =
        .ok (sampleUrl "" none "a.example", "GET", 1000) by decide +kernel)
      exact .inl rfl
    | @redirect i url next _ _ _ response _ _ hanswer htarget _ _ _ =>
      obtain rfl := Except.ok.inj hanswer
      split at htarget
      · have hnext : redirectTarget sampleLibrary url ⟨302, [⟨"location", "https://b.example/".toUTF8.toList⟩]⟩ =
            .ok (some (sampleUrl "" none "b.example")) := by
          have htext : headerToStr "https://b.example/".toByteArray.toList = some "https://b.example/" := by decide +kernel
          simp [redirectTarget, Response.location, htext, sampleLibrary, sampleParse]
        cases htarget.symm.trans hnext
        exact .inr rfl
      · cases htarget
  refine ⟨(redirects_obey_grant sampleLibrary sampleGrant sampleRequest 0 (sampleWorld "https://b.example/")
    (fun _ _ _ _ _ hip => by cases hip)).2.mpr fun j url method hleads _ => ?_, by decide +kernel⟩
  unfold Library.Authorizes
  rcases hplain j url method true hleads with rfl | rfl
  · decide +kernel
  · decide +kernel

/-- A redirect to a URL with a user name and password makes the client send credentials to the other origin. -/
theorem redirect_sends_credentials :
    LiteralsResolve sampleLibrary (sampleWorld "https://u:p@b.example/") ∧
      ∃ x y, (openResponse sampleLibrary sampleGrant sampleRequest 0 (sampleWorld "https://u:p@b.example/")).1 = [x, y] ∧
        sampleLibrary.asciiOrigin x.url ≠ sampleLibrary.asciiOrigin y.url ∧ SendsCredentials y ∧
        ¬ Obeys sampleLibrary sampleGrant (sampleWorld "https://u:p@b.example/") [x, y] := by
  let run := (openResponse sampleLibrary sampleGrant sampleRequest 0 (sampleWorld "https://u:p@b.example/")).1
  have hrun : ∃ x y, run = [x, y] ∧ sampleLibrary.asciiOrigin x.url ≠ sampleLibrary.asciiOrigin y.url ∧
      SendsCredentials y := by
    have hlength : run.length = 2 := by decide +kernel
    obtain ⟨x, y, hxy⟩ := length_eq_two.mp hlength
    refine ⟨x, y, hxy, ?_, ?_⟩
    · have hall : ∀ x ∈ run[0]?, ∀ y ∈ run[1]?, sampleLibrary.asciiOrigin x.url ≠ sampleLibrary.asciiOrigin y.url := by
        decide +kernel
      exact hall x (by rw [hxy]; rfl) y (by rw [hxy]; rfl)
    · have hall : ∀ y ∈ run[1]?, ∃ header ∈ y.headers, isCredentialHeader header.name = true := by decide +kernel
      exact hall y (by rw [hxy]; rfl)
  obtain ⟨x, y, hxy, horigin, hsends⟩ := hrun
  refine ⟨(fun _ _ _ _ _ hip => by cases hip), x, y, hxy, horigin, hsends, fun hobeys => ?_⟩
  exact hobeys.stripped 1 y rfl ⟨0, x, y, Nat.zero_lt_one, rfl, rfl, horigin⟩ hsends

end Pluribus.Http
