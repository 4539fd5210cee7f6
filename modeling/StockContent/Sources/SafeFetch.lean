import StockContent.Ledger.Projector
import StockContent.Storage.Dict
import StockContent.Storage.Triple
import StockContent.Text.Urls

/-! Sources are fetched from allowed hosts only, and from the addresses that were checked. The network may answer every
question in another way than before, so nothing that was checked is asked for twice. -/
namespace StockContent.Sources
open Storage Procedure Text

/-- What `ipaddress` says of an address. -/
structure IpAddress where
  isLoopback : Bool
  isPrivate : Bool
  isLinkLocal : Bool
  isReserved : Bool
  isUnspecified : Bool
  isMulticast : Bool
  isGlobal : Bool

/-- `sendable` is what the HTTP client accepts of a host, a target and headers, `text` is `str` of what is no string. -/
structure FetchTables extends UrlTables where
  lower_ascii : ∀ name, (∀ c ∈ name, c.val < 128) → lower name = name.map Char.toLower
  idna : List Char → Option (List Char)
  ipAddress : List Char → Option IpAddress
  urljoin : List Char → List Char → Except UrlError (List Char)
  sendable : List Char → List Char → Dict (List Char) (List Char) → Bool
  text : Json → String

structure UnsafeSourceURL where
  message : String
  code : String := "SOURCE_URL_UNSAFE"
  url : List Char

inductive SourceError where
  | unsafeSourceURL (error : UnsafeSourceURL)
  | downloadHTTP (status : Nat)
  | valueError (error : UrlError)
  | osError (message : String)
  | httpException
  | runtimeError (message : String)

/-- `none` is a read that raises. -/
structure SourceResponse where
  status : Nat
  location : Option (List Char)
  chunks : List (Option (List UInt8))

inductive SourceEvent where
  | resolved (host : List Char) (port : Nat) (answer : Option (List (List Char)))
  | attempted (address : List Char) (port : Nat) (serverName : Option (List Char)) (connected : Bool)
  | requested (url target : List Char) (headers : Dict (List Char) (List Char))
  | answered (response : Option SourceResponse)
  | stored (chunk : List UInt8)

/-- Each answer depends on all that happened before. -/
structure SourceNetwork where
  resolve : List SourceEvent → List Char → Nat → Option (List (List Char))
  accepts : List SourceEvent → List Char → Nat → Option (List Char) → Bool
  answer : List SourceEvent → Option SourceResponse
  now : List SourceEvent → Rat

/-- A call of one of these functions, with the course of its events as the state. -/
abbrev Fetch := Procedure (List SourceEvent) SourceError

abbrev Headers := Dict (List Char) (List Char)

abbrev Cookie := List (String × Json)

section Endpoint
variable (tables : FetchTables) (network : SourceNetwork) (allowed : List (List Char))

def defaultAllowedDomains : List (List Char) :=
  ["bilibili.com".toList, "www.bilibili.com".toList, "b23.tv".toList, "bilivideo.com".toList, "biliapi.com".toList,
    "xiaoe-tech.com".toList, "m.xiaoe-tech.com".toList]

/-- `host.lower().rstrip(".")`. -/
def bareHost (host : List Char) : List Char := (tables.lower host).rdropWhile (· = '.')

def isWithin (host domain : List Char) : Bool := host = domain || ('.' :: domain).isSuffixOf host

def isAllowedHost (host : List Char) : Bool := allowed.any (isWithin (bareHost tables host))

def safeIp (value : List Char) : Bool :=
  (tables.ipAddress value).any fun ip =>
    !(ip.isLoopback || ip.isPrivate || ip.isLinkLocal || ip.isReserved || ip.isUnspecified || ip.isMulticast ||
      !ip.isGlobal)

/-- What follows the host, or the bracket after it. -/
def portText (netloc : List Char) : List Char :=
  if (hostinfo netloc).contains '[' then (partition ':' (partition ']' (partition '[' (hostinfo netloc)).2).2).2
  else (partition ':' (hostinfo netloc)).2

def decimalValue (digits : List Char) : Nat := digits.foldl (fun n c => 10 * n + (c.toNat - 48)) 0

/-- `parsed.port`, with zero for none; `int` refuses more than 4300 digits. -/
def parsedPort (netloc : List Char) : Option Nat :=
  if (portText netloc).all Char.isDigit && (portText netloc).length ≤ 4300 && decimalValue (portText netloc) ≤ 65535 then
    some (decimalValue (portText netloc))
  else none

structure Endpoint where
  parsed : SplitResult
  host : List Char
  port : Nat

def Endpoint.tls (endpoint : Endpoint) : Bool := endpoint.parsed.scheme = "https".toList

def Endpoint.serverName (endpoint : Endpoint) : Option (List Char) := if endpoint.tls then some endpoint.host else none

def malformed (message : String) (url : List Char) : SourceError :=
  .unsafeSourceURL ⟨message, "SOURCE_URL_MALFORMED", url⟩

def isHttp (scheme : List Char) : Bool := scheme = "http".toList || scheme = "https".toList

def resolvedPort (scheme : List Char) (port : Nat) : Nat :=
  if port = 0 then (if scheme = "https".toList then 443 else 80) else port

/-- The checks before a name is resolved. -/
def checkedEndpoint (url : List Char) : Except SourceError Endpoint := do
  let parsed ← (urlsplit tables.toUrlTables url).mapError fun _ => malformed "source URL is malformed" url
  let port ← (parsedPort parsed.netloc).elim (.error (malformed "source URL is malformed" url)) .ok
  let host := hostname tables.toUrlTables parsed.netloc
  require (malformed "source URL must use HTTP(S) and include a hostname" url) (isHttp parsed.scheme && host ≠ [])
  require (.unsafeSourceURL ⟨"source URL userinfo is not allowed", "SOURCE_URL_USERINFO", url⟩)
    (username parsed.netloc = none && password parsed.netloc = none)
  let host ← (tables.idna (bareHost tables host)).elim (.error (malformed "source hostname is malformed" url)) .ok
  require (.unsafeSourceURL ⟨"source domain is not allowlisted: " ++ String.ofList host,
    "SOURCE_DOMAIN_NOT_ALLOWLISTED", url⟩)
    (isAllowedHost tables allowed host)
  return ⟨parsed, host, resolvedPort parsed.scheme port⟩

def getaddrinfo (host : List Char) (port : Nat) : Fetch (Option (List (List Char))) :=
  step fun course => (course ++ [.resolved host port (network.resolve course host port)],
    .ok (network.resolve course host port))

/-- One address that is not safe refuses all of them. -/
def checkedAddresses (url host : List Char) : Option (List (List Char)) → Except SourceError (List (List Char))
  | none => .error (.unsafeSourceURL
      ⟨"source DNS resolution failed: " ++ String.ofList host, "SOURCE_DNS_RESOLUTION_FAILED", url⟩)
  | some addresses => do
    require (.unsafeSourceURL ⟨"source resolves to a private or local address", "SOURCE_PRIVATE_ADDRESS", url⟩)
      (!addresses.isEmpty && addresses.all (safeIp tables))
    return addresses.eraseDups

def validatedEndpoint (url : List Char) : Fetch (Endpoint × List (List Char)) := do
  let endpoint ← attempt (checkedEndpoint tables allowed url)
  let answer ← getaddrinfo network endpoint.host endpoint.port
  let addresses ← attempt (checkedAddresses tables url endpoint.host answer)
  return (endpoint, addresses)

/-- The same checks in the same order, for the address alone. -/
def validateSourceUrl (url : List Char) : Fetch (List Char) := do
  let _ ← validatedEndpoint tables network allowed url
  return url

end Endpoint

section Cookies
variable (tables : FetchTables)

def cookieText (cookie : Cookie) (key : String) : Option (List Char) :=
  match Json.lookup cookie key with
  | some (.str value) => some value.toList
  | _ => none

def cookieDomain (cookie : Cookie) : List Char :=
  (tables.lower (Json.orText tables.text (Json.lookup cookie "domain")).toList).dropWhile (· = '.')

def orRoot (path : List Char) : List Char := if path = [] then ['/'] else path

def cookiePath (cookie : Cookie) : List Char := orRoot (Json.orText tables.text (Json.lookup cookie "path")).toList

def isSecure (cookie : Cookie) : Bool := (Json.lookup cookie "secure").any Ledger.truthy

/-- Only a positive number is a time to expire at. -/
def isExpired (now : Rat) (cookie : Cookie) : Bool :=
  ((Json.lookup cookie "expires").bind Json.number?).any fun expires => 0 < expires && expires ≤ now

def cookiePair (cookie : Cookie) : Option (List Char) := do
  let name ← cookieText cookie "name"
  let value ← cookieText cookie "value"
  return name ++ '=' :: value

def goesWith (now : Rat) (parsed : SplitResult) (host : List Char) (cookie : Cookie) : Bool :=
  cookieDomain tables cookie ≠ [] && isWithin host (cookieDomain tables cookie) &&
    (cookiePath tables cookie).isPrefixOf (orRoot parsed.path) && (!isSecure cookie || parsed.scheme = "https".toList) &&
      !isExpired now cookie

def cookieLine (cookies : List Cookie) : List Char := List.intercalate [';', ' '] (cookies.filterMap cookiePair)

def headerFor (jar : List Cookie) (now : Rat) (url : List Char) : Except SourceError (Option (List Char)) := do
  let parsed ← (urlsplit tables.toUrlTables url).mapError .valueError
  let host := tables.lower (hostname tables.toUrlTables parsed.netloc)
  let cookies := jar.filter (goesWith tables now parsed host)
  return if isHttp parsed.scheme && host ≠ [] && !(cookies.filterMap cookiePair).isEmpty
    then some (cookieLine cookies) else none

end Cookies

section Fetch
variable (tables : FetchTables) (network : SourceNetwork) (allowed : List (List Char))

/-- `urlparse` cuts the parameters off the last segment. -/
def withoutParams (path : List Char) : List Char :=
  path.rdropWhile (· ≠ '/') ++ (path.rtakeWhile (· ≠ '/')).takeWhile (· ≠ ';')

def requestTarget (parsed : SplitResult) : List Char :=
  orRoot (withoutParams parsed.path) ++ if parsed.query = [] then [] else '?' :: parsed.query

def ownHeaders (parsed : SplitResult) : Headers :=
  Dict.set (Dict.set Table.empty "Host".toList parsed.netloc) "User-Agent".toList "stock-content-safe-fetch/1".toList

def requestHeaders (parsed : SplitResult) (headers : Headers) (cookie : Option (List Char)) : Headers :=
  match cookie with
  | some (c :: cookie) => Dict.set ((ownHeaders parsed).putAll headers.rows) "Cookie".toList (c :: cookie)
  | _ => (ownHeaders parsed).putAll headers.rows

def tryAddress (address : List Char) (port : Nat) (serverName : Option (List Char)) : Fetch Bool :=
  step fun course => (course ++ [.attempted address port serverName (network.accepts course address port serverName)],
    .ok (network.accepts course address port serverName))

/-- The first of the addresses that answers, and for TLS proves the name. -/
def connectPinned (endpoint : Endpoint) : List (List Char) → Fetch Unit
  | [] => throw (.osError ("could not connect to validated source endpoint: " ++ String.ofList endpoint.host))
  | address :: addresses => do
    let connected ← tryAddress network address endpoint.port endpoint.serverName
    if connected then pure () else connectPinned endpoint addresses

def cookieHeader (jar : Option (List Cookie)) (url : List Char) : Fetch (Option (List Char)) :=
  match jar with
  | none => pure none
  | some jar => step fun course => (course, headerFor tables jar (network.now course) url)

def send (url target : List Char) (headers : Headers) : Fetch Unit :=
  step fun course => (course ++ [.requested url target headers], .ok ())

def getresponse : Fetch SourceResponse :=
  step fun course => (course ++ [.answered (network.answer course)],
    (network.answer course).elim (.error .httpException) .ok)

/-- One request, to an endpoint that was validated. -/
def fetchOnce (jar : Option (List Cookie)) (headers : Headers) (url : List Char) (endpoint : Endpoint)
    (addresses : List (List Char)) : Fetch SourceResponse := do
  let cookie ← cookieHeader tables network jar url
  let given := requestHeaders endpoint.parsed headers cookie
  attempt (require .httpException (tables.sendable endpoint.host (requestTarget endpoint.parsed) given))
  connectPinned network endpoint addresses
  send url (requestTarget endpoint.parsed) given
  getresponse network

def redirectStatuses : List Nat := [301, 302, 303, 307, 308]

def redirectUnsafe (message : String) (url : List Char) : SourceError :=
  .unsafeSourceURL ⟨message, "SOURCE_REDIRECT_UNSAFE", url⟩

/-- Where a redirect leads, if it says so. -/
def redirectTarget (url : List Char) (response : SourceResponse) : Except SourceError (List Char) :=
  match response.location with
  | some (c :: location) => (tables.urljoin url (c :: location)).mapError .valueError
  | _ => .error (redirectUnsafe "source redirect did not include a Location" url)

/-- With the requests that are left. -/
def openSafeResponse (jar : Option (List Cookie)) (headers : Headers) :
    Nat → List Char → Fetch (List Char × SourceResponse)
  | 0, current => throw (redirectUnsafe "source redirect chain is too long" current)
  | left + 1, current => do
    let validated ← validatedEndpoint tables network allowed current
    let response ← fetchOnce tables network jar headers current validated.1 validated.2
    if redirectStatuses.contains response.status then do
      let next ← attempt (redirectTarget tables current response)
      openSafeResponse jar headers left next
    else return (current, response)

def expandSafeRedirect (url : List Char) (maxRedirects : Int) : Fetch (List Char) := do
  let opened ← openSafeResponse tables network allowed none Table.empty (maxRedirects + 1).toNat url
  attempt (require (redirectUnsafe "source redirect expansion failed" url)
    (200 ≤ opened.2.status && opened.2.status < 400))
  return opened.1

def unsafeHeaders : List (List Char) := ["host".toList, "proxy".toList, "proxy-authorization".toList, "cookie".toList]

def checkHeader (url : List Char) (header : List Char × List Char) : Fetch Unit := do
  attempt (require (.unsafeSourceURL ⟨"unsafe download header is not allowed", "SOURCE_HEADER_UNSAFE", url⟩)
    (!unsafeHeaders.contains (tables.lower header.1)))
  if tables.lower header.1 = "referer".toList || tables.lower header.1 = "origin".toList then do
    let _ ← validateSourceUrl tables network allowed header.2
    pure ()
  else pure ()

def checkHeaders (url : List Char) : List (List Char × List Char) → Fetch Unit
  | [] => pure ()
  | header :: headers => do
    checkHeader tables network allowed url header
    checkHeaders url headers

def store (chunk : List UInt8) : Fetch Unit := step fun course => (course ++ [.stored chunk], .ok ())

/-- No chunk is stored that exceeds the limit together with the ones before. -/
def storeChunks (maxBytes : Int) : Nat → List (Option (List UInt8)) → Fetch Unit
  | _, [] => pure ()
  | _, none :: _ => throw .httpException
  | written, some chunk :: chunks =>
    if chunk = [] then pure ()
    else do
      attempt (require (.runtimeError "source download exceeds configured size limit")
        (written + chunk.length ≤ maxBytes))
      store chunk
      storeChunks maxBytes (written + chunk.length) chunks

def safeDownloadUrl (url : List Char) (maxBytes : Int) (headers : Headers) (jar : Option (List Cookie)) :
    Fetch (List Char) := do
  checkHeaders tables network allowed url headers.rows
  let opened ← openSafeResponse tables network allowed jar headers 6 url
  attempt (require (.downloadHTTP opened.2.status) (200 ≤ opened.2.status && opened.2.status < 300))
  storeChunks maxBytes 0 opened.2.chunks
  return opened.1

end Fetch

section Course
variable (tables : FetchTables) (network : SourceNetwork) (allowed : List (List Char)) (jar : Option (List Cookie))

def SourceEvent.isRequest : SourceEvent → Bool
  | .requested .. => true
  | _ => false

def SourceEvent.bytes : SourceEvent → List UInt8
  | .stored chunk => chunk
  | _ => []

def SourceEvent.resolution : SourceEvent → Option (List Char × Nat × Option (List (List Char)))
  | .resolved host port answer => some (host, port, answer)
  | _ => none

def SourceEvent.response : SourceEvent → Option SourceResponse
  | .answered response => response
  | _ => none

/-- The last name that was resolved. -/
def latest (course : List SourceEvent) : Option (List Char × Nat × Option (List (List Char))) :=
  (course.filterMap SourceEvent.resolution).getLast?

def latestResponse (course : List SourceEvent) : Option SourceResponse := (course.filterMap SourceEvent.response).getLast?

def storedBytes (course : List SourceEvent) : List UInt8 := course.flatMap SourceEvent.bytes

/-- The last resolution was of an allowed host, and the address is among its answers, which are all safe. -/
structure Pinned (course : List SourceEvent) (host : List Char) (port : Nat) (address : List Char) : Prop where
  allowedHost : isAllowedHost tables allowed host = true
  resolved : ∃ answer, latest course = some (host, port, some answer) ∧ address ∈ answer ∧
    ∀ other ∈ answer, safeIp tables other = true

/-- Cookies of the jar only, each for this host and path, the secure ones under TLS, and none that was expired when the
host had been resolved. -/
structure CookiesFit (course : List SourceEvent) (endpoint : Endpoint) (cookie : List Char) : Prop where
  sent : ∃ cookies sent earlier, jar = some cookies ∧ sent ⊆ cookies ∧ cookie = cookieLine sent ∧ earlier <+: course ∧
    latest earlier = latest course ∧ ∀ item ∈ sent,
      isWithin (tables.lower (hostname tables.toUrlTables endpoint.parsed.netloc)) (cookieDomain tables item) = true ∧
      (cookiePath tables item).isPrefixOf (orRoot endpoint.parsed.path) = true ∧
      (isSecure item = true → endpoint.tls = true) ∧ isExpired (network.now earlier) item = false

/-- A request over a connection that has just been made to an address of the host that its address names. -/
structure SentTo (course : List SourceEvent) (endpoint : Endpoint) (target : List Char) (headers : Headers) : Prop where
  connected : ∃ address, course.getLast? = some (.attempted address endpoint.port endpoint.serverName true) ∧
    Pinned tables allowed course endpoint.host endpoint.port address
  target : target = requestTarget endpoint.parsed
  host : headers.lookup "Host".toList = some endpoint.parsed.netloc
  cookie : ∀ cookie, headers.lookup "Cookie".toList = some cookie → CookiesFit tables network jar course endpoint cookie

/-- What is promised of an event, by the course before it. -/
def Guarded (course : List SourceEvent) : SourceEvent → Prop
  | .attempted address port serverName _ => ∃ host, Pinned tables allowed course host port address ∧
      (serverName = none ∨ serverName = some host)
  | .requested url target headers => ∃ endpoint, checkedEndpoint tables allowed url = .ok endpoint ∧
      SentTo tables network allowed jar course endpoint target headers
  | .stored _ => ∃ response, latestResponse course = some response ∧ 200 ≤ response.status ∧ response.status < 300
  | _ => True

/-- A course whose events are all guarded, with so many requests at most and these bytes. -/
structure Traced (requests : Nat) (bytes : List UInt8) (course : List SourceEvent) : Prop where
  guarded : ∀ before event after, course = before ++ event :: after → Guarded tables network allowed jar before event
  requests : course.countP SourceEvent.isRequest ≤ requests
  stored : storedBytes course = bytes

variable {tables network allowed jar} {n : Nat} {bytes : List UInt8} {course : List SourceEvent} {event : SourceEvent}

theorem Traced.emit (h : Traced tables network allowed jar n bytes course)
    (hg : Guarded tables network allowed jar course event) :
    Traced tables network allowed jar (n + if event.isRequest then 1 else 0) (bytes ++ event.bytes)
      (course ++ [event]) := by
  refine ⟨fun before other after hsplit => ?_, ?_, ?_⟩
  · rcases List.eq_nil_or_concat after with rfl | ⟨after, last, rfl⟩
    · obtain ⟨rfl, hlast⟩ := List.append_inj' hsplit rfl
      cases hlast
      exact hg
    · rw [List.concat_eq_append, ← List.cons_append, ← List.append_assoc] at hsplit
      exact h.guarded before other after (List.append_inj' hsplit rfl).1
  · rw [List.countP_append, List.countP_singleton]
    exact Nat.add_le_add_right h.requests _
  · rw [storedBytes, List.flatMap_append, List.flatMap_singleton]
    exact congrArg (· ++ event.bytes) h.stored

theorem latest_concat (course : List SourceEvent) (event : SourceEvent) :
    latest (course ++ [event]) = event.resolution.or (latest course) := by
  rw [latest, latest, List.filterMap_append]
  cases event <;> simp [SourceEvent.resolution]

theorem latestResponse_concat (course : List SourceEvent) (event : SourceEvent) :
    latestResponse (course ++ [event]) = event.response.or (latestResponse course) := by
  rw [latestResponse, latestResponse, List.filterMap_append]
  cases hresponse : event.response with
  | none => simp [hresponse]
  | some response => simp [hresponse]

theorem Traced.mono {m : Nat} (h : Traced tables network allowed jar n bytes course) (hle : n ≤ m) :
    Traced tables network allowed jar m bytes course := ⟨h.guarded, h.requests.trans hle, h.stored⟩

/-- Events that neither ask for anything nor store it. -/
theorem Traced.quiet (h : Traced tables network allowed jar n bytes course) (hrequest : event.isRequest = false)
    (hbytes : event.bytes = []) (hg : Guarded tables network allowed jar course event) :
    Traced tables network allowed jar n bytes (course ++ [event]) := by
  have hnext := h.emit hg
  rwa [hrequest, hbytes, List.append_nil] at hnext

theorem traced_nil : Traced tables network allowed jar 0 [] [] :=
  ⟨fun _ _ _ h => absurd h (by simp), le_of_eq rfl, rfl⟩

end Course

section Hop
variable {tables : FetchTables} {network : SourceNetwork} {allowed : List (List Char)} {jar : Option (List Cookie)}
    {n : Nat}
  {bytes : List UInt8} {course : List SourceEvent} {event : SourceEvent} {url : List Char} {endpoint : Endpoint}
  {addresses : List (List Char)} {address : List Char}

/-- An endpoint whose checks have been passed, with the last resolution as the only one since. -/
structure Validated (tables : FetchTables) (allowed : List (List Char)) (url : List Char) (endpoint : Endpoint)
    (addresses : List (List Char)) (course : List SourceEvent) : Prop where
  checked : checkedEndpoint tables allowed url = .ok endpoint
  answer : ∃ answer, latest course = some (endpoint.host, endpoint.port, some answer) ∧ addresses ⊆ answer ∧
    ∀ other ∈ answer, safeIp tables other = true

theorem checkedEndpoint_eq_ok (h : checkedEndpoint tables allowed url = .ok endpoint) :
    urlsplit tables.toUrlTables url = .ok endpoint.parsed ∧ isHttp endpoint.parsed.scheme = true ∧
      tables.idna (bareHost tables (hostname tables.toUrlTables endpoint.parsed.netloc)) = some endpoint.host ∧
      isAllowedHost tables allowed endpoint.host = true := by
  obtain ⟨parsed, hparsed, h⟩ := bind_eq_ok.mp h
  obtain ⟨port, -, h⟩ := bind_eq_ok.mp h
  obtain ⟨hhttp, h⟩ := then_eq_ok.mp h
  obtain ⟨-, h⟩ := then_eq_ok.mp h
  obtain ⟨host, hhost, h⟩ := bind_eq_ok.mp h
  obtain ⟨hallowed, h⟩ := then_eq_ok.mp h
  cases h
  exact ⟨mapError_eq_ok.mp hparsed, (Bool.and_eq_true_iff.mp (require_eq_ok.mp hhttp)).1, elim_eq_ok.mp hhost,
    require_eq_ok.mp hallowed⟩

theorem checkedAddresses_eq_ok {host : List Char} {answer : Option (List (List Char))}
    (h : checkedAddresses tables url host answer = .ok addresses) :
    ∃ found, answer = some found ∧ addresses ⊆ found ∧ ∀ other ∈ found, safeIp tables other = true := by
  cases answer with
  | none => cases h
  | some found =>
    obtain ⟨hsafe, h⟩ := then_eq_ok.mp h
    cases h
    have hall := (Bool.and_eq_true_iff.mp (require_eq_ok.mp hsafe)).2
    exact ⟨found, rfl, fun _ hmem => List.mem_eraseDups.mp hmem, List.all_eq_true.mp hall⟩

theorem Validated.pinned (h : Validated tables allowed url endpoint addresses course) (hmem : address ∈ addresses) :
    Pinned tables allowed course endpoint.host endpoint.port address := by
  obtain ⟨answer, hlatest, hsubset, hsafe⟩ := h.answer
  exact ⟨(checkedEndpoint_eq_ok h.checked).2.2.2, answer, hlatest, hsubset hmem, hsafe⟩

theorem Validated.emit (h : Validated tables allowed url endpoint addresses course) (hevent : event.resolution = none) :
    Validated tables allowed url endpoint addresses (course ++ [event]) :=
  ⟨h.checked, by rw [latest_concat, hevent]; exact h.answer⟩

theorem getaddrinfo_triple (host : List Char) (port : Nat) :
    Triple (Traced tables network allowed jar n bytes) (getaddrinfo network host port)
      (fun answer course => latest course = some (host, port, answer) ∧ Traced tables network allowed jar n bytes course)
      fun _ => Traced tables network allowed jar n bytes :=
  Triple.step fun course h => ⟨by rw [latest_concat]; rfl, h.quiet rfl rfl trivial⟩

theorem validatedEndpoint_triple (url : List Char) :
    Triple (Traced tables network allowed jar n bytes) (validatedEndpoint tables network allowed url)
      (fun validated course => Validated tables allowed url validated.1 validated.2 course ∧
        Traced tables network allowed jar n bytes course)
      fun _ => Traced tables network allowed jar n bytes := by
  refine Triple.bind (Triple.attempt (fun endpoint hendpoint _ h => And.intro hendpoint h) fun _ _ _ h => h)
    fun endpoint => ?_
  refine Triple.fact fun hendpoint => (getaddrinfo_triple _ _).bind fun answer => ?_
  refine Triple.bind (Triple.attempt (fun addresses haddresses _ h => And.intro haddresses h) fun _ _ _ h => h.2)
    fun addresses => ?_
  refine Triple.fact fun haddresses => Triple.pure fun course h => ⟨⟨hendpoint, ?_⟩, h.2⟩
  obtain ⟨found, rfl, hfound⟩ := checkedAddresses_eq_ok haddresses
  exact ⟨found, h.1, hfound⟩

/-- What a hop has before it connects: the endpoint and the cookies that go with it. -/
structure Ready (tables : FetchTables) (network : SourceNetwork) (allowed : List (List Char))
    (jar : Option (List Cookie)) (n : Nat) (bytes : List UInt8) (url : List Char) (endpoint : Endpoint)
    (addresses : List (List Char)) (cookie : Option (List Char))
    (course : List SourceEvent) : Prop where
  traced : Traced tables network allowed jar n bytes course
  validated : Validated tables allowed url endpoint addresses course
  cookies : ∀ text, cookie = some text → CookiesFit tables network jar course endpoint text

theorem CookiesFit.emit {cookie : List Char} (h : CookiesFit tables network jar course endpoint cookie)
    (hevent : event.resolution = none) : CookiesFit tables network jar (course ++ [event]) endpoint cookie := by
  obtain ⟨cookies, sent, earlier, hjar, hsent, hcookie, hprefix, hlatest, hfit⟩ := h.sent
  refine ⟨cookies, sent, earlier, hjar, hsent, hcookie, hprefix.trans (List.prefix_append _ _), ?_, hfit⟩
  rw [latest_concat, hevent, hlatest]
  rfl

theorem headerFor_fits {cookies : List Cookie} {text : List Char}
    (hparsed : urlsplit tables.toUrlTables url = .ok endpoint.parsed)
    (h : headerFor tables cookies (network.now course) url = .ok (some text)) :
    CookiesFit tables network (some cookies) course endpoint text := by
  rw [headerFor, hparsed] at h
  have hvalue := Except.ok.inj h
  split at hvalue
  · cases hvalue
    refine ⟨cookies, _, course, rfl, List.filter_sublist.subset, rfl, List.prefix_refl _, rfl, fun item hitem => ?_⟩
    have hgoes := (List.mem_filter.mp hitem).2
    simp only [goesWith, Bool.and_eq_true, Bool.or_eq_true, Bool.not_eq_true', decide_eq_true_eq] at hgoes
    obtain ⟨⟨⟨⟨-, hdomain⟩, hpath⟩, hsecure⟩, hexpired⟩ := hgoes
    exact ⟨hdomain, hpath, fun hitem => decide_eq_true (hsecure.resolve_left (by simp [hitem])), hexpired⟩
  · cases hvalue

theorem Ready.attempt {cookie : Option (List Char)} {connected : Bool}
    (h : Ready tables network allowed jar n bytes url endpoint addresses cookie course) (hmem : address ∈ addresses) :
    Ready tables network allowed jar n bytes url endpoint addresses cookie
      (course ++ [.attempted address endpoint.port endpoint.serverName connected]) := by
  refine ⟨h.traced.quiet rfl rfl ⟨endpoint.host, h.validated.pinned hmem, ?_⟩, h.validated.emit rfl,
    fun text htext => (h.cookies text htext).emit rfl⟩
  rw [Endpoint.serverName]
  split
  · exact .inr rfl
  · exact .inl rfl

theorem cookieHeader_triple :
    Triple (fun course => Validated tables allowed url endpoint addresses course ∧
      Traced tables network allowed jar n bytes course)
      (cookieHeader tables network jar url) (Ready tables network allowed jar n bytes url endpoint addresses)
      fun _ => Traced tables network allowed jar n bytes := by
  cases jar with
  | none => exact Triple.pure fun course h => ⟨h.2, h.1, fun text htext => by cases htext⟩
  | some cookies =>
    refine Triple.step fun course h => ?_
    cases hheader : headerFor tables cookies (network.now course) url with
    | error e => exact h.2
    | ok cookie =>
      refine ⟨h.2, h.1, fun text htext => ?_⟩
      exact headerFor_fits (checkedEndpoint_eq_ok h.1.checked).1 (htext ▸ hheader)

/-- An attempt that connected is the last event. -/
theorem connectPinned_triple {cookie : Option (List Char)} {rest : List (List Char)} (hrest : rest ⊆ addresses) :
    Triple (Ready tables network allowed jar n bytes url endpoint addresses cookie) (connectPinned network endpoint rest)
      (fun _ course => (∃ address ∈ addresses,
          course.getLast? = some (.attempted address endpoint.port endpoint.serverName true)) ∧
        Ready tables network allowed jar n bytes url endpoint addresses cookie course)
      fun _ => Traced tables network allowed jar n bytes := by
  induction rest with
  | nil => exact Triple.throw fun _ h => h.traced
  | cons address rest ih =>
    obtain ⟨hmem, hrest⟩ := List.cons_subset.mp hrest
    refine Triple.bind (Q := fun connected course =>
      course.getLast? = some (.attempted address endpoint.port endpoint.serverName connected) ∧
        Ready tables network allowed jar n bytes url endpoint addresses cookie course)
      (Triple.step fun course h => ⟨List.getLast?_concat, h.attempt hmem⟩) fun connected => ?_
    cases connected with
    | false => exact (ih hrest).pre fun _ h => h.2
    | true => exact Triple.pure fun _ h => ⟨⟨address, hmem, h.1⟩, h.2⟩

theorem unsafe_not_mem {headers : Headers}
    (hfree : ∀ header ∈ headers.rows, unsafeHeaders.contains (tables.lower header.1) = false)
    {name : List Char} (hascii : ∀ c ∈ name, c.val < 128)
    (hname : unsafeHeaders.contains (name.map Char.toLower) = true) :
    name ∉ headers.rows.map Prod.fst := by
  intro hmem
  obtain ⟨header, hheader, rfl⟩ := List.mem_map.mp hmem
  have hsafe := hfree header hheader
  rw [tables.lower_ascii _ hascii, hname] at hsafe
  cases hsafe

/-- Headers that were checked neither name a host nor carry a cookie. -/
theorem requestHeaders_lookup {headers : Headers} (parsed : SplitResult) (cookie : Option (List Char))
    (hfree : ∀ header ∈ headers.rows, unsafeHeaders.contains (tables.lower header.1) = false) :
    (requestHeaders parsed headers cookie).lookup "Host".toList = some parsed.netloc ∧
      ∀ text, (requestHeaders parsed headers cookie).lookup "Cookie".toList = some text → cookie = some text := by
  have hgiven {key : List Char} (hascii : ∀ c ∈ key, c.val < 128)
      (hkey : unsafeHeaders.contains (key.map Char.toLower) = true) :
      Dict.lookup ((ownHeaders parsed).putAll headers.rows) key = (ownHeaders parsed).lookup key :=
    congrArg (Option.map Prod.snd) (Table.get_putAll_of_not_mem _ (unsafe_not_mem hfree hascii hkey))
  have hhost : Dict.lookup ((ownHeaders parsed).putAll headers.rows) "Host".toList = some parsed.netloc := by
    rw [hgiven (by simp) (by decide), ownHeaders, Dict.lookup_set, if_neg (by decide), Dict.lookup_set, if_pos rfl]
  have hcookie : Dict.lookup ((ownHeaders parsed).putAll headers.rows) "Cookie".toList = none := by
    rw [hgiven (by simp) (by decide), ownHeaders, Dict.lookup_set, if_neg (by decide), Dict.lookup_set,
      if_neg (by decide)]
    rfl
  have hnone {text : List Char} (h : Dict.lookup ((ownHeaders parsed).putAll headers.rows) "Cookie".toList = some text)
      {p : Prop} : p := absurd (hcookie.symm.trans h) nofun
  cases cookie with
  | none => exact ⟨hhost, fun _ htext => hnone htext⟩
  | some cookie =>
    cases cookie with
    | nil => exact ⟨hhost, fun _ htext => hnone htext⟩
    | cons c cookie =>
      rw [requestHeaders, Dict.lookup_set, Dict.lookup_set, if_neg (by decide), if_pos rfl]
      exact ⟨hhost, fun _ htext => htext⟩

theorem fetchOnce_triple {headers : Headers}
    (hfree : ∀ header ∈ headers.rows, unsafeHeaders.contains (tables.lower header.1) = false) :
    Triple (fun course => Validated tables allowed url endpoint addresses course ∧
      Traced tables network allowed jar n bytes course)
      (fetchOnce tables network jar headers url endpoint addresses)
      (fun response course => (∃ before target given, course =
        before ++ [.requested url target given, .answered (some response)]) ∧
        Traced tables network allowed jar (n + 1) bytes course)
      fun _ => Traced tables network allowed jar (n + 1) bytes := by
  have hmore (course : List SourceEvent) (h : Traced tables network allowed jar n bytes course) :
      Traced tables network allowed jar (n + 1) bytes course := h.mono (Nat.le_succ n)
  refine Triple.bind (cookieHeader_triple.weaken (fun _ h => h) (fun _ _ h => h) fun _ => hmore) fun cookie => ?_
  refine Triple.bind (Q := fun _ => Ready tables network allowed jar n bytes url endpoint addresses cookie)
    (Triple.attempt (fun _ _ _ h => h) fun _ _ _ h => hmore _ h.traced) fun _ => ?_
  refine Triple.bind ((connectPinned_triple (List.Subset.refl _)).weaken (fun _ h => h) (fun _ _ h => h) fun _ => hmore)
    fun _ => ?_
  refine Triple.bind (Q := fun _ course => (∃ before target given, course = before ++ [.requested url target given]) ∧
    Traced tables network allowed jar (n + 1) bytes course) (Triple.step fun course h => ?_) fun _ => ?_
  · obtain ⟨⟨address, hmem, hlast⟩, hready⟩ := h
    obtain ⟨hhost, hcookie⟩ := requestHeaders_lookup endpoint.parsed cookie hfree
    refine ⟨⟨course, _, _, rfl⟩, ?_⟩
    have hsent : SentTo tables network allowed jar course endpoint (requestTarget endpoint.parsed)
        (requestHeaders endpoint.parsed headers cookie) :=
      ⟨⟨address, hlast, hready.validated.pinned hmem⟩, rfl, hhost, fun text htext =>
        hready.cookies text (hcookie text htext)⟩
    have hguarded : Guarded tables network allowed jar course (.requested url (requestTarget endpoint.parsed)
        (requestHeaders endpoint.parsed headers cookie)) := ⟨endpoint, hready.validated.checked, hsent⟩
    have hnext := hready.traced.emit hguarded
    have hbytes : bytes ++ SourceEvent.bytes (.requested url (requestTarget endpoint.parsed)
        (requestHeaders endpoint.parsed headers cookie)) = bytes := List.append_nil bytes
    rwa [hbytes] at hnext
  · refine Triple.step fun course h => ?_
    obtain ⟨⟨before, target, given, rfl⟩, htraced⟩ := h
    have hnext (response : Option SourceResponse) : Traced tables network allowed jar (n + 1) bytes
        (before ++ [.requested url target given] ++ [.answered response]) := htraced.quiet rfl rfl trivial
    cases network.answer (before ++ [.requested url target given]) with
    | none => exact hnext none
    | some response => exact ⟨⟨before, target, given, List.append_assoc _ _ _⟩, hnext (some response)⟩

/-- What was opened: the last two events are the request for the address that is returned, and its answer. -/
structure Opened (tables : FetchTables) (allowed : List (List Char)) (opened : List Char × SourceResponse)
    (course : List SourceEvent) : Prop where
  checked : ∃ endpoint, checkedEndpoint tables allowed opened.1 = .ok endpoint
  arrived : opened.2.status ∉ redirectStatuses
  last : ∃ before target given, course = before ++ [.requested opened.1 target given, .answered (some opened.2)]

theorem openSafeResponse_triple {headers : Headers}
    (hfree : ∀ header ∈ headers.rows, unsafeHeaders.contains (tables.lower header.1) = false) (left : Nat) :
    Triple (Traced tables network allowed jar n bytes) (openSafeResponse tables network allowed jar headers left url)
      (fun opened course => Opened tables allowed opened course ∧
        Traced tables network allowed jar (n + left) bytes course)
      fun _ => Traced tables network allowed jar (n + left) bytes := by
  induction left generalizing n url with
  | zero => exact Triple.throw fun _ h => h
  | succ left ih =>
    have hmore {m : Nat} (hle : m ≤ n + (left + 1)) (course : List SourceEvent)
        (h : Traced tables network allowed jar m bytes course) :
        Traced tables network allowed jar (n + (left + 1)) bytes course := h.mono hle
    refine Triple.bind ((validatedEndpoint_triple url).weaken (fun _ h => h) (fun _ _ h => h) fun _ => hmore (by omega))
      ?_
    rintro ⟨endpoint, addresses⟩
    refine Triple.bind (Q := fun response course => (∃ endpoint, checkedEndpoint tables allowed url = .ok endpoint) ∧
      (∃ before target given, course = before ++ [.requested url target given, .answered (some response)]) ∧
        Traced tables network allowed jar (n + 1) bytes course) (fun course h => ?_) fun response => ?_
    · have hchecked : ∃ endpoint, checkedEndpoint tables allowed url = .ok endpoint := ⟨endpoint, h.1.checked⟩
      exact (fetchOnce_triple hfree).weaken (fun _ h => h) (fun _ _ h => ⟨hchecked, h⟩)
        (fun _ => hmore (by omega)) course h
    · refine Triple.fact fun hchecked => ?_
      split
      · refine Triple.bind (Q := fun _ => Traced tables network allowed jar (n + 1) bytes)
          (Triple.attempt (fun _ _ _ h => h.2) fun _ _ _ h => hmore (by omega) _ h.2) fun next => ?_
        have hcount : n + (left + 1) = n + 1 + left := by omega
        rw [hcount]
        exact ih
      · rename_i hstatus
        exact Triple.pure fun course h => ⟨⟨hchecked, fun hmem => hstatus (List.elem_iff.mpr hmem), h.1⟩,
          hmore (by omega) _ h.2⟩

end Hop

section Calls
variable {tables : FetchTables} {network : SourceNetwork} {allowed : List (List Char)} {jar : Option (List Cookie)}
    {n : Nat}
  {bytes : List UInt8} {course : List SourceEvent} {url : List Char}

theorem checkHeader_triple (header : List Char × List Char) :
    Triple (Traced tables network allowed jar n bytes) (checkHeader tables network allowed url header)
      (fun _ course => unsafeHeaders.contains (tables.lower header.1) = false ∧
        Traced tables network allowed jar n bytes course)
      fun _ => Traced tables network allowed jar n bytes := by
  refine Triple.bind (Triple.attempt (fun _ hsafe _ h => And.intro (require_eq_ok.mp hsafe) h) fun _ _ _ h => h) fun _
    => ?_
  refine Triple.fact fun hsafe => ?_
  rw [Bool.not_eq_true'] at hsafe
  split
  · refine Triple.bind (Q := fun _ => Traced tables network allowed jar n bytes) ?_ fun _ => Triple.pure fun _ h =>
      ⟨hsafe, h⟩
    exact (validatedEndpoint_triple header.2).bind fun _ => Triple.pure fun _ h => h.2
  · exact Triple.pure fun _ h => ⟨hsafe, h⟩

theorem checkHeaders_triple (headers : List (List Char × List Char)) :
    Triple (Traced tables network allowed jar n bytes) (checkHeaders tables network allowed url headers)
      (fun _ course => (∀ header ∈ headers, unsafeHeaders.contains (tables.lower header.1) = false) ∧
        Traced tables network allowed jar n bytes course)
      fun _ => Traced tables network allowed jar n bytes := by
  induction headers with
  | nil => exact Triple.pure fun _ h => ⟨nofun, h⟩
  | cons header headers ih =>
    refine (checkHeader_triple header).bind fun _ => Triple.fact fun hsafe => ?_
    exact ih.post fun _ _ h => ⟨List.forall_mem_cons.mpr ⟨hsafe, h.1⟩, h.2⟩

/-- The chunks before the end of a response, or before its reading breaks off. -/
def body : List (Option (List UInt8)) → List (List UInt8)
  | some chunk :: chunks => if chunk = [] then [] else chunk :: body chunks
  | _ => []

theorem storeChunks_exec (maxBytes : Int) (written : Nat) (chunks : List (Option (List UInt8)))
    (course : List SourceEvent) :
    ∃ stored, ((storeChunks maxBytes written chunks).exec course).1 = course ++ stored.map .stored ∧
      stored <+: body chunks ∧
      (stored = [] ∨ written + stored.flatten.length ≤ maxBytes) ∧
      (((storeChunks maxBytes written chunks).exec course).2 = .ok () → stored = body chunks) := by
  induction chunks generalizing written course with
  | nil => exact ⟨[], (List.append_nil _).symm, List.nil_prefix, .inl rfl, fun _ => rfl⟩
  | cons read chunks ih =>
    cases read with
    | none => exact ⟨[], (List.append_nil _).symm, List.nil_prefix, .inl rfl, fun hok => by cases hok⟩
    | some chunk =>
      rw [storeChunks, body]
      split
      · exact ⟨[], (List.append_nil _).symm, List.nil_prefix, .inl rfl, fun _ => rfl⟩
      · by_cases hfits : written + chunk.length ≤ maxBytes
        · obtain ⟨stored, hcourse, hprefix, hlimit, hall⟩ := ih (written + chunk.length) (course ++ [.stored chunk])
          have hstore : (store chunk).exec course = (course ++ [.stored chunk], .ok ()) := rfl
          rw [decide_eq_true hfits, require, if_pos rfl, exec_attempt_bind, exec_bind_ok hstore]
          refine ⟨chunk :: stored, ?_, List.cons_prefix_cons.mpr ⟨rfl, hprefix⟩, .inr ?_, fun hok =>
            congrArg _ (hall hok)⟩
          · rw [hcourse, List.append_assoc, List.singleton_append, List.map_cons]
          · rw [List.flatten_cons, List.length_append]
            rcases hlimit with rfl | hlimit
            · simpa using hfits
            · push_cast at hlimit ⊢
              omega
        · rw [decide_eq_false hfits]
          exact ⟨[], (List.append_nil _).symm, List.nil_prefix, .inl rfl, fun hok => by cases hok⟩

theorem Traced.store {response : SourceResponse} (h : Traced tables network allowed jar n bytes course)
    (hlatest : latestResponse course = some response) (hlow : 200 ≤ response.status) (hhigh : response.status < 300)
    (stored : List (List UInt8)) :
    Traced tables network allowed jar n (bytes ++ stored.flatten) (course ++ stored.map .stored) := by
  induction stored generalizing bytes course with
  | nil => simpa using h
  | cons chunk stored ih =>
    have hchunk : Guarded tables network allowed jar course (.stored chunk) := ⟨response, hlatest, hlow, hhigh⟩
    have hnext := ih (h.emit hchunk) (by rw [latestResponse_concat]; exact hlatest)
    rwa [List.append_assoc, List.append_assoc, List.singleton_append] at hnext

theorem Opened.latest {opened : List Char × SourceResponse} (h : Opened tables allowed opened course) :
    latestResponse course = some opened.2 := by
  obtain ⟨before, target, given, rfl⟩ := h.last
  rw [List.append_cons, latestResponse_concat]
  rfl

/-- The two functions through which the adapters get at a source. -/
inductive SourceCall where
  | expand (url : List Char) (maxRedirects : Int)
  | download (url : List Char) (maxBytes : Int) (headers : Headers) (jar : Option (List Cookie))

namespace SourceCall

def fetch (tables : FetchTables) (network : SourceNetwork) (allowed : List (List Char)) : SourceCall → Fetch (List Char)
  | .expand url maxRedirects => expandSafeRedirect tables network allowed url maxRedirects
  | .download url maxBytes headers jar => safeDownloadUrl tables network allowed url maxBytes headers jar

def cookieJar : SourceCall → Option (List Cookie)
  | .expand .. => none
  | .download _ _ _ cookieJar => cookieJar

def requestLimit : SourceCall → Nat
  | .expand _ maxRedirects => (maxRedirects + 1).toNat
  | .download .. => 6

def byteLimit : SourceCall → Nat
  | .expand .. => 0
  | .download _ maxBytes _ _ => maxBytes.toNat

def statusLimit : SourceCall → Nat
  | .expand .. => 400
  | .download .. => 300

/-- What is stored of the last response. -/
def kept : SourceCall → SourceResponse → List (List UInt8)
  | .expand .., _ => []
  | .download .., response => body response.chunks

end SourceCall

/-- What holds after a call, also where it raised. -/
structure SafeCall (tables : FetchTables) (network : SourceNetwork) (allowed : List (List Char)) (call : SourceCall)
    (course : List SourceEvent) : Prop where
  guarded : ∀ before event after, course = before ++ event :: after →
    Guarded tables network allowed call.cookieJar before event
  requests : course.countP SourceEvent.isRequest ≤ call.requestLimit
  stored : (storedBytes course).length ≤ call.byteLimit

/-- What holds of the address that a call returns. -/
structure ReturnedFrom (tables : FetchTables) (allowed : List (List Char)) (call : SourceCall) (course : List SourceEvent)
    (final : List Char) : Prop where
  checked : ∃ endpoint, checkedEndpoint tables allowed final = .ok endpoint
  last : ∃ before target given response, 200 ≤ response.status ∧ response.status < call.statusLimit ∧
    response.status ∉ redirectStatuses ∧ course =
      before ++ [.requested final target given, .answered (some response)] ++ (call.kept response).map .stored

theorem expandSafeRedirect_triple (maxRedirects : Int) :
    Triple (fun course => course = []) (expandSafeRedirect tables network allowed url maxRedirects)
      (fun final course => ReturnedFrom tables allowed (.expand url maxRedirects) course final ∧
        SafeCall tables network allowed (.expand url maxRedirects) course)
      fun _ => SafeCall tables network allowed (.expand url maxRedirects) := by
  have hsafe (course : List SourceEvent) (h : Traced tables network allowed none (0 + (maxRedirects + 1).toNat)
    [] course) :
      SafeCall tables network allowed (.expand url maxRedirects) course := by
    refine ⟨h.guarded, ?_, ?_⟩
    · rw [← Nat.zero_add (SourceCall.requestLimit _)]
      exact h.requests
    · rw [h.stored]
      exact Nat.zero_le _
  have hopened := @openSafeResponse_triple tables network allowed none 0 [] url Table.empty nofun (maxRedirects + 1).toNat
  refine (hopened.weaken (by rintro _ rfl; exact traced_nil) (fun _ _ h => h) fun _ => hsafe).bind fun opened => ?_
  refine Triple.bind (Triple.attempt (fun _ hstatus _ h => And.intro (require_eq_ok.mp hstatus) h) fun _ _ course h =>
    hsafe course h.2) fun _ => ?_
  refine Triple.pure fun course h => ⟨⟨h.2.1.checked, ?_⟩, hsafe course h.2.2⟩
  obtain ⟨before, target, given, hlast⟩ := h.2.1.last
  rw [Bool.and_eq_true, decide_eq_true_eq, decide_eq_true_eq] at h
  exact ⟨before, target, given, opened.2, h.1.1, h.1.2, h.2.1.arrived, hlast.trans (List.append_nil _).symm⟩

theorem safeDownloadUrl_triple (maxBytes : Int) (headers : Headers) :
    Triple (fun course => course = []) (safeDownloadUrl tables network allowed url maxBytes headers jar)
      (fun final course => ReturnedFrom tables allowed (.download url maxBytes headers jar) course final ∧
        SafeCall tables network allowed (.download url maxBytes headers jar) course)
      fun _ => SafeCall tables network allowed (.download url maxBytes headers jar) := by
  have hsafe {n : Nat} (hle : n ≤ 6) {bytes : List UInt8} (hbytes : bytes.length ≤ maxBytes.toNat)
    (course : List SourceEvent)
      (h : Traced tables network allowed jar n bytes course) :
      SafeCall tables network allowed (.download url maxBytes headers jar) course :=
    ⟨h.guarded, h.requests.trans hle, h.stored ▸ hbytes⟩
  have hheaders : Triple (fun course => course = []) (checkHeaders tables network allowed url headers.rows)
      (fun _ course => (∀ header ∈ headers.rows, unsafeHeaders.contains (tables.lower header.1) = false) ∧
        Traced tables network allowed jar 0 [] course)
      fun _ => SafeCall tables network allowed (.download url maxBytes headers jar) :=
    (checkHeaders_triple headers.rows).weaken (by rintro _ rfl; exact traced_nil) (fun _ _ h => h)
      fun _ => hsafe (Nat.zero_le 6) (Nat.zero_le _)
  refine hheaders.bind fun _ => Triple.fact fun hfree => ?_
  refine ((openSafeResponse_triple hfree 6).weaken (fun _ h => h) (fun _ _ h => h)
    fun _ => hsafe (le_refl 6) (Nat.zero_le _)).bind fun opened => ?_
  refine Triple.bind (Triple.attempt (fun _ hstatus _ h => And.intro (require_eq_ok.mp hstatus) h)
    fun _ _ course h => hsafe (le_refl 6) (Nat.zero_le _) course h.2) fun _ => ?_
  refine Triple.fact fun hstatus course h => ?_
  rw [Bool.and_eq_true, decide_eq_true_eq, decide_eq_true_eq] at hstatus
  obtain ⟨stored, hcourse, -, hlimit, hall⟩ := storeChunks_exec maxBytes 0 opened.2.chunks course
  have hbytes : stored.flatten.length ≤ maxBytes.toNat := by
    rcases hlimit with rfl | hlimit
    · exact Nat.zero_le _
    · omega
  have htraced : SafeCall tables network allowed (.download url maxBytes headers jar) (course ++ stored.map .stored) :=
    hsafe (le_refl 6) hbytes _ (h.2.store h.1.latest hstatus.1 hstatus.2 stored)
  cases hexec : (storeChunks maxBytes 0 opened.2.chunks).exec course with
  | mk after result =>
    rw [hexec] at hcourse hall
    have hafter : after = course ++ stored.map .stored := hcourse
    subst hafter
    cases result with
    | error e =>
      rw [exec_bind_error hexec]
      exact htraced
    | ok _ =>
      rw [exec_bind_ok hexec]
      obtain ⟨before, target, given, hlast⟩ := h.1.last
      refine ⟨⟨h.1.checked, before, target, given, opened.2, hstatus.1, hstatus.2, h.1.arrived, ?_⟩, htraced⟩
      change course ++ stored.map .stored = _
      rw [hall rfl, hlast]
      rfl

variable (tables network allowed) in
theorem sourceCall_triple (call : SourceCall) : Triple (fun course => course = []) (call.fetch tables network allowed)
    (fun final course => ReturnedFrom tables allowed call course final ∧ SafeCall tables network allowed call course)
    fun _ => SafeCall tables network allowed call := by
  cases call with
  | expand url maxRedirects => exact expandSafeRedirect_triple maxRedirects
  | download url maxBytes headers jar => exact safeDownloadUrl_triple maxBytes headers

end Calls

/-- Whatever the network answers, and whether it answers the same twice or not, a call connects only to safe addresses that
the last resolution of an allowed host gave, sends cookies only where they belong, and keeps its limits. -/
theorem sourceCall_safe (tables : FetchTables) (network : SourceNetwork) (allowed : List (List Char))
    (call : SourceCall) :
    SafeCall tables network allowed call ((call.fetch tables network allowed).exec []).1 := by
  have h := sourceCall_triple tables network allowed call [] rfl
  revert h
  cases (call.fetch tables network allowed).exec [] with
  | mk course result =>
    intro h
    cases result with
    | ok final => exact h.2
    | error e => exact h

/-- Names and addresses in plain letters, where every address but the loopback is a public one. -/
def plainTables : FetchTables where
  hidesDelimiter _ := false
  isBracketedHost _ := true
  lower := List.map Char.toLower
  lower_ascii _ _ := rfl
  idna host := some host
  ipAddress value :=
    some ⟨value = "127.0.0.1".toList, value = "127.0.0.1".toList, false, false, false, false, value ≠ "127.0.0.1".toList⟩
  urljoin _ location := .ok location
  sendable _ _ _ := true
  text _ := ""

def singleAnswer : SourceNetwork where
  resolve _ _ _ := some ["8.8.8.8".toList]
  accepts _ _ _ _ := true
  answer _ := some ⟨200, none, [some [7, 8]]⟩
  now _ := 0

end StockContent.Sources
