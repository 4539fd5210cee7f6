import StockContent.Identity.Redaction
import StockContent.Storage.Json
import StockContent.Text.Fullmatch
import StockContent.Text.Strip
import StockContent.Text.Urls

/-! Requests for ingestion, brought into one form without any look at the network. -/
namespace StockContent.Ingestion
open StockContent.Storage StockContent.Text

/-- `IngestionValidationError`, or the `ValueError` of an address that cannot be split. -/
inductive IngestionError where
  | invalid (message : String)
  | valueError (error : UrlError)
  deriving DecidableEq

/-- `unquotePlus` decodes one field of a query, `hash` is the digest of a text. -/
structure SourceTables extends CharTables, UrlTables where
  unquotePlus : List Char → List Char
  hash : List Char → String

structure CredentialReference where
  credentialRef : List Char
  provider : String
  deriving DecidableEq

structure IngestionRequest where
  sourceType : String
  sourceRef : List Char
  part : Option Int := none
  transcriptPolicy : String := "subtitle_first"
  options : List (String × Json) := []
  idempotencyKey : Option String := none
  credentialRef : Option CredentialReference := none
  locatorSecret : Option (List Char) := none
  traceId : Option String := none
  decisionId : Option String := none
  allowLegacyOptions : Bool := false
  allowedCredentialRefs : Option (List (List Char)) := none
  allowedCredentialProviders : Option (List String) := none

structure ContentIngestionCommand where
  sourceType : String
  canonicalSourceRef : List Char
  part : Option Int
  transcriptPolicy : String
  options : List (String × Json)
  idempotencyKey : Option String
  credentialRefHash : Option String
  locatorSecretHash : Option String
  traceId : Option String
  decisionId : Option String

section References
variable (tables : SourceTables)

def forbiddenOptionParts : List String := ["cookie", "header", "storage_state", "storage state", "signed_url", "signed url"]

def allowedOptions : List String := ["language"]

def legacyAllowedOptions : List String := allowedOptions ++ ["metadata", "transcript", "offline_fixture", "asr_model",
  "asr_model_version", "duration_ms", "quant_market_snapshot_ids", "code_sha", "available_from", "trace_id"]

/-- A letter or digit as `[0-9A-Za-z]` reads it where case is ignored. -/
def anyAlphanum : Regex := .one fun c => c.isAlphanum || ['İ', 'ı', 'ſ', '\u212a'].contains c

/-- `_BILIBILI_BV`; the boundaries hold at both ends of a text that is read as a whole. -/
def bilibiliBv : List Regex := [Identity.anyCase "bv", .some anyAlphanum]

/-- `_BILIBILI_AV`. -/
def bilibiliAv : List Regex := [Identity.anyCase "av", .range '1' '9', .many (.range '0' '9')]

def bilibiliPath : List Regex := [.char '/', Identity.anyCase "video", .char '/',
  .alt (.sequence [Identity.anyCase "bv", .some anyAlphanum])
    (.sequence [Identity.anyCase "av", .range '1' '9', .many (.range '0' '9')]),
  .option (.char '/')]

/-- `p=[1-9][0-9]*`. -/
def pageSelector : List Regex := [.word "p=", .range '1' '9', .many (.range '0' '9')]

def isPageSelector (query : List Char) : Bool := (fullmatch pageSelector query).isSome

def identityChar (c : Char) : Bool := c.isAlphanum || ['_', '-'].contains c

def stableChar (c : Char) : Bool := c.isAlphanum || ['_', '.', ':', '-'].contains c

/-- `_STABLE_XIAOE_REF`. -/
def stableXiaoeRef : List Regex := [.one Char.isAlphanum, .many (.one stableChar),
  .option (.sequence [.char '/', .one Char.isAlphanum, .many (.one stableChar)])]

/-- `_XIAOE_PAGE_PATH`; its second part is the lesson. -/
def xiaoePagePath : List Regex := [.word "/p/course/video/", .rep (.one identityChar) 1 (some 160), .option (.char '/')]

def split (url : List Char) : Except IngestionError SplitResult := (urlsplit tables.toUrlTables url).mapError .valueError

/-- A user name or a password that is not empty. -/
def hasCredentials (netloc : List Char) : Bool := (username netloc).getD [] ≠ [] || (password netloc).getD [] ≠ []

/-- `hostname.lower().rstrip(".")`. -/
def hostOf (parts : SplitResult) : List Char :=
  (tables.lower (hostname tables.toUrlTables parts.netloc)).rdropWhile (· = '.')

def safePublicUrl (value : List Char) : Except IngestionError (List Char) := do
  let parsed ← split tables value
  require (.invalid "source URL must be an absolute https URL")
    (parsed.scheme = "https".toList && hostname tables.toUrlTables parsed.netloc ≠ [])
  return urlunsplit parsed.scheme parsed.netloc parsed.path []

/-- The number of a video, given as such. -/
def bilibiliNumber (candidate : List Char) : Option (List Char) :=
  match fullmatch bilibiliBv (stripChars tables.toCharTables candidate) with
  | some parts => some ('B' :: 'V' :: parts.getD 1 [])
  | none =>
    if (fullmatch bilibiliAv (stripChars tables.toCharTables candidate)).isSome then
      some ((stripChars tables.toCharTables candidate).map Char.toLower)
    else none

def bilibiliAddress (candidate : List Char) : Except IngestionError (List Char) := do
  let parsed ← split tables candidate
  require (.invalid "Bilibili source must be a public BV, AV, or approved URL")
    (parsed.scheme = "https".toList && !hasCredentials parsed.netloc && hostname tables.toUrlTables parsed.netloc ≠ [])
  if hostOf tables parsed = "b23.tv".toList then do
    require (.invalid "Bilibili short URL is invalid") (parsed.path ≠ [] && parsed.path ≠ ['/'])
    return urlunsplit "https".toList "b23.tv".toList parsed.path []
  else do
    require (.invalid "Bilibili source host is not approved")
      (["bilibili.com".toList, "www.bilibili.com".toList].contains (hostOf tables parsed))
    require (.invalid "Bilibili source URL is invalid") (fullmatch bilibiliPath parsed.path).isSome
    require (.invalid "Bilibili source URL has unsupported query parameters")
      (parsed.query = [] || isPageSelector parsed.query)
    return urlunsplit "https".toList "www.bilibili.com".toList parsed.path parsed.query

def canonicalBilibiliRef (url bvId : Option (List Char)) : Except IngestionError (List Char) := do
  require (.invalid "exactly one of url or bv_id is required") ((url.getD [] ≠ []) ≠ (bvId.getD [] ≠ []))
  let candidate := if bvId.getD [] ≠ [] then bvId.getD [] else url.getD []
  match bilibiliNumber tables candidate with
  | some number => return number
  | none => bilibiliAddress tables candidate

/-- `canonical_xiaoe_hls_ref`: the address without what may be secret, and the hash of the given one where something was. -/
def canonicalXiaoeHlsRef (m3u8Url : Option (List Char)) : Except IngestionError (List Char × Option String) := do
  require (.invalid "m3u8_url is required") (m3u8Url.getD [] ≠ [])
  let publicUrl ← safePublicUrl tables (m3u8Url.getD [])
  return (publicUrl, if publicUrl ≠ m3u8Url.getD [] then some (tables.hash (m3u8Url.getD [])) else none)

/-- `parse_qsl` with blank values kept: the fields of a query that are not empty, with their names. -/
def parseQsl (query : List Char) : List (List Char × List Char) :=
  ((query.splitOnP (· = '&')).filter (· ≠ [])).map fun field =>
    (tables.unquotePlus (partition '=' field).1, tables.unquotePlus (partition '=' field).2)

def isXiaoeHost (host : List Char) : Bool :=
  ["xiaoeknow.com", "xiaoe-tech.com"].any fun domain => host = domain.toList || ('.' :: domain.toList) <:+ host

def canonicalXiaoePageRef (value : List Char) : Except IngestionError (List Char) := do
  let parsed ← split tables (stripChars tables.toCharTables value)
  require (.invalid "Xiaoe source URL is not an approved course page")
    (parsed.scheme = "https".toList && !hasCredentials parsed.netloc && isXiaoeHost (hostOf tables parsed))
  match fullmatch xiaoePagePath parsed.path with
  | none => .error (.invalid "Xiaoe source URL is invalid")
  | some page => do
    require (.invalid "Xiaoe source URL is invalid") (parsed.fragment = [])
    match parseQsl tables parsed.query with
    | [(name, productId)] => do
      require (.invalid "Xiaoe source URL must contain exactly one product_id")
        (name = "product_id".toList && (fullmatch stableXiaoeRef productId).isSome)
      return productId ++ '/' :: page.getD 1 []
    | _ => .error (.invalid "Xiaoe source URL must contain exactly one product_id")

def isPublicXiaoeHlsRef (value : List Char) : Except IngestionError Bool := do
  let parsed ← split tables value
  return parsed.scheme = "https".toList && hostname tables.toUrlTables parsed.netloc ≠ [] && !hasCredentials parsed.netloc &&
    parsed.query = [] && parsed.fragment = [] && decide (".m3u8".toList <:+ tables.lower parsed.path)

end References

section Normalize
variable (tables : SourceTables) (request : IngestionRequest)

def isForbiddenOption (key : String) : Bool :=
  forbiddenOptionParts.any fun part => part.toList <:+: tables.lower key.toList

def optionNames : List String := if request.allowLegacyOptions then legacyAllowedOptions else allowedOptions

/-- What is refused whatever the source. -/
def checkRequest : Except IngestionError Unit := do
  require (.invalid "source_type must be bilibili, xiaoe, or xiaoe_hls")
    (["bilibili", "xiaoe", "xiaoe_hls"].contains request.sourceType)
  require (.invalid "transcript_policy must be subtitle_first") (request.transcriptPolicy = "subtitle_first")
  require (.invalid "part must be greater than zero") (request.part.all (1 ≤ ·))
  require (.invalid "secret transport fields are not accepted") (request.options.all fun option => !isForbiddenOption tables option.1)
  require (.invalid "unsupported ingestion options") (request.options.all fun option => (optionNames request).contains option.1)

/-- Without an allowlist, nothing is refused. -/
def checkCredential (credential : CredentialReference) : Except IngestionError Unit := do
  require (.invalid "credential_ref is not allowlisted")
    (request.allowedCredentialRefs.all (·.contains credential.credentialRef))
  require (.invalid "credential provider is not allowlisted")
    (request.allowedCredentialProviders.all (·.contains credential.provider))

structure ResolvedRef where
  sourceType : String
  sourceRef : List Char
  part : Option Int

/-- The reference of a page becomes the one of its lesson. -/
def xiaoeRef : Except IngestionError (List Char) :=
  if "https://".toList <+: request.sourceRef || "http://".toList <+: request.sourceRef then
    canonicalXiaoePageRef tables request.sourceRef
  else .ok request.sourceRef

def resolveXiaoe : Except IngestionError ResolvedRef := do
  let sourceRef ← xiaoeRef tables request
  let isDirectHls ← isPublicXiaoeHlsRef tables sourceRef
  require (.invalid "xiaoe source_ref must be a stable course/lesson identity or public HLS URL")
    (isDirectHls || ((fullmatch stableXiaoeRef sourceRef).isSome && !decide ("://".toList <:+: sourceRef)))
  let credential ← request.credentialRef.elim (.error (.invalid "xiaoe requires an allowlisted credential_ref")) .ok
  checkCredential request credential
  return ⟨if isDirectHls then "xiaoe_hls" else request.sourceType, sourceRef, request.part⟩

/-- `int` of decimal digits. -/
def digitsValue (digits : List Char) : Int := digits.foldl (fun n c => 10 * n + (c.toNat - '0'.toNat : Nat)) 0

/-- A page that is part of the source stands in for the default part. -/
def selectedPart (query : List Char) (part : Option Int) : Option Int :=
  let selected := if "p=".toList <+: query then query.drop 2 else query
  if query ≠ [] && selected ≠ [] && selected.all Char.isDigit && (part = none || part = some 1) then some (digitsValue selected)
  else part

def resolveBilibili : Except IngestionError ResolvedRef := do
  request.credentialRef.elim (.ok ()) (checkCredential request)
  let sourceRef ← canonicalBilibiliRef tables none (some request.sourceRef)
  let parsed ← split tables sourceRef
  return ⟨request.sourceType, sourceRef, selectedPart parsed.query request.part⟩

/-- A playlist that is named as such is taken as it is given. -/
def resolveSource : Except IngestionError ResolvedRef :=
  if request.sourceType = "xiaoe" then resolveXiaoe tables request
  else if request.sourceType = "bilibili" then resolveBilibili tables request
  else .ok ⟨request.sourceType, request.sourceRef, request.part⟩

def orNone (key : Option String) : Option String := if key.getD "" = "" then none else key

def normalizeCommand : Except IngestionError ContentIngestionCommand := do
  checkRequest tables request
  let resolved ← resolveSource tables request
  return {
    sourceType := resolved.sourceType
    canonicalSourceRef := resolved.sourceRef
    part := resolved.part
    transcriptPolicy := request.transcriptPolicy
    options := request.options
    idempotencyKey := orNone request.idempotencyKey
    credentialRefHash := request.credentialRef.map fun credential => tables.hash credential.credentialRef
    locatorSecretHash := if request.locatorSecret.getD [] = [] then none else request.locatorSecret.map tables.hash
    traceId := request.traceId
    decisionId := request.decisionId }

end Normalize
end StockContent.Ingestion
