import StockContent.Identity.SnapshotStore
import StockContent.Ledger.Projector
import StockContent.Storage.IsoInstant
import StockContent.Storage.StableMembership
import StockContent.Text.Strip

/-! The formal query: its canonical symbols, its three clocks and the window it asks for. -/
namespace StockContent.Signals
open Storage Verification Ledger

/-- A datetime as the language has it, with years of four digits. -/
structure Moment where
  value : DateTime
  range : isDatetime value.wall

/-- An aware UTC datetime. -/
abbrev UtcMoment := {t : Time // isDatetime t}

def requireUtc (field : String) (m : Moment) : Except String UtcMoment :=
  match m.value.offset with
  | none => .error (field ++ " must be a timezone-aware UTC datetime")
  | some offset => if offset = 0 then .ok ⟨m.value.wall, m.range⟩ else .error (field ++ " must use UTC timezone")

def formalContract : String := "content-factor-signal.v5.1"

def publicStrict : String := "PUBLIC_STRICT"

/-- A request as the transport hands it over. -/
structure FormalRequest where
  contract : String
  requestId : String
  symbols : List String
  businessAsOf : Moment
  knowledgeAsOf : Moment
  availabilityAsOf : Moment
  contentSnapshotId : String
  pitMode : String := publicStrict
  minSupport : Int := 1
  signalPolicyVersion : String := "signal-policy.v1"
  start : Option Moment := none
  endAt : Option Moment := none

structure FormalContentSignalQuery where
  requestId : String
  symbols : List String
  businessAsOf : UtcMoment
  knowledgeAsOf : UtcMoment
  availabilityAsOf : UtcMoment
  contentSnapshotId : String
  minSupport : Int
  signalPolicyVersion : String
  start : Option UtcMoment
  endAt : Option UtcMoment
  symbols_ne : symbols ≠ []
  minSupport_pos : 0 < minSupport
  ordered : ∀ s ∈ start, ∀ e ∈ endAt, s.val ≤ e.val

namespace FormalContentSignalQuery

section Create
variable (tables : Text.CharTables)

/-- `sorted({str(s).strip() for s in symbols if str(s).strip()})`. -/
def canonicalSymbols (symbols : List String) : List String :=
  sortedSet ((symbols.map (Text.strip tables)).filter (· ≠ ""))

def requireNamed (field value : String) : Except String Unit :=
  require (field ++ " must be a non-empty string") (Text.strip tables value ≠ "")

def optionalUtc (field : String) (m : Option Moment) : Except String (Option UtcMoment) :=
  m.elim (.ok none) fun m => (requireUtc field m).map some

def ofRequest (request : FormalRequest) : Except String FormalContentSignalQuery := do
  require ("contract must be " ++ formalContract) (request.contract = formalContract)
  requireNamed tables "request_id" request.requestId
  requireNamed tables "content_snapshot_id" request.contentSnapshotId
  requireNamed tables "signal_policy_version" request.signalPolicyVersion
  require "formal queries require pit_mode=PUBLIC_STRICT" (request.pitMode = publicStrict)
  if hsymbols : canonicalSymbols tables request.symbols = [] then .error "symbols must not be empty"
  else if hsupport : request.minSupport ≤ 0 then .error "min_support must be a positive integer"
  else do
    let businessAsOf ← requireUtc "business_as_of" request.businessAsOf
    let knowledgeAsOf ← requireUtc "knowledge_as_of" request.knowledgeAsOf
    let availabilityAsOf ← requireUtc "availability_as_of" request.availabilityAsOf
    let start ← optionalUtc "start" request.start
    let endAt ← optionalUtc "end" request.endAt
    if hordered : ∀ s ∈ start, ∀ e ∈ endAt, s.val ≤ e.val then
      return { requestId := request.requestId
               symbols := canonicalSymbols tables request.symbols
               businessAsOf, knowledgeAsOf, availabilityAsOf
               contentSnapshotId := request.contentSnapshotId
               minSupport := request.minSupport
               signalPolicyVersion := request.signalPolicyVersion
               start, endAt
               symbols_ne := hsymbols
               minSupport_pos := by omega
               ordered := hordered }
    else .error "start must not be after end"

end Create

def canonicalRequest (query : FormalContentSignalQuery) : List (String × Json) :=
  [("contract", .str formalContract), ("request_id", .str query.requestId),
    ("symbols", .arr (query.symbols.map .str)), ("business_as_of", .str (zulu query.businessAsOf)),
    ("knowledge_as_of", .str (zulu query.knowledgeAsOf)), ("availability_as_of", .str (zulu query.availabilityAsOf)),
    ("content_snapshot_id", .str query.contentSnapshotId), ("pit_mode", .str publicStrict),
    ("min_support", .int query.minSupport), ("signal_policy_version", .str query.signalPolicyVersion)] ++
    (query.start.map fun s => ("start", Json.str (zulu s))).toList ++
    (query.endAt.map fun e => ("end", Json.str (zulu e))).toList

/-- The digest is of the canonical text. -/
def queryId (digest : Json → String) (query : FormalContentSignalQuery) : String :=
  "query_" ++ digest (Json.obj query.canonicalRequest).canonical

theorem datetime_min : isDatetime (-62135596800000000) := by decide

/-- `start or datetime.min`. -/
def windowStart (query : FormalContentSignalQuery) : UtcMoment := query.start.getD ⟨-62135596800000000, datetime_min⟩

/-- `end or availability_as_of`. -/
def windowEnd (query : FormalContentSignalQuery) : UtcMoment := query.endAt.getD query.availabilityAsOf

end FormalContentSignalQuery

/-! The formal signal: built of a projection and a query, and checked against its contract. -/

inductive FormalReadError (D : Type) where
  | valueError (message : String)
  | typeError (message : String)
  | historicalLineageIncomplete (message : String)
  | snapshot (error : Identity.FormalError)
  | ledger (error : LedgerError D)
  deriving DecidableEq

/-- What the language, the deployment and the digests add. `dict` is the conversion of what is not an object. -/
structure FormalRuntime (D : Type) where
  store : Identity.StoreRuntime
  digests : EventDigests D
  texts : ProjectionTexts D
  int : String → Option Int
  dict : Json → Except String Fields
  fromisoformat : String → Option DateTime
  digest : Json → String
  contractChecksum : String

section Values

/-- `str(value).replace("+00:00", "Z")`. -/
def offsetToZulu : List Char → List Char
  | '+' :: '0' :: '0' :: ':' :: '0' :: '0' :: rest => 'Z' :: offsetToZulu rest
  | c :: rest => c :: offsetToZulu rest
  | [] => []

/-- `value.replace("Z", "+00:00")`. -/
def zuluToOffset (text : String) : String :=
  String.ofList (text.toList.flatMap fun c => if c = 'Z' then "+00:00".toList else [c])

variable {D : Type} (rt : FormalRuntime D)

/-- `value or other` for what a key may hold. -/
def counted (fields : Fields) (key : String) : Option Json := (Json.lookup fields key).filter truthy

def textOf (fields : Fields) (key default : String) : String := (counted fields key).elim default rt.texts.str

/-- A missing value and null are both none. -/
def asRfc3339 (value : Option Json) : Option String :=
  (value.filter (· ≠ .null)).map fun v => String.ofList (offsetToZulu (rt.texts.str v).toList)

def orNull (text : Option String) : Json := text.elim .null .str

/-- `list(value or [])`: the elements of a list, the characters of a text, the keys of an object. -/
def listOf (value : Option Json) : Except (FormalReadError D) (List Json) :=
  match value with
  | none => .ok []
  | some (.arr items) => .ok items
  | some (.str s) => .ok (s.toList.map fun c => .str (String.singleton c))
  | some (.obj fields) => .ok (fields.map fun field => .str field.1)
  | some (.int _) => .error (.typeError "'int' object is not iterable")
  | some (.float _) => .error (.typeError "'float' object is not iterable")
  | some (.bool _) => .error (.typeError "'bool' object is not iterable")
  | some .null => .error (.typeError "'NoneType' object is not iterable")

/-- `int(value or 0)`. -/
def intOf (value : Option Json) : Except (FormalReadError D) Int :=
  match value with
  | none => .ok 0
  | some (.int n) => .ok n
  | some (.bool b) => .ok (if b then 1 else 0)
  | some (.float q) => .ok (q.num.tdiv q.den)
  | some (.str s) => (rt.int s).elim (.error (.valueError "invalid literal for int() with base 10")) .ok
  | some (.arr _) => .error (.typeError "int() argument must be a string or a number, not 'list'")
  | some (.obj _) => .error (.typeError "int() argument must be a string or a number, not 'dict'")
  | some .null => .error (.typeError "int() argument must be a string or a number, not 'NoneType'")

/-- `dict(value or {})`. -/
def dictOf (value : Option Json) : Except (FormalReadError D) Fields :=
  match value with
  | none => .ok []
  | some (.obj fields) => .ok fields
  | some v => (rt.dict v).mapError .typeError

end Values

section Validate
variable {D : Type} (rt : FormalRuntime D)

def requiredFields : List String :=
  ["asserted_at", "authority", "availability_as_of", "available_from", "business_as_of", "claim_id",
    "content_snapshot_id", "contract", "contract_checksum", "evidence_refs", "formal_eligible", "knowledge_as_of",
    "lifecycle_as_of", "occurrence_id", "producer_commit", "semantic_segment_id", "signal_id",
    "signal_policy_version", "source_available_at", "source_availability_quality", "temporal_bindings"]

def tradingAuthorizationFields : List String := ["execute_at", "limit_price", "order_qty", "portfolio_weight"]

def authorityFormal : String := "FORMAL_FACT"

def qualities : List String := ["EXACT", "PROXY", "PUBLISHED_TIME_PROXY", "INGEST_TIME_UPPER_BOUND"]

def hasKey (fields : Fields) (key : String) : Bool := (Json.lookup fields key).isSome

def requireOr (message : String) (condition : Bool) : Except (FormalReadError D) Unit :=
  require (.valueError message) condition

def isFilledText : Option Json → Bool
  | some (.str s) => s ≠ ""
  | _ => false

def isList : Option Json → Bool
  | some (.arr _) => true
  | _ => false

def rfc3339Utc (value : Option Json) (field : String) : Except (FormalReadError D) Time :=
  match value with
  | some (.str s) =>
    match rt.fromisoformat (zuluToOffset s) with
    | none => .error (.valueError (field ++ " must be an RFC3339 datetime"))
    | some parsed =>
      match parsed.offset with
      | none => .error (.valueError (field ++ " must be timezone-aware"))
      | some offset =>
        if offset = 0 then .ok parsed.utc else .error (.valueError (field ++ " must use UTC timezone"))
  | _ => .error (.valueError (field ++ " must be an RFC3339 datetime"))

/-- An instant that may be null is not after a clock. -/
def requireNotAfter (signal : Fields) (key : String) (availabilityAsOf : Time) : Except (FormalReadError D) Unit :=
  match Json.lookup signal key with
  | some .null => .ok ()
  | value => do
    let t ← rfc3339Utc rt value key
    requireOr (key ++ " must not be after availability_as_of") (t ≤ availabilityAsOf)

def validateLifecycle (knowledgeAsOf : Time) : Option Json → Except (FormalReadError D) Unit
  | some (.obj lifecycle) => do
    ["status", "known_from", "artifact_id"].forM fun key => do
      requireOr ("lifecycle_as_of missing " ++ key) (hasKey lifecycle key)
      requireOr ("lifecycle_as_of." ++ key ++ " must be a non-empty string") (isFilledText (Json.lookup lifecycle key))
    let knownFrom ← rfc3339Utc rt (Json.lookup lifecycle "known_from") "lifecycle_as_of.known_from"
    requireOr "lifecycle_as_of.known_from must not be after knowledge_as_of" (knownFrom ≤ knowledgeAsOf)
  | _ => .error (.valueError "lifecycle_as_of must be an object")

def validateSignal (signal : Fields) : Except (FormalReadError D) Fields := do
  let forbidden := tradingAuthorizationFields.filter (hasKey signal)
  requireOr ("v5.1 signal cannot contain trading instruction fields: " ++ ", ".intercalate forbidden) (forbidden = [])
  let missing := requiredFields.filter (!hasKey signal ·)
  requireOr ("v5.1 signal missing " ++ ", ".intercalate missing) (missing = [])
  let unexpected := sortedSet ((signal.map Prod.fst).filter (!requiredFields.contains ·))
  requireOr ("v5.1 signal contains unsupported fields: " ++ ", ".intercalate unexpected) (unexpected = [])
  requireOr "unsupported formal contract" (Json.lookup signal "contract" = some (.str formalContract))
  requireOr "formal signal must be FORMAL_FACT and formal_eligible=true"
    (Json.lookup signal "authority" = some (.str authorityFormal) &&
      Json.lookup signal "formal_eligible" = some (.bool true))
  requireOr "contract checksum mismatch" (Json.lookup signal "contract_checksum" = some (.str rt.contractChecksum))
  ["signal_id", "claim_id", "occurrence_id", "semantic_segment_id", "content_snapshot_id", "producer_commit",
    "signal_policy_version"].forM fun key =>
      requireOr ("v5.1 " ++ key ++ " must be a non-empty string") (isFilledText (Json.lookup signal key))
  requireOr "unsupported source_availability_quality"
    (qualities.any fun quality => Json.lookup signal "source_availability_quality" = some (.str quality))
  let _ ← rfc3339Utc rt (Json.lookup signal "business_as_of") "business_as_of"
  let knowledgeAsOf ← rfc3339Utc rt (Json.lookup signal "knowledge_as_of") "knowledge_as_of"
  let availabilityAsOf ← rfc3339Utc rt (Json.lookup signal "availability_as_of") "availability_as_of"
  let availableFrom ← rfc3339Utc rt (Json.lookup signal "available_from") "available_from"
  requireOr "available_from must not be after availability_as_of" (availableFrom ≤ availabilityAsOf)
  requireNotAfter rt signal "asserted_at" availabilityAsOf
  requireNotAfter rt signal "source_available_at" availabilityAsOf
  validateLifecycle rt knowledgeAsOf (Json.lookup signal "lifecycle_as_of")
  requireOr "temporal_bindings and evidence_refs must be arrays"
    (isList (Json.lookup signal "temporal_bindings") && isList (Json.lookup signal "evidence_refs"))
  return signal

end Validate

section Build
variable {D : Type} (rt : FormalRuntime D)

def formalSignalId (claimId occurrenceId semanticSegmentId : String) (query : FormalContentSignalQuery) : String :=
  "sig51_" ++ rt.digest (Json.obj
    [("claim_id", .str claimId), ("occurrence_id", .str occurrenceId),
      ("semantic_segment_id", .str semanticSegmentId), ("content_snapshot_id", .str query.contentSnapshotId),
      ("business_as_of", .str (zulu query.businessAsOf)), ("knowledge_as_of", .str (zulu query.knowledgeAsOf)),
      ("availability_as_of", .str (zulu query.availabilityAsOf)), ("query_id", .str (query.queryId rt.digest)),
      ("signal_policy_version", .str query.signalPolicyVersion)]).canonical

/-- The lifecycle as the signal shows it, if it is complete and says more than "unknown". -/
def lifecycleLineage (lifecycle : Fields) : Option Fields := do
  let status ← firstOf lifecycle "status" "to_status"
  let knownFrom ← (asRfc3339 rt (Json.lookup lifecycle "known_from")).filter (· ≠ "")
  let artifactId ← firstOf lifecycle "artifact_id" "lifecycle_artifact_id"
  guard ([rt.texts.str status, knownFrom, rt.texts.str artifactId].all fun text =>
    rt.store.tables.lower (Text.strip rt.store.tables.toCharTables text) ≠ "unknown")
  return [("status", status), ("known_from", .str knownFrom), ("artifact_id", artifactId)]

/-- The keys a signal takes over as they are in the projection. -/
def copiedKeys : List String :=
  ["claim_id", "occurrence_id", "semantic_segment_id", "asserted_at", "source_available_at", "available_from",
    "temporal_bindings"]

def copied (projection : Fields) : Fields :=
  copiedKeys.filterMap fun key => (Json.lookup projection key).map fun v => (key, v)

/-- What a signal says itself. A signal id that the projection has is left aside: the id is of the whole query. -/
def signalUpdates (projection : Fields) (query : FormalContentSignalQuery) (lineage : Fields) (availableFrom : String)
    (producerCommit signalId : String) (temporalBindings evidenceRefs : List Json) : Fields :=
  [("asserted_at", orNull (asRfc3339 rt (Json.lookup projection "asserted_at"))),
    ("source_available_at", orNull (asRfc3339 rt (Json.lookup projection "source_available_at"))),
    ("available_from", .str availableFrom), ("contract", .str formalContract),
    ("contract_checksum", .str rt.contractChecksum), ("authority", .str authorityFormal),
    ("formal_eligible", .bool true), ("content_snapshot_id", .str query.contentSnapshotId),
    ("business_as_of", .str (zulu query.businessAsOf)), ("knowledge_as_of", .str (zulu query.knowledgeAsOf)),
    ("availability_as_of", .str (zulu query.availabilityAsOf)), ("lifecycle_as_of", .obj lineage),
    ("producer_commit", .str producerCommit), ("signal_policy_version", .str query.signalPolicyVersion),
    ("temporal_bindings", .arr temporalBindings), ("evidence_refs", .arr evidenceRefs),
    ("source_availability_quality", .str (textOf rt projection "source_availability_quality" "EXACT")),
    ("signal_id", .str signalId)]

def buildSignal (projection : Fields) (query : FormalContentSignalQuery) : Except (FormalReadError D) Fields := do
  let lifecycle ← dictOf rt ((counted projection "lifecycle_as_of").or (counted projection "lifecycle"))
  let lineage ← (lifecycleLineage rt lifecycle).elim
    (.error (.valueError "formal signal requires a complete historical lifecycle lineage")) .ok
  let occurrenceId := textOf rt projection "occurrence_id" ""
  let semanticSegmentId := textOf rt projection "semantic_segment_id" ""
  let claimId := textOf rt projection "claim_id" ""
  let availableFrom := (asRfc3339 rt (Json.lookup projection "available_from")).getD ""
  requireOr "formal signal requires immutable claim occurrence and availability lineage"
    (claimId ≠ "" && occurrenceId ≠ "" && semanticSegmentId ≠ "" && availableFrom ≠ "")
  let producerCommit := textOf rt projection "producer_commit" ""
  requireOr "formal signal requires snapshot producer_commit lineage" (producerCommit ≠ "")
  let temporalBindings ← listOf (counted projection "temporal_bindings")
  let evidenceRefs ← listOf (counted projection "evidence_refs")
  let signalId := formalSignalId rt claimId occurrenceId semanticSegmentId query
  validateSignal rt (putAll (copied projection)
    (signalUpdates rt projection query lineage availableFrom producerCommit signalId temporalBindings evidenceRefs))

variable {rt}

theorem textOf_of_lookup {projection : Fields} {key text : String} (h : Json.lookup projection key = some (.str text)) :
    textOf rt projection key "" = text := by
  rw [textOf, counted, h]
  by_cases ht : text = ""
  · subst ht
    rfl
  · rw [Option.filter_some_pos (by simp [truthy, ht])]
    rfl

theorem isFilledText_iff {v : Option Json} : isFilledText v = true ↔ ∃ s, v = some (.str s) ∧ s ≠ "" := by
  cases v with
  | none => simp [isFilledText]
  | some v => cases v <;> simp [isFilledText]

/-- What is valid is returned as it is, and names its claim. -/
theorem validateSignal_eq_ok {signal signal' : Fields} (h : validateSignal rt signal = .ok signal') :
    signal' = signal ∧ ∃ claimId, Json.lookup signal "claim_id" = some (.str claimId) := by
  unfold validateSignal at h
  obtain ⟨-, h⟩ := then_eq_ok.mp h
  obtain ⟨-, h⟩ := then_eq_ok.mp h
  obtain ⟨-, h⟩ := then_eq_ok.mp h
  obtain ⟨-, h⟩ := then_eq_ok.mp h
  obtain ⟨-, h⟩ := then_eq_ok.mp h
  obtain ⟨-, h⟩ := then_eq_ok.mp h
  obtain ⟨hfilled, h⟩ := then_eq_ok.mp h
  obtain ⟨-, h⟩ := then_eq_ok.mp h
  obtain ⟨_, -, h⟩ := bind_eq_ok.mp h
  obtain ⟨_, -, h⟩ := bind_eq_ok.mp h
  obtain ⟨_, -, h⟩ := bind_eq_ok.mp h
  obtain ⟨_, -, h⟩ := bind_eq_ok.mp h
  obtain ⟨-, h⟩ := then_eq_ok.mp h
  obtain ⟨-, h⟩ := then_eq_ok.mp h
  obtain ⟨-, h⟩ := then_eq_ok.mp h
  obtain ⟨-, h⟩ := then_eq_ok.mp h
  obtain ⟨-, h⟩ := then_eq_ok.mp h
  cases h
  have hclaim := require_eq_ok.mp (forM_eq_ok.mp hfilled "claim_id" (by decide))
  obtain ⟨claimId, hlookup, -⟩ := isFilledText_iff.mp hclaim
  exact ⟨rfl, claimId, hlookup⟩

theorem lookup_filterMap (f : String → Option Json) (keys : List String) (key : String) :
    Json.lookup (keys.filterMap fun k => (f k).map fun v => (k, v)) key = if key ∈ keys then f key else none := by
  induction keys with
  | nil => rfl
  | cons k keys ih =>
    rw [List.filterMap_cons]
    by_cases hk : k = key
    · subst hk
      cases hf : f k with
      | none => simp [ih, hf]
      | some v => simp [Json.lookup_cons]
    · have hk' : key ≠ k := Ne.symm hk
      cases f k with
      | none => simp [ih, hk']
      | some v => simp [Json.lookup_cons, ih, hk, hk']

theorem lookup_claimId_updates {projection : Fields} {query : FormalContentSignalQuery} {lineage : Fields}
    {availableFrom producerCommit signalId : String} {temporalBindings evidenceRefs : List Json} :
    Json.lookup (putAll (copied projection) (signalUpdates rt projection query lineage availableFrom producerCommit
      signalId temporalBindings evidenceRefs)) "claim_id" = Json.lookup projection "claim_id" := by
  rw [lookup_putAll, copied, lookup_filterMap, if_pos (by decide)]
  rfl

/-- A signal is of the claim that its projection is of. -/
theorem buildSignal_claimId {projection signal : Fields} {query : FormalContentSignalQuery}
    (h : buildSignal rt projection query = .ok signal) :
    ∃ claimId, Json.lookup signal "claim_id" = some (.str claimId) ∧
      Json.lookup projection "claim_id" = some (.str claimId) := by
  obtain ⟨lifecycle, -, h⟩ := bind_eq_ok.mp h
  obtain ⟨lineage, -, h⟩ := bind_eq_ok.mp h
  obtain ⟨-, h⟩ := then_eq_ok.mp h
  obtain ⟨-, h⟩ := then_eq_ok.mp h
  obtain ⟨temporalBindings, -, h⟩ := bind_eq_ok.mp h
  obtain ⟨evidenceRefs, -, h⟩ := bind_eq_ok.mp h
  obtain ⟨hsignal, claimId, hclaim⟩ := validateSignal_eq_ok h
  rw [hsignal]
  exact ⟨claimId, hclaim, lookup_claimId_updates.symm.trans hclaim⟩

end Build
end StockContent.Signals
