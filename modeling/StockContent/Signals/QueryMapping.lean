import StockContent.Signals.FormalContract
import StockContent.Storage.IsoReader

/-! Queries as mappings: a canonical request is read back as the query it is of, and what is written
differently of one request has one query id. -/
namespace StockContent.Signals
open Storage Verification Ledger

/-- What a mapping holds under a key: a decoded document value or a datetime. -/
inductive FieldValue where
  | json (value : Json)
  | datetime (moment : Moment)

abbrev RequestMapping := List (String × FieldValue)

inductive MappingError where
  | valueError (message : String)
  | typeError (message : String)
  deriving DecidableEq

/-- What the language adds: the character tables, and `str` of what is not a text. -/
structure MappingRuntime where
  tables : Text.CharTables
  str : FieldValue → String

namespace RequestMapping

/-- A key that holds null counts as missing. -/
def given (mapping : RequestMapping) (key : String) : Option FieldValue :=
  match mapping.lookup key with
  | some (.json .null) => none
  | value => value

/-- What is asked of a required key. -/
def valueOf (mapping : RequestMapping) (key : String) : FieldValue := (mapping.given key).getD (.json .null)

def requiredKeys : List String :=
  ["contract", "request_id", "symbols", "business_as_of", "knowledge_as_of", "availability_as_of",
    "content_snapshot_id", "pit_mode", "min_support"]

section Read
variable (rt : MappingRuntime)

def textOf : FieldValue → String
  | .json (.str s) => s
  | value => rt.str value

/-- `str` of the elements of `tuple(value)`: the items of a list, the characters of a text, the keys of an object. -/
def symbolTexts : FieldValue → Except MappingError (List String)
  | .json (.arr items) => .ok (items.map fun item => textOf rt (.json item))
  | .json (.str s) => .ok (s.toList.map String.singleton)
  | .json (.obj fields) => .ok (fields.map Prod.fst)
  | .json (.int _) => .error (.typeError "'int' object is not iterable")
  | .json (.float _) => .error (.typeError "'float' object is not iterable")
  | .json (.bool _) => .error (.typeError "'bool' object is not iterable")
  | .json .null => .error (.typeError "'NoneType' object is not iterable")
  | .datetime _ => .error (.typeError "'datetime.datetime' object is not iterable")

/-- `datetime.fromisoformat(value.replace("Z", "+00:00"))`. -/
def readMoment (text : String) : Option Moment :=
  match hread : Storage.fromisoformat (zuluToOffset text) with
  | none => none
  | some read => some ⟨⟨read.1, read.2⟩, isDatetime_of_fromisoformat hread⟩

def momentOf : FieldValue → Option Moment
  | .datetime moment => some moment
  | .json (.str s) => readMoment s
  | .json _ => none

def parseDt (field : String) (value : FieldValue) : Except MappingError Moment :=
  (momentOf value).elim (.error (.valueError (field ++ " must be an RFC3339 datetime"))) .ok

def parseOptionalDt (field : String) : Option FieldValue → Except MappingError (Option Moment)
  | none => .ok none
  | some value => (parseDt field value).map some

/-- A support that is no integer is refused as one that is not positive is. -/
def supportOf : FieldValue → Int
  | .json (.int n) => n
  | _ => 0

def isTrue : FieldValue → Bool
  | .json value => truthy value
  | .datetime _ => true

/-- `str(value.get("signal_policy_version") or "signal-policy.v1")`. -/
def policyOf (value : Option FieldValue) : String := (value.filter isTrue).elim "signal-policy.v1" (textOf rt)

/-- The arguments of the query, each made of the value under its key. -/
def requestOf (mapping : RequestMapping) : Except MappingError FormalRequest := do
  let symbols ← symbolTexts rt (mapping.valueOf "symbols")
  let businessAsOf ← parseDt "business_as_of" (mapping.valueOf "business_as_of")
  let knowledgeAsOf ← parseDt "knowledge_as_of" (mapping.valueOf "knowledge_as_of")
  let availabilityAsOf ← parseDt "availability_as_of" (mapping.valueOf "availability_as_of")
  let start ← parseOptionalDt "start" (mapping.given "start")
  let endAt ← parseOptionalDt "end" (mapping.given "end")
  return { contract := textOf rt (mapping.valueOf "contract")
           requestId := textOf rt (mapping.valueOf "request_id")
           symbols, businessAsOf, knowledgeAsOf, availabilityAsOf
           contentSnapshotId := textOf rt (mapping.valueOf "content_snapshot_id")
           pitMode := textOf rt (mapping.valueOf "pit_mode")
           minSupport := supportOf (mapping.valueOf "min_support")
           signalPolicyVersion := policyOf rt (mapping.given "signal_policy_version")
           start, endAt }

def fromMapping (mapping : RequestMapping) : Except MappingError FormalContentSignalQuery := do
  let missing := requiredKeys.filter fun key => (mapping.given key).isNone
  require (.valueError ("formal query missing " ++ ", ".intercalate missing)) (missing = [])
  let request ← requestOf rt mapping
  (FormalContentSignalQuery.ofRequest rt.tables request).mapError .valueError

/-- `query_id_for` of a mapping. -/
def queryIdFor (digest : Json → String) (mapping : RequestMapping) : Except MappingError String :=
  (fromMapping rt mapping).map (·.queryId digest)

end Read

/-- A document as a mapping. -/
def ofFields (fields : List (String × Json)) : RequestMapping := fields.map fun field => (field.1, .json field.2)

end RequestMapping

/-- An aware UTC datetime as a caller has it. -/
def Moment.ofUtc (t : UtcMoment) : Moment := ⟨⟨t.val, some 0⟩, t.property⟩

namespace FormalContentSignalQuery

section Accepted
variable (tables : Text.CharTables)

/-- The query that a request is accepted as. -/
structure Answers (request : FormalRequest) (query : FormalContentSignalQuery) : Prop where
  contract : request.contract = formalContract
  pitMode : request.pitMode = publicStrict
  requestId_named : Text.strip tables request.requestId ≠ ""
  contentSnapshotId_named : Text.strip tables request.contentSnapshotId ≠ ""
  signalPolicyVersion_named : Text.strip tables request.signalPolicyVersion ≠ ""
  requestId : query.requestId = request.requestId
  symbols : query.symbols = canonicalSymbols tables request.symbols
  businessAsOf : request.businessAsOf = .ofUtc query.businessAsOf
  knowledgeAsOf : request.knowledgeAsOf = .ofUtc query.knowledgeAsOf
  availabilityAsOf : request.availabilityAsOf = .ofUtc query.availabilityAsOf
  contentSnapshotId : query.contentSnapshotId = request.contentSnapshotId
  minSupport : query.minSupport = request.minSupport
  signalPolicyVersion : query.signalPolicyVersion = request.signalPolicyVersion
  start : request.start = query.start.map .ofUtc
  endAt : request.endAt = query.endAt.map .ofUtc

variable {tables} {request : FormalRequest} {query : FormalContentSignalQuery}

theorem requireUtc_eq_ok {field : String} {m : Moment} {t : UtcMoment} :
    requireUtc field m = .ok t ↔ m = .ofUtc t := by
  obtain ⟨⟨wall, offset⟩, range⟩ := m
  obtain ⟨t, ht⟩ := t
  cases offset with
  | none => simp [requireUtc, Moment.ofUtc]
  | some offset =>
    by_cases hzero : offset = 0
    · simp [requireUtc, Moment.ofUtc, hzero]
    · simp [requireUtc, Moment.ofUtc, hzero]

theorem optionalUtc_eq_ok {field : String} {m : Option Moment} {t : Option UtcMoment} :
    optionalUtc field m = .ok t ↔ m = t.map .ofUtc := by
  cases m with
  | none => cases t <;> simp [optionalUtc]
  | some m =>
    cases t with
    | none => cases h : requireUtc field m <;> simp [optionalUtc, h, Except.map]
    | some t =>
      rw [Option.map_some, Option.some_inj, ← @requireUtc_eq_ok field]
      cases h : requireUtc field m <;> simp [optionalUtc, h, Except.map]

theorem requireNamed_eq_ok {field value : String} :
    requireNamed tables field value = .ok () ↔ Text.strip tables value ≠ "" := by
  rw [requireNamed, require_eq_ok, decide_eq_true_iff]

/-- A request is accepted as the query that answers it. -/
theorem ofRequest_eq_ok : ofRequest tables request = .ok query ↔ Answers tables request query := by
  unfold ofRequest
  simp only [then_eq_ok, require_eq_ok, requireNamed_eq_ok, decide_eq_true_eq]
  constructor
  · rintro ⟨hcontract, hid, hsnapshot, hpolicy, hmode, h⟩
    split at h
    · cases h
    split at h
    · cases h
    simp only [bind_eq_ok, requireUtc_eq_ok, optionalUtc_eq_ok] at h
    obtain ⟨business, hbusiness, knowledge, hknowledge, availability, havailability, start, hstart, endAt, hend, h⟩ := h
    split at h
    · cases h
      exact ⟨hcontract, hmode, hid, hsnapshot, hpolicy, rfl, rfl, hbusiness, hknowledge, havailability, rfl, rfl, rfl,
        hstart, hend⟩
    · cases h
  · intro h
    refine ⟨h.contract, h.requestId_named, h.contentSnapshotId_named, h.signalPolicyVersion_named, h.pitMode, ?_⟩
    have hsymbols := query.symbols_ne
    have hsupport := query.minSupport_pos
    rw [h.symbols] at hsymbols
    rw [h.minSupport] at hsupport
    rw [dif_neg hsymbols, dif_neg (Int.not_le.mpr hsupport)]
    simp only [bind_eq_ok, requireUtc_eq_ok, optionalUtc_eq_ok]
    refine ⟨_, h.businessAsOf, _, h.knowledgeAsOf, _, h.availabilityAsOf, _, h.start, _, h.endAt, ?_⟩
    rw [dif_pos query.ordered]
    cases query
    change Except.ok _ = Except.ok _
    simp only [Except.ok.injEq, mk.injEq, and_true, true_and]
    exact ⟨h.requestId.symm, h.symbols.symm, h.contentSnapshotId.symm, h.minSupport.symm, h.signalPolicyVersion.symm⟩

/-- Canonical symbols are the symbols without blanks around them. -/
theorem mem_canonicalSymbols {symbols : List String} {symbol : String} :
    symbol ∈ canonicalSymbols tables symbols ↔ symbol ∈ symbols.map (Text.strip tables) ∧ symbol ≠ "" := by
  rw [canonicalSymbols, mem_sortedSet, List.mem_filter, decide_eq_true_iff]

/-- Canonical symbols are left as they are. -/
theorem canonicalSymbols_canonicalSymbols (symbols : List String) :
    canonicalSymbols tables (canonicalSymbols tables symbols) = canonicalSymbols tables symbols := by
  refine sortedSet_congr fun symbol => ?_
  rw [List.mem_filter, List.mem_map, List.mem_filter, List.mem_map, decide_eq_true_iff]
  constructor
  · rintro ⟨⟨_, hmem, rfl⟩, hne⟩
    obtain ⟨symbol, hsymbol, rfl⟩ := List.mem_map.mp (mem_canonicalSymbols.mp hmem).1
    rw [Text.strip_strip] at hne ⊢
    exact ⟨⟨symbol, hsymbol, rfl⟩, hne⟩
  · rintro ⟨⟨symbol, hmem, rfl⟩, hne⟩
    exact ⟨⟨_, mem_canonicalSymbols.mpr ⟨List.mem_map_of_mem hmem, hne⟩, Text.strip_strip tables symbol⟩, hne⟩

/-- A query as a request for itself. -/
def toRequest (query : FormalContentSignalQuery) : FormalRequest where
  contract := formalContract
  requestId := query.requestId
  symbols := query.symbols
  businessAsOf := .ofUtc query.businessAsOf
  knowledgeAsOf := .ofUtc query.knowledgeAsOf
  availabilityAsOf := .ofUtc query.availabilityAsOf
  contentSnapshotId := query.contentSnapshotId
  minSupport := query.minSupport
  signalPolicyVersion := query.signalPolicyVersion
  start := query.start.map .ofUtc
  endAt := query.endAt.map .ofUtc

/-- A query answers itself. -/
theorem Answers.toRequest (h : Answers tables request query) : Answers tables query.toRequest query where
  contract := rfl
  pitMode := rfl
  requestId_named := by
    change Text.strip tables query.requestId ≠ ""
    rw [h.requestId]
    exact h.requestId_named
  contentSnapshotId_named := by
    change Text.strip tables query.contentSnapshotId ≠ ""
    rw [h.contentSnapshotId]
    exact h.contentSnapshotId_named
  signalPolicyVersion_named := by
    change Text.strip tables query.signalPolicyVersion ≠ ""
    rw [h.signalPolicyVersion]
    exact h.signalPolicyVersion_named
  requestId := rfl
  symbols := by
    change query.symbols = canonicalSymbols tables query.symbols
    rw [h.symbols, canonicalSymbols_canonicalSymbols]
  businessAsOf := rfl
  knowledgeAsOf := rfl
  availabilityAsOf := rfl
  contentSnapshotId := rfl
  minSupport := rfl
  signalPolicyVersion := rfl
  start := rfl
  endAt := rfl

end Accepted

section ReadBack

theorem zuluToOffset_zulu {t : Time} (h : isDatetime t) : zuluToOffset (zulu t) = isoformat t := by
  have hclock : ∀ c ∈ secondText (t / 1000000) ++ fractionPart (t % 1000000).toNat, c ≠ '+' ∧ c ≠ 'Z' := by
    intro c hc
    have hstart : startsZone c = false ∨ c = '-' := by
      rw [secondText, List.append_assoc, List.cons_append, dateText] at hc
      simp only [List.mem_append, List.mem_cons] at hc
      rcases hc with (hc | rfl | hc | rfl | hc) | rfl | hc
      · exact .inl (startsZone_digit (isDigit_of_mem_numeral hc))
      · exact .inr rfl
      · exact .inl (startsZone_digit (isDigit_of_mem_numeral hc))
      · exact .inr rfl
      · exact .inl (startsZone_digit (isDigit_of_mem_numeral hc))
      · exact .inl rfl
      · exact .inl (startsZone_clock (List.mem_append.mpr hc))
    rcases hstart with hstart | rfl
    · constructor <;> rintro rfl <;> cases hstart
    · decide
  have htext : (isoformat t).toList =
      (secondText (t / 1000000) ++ fractionPart (t % 1000000).toNat) ++ "+00:00".toList := by
    rw [← isoText_utc h, String.toList_ofList, isoText, List.append_assoc]
    rfl
  have hzulu : (zulu t).toList = (secondText (t / 1000000) ++ fractionPart (t % 1000000).toNat) ++ ['Z'] := by
    rw [zulu, htext, List.takeWhile_append_of_pos fun c hc => decide_eq_true (hclock c hc).1, String.toList_append,
      String.toList_ofList]
    simp
  have hkept : (secondText (t / 1000000) ++ fractionPart (t % 1000000).toNat).flatMap
      (fun c => if c = 'Z' then "+00:00".toList else [c]) =
      secondText (t / 1000000) ++ fractionPart (t % 1000000).toNat := by
    rw [List.flatMap_congr fun c hc => if_neg (hclock c hc).2]
    exact List.flatMap_singleton' _
  rw [zuluToOffset, hzulu, List.flatMap_append, hkept, ← String.ofList_toList (s := isoformat t), htext]
  rfl

/-- The clock of a canonical request is read back. -/
theorem readMoment_zulu (t : UtcMoment) : RequestMapping.readMoment (zulu t) = some (.ofUtc t) := by
  have hread : fromisoformat (zuluToOffset (zulu t)) = some (t.val, some 0) := by
    rw [zuluToOffset_zulu t.property, fromisoformat_isoformat t.property]
  rw [RequestMapping.readMoment]
  split
  case h_1 hnone => cases hnone.symm.trans hread
  case h_2 read hsome =>
    cases Option.some.inj (hsome.symm.trans hread)
    rfl

end ReadBack
end FormalContentSignalQuery

namespace RequestMapping

section RoundTrip
variable {rt : MappingRuntime} {request : FormalRequest} {query : FormalContentSignalQuery}

theorem lookup_ofFields (fields : List (String × Json)) (key : String) :
    (ofFields fields).lookup key = (Json.lookup fields key).map .json := by
  induction fields with
  | nil => rfl
  | cons field fields ih =>
    rw [ofFields, List.map_cons, List.lookup_cons, Json.lookup_cons]
    by_cases hkey : key = field.1
    · rw [if_pos hkey.symm, hkey, beq_self_eq_true]
      rfl
    · rw [if_neg (Ne.symm hkey), beq_false_of_ne hkey]
      exact ih

theorem given_ofFields {fields : List (String × Json)} {key : String} {v : Json} (h : Json.lookup fields key = some v)
    (hnull : v ≠ .null) : (ofFields fields).given key = some (.json v) := by
  rw [given, lookup_ofFields, h]
  cases v <;> first | rfl | exact absurd rfl hnull

theorem given_canonicalRequest (query : FormalContentSignalQuery) :
    let given := fun key => (ofFields query.canonicalRequest).given key
    given "contract" = some (.json (.str formalContract)) ∧
      given "request_id" = some (.json (.str query.requestId)) ∧
      given "symbols" = some (.json (.arr (query.symbols.map .str))) ∧
      given "business_as_of" = some (.json (.str (zulu query.businessAsOf))) ∧
      given "knowledge_as_of" = some (.json (.str (zulu query.knowledgeAsOf))) ∧
      given "availability_as_of" = some (.json (.str (zulu query.availabilityAsOf))) ∧
      given "content_snapshot_id" = some (.json (.str query.contentSnapshotId)) ∧
      given "pit_mode" = some (.json (.str publicStrict)) ∧
      given "min_support" = some (.json (.int query.minSupport)) ∧
      given "signal_policy_version" = some (.json (.str query.signalPolicyVersion)) ∧
      given "start" = query.start.map (fun s => .json (.str (zulu s))) ∧
      given "end" = query.endAt.map (fun e => .json (.str (zulu e))) := by
  refine ⟨given_ofFields rfl nofun, given_ofFields rfl nofun, given_ofFields rfl nofun, given_ofFields rfl nofun,
    given_ofFields rfl nofun, given_ofFields rfl nofun, given_ofFields rfl nofun, given_ofFields rfl nofun,
    given_ofFields rfl nofun, given_ofFields rfl nofun, ?_, ?_⟩
  · cases hstart : query.start with
    | none => cases hend : query.endAt <;> simp [given, lookup_ofFields, FormalContentSignalQuery.canonicalRequest,
        Json.lookup_cons, hstart, hend]
    | some s => exact given_ofFields (by simp [FormalContentSignalQuery.canonicalRequest, Json.lookup_cons, hstart]) nofun
  · cases hend : query.endAt with
    | none => cases hstart : query.start <;> simp [given, lookup_ofFields, FormalContentSignalQuery.canonicalRequest,
        Json.lookup_cons, hstart, hend]
    | some e =>
      cases hstart : query.start <;> exact given_ofFields
        (by simp [FormalContentSignalQuery.canonicalRequest, Json.lookup_cons, hstart, hend]) nofun

theorem parseDt_zulu (field : String) (t : UtcMoment) : parseDt field (.json (.str (zulu t))) = .ok (.ofUtc t) := by
  rw [parseDt, momentOf, FormalContentSignalQuery.readMoment_zulu]
  rfl

theorem parseOptionalDt_zulu (field : String) (t : Option UtcMoment) :
    parseOptionalDt field (t.map fun t => FieldValue.json (.str (zulu t.val))) = .ok (t.map .ofUtc) := by
  cases t with
  | none => rfl
  | some t =>
    simp only [Option.map_some, parseOptionalDt, parseDt_zulu]
    rfl

/-- A canonical request asks for the query it is of. -/
theorem requestOf_canonicalRequest (hpolicy : query.signalPolicyVersion ≠ "") :
    requestOf rt (ofFields query.canonicalRequest) = .ok query.toRequest := by
  obtain ⟨hcontract, hid, hsymbols, hbusiness, hknowledge, havailability, hsnapshot, hmode, hsupport, hversion, hstart,
    hend⟩ := given_canonicalRequest query
  have htexts : symbolTexts rt (.json (.arr (query.symbols.map .str))) = .ok query.symbols := by
    rw [symbolTexts, List.map_map]
    exact congrArg _ (List.map_id _)
  have htext : policyOf rt (some (.json (.str query.signalPolicyVersion))) = query.signalPolicyVersion := by
    rw [policyOf, Option.filter_some_pos (by simp [isTrue, truthy, hpolicy])]
    rfl
  unfold requestOf
  simp only [hcontract, hid, hsymbols, hbusiness, hknowledge, havailability, hsnapshot, hmode, hsupport, hversion,
    hstart, hend, valueOf, Option.getD_some, htexts, parseDt_zulu, parseOptionalDt_zulu, htext, ok_bind]
  rfl

theorem missing_eq_nil {mapping : RequestMapping} :
    requiredKeys.filter (fun key => (mapping.given key).isNone) = [] ↔ ∀ key ∈ requiredKeys, mapping.given key ≠ none := by
  simp [List.filter_eq_nil_iff, Option.isNone_iff_eq_none]

/-- A mapping is accepted when nothing is missing and its request is. -/
theorem fromMapping_eq_ok {mapping : RequestMapping} : fromMapping rt mapping = .ok query ↔
    (∀ key ∈ requiredKeys, mapping.given key ≠ none) ∧
      ∃ request, requestOf rt mapping = .ok request ∧ query.Answers rt.tables request := by
  rw [fromMapping, then_eq_ok, require_eq_ok, decide_eq_true_iff, missing_eq_nil, bind_eq_ok]
  simp only [mapError_eq_ok, FormalContentSignalQuery.ofRequest_eq_ok]

/-- A valid query is what its canonical request asks for. -/
theorem fromMapping_canonicalRequest (h : query.Answers rt.tables request) :
    fromMapping rt (ofFields query.canonicalRequest) = .ok query := by
  have hpolicy : query.signalPolicyVersion ≠ "" := by
    intro hempty
    refine h.signalPolicyVersion_named ?_
    rw [← h.signalPolicyVersion, hempty]
    rfl
  refine fromMapping_eq_ok.mpr ⟨?_, query.toRequest, requestOf_canonicalRequest hpolicy, h.toRequest⟩
  obtain ⟨hcontract, hid, hsymbols, hbusiness, hknowledge, havailability, hsnapshot, hmode, hsupport, -⟩ :=
    given_canonicalRequest query
  dsimp only at hcontract hid hsymbols hbusiness hknowledge havailability hsnapshot hmode hsupport
  simp [requiredKeys, hcontract, hid, hsymbols, hbusiness, hknowledge, havailability, hsnapshot, hmode, hsupport]

end RoundTrip

/-! What differs only in how symbols and clocks are written. -/
section Alike
variable (rt : MappingRuntime)

def clockKeys : List String := ["business_as_of", "knowledge_as_of", "availability_as_of", "start", "end"]

/-- The symbols of a mapping, less the blanks around them. -/
def namedSymbols (mapping : RequestMapping) : List String :=
  (((symbolTexts rt (mapping.valueOf "symbols")).toOption.getD []).map (Text.strip rt.tables)).filter (· ≠ "")

/-- The instant that a value denotes. -/
def instantOf (value : FieldValue) : Option Time := (momentOf value).map fun moment => moment.value.utc

/-- Requests that differ only in the order, the repetitions and the outer blanks of their symbols, or in the
rendering of their clocks. -/
structure Alike (mapping mapping' : RequestMapping) : Prop where
  symbols : ∀ symbol, symbol ∈ namedSymbols rt mapping ↔ symbol ∈ namedSymbols rt mapping'
  clocks : ∀ key ∈ clockKeys, (mapping.given key).map instantOf = (mapping'.given key).map instantOf
  others : ∀ key, key ≠ "symbols" → key ∉ clockKeys → mapping.given key = mapping'.given key

/-- Every clock is written in UTC. -/
def UtcClocks (mapping : RequestMapping) : Prop :=
  ∀ key ∈ clockKeys, ∀ value, mapping.given key = some value → ∃ t, momentOf value = some (.ofUtc t)

/-- The query that a mapping asks for, field by field. -/
structure Asks (mapping : RequestMapping) (query : FormalContentSignalQuery) : Prop where
  present : ∀ key ∈ requiredKeys, mapping.given key ≠ none
  contract : textOf rt (mapping.valueOf "contract") = formalContract
  pitMode : textOf rt (mapping.valueOf "pit_mode") = publicStrict
  requestId : query.requestId = textOf rt (mapping.valueOf "request_id")
  contentSnapshotId : query.contentSnapshotId = textOf rt (mapping.valueOf "content_snapshot_id")
  signalPolicyVersion : query.signalPolicyVersion = policyOf rt (mapping.given "signal_policy_version")
  minSupport : query.minSupport = supportOf (mapping.valueOf "min_support")
  requestId_named : Text.strip rt.tables query.requestId ≠ ""
  contentSnapshotId_named : Text.strip rt.tables query.contentSnapshotId ≠ ""
  signalPolicyVersion_named : Text.strip rt.tables query.signalPolicyVersion ≠ ""
  symbols : query.symbols = sortedSet (namedSymbols rt mapping)
  businessAsOf : momentOf (mapping.valueOf "business_as_of") = some (.ofUtc query.businessAsOf)
  knowledgeAsOf : momentOf (mapping.valueOf "knowledge_as_of") = some (.ofUtc query.knowledgeAsOf)
  availabilityAsOf : momentOf (mapping.valueOf "availability_as_of") = some (.ofUtc query.availabilityAsOf)
  start : (mapping.given "start").map momentOf = query.start.map (some ∘ .ofUtc)
  endAt : (mapping.given "end").map momentOf = query.endAt.map (some ∘ .ofUtc)

variable {rt} {mapping mapping' : RequestMapping} {query : FormalContentSignalQuery}

theorem parseDt_eq_ok {field : String} {value : FieldValue} {m : Moment} :
    parseDt field value = .ok m ↔ momentOf value = some m := elim_eq_ok

theorem parseOptionalDt_eq_ok {field : String} {value : Option FieldValue} {m : Option Moment} :
    parseOptionalDt field value = .ok m ↔ value.map momentOf = m.map some := by
  cases value with
  | none => cases m <;> simp [parseOptionalDt]
  | some value =>
    rw [parseOptionalDt, parseDt, Option.map_some]
    cases momentOf value <;> cases m <;> simp [Except.map]

theorem namedSymbols_of_texts {texts : List String} (h : symbolTexts rt (mapping.valueOf "symbols") = .ok texts) :
    sortedSet (namedSymbols rt mapping) = FormalContentSignalQuery.canonicalSymbols rt.tables texts := by
  rw [namedSymbols, h]
  rfl

/-- Symbols that are named come of texts. -/
theorem symbolTexts_of_named (h : sortedSet (namedSymbols rt mapping) ≠ []) :
    ∃ texts, symbolTexts rt (mapping.valueOf "symbols") = .ok texts := by
  cases htexts : symbolTexts rt (mapping.valueOf "symbols") with
  | ok texts => exact ⟨texts, rfl⟩
  | error e =>
    rw [namedSymbols, htexts] at h
    exact absurd rfl h

theorem fromMapping_iff : fromMapping rt mapping = .ok query ↔ Asks rt mapping query := by
  rw [fromMapping_eq_ok]
  unfold requestOf
  simp only [bind_eq_ok, parseDt_eq_ok, parseOptionalDt_eq_ok]
  constructor
  · rintro ⟨hpresent, _, ⟨texts, htexts, business, hbusiness, knowledge, hknowledge, availability, havailability, start,
      hstart, endAt, hend, ⟨⟩⟩, h⟩
    have hid := h.requestId
    have hsnapshot := h.contentSnapshotId
    have hpolicy := h.signalPolicyVersion
    exact
      { present := hpresent
        contract := h.contract
        pitMode := h.pitMode
        requestId := hid
        contentSnapshotId := hsnapshot
        signalPolicyVersion := hpolicy
        minSupport := h.minSupport
        requestId_named := by rw [hid]; exact h.requestId_named
        contentSnapshotId_named := by rw [hsnapshot]; exact h.contentSnapshotId_named
        signalPolicyVersion_named := by rw [hpolicy]; exact h.signalPolicyVersion_named
        symbols := by rw [namedSymbols_of_texts htexts]; exact h.symbols
        businessAsOf := by rw [hbusiness]; exact congrArg some h.businessAsOf
        knowledgeAsOf := by rw [hknowledge]; exact congrArg some h.knowledgeAsOf
        availabilityAsOf := by rw [havailability]; exact congrArg some h.availabilityAsOf
        start := by rw [hstart, ← Option.map_map]; exact congrArg _ h.start
        endAt := by rw [hend, ← Option.map_map]; exact congrArg _ h.endAt }
  · intro h
    obtain ⟨texts, htexts⟩ : ∃ texts, symbolTexts rt (mapping.valueOf "symbols") = .ok texts :=
      symbolTexts_of_named (h.symbols ▸ query.symbols_ne)
    refine ⟨h.present, _, ⟨texts, htexts, _, h.businessAsOf, _, h.knowledgeAsOf, _, h.availabilityAsOf,
      query.start.map .ofUtc, ?_, query.endAt.map .ofUtc, ?_, rfl⟩, ?_⟩
    · rw [h.start, Option.map_map]
    · rw [h.endAt, Option.map_map]
    · exact
        { contract := h.contract
          pitMode := h.pitMode
          requestId_named := by rw [← h.requestId]; exact h.requestId_named
          contentSnapshotId_named := by rw [← h.contentSnapshotId]; exact h.contentSnapshotId_named
          signalPolicyVersion_named := by rw [← h.signalPolicyVersion]; exact h.signalPolicyVersion_named
          requestId := h.requestId
          symbols := by rw [← namedSymbols_of_texts htexts]; exact h.symbols
          businessAsOf := rfl
          knowledgeAsOf := rfl
          availabilityAsOf := rfl
          contentSnapshotId := h.contentSnapshotId
          minSupport := h.minSupport
          signalPolicyVersion := h.signalPolicyVersion
          start := rfl
          endAt := rfl }

/-- A clock in UTC that denotes the same instant is the same clock. -/
theorem momentOf_eq_of_instant {value value' : FieldValue} {t : UtcMoment} (h : instantOf value = instantOf value')
    (hvalue : momentOf value = some (.ofUtc t)) (hutc : ∃ t', momentOf value' = some (.ofUtc t')) :
    momentOf value' = some (.ofUtc t) := by
  obtain ⟨t', hvalue'⟩ := hutc
  rw [instantOf, instantOf, hvalue, hvalue', Option.map_some, Option.map_some, Option.some_inj] at h
  have hsame : t.val = t'.val := by simpa [Moment.ofUtc, DateTime.utc] using h
  rw [hvalue', Subtype.ext hsame]

theorem Alike.optional (h : Alike rt mapping mapping') (hutc : UtcClocks mapping') {key : String} (hkey : key ∈ clockKeys)
    {t : Option UtcMoment} (hclock : (mapping.given key).map momentOf = t.map (some ∘ .ofUtc)) :
    (mapping'.given key).map momentOf = t.map (some ∘ .ofUtc) := by
  have hsame := h.clocks key hkey
  have hutc := hutc key hkey
  cases hvalue : mapping.given key with
  | none =>
    rw [hvalue] at hclock hsame
    rw [Option.map_eq_none_iff.mp hsame.symm, ← hclock]
  | some value =>
    rw [hvalue] at hclock hsame
    obtain ⟨value', hvalue', hinstant⟩ := Option.map_eq_some_iff.mp hsame.symm
    obtain ⟨t, rfl, ht⟩ := Option.map_eq_some_iff.mp hclock.symm
    rw [hvalue', Option.map_some, Option.map_some, momentOf_eq_of_instant hinstant.symm ht.symm (hutc value' hvalue')]
    rfl

theorem Alike.required (h : Alike rt mapping mapping') (hutc : UtcClocks mapping') {key : String} (hkey : key ∈ clockKeys)
    (hpresent : mapping.given key ≠ none) {t : UtcMoment} (hclock : momentOf (mapping.valueOf key) = some (.ofUtc t)) :
    mapping'.given key ≠ none ∧ momentOf (mapping'.valueOf key) = some (.ofUtc t) := by
  obtain ⟨value, hvalue⟩ := Option.ne_none_iff_exists'.mp hpresent
  have hoptional := h.optional hutc hkey (t := some t) (by
    rw [hvalue, Option.map_some, Option.map_some]
    rw [valueOf, hvalue, Option.getD_some] at hclock
    rw [hclock]
    rfl)
  obtain ⟨value', hvalue', hmoment⟩ := Option.map_eq_some_iff.mp hoptional
  rw [valueOf, hvalue']
  exact ⟨nofun, hmoment⟩

/-- What asks for a query still does when it is written otherwise, in UTC. -/
theorem Asks.alike (h : Asks rt mapping query) (halike : Alike rt mapping mapping') (hutc : UtcClocks mapping') :
    Asks rt mapping' query := by
  have hvalue (key : String) (hsymbols : key ≠ "symbols") (hclock : key ∉ clockKeys) :
      mapping'.valueOf key = mapping.valueOf key := by rw [valueOf, valueOf, halike.others key hsymbols hclock]
  have hcontract := hvalue "contract" (by decide) (by decide)
  have hmode := hvalue "pit_mode" (by decide) (by decide)
  have hid := hvalue "request_id" (by decide) (by decide)
  have hsnapshot := hvalue "content_snapshot_id" (by decide) (by decide)
  have hsupport := hvalue "min_support" (by decide) (by decide)
  have hpolicy := halike.others "signal_policy_version" (by decide) (by decide)
  have hbusiness := halike.required hutc (by decide) (h.present _ (by decide)) h.businessAsOf
  have hknowledge := halike.required hutc (by decide) (h.present _ (by decide)) h.knowledgeAsOf
  have havailability := halike.required hutc (by decide) (h.present _ (by decide)) h.availabilityAsOf
  have hsymbols : query.symbols = sortedSet (namedSymbols rt mapping') := by
    rw [h.symbols]
    exact sortedSet_congr halike.symbols
  have hgiven : mapping'.given "symbols" ≠ none := by
    intro hnone
    obtain ⟨texts, htexts⟩ : ∃ texts, symbolTexts rt (mapping'.valueOf "symbols") = .ok texts :=
      symbolTexts_of_named (hsymbols ▸ query.symbols_ne)
    rw [valueOf, hnone] at htexts
    cases htexts
  have hpresent (key : String) (hkey : key ∈ requiredKeys) : mapping'.given key ≠ none := by
    by_cases hsym : key = "symbols"
    · rw [hsym]
      exact hgiven
    by_cases hclock : key ∈ clockKeys
    · simp only [clockKeys, List.mem_cons, List.not_mem_nil, or_false] at hclock
      rcases hclock with rfl | rfl | rfl | rfl | rfl
      · exact hbusiness.1
      · exact hknowledge.1
      · exact havailability.1
      · exact absurd hkey (by decide)
      · exact absurd hkey (by decide)
    · rw [← halike.others key hsym hclock]
      exact h.present key hkey
  exact
    { present := hpresent
      contract := hcontract ▸ h.contract
      pitMode := hmode ▸ h.pitMode
      requestId := hid ▸ h.requestId
      contentSnapshotId := hsnapshot ▸ h.contentSnapshotId
      signalPolicyVersion := hpolicy ▸ h.signalPolicyVersion
      minSupport := hsupport ▸ h.minSupport
      requestId_named := h.requestId_named
      contentSnapshotId_named := h.contentSnapshotId_named
      signalPolicyVersion_named := h.signalPolicyVersion_named
      symbols := hsymbols
      businessAsOf := hbusiness.2
      knowledgeAsOf := hknowledge.2
      availabilityAsOf := havailability.2
      start := halike.optional hutc (by decide) h.start
      endAt := halike.optional hutc (by decide) h.endAt }

/-- What is accepted is written in UTC. -/
theorem Asks.utcClocks (h : Asks rt mapping query) : UtcClocks mapping := by
  have hrequired (key : String) (t : UtcMoment) (hclock : momentOf (mapping.valueOf key) = some (.ofUtc t))
      (value : FieldValue) (hvalue : mapping.given key = some value) : ∃ t, momentOf value = some (.ofUtc t) := by
    rw [valueOf, hvalue] at hclock
    exact ⟨t, hclock⟩
  have hoptional (key : String) (t : Option UtcMoment)
      (hclock : (mapping.given key).map momentOf = t.map (some ∘ .ofUtc)) (value : FieldValue)
      (hvalue : mapping.given key = some value) : ∃ t, momentOf value = some (.ofUtc t) := by
    rw [hvalue] at hclock
    obtain ⟨t, rfl, ht⟩ := Option.map_eq_some_iff.mp hclock.symm
    exact ⟨t, ht.symm⟩
  intro key hkey
  simp only [clockKeys, List.mem_cons, List.not_mem_nil, or_false] at hkey
  rcases hkey with rfl | rfl | rfl | rfl | rfl
  · exact hrequired _ _ h.businessAsOf
  · exact hrequired _ _ h.knowledgeAsOf
  · exact hrequired _ _ h.availabilityAsOf
  · exact hoptional _ _ h.start
  · exact hoptional _ _ h.endAt

theorem queryIdFor_eq_ok {digest : Json → String} {id : String} :
    queryIdFor rt digest mapping = .ok id ↔ ∃ query, fromMapping rt mapping = .ok query ∧ query.queryId digest = id := by
  rw [queryIdFor]
  cases fromMapping rt mapping <;> simp [Except.map]

/-- A valid query is read back from its canonical request, under the same id. Requests that differ only in the
order, the repetitions and the outer blanks of their symbols, or in how the same instants are rendered, ask for one
query and have one id. -/
theorem canonicalRequest_roundTrip (rt : MappingRuntime) (digest : Json → String) :
    (∀ request query, FormalContentSignalQuery.ofRequest rt.tables request = .ok query →
      fromMapping rt (ofFields query.canonicalRequest) = .ok query ∧
        queryIdFor rt digest (ofFields query.canonicalRequest) = .ok (query.queryId digest)) ∧
    (∀ mapping mapping' query, Alike rt mapping mapping' → UtcClocks mapping' →
      fromMapping rt mapping = .ok query → fromMapping rt mapping' = .ok query) ∧
    ∀ mapping mapping' id id', Alike rt mapping mapping' → queryIdFor rt digest mapping = .ok id →
      queryIdFor rt digest mapping' = .ok id' → id' = id := by
  refine ⟨?_, ?_, ?_⟩
  · intro request query h
    have hread := fromMapping_canonicalRequest (FormalContentSignalQuery.ofRequest_eq_ok.mp h)
    exact ⟨hread, queryIdFor_eq_ok.mpr ⟨query, hread, rfl⟩⟩
  · intro mapping mapping' query halike hutc h
    exact fromMapping_iff.mpr ((fromMapping_iff.mp h).alike halike hutc)
  · intro mapping mapping' id id' halike h h'
    obtain ⟨query, hquery, rfl⟩ := queryIdFor_eq_ok.mp h
    obtain ⟨query', hquery', rfl⟩ := queryIdFor_eq_ok.mp h'
    have hasks := (fromMapping_iff.mp hquery).alike halike (fromMapping_iff.mp hquery').utcClocks
    have hsame : query' = query := Except.ok.inj (hquery'.symm.trans (fromMapping_iff.mpr hasks))
    rw [hsame]

def spacedRuntime : MappingRuntime where
  tables := {
    isDecimal := Char.isDigit
    isSpace := (· = ' ')
    upper := fun c => [c.toUpper]
    letters := Text.letter_ne_blank }
  str := fun _ => "?"

def spelled (symbols : List String) (clock : String) : RequestMapping :=
  ofFields [("contract", .str formalContract), ("request_id", .str "request-1"), ("symbols", .arr (symbols.map .str)),
    ("business_as_of", .str clock), ("knowledge_as_of", .str clock), ("availability_as_of", .str clock),
    ("content_snapshot_id", .str "snapshot-1"), ("pit_mode", .str publicStrict), ("min_support", .int 1)]

theorem spelled_accepted :
    (∃ query, fromMapping spacedRuntime (spelled [" 600519.SH", "000001.SZ"] "2026-01-05T00:00:00Z") = .ok query) ∧
      ∃ query, fromMapping spacedRuntime
        (spelled ["000001.SZ", "600519.SH ", "600519.SH"] "20260105 00:00:00.000+00:00") = .ok query :=
  ⟨toBool_eq_true.mp (by decide), toBool_eq_true.mp (by decide)⟩

theorem spelled_alike : Alike spacedRuntime (spelled [" 600519.SH", "000001.SZ"] "2026-01-05T00:00:00Z")
    (spelled ["000001.SZ", "600519.SH ", "600519.SH"] "20260105 00:00:00.000+00:00") where
  symbols := by
    have h : namedSymbols spacedRuntime (spelled [" 600519.SH", "000001.SZ"] "2026-01-05T00:00:00Z") =
        ["600519.SH", "000001.SZ"] := by decide
    have h' : namedSymbols spacedRuntime (spelled ["000001.SZ", "600519.SH ", "600519.SH"]
        "20260105 00:00:00.000+00:00") = ["000001.SZ", "600519.SH", "600519.SH"] := by decide
    intro symbol
    rw [h, h']
    simp only [List.mem_cons, List.not_mem_nil, or_false, or_self]
    exact or_comm
  clocks := by decide
  others := by
    intro key hsymbols hclock
    simp only [clockKeys, List.mem_cons, List.not_mem_nil, or_false, not_or] at hclock
    obtain ⟨hbusiness, hknowledge, havailability, -⟩ := hclock
    simp only [given, spelled, lookup_ofFields, Json.lookup_cons, if_neg (Ne.symm hsymbols),
      if_neg (Ne.symm hbusiness), if_neg (Ne.symm hknowledge), if_neg (Ne.symm havailability)]

/-- Two spellings of a request are read as one query. -/
theorem spelled_same_query : ∃ query,
    fromMapping spacedRuntime (spelled [" 600519.SH", "000001.SZ"] "2026-01-05T00:00:00Z") = .ok query ∧
      fromMapping spacedRuntime
        (spelled ["000001.SZ", "600519.SH ", "600519.SH"] "20260105 00:00:00.000+00:00") = .ok query := by
  obtain ⟨⟨query, hquery⟩, ⟨query', hquery'⟩⟩ := spelled_accepted
  have hutc := (fromMapping_iff.mp hquery').utcClocks
  exact ⟨query, hquery,
    (canonicalRequest_roundTrip spacedRuntime fun _ => "").2.1 _ _ query spelled_alike hutc hquery⟩

end Alike
end RequestMapping
end StockContent.Signals
