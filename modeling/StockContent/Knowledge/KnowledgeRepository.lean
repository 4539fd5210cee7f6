import StockContent.Ledger.Projector
import StockContent.Lifecycle.LifecycleEvents

/-! Knowledge reads: rows are selected by the database and then tested one by one in memory,
against their projected attributes and against the lifecycle ledger. -/
namespace StockContent.Knowledge
open Storage Verification Lifecycle Ledger

inductive ReadError where
  | valueError (message : String)
  | typeError
  | attributeError
  | overflowError
  deriving DecidableEq, Repr

/-- What the reads take from the language: `datetime.fromisoformat`, which fails on what is no
timestamp, `str` of values that are no strings, and `upper`. -/
structure ReadTexts where
  fromisoformat : String → Option DateTime
  text : Json → String
  upper : String → String
  upper_system : upper "SYSTEM" = "SYSTEM"

structure KnowledgeUnitRow where
  knowledgeUid : String
  videoId : String
  statement : String
  kind : String := "CLAIM"
  subject : Option String := none
  ticker : Option String := none
  supportStatus : String := "SOURCE_SUPPORTED"
  reviewStatus : String := "UNREVIEWED"
  lifecycleStatus : String := "ACTIVE"
  confidence : Rat
  availableFrom : Time
  attributes : List (String × Json) := []
  deriving DecidableEq

abbrev UnitTable := Table KnowledgeUnitRow.knowledgeUid

structure KnowledgeDb where
  units : UnitTable
  ledger : LifecycleTable

/-- A payload shows the columns of its row. -/
structure KnowledgePayload extends KnowledgeUnitRow where
  sourceAvailabilityQuality : Option String := none
  deriving DecidableEq

/-- The keys of a filter. The outer option says whether a key is there at all, the inner one
whether it is `None`. -/
structure KnowledgeFilters where
  kind : Option String := none
  ticker : Option String := none
  subject : Option String := none
  supportStatus : Option String := none
  reviewStatus : Option String := none
  videoId : Option String := none
  pitMode : Option (Option String) := none
  availabilityMode : Option (Option String) := none
  availabilityAsOf : Option (Option DateTime) := none
  temporalRole : Option (Option String) := none
  targetStart : Option (Option String) := none
  targetEnd : Option (Option String) := none
  semanticSegmentId : Option (Option String) := none
  businessAsOf : Option (Option DateTime) := none
  knowledgeAsOf : Option (Option DateTime) := none
  historicalProjection : Bool := false
  deriving DecidableEq

section Values
variable (texts : ReadTexts)

/-- The first and the last instant of the calendar. -/
def minTime : Time := -719162 * dayLength
def maxTime : Time := 2932897 * dayLength - 1

def astimezoneUtc (value : DateTime) : Except ReadError Time :=
  if minTime ≤ value.utc ∧ value.utc ≤ maxTime then .ok value.utc else .error .overflowError

/-- `str(value).replace("Z", "+00:00")`. -/
def offsetText (value : Json) : String :=
  String.ofList ((value.strOf texts.text).toList.flatMap fun c => if c = 'Z' then "+00:00".toList else [c])

def isoOf (value : DateTime) : Except ReadError String := do
  let time ← astimezoneUtc value
  return isoformat time

/-- The text of a timestamp in UTC; what is no timestamp keeps its text. -/
def iso (value : Option Json) : Except ReadError String :=
  match value.getD .null with
  | .null => .ok ""
  | value =>
    match texts.fromisoformat (offsetText texts value) with
    | none => .ok (offsetText texts value)
    | some parsed => isoOf parsed

def textOr (fields : List (String × Json)) (key default : String) : String :=
  ((Json.lookup fields key).filter truthy).elim default (Json.strOf texts.text)

/-- `list(value or [])`. -/
def itemsOf (value : Option Json) : Except ReadError (List Json) :=
  match value.filter truthy with
  | none => .ok []
  | some (.arr items) => .ok items
  | some (.obj fields) => .ok (fields.map fun field => .str field.1)
  | some (.str s) => .ok (s.toList.map fun c => .str (String.singleton c))
  | some _ => .error .typeError

/-- Only objects have a `get`. -/
def fieldsOf : Json → Except ReadError (List (String × Json))
  | .obj fields => .ok fields
  | _ => .error .attributeError

/-- A list of tested items: the first test that raises ends it. -/
def filterE {E A : Type} (test : A → Except E Bool) : List A → Except E (List A)
  | [] => .ok []
  | x :: xs => do
    let keep ← test x
    let rest ← filterE test xs
    return if keep then x :: rest else rest

/-- `test and next`. -/
def both {E : Type} (test : Except E Bool) (next : Except E Bool) : Except E Bool := do
  if ← test then next else return false

end Values

section Bindings
variable (texts : ReadTexts)

def orElse (fields : List (String × Json)) (key other : String) : Json :=
  let value := (Json.lookup fields key).getD .null
  if truthy value then value else (Json.lookup fields other).getD .null

/-- An endpoint of an interval: days for dates, instants for timestamps. -/
def endpoint (isDate : Bool) (value : Json) : Except ReadError (Option Int) :=
  match value with
  | .null => .ok none
  | value =>
    if isDate then
      match texts.fromisoformat (String.ofList ((value.strOf texts.text).toList.take 10)) with
      | none => .error (.valueError "Invalid isoformat string")
      | some parsed => .ok (some (parsed.wall / dayLength))
    else
      match texts.fromisoformat (offsetText texts value) with
      | none => .error (.valueError "Invalid isoformat string")
      | some parsed => (astimezoneUtc parsed).map some

def meets (lower upper requestedLower requestedUpper : Option Int) : Bool :=
  (lower.isSome || upper.isSome) &&
    (requestedLower.all fun requested => upper.all fun upper => requested ≤ upper) &&
    (requestedUpper.all fun requested => lower.all fun lower => lower ≤ requested)

/-- An unknown value type is told from a concrete endpoint; without one nothing overlaps. -/
def bindingDates (fields : List (String × Json)) : Option Bool :=
  let has (key : String) : Bool := (Json.lookup fields key).any truthy
  let valueType := texts.upper (textOr texts fields "value_type" "")
  if valueType = "DATE" then some true
  else if valueType = "TIMESTAMP" then some false
  else if has "start_time" || has "end_time" then some false
  else if has "start_date" || has "end_date" then some true
  else none

def bindingOverlaps (targetStart targetEnd : Option String) (binding : Json) : Except ReadError Bool := do
  let fields ← fieldsOf binding
  match bindingDates texts fields with
  | none => return false
  | some isDate =>
    let ends : Except ReadError Bool := do
      let lower ← endpoint texts isDate
        (if isDate then orElse fields "start_date" "earliest_start_date" else orElse fields "start_time" "earliest_start_time")
      let upper ← endpoint texts isDate
        (if isDate then orElse fields "end_date" "latest_end_date" else orElse fields "end_time" "latest_end_time")
      let requestedLower ← endpoint texts isDate (targetStart.elim .null .str)
      let requestedUpper ← endpoint texts isDate (targetEnd.elim .null .str)
      return meets lower upper requestedLower requestedUpper
    match ends with
    | .error (.valueError _) | .error .typeError => return false
    | result => result

def hasRole (role : String) (binding : Json) : Except ReadError Bool := do
  let fields ← fieldsOf binding
  return textOr texts fields "role" "" == role

end Bindings

section Pit
variable (texts : ReadTexts)

inductive PitMode where
  | system | publicStrict | publicAllowProxy
  deriving DecidableEq, Repr

def pitModeOf (mode : String) : Option PitMode :=
  if mode = "SYSTEM" then some .system
  else if mode = "PUBLIC_STRICT" then some .publicStrict
  else if mode = "PUBLIC_ALLOW_PROXY" then some .publicAllowProxy
  else none

def pitMode (filters : KnowledgeFilters) : Except ReadError PitMode :=
  let given (slot : Option (Option String)) : Option String := slot.join.filter (· ≠ "")
  let mode := texts.upper (((given filters.pitMode).or (given filters.availabilityMode)).getD "SYSTEM")
  match pitModeOf mode with
  | some mode => .ok mode
  | none => .error (.valueError ("unknown pit mode: " ++ mode))

def quality (attributes : List (String × Json)) : String :=
  texts.upper (textOr texts attributes "source_availability_quality" "UNKNOWN")

def sourceAvailable (attributes : List (String × Json)) : Option Json :=
  (Json.lookup attributes "source_available_at").filter truthy

def qualityMatches (mode : PitMode) (row : KnowledgeUnitRow) : Bool :=
  match mode with
  | .system => true
  | .publicStrict => quality texts row.attributes == "EXACT" && (sourceAvailable row.attributes).isSome
  | .publicAllowProxy =>
    quality texts row.attributes == "EXACT" || quality texts row.attributes == "PUBLISHED_TIME_PROXY" ||
      quality texts row.attributes == "INGEST_TIME_UPPER_BOUND"

def availabilityMatches (mode : PitMode) (asOf : Option DateTime) (row : KnowledgeUnitRow) : Except ReadError Bool :=
  match asOf with
  | none => .ok true
  | some asOf => do
    let asOfText ← isoOf asOf
    if asOfText < isoformat row.availableFrom then return false
    match mode, sourceAvailable row.attributes with
    | .system, _ => return true
    | _, none => return false
    | _, some source =>
      let sourceText ← iso texts (some source)
      return decide (sourceText ≤ asOfText)

def asked (value : Option String) : Bool := value.any (· ≠ "")

def roleCandidates (role : Option String) (bindings : List Json) : Except ReadError (List Json) :=
  if asked role then filterE (hasRole texts (role.getD "")) bindings else .ok bindings

/-- The role and the range are asked of one and the same binding. -/
def temporalCandidates (role targetStart targetEnd : Option String) (bindings : List Json) :
    Except ReadError (List Json) := do
  let ofRole ← roleCandidates texts role bindings
  if asked targetStart || asked targetEnd then filterE (bindingOverlaps texts targetStart targetEnd) ofRole
  else .ok ofRole

def temporalMatches (role targetStart targetEnd : Option String) (row : KnowledgeUnitRow) : Except ReadError Bool := do
  let bindings ← itemsOf (Json.lookup row.attributes "temporal_bindings")
  if asked role || asked targetStart || asked targetEnd then
    (temporalCandidates texts role targetStart targetEnd bindings).map fun candidates => !candidates.isEmpty
  else .ok true

def segmentMatches (segmentId : Option String) (row : KnowledgeUnitRow) : Bool :=
  (segmentId.filter (· ≠ "")).all fun segmentId => textOr texts row.attributes "semantic_segment_id" "" == segmentId

/-- The end of the calendar stands in for a clock that is not given. -/
def clockText (clock : Option DateTime) : Except ReadError String :=
  clock.elim (.ok "9999-12-31T23:59:59+00:00") isoOf

def eventVisible (business knowledge : String) (event : Json) : Except ReadError Bool := do
  let fields ← fieldsOf event
  let effective ← iso texts (Json.lookup fields "effective_at")
  if business < effective then return false
  let recorded ← iso texts (Json.lookup fields "recorded_at")
  return decide (recorded ≤ knowledge)

def eventKey (event : Json) : String ×ₗ String ×ₗ String :=
  let fields := (fieldsOf event).toOption.getD []
  let text (key : String) : String := (iso texts (Json.lookup fields key)).toOption.getD ""
  toLex (text "effective_at", toLex (text "recorded_at", textOr texts fields "lifecycle_event_id" ""))

/-- `state not in {None, "ACTIVE"}`; lists and objects cannot be looked up in a set. -/
def activeState (event : Json) : Except ReadError Bool := do
  let fields ← fieldsOf event
  match (Json.lookup fields "to_status").getD .null with
  | .null => return true
  | .arr _ | .obj _ => .error .typeError
  | state => return state == .str "ACTIVE"

def clocksMatch (business knowledge : Option DateTime) (historicalProjection : Bool) (row : KnowledgeUnitRow) :
    Except ReadError Bool :=
  if historicalProjection || (business.isNone && knowledge.isNone) then .ok true
  else do
    let business ← clockText business
    let knowledge ← clockText knowledge
    let events ← itemsOf (Json.lookup row.attributes "lifecycle_events")
    if events.isEmpty then return row.lifecycleStatus == "ACTIVE"
    let visible ← filterE (eventVisible texts business knowledge) events
    match visible.argmax (eventKey texts) with
    | none => return false
    | some event => activeState event

/-- The tests on the projected attributes of a row, one after the other. -/
def pitMatches (filters : KnowledgeFilters) (row : KnowledgeUnitRow) : Except ReadError Bool := do
  let mode ← pitMode texts filters
  both (.ok (qualityMatches texts mode row)) <|
    both (availabilityMatches texts mode filters.availabilityAsOf.join row) <|
    both (temporalMatches texts filters.temporalRole.join filters.targetStart.join filters.targetEnd.join row) <|
    both (.ok (segmentMatches texts filters.semanticSegmentId.join row)) <|
    clocksMatch texts filters.businessAsOf.join filters.knowledgeAsOf.join filters.historicalProjection row

end Pit

section Ledger
variable (texts : ReadTexts)

/-- The claim and the occurrence that a row was projected from, or the row itself. -/
def targetSpecs (row : KnowledgeUnitRow) : List (LifecycleTargetType × String) :=
  let named (key : String) (type : LifecycleTargetType) : List (LifecycleTargetType × String) :=
    ((Json.lookup row.attributes key).filter truthy).toList.map fun id => (type, id.strOf texts.text)
  match named "claim_id" .claim ++ named "occurrence_id" .occurrence with
  | [] => [(.claim, row.knowledgeUid)]
  | specs => specs

def hasLineage (row : KnowledgeUnitRow) : Bool :=
  (Json.lookup row.attributes "claim_id").any truthy || (Json.lookup row.attributes "occurrence_id").any truthy

def ledgerKey (row : LifecycleEventLedgerRow) : Time ×ₗ Time ×ₗ String :=
  toLex (row.effectiveAt, toLex (row.recordedAt, row.lifecycleEventId))

/-- The latest event of a target that both clocks can see. -/
def latestEvent (ledger : LifecycleTable) (business knowledge : Option DateTime) (spec : LifecycleTargetType × String) :
    Option LifecycleEventLedgerRow :=
  (ledger.rows.filter fun row => row.targetType = spec.1 && row.targetId = spec.2 &&
    business.all (row.effectiveAt ≤ ·.utc) && knowledge.all (row.recordedAt ≤ ·.utc)).argmax ledgerKey

def lifecycleMatches (ledger : LifecycleTable) (filters : KnowledgeFilters) (row : KnowledgeUnitRow) : Bool :=
  let business := filters.businessAsOf.join
  let knowledge := filters.knowledgeAsOf.join
  (targetSpecs texts row).all fun spec =>
    match latestEvent ledger business knowledge spec with
    | some event => event.toStatus == "ACTIVE"
    | none => !hasLineage row && business.isNone && knowledge.isNone && row.lifecycleStatus == "ACTIVE"

end Ledger

section Reads
variable (texts : ReadTexts)

def applyFilters (filters : KnowledgeFilters) (row : KnowledgeUnitRow) : Bool :=
  let same (wanted actual : Option String) : Bool := (wanted.filter (· ≠ "")).all fun value => actual == some value
  same filters.kind (some row.kind) && same filters.ticker row.ticker && same filters.subject row.subject &&
    same filters.supportStatus (some row.supportStatus) && same filters.reviewStatus (some row.reviewStatus) &&
    same filters.videoId (some row.videoId)

/-- The filters whose presence makes a search fetch every candidate. -/
def postFilter (filters : KnowledgeFilters) : Bool :=
  filters.pitMode.isSome || filters.availabilityMode.isSome || filters.availabilityAsOf.isSome ||
    filters.temporalRole.isSome || filters.targetStart.isSome || filters.targetEnd.isSome ||
    filters.semanticSegmentId.isSome || filters.businessAsOf.isSome || filters.knowledgeAsOf.isSome

def rowMatches (ledger : LifecycleTable) (filters : KnowledgeFilters) (row : KnowledgeUnitRow) :
    Except ReadError Bool :=
  both (pitMatches texts filters row) (.ok (lifecycleMatches texts ledger filters row))

def payload (row : KnowledgeUnitRow) : KnowledgePayload := { row with }

/-- What a search asks of the database; `ilike` is its case-insensitive containment. -/
def queried (ilike : String → String → Bool) (query : String) (filters : KnowledgeFilters) (row : KnowledgeUnitRow) :
    Bool :=
  (ilike query row.statement || row.subject.any (ilike query) || row.ticker.any (ilike query)) &&
    applyFilters filters row && filters.availabilityAsOf.join.all (row.availableFrom ≤ ·.utc)

/-- Rows of one confidence come in the order of the table. -/
def byConfidence (a b : KnowledgeUnitRow) : Bool := b.confidence ≤ a.confidence

def search (ilike : String → String → Bool) (query : String) (filters : KnowledgeFilters) (limit : Nat)
    (db : KnowledgeDb) : Except ReadError (List KnowledgePayload) := do
  let fetched := if postFilter filters then db.units.rows.length else limit
  let rows := db.units.select (queried ilike query filters) byConfidence fetched
  let filtered ← filterE (rowMatches texts db.ledger filters) rows
  return (filtered.take limit).map payload

def hydrate (knowledgeUids : List String) (filters : KnowledgeFilters) (db : KnowledgeDb) :
    Except ReadError (List KnowledgePayload) := do
  let rows := knowledgeUids.filterMap fun uid => (db.units.get uid).filter (applyFilters filters)
  let filtered ← filterE (rowMatches texts db.ledger filters) rows
  return filtered.map payload

def byAvailability (a b : KnowledgeUnitRow) : Bool :=
  a.availableFrom < b.availableFrom || (a.availableFrom == b.availableFrom && a.knowledgeUid ≤ b.knowledgeUid)

/-- The filters of a point-in-time listing. -/
def listFilters (asOf : DateTime) (mode : String) (temporalRole semanticSegmentId : Option String) : KnowledgeFilters where
  availabilityAsOf := some (some asOf)
  pitMode := some (some mode)
  temporalRole := some temporalRole
  semanticSegmentId := some semanticSegmentId

def listForVideoAsOf (videoId : String) (asOf : DateTime) (limit : Nat) (availabilityMode : String)
    (temporalRole semanticSegmentId : Option String) (db : KnowledgeDb) : Except ReadError (List KnowledgePayload) := do
  let rows := db.units.select (fun row => row.videoId = videoId && row.availableFrom ≤ asOf.utc) byAvailability
    db.units.rows.length
  let mode := texts.upper availabilityMode
  if pitModeOf mode = none then .error (.valueError ("unknown availability mode: " ++ availabilityMode))
  let filtered ← filterE (pitMatches texts (listFilters asOf mode temporalRole semanticSegmentId)) rows
  let shown := filtered.map fun row =>
    { payload row with sourceAvailabilityQuality := some (quality texts row.attributes) }
  return shown.take limit

/-- Candidates of the index come first, and relational rows fill what they leave. -/
def fillShortfall (limit : Nat) (hydrated : List KnowledgePayload) : List KnowledgePayload → List KnowledgePayload
  | [] => hydrated
  | item :: fallback =>
    if hydrated.any (·.knowledgeUid = item.knowledgeUid) then fillShortfall limit hydrated fallback
    else if limit ≤ hydrated.length + 1 then hydrated ++ [item]
    else fillShortfall limit (hydrated ++ [item]) fallback

/-- The named arguments of a search. -/
structure SearchArguments where
  availabilityAsOf : Option DateTime := none
  targetStart : Option String := none
  targetEnd : Option String := none
  temporalRole : Option String := none
  semanticSegmentId : Option String := none
  businessAsOf : Option DateTime := none
  knowledgeAsOf : Option DateTime := none
  pitMode : Option String := none

/-- Given arguments replace the filters of their name; without any mode the configured one is used. -/
def effectiveFilters (defaultMode : String) (arguments : SearchArguments) (filters : KnowledgeFilters) :
    KnowledgeFilters :=
  let pitMode := if arguments.pitMode.isNone && filters.pitMode.isNone then some defaultMode else arguments.pitMode
  let given {A : Type} (value : Option A) (slot : Option (Option A)) : Option (Option A) := (value.map some).or slot
  { filters with
    availabilityAsOf := given arguments.availabilityAsOf filters.availabilityAsOf
    targetStart := given arguments.targetStart filters.targetStart
    targetEnd := given arguments.targetEnd filters.targetEnd
    temporalRole := given arguments.temporalRole filters.temporalRole
    semanticSegmentId := given arguments.semanticSegmentId filters.semanticSegmentId
    businessAsOf := given arguments.businessAsOf filters.businessAsOf
    knowledgeAsOf := given arguments.knowledgeAsOf filters.knowledgeAsOf
    pitMode := given pitMode filters.pitMode }

/-- `index` is the answer of the vector index; whatever goes wrong with it, or with its
candidates, leaves the relational search. -/
def searchKnowledge (ilike : String → String → Bool) (query : String) (index : Except Unit (List String))
    (filters : KnowledgeFilters) (limit : Nat) (db : KnowledgeDb) : Except ReadError (List KnowledgePayload) :=
  let relational := search texts ilike query filters limit db
  match index with
  | .error _ | .ok [] => relational
  | .ok knowledgeUids =>
    let combined : Except ReadError (List KnowledgePayload) := do
      let hydrated ← hydrate texts knowledgeUids filters db
      if limit ≤ hydrated.length then return hydrated.take limit
      let fallback ← relational
      return (fillShortfall limit hydrated fallback).take limit
    match combined with
    | .ok result => .ok result
    | .error _ => relational

end Reads
end StockContent.Knowledge
