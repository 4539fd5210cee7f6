import StockContent.Knowledge.KnowledgeRepository
import StockContent.Storage.Dict
import StockContent.Storage.StableMembership
import StockContent.Text.Strip

/-! The knowledge units of a video are replaced together, and the cross-video corroboration of their groups is computed
again. Rows are never deleted: a unit that does not come again is superseded. -/
namespace StockContent.Knowledge
open Storage Ledger

/-- What the writer takes from the language and the database: `str` of values that are no strings, `dict` of values that
are no objects, true division, and the id that a new row gets. -/
structure WriteRuntime (F : Type) where
  str : Json → String
  dictOf : Json → Except ReadError (List (String × Json))
  tables : Text.CharTables
  divide : Int → Int → F
  nextId : List Nat → Nat

structure KnowledgeUnit where
  knowledgeUid : String
  videoId : String
  knowledgeKind : String := "STATE"
  subjectKey : Option String := none
  predicateKey : Option String := none
  ticker : Option String := none
  sentiment : String := "NEUTRAL"
  supportStatus : String := "SOURCE_SUPPORTED"
  lifecycleStatus : String := "ACTIVE"
  attributes : List (String × Json) := []
  deriving DecidableEq

structure KnowledgeEvidenceRow where
  id : Nat
  knowledgeUid : String
  evidenceType : String
  sourceId : Option String
  videoId : String
  frameId : Option String
  evidenceText : String
  startSeconds : Json
  endSeconds : Json
  structuredPayload : List (String × Json)
  confidence : Json
  sourceReliability : Json
  deriving DecidableEq

/-- What the service returns for a unit. -/
structure CrossVideoValues (F : Type) where
  corroboratingVideoCount : Nat
  contradictingVideoCount : Nat
  independentSourceCount : Nat
  contentAttentionScore : F
  consensusScore : F
  disagreementScore : F
  evidenceIds : List String
  deriving DecidableEq

/-- The older name of the content attention score is kept beside it. -/
structure KnowledgeCrossVideoRow (F : Type) extends CrossVideoValues F where
  knowledgeUid : String
  authorAttentionScore : F
  deriving DecidableEq

abbrev KnowledgeUnitTable := Table KnowledgeUnit.knowledgeUid
abbrev EvidenceTable := Table KnowledgeEvidenceRow.id
abbrev CrossVideoTable (F : Type) := Table fun row : KnowledgeCrossVideoRow F => row.knowledgeUid

structure CrossVideoDb (F : Type) where
  units : KnowledgeUnitTable
  evidence : EvidenceTable
  cross : CrossVideoTable F

inductive WriteError where
  | value (error : ReadError)
  | integrityError
  | databaseError
  deriving DecidableEq

section Calculate
variable {F : Type} (runtime : WriteRuntime F)

/-- The columns of a row that the calculation reads. -/
structure CrossVideoPayload where
  knowledgeUid : String
  videoId : String
  subjectKey : Option String
  predicateKey : Option String
  sentiment : String
  supportStatus : String
  lifecycleStatus : String
  evidenceIds : List String
  deriving DecidableEq

def supportRanks : List (String × Nat) :=
  [("UNSUPPORTED", 0), ("SOURCE_LOCATED", 1), ("NEEDS_REVIEW", 2), ("SOURCE_SUPPORTED", 3),
    ("CROSS_MODAL_SUPPORTED", 4), ("EXTERNALLY_VERIFIED", 5), ("VALIDATED", 5)]

/-- An unknown status ranks lowest. -/
def supportRank (status : String) : Nat :=
  (supportRanks.lookup (Text.upper runtime.tables (Text.strip runtime.tables status))).getD 0

def supported (status : String) : Bool := supportRank runtime "SOURCE_SUPPORTED" ≤ supportRank runtime status

def orText (value : String) (other : String) : String := if value = "" then other else value

def groupKey (row : CrossVideoPayload) : String × String := (row.subjectKey.getD "", row.predicateKey.getD "")

/-- The rows that form groups: `ACTIVE`, with a subject key. -/
def grouped (row : CrossVideoPayload) : Bool := (groupKey row).1 ≠ "" && row.lifecycleStatus = "ACTIVE"

def valuesOf (group : List CrossVideoPayload) : CrossVideoValues F :=
  let byVideo := Dict.groupBy CrossVideoPayload.videoId (group.filter fun row => supported runtime row.supportStatus)
  let items := byVideo.rows.flatMap Prod.snd
  let sentiments := items.map fun row => orText row.sentiment "NEUTRAL"
  let bullish := sentiments.count "BULLISH"
  let bearish := sentiments.count "BEARISH"
  let total := max byVideo.rows.length 1
  { corroboratingVideoCount := max bullish bearish
    contradictingVideoCount := min bullish bearish
    independentSourceCount := byVideo.rows.length
    contentAttentionScore := runtime.divide group.length total
    consensusScore := runtime.divide (bullish - bearish) (max sentiments.length 1 : Nat)
    disagreementScore := runtime.divide (min bullish bearish : Nat) (max sentiments.length 1 : Nat)
    evidenceIds := sortedSet (items.flatMap (·.evidenceIds)) }

/-- Every supported row of a group gets the values of the group. -/
def sharesOf (group : List CrossVideoPayload) : List (String × CrossVideoValues F) :=
  let byVideo := Dict.groupBy CrossVideoPayload.videoId (group.filter fun row => supported runtime row.supportStatus)
  byVideo.rows.flatMap fun items => items.2.map fun row => (row.knowledgeUid, valuesOf runtime group)

def calculate (rows : List CrossVideoPayload) : Dict String (CrossVideoValues F) :=
  Table.empty.putAll ((Dict.groupBy groupKey (rows.filter grouped)).rows.flatMap fun group => sharesOf runtime group.2)

end Calculate

section Replace
variable {F : Type} (runtime : WriteRuntime F)

/-- The key under which a unit asks for its group to be computed again. -/
def affectedKey (unit : KnowledgeUnit) : String × String :=
  (orText (unit.subjectKey.getD "") (unit.ticker.getD ""), orText (unit.predicateKey.getD "") unit.knowledgeKind)

def payloadOf (evidence : EvidenceTable) (row : KnowledgeUnit) : CrossVideoPayload where
  knowledgeUid := row.knowledgeUid
  videoId := row.videoId
  subjectKey := row.subjectKey
  predicateKey := row.predicateKey
  sentiment := row.sentiment
  supportStatus := row.supportStatus
  lifecycleStatus := row.lifecycleStatus
  evidenceIds := (evidence.rows.filter (·.knowledgeUid = row.knowledgeUid)).map fun item => toString item.id

def crossVideoRow (knowledgeUid : String) (values : CrossVideoValues F) : KnowledgeCrossVideoRow F :=
  { values with knowledgeUid := knowledgeUid, authorAttentionScore := values.contentAttentionScore }

/-- A call, with the order in which the database returns the rows it scans, and whether it refuses a statement. -/
structure ReplaceCall where
  videoId : String
  units : List KnowledgeUnit
  scan : List KnowledgeUnit → List KnowledgeUnit
  scan_perm : ∀ rows, (scan rows).Perm rows
  refused : Bool

/-- `dict(value or {})`. -/
def dictOr (value : Option Json) : Except ReadError (List (String × Json)) :=
  match value.filter truthy with
  | none => .ok []
  | some (.obj fields) => .ok fields
  | some value => runtime.dictOf value

/-- `str(value or "") or None`. -/
def textOrNone (value : Option Json) : Option String :=
  ((value.filter truthy).map (Json.strOf runtime.str)).filter (· ≠ "")

def evidenceRow (id : Nat) (knowledgeUid videoId : String) (item : Json) : Except ReadError KnowledgeEvidenceRow := do
  let fields ← fieldsOf item
  let orText (key other default : String) : String :=
    let value := orElse fields key other
    if truthy value then value.strOf runtime.str else default
  let structured ← dictOr runtime (Json.lookup fields "structured_payload")
  return {
    id := id
    knowledgeUid := knowledgeUid
    evidenceType := orText "evidence_type" "source_type" "TRANSCRIPT"
    sourceId := textOrNone runtime (Json.lookup fields "source_id")
    videoId := videoId
    frameId := textOrNone runtime (Json.lookup fields "frame_id")
    evidenceText := orText "text" "evidence_text" ""
    startSeconds := (Json.lookup fields "start_seconds").getD .null
    endSeconds := (Json.lookup fields "end_seconds").getD .null
    structuredPayload := structured
    confidence := orElse fields "confidence" "confidence_score"
    sourceReliability := (Json.lookup fields "source_reliability").getD .null }

def addEvidence (knowledgeUid videoId : String) (evidence : EvidenceTable) (item : Json) :
    Except WriteError EvidenceTable := do
  let id := runtime.nextId (evidence.rows.map (·.id))
  let row ← (evidenceRow runtime id knowledgeUid videoId item).mapError .value
  match evidence.insert row with
  | some evidence => .ok evidence
  | none => .error .integrityError

/-- The unit over its stored row, or as a new one. -/
def storeUnit (existing : List String) (units : KnowledgeUnitTable) (unit : KnowledgeUnit) :
    Except WriteError KnowledgeUnitTable :=
  if unit.knowledgeUid ∈ existing then .ok (units.update unit)
  else match units.insert unit with
  | some units => .ok units
  | none => .error .integrityError

/-- The evidence of a unit goes in the place of what was there. -/
def writeUnit (videoId : String) (existing : List String) (db : CrossVideoDb F) (unit : KnowledgeUnit) :
    Except WriteError (CrossVideoDb F) := do
  let units ← storeUnit existing db.units unit
  let items ← (itemsOf (Json.lookup unit.attributes "evidence")).mapError .value
  let evidence ← items.foldlM (addEvidence runtime unit.knowledgeUid videoId)
    (db.evidence.keep (·.knowledgeUid ≠ unit.knowledgeUid))
  return { db with units := units, evidence := evidence }

def superseded (row : KnowledgeUnit) : KnowledgeUnit := { row with lifecycleStatus := "SUPERSEDED" }

def writeUnits (call : ReplaceCall) (db : CrossVideoDb F) : Except WriteError (CrossVideoDb F) :=
  let existing := (db.units.rows.filter (·.videoId = call.videoId)).map (·.knowledgeUid)
  let incoming := call.units.map (·.knowledgeUid)
  let kept := db.units.modifyEach (existing.filter (· ∉ incoming)) superseded
  call.units.foldlM (writeUnit runtime call.videoId existing) { db with units := kept }

def activeRows (units : KnowledgeUnitTable) : List KnowledgeUnit := units.rows.filter (·.lifecycleStatus = "ACTIVE")

def affected (units : List KnowledgeUnit) (row : KnowledgeUnit) : Bool := affectedKey row ∈ units.map affectedKey

def refreshCrossVideo (call : ReplaceCall) (db : CrossVideoDb F) : CrossVideoDb F :=
  let payload := ((call.scan (activeRows db.units)).filter (affected call.units)).map (payloadOf db.evidence)
  { db with cross := db.cross.putAll ((calculate runtime payload).rows.map fun entry => crossVideoRow entry.1 entry.2) }

def replaceForVideo (call : ReplaceCall) (db : CrossVideoDb F) : CrossVideoDb F × Except WriteError Unit :=
  settle db (do
    let written ← writeUnits runtime call db
    if call.refused then .error .databaseError
    else .ok (refreshCrossVideo runtime call written, ()))

end Replace
end StockContent.Knowledge
