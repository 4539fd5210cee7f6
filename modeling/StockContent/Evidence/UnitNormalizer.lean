import StockContent.Evidence.ClaimEvidenceVerifier

/-! Units on their way to storage: their entities and subject are settled, the claim is checked, and the support is capped
by the quality of the evidence. -/
namespace StockContent.Evidence
open StockContent.Text StockContent.Numeric

/-- A correction of an entity, as the extraction claims it. -/
structure EntityCorrection where
  rawExpression : Option String := none
  canonicalName : Option String := none
  ticker : Option String := none
  resolutionMethod : List String := []
  confidence : Option Binary64 := none
  deriving DecidableEq

structure ResolutionItem where
  rawExpression : String
  canonicalName : String
  ticker : Option String
  resolutionMethod : List String
  confidence : Option Binary64
  highRisk : Bool
  nonLlmEvidence : Bool
  deriving DecidableEq

structure EntityResolution where
  status : String
  items : List ResolutionItem
  deriving DecidableEq

/-- `entityCorrections` is nothing where it is no list; so is an item of it that is no dictionary. -/
structure KnowledgeUnit extends CheckedUnit where
  subjectType : Option String := none
  evidenceText : Option String := none
  entityCorrections : Option (List (Option EntityCorrection)) := none
  evidenceQualityStatus : Option String := none
  verification : Option Verification := none
  entityResolution : Option EntityResolution := none

structure ExtractedEntity where
  name : Option String := none
  ticker : Option String := none
  entityType : Option String := none
  confidenceScore : Option Binary64 := none

structure KnowledgeUnitNormalizer where
  verifier : ClaimEvidenceVerifier
  /-- `extract_entities(text, "", title)` of the entity normalizer. -/
  extractEntities : String → String → List ExtractedEntity

inductive EvidenceQualityStatus where
  | high
  | medium
  | low
  | unknown
  deriving DecidableEq

def EvidenceQualityStatus.value : EvidenceQualityStatus → String
  | high => "HIGH"
  | medium => "MEDIUM"
  | low => "LOW"
  | unknown => "UNKNOWN"

section Entities
variable (tables : EvidenceTables)

/-- The first of two texts that is not empty. -/
def orText (first second : Option String) : Option String := if first.getD "" = "" then second else first

/-- Blanks become one, and the text is cut off. -/
def cleanStatement (text : String) : String :=
  String.ofList ((stripChars tables.toCharTables ((Regex.some (.one tables.isSpace)).sub (fun _ => [' ']) text.toList)).take 1000)

def rawEntity (item : ExtractedEntity) : Entity where
  entityType := some (orDefault item.entityType "UNKNOWN")
  entityKey := orText item.ticker item.name
  entityName := some (orDefault (orText item.name item.ticker) "UNKNOWN")
  ticker := item.ticker
  relationRole := some "SUBJECT"
  confidenceScore := item.confidenceScore

/-- An entity with its name, under the key it is kept by. -/
def keptEntity (item : Entity) : Option ((String × String) × Entity) :=
  let name := strip tables.toCharTables ((orText item.entityName (orText item.name item.ticker)).getD "")
  if name = "" then none
  else
    let entityType := orDefault item.entityType "UNKNOWN"
    let key := orDefault (orText item.entityKey item.ticker) name
    some ((entityType, key), {
      entityType := some entityType
      entityKey := some key
      entityName := some name
      ticker := item.ticker
      relationRole := some (orDefault item.relationRole "RELATED")
      confidenceScore := item.confidenceScore })

/-- `deduped[key] = value`: a key keeps its place. -/
def setEntity (deduped : List ((String × String) × Entity)) (entry : (String × String) × Entity) :
    List ((String × String) × Entity) :=
  if deduped.any (·.1 = entry.1) then deduped.map fun old => if old.1 = entry.1 then entry else old
  else deduped ++ [entry]

def normalizeEntities (extractEntities : String → String → List ExtractedEntity) (unit : KnowledgeUnit) (title : String) :
    List Entity :=
  let text := unit.statement.getD "" ++ " " ++ unit.evidenceText.getD ""
  let raw := unit.entities ++ (extractEntities text title).map rawEntity
  (((raw.filterMap (keptEntity tables)).foldl setEntity []).map (·.2)).take 12

/-- The first entity that is a subject or has a ticker. -/
def inferSubject (entities : List Entity) : Entity :=
  (entities.find? fun item => item.relationRole = some "SUBJECT" || item.ticker.getD "" ≠ "").getD {}

def highRiskEntityTypes : List String := ["SECURITY", "STOCK", "COMPANY", "INDEX", "FUND", "INSTITUTION", "ETF"]

def nonLlmResolutionMethods : List String := ["entity_dictionary", "ticker", "nearby_ocr"]

def resolutionItem (entities : List Entity) (raw : EntityCorrection) : ResolutionItem :=
  let canonicalName := strip tables.toCharTables (raw.canonicalName.getD "")
  let methods := raw.resolutionMethod.map fun method =>
    String.ofList (tables.lower (strip tables.toCharTables method).toList)
  let entityType := ((entities.reverse.find? (·.entityName.getD "" = canonicalName)).bind (·.entityType)).getD ""
  { rawExpression := strip tables.toCharTables (raw.rawExpression.getD "")
    canonicalName
    ticker := raw.ticker
    resolutionMethod := methods
    confidence := raw.confidence
    highRisk := highRiskEntityTypes.contains entityType || raw.ticker.getD "" ≠ ""
    nonLlmEvidence := methods.any nonLlmResolutionMethods.contains }

def entityResolutionTrace (unit : KnowledgeUnit) (entities : List Entity) : Option EntityResolution :=
  let items := ((unit.entityCorrections.getD []).filterMap id).map (resolutionItem tables entities)
  if items = [] then none
  else some ⟨if items.any fun item => item.highRisk && !item.nonLlmEvidence then "UNVERIFIED" else "RESOLVED", items⟩

end Entities

section Quality
variable (tables : EvidenceTables)

/-- How far the primary evidence can be trusted. What was not measured is unknown. -/
def evidenceQuality (evidence : List EvidenceItem) : EvidenceQualityStatus :=
  match (primaryOf evidence).filter isLocated with
  | none => .low
  | some primary =>
    match primary.confidenceScore.join with
    | none => .unknown
    | some value => if value.lt (.ofDecimal 45 2) then .low else if value.lt (.ofDecimal 7 1) then .medium else .high

/-- Only recorded as a reason. -/
def ocrHighConfidence (evidence : List EvidenceItem) : Bool :=
  evidence.any fun item => ocrSourceTypes.contains (upper tables.toCharTables (item.sourceType.getD "")) &&
    (item.meanConfidence.or item.confidenceScore).join.any fun score => (Binary64.ofDecimal 95 2).le score

/-- An entity that only the extraction vouches for takes the best quality away. -/
def cappedQuality (quality : EvidenceQualityStatus) (resolution : Option EntityResolution) : EvidenceQualityStatus :=
  if resolution.any (·.status = "UNVERIFIED") && quality = .high then .medium else quality

/-- `_SUPPORT_TO_LEGACY_STATUS`. -/
def legacyStatus (supportStatus default : String) : String :=
  if ["UNSUPPORTED", "SOURCE_LOCATED", "SOURCE_SUPPORTED", "CROSS_MODAL_SUPPORTED", "NEEDS_REVIEW"].contains supportStatus then
    supportStatus
  else default

structure Gated where
  supportStatus : String
  verificationStatus : String
  reasons : List String

/-- The quality gate: no support with low quality, and no more than a place in the source with an unknown one. -/
def gate (evidence : List EvidenceItem) (supportStatus default : String) (quality : EvidenceQualityStatus)
    (reasons : List String) : Gated :=
  if supportStatus = "UNSUPPORTED" then ⟨supportStatus, "UNSUPPORTED", reasons⟩
  else if quality = .low then ⟨"NEEDS_REVIEW", "NEEDS_REVIEW", reasons ++ ["EVIDENCE_QUALITY_LOW"]⟩
  else if quality = .unknown then
    let noted := reasons ++ if ocrHighConfidence tables evidence then ["UNKNOWN_ASR_QUALITY_HIGH_CONFIDENCE_OCR"] else []
    if supportStatus = "SOURCE_SUPPORTED" || supportStatus = "CROSS_MODAL_SUPPORTED" then
      ⟨"SOURCE_LOCATED", "SOURCE_LOCATED", noted ++ ["EVIDENCE_QUALITY_UNKNOWN_CAP"]⟩
    else ⟨supportStatus, legacyStatus supportStatus default, noted⟩
  else ⟨supportStatus, legacyStatus supportStatus default, reasons⟩

end Quality

section Normalize
variable (normalizer : KnowledgeUnitNormalizer) (title : String)

/-- The unit as the check of its claim sees it. -/
def candidateOf (unit : KnowledgeUnit) (statement : String) : KnowledgeUnit :=
  let entities := normalizeEntities normalizer.verifier.tables normalizer.extractEntities unit title
  let subject := inferSubject entities
  { unit with
    statement := some statement
    entities
    subjectType := orText unit.subjectType subject.entityType
    subjectKey := orText unit.subjectKey (orText subject.entityKey (orText subject.ticker subject.entityName))
    subjectName := orText unit.subjectName subject.entityName }

/-- What is stored of a candidate after its claim was checked. -/
def settled (candidate : KnowledgeUnit) : KnowledgeUnit :=
  let verification := verify normalizer.verifier candidate.toCheckedUnit
  let resolution := entityResolutionTrace normalizer.verifier.tables candidate candidate.entities
  let quality := cappedQuality (evidenceQuality candidate.evidence) resolution
  let reasons := verification.reasonCodes ++
    if resolution.any (·.status = "UNVERIFIED") then ["ENTITY_RESOLUTION_UNVERIFIED"] else []
  let gated := gate normalizer.verifier.tables candidate.evidence verification.supportStatus
    (orDefault candidate.verificationStatus "SOURCE_LOCATED") quality reasons
  { candidate with
    supportStatus := some gated.supportStatus
    verificationStatus := some gated.verificationStatus
    supportScore := some verification.supportScore
    supportProbability := some verification.supportProbability
    evidenceQualityStatus := some quality.value
    verification := some { verification with reasonCodes := gated.reasons }
    entityResolution := resolution.or candidate.entityResolution }

/-- A unit without statement, evidence or subject is dropped. -/
def normalizeUnit (unit : KnowledgeUnit) : Option KnowledgeUnit :=
  let statement := cleanStatement normalizer.verifier.tables (unit.statement.getD "")
  let candidate := candidateOf normalizer title unit statement
  if statement = "" || unit.evidence = [] || candidate.subjectKey.getD "" = "" then none
  else some (settled normalizer candidate)

def normalize (units : List KnowledgeUnit) : List KnowledgeUnit := units.filterMap (normalizeUnit normalizer title)

/-- `verify_many` of units with all their fields. -/
def crossVerify (verifier : CrossModalVerifier) (ocrEvidence : List EvidenceItem) (units : List KnowledgeUnit) :
    List KnowledgeUnit :=
  units.map fun unit => { unit with toClaimUnit := verifyOne verifier unit.toClaimUnit ocrEvidence }

end Normalize
end StockContent.Evidence
