import Mathlib.Data.Prod.Lex
import StockContent.Knowledge.AtomicClaimDraft
import StockContent.Knowledge.CalendarReads
import StockContent.Knowledge.SourceFraming
import StockContent.Ledger.Projector
import StockContent.Storage.JsonObject
import StockContent.Storage.StableSort

/-! A claim is addressed by what it says. Where and in which words it was said does not count, nor does the order of its
times, but the envelope of its semantics reads the first of them. -/
namespace StockContent.Knowledge
open Storage Text

/-- `dictOf` is `dict` of a value that is no mapping. -/
structure SemanticsRuntime extends DraftRuntime, CalendarRuntime where
  dictOf : Json → Option (List (String × Json))

inductive SemanticsError where
  | valueError (error : ValueError)
  | typeError
  | overflow (error : CalendarError)
  | keyError (claimType : String)
  deriving DecidableEq

structure TrustedExternalVerification where
  verificationArtifactId : String
  claimId : String
  verificationId : String
  status : String := "EXTERNALLY_VERIFIED"
  sourceGrade : String := "PRIMARY"

/-- What the envelope says of time. -/
structure TemporalEnvelope where
  kind : String
  start : Option String := none
  stop : Option String := none
  asOf : Option String := none
  rule : Json := .null
  label : Json := .null
  precision : String
  explicitlyUnknown : Bool := false
  deriving DecidableEq

section Texts

/-- `a or b`. -/
def textOrElse (text other : String) : String := if text = "" then other else text

/-- A field that is neither absent nor null. -/
def presentField (fields : List (String × Json)) (key : String) : Option Json :=
  match Json.lookup fields key with
  | none | some .null => none
  | some value => some value

def mappingOf : Option Json → List (String × Json)
  | some (.obj fields) => fields
  | _ => []

def TemporalEnvelope.toJson (temporal : TemporalEnvelope) : Json :=
  .obj [("kind", .str temporal.kind), ("start", optionalText temporal.start), ("end", optionalText temporal.stop),
    ("as_of", optionalText temporal.asOf), ("rule", temporal.rule), ("label", temporal.label),
    ("precision", .str temporal.precision), ("explicitly_unknown", .bool temporal.explicitlyUnknown)]

def Precision.name : Precision → String
  | .instant => "INSTANT"
  | .day => "DAY"
  | .month => "MONTH"
  | .year => "YEAR"

end Texts

section Temporal
variable (rt : SemanticsRuntime)

def namesYear (text : String) : Bool := (Text.search [yearPart rt.toCalendarRuntime.tables] text.toList).isSome

def calendarValue : Json → CalendarValue
  | .str text => .text text
  | _ => .other

def sourceValues (raw : List (String × Json)) (expression : String) : List (String × Json) :=
  let given := ["start", "end", "as_of"].filterMap fun field => (presentField raw field).map fun value => (field, value)
  if given = [] && expression ≠ "" then [("label", .str expression)] else given

/-- The intervals of the values that are there, by their fields. -/
def sourceIntervals (values : List (String × Json)) : Except CalendarError (List (String × Option CalendarInterval)) :=
  values.mapM fun field => (calendarInterval rt.toCalendarRuntime (calendarValue field.2)).map fun interval =>
    (field.1, interval)

def intervalAt (intervals : List (String × Option CalendarInterval)) (field : String) : Option CalendarInterval :=
  (intervals.find? fun entry => entry.1 = field).bind Prod.snd

/-- A forecast for one stated date covers all of it. -/
def withIntervals (temporal : TemporalEnvelope) (intervals : List (String × Option CalendarInterval)) :
    TemporalEnvelope :=
  match intervals.findSome? Prod.snd with
  | none => temporal
  | some first =>
    let precision := if first.precision = .instant then temporal.precision else first.precision.name
    if temporal.kind = "FORECAST_TARGET" && intervals.length = 1 then
      { temporal with precision := precision, start := some first.start, stop := some first.stop }
    else
      { temporal with
        precision := precision
        start := (intervalAt intervals "start").map CalendarInterval.start
        stop := (intervalAt intervals "end").map CalendarInterval.stop
        asOf := (intervalAt intervals "as_of").map CalendarInterval.stop }

def withoutYear (temporal : TemporalEnvelope) : TemporalEnvelope :=
  if temporal.start = none && temporal.stop = none && temporal.asOf = none && Ledger.truthy temporal.label &&
      !namesYear rt (Json.strOf rt.str temporal.label) then
    { temporal with precision := "YEAR_UNSPECIFIED" }
  else temporal

/-- The stated label, the expression, or the first of the stated dates. -/
def temporalLabel (raw : List (String × Json)) (expression : String) : Json :=
  match (Json.lookup raw "label").filter Ledger.truthy with
  | some label => label
  | none =>
    if expression ≠ "" then .str expression
    else
      let texts := ["as_of", "start", "end"].map fun field =>
        strip rt.toDraftRuntime.tables (Json.orText rt.str (Json.lookup raw field))
      optionalText (texts.find? (· ≠ ""))

def normalizedTemporal (raw : List (String × Json)) (expression : String) : Except CalendarError TemporalEnvelope :=
  let temporal : TemporalEnvelope :=
    { kind := textOrElse (Json.orText rt.str (Json.lookup raw "kind")) "UNKNOWN"
      rule := (Json.lookup raw "rule").getD .null
      label := temporalLabel rt raw expression
      precision := textOrElse (Json.orText rt.str (Json.lookup raw "precision")) "UNKNOWN" }
  if temporal.kind = "RECURRING_RULE" then .ok temporal
  else (sourceIntervals rt (sourceValues raw expression)).map fun intervals =>
    withoutYear rt (withIntervals temporal intervals)

def temporalKinds : List String := ["EVENT", "AS_OF", "FORECAST_TARGET", "RECURRING_RULE"]

/-- Whether the draft states the kind of its time itself; lists and mappings cannot be looked up. -/
def statesKind (raw : List (String × Json)) : Except SemanticsError Bool :=
  match Json.lookup raw "kind" with
  | some (.str kind) => .ok (temporalKinds.contains kind)
  | some (.arr _) | some (.obj _) => .error .typeError
  | _ => .ok false

def recurringTokens : List String := ["每月", "每周", "每日", "交易日"]

def forecastTokens : List String := ["预测", "预计", "目标", "2030"]

def asOfTokens : List String := ["截至", "末", "月", "日"]

/-- What an expression alone says. -/
def expressedTemporal (expression : String) : Except CalendarError TemporalEnvelope :=
  if expression = "" then .ok { kind := "UNKNOWN", precision := "UNKNOWN", explicitlyUnknown := true }
  else if recurringTokens.any (isIn · expression) then
    .ok { kind := "RECURRING_RULE", rule := .str expression, label := .str expression, precision := "RULE" }
  else if forecastTokens.any (isIn · expression) then
    normalizedTemporal rt [("kind", .str "FORECAST_TARGET"), ("label", .str expression)] expression
  else if asOfTokens.any (isIn · expression) then
    .ok { kind := "AS_OF", label := .str expression, 
          precision := if namesYear rt expression then "DAY" else "YEAR_UNSPECIFIED" }
  else .ok { kind := "UNKNOWN", label := .str expression, precision := "UNRESOLVED", explicitlyUnknown := true }

/-- The first of the expressions. -/
def leadingExpression (expressions : List String) : String := strip rt.toDraftRuntime.tables (expressions.head?.getD "")

def temporalOf (value : Option Json) (expressions : List String) : Except SemanticsError TemporalEnvelope := do
  let stated ← statesKind (mappingOf value)
  let expression := leadingExpression rt expressions
  (if stated then normalizedTemporal rt (mappingOf value) expression else expressedTemporal rt expression).mapError .overflow

end Temporal

section Semantics
variable (rt : SemanticsRuntime)

def primaryDomains : List String :=
  ["PORTFOLIO_RISK_MANAGEMENT", "FINANCIAL_SECTOR_CAPITAL_POLICY", "AI_INFERENCE_COMPUTE",
    "INFORMATION_INFRASTRUCTURE_POLICY", "CENTRAL_BANK_GOLD_RESERVES", "UNKNOWN"]

def domainTokens : List (String × List String) :=
  [("FINANCIAL_SECTOR_CAPITAL_POLICY", ["资本补充", "银行资本", "银行", "保险"]),
    ("AI_INFERENCE_COMPUTE", ["ai推理", "推理算力", "gpu", "算力", "芯片"]),
    ("INFORMATION_INFRASTRUCTURE_POLICY", ["信息基础设施", "基础设施投资", "信息基建"]),
    ("CENTRAL_BANK_GOLD_RESERVES", ["黄金储备", "黄金", "央行储备"]),
    ("PORTFOLIO_RISK_MANAGEMENT", ["仓位", "资金池", "止损", "均线", "杠杆", "风险预算", "集中度"])]

def primaryDomainFor (statement : String) (declared : Option Json) : String :=
  let stated := Json.orText rt.str declared
  if primaryDomains.contains stated then stated
  else ((domainTokens.find? fun entry => entry.2.any (isIn · (rt.casefold statement))).map Prod.fst).getD "UNKNOWN"

def factualTypes : List String :=
  ["PRICE", "RETURN", "VALUATION", "FINANCIAL_METRIC", "CORPORATE_EVENT", "INDUSTRY_RELATION"]

def inferredNature (kind statement : String) : String :=
  if kind = "FORECAST" then "FORECAST"
  else if kind = "OPINION" then "OPINION"
  else if kind = "INFERENCE" then
    (if ["因为", "导致", "推动", "从而", "所以"].any (isIn · statement) then "CAUSAL_THESIS" else "OPINION")
  else if ["应当", "不要", "建议", "我认为", "看好", "看空"].any (isIn · statement) then "OPINION"
  else if factualTypes.contains kind then "FACT" else "METHOD"

def claimNatureFor (claimType statement : String) (declared : Option Json) : String :=
  match declared with
  | some (.str stated) =>
    if strip rt.toDraftRuntime.tables stated ≠ ""
      then upper rt.toDraftRuntime.tables (strip rt.toDraftRuntime.tables stated)
    else inferredNature (upper rt.toDraftRuntime.tables claimType) statement
  | _ => inferredNature (upper rt.toDraftRuntime.tables claimType) statement

def detailField (raw : List (String × Json)) (key : String) : Except ValueError (String × Json) :=
  match presentField raw key with
  | none => .ok (key, .null)
  | some value =>
    if strip rt.toDraftRuntime.tables (Json.strOf rt.str value) = "" then .ok (key, .null)
    else (normalizeDetailText rt.toDraftRuntime.tables (Json.orText rt.str (some value))).map fun text => (key, .str text)

def detailOf (value : Option Json) (statement : String) : Except ValueError (List (String × Json)) := do
  let detail ← allowedDetail.mapM (detailField rt (mappingOf value))
  return if detail.any fun field => Ledger.truthy field.2 then detail else Json.put detail "explanation" (.str statement)

/-- `dict(value or {})`. -/
def dictOrEmpty (value : Option Json) : Except SemanticsError (List (String × Json)) :=
  match value.filter Ledger.truthy with
  | none => .ok []
  | some (.obj fields) => .ok fields
  | some value => (rt.dictOf value).elim (.error .typeError) .ok

def attributedNatures : List String := ["OPINION", "FORECAST", "CAUSAL_THESIS"]

def attributionOf (raw : List (String × Json)) (nature requestedGrade : String) : List (String × Json) :=
  let attributed := (Json.lookup raw "attributed").any Ledger.truthy || attributedNatures.contains nature ||
    ["SECONDARY", "UNKNOWN"].contains requestedGrade || requestedGrade = ""
  let label := strip rt.toDraftRuntime.tables (Json.orText rt.str (Json.lookup raw "source_label"))
  [("attributed", .bool attributed), ("source_label",
    if label ≠ "" then .str label else if attributed then .str "source_speaker" else .null)] ++
    ((presentField raw "speaker").map fun speaker => ("speaker", Json.str (Json.strOf rt.str speaker))).toList

def sourceGradeOf (requested nature : String) : String :=
  if requested = "PRIMARY" then "SOURCE_ASSERTION"
  else textOrElse requested (if attributedNatures.contains nature then "SOURCE_ASSERTION" else "UNKNOWN")

/-- The codes in order, each once. -/
def reviewReasons (reviewReasonCodes : List String) (raw : List (String × Json)) :
    Except SemanticsError (List String) := do
  let codes ← if reviewReasonCodes ≠ [] then .ok (reviewReasonCodes.map Json.str)
    else match (Json.lookup raw "reason_codes").filter Ledger.truthy with
      | none => .ok []
      | some codes => (iterate codes).mapError .valueError
  return sortedBy id ((codes.map (Json.strOf rt.str)).filter (· ≠ "")).dedup

def hierarchyKeys : List String :=
  ["knowledge_title", "knowledge_role", "parent_knowledge_id", "parent_knowledge_title", "child_knowledge_ids",
    "thesis_evidence_scope", "hierarchy_node_id"]

def trustedFields (trusted : TrustedExternalVerification) : Json :=
  .obj [("verification_artifact_id", .str trusted.verificationArtifactId), ("claim_id", .str trusted.claimId),
    ("verification_id", .str trusted.verificationId)]

def bundleV2Semantics (statement claimType : String) (supplied : List (String × Json)) (expressions : List String)
    (reviewReasonCodes : List String) (trusted : Option TrustedExternalVerification) :
    Except SemanticsError (List (String × Json)) := do
  let statement ← (atomicStatement rt.toDraftRuntime.tables statement).mapError .valueError
  let nature := claimNatureFor rt claimType statement (Json.lookup supplied "claim_nature")
  let attribution ← dictOrEmpty rt (Json.lookup supplied "attribution")
  let requestedGrade := upper rt.toDraftRuntime.tables (Json.orText rt.str (Json.lookup supplied "source_grade"))
  let requestedTruth := upper rt.toDraftRuntime.tables
    (textOrElse (Json.orText rt.str (Json.lookup supplied "external_truth_status")) "NOT_CHECKED")
  let review ← dictOrEmpty rt (Json.lookup supplied "occurrence_review")
  let reasons ← reviewReasons rt reviewReasonCodes review
  let status := if reasons ≠ [] then "HUMAN_REVIEW_REQUIRED"
    else textOrElse (Json.orText rt.str (Json.lookup review "status")) "NOT_REQUIRED"
  let detail ← (detailOf rt (Json.lookup supplied "detail") statement).mapError .valueError
  let temporal ← temporalOf rt (Json.lookup supplied "temporal") expressions
  return [("primary_domain", .str (primaryDomainFor rt statement (Json.lookup supplied "primary_domain"))),
      ("claim_nature", .str nature),
      ("attribution", .obj (attributionOf rt attribution nature requestedGrade)),
      ("source_grade", .str ((trusted.map TrustedExternalVerification.sourceGrade).getD
        (sourceGradeOf requestedGrade nature))),
      ("detail", .obj detail),
      ("temporal", temporal.toJson),
      ("occurrence_review", .obj [("status", .str status), ("reason_codes", .arr (reasons.map Json.str))]),
      ("external_truth_status", .str ((trusted.map TrustedExternalVerification.status).getD
        (if requestedTruth = "EXTERNALLY_VERIFIED" then "NOT_CHECKED" else requestedTruth)))] ++
    hierarchyKeys.filterMap (fun key => (Json.lookup supplied key).map fun value => (key, value)) ++
    (trusted.map fun trusted => ("trusted_verification", trustedFields trusted)).toList

end Semantics

section Claims

structure TemporalExpressionDraft where
  role : String
  rawExpression : String
  evidenceSegmentIndices : List Int := []

/-- A draft with all that a canonical claim is made of. -/
structure GroundedDraft extends ClaimOccurrenceDraft where
  value : Json := .null
  unit : Option String := none
  currency : Option String := none
  conditionText : Option String := none
  invalidationText : Option String := none
  temporalExpressions : List TemporalExpressionDraft := []
  groundingStatus : String := "LEGACY_UNGROUNDED"
  contradictionGroupId : Option String := none
  claimSchemaVersion : String := "claim.final.v1"
  legacyGroundingIncomplete : Bool := true

/-- The dates and times as `str` shows them. -/
structure TemporalBinding where
  temporalBindingId : String
  role : String
  scope : String
  startTime : Option String := none
  startDate : Option String := none
  endDate : Option String := none
  normalizationVersion : String := "normalization.v1"

structure TemporalRelation where
  temporalRelationId : String

structure CanonicalClaim where
  claimId : String := ""
  claimType : String
  factCategory : String
  subjectType : String
  subjectId : String
  predicate : String
  value : Json
  unit : Option String
  currency : Option String
  factTime : Option String
  periodStart : Option String
  periodEnd : Option String
  conditionText : Option String
  invalidationText : Option String
  conditionKey : Option String
  normalizedStatement : String
  groundingStatus : String
  contradictionGroupId : Option String
  legacyGroundingIncomplete : Bool
  temporalBindings : List TemporalBinding
  temporalRelations : List TemporalRelation
  claimSchemaVersion : String
  normalizationVersion : String
  bundleV2 : List (String × Json)

/-- `anyOf` is an element of a set, whichever comes first. -/
structure CanonicalRuntime extends SemanticsRuntime where
  anyOf : List String → Option String

variable (rt : CanonicalRuntime)

def claimCategory (claimType : String) : Option String :=
  if factualTypes.contains claimType then some "FACT"
  else if ["FORECAST", "OPINION", "INFERENCE"].contains claimType then some claimType else none

/-- `" ".join(text.split())`. -/
def squeeze (text : String) : String :=
  String.ofList (List.intercalate [' '] ((text.toList.splitOnP rt.toDraftRuntime.tables.isSpace).filter (· ≠ [])))

/-- Ids in their order. -/
def sortedIds (ids : List String) : List String := sortedBy id ids

def conditionKeyOf (conditionText : Option String) (bindings : List TemporalBinding) : Option String :=
  let conditions := bindings.filter fun binding => binding.role = "CONDITION_PERIOD"
  if conditionText.getD "" = "" && conditions.isEmpty then none
  else some (rt.digest (Json.obj [("condition", .str (rt.casefold (squeeze rt (conditionText.getD "")))),
    ("bindings", .arr ((sortedIds (conditions.map TemporalBinding.temporalBindingId)).map Json.str))]).canonical)

def bindingKey (binding : TemporalBinding) : String ×ₗ String ×ₗ String :=
  toLex (binding.role, toLex (binding.scope, binding.temporalBindingId))

def canonicalBindings (bindings : List TemporalBinding) : List TemporalBinding := sortedBy bindingKey bindings

def canonicalRelations (relations : List TemporalRelation) : List TemporalRelation :=
  sortedBy TemporalRelation.temporalRelationId relations

def propositionPayload (claim : CanonicalClaim) (semantics : Json) : List (String × Json) :=
  [("claim_type", .str claim.claimType), ("subject_type", .str claim.subjectType), ("subject_id", .str claim.subjectId),
    ("predicate", .str claim.predicate), ("value", claim.value), ("unit", optionalText claim.unit),
    ("currency", optionalText claim.currency), ("claim_schema_version", .str claim.claimSchemaVersion),
    ("normalization_version", .str claim.normalizationVersion), ("normalized_statement", .str claim.normalizedStatement),
    ("grounding_status", .str claim.groundingStatus), ("contradiction_group_id", optionalText claim.contradictionGroupId),
    ("bundle_v2", semantics)]

def isTemporal (claim : CanonicalClaim) : Bool :=
  claim.conditionKey.isSome || !claim.temporalBindings.isEmpty || !claim.temporalRelations.isEmpty

/-- The dates are left out where bindings stand for them. -/
def temporalPayload (claim : CanonicalClaim) : List (String × Json) :=
  if isTemporal claim then
    [("condition_key", optionalText claim.conditionKey),
      ("temporal_bindings", .arr ((canonicalBindings claim.temporalBindings).map fun binding =>
        .str binding.temporalBindingId)),
      ("temporal_relations",
        .arr ((canonicalRelations claim.temporalRelations).map fun relation => .str relation.temporalRelationId))]
  else
    [("fact_time", optionalText claim.factTime), ("period_start", optionalText claim.periodStart),
      ("period_end", optionalText claim.periodEnd)]

def payloadWith (claim : CanonicalClaim) (semantics : Json) : List (String × Json) :=
  propositionPayload claim semantics ++ temporalPayload claim

def contentPayload (claim : CanonicalClaim) : List (String × Json) := payloadWith claim (.obj claim.bundleV2)

def claimIdOf (claim : CanonicalClaim) : String :=
  "claim-" ++ String.ofList ((rt.digest (Json.obj (contentPayload claim)).canonical).toList.take 24)

def bindingVersions (bindings : List TemporalBinding) : List String :=
  ((bindings.map TemporalBinding.normalizationVersion).filter (· ≠ "")).dedup

/-- The configured version, empty if there is none; the bindings may not have another one. -/
def effectiveVersion (configured : String) (bindings : List TemporalBinding) : Except SemanticsError String := do
  require (.valueError ⟨"canonical claim normalization version does not match temporal bindings"⟩)
    (configured = "" || (bindingVersions bindings).all (· = configured))
  return textOrElse configured ((rt.anyOf (bindingVersions bindings)).getD "normalization.v1")

def datedBindings (bindings : List TemporalBinding) : List TemporalBinding :=
  sortedBy TemporalBinding.temporalBindingId (bindings.filter fun binding =>
    binding.startDate.isSome || binding.startTime.isSome)

def semanticsOf (draft : GroundedDraft) (statement : String) : Except SemanticsError (List (String × Json)) :=
  if statement = "" then .ok []
  else bundleV2Semantics rt.toSemanticsRuntime statement draft.claimType draft.bundleV2
    (draft.temporalExpressions.map TemporalExpressionDraft.rawExpression) [] none

def statementOf (draft : GroundedDraft) : Except SemanticsError String :=
  if draft.statement = "" then .ok ""
  else (atomicStatement rt.toDraftRuntime.tables draft.statement).mapError .valueError

def assemble (draft : GroundedDraft) (bindings : List TemporalBinding) (relations : List TemporalRelation)
    (version statement category : String) (semantics : List (String × Json)) : CanonicalClaim :=
  let primary := (datedBindings bindings).head?
  let periodStart := primary.bind TemporalBinding.startDate
  { claimType := draft.claimType
    factCategory := category
    subjectType := textOrElse (draft.subjectType.getD "") "UNKNOWN"
    subjectId := draft.subjectKey
    predicate := draft.predicateKey
    value := draft.value
    unit := draft.unit
    currency := draft.currency
    factTime := (primary.bind TemporalBinding.startTime).or (periodStart.map (· ++ " 00:00:00+00:00"))
    periodStart := periodStart
    periodEnd := primary.bind TemporalBinding.endDate
    conditionText := draft.conditionText
    invalidationText := draft.invalidationText
    conditionKey := conditionKeyOf rt draft.conditionText bindings
    normalizedStatement := statement
    groundingStatus := draft.groundingStatus
    contradictionGroupId := draft.contradictionGroupId
    legacyGroundingIncomplete := draft.legacyGroundingIncomplete
    temporalBindings := bindings
    temporalRelations := relations
    claimSchemaVersion := draft.claimSchemaVersion
    normalizationVersion := version
    bundleV2 := semantics }

/-- What the claim checks of itself, without any evidence of its own. -/
def checkClaim (claim : CanonicalClaim) : Except SemanticsError Unit := do
  require (.valueError ⟨"claim requires at least one evidence_ref"⟩)
    (["claim.final.v1", "claim.atomic.v1"].contains claim.claimSchemaVersion)
  require (.valueError ⟨"grounded claim requires normalized_statement"⟩)
    (claim.groundingStatus ≠ "GROUNDED" || claim.normalizedStatement ≠ "")
  require (.valueError ⟨"grounded claim cannot be marked legacy incomplete"⟩)
    (claim.groundingStatus ≠ "GROUNDED" || !claim.legacyGroundingIncomplete)

def canonicalize (configured : String) (draft : GroundedDraft) (bindings : List TemporalBinding)
    (relations : List TemporalRelation) : Except SemanticsError CanonicalClaim := do
  let version ← effectiveVersion rt configured bindings
  let statement ← statementOf rt draft
  let semantics ← semanticsOf rt draft statement
  let category ← (claimCategory draft.claimType).elim (.error (.keyError draft.claimType)) .ok
  let claim := assemble rt draft bindings relations version statement category semantics
  checkClaim claim
  return { claim with claimId := claimIdOf rt claim }

end Claims

section Identity
variable {rt : CanonicalRuntime} {configured : String} {draft draft' : GroundedDraft}
    {bindings bindings' : List TemporalBinding}
  {relations relations' : List TemporalRelation} {claim claim' : CanonicalClaim}

/-- Drafts of one content, wherever and in which words it was said, and whichever times were read from it. -/
structure SameContent (draft draft' : GroundedDraft) : Prop where
  claimType : draft'.claimType = draft.claimType
  statement : draft'.statement = draft.statement
  bundleV2 : draft'.bundleV2 = draft.bundleV2
  subjectType : draft'.subjectType = draft.subjectType
  subjectKey : draft'.subjectKey = draft.subjectKey
  predicateKey : draft'.predicateKey = draft.predicateKey
  value : draft'.value = draft.value
  unit : draft'.unit = draft.unit
  currency : draft'.currency = draft.currency
  conditionText : draft'.conditionText = draft.conditionText
  groundingStatus : draft'.groundingStatus = draft.groundingStatus
  contradictionGroupId : draft'.contradictionGroupId = draft.contradictionGroupId
  claimSchemaVersion : draft'.claimSchemaVersion = draft.claimSchemaVersion

/-- No choice between versions is left to the order of a set. -/
def OneVersion (configured : String) (bindings : List TemporalBinding) : Prop :=
  configured ≠ "" ∨ (bindingVersions bindings).length ≤ 1

theorem sortedIds_perm {ids ids' : List String} (h : ids'.Perm ids) : sortedIds ids' = sortedIds ids :=
  sortedBy_eq_of_perm h fun _ _ _ _ heq => heq

theorem conditionKeyOf_perm (conditionText : Option String) (h : bindings'.Perm bindings) :
    conditionKeyOf rt conditionText bindings' = conditionKeyOf rt conditionText bindings := by
  have hconditions := h.filter fun binding => decide (binding.role = "CONDITION_PERIOD")
  rw [conditionKeyOf, conditionKeyOf, hconditions.isEmpty_eq, sortedIds_perm (hconditions.map _)]

theorem canonicalBindings_ids (h : bindings'.Perm bindings) :
    (canonicalBindings bindings').map (fun binding => Json.str binding.temporalBindingId) =
      (canonicalBindings bindings).map fun binding => Json.str binding.temporalBindingId := by
  have hkeys : (canonicalBindings bindings').map bindingKey = (canonicalBindings bindings).map bindingKey :=
    map_sortedBy_eq_of_perm h
  have hids := congrArg (List.map fun key : String ×ₗ String ×ₗ String => Json.str (ofLex (ofLex key).2).2) hkeys
  rwa [List.map_map, List.map_map] at hids

theorem canonicalRelations_ids (h : relations'.Perm relations) :
    (canonicalRelations relations').map (fun relation => Json.str relation.temporalRelationId) =
      (canonicalRelations relations).map fun relation => Json.str relation.temporalRelationId := by
  have hkeys : (canonicalRelations relations').map TemporalRelation.temporalRelationId =
      (canonicalRelations relations).map TemporalRelation.temporalRelationId := map_sortedBy_eq_of_perm h
  have hids := congrArg (List.map Json.str) hkeys
  rwa [List.map_map, List.map_map] at hids

theorem bindingVersions_perm (h : bindings'.Perm bindings) :
    (bindingVersions bindings').Perm (bindingVersions bindings) :=
  ((h.map _).filter _).dedup

theorem effectiveVersion_perm (hone : OneVersion configured bindings) (h : bindings'.Perm bindings) :
    effectiveVersion rt configured bindings' = effectiveVersion rt configured bindings := by
  have hversions := bindingVersions_perm h
  rw [effectiveVersion, effectiveVersion, hversions.all_eq]
  rcases hone with hconfigured | hlength
  · rw [textOrElse, if_neg hconfigured, textOrElse, if_neg hconfigured]
  · have hsame : bindingVersions bindings' = bindingVersions bindings := by
      cases hlist : bindingVersions bindings with
      | nil => exact (hlist ▸ hversions).eq_nil
      | cons version rest =>
        cases rest with
        | nil => exact (hlist ▸ hversions).eq_singleton
        | cons _ _ => exact absurd (hlist ▸ hlength) (by simp)
    rw [hsame]

theorem temporalPayload_assemble {version statement category category' : String}
    {semantics semantics' : List (String × Json)}
    (hcondition : draft'.conditionText = draft.conditionText) (hbindings : bindings'.Perm bindings)
    (hrelations : relations'.Perm relations) :
    temporalPayload (assemble rt draft' bindings' relations' version statement category' semantics') =
      temporalPayload (assemble rt draft bindings relations version statement category semantics) := by
  have htemporal : isTemporal (assemble rt draft' bindings' relations' version statement category' semantics') =
      isTemporal (assemble rt draft bindings relations version statement category semantics) := by
    simp only [isTemporal, assemble, hcondition, conditionKeyOf_perm _ hbindings, hbindings.isEmpty_eq,
      hrelations.isEmpty_eq]
  rw [temporalPayload, temporalPayload, htemporal]
  split
  · simp only [assemble, hcondition, conditionKeyOf_perm _ hbindings, canonicalBindings_ids hbindings,
      canonicalRelations_ids hrelations]
  · rename_i hnone
    have hempty : bindings = [] := by
      rw [isTemporal, Bool.not_eq_true, Bool.or_eq_false_iff, Bool.or_eq_false_iff, Bool.not_eq_false',
        List.isEmpty_iff] at hnone
      exact hnone.1.2
    subst hempty
    rw [hbindings.eq_nil]
    rfl

/-- The payload of a draft is that of every draft of its content, with the same semantics in their place. -/
theorem payloadWith_assemble {version statement category category' : String} {semantics semantics' : List (String × Json)}
    (hcontent : SameContent draft draft') (hbindings : bindings'.Perm bindings) (hrelations : relations'.Perm relations)
    (place : Json) :
    payloadWith (assemble rt draft' bindings' relations' version statement category' semantics') place =
      payloadWith (assemble rt draft bindings relations version statement category semantics) place := by
  have hproposition :
      propositionPayload (assemble rt draft' bindings' relations' version statement category' semantics') place =
      propositionPayload (assemble rt draft bindings relations version statement category semantics) place := by
    simp only [propositionPayload, assemble, hcontent.claimType, hcontent.subjectType, hcontent.subjectKey,
      hcontent.predicateKey, hcontent.value, hcontent.unit, hcontent.currency, hcontent.groundingStatus,
      hcontent.contradictionGroupId, hcontent.claimSchemaVersion]
  rw [payloadWith, payloadWith, hproposition]
  exact congrArg _ (temporalPayload_assemble hcontent.conditionText hbindings hrelations)

/-- Payloads that differ in their semantics only are the same where the semantics are. -/
theorem canonical_payloadWith_iff (claim : CanonicalClaim) (place other : Json) :
    (Json.obj (payloadWith claim place)).canonical = (Json.obj (payloadWith claim other)).canonical ↔
      place.canonical = other.canonical := by
  have hplace (place : Json) : Json.lookup (payloadWith claim place) "bundle_v2" = some place := by
    simp [payloadWith, propositionPayload, Json.lookup_cons]
  constructor
  · intro h
    have hlookup := Json.lookup_of_canonical h "bundle_v2"
    rw [hplace, hplace] at hlookup
    exact Option.some.inj hlookup
  · intro h
    rw [Json.canonical_obj, Json.canonical_obj]
    simp only [payloadWith, propositionPayload, List.map_append, List.map_cons, List.map_nil, h]

/-- The semantics of one content differ in what they say of time at most. -/
theorem bundleV2Semantics_temporal {statement claimType : String} {supplied : List (String × Json)}
    {expressions expressions' codes : List String} {trusted : Option TrustedExternalVerification}
    {semantics semantics' : List (String × Json)} {srt : SemanticsRuntime}
    (h : bundleV2Semantics srt statement claimType supplied expressions codes trusted = .ok semantics)
    (h' : bundleV2Semantics srt statement claimType supplied expressions' codes trusted = .ok semantics') :
    ∃ temporal temporal' before after, temporalOf srt (Json.lookup supplied "temporal") expressions = .ok temporal ∧
      temporalOf srt (Json.lookup supplied "temporal") expressions' = .ok temporal' ∧
      Json.lookup before "temporal" = none ∧
      semantics = before ++ ("temporal", temporal.toJson) :: after ∧
      semantics' = before ++ ("temporal", temporal'.toJson) :: after := by
  obtain ⟨read, hread, h⟩ := bind_eq_ok.mp h
  obtain ⟨attribution, hattribution, h⟩ := bind_eq_ok.mp h
  obtain ⟨review, hreview, h⟩ := bind_eq_ok.mp h
  obtain ⟨reasons, hreasons, h⟩ := bind_eq_ok.mp h
  obtain ⟨detail, hdetail, h⟩ := bind_eq_ok.mp h
  obtain ⟨temporal, htemporal, h⟩ := bind_eq_ok.mp h
  rw [bundleV2Semantics, hread, ok_bind, hattribution, ok_bind, hreview, ok_bind, hreasons, ok_bind, hdetail, ok_bind]
    at h'
  obtain ⟨temporal', htemporal', h'⟩ := bind_eq_ok.mp h'
  cases h
  cases h'
  exact ⟨temporal, temporal', [_, _, _, _, _], _, htemporal, htemporal', rfl, rfl, rfl⟩

theorem canonical_temporal_iff {before after : List (String × Json)} (hbefore : Json.lookup before "temporal" = none)
    (place other : Json) : (Json.obj (before ++ ("temporal", place) :: after)).canonical =
      (Json.obj (before ++ ("temporal", other) :: after)).canonical ↔ place.canonical = other.canonical := by
  have hplace (place : Json) : Json.lookup (before ++ ("temporal", place) :: after) "temporal" = some place := by
    rw [Json.lookup_append, hbefore, Json.lookup_cons, if_pos rfl, Option.none_or]
  constructor
  · intro h
    have hlookup := Json.lookup_of_canonical h "temporal"
    rw [hplace, hplace] at hlookup
    exact Option.some.inj hlookup
  · intro h
    rw [Json.canonical_obj, Json.canonical_obj]
    simp only [List.map_append, List.map_cons, h]

theorem canonicalize_eq_ok (h : canonicalize rt configured draft bindings relations = .ok claim) :
    ∃ version statement semantics category, effectiveVersion rt configured bindings = .ok version ∧
      statementOf rt draft = .ok statement ∧ semanticsOf rt draft statement = .ok semantics ∧
      contentPayload claim = payloadWith (assemble rt draft bindings relations version statement category semantics)
        (.obj semantics) ∧
      claim.claimId = claimIdOf rt claim := by
  obtain ⟨version, hversion, h⟩ := bind_eq_ok.mp h
  obtain ⟨statement, hstatement, h⟩ := bind_eq_ok.mp h
  obtain ⟨semantics, hsemantics, h⟩ := bind_eq_ok.mp h
  obtain ⟨category, -, h⟩ := bind_eq_ok.mp h
  obtain ⟨-, h⟩ := then_eq_ok.mp h
  cases h
  exact ⟨version, statement, semantics, category, hversion, hstatement, hsemantics, rfl, rfl⟩

/-- No other payload has an id with the digits of this one. -/
def CanonicalRuntime.Distinguishes (rt : CanonicalRuntime) (claim : CanonicalClaim) : Prop :=
  ∀ payload, (rt.digest payload).toList.take 24 = (rt.digest (Json.obj (contentPayload claim)).canonical).toList.take 24 →
    payload = (Json.obj (contentPayload claim)).canonical

theorem claimIdOf_iff (hdigest : rt.Distinguishes claim) : claimIdOf rt claim' = claimIdOf rt claim ↔
    (Json.obj (contentPayload claim')).canonical = (Json.obj (contentPayload claim)).canonical := by
  constructor
  · exact fun h => hdigest _ (String.ofList_inj.mp ((String.append_right_inj _).mp h))
  · exact fun h => by rw [claimIdOf, h, claimIdOf]

/-- What the envelope of a draft says of time, in one form whatever the order of its keys. -/
def readTemporal (rt : CanonicalRuntime) (draft : GroundedDraft) : Except SemanticsError Json :=
  (temporalOf rt.toSemanticsRuntime (Json.lookup draft.bundleV2 "temporal")
    (draft.temporalExpressions.map TemporalExpressionDraft.rawExpression)).map fun temporal => temporal.toJson.canonical

theorem semanticsOf_iff {statement : String} {semantics semantics' : List (String × Json)}
    (hcontent : SameContent draft draft')
    (h : semanticsOf rt draft statement = .ok semantics) (h' : semanticsOf rt draft' statement = .ok semantics') :
    (Json.obj semantics').canonical = (Json.obj semantics).canonical ↔
      statement = "" ∨ readTemporal rt draft' = readTemporal rt draft := by
  rw [semanticsOf] at h h'
  by_cases hempty : statement = ""
  · rw [if_pos hempty] at h h'
    cases h
    cases h'
    exact iff_of_true rfl (.inl hempty)
  · rw [if_neg hempty] at h h'
    rw [hcontent.claimType, hcontent.bundleV2] at h'
    obtain ⟨temporal, temporal', before, after, htemporal, htemporal', hbefore, rfl, rfl⟩ :=
      bundleV2Semantics_temporal h h'
    rw [canonical_temporal_iff hbefore, readTemporal, readTemporal, hcontent.bundleV2, htemporal, htemporal',
      or_iff_right hempty]
    exact ⟨congrArg Except.ok, Except.ok.inj⟩

theorem statementOf_eq_nil {statement : String} (h : statementOf rt draft = .ok statement) :
    statement = "" ↔ draft.statement = "" := by
  rw [statementOf] at h
  split at h
  · rename_i hempty
    cases h
    exact iff_of_true rfl hempty
  · rename_i hsome
    refine iff_of_false ?_ hsome
    rintro rfl
    exact (atomicStatement_eq_ok (mapError_eq_ok.mp h)).2 rfl

theorem contentPayload_iff (h : canonicalize rt configured draft bindings relations = .ok claim)
    (h' : canonicalize rt configured draft' bindings' relations' = .ok claim') (hcontent : SameContent draft draft')
    (hbindings : bindings'.Perm bindings) (hrelations : relations'.Perm relations)
    (hversion : OneVersion configured bindings) :
    (Json.obj (contentPayload claim')).canonical = (Json.obj (contentPayload claim)).canonical ↔
      draft.statement = "" ∨ readTemporal rt draft' = readTemporal rt draft := by
  obtain ⟨version, statement, semantics, category, hv, hs, hsemantics, hpayload, -⟩ := canonicalize_eq_ok h
  obtain ⟨version', statement', semantics', category', hv', hs', hsemantics', hpayload', -⟩ := canonicalize_eq_ok h'
  rw [effectiveVersion_perm hversion hbindings, hv] at hv'
  cases hv'
  have hstatement : statement' = statement := by
    rw [statementOf, hcontent.statement] at hs'
    exact Except.ok.inj (hs'.symm.trans hs)
  subst hstatement
  rw [hpayload, hpayload', payloadWith_assemble hcontent hbindings hrelations, canonical_payloadWith_iff,
    semanticsOf_iff hcontent hsemantics hsemantics', statementOf_eq_nil hs]

end Identity

section Example

/-- A runtime whose digest tells one payload from all others. -/
def plainCanonicalRuntime (known : Json) : CanonicalRuntime :=
  { plainCalendarRuntime with
    str := fun _ => ""
    int := fun _ => .error ⟨"int() argument must be a number"⟩
    casefold := id
    digest := fun payload => if payload = known then "known" else "other"
    dictOf := fun _ => none
    anyOf := List.head? }

def plainGroundedDraft (expressions : List String) : GroundedDraft where
  semanticSegmentId := "segment"
  knowledgeKind := "CLAIM"
  claimType := "PRICE"
  conclusion := "价格上涨"
  temporalExpressions := expressions.map fun text => { role := "EVENT_AT", rawExpression := text }

def firstBinding : TemporalBinding where
  temporalBindingId := "tb_1"
  role := "EVENT_AT"
  scope := "POINT"
  startDate := some "2026-01-01"

def secondBinding : TemporalBinding where
  temporalBindingId := "tb_2"
  role := "EVENT_AT"
  scope := "POINT"

def plainSemantics (temporal : TemporalEnvelope) : List (String × Json) :=
  [("primary_domain", .str "UNKNOWN"), ("claim_nature", .str "FACT"),
    ("attribution", .obj [("attributed", .bool true), ("source_label", .str "source_speaker")]),
    ("source_grade", .str "UNKNOWN"),
    ("detail", .obj [("explanation", .str "价格上涨"), ("mechanism", .null), ("procedure", .null), ("formula", .null),
      ("example", .null), ("scope", .null), ("risks", .null)]),
    ("temporal", temporal.toJson), 
    ("occurrence_review", .obj [("status", .str "NOT_REQUIRED"), ("reason_codes", .arr [])]),
    ("external_truth_status", .str "NOT_CHECKED")]

def plainClaim (known : Json) (expressions : List String) (bindings : List TemporalBinding)
    (temporal : TemporalEnvelope) :
    CanonicalClaim :=
  let claim := assemble (plainCanonicalRuntime known) (plainGroundedDraft expressions) bindings []
    "normalization.v1" "价格上涨" "FACT"
    (plainSemantics temporal)
  { claim with claimId := claimIdOf (plainCanonicalRuntime known) claim }

theorem plain_statement : atomicStatement plainTables "价格上涨" = .ok "价格上涨" := by
  rw [atomicStatement, Shortening.fixedPoint_of_fixed (by decide)]
  decide

theorem primaryDomainFor_plain (known : Json) :
    primaryDomainFor (plainCanonicalRuntime known).toSemanticsRuntime "价格上涨" none = "UNKNOWN" := by
  have hnone : domainTokens.find? (fun entry => entry.2.any (isIn · "价格上涨")) = none := by decide
  have hstated : primaryDomains.contains "" = false := by decide
  rw [primaryDomainFor]
  change (if primaryDomains.contains "" then ""
    else ((domainTokens.find? fun entry => entry.2.any (isIn · "价格上涨")).map Prod.fst).getD "UNKNOWN") = _
  rw [hnone, hstated]
  rfl

theorem semanticsOf_plain {known : Json} {expressions : List String} {temporal : TemporalEnvelope}
    (htemporal : temporalOf (plainCanonicalRuntime known).toSemanticsRuntime none
      ((plainGroundedDraft expressions).temporalExpressions.map TemporalExpressionDraft.rawExpression) = .ok temporal) :
    semanticsOf (plainCanonicalRuntime known) (plainGroundedDraft expressions) "价格上涨" =
      .ok (plainSemantics temporal) := by
  have hatomic : (atomicStatement (plainCanonicalRuntime known).toDraftRuntime.tables "价格上涨").mapError
    SemanticsError.valueError =
      .ok "价格上涨" := mapError_eq_ok.mpr plain_statement
  have hdict : dictOrEmpty (plainCanonicalRuntime known).toSemanticsRuntime none = .ok [] := rfl
  have hreasons : reviewReasons (plainCanonicalRuntime known).toSemanticsRuntime [] [] = .ok [] := rfl
  have hdetail : (detailOf (plainCanonicalRuntime known).toSemanticsRuntime none "价格上涨").mapError
    SemanticsError.valueError =
      .ok [("explanation", .str "价格上涨"), ("mechanism", .null), ("procedure", .null), ("formula", .null),
        ("example", .null), ("scope", .null), ("risks", .null)] := rfl
  have hbundle : (plainGroundedDraft expressions).bundleV2 = [] := rfl
  have htype : (plainGroundedDraft expressions).claimType = "PRICE" := rfl
  have hnature : claimNatureFor (plainCanonicalRuntime known).toSemanticsRuntime "PRICE" "价格上涨" none = "FACT" := rfl
  have hnothing : Json.orText (plainCanonicalRuntime known).str none = "" := rfl
  have htables : (plainCanonicalRuntime known).toDraftRuntime.tables = plainTables := rfl
  have hgrade : upper plainTables "" = "" := by decide
  have htruth : upper plainTables (textOrElse "" "NOT_CHECKED") = "NOT_CHECKED" := by decide
  have hattribution : attributionOf (plainCanonicalRuntime known).toSemanticsRuntime [] "FACT" "" =
      [("attributed", .bool true), ("source_label", .str "source_speaker")] := rfl
  rw [semanticsOf, if_neg (by decide), bundleV2Semantics, hatomic, ok_bind]
  simp only [hbundle, htype, Json.lookup_nil, hdict, ok_bind, hreasons, hdetail, htemporal, primaryDomainFor_plain, hnature,
    hnothing, htables, hgrade, htruth, hattribution]
  rfl

theorem canonicalize_plain {known : Json} {expressions : List String} {bindings : List TemporalBinding}
    {temporal : TemporalEnvelope}
    (hversion : effectiveVersion (plainCanonicalRuntime known) "" bindings = .ok "normalization.v1")
    (htemporal : temporalOf (plainCanonicalRuntime known).toSemanticsRuntime none
      ((plainGroundedDraft expressions).temporalExpressions.map TemporalExpressionDraft.rawExpression) = .ok temporal) :
    canonicalize (plainCanonicalRuntime known) "" (plainGroundedDraft expressions) bindings [] =
      .ok (plainClaim known expressions bindings temporal) := by
  have hstatement : statementOf (plainCanonicalRuntime known) (plainGroundedDraft expressions) = .ok "价格上涨" :=
    mapError_eq_ok.mpr plain_statement
  rw [canonicalize, hversion, ok_bind, hstatement, ok_bind, semanticsOf_plain htemporal, ok_bind]
  rfl

def untimed : TemporalEnvelope := { kind := "UNKNOWN", precision := "UNKNOWN", explicitlyUnknown := true }

def knownPayload : Json := (Json.obj (contentPayload (plainClaim .null []
    [firstBinding, secondBinding] untimed))).canonical

theorem plainCanonicalRuntime_distinguishes :
    (plainCanonicalRuntime knownPayload).Distinguishes (plainClaim knownPayload []
      [firstBinding, secondBinding] untimed) := by
  have hknown : (Json.obj (contentPayload (plainClaim knownPayload [] [firstBinding, secondBinding] untimed))).canonical =
      knownPayload := rfl
  intro payload h
  rw [hknown] at h ⊢
  by_contra hne
  have hdigest : (if payload = knownPayload then "known" else "other").toList.take 24 =
      (if knownPayload = knownPayload then "known" else "other").toList.take 24 := h
  rw [if_neg hne, if_pos rfl] at hdigest
  exact absurd hdigest (by decide)

end Example
end StockContent.Knowledge
