import StockContent.Storage.Dict
import StockContent.Numeric.Binary64
import StockContent.Knowledge.ThesisScope

/-! Atomic claims as a model drafts them, and the services that compare a draft with the text it cites. -/
namespace StockContent.Knowledge
open Storage Text Numeric

section Data

structure ClaimSubject where
  subjectType : String := "UNKNOWN"
  subjectKey : String := ""
  subjectName : Option String := none
  identity : subjectKey ≠ "" ∨ firstText [subjectName] ≠ ""
  deriving DecidableEq

/-- The value is a text, an integer or a float. -/
structure ClaimObject where
  text : String := ""
  value : Option Json := none
  unit : Option String := none
  currency : Option String := none
  deriving DecidableEq

inductive SupportType where
  | ocr
  | label
  | inferredVisual
  deriving DecidableEq

structure VisualEvidenceAnchor where
  frameId : String
  bbox : List Binary64
  ocrText : Option String := none
  visualLabel : Option String := none
  modelId : String
  modelVersion : String
  supportType : SupportType := .ocr
  content : firstText [ocrText, visualLabel] ≠ ""
  deriving DecidableEq

structure AtomicTemporalExpression where
  rawExpression : String
  targetPeriod : Option String := none
  evidenceSegmentIndices : List Int
  cited : evidenceSegmentIndices ≠ []

inductive AssertionTense where
  | past
  | present
  | future
  | conditional
  | unknown
  deriving DecidableEq

/-- What a model has drafted; neither its quote nor its statement nor its predicate is empty, and it cites something. -/
structure AtomicClaimDraft where
  semanticSegmentId : String
  claimType : String := "INDUSTRY_RELATION"
  knowledgeKind : String := "CLAIM"
  verbatimQuote : String
  normalizedStatement : String
  subject : ClaimSubject
  predicate : String
  object : Option ClaimObject := none
  conditionText : Option String := none
  invalidationText : Option String := none
  sentiment : String
  polarity : String := "ASSERTS"
  assertionTense : AssertionTense := .unknown
  evidenceSegmentIndices : List Int
  conditionEvidenceSegmentIndices : List Int := []
  invalidationEvidenceSegmentIndices : List Int := []
  temporalExpressions : List AtomicTemporalExpression := []
  visualAnchors : List VisualEvidenceAnchor := []
  bundleV2 : List (String × Json) := []
  quoted : verbatimQuote ≠ ""
  stated : normalizedStatement ≠ ""
  predicated : predicate ≠ ""
  cited : evidenceSegmentIndices ≠ []

/-- What a check of coordinates reads of a draft. -/
def AtomicClaimDraft.coordinates (draft : AtomicClaimDraft) : ClaimOccurrenceDraft where
  semanticSegmentId := draft.semanticSegmentId
  knowledgeKind := draft.knowledgeKind
  claimType := draft.claimType
  evidenceSegmentIndices := draft.evidenceSegmentIndices
  bundleV2 := draft.bundleV2

/-- Every coordinate that a draft names, of its evidence, its conditions and its times. -/
def AtomicClaimDraft.allIndices (draft : AtomicClaimDraft) : List Int :=
  draft.evidenceSegmentIndices ++ draft.conditionEvidenceSegmentIndices ++ draft.invalidationEvidenceSegmentIndices ++
    draft.temporalExpressions.flatMap AtomicTemporalExpression.evidenceSegmentIndices

end Data

section Texts
variable (runtime : DraftRuntime)

/-- `needle.casefold().strip() in haystack.casefold()`. -/
def containsText (needle haystack : String) : Bool :=
  isIn (strip runtime.tables (runtime.casefold needle)) (runtime.casefold haystack)

def segmentText (item : TranscriptSegmentItem) : String := firstText [item.rawText, some item.text]

/-- The rows by their index; of two rows with one index the later one counts. -/
def rowsByIndex (transcript : List TranscriptSegmentItem) : Dict Int TranscriptSegmentItem :=
  Table.empty.putAll (transcript.map fun item => (item.segmentIndex, item))

/-- The texts of the rows at the given indices, which have been checked to be there. -/
def textAt (transcript : List TranscriptSegmentItem) (indices : List Int) : String :=
  " ".intercalate (indices.map fun index => (((rowsByIndex transcript).lookup index).map segmentText).getD "")

end Texts

namespace NumericAlignmentService
variable (tables : CharTables)

def digits : Regex := .some (.one tables.isDecimal)

/-- `\d+(?:[.,]\d+)?`. -/
def number : Regex := .seq (digits tables) (.option (.seq (.oneOf ".,") (digits tables)))

def blanks : Regex := .many (.one tables.isSpace)

/-- `(?:19|20)\d{2}`. -/
def year : Regex := .seq (words ["19", "20"]) (.times 2 (.one tables.isDecimal))

def oneOrTwo : Regex := .rep (.one tables.isDecimal) 1 (some 2)

def ticker : Regex :=
  .sequence [.notAfter tables.isDecimal, .times 6 (.one tables.isDecimal), .notBefore tables.isDecimal]

def share : Regex :=
  .sequence [.notAfter tables.isDecimal, number tables, .oneOf "%％", .notBefore tables.isDecimal]

def money : Regex :=
  .sequence [words ["人民币", "美元", "港元", "CNY", "USD", "HKD", "¥", "￥", "$"], .option (.one tables.isSpace),
    number tables, .option (words ["万", "亿", "百万", "千", "元"])]

def amount : Regex := .seq (number tables) (words ["万亿", "亿", "万", "百万", "千", "元"])

def date : Regex :=
  .sequence [year tables, blanks tables, .alt (.char '年')
    (.sequence [.oneOf "-/.", oneOrTwo tables,
      .option (.alt (.char '月') (.sequence [.oneOf "-/.", oneOrTwo tables, .option (.char '日')]))])]

def quarter : Regex :=
  .alt (.sequence [year tables, blanks tables, .oneOf "Qq季度", blanks tables, .option (.range '1' '4')])
    (.sequence [.oneOf "Qq", blanks tables, .range '1' '4', blanks tables, year tables])

def numeral : Regex :=
  .seq (.some (.oneOf "零一二三四五六七八九十百千万亿两")) (.option (words ["元", "年", "月", "日", "季度", "%"]))

def patterns : List Regex :=
  [ticker tables, share tables, money tables, amount tables, date tables, quarter tables, numeral]

/-- Without blanks, with one sign for per cent, in capitals. -/
def normal (value : String) : String :=
  String.ofList (((value.toList.filter fun c => !tables.isSpace c).map fun c => if c = '％' then '%' else c).flatMap
    tables.upper)

def tokens (value : String) : List String :=
  (patterns tables).flatMap fun pattern => (pattern.findAll value).map (normal tables)

def aligned (statement evidence : String) : Bool := (tokens tables statement).all (tokens tables evidence).contains

end NumericAlignmentService

namespace EntityAlignmentService
variable (runtime : DraftRuntime)

def isAsciiWord (c : Char) : Bool := ('A' ≤ c && c ≤ 'Z') || ('a' ≤ c && c ≤ 'z') || ('0' ≤ c && c ≤ '9')

/-- A name in Latin letters, or a run of ideographs. -/
def entityPattern : Regex :=
  .alt
    (.sequence [.notAfter isAsciiWord, .range 'A' 'Z', .some (.one fun c => isAsciiWord c || ".&-".toList.contains c)])
    (.rep (.range '一' '\u9fff') 2 none)

def subjectAligned (draft : AtomicClaimDraft) (evidence : String) : Bool :=
  [draft.subject.subjectKey, firstText [draft.subject.subjectName]].all fun value =>
    value = "" || containsText runtime value evidence

def ignored : List String :=
  ["如果", "预计", "可能", "公司", "行业", "增长", "下降", "同比", "环比", "季度", "今年", "明年"]

def statementEntitiesAligned (statement evidence : String) : Bool :=
  ((entityPattern.findAll statement).filter fun item => !ignored.contains item && 2 ≤ item.toList.length).all fun item =>
    containsText runtime item evidence

end EntityAlignmentService

section Temporal
variable (runtime : DraftRuntime)

def temporalExpressionGrounded (transcript : List TranscriptSegmentItem) (valid : List Int)
    (expression : AtomicTemporalExpression) : Bool :=
  let evidence := textAt transcript expression.evidenceSegmentIndices
  let period := firstText [expression.targetPeriod]
  expression.evidenceSegmentIndices.all valid.contains && containsText runtime expression.rawExpression evidence &&
    (period = "" || containsText runtime period evidence || period = expression.rawExpression)

/-- `TemporalGroundingService.validate`. -/
def temporalGrounded (draft : AtomicClaimDraft) (transcript : List TranscriptSegmentItem) (valid : List Int) : Bool :=
  draft.temporalExpressions.all (temporalExpressionGrounded runtime transcript valid)

end Temporal

section Contradictions
variable (runtime : DraftRuntime)

/-- What claims have to share to contradict each other. -/
def contradictionKey (draft : AtomicClaimDraft) : String × String × String :=
  let targets := draft.temporalExpressions.map fun expression =>
    firstText [expression.targetPeriod, some expression.rawExpression]
  (firstText [some draft.subject.subjectKey, draft.subject.subjectName], runtime.casefold draft.predicate,
    "|".intercalate (targets.insertionSort (· ≤ ·)))

def optionalText (value : Option String) : Json := value.elim .null .str

def ClaimObject.dump (object : ClaimObject) : Json := .obj [
  ("text", .str object.text), ("value", object.value.getD .null), ("unit", optionalText object.unit),
  ("currency", optionalText object.currency)]

/-- What they say. -/
def contradictionValue (draft : AtomicClaimDraft) : Json := .obj [
  ("object", (draft.object.map ClaimObject.dump).getD .null), ("polarity", .str draft.polarity),
  ("sentiment", .str draft.sentiment)]

/-- `ContradictionService.group` for one of the claims: its group, if claims with its key say different things. -/
def contradictionGroup (claims : List AtomicClaimDraft) (draft : AtomicClaimDraft) : Option String :=
  let key := contradictionKey runtime draft
  let values := (claims.filter fun claim => contradictionKey runtime claim = key).map contradictionValue
  if 1 < values.dedup.length then
    let digest := runtime.digest (.arr [.str key.1, .str key.2.1, .str key.2.2])
    some ("contradiction_" ++ String.ofList (digest.toList.take 24))
  else none

end Contradictions
end StockContent.Knowledge
