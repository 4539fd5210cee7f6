import Mathlib.Data.Prod.Lex
import StockContent.Knowledge.ClaimDraft
import StockContent.Ledger.Projector
import StockContent.Storage.ByKey
import StockContent.Storage.StableMembership
import StockContent.Text.Leading

/-! Evidence windows: which span of the media a frame may be taken from to corroborate what was said. Windows are planned
from the transcript only, one for each semantic segment or for each draft of a claim. -/
namespace StockContent.Sampling
open Storage Text Knowledge

structure HighSignal where
  kind : String
  reason : String
  transcriptSegmentIds : List String
  anchorMs : List Int := []
  deriving DecidableEq

structure KnowledgeEvidenceWindow where
  semanticSegmentId : String
  startMs : Int
  endMs : Int
  centerMs : Int
  transcriptSegmentIds : List String
  highSignals : List HighSignal
  transcriptAnchorMs : List Int := []
  plannerVersion : String
  knowledgeIdentity : String := ""
  samplingStrategy : String := "ATOMIC"
  deriving DecidableEq

section Signals
variable (tables : CharTables)

def digit : Regex := .one tables.isDecimal

def alphanumeric (c : Char) : Bool := c.isAlpha || c.isDigit

def oneOfWords (ws : List String) : Regex := .choice (ws.map .word)

/-- `19` or `20` and two digits. -/
def yearToken : Regex := .seq (oneOfWords ["19", "20"]) (.times 2 (digit tables))

def monthToken : Regex := .alt (.seq (.option (.char '0')) (.range '1' '9')) (.seq (.char '1') (.range '0' '2'))

def dayToken : Regex :=
  .choice [.seq (.option (.char '0')) (.range '1' '9'), .seq (.oneOf "12") (digit tables), .seq (.char '3') (.oneOf "01")]

def decimalToken : Regex := .seq (.some (digit tables)) (.option (.seq (.char '.') (.some (digit tables))))

/-- The kind and the reason of each cue, and how it is found. -/
def signalPatterns : List (String × String × Regex) := [
  ("NUMERIC", "numeric_value", .sequence [.notAfter alphanumeric, .some (digit tables),
    .many (.seq (.char ',') (.times 3 (digit tables))), .option (.seq (.char '.') (.some (digit tables))),
    .notBefore alphanumeric]),
  ("UNIT", "numeric_unit", .sequence [decimalToken tables, .many (.one tables.isSpace),
    oneOfWords ["%", "％", "亿元", "万亿元", "万元", "万", "亿", "倍", "个", "台", "吨", "美元", "人民币", "USD", "CNY"]]),
  ("DATE", "date_expression", .sequence [yearToken tables, .alt (.char '年') (.oneOf "-/."), monthToken,
    .option (.alt (.char '月') (.oneOf "-/.")), .option (dayToken tables)]),
  ("TICKER", "six_digit_ticker",
    .sequence [.notAfter tables.isDecimal, .times 6 (digit tables), .notBefore tables.isDecimal]),
  ("COMPANY", "company_name_pattern", .seq (.rep (.one fun c => ('一' ≤ c && c ≤ '鿿') || c.isAlpha) 2 (some 16))
    (oneOfWords ["股份有限公司", "有限公司", "集团", "银行", "证券", "科技", "控股"])),
  ("PRODUCT", "product_or_model_cue",
    oneOfWords ["产品", "型号", "芯片", "GPU", "CPU", "服务器", "软件", "平台", "版本"]),
  ("INDUSTRY", "industry_or_sector_cue",
    oneOfWords ["行业", "板块", "赛道", "产业链", "金融", "算力", "半导体", "银行业"]),
  ("CHART", "chart_or_price_action_cue",
    oneOfWords ["K线", "走势图", "曲线", "图表", "成交量", "均线", "支撑位", "压力位"]),
  ("POLICY_DOCUMENT", "policy_document_cue",
    oneOfWords ["政策", "文件", "通知", "公告", "规划", "条例", "意见", "增资", "降准"]),
  ("TARGET_CUE", "displayed_target_cue", oneOfWords ["关注", "關注", "上游", "设备", "設備", "弹性", "彈性"])]

def midpoint (item : TranscriptSegmentItem) : Int := (item.startMs + item.endMs) / 2

def signals (selected : List TranscriptSegmentItem) : List HighSignal :=
  (signalPatterns tables).filterMap fun pattern =>
    let matched := selected.filter fun item =>
      pattern.2.2.searches (firstText [some item.text, item.normalizedText, item.rawText]).toList
    if matched = [] then none
    else some ⟨pattern.1, pattern.2.1, matched.map TranscriptSegmentItem.segmentId, matched.map midpoint⟩

end Signals

/-- Both are checked when a planner is made. -/
structure EvidenceWindowPlanner where
  paddingMs : Int := 1500
  plannerVersion : String := "knowledge-evidence-window.v2"
  padding_nonneg : 0 ≤ paddingMs
  version_ne : plannerVersion ≠ ""

section Plan

def clamp (value durationMs : Int) : Int := min (max 0 value) durationMs

/-- The later one of two rows with one index. -/
def rowAt (rows : List TranscriptSegmentItem) (index : Int) : Option TranscriptSegmentItem :=
  rows.reverse.find? (·.segmentIndex = index)

/-- The duration of the media, or the latest end in the transcript. -/
def durationOf (rows : List TranscriptSegmentItem) (mediaDurationMs : Option Int) : Int :=
  mediaDurationMs.getD ((rows.map TranscriptSegmentItem.endMs).max?.getD 0)

def checkDuration (mediaDurationMs : Option Int) : Except ValueError Unit :=
  require ⟨"media_duration_ms must be non-negative"⟩ (mediaDurationMs.all (0 ≤ ·))

/-- What is spoken, and a margin on both sides of it. -/
structure Span where
  startMs : Int
  endMs : Int
  centerMs : Int
  deriving DecidableEq

def paddedSpan (paddingMs durationMs spokenStart spokenEnd : Int) : Span where
  startMs := clamp (spokenStart - paddingMs) durationMs
  endMs := clamp (spokenEnd + paddingMs) durationMs
  centerMs := clamp ((spokenStart + spokenEnd) / 2) durationMs

variable (planner : EvidenceWindowPlanner) (tables : CharTables) (rows : List TranscriptSegmentItem) (durationMs : Int)

/-- Where the end of the segment comes before its start, it is taken to be the start. -/
def segmentSpan (semantic : SemanticSegment) : Span :=
  let spokenStart := clamp semantic.startMs durationMs
  let spokenEnd := clamp semantic.endMs durationMs
  paddedSpan planner.paddingMs durationMs spokenStart (if spokenEnd < spokenStart then spokenStart else spokenEnd)

def segmentWindow (semantic : SemanticSegment) : KnowledgeEvidenceWindow :=
  let selected := (semanticRange semantic).filterMap (rowAt rows)
  let span := segmentSpan planner durationMs semantic
  { semanticSegmentId := semantic.semanticSegmentId
    startMs := span.startMs
    endMs := span.endMs
    centerMs := span.centerMs
    transcriptSegmentIds := selected.map TranscriptSegmentItem.segmentId
    transcriptAnchorMs := selected.map midpoint
    highSignals := signals tables selected
    plannerVersion := planner.plannerVersion }

def segmentKey (item : SemanticSegment) : Int ×ₗ Int ×ₗ Int ×ₗ Int ×ₗ String :=
  toLex (item.startMs, toLex (item.endMs, toLex (item.startSegmentIndex, toLex (item.endSegmentIndex,
    item.semanticSegmentId))))

def windowKey (tie : KnowledgeEvidenceWindow → String) (item : KnowledgeEvidenceWindow) : Int ×ₗ Int ×ₗ String :=
  toLex (item.startMs, toLex (item.endMs, tie item))

def plan (mediaDurationMs : Option Int) (segments : List SemanticSegment) :
    Except ValueError (List KnowledgeEvidenceWindow) := do
  checkDuration mediaDurationMs
  let kept := firstOfEach SemanticSegment.semanticSegmentId [] (sortedBy segmentKey segments)
  let output := kept.map (segmentWindow planner tables rows (durationOf rows mediaDurationMs))
  return sortedBy (windowKey KnowledgeEvidenceWindow.semanticSegmentId) output

end Plan

section Drafts
variable (planner : EvidenceWindowPlanner) (runtime : DraftRuntime) (rows : List TranscriptSegmentItem) (durationMs : Int)
  (draft : ClaimOccurrenceDraft)

def isThesisRole : Bool :=
  upper runtime.tables (Json.orText runtime.str (Json.lookup draft.bundleV2 "knowledge_role")) = "THESIS"

def thesisScope : Option (List (String × Json)) :=
  match Json.lookup draft.bundleV2 "thesis_evidence_scope" with
  | some (.obj scope) => some scope
  | _ => none

/-- The bounds of a scope, if they can be read and are in order. -/
def scopeBounds (scope : List (String × Json)) : Option (Int × Int) := do
  let first ← ((Json.lookup scope "start_segment_index").map runtime.toInt).bind Except.toOption
  let last ← ((Json.lookup scope "end_segment_index").map runtime.toInt).bind Except.toOption
  if last < first then none else some (first, last)

/-- The rows that a draft cites, or all rows in the scope of a thesis. -/
def evidenceSegmentIndicesForDraft (available : List Int) : List Int :=
  let atomic := sortedIndices (draft.evidenceSegmentIndices.filter available.contains)
  if isThesisRole runtime draft then
    match (thesisScope draft).bind (scopeBounds runtime) with
    | some bounds =>
      let expanded := between bounds.1 bounds.2 (sortedIndices available)
      if expanded = [] then atomic else expanded
    | none => atomic
  else atomic

def indicesOf : List Int := evidenceSegmentIndicesForDraft runtime draft (segmentIndices rows)

/-- Without a segment or without coordinates a draft has no window. -/
def plannable : Bool := draft.semanticSegmentId ≠ "" && !(indicesOf runtime rows draft).isEmpty

def selectedFor : List TranscriptSegmentItem := (indicesOf runtime rows draft).filterMap (rowAt rows)

def isThesis : Bool := isThesisRole runtime draft && (thesisScope draft).isSome

/-- The moment in the middle of one rhetorical phase. -/
def phaseAnchor (scope : List (String × Json)) (name : String) : Except ValueError Int := do
  let items ← iterate (((Json.lookup scope name).filter Ledger.truthy).getD (.arr []))
  let read ← items.mapM runtime.toInt
  let values := sortedIndices (read.filter (indicesOf runtime rows draft).contains)
  require ⟨"thesis visual planning requires all three rhetorical phases"⟩ (!values.isEmpty)
  return ((values[values.length / 2]?.bind (rowAt rows)).map midpoint).getD 0

def phaseNames : List String := ["proposal_segment_indices", "argument_segment_indices", "conclusion_segment_indices"]

def phaseAnchors : Except ValueError (List Int) :=
  if isThesis runtime draft then phaseNames.mapM (phaseAnchor runtime rows draft ((thesisScope draft).getD [])) else .ok []

def identityPayload : Json := .obj [
  ("semantic_segment_id", .str draft.semanticSegmentId),
  ("evidence_segment_indices", .arr ((indicesOf runtime rows draft).map .int)),
  ("normalized_statement", .str draft.statement)]

def knowledgeIdentity : String :=
  "kd_" ++ String.ofList ((runtime.digest (identityPayload runtime rows draft)).toList.take 57)

/-- The span between the earliest start and the latest end, whichever of the two comes first. -/
def draftSpan : Span :=
  let selected := selectedFor runtime rows draft
  paddedSpan planner.paddingMs durationMs
    (clamp ((selected.map TranscriptSegmentItem.startMs).min?.getD 0) durationMs)
    (clamp ((selected.map TranscriptSegmentItem.endMs).max?.getD 0) durationMs)

def draftWindow (anchors : List Int) : KnowledgeEvidenceWindow :=
  let selected := selectedFor runtime rows draft
  let span := draftSpan planner runtime rows durationMs draft
  { semanticSegmentId := draft.semanticSegmentId
    startMs := span.startMs
    endMs := span.endMs
    centerMs := span.centerMs
    transcriptSegmentIds := selected.map TranscriptSegmentItem.segmentId
    transcriptAnchorMs := if isThesis runtime draft then anchors else selected.map midpoint
    highSignals := if isThesis runtime draft then [] else signals runtime.tables selected
    plannerVersion := planner.plannerVersion
    knowledgeIdentity := knowledgeIdentity runtime rows draft
    samplingStrategy := if isThesis runtime draft then "THESIS_PHASES" else "ATOMIC" }

def windowOf : Except ValueError KnowledgeEvidenceWindow := do
  let anchors ← phaseAnchors runtime rows draft
  return draftWindow planner runtime rows durationMs draft anchors

end Drafts

section PlanDrafts
variable (planner : EvidenceWindowPlanner) (runtime : DraftRuntime) (rows : List TranscriptSegmentItem)

/-- The first window of each identity is kept. -/
def planClaimDrafts (mediaDurationMs : Option Int) (drafts : List ClaimOccurrenceDraft) :
    Except ValueError (List KnowledgeEvidenceWindow) := do
  checkDuration mediaDurationMs
  let windows ← (drafts.filter (plannable runtime rows)).mapM
    (windowOf planner runtime rows (durationOf rows mediaDurationMs))
  let output := firstOfEach KnowledgeEvidenceWindow.knowledgeIdentity [] windows
  return sortedBy (windowKey KnowledgeEvidenceWindow.knowledgeIdentity) output

end PlanDrafts
end StockContent.Sampling
