import StockContent.Storage.Json
import StockContent.Storage.StableMembership
import StockContent.Text.EditDistance
import StockContent.Text.Regex

/-! The crosscheck of a video frame with its transcript: which facts the spoken and the shown
text have in common, and the relation that follows. -/
namespace StockContent.Visual
open Storage Text

inductive Relation where
  | supports | supportsDisplayedSecondary | supportsDisplayedMention | contradicts | entityCorrectionPending
  | unrelated | unknown
  deriving DecidableEq, Repr

def Relation.text : Relation → String
  | .supports => "SUPPORTS"
  | .supportsDisplayedSecondary => "SUPPORTS_DISPLAYED_SECONDARY"
  | .supportsDisplayedMention => "SUPPORTS_DISPLAYED_MENTION"
  | .contradicts => "CONTRADICTS"
  | .entityCorrectionPending => "ENTITY_CORRECTION_PENDING"
  | .unrelated => "UNRELATED"
  | .unknown => "UNKNOWN"

theorem Relation.text_eq_unknown {relation : Relation} : relation.text = "UNKNOWN" ↔ relation = .unknown := by
  cases relation <;> decide

inductive FactKind where
  | ticker | number | date | entity | term | direction
  deriving DecidableEq, Repr

def FactKind.text : FactKind → String
  | .ticker => "TICKER"
  | .number => "NUMBER"
  | .date => "DATE"
  | .entity => "ENTITY"
  | .term => "TERM"
  | .direction => "DIRECTION"

/-- In the order of the facts' dictionary. -/
def FactKind.all : List FactKind := [.ticker, .number, .date, .entity, .term, .direction]

section Facts
variable (tables : CharTables)

def digit : Regex := .one tables.isDecimal
def blanks : Regex := .many (.one tables.isSpace)

def tickerPattern : Regex :=
  .sequence [.notAfter tables.isDecimal, .times 6 (digit tables), .notBefore tables.isDecimal]

def numberPattern : Regex :=
  .sequence
    [.notAfter fun c => tables.isDecimal c || c = '.', .some (digit tables),
      .many (.seq (.char ',') (.times 3 (digit tables))), .option (.seq (.char '.') (.some (digit tables))),
      blanks tables,
      .option (.choice (["%", "％", "亿元", "万亿元", "万元", "万", "亿", "倍", "个", "台", "吨", "美元", "人民币",
        "USD", "CNY"].map .word))]

def yearPattern (centuries : List String) : Regex :=
  .seq (.choice (centuries.map .word)) (.times 2 (digit tables))

def datePattern : Regex :=
  let month : Regex := .choice [.seq (.option (.char '0')) (.range '1' '9'), .seq (.char '1') (.oneOf "012")]
  let day : Regex :=
    .choice [.seq (.option (.char '0')) (.range '1' '9'), .seq (.oneOf "12") (digit tables),
      .seq (.char '3') (.oneOf "01")]
  .choice
    [.sequence
      [.option (.sequence [yearPattern tables ["20"], blanks tables, .option (.char '年'), blanks tables]),
        .oneOf "Qq", .range '1' '4'],
      .sequence
        [yearPattern tables ["19", "20"], .oneOf "年-/.", month, .option (.oneOf "月-/."), .option day],
      .sequence
        [.rep (digit tables) 1 (some 2), .char '月',
          .option (.sequence [.rep (digit tables) 1 (some 2), .char '日'])]]

def entityPattern : Regex :=
  .seq
    (.rep (.one fun c => ('一' ≤ c && c ≤ '\u9fff') || ('A' ≤ c && c ≤ 'Z') || ('a' ≤ c && c ≤ 'z')) 2 (some 20))
    (.choice (["股份有限公司", "有限公司", "集团", "银行", "证券", "科技", "控股", "汽车", "能源", "算力", "半导体", "芯片",
      "金融", "保险", "茅台", "时代", "英伟达", "GPU", "CPU", "服务器", "平台"].map .word))

def terms : List String :=
  ["政策", "文件", "公告", "通知", "银行", "券商", "保险", "算力", "半导体", "芯片", "GPU", "CPU", "K线", "走势图", "图表",
    "成交量", "增资", "降准"]

def directions : List (String × List String) :=
  [("UP", ["上涨", "上升", "增长", "走高", "利好", "突破", "increase", "up"]),
    ("DOWN", ["下跌", "下降", "回落", "走低", "利空", "跌破", "decrease", "down"])]

def upper (text : String) : String := String.ofList (text.toList.flatMap tables.upper)

def normal (value : String) : String :=
  let compact := String.ofList (value.toList.filter (!tables.isSpace ·))
  String.ofList (((upper tables compact).toList.map fun c => if c = '％' then '%' else c).filter (· ≠ ','))

/-- `replace("年Q", "Q")`. -/
def withoutYearMark : List Char → List Char
  | '年' :: 'Q' :: rest => 'Q' :: withoutYearMark rest
  | c :: rest => c :: withoutYearMark rest
  | [] => []

def facts (text : String) : FactKind → List String
  -- Blanks separate tickers from other digits, so tickers are looked for in the text as it is.
  | .ticker => sortedSet ((tickerPattern tables).findAll text)
  | .number => sortedSet ((((numberPattern tables).findAll text).filter (·.toList.any tables.isDecimal)).map
      (normal tables))
  | .date => sortedSet (((datePattern tables).findAll text).map fun item =>
      String.ofList (withoutYearMark (normal tables item).toList))
  | .entity => sortedSet ((entityPattern.findAll text).map (normal tables))
  | .term => sortedSet ((terms.map (upper tables)).filter (isIn · (normal tables text)))
  | .direction => sortedSet ((directions.filter fun direction =>
      direction.2.any fun word => isIn (upper tables word) (normal tables text)).map (·.1))

end Facts

/-- The frame, within the scope in which it is checked. -/
structure FrameScope where
  frameId : String
  frameArtifactId : String
  timestampMs : Int
  semanticSegmentIds : List String
  evidenceWindowIds : List String

structure OcrItem where
  evidenceText : String
  text : String
  confidenceScore : Option Rat
  ocrEngine : String
  ocrEngineVersion : String

/-- A vision model's answer. Its lists may be missing, its other fields hold anything. -/
structure VisionItem where
  visualSummary : Json := .null
  narrationAligned : Json := .null
  labels : Option (List Json) := none
  themes : Option (List Json) := none
  symbols : Option (List Json) := none
  confidenceScore : Json := .null
  model : Json := .null
  modelVersion : Json := .null

structure TranscriptSegment where
  segmentId : String
  text : String
  confidence : Option Rat

/-- A value between 0 and 1. -/
def finite (value : Option Rat) : Option Rat := value.filter fun q => 0 ≤ q && q ≤ 1

def finiteJson : Json → Option Rat
  | .int n => finite (some n)
  | .float q => finite (some q)
  | _ => none

section Vision
variable (tables : CharTables)

/-- `value.strip()` is not empty. -/
def nonblank (value : String) : Bool := value.toList.any (!tables.isSpace ·)

def nonblankText : Json → Bool
  | .str s => nonblank tables s
  | _ => false

def listOf (requireItem : Bool) : Option (List Json) → Bool
  | none => false
  | some items => (!requireItem || !items.isEmpty) && items.all (nonblankText tables)

/-- The shape that the vision stage normalizes an answer to. -/
def structurallyValid (item : VisionItem) : Bool :=
  nonblankText tables item.visualSummary && (item.narrationAligned == .bool true || item.narrationAligned == .bool false) &&
    listOf tables true item.labels && listOf tables false item.themes && listOf tables false item.symbols &&
    (finiteJson item.confidenceScore).isSome && nonblankText tables item.model && nonblankText tables item.modelVersion

end Vision

section Distance

/-- One row of the edit distances, right of `last`: `prior` is the row above, from the column of `last`. -/
def distanceRow (c : Char) : Nat → List Nat → List Char → List Nat
  | last, diagonal :: above :: prior, other :: right =>
    let value := min (last + 1) (min (above + 1) (diagonal + if c = other then 0 else 1))
    value :: distanceRow c value (above :: prior) right
  | _, _, _ => []

def distanceRows (right : List Char) : Nat → List Nat → List Char → List Nat
  | _, prior, [] => prior
  | index, prior, c :: left =>
    distanceRows right (index + 1) ((index + 1) :: distanceRow c (index + 1) prior right) left

/-- Lengths that differ by more than one are far apart. -/
def distance (left right : String) : Nat :=
  if left.length + 1 < right.length ∨ right.length + 1 < left.length then 99
  else (distanceRows right.toList 0 (List.range (right.length + 1)) left.toList).getLast?.getD 0

end Distance

def hasNonexactNearEntityVariant (transcriptEntities ocrEntities : List String) : Bool :=
  transcriptEntities.any fun left => ocrEntities.any fun right => left != right && distance left right ≤ 1

def hasSecurityEntityMatch (entities : List String) : Bool := entities.any (2 < ·.length)

/-- An OCR reading that may correct the transcript; it is kept as a trace only. -/
structure CorrectionCandidate where
  kind : FactKind
  original : List String
  replacement : List String
  frameId : String
  transcriptSegmentIds : List String
  ocrEngine : String
  ocrEngineVersion : String
  ocrConfidenceScore : Option Rat
  status : String := "TRACE_ONLY_REQUIRES_INDEPENDENT_TRANSCRIPT_GROUNDING"

structure ConfidenceInputs where
  ocrConfidenceScores : List Rat
  visionConfidenceScore : Option Rat
  transcriptConfidenceScores : List Rat

structure Mismatch where
  transcript : List String
  visual : List String

structure Crosscheck where
  crosscheckVersion : String
  frameId : String
  frameArtifactId : String
  timestampMs : Int
  semanticSegmentIds : List String
  evidenceWindowIds : List String
  transcriptSegmentIds : List String
  relation : Relation
  reasonCodes : List String
  matched : List (FactKind × List String)
  mismatches : List (FactKind × Mismatch)
  confidenceInputs : ConfidenceInputs
  correctionCandidates : List CorrectionCandidate

/-- What a check is made of. -/
structure Scan where
  frame : FrameScope
  ocrItems : List OcrItem
  visionItem : Option VisionItem
  transcriptSegments : List TranscriptSegment

/-- `str` is the text of a value that is no string. -/
structure TranscriptVisualCrossChecker where
  tables : CharTables
  str : Json → String
  ocrCorrectionThreshold : Rat := 98 / 100
  version : String := "transcript-visual-crosscheck.v3"

/-- What the comparison of spoken and shown facts comes to. -/
structure Classification where
  relation : Relation
  reasons : List String
  matched : List (FactKind × List String) := []
  mismatches : List (FactKind × Mismatch) := []

section Check

def both (expected seen : List String) : List String := expected.filter seen.contains
def only (expected seen : List String) : List String := expected.filter (!seen.contains ·)

/-- The kinds of fact that both texts have, with what they share. -/
def matchesOf (expected seen : FactKind → List String) : List (FactKind × List String) :=
  FactKind.all.filterMap fun kind =>
    if (both (expected kind) (seen kind)).isEmpty then none else some (kind, both (expected kind) (seen kind))

/-- The kinds of fact of which each text has one that the other one has not. -/
def mismatchesOf (expected seen : FactKind → List String) : List (FactKind × Mismatch) :=
  FactKind.all.filterMap fun kind =>
    if (only (expected kind) (seen kind)).isEmpty || (only (seen kind) (expected kind)).isEmpty then none
    else some (kind, ⟨only (expected kind) (seen kind), only (seen kind) (expected kind)⟩)

def factReasons (matched : List (FactKind × List String)) (mismatches : List (FactKind × Mismatch)) : List String :=
  FactKind.all.flatMap fun kind =>
    (if (matched.map (·.1)).contains kind then ["EXACT_" ++ kind.text ++ "_MATCH"] else []) ++
      if (mismatches.map (·.1)).contains kind then [kind.text ++ "_MISMATCH"] else []

def factsOf (matched : List (FactKind × List String)) (kind : FactKind) : List String :=
  ((matched.find? (·.1 = kind)).map (·.2)).getD []

/-- The relation that follows from comparing the facts. `independent` says that the shown text was read by OCR. -/
def compareFacts (transcriptFacts ocrFacts visionFacts : FactKind → List String) (independent : Bool) :
    Classification :=
  let visualFacts := if independent then ocrFacts else visionFacts
  let matched := matchesOf transcriptFacts visualFacts
  let mismatches := mismatchesOf transcriptFacts visualFacts
  let reasons := factReasons matched mismatches
  let anchored := matched.any fun m => [FactKind.term, .entity, .ticker].contains m.1
  let conflicting := mismatches.any fun m => [FactKind.number, .date, .direction].contains m.1
  let material := !(only (factsOf matched .number) (factsOf matched .ticker)).isEmpty ||
    !(factsOf matched .date).isEmpty || !(factsOf matched .direction).isEmpty
  let result relation more : Classification := ⟨relation, reasons ++ more, matched, mismatches⟩
  if !matched.isEmpty && !independent then result .unknown ["MODEL_ONLY_FACT_NOT_INDEPENDENT_SUPPORT"]
  else if anchored && conflicting then result .contradicts []
  else if hasNonexactNearEntityVariant (transcriptFacts .entity) (ocrFacts .entity) then
    result .entityCorrectionPending ["ENTITY_SPELLING_VARIANT_PENDING"]
  else if (!(factsOf matched .ticker).isEmpty || hasSecurityEntityMatch (factsOf matched .entity)) && !material then
    result .supportsDisplayedMention ["DISPLAYED_SECURITY_MENTION_ONLY"]
  else if !matched.isEmpty then result .supports []
  else if mismatches.any (·.1 = .ticker) then result .contradicts []
  else result .unrelated ["NO_SHARED_HARD_FACT"]

end Check

namespace TranscriptVisualCrossChecker
variable (checker : TranscriptVisualCrossChecker)

def ocrText (items : List OcrItem) : String :=
  " ".intercalate (items.map fun item => if item.evidenceText = "" then item.text else item.evidenceText)

def visionText (item : VisionItem) : String :=
  " ".intercalate
    [Json.orText checker.str (some item.visualSummary),
      " ".intercalate ((item.symbols.getD []).map (Json.strOf checker.str)),
      " ".intercalate ((item.labels.getD []).map (Json.strOf checker.str))]

/-- An answer of the expected shape that says that the picture is not what is spoken about. -/
def notAligned (item : Option VisionItem) : Bool :=
  item.any fun item => structurallyValid checker.tables item && item.narrationAligned == .bool false

def correctionCandidates (scan : Scan) (transcriptFacts ocrFacts : FactKind → List String)
    (transcriptIds : List String) : List CorrectionCandidate :=
  let confident := scan.ocrItems.filter fun item =>
    (finite item.confidenceScore).any (checker.ocrCorrectionThreshold ≤ ·)
  [FactKind.ticker, .number, .date, .entity].filterMap fun kind =>
    let replacement := only (ocrFacts kind) (transcriptFacts kind)
    let original := only (transcriptFacts kind) (ocrFacts kind)
    match confident with
    | [] => none
    | item :: _ =>
      if replacement.isEmpty || original.isEmpty then none
      else some
        { kind, original, replacement
          frameId := scan.frame.frameId
          transcriptSegmentIds := transcriptIds
          ocrEngine := item.ocrEngine
          ocrEngineVersion := item.ocrEngineVersion
          ocrConfidenceScore := finite item.confidenceScore }

def classify (scan : Scan) (transcriptIds : List String) (transcriptFacts ocrFacts visionFacts : FactKind → List String)
    (ocrText visionText : String) : Classification :=
  let semanticIds := scan.frame.semanticSegmentIds.filter (· ≠ "")
  let windowIds := scan.frame.evidenceWindowIds.filter (· ≠ "")
  let first : Classification :=
    if semanticIds.isEmpty || windowIds.isEmpty || transcriptIds.isEmpty then
      ⟨.unknown, ["MISSING_OWNING_TRANSCRIPT_PROVENANCE"], [], []⟩
    else if ocrText = "" ∧ visionText = "" then ⟨.unknown, ["NO_VISUAL_FACT_EVIDENCE"], [], []⟩
    else if checker.notAligned scan.visionItem then
      if (scan.visionItem.bind (·.labels)).any (·.contains (.str "secondary-news-page")) then
        ⟨.supportsDisplayedSecondary, ["DISPLAYED_SECONDARY_PAGE_ONLY", "VISION_NARRATION_NOT_ALIGNED"], [], []⟩
      else ⟨.unrelated, ["VISION_NARRATION_NOT_ALIGNED"], [], []⟩
    else compareFacts transcriptFacts ocrFacts visionFacts (ocrText ≠ "")
  if first.relation = .unrelated ∧ hasNonexactNearEntityVariant (transcriptFacts .entity) (ocrFacts .entity) then
    { first with
      relation := .entityCorrectionPending
      reasons := first.reasons ++ ["ENTITY_SPELLING_VARIANT_PENDING"] }
  else first

/-- Classify a frame against the transcript of its scope. -/
def check (scan : Scan) : Crosscheck :=
  let transcriptText := " ".intercalate (scan.transcriptSegments.map (·.text))
  let transcriptIds := (scan.transcriptSegments.map (·.segmentId)).filter (· ≠ "")
  let shown := ocrText scan.ocrItems
  let seen := (scan.visionItem.map checker.visionText).getD ""
  let transcriptFacts := facts checker.tables transcriptText
  let ocrFacts := facts checker.tables shown
  let result := checker.classify scan transcriptIds transcriptFacts ocrFacts (facts checker.tables seen) shown seen
  let unsupported := scan.visionItem.any (·.narrationAligned == .bool true) && result.matched.isEmpty
  { crosscheckVersion := checker.version
    frameId := scan.frame.frameId
    frameArtifactId := scan.frame.frameArtifactId
    timestampMs := scan.frame.timestampMs
    semanticSegmentIds := (scan.frame.semanticSegmentIds.filter (· ≠ "")).insertionSort (· ≤ ·)
    evidenceWindowIds := (scan.frame.evidenceWindowIds.filter (· ≠ "")).insertionSort (· ≤ ·)
    transcriptSegmentIds := transcriptIds
    relation := result.relation
    reasonCodes :=
      sortedSet (result.reasons ++ if unsupported then ["NARRATION_ALIGNMENT_NOT_FACT_SUPPORT"] else [])
    matched := result.matched
    mismatches := result.mismatches
    confidenceInputs :=
      { ocrConfidenceScores := scan.ocrItems.filterMap fun item => finite item.confidenceScore
        visionConfidenceScore := scan.visionItem.bind fun item => finiteJson item.confidenceScore
        transcriptConfidenceScores := scan.transcriptSegments.filterMap fun segment => finite segment.confidence }
    correctionCandidates := checker.correctionCandidates scan transcriptFacts ocrFacts transcriptIds }

end TranscriptVisualCrossChecker

/-! Names that differ in one character between what is said and what is shown. -/

section Rows

/-- A row is computed from the one above. -/
theorem distanceRow_eq (left : List Char) (char : Char) (done rest : List Char) :
    distanceRow char (editDistance (left ++ [char]) done) (editDistance left done :: laterDistances left done rest) rest =
      laterDistances (left ++ [char]) done rest := by
  induction rest generalizing done with
  | nil => rfl
  | cons other rest ih =>
    have hcell : min (editDistance (left ++ [char]) done + 1) (min (editDistance left (done ++ [other]) + 1)
        (editDistance left done + if char = other then 0 else 1)) = editDistance (left ++ [char]) (done ++ [other]) := by
      rw [editDistance_concat_concat, min_assoc, min_left_comm]
    rw [laterDistances, distanceRow, laterDistances, hcell, ih]

/-- After each round the row holds the distances of what has been read of the first text. -/
theorem distanceRows_eq (right done rest : List Char) :
    distanceRows right done.length (editDistance done [] :: laterDistances done [] right) rest =
      editDistance (done ++ rest) [] :: laterDistances (done ++ rest) [] right := by
  induction rest generalizing done with
  | nil => rw [distanceRows, List.append_nil]
  | cons char rest ih =>
    have hlength : (done ++ [char]).length = done.length + 1 := List.length_append
    have hrow := distanceRow_eq done char [] right
    rw [editDistance_nil_right, hlength] at hrow
    have hrest := ih (done ++ [char])
    rw [editDistance_nil_right, hlength, List.append_assoc, List.singleton_append] at hrest
    rw [distanceRows, hrow, hrest]

theorem distance_eq (left right : String) : distance left right =
    if left.length + 1 < right.length ∨ right.length + 1 < left.length then 99
    else editDistance left.toList right.toList := by
  have hfirst : List.range (right.length + 1) =
      editDistance ([] : List Char) [] :: laterDistances [] [] right.toList := by
    rw [laterDistances_nil, List.range_eq_range', List.range'_succ, editDistance_nil_left, ← String.length_toList]
    rfl
  have hrows := distanceRows_eq right.toList [] left.toList
  rw [List.nil_append] at hrows
  rw [distance, hfirst, ← List.length_nil, hrows, getLast?_laterDistances, List.nil_append, Option.getD_some]

end Rows

section Entities

/-- The same loops once more, in the stages. -/
def entityEditDistance (left right : String) : Nat := distance left right

theorem near_iff (left right : String) : left ≠ right ∧ distance left right ≤ 1 ↔
    editDistance left.toList right.toList = 1 := by
  have hequal : editDistance left.toList right.toList = 0 ↔ left = right :=
    editDistance_eq_zero.trans String.toList_inj
  have hlength := (script_editDistance left.toList right.toList).length_le
  rw [String.length_toList, String.length_toList] at hlength
  rw [distance_eq]
  split
  · omega
  · rw [ne_eq, ← hequal]
    omega

theorem nearEntity_exact :
    (∀ transcriptEntities ocrEntities : List String, hasNonexactNearEntityVariant transcriptEntities ocrEntities = true ↔
      ∃ left ∈ transcriptEntities, ∃ right ∈ ocrEntities, editDistance left.toList right.toList = 1) ∧
    ∀ left right : String, entityEditDistance left right =
      if left.length + 1 < right.length ∨ right.length + 1 < left.length then 99
      else editDistance left.toList right.toList := by
  refine ⟨fun transcriptEntities ocrEntities => ?_, distance_eq⟩
  rw [hasNonexactNearEntityVariant, List.any_eq_true]
  simp only [List.any_eq_true, Bool.and_eq_true, bne_iff_ne, decide_eq_true_eq, near_iff]

end Entities
end StockContent.Visual
