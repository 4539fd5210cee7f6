import StockContent.Numeric.NumericMatch
import StockContent.Text.Leading

/-! A claim against what is seen. Texts that were read from frames may support what was said, or contradict it: where they
give another number for the same metric and unit. -/
namespace StockContent.Evidence
open StockContent.Text StockContent.Numeric

/-- What `float` makes of a value, and nothing where it refuses it. -/
abbrev Reading := Option Binary64

structure EvidenceItem where
  sourceType : Option String := none
  isPrimary : Bool := false
  startMs : Option Binary64 := none
  endMs : Option Binary64 := none
  meanConfidence : Option Reading := none
  score : Option Reading := none
  confidenceScore : Option Reading := none
  rawText : Option String := none
  normalizedText : Option String := none
  evidenceText : Option String := none
  text : Option String := none
  sourceRef : Option String := none
  frameId : Option String := none
  deriving DecidableEq

structure Entity where
  entityType : Option String := none
  entityKey : Option String := none
  entityName : Option String := none
  name : Option String := none
  ticker : Option String := none
  relationRole : Option String := none
  confidenceScore : Option Binary64 := none
  deriving DecidableEq

/-- The evidence that is marked as primary, else the first one. -/
def primaryOf (evidence : List EvidenceItem) : Option EvidenceItem := (evidence.find? (·.isPrimary)).or evidence.head?

inductive OcrLevel where
  | high
  | medium
  | low
  deriving DecidableEq

structure BlockRef where
  sourceRef : Option String
  frameId : Option String
  score : Option Binary64
  deriving DecidableEq

structure NumberRef where
  value : Option Binary64
  unit : Option NumericUnit
  metric : Option Metric
  deriving DecidableEq

structure CrossModalVerification where
  status : String
  asrSupportScore : Option Binary64
  ocrSupportScore : Option Binary64
  matchedBlocks : List BlockRef
  reasonCodes : List String := []
  claimValues : List NumberRef := []
  ocrValues : List NumberRef := []
  deriving DecidableEq

/-- What the verifier reads and writes of a unit. -/
structure ClaimUnit where
  statement : Option String := none
  evidence : List EvidenceItem := []
  subjectName : Option String := none
  subjectKey : Option String := none
  entities : List Entity := []
  supportStatus : Option String := none
  verificationStatus : Option String := none
  supportScore : Option Binary64 := none
  supportProbability : Option Binary64 := none
  crossModal : Option CrossModalVerification := none
  deriving DecidableEq

inductive Direction where
  | up
  | down
  deriving DecidableEq

section Texts
variable (tables : NumberTables)

def ocrSourceTypes : List String := ["OCR", "VISION", "FRAME"]

/-- An empty text counts as none. -/
def orDefault (text : Option String) (default : String) : String :=
  if text.getD "" = "" then default else text.getD ""

def isOcr (item : EvidenceItem) : Bool := ocrSourceTypes.contains (upper tables.toCharTables (orDefault item.sourceType "OCR"))

/-- Two stretches of time overlap, unless an end of one is not known: then nothing is excluded. -/
def overlaps (left right : EvidenceItem) : Bool :=
  match left.startMs, left.endMs, right.startMs, right.endMs with
  | some leftStart, some leftEnd, some rightStart, some rightEnd => leftStart.lt rightEnd && rightStart.lt leftEnd
  | _, _, _, _ => true

def overlappingOcr (primary : Option EvidenceItem) (candidates : List EvidenceItem) : List EvidenceItem :=
  candidates.filter fun candidate => isOcr tables candidate && primary.any fun primary => overlaps primary candidate

def ocrScore (ocr : EvidenceItem) : Option Binary64 :=
  ((ocr.meanConfidence.or ocr.score).or ocr.confidenceScore).join

def ocrText (ocr : EvidenceItem) : String :=
  strip tables.toCharTables (" ".intercalate
    ([ocr.rawText, ocr.normalizedText, ocr.evidenceText, ocr.text].map (·.getD "")))

def subjectTokens (unit : ClaimUnit) : List String :=
  ([unit.subjectName, unit.subjectKey] ++ unit.entities.map (·.entityName)).map
    (fun text => strip tables.toCharTables (text.getD "")) |>.filter fun token => 2 ≤ token.length

def upWords : List String := ["增长", "上涨", "上升", "提升", "提高", "增加", "走高"]

def downWords : List String := ["下降", "下跌", "下滑", "降低", "减少", "回落", "走低"]

/-- A sign before a number. -/
def signed (signs : String) : Regex := .sequence [.oneOf signs, .many (.one tables.isSpace), .one tables.isDecimal]

def direction (text : String) : Option Direction :=
  if upWords.any (isIn · text) then some .up
  else if downWords.any (isIn · text) then some .down
  else if (signed tables "+＋").searches text.toList then some .up
  else if (signed tables "-−－").searches text.toList then some .down
  else none

def numbersOf (text : String) : List FinancialNumericValue := parseFinancialNumerics tables text.toList

end Texts

section Numbers

/-- Both are known, and they differ. -/
def differ {A : Type} [DecidableEq A] (a b : Option A) : Bool := a.isSome && b.isSome && a ≠ b

/-- `_comparable`. -/
def comparable (claim ocr : FinancialNumericValue) : Bool := !differ claim.metric ocr.metric && !differ claim.unit ocr.unit

def isMatched (claim : FinancialNumericValue) (ocrValues : List FinancialNumericValue) : Bool :=
  ocrValues.any fun ocr => !differ claim.metric ocr.metric && numericValuesMatch claim ocr

def numbersMatch (claimValues ocrValues : List FinancialNumericValue) : Bool :=
  claimValues.all fun claim => isMatched claim ocrValues

/-- `_numbers_conflict`: some pair is comparable, and not every number of the claim is matched. -/
def numbersConflict (claimValues ocrValues : List FinancialNumericValue) : Bool :=
  claimValues.any (fun claim => ocrValues.any fun ocr => comparable claim ocr) && !numbersMatch claimValues ocrValues

end Numbers

section Verify

structure CrossModalVerifier where
  tables : NumberTables
  highThreshold : Binary64 := .ofDecimal 95 2
  mediumThreshold : Binary64 := .ofDecimal 85 2

structure Qualified where
  ocr : EvidenceItem
  level : OcrLevel
  text : String
  numbers : List FinancialNumericValue
  subjectHit : Bool
  deriving DecidableEq

/-- What the verifier says of a unit. -/
inductive CrossVerdict where
  | unchanged
  | conflict (entry : Qualified)
  | supported (entry : Qualified)
  deriving DecidableEq

variable (verifier : CrossModalVerifier) (unit : ClaimUnit) (extraOcr : List EvidenceItem)

def ocrLevel (ocr : EvidenceItem) : OcrLevel :=
  match ocrScore ocr with
  | none => .low
  | some score =>
    if verifier.highThreshold.le score then .high else if verifier.mediumThreshold.le score then .medium else .low

def claimText : String := unit.statement.getD ""

def claimValues : List FinancialNumericValue := numbersOf verifier.tables (claimText unit)

def ocrItems : List EvidenceItem :=
  overlappingOcr verifier.tables (primaryOf unit.evidence) unit.evidence ++
    overlappingOcr verifier.tables (primaryOf unit.evidence) extraOcr

/-- A unit without a token of a subject is not asked for one. -/
def subjectHit (text : String) : Bool :=
  (subjectTokens verifier.tables unit).isEmpty || (subjectTokens verifier.tables unit).any (isIn · text)

def qualify (ocr : EvidenceItem) : Qualified where
  ocr
  level := ocrLevel verifier ocr
  text := ocrText verifier.tables ocr
  numbers := numbersOf verifier.tables (ocrText verifier.tables ocr)
  subjectHit := subjectHit verifier unit (ocrText verifier.tables ocr)

def qualified : List Qualified := ((ocrItems verifier unit extraOcr).map (qualify verifier unit)).filter (·.text ≠ "")

def isConflict (claimValues : List FinancialNumericValue) (entry : Qualified) : Bool :=
  entry.level = .high && entry.subjectHit && claimValues ≠ [] && entry.numbers ≠ [] &&
    numbersConflict claimValues entry.numbers

def isSupport (entry : Qualified) : Bool :=
  (entry.level = .high || entry.level = .medium) && entry.subjectHit && entry.numbers ≠ [] &&
    numbersMatch (claimValues verifier unit) entry.numbers &&
    ((direction verifier.tables (claimText unit)).isNone ||
      direction verifier.tables entry.text = direction verifier.tables (claimText unit))

def crossVerdict : CrossVerdict :=
  match (qualified verifier unit extraOcr).find? (isConflict (claimValues verifier unit)) with
  | some entry => .conflict entry
  | none =>
    if unit.supportStatus ≠ some "SOURCE_SUPPORTED" || claimValues verifier unit = [] then .unchanged
    else
      match (qualified verifier unit extraOcr).find? (isSupport verifier unit) with
      | some entry => .supported entry
      | none => .unchanged

def blockRef (ocr : EvidenceItem) : BlockRef := ⟨ocr.sourceRef, ocr.frameId, ocrScore ocr⟩

def numberRef (value : FinancialNumericValue) : NumberRef := ⟨value.value, value.unit, value.metric⟩

/-- `_verify_one`: what is said is written into the unit. -/
def verifyOne : ClaimUnit :=
  match crossVerdict verifier unit extraOcr with
  | .unchanged => unit
  | .conflict entry =>
    { unit with
      supportStatus := some "NEEDS_REVIEW"
      verificationStatus := some "NEEDS_REVIEW"
      crossModal := some {
        status := "CROSS_MODAL_CONFLICT"
        asrSupportScore := unit.supportScore.or unit.supportProbability
        ocrSupportScore := ocrScore entry.ocr
        matchedBlocks := [blockRef entry.ocr]
        reasonCodes := ["CROSS_MODAL_CONFLICT"]
        claimValues := (claimValues verifier unit).map numberRef
        ocrValues := entry.numbers.map numberRef } }
  | .supported entry =>
    { unit with
      supportStatus := some "CROSS_MODAL_SUPPORTED"
      verificationStatus := some "CROSS_MODAL_SUPPORTED"
      crossModal := some {
        status := "CROSS_MODAL_SUPPORTED"
        asrSupportScore := unit.supportScore.or unit.supportProbability
        ocrSupportScore := ocrScore entry.ocr
        matchedBlocks := [blockRef entry.ocr] } }

def verifyMany (units : List ClaimUnit) : List ClaimUnit := units.map fun unit => verifyOne verifier unit extraOcr

end Verify
end StockContent.Evidence
