import StockContent.Evidence.CrossModalVerifier
import StockContent.Text.Matches

/-! A claim against the words it was taken from. Seven checks compare the two; a judge may be asked then, who can take
support away, and give it only where no check has failed. -/
namespace StockContent.Evidence
open StockContent.Text StockContent.Numeric

structure EvidenceTables extends NumberTables where
  lower : List Char → List Char

structure JudgeRecord where
  label : Option String
  score : Option Reading
  reasonCodes : List String
  deriving DecidableEq

/-- The checks of a claim; the first seven are hard. -/
structure Checks where
  numberMatch : Bool
  entityMatch : Bool
  directionMatch : Bool
  negationMatch : Bool
  conditionMatch : Bool
  unitMatch : Bool
  timeMatch : Bool
  sourceLocated : Bool := true
  conditionDropped : Bool
  semanticOverlap : Bool
  judge : Option JudgeRecord := none
  deriving DecidableEq

def Checks.hard (checks : Checks) : List (String × Bool) :=
  [("NUMBER_MATCH", checks.numberMatch), ("ENTITY_MATCH", checks.entityMatch), ("DIRECTION_MATCH", checks.directionMatch),
    ("NEGATION_MATCH", checks.negationMatch), ("CONDITION_MATCH", checks.conditionMatch), ("UNIT_MATCH", checks.unitMatch),
    ("TIME_MATCH", checks.timeMatch)]

def Checks.hardFailed (checks : Checks) : List String := (checks.hard.filter fun check => !check.2).map (·.1)

structure JudgeInput where
  claim : String
  evidence : String
  structuredChecks : Checks

structure JudgeVerdict where
  label : Option String := none
  score : Option Reading := none
  reasonCodes : List String := []
  provider : Option String := none
  model : Option String := none
  version : Option String := none

structure JudgeMeta where
  provider : Option String
  model : Option String
  version : Option String
  label : Option String
  score : Option Reading
  deriving DecidableEq

structure Verification where
  supportStatus : String
  supportScore : Binary64
  supportProbability : Binary64
  reasonCodes : List String
  checks : Option Checks
  judge : Option JudgeMeta := none
  deriving DecidableEq

structure ClaimEvidenceVerifier where
  tables : EvidenceTables
  judge : Option (JudgeInput → Option JudgeVerdict) := none
  highRiskThreshold : Binary64 := .ofDecimal 82 2
  defaultThreshold : Binary64 := .ofDecimal 65 2
  overlapMin : Binary64 := .ofDecimal 18 2

/-- What the check of a claim reads of a unit besides its statement, its evidence and its subject. -/
structure CheckedUnit extends ClaimUnit where
  conditionText : Option String := none
  knowledgeKind : Option String := none

section Words

def positiveWords : List String := ["上涨", "增长", "改善", "看多", "看好", "偏强", "突破", "加仓"]

def negativeWords : List String := ["下跌", "下降", "恶化", "看空", "偏弱", "跌破", "减仓"]

def predicates : List String := positiveWords ++ negativeWords ++ ["便宜", "高估", "低估", "景气", "回暖", "走弱"]

def negations : List String := ["没有", "没", "未", "并非", "并不", "不是", "无", "不"]

/-- They hold a negation and say nothing negative. -/
def negationExceptions : List String := ["不断", "不得不", "不得已"]

def timeGroups : List (List String) := [
  ["当前", "目前", "现在", "当下", "现阶段"],
  ["今年", "去年", "明年", "前年"],
  ["短期", "中期", "长期"],
  ["近期", "未来", "远期"],
  ["上半年", "下半年"],
  ["一季度", "二季度", "三季度", "四季度"],
  ["本周", "上周", "下周"],
  ["本月", "上月", "下月"],
  ["今天", "昨天", "明天"]]

def highRiskKinds : List String := ["FACT", "VALUATION", "FINANCIAL_METRIC", "PRICE_LEVEL", "POLICY_FACT"]

/-- Failures of the judge itself; they say nothing of the claim. -/
def infraFailureReasons : List String := ["JUDGE_UNAVAILABLE", "JUDGE_ERROR", "JUDGE_LABEL_INVALID"]

/-- `_CLAUSE_SPLIT_RE`. -/
def endsClause (c : Char) : Bool := ",，。；;!！?？、\n".toList.contains c

/-- `_CONDITION_RE`. -/
def conditionWords : Regex := .alt (.words ["如果", "倘若", "若是", "若非", "除非", "一旦", "只要", "只有", "跌破", "突破"])
  (.sequence [.char '当', .rep (.one (· ≠ '\n')) 0 (some 10), .char '时'])

end Words

section Slots
variable (tables : EvidenceTables)

def holds (text : List Char) (word : String) : Bool := word.toList <:+: text

/-- `_compact`: small letters without blanks. -/
def compact (text : String) : List Char := tables.lower (text.toList.filter fun c => !tables.isSpace c)

def subjectNames (unit : ClaimUnit) : List (List Char) :=
  (([unit.subjectName, unit.subjectKey].map (·.getD "") ++
    unit.entities.map fun item => orDefault item.entityName (item.ticker.getD "")).map fun name =>
      compact tables (strip tables.toCharTables name)).filter (2 ≤ ·.length) |>.eraseDups

/-- The clauses that name a subject, else all of the source. -/
def scopeText (source : List Char) (names : List (List Char)) : List Char :=
  let naming := ((source.splitOnP endsClause).filter (· ≠ [])).filter fun clause => names.any (· <:+: clause)
  if names = [] || naming = [] then source else List.intercalate ['。'] naming

def numberMatch (claimNumbers scopeNumbers : List FinancialNumericValue) : Bool :=
  claimNumbers.all fun claim => scopeNumbers.any fun source => numericValuesMatch claim source && !differ claim.metric source.metric

def unitMatch (claimNumbers scopeNumbers : List FinancialNumericValue) : Bool :=
  claimNumbers.all fun claim => claim.unit = none || scopeNumbers.any (·.unit = claim.unit)

def entityMatch (names : List (List Char)) (source : List Char) : Bool := names = [] || names.any (· <:+: source)

def polarity (text : List Char) : Int :=
  (positiveWords.any (holds text)).toNat - ((negativeWords.any (holds text)).toNat : Int)

def directionMatch (claim source : List Char) : Bool := polarity claim = 0 || polarity claim = polarity source

def hasNegation (text : List Char) : Bool :=
  negations.any (holds (negationExceptions.foldl (fun cleaned exception => replace exception.toList [] cleaned) text))

/-- Each predicate of the claim is negated in the source as the claim is. -/
def negationMatch (claim source : List Char) : Bool :=
  ((predicates.filter (holds claim)).all fun predicate =>
    (finditer [.literal predicate.toList] source).all fun found =>
      hasNegation claim = hasNegation (slice source (found.start - 4) found.start)) &&
    (!hasNegation claim || hasNegation source)

def hasCondition (text : List Char) : Bool := conditionWords.searches text || (holds text "若" && !holds text "若干")

/-- `_condition_check`: whether the condition is matched, and whether it was dropped. -/
def conditionCheck (unit : CheckedUnit) (claim source : List Char) : Bool × Bool :=
  let condition := compact tables (unit.conditionText.getD "")
  if condition ≠ [] then (condition <:+: source, false)
  else if hasCondition source && !hasCondition claim then (false, true) else (true, false)

def timeMatch (claim source : List Char) : Bool :=
  timeGroups.all fun group =>
    !group.any (holds claim) || !group.any (holds source) || group.any fun word => holds claim word && holds source word

/-- Pairs of neighbouring characters, each once. -/
def bigrams (claim : List Char) : List (List Char) :=
  ((claim.zip claim.tail).map fun pair => [pair.1, pair.2]).filter (fun token => stripChars tables.toCharTables token ≠ []) |>.eraseDups

def keywordOverlap (claim source : List Char) : Binary64 :=
  let tokens := bigrams tables claim
  if tokens = [] then .natural 1
  else .ofQuotient ((tokens.filter (· <:+: source)).length * Binary64.one : Nat) tokens.length

end Slots

section Score

def atMostOne (x : Binary64) : Binary64 := if x.lt (.natural 1) then x else .natural 1

/-- `max(0.0, min(1.0, x))`. -/
def clamp (x : Binary64) : Binary64 := if (Binary64.natural 0).lt (atMostOne x) then atMostOne x else .natural 0

/-- Three quarters for the hard checks, one for the words in common. -/
def scoreOf (checks : Checks) (overlap : Binary64) : Binary64 :=
  let passed := (checks.hard.filter (·.2)).length
  clamp (((Binary64.ofQuotient (passed * Binary64.one : Nat) checks.hard.length).mul (.ofDecimal 75 2)).add
    (overlap.mul (.ofDecimal 25 2)))

def resultOf (status : String) (score : Binary64) (reasons : List String) (checks : Option Checks) : Verification where
  supportStatus := status
  supportScore := clamp (score.roundPlaces 4)
  supportProbability := clamp (score.roundPlaces 4)
  reasonCodes := reasons
  checks

end Score

section Verify
variable (verifier : ClaimEvidenceVerifier) (unit : CheckedUnit)

/-- The words of the primary evidence. -/
def sourceText (primary : EvidenceItem) : String :=
  " ".intercalate ([primary.rawText, primary.normalizedText, primary.evidenceText].map (·.getD ""))

/-- What comes of the slots of a claim and its source. -/
def checksOf (source : String) : Checks :=
  let sourceNorm := compact verifier.tables source
  let claimNorm := compact verifier.tables (claimText unit.toClaimUnit)
  let names := subjectNames verifier.tables unit.toClaimUnit
  let claimNumbers := parseFinancialNumerics verifier.tables.toNumberTables claimNorm
  let scopeNumbers := parseFinancialNumerics verifier.tables.toNumberTables (scopeText sourceNorm names)
  let condition := conditionCheck verifier.tables unit claimNorm sourceNorm
  { numberMatch := numberMatch claimNumbers scopeNumbers
    entityMatch := entityMatch names sourceNorm
    directionMatch := directionMatch claimNorm sourceNorm
    negationMatch := negationMatch claimNorm sourceNorm
    conditionMatch := condition.1
    unitMatch := unitMatch claimNumbers scopeNumbers
    timeMatch := timeMatch claimNorm sourceNorm
    conditionDropped := condition.2
    semanticOverlap := verifier.overlapMin.le (keywordOverlap verifier.tables claimNorm sourceNorm) }

def reasonsFor (checks : Checks) : List String :=
  checks.hardFailed.map (· ++ "_FAILED") ++ (if checks.conditionDropped then ["CONDITION_DROPPED"] else []) ++
    if checks.semanticOverlap then [] else ["SEMANTIC_OVERLAP_LOW"]

def thresholdFor : Binary64 :=
  if highRiskKinds.contains (upper verifier.tables.toCharTables (unit.knowledgeKind.getD "")) then verifier.highRiskThreshold
  else verifier.defaultThreshold

/-- The answer of the judge, and an empty one where there is none. -/
def answerOf (judge : JudgeInput → Option JudgeVerdict) (source : String) (checks : Checks) : JudgeVerdict :=
  (judge ⟨claimText unit.toClaimUnit, source, checks⟩).getD {}

def labelOf (answer : JudgeVerdict) : String := upper verifier.tables.toCharTables (answer.label.getD "")

/-- `label or None`. -/
def givenLabel (answer : JudgeVerdict) : Option String := if labelOf verifier answer = "" then none else some (labelOf verifier answer)

/-- The status and the reasons after the judge. -/
def judged (answer : JudgeVerdict) (status : String) (reasons : List String) (hardFailed : Bool) (threshold : Binary64) :
    String × List String :=
  if labelOf verifier answer = "CONTRADICTED" then
    (if status = "SOURCE_SUPPORTED" then "NEEDS_REVIEW" else status, reasons ++ ["JUDGE_CONTRADICTED"])
  else if labelOf verifier answer = "NOT_ENOUGH_EVIDENCE" then
    if answer.reasonCodes.any infraFailureReasons.contains then (status, reasons)
    else if status = "SOURCE_SUPPORTED" then ("NEEDS_REVIEW", reasons ++ ["JUDGE_NOT_ENOUGH_EVIDENCE"])
    else (status, reasons)
  else if labelOf verifier answer = "SUPPORTED" && !hardFailed && status ≠ "SOURCE_SUPPORTED" then
    if threshold.le (answer.score.join.getD (.natural 0)) then ("SOURCE_SUPPORTED", reasons) else (status, reasons)
  else (status, reasons)

/-- `verify`, after the claim and the source were found. -/
def verifyAgainst (source : String) : Verification :=
  let checks := checksOf verifier unit source
  let overlap := keywordOverlap verifier.tables (compact verifier.tables (claimText unit.toClaimUnit))
    (compact verifier.tables source)
  let score := scoreOf checks overlap
  let threshold := thresholdFor verifier unit
  let status := if checks.hardFailed = [] && threshold.le score then "SOURCE_SUPPORTED" else "NEEDS_REVIEW"
  match verifier.judge with
  | none => resultOf status score (reasonsFor checks) (some checks)
  | some judge =>
    let answer := answerOf unit judge source checks
    let decision := judged verifier answer status (reasonsFor checks) (checks.hardFailed ≠ []) threshold
    let record : JudgeRecord := ⟨givenLabel verifier answer, answer.score, answer.reasonCodes⟩
    { resultOf decision.1 score decision.2 (some { checks with judge := some record }) with
      judge := some ⟨answer.provider, answer.model, answer.version, givenLabel verifier answer, answer.score⟩ }

def isLocated (item : EvidenceItem) : Bool := item.startMs.isSome && item.endMs.isSome

def verify : Verification :=
  match (primaryOf unit.evidence).filter isLocated with
  | none => resultOf "UNSUPPORTED" (.natural 0) ["EVIDENCE_NOT_LOCATED"] none
  | some primary =>
    if strip verifier.tables.toCharTables (sourceText primary) = "" || claimText unit.toClaimUnit = "" then
      resultOf "UNSUPPORTED" (.natural 0) ["EMPTY_CLAIM_OR_EVIDENCE"] none
    else verifyAgainst verifier unit (sourceText primary)

end Verify
end StockContent.Evidence
