import Mathlib.Algebra.BigOperators.Group.List.Basic
import StockContent.Storage.Spans
import StockContent.Storage.StableMembership
import StockContent.Transcript.TranscriptCandidate

/-! Whether a transcript is ready to be used: its segments are in order and cover the video, and what was normalized
keeps the hard facts. -/
namespace StockContent.Transcript
open Storage Text Numeric

inductive TranscriptQualityStatus where
  | pass
  | retryableAsr
  | needsReview
  deriving DecidableEq

structure TranscriptQualityReport where
  durationMs : Int
  coveredMs : Int
  coverageRatio : Binary64
  maxGapMs : Int
  overlapRatio : Binary64
  timestampMonotonic : Bool
  language : String
  sourceMix : List (String × Binary64)
  numericPreservationRatio : Binary64
  qualityStatus : TranscriptQualityStatus
  reasonCodes : List String
  deriving DecidableEq

section Numbers

/-- `n / d` of whole numbers: the nearest number, unless it is too large. -/
def quotient (n d : Int) : Except TranscriptError Binary64 :=
  if d = 0 then .error .zeroDivisionError
  else match Binary64.ofQuotient (n * d.sign * Binary64.one) d.natAbs with
    | .infinite _ => .error .overflowError
    | x => .ok x

end Numbers

section Tokens
variable (tables : TranscriptTables)

def decimalToken : Regex := .seq (.some (.one tables.isDecimal)) (.option (.seq (.char '.') (.some (.one tables.isDecimal))))

def amountUnit : Regex := .choice
  [.seq (.char '亿') (.option (.char '元')), .seq (.char '万') (.option (.char '元')),
    .seq (.char '千') (.option (.char '元')), .char '元']

def yearToken : Regex := .seq (.word "20") (.times 2 (.one tables.isDecimal))

def quarterToken : Regex := .seq (.oneOf "Qq") (.range '1' '4')

/-- `HARD_FACT_TOKENS`: shares, amounts with a currency or a unit, quarters and tickers. -/
def hardFactTokens : Regex := .choice
  [.seq (decimalToken tables) (.char '%'),
    .sequence [.choice (["人民币", "美元", "港元", "CNY", "USD", "HKD", "¥", "$"].map .word), .option (.one tables.isSpace),
      decimalToken tables, .option amountUnit],
    .seq (decimalToken tables) amountUnit,
    .alt (.sequence [yearToken tables, .many (.one tables.isSpace), quarterToken])
      (.sequence [quarterToken, .many (.one tables.isSpace), yearToken tables]),
    .seq (.alt (.rep (.range 'A' 'Z') 1 (some 5)) (.times 6 (.one tables.isDecimal)))
      (.option (.seq (.char '.') (.times 2 (.range 'A' 'Z'))))]

def tokensOf (text : String) : List String := (hardFactTokens tables).findAll text

end Tokens

section Sweep

/-- Spans that were merged, and how much of what came in had been covered already. -/
structure Sweep where
  union : List Span := []
  overlap : Int := 0

def Sweep.place (state : Sweep) (span : Span) : Sweep :=
  match state.union.getLast? with
  | none => { state with union := [span] }
  | some last =>
    if last.2 < span.1 then { state with union := state.union ++ [span] }
    else
      { union := state.union.dropLast ++ [(last.1, max last.2 span.2)]
        overlap := state.overlap + max 0 (min span.2 last.2 - span.1) }

def sweep (spans : List Span) : Sweep := spans.foldl Sweep.place {}

/-- Between neighbours, then before the first and after the last; all of it where nothing is covered. -/
def gapLengths (union : List Span) (durationMs : Int) : List Int :=
  List.zipWith (fun before after => after.1 - before.2) union union.tail ++
    match union.head?, union.getLast? with
    | some first, some last => [first.1, durationMs - last.2]
    | _, _ => [durationMs]

end Sweep

section Evaluate
variable {tables : TranscriptTables}

/-- The segments as spans that end with the video. -/
def intervals (ordered : List (TranscriptCandidateSegment tables)) (durationMs : Int) : List Span :=
  ordered.map fun item => (item.startMs, min item.endMs durationMs)

def isMonotonic (segments ordered : List (TranscriptCandidateSegment tables)) : Bool :=
  decide (segments = ordered) && (ordered.zip ordered.tail).all fun pair => pair.1.endMs ≤ pair.2.startMs

def rawTokens (ordered : List (TranscriptCandidateSegment tables)) : List String :=
  ordered.flatMap fun item => tokensOf tables item.rawText

def normalizedTokens (ordered : List (TranscriptCandidateSegment tables)) : List String :=
  ordered.flatMap fun item => tokensOf tables item.normalizedText

/-- The tokens that occur as often among the normalized ones at least. -/
def preservedTokens (raw normalized : List String) : Nat := raw.countP fun token => raw.count token ≤ normalized.count token

def preservationRatio (raw normalized : List String) : Except TranscriptError Binary64 :=
  if raw = [] then .ok (Binary64.natural 1) else quotient (preservedTokens raw normalized) raw.length

/-- How long the segments of each source are, as a share of what is covered. -/
def sourceMix (segments : List (TranscriptCandidateSegment tables)) (coveredMs : Int) :
    Except TranscriptError (List (String × Binary64)) :=
  if coveredMs = 0 then .ok []
  else (sortedSet (segments.map (·.source.value))).mapM fun name => do
    let share ← quotient ((segments.filter (·.source.value = name)).map fun item => item.endMs - item.startMs).sum coveredMs
    return (name, share.roundPlaces 12)

/-- `MIN_TRANSCRIPT_COVERAGE`, which is 0.90. -/
def minTranscriptCoverage : Binary64 := Binary64.ofDecimal 9 1

def statusOf (reasons : List String) : TranscriptQualityStatus :=
  if reasons = [] then .pass
  else if reasons = ["COVERAGE_BELOW_90_PERCENT"] then .retryableAsr
  else .needsReview

/-- `reasons`, in the order in which they are found. -/
def reasonsOf (ordered : List (TranscriptCandidateSegment tables)) (durationMs : Int) (monotonic : Bool)
    (coverageRatio preservation : Binary64) : List String :=
  (ordered.filter fun item => durationMs < item.endMs).map (fun _ => "TIMESTAMP_OUT_OF_BOUNDS") ++
    (if monotonic then [] else ["TIMESTAMP_NON_MONOTONIC_OR_OVERLAP"]) ++
    (if coverageRatio.lt minTranscriptCoverage then ["COVERAGE_BELOW_90_PERCENT"] else []) ++
    if preservation = Binary64.natural 1 then [] else ["HARD_FACT_TOKEN_MUTATION"]

def coveredMs (union : List Span) : Int := (union.map Span.length).sum

def maxGapMs (union : List Span) (durationMs : Int) : Int := (gapLengths union durationMs).max?.getD durationMs

/-- `TranscriptQualityService.evaluate`. -/
def evaluate (segments : List (TranscriptCandidateSegment tables)) (durationMs : Int) (language : String) :
    Except TranscriptError TranscriptQualityReport := do
  require (.valueError "TRANSCRIPT_DURATION_INVALID") (0 < durationMs)
  let ordered := sortedBy segmentKey segments
  let monotonic := isMonotonic segments ordered
  let swept := sweep (intervals ordered durationMs)
  let preservation ← preservationRatio (rawTokens ordered) (normalizedTokens ordered)
  let coverageRatio ← quotient (coveredMs swept.union) durationMs
  let overlapRatio ← quotient swept.overlap durationMs
  let mix ← sourceMix ordered (coveredMs swept.union)
  let reasons := reasonsOf ordered durationMs monotonic coverageRatio preservation
  return {
    durationMs
    coveredMs := coveredMs swept.union
    coverageRatio
    maxGapMs := maxGapMs swept.union durationMs
    overlapRatio
    timestampMonotonic := monotonic
    language
    sourceMix := mix
    numericPreservationRatio := preservation
    qualityStatus := statusOf reasons
    reasonCodes := sortedSet reasons }

/-- What a report says, and of what. -/
structure Reported (segments : List (TranscriptCandidateSegment tables)) (durationMs : Int)
    (report : TranscriptQualityReport) : Prop where
  positive : 0 < durationMs
  covered : report.coveredMs = coveredMs (sweep (intervals (sortedBy segmentKey segments) durationMs)).union
  gap : report.maxGapMs = maxGapMs (sweep (intervals (sortedBy segmentKey segments) durationMs)).union durationMs
  coverage : quotient report.coveredMs durationMs = .ok report.coverageRatio
  overlap : quotient (sweep (intervals (sortedBy segmentKey segments) durationMs)).overlap durationMs = .ok report.overlapRatio
  preservation : preservationRatio (rawTokens (sortedBy segmentKey segments))
    (normalizedTokens (sortedBy segmentKey segments)) = .ok report.numericPreservationRatio
  status : report.qualityStatus = statusOf (reasonsOf (sortedBy segmentKey segments) durationMs
    (isMonotonic segments (sortedBy segmentKey segments)) report.coverageRatio report.numericPreservationRatio)

theorem reported_of_evaluate {segments : List (TranscriptCandidateSegment tables)} {durationMs : Int} {language : String}
    {report : TranscriptQualityReport} (h : evaluate segments durationMs language = .ok report) :
    Reported segments durationMs report := by
  obtain ⟨hpositive, h⟩ := then_eq_ok.mp h
  obtain ⟨preservation, hpreservation, h⟩ := bind_eq_ok.mp h
  obtain ⟨coverage, hcoverage, h⟩ := bind_eq_ok.mp h
  obtain ⟨overlap, hoverlap, h⟩ := bind_eq_ok.mp h
  obtain ⟨mix, _, h⟩ := bind_eq_ok.mp h
  cases h
  exact {
    positive := of_decide_eq_true (require_eq_ok.mp hpositive)
    covered := rfl
    gap := rfl
    coverage := hcoverage
    overlap := hoverlap
    preservation := hpreservation
    status := rfl }

/-- Nothing speaks against a transcript that passes. -/
theorem statusOf_eq_pass {reasons : List String} : statusOf reasons = .pass ↔ reasons = [] := by
  unfold statusOf
  split
  · exact iff_of_true rfl ‹_›
  · split <;> exact iff_of_false TranscriptQualityStatus.noConfusion ‹_›

end Evaluate
end StockContent.Transcript
