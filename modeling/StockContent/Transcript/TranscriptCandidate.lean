import Mathlib.Data.Prod.Lex
import Mathlib.Data.String.Basic
import StockContent.Numeric.Binary64
import StockContent.Storage.Machine
import StockContent.Storage.ByKey
import StockContent.Text.Strip

/-! Candidates for the transcript of a video: subtitles that were made by hand, subtitles and speech that were
recognised. A segment and a candidate exist only if their own checks accept them. -/
namespace StockContent.Transcript
open Storage Text Numeric

/-- Characters, and the small letters of a text. -/
structure TranscriptTables extends CharTables where
  lower : String → String

inductive TranscriptSource where
  | officialSubtitle
  | autoSubtitle
  | asr
  deriving DecidableEq

def TranscriptSource.value : TranscriptSource → String
  | officialSubtitle => "OFFICIAL_SUBTITLE"
  | autoSubtitle => "AUTO_SUBTITLE"
  | asr => "ASR"

inductive AlignmentStatus where
  | aligned
  | unaligned
  | unknown
  deriving DecidableEq

inductive TranscriptError where
  | valueError (message : String)
  | overflowError
  | zeroDivisionError
  deriving DecidableEq

structure SegmentFields where
  source : TranscriptSource
  sourceArtifactId : String
  startMs : Int
  endMs : Int
  rawText : String
  normalizedText : String
  confidence : Binary64
  alignmentStatus : AlignmentStatus := .aligned
  deriving DecidableEq

/-- Between 0 and 1; no infinity and no `nan` is. -/
def isConfidence (confidence : Binary64) : Bool := (Binary64.natural 0).le confidence && confidence.le (Binary64.natural 1)

def forbiddenMarkers : List String := ["signature=", "token=", "credential=", "cookie="]

section Segments
variable (tables : TranscriptTables)

/-- `TranscriptCandidateSegment.__post_init__`. -/
def checkSegment (fields : SegmentFields) : Except TranscriptError Unit := do
  require (.valueError "transcript segment requires source_artifact_id") (fields.sourceArtifactId ≠ "")
  require (.valueError "transcript segment has invalid duration") (0 ≤ fields.startMs && fields.startMs < fields.endMs)
  require (.valueError "transcript confidence must be finite and within [0, 1]") (isConfidence fields.confidence)
  require (.valueError "transcript segment text must not be empty")
    (strip tables.toCharTables fields.rawText ≠ "" && strip tables.toCharTables fields.normalizedText ≠ "")
  require (.valueError "transcript text must not contain credentials or signed locators")
    (!forbiddenMarkers.any fun marker =>
      isIn marker (tables.lower fields.rawText) || isIn marker (tables.lower fields.normalizedText))

structure TranscriptCandidateSegment extends SegmentFields where
  accepted : checkSegment tables toSegmentFields = .ok ()
  deriving DecidableEq

variable {tables} (item : TranscriptCandidateSegment tables)

theorem TranscriptCandidateSegment.times : 0 ≤ item.startMs ∧ item.startMs < item.endMs := by
  have htimes := (then_eq_ok.mp (then_eq_ok.mp item.accepted).2).1
  rwa [require_eq_ok, Bool.and_eq_true, decide_eq_true_eq, decide_eq_true_eq] at htimes

/-- In the order of time; texts and origins decide between segments of one time. -/
def segmentKey : Int ×ₗ Int ×ₗ String ×ₗ String ×ₗ String :=
  toLex (item.startMs, toLex (item.endMs, toLex (item.sourceArtifactId, toLex (item.rawText, item.normalizedText))))

end Segments

section Candidates
variable (tables : TranscriptTables)

/-- The candidate's own check: it has stable ids and a language. -/
def checkCandidate (candidateId sourceArtifactId language : String) : Except TranscriptError Unit := do
  require (.valueError "transcript candidate requires stable ids") (candidateId ≠ "" && sourceArtifactId ≠ "")
  require (.valueError "transcript candidate requires language") (language ≠ "")

structure TranscriptCandidate where
  candidateId : String
  source : TranscriptSource
  language : String
  sourceArtifactId : String
  segments : List (TranscriptCandidateSegment tables)
  accepted : checkCandidate candidateId sourceArtifactId language = .ok ()
  deriving DecidableEq

variable {tables} (candidate : TranscriptCandidate tables)

def TranscriptCandidate.isChinese : Bool :=
  "zh".toList.isPrefixOf ((tables.lower candidate.language).toList.map fun c => if c = '_' then '-' else c)

def TranscriptCandidate.orderedSegments : List (TranscriptCandidateSegment tables) :=
  sortedBy segmentKey candidate.segments

end Candidates

section Ascii

def asciiTables : TranscriptTables where
  isDecimal := Char.isDigit
  isSpace := fun c => c = ' '
  upper := fun c => [c.toUpper]
  letters := letter_ne_blank
  lower := fun text => String.ofList (text.toList.map Char.toLower)

/-- Recognised speech with full confidence. -/
def cueFields (startMs endMs : Int) (rawText normalizedText : String) : SegmentFields :=
  { source := .asr, sourceArtifactId := "speech", startMs, endMs, rawText, normalizedText,
    confidence := Binary64.natural 1 }

theorem isConfidence_one : isConfidence (Binary64.natural 1) = true := by decide +kernel

theorem cueFields_accepted {startMs endMs : Int} {rawText normalizedText : String}
    (htimes : (0 ≤ startMs && startMs < endMs) = true)
    (htexts : (strip asciiTables.toCharTables rawText ≠ "" && strip asciiTables.toCharTables normalizedText ≠ "") = true)
    (hmarkers : (!forbiddenMarkers.any fun marker =>
      isIn marker (asciiTables.lower rawText) || isIn marker (asciiTables.lower normalizedText)) = true) :
    checkSegment asciiTables (cueFields startMs endMs rawText normalizedText) = .ok () := by
  simp only [checkSegment, then_eq_ok, require_eq_ok]
  exact ⟨rfl, htimes, isConfidence_one, htexts, hmarkers⟩

end Ascii
end StockContent.Transcript
