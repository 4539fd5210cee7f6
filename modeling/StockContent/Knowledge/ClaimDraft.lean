import Mathlib.Data.List.Dedup
import Mathlib.Data.List.Sort
import StockContent.Storage.Json
import StockContent.Storage.Machine
import StockContent.Text.Strip

/-! What extraction hands on: the rows of a transcript, semantic segments over them, and drafts of claims. -/
namespace StockContent.Knowledge
open Storage

structure ValueError where
  message : String
  deriving DecidableEq

/-- What reading a draft takes from the language and from the hash. -/
structure DraftRuntime where
  tables : Text.CharTables
  str : Json → String
  /-- `int` of values that are no integers. -/
  int : Json → Except ValueError Int
  casefold : String → String
  digest : Json → String

def DraftRuntime.toInt (runtime : DraftRuntime) : Json → Except ValueError Int
  | .int n => .ok n
  | v => runtime.int v

/-- A runtime that knows ASCII only. -/
def plainTables : Text.CharTables where
  isDecimal := Char.isDigit
  isSpace c := c = ' '
  upper c := [c.toUpper]
  letters := Text.letter_ne_blank

def plainDraftRuntime : DraftRuntime where
  tables := plainTables
  str _ := ""
  int _ := .error ⟨"int() argument must be a number"⟩
  casefold text := text
  digest _ := "0"

/-- The milliseconds are those the item derives from its seconds. -/
structure TranscriptSegmentItem where
  segmentId : String
  segmentIndex : Int
  startMs : Int
  endMs : Int
  text : String := ""
  rawText : Option String := none
  normalizedText : Option String := none
  deriving DecidableEq

structure SemanticSegment where
  semanticSegmentId : String
  startSegmentIndex : Int
  endSegmentIndex : Int
  startMs : Int
  endMs : Int
  deriving DecidableEq

structure ClaimOccurrenceDraft where
  semanticSegmentId : String
  knowledgeKind : String
  claimType : String
  subjectType : Option String := none
  subjectKey : String := ""
  subjectName : Option String := none
  predicateKey : String := ""
  conclusion : String := ""
  sentiment : String := "NEUTRAL"
  evidenceSegmentIndices : List Int := []
  extractionConfidence : Rat := 0
  extractionModelId : String := ""
  extractionPromptVersion : String := ""
  bundleV2 : List (String × Json) := []
  verbatimQuote : Option String := none
  normalizedStatement : Option String := none
  deriving DecidableEq

/-- `a or b or …`: the first text that is not empty. -/
def firstText (texts : List (Option String)) : String := ((texts.filterMap id).find? (· ≠ "")).getD ""

def ClaimOccurrenceDraft.statement (draft : ClaimOccurrenceDraft) : String :=
  firstText [draft.normalizedStatement, some draft.conclusion]

section Indices

def segmentIndices (rows : List TranscriptSegmentItem) : List Int := rows.map TranscriptSegmentItem.segmentIndex

def semanticRange (segment : SemanticSegment) : List Int :=
  (List.range (segment.endSegmentIndex + 1 - segment.startSegmentIndex).toNat).map fun i : Nat =>
    segment.startSegmentIndex + (i : Int)

theorem mem_semanticRange {segment : SemanticSegment} {i : Int} :
    i ∈ semanticRange segment ↔ segment.startSegmentIndex ≤ i ∧ i ≤ segment.endSegmentIndex := by
  rw [semanticRange, List.mem_map]
  constructor
  · rintro ⟨n, hn, rfl⟩
    have hbound := List.mem_range.mp hn
    omega
  · rintro ⟨hstart, hend⟩
    refine ⟨(i - segment.startSegmentIndex).toNat, List.mem_range.mpr ?_, ?_⟩
    · omega
    · omega

/-- `sorted(set(values))`. -/
def sortedIndices (values : List Int) : List Int := values.dedup.insertionSort (· ≤ ·)

def between (first last : Int) (values : List Int) : List Int := values.filter fun i => first ≤ i && i ≤ last

@[simp] theorem mem_sortedIndices {values : List Int} {i : Int} : i ∈ sortedIndices values ↔ i ∈ values := by
  rw [sortedIndices, List.mem_insertionSort, List.mem_dedup]

@[simp] theorem mem_between {first last i : Int} {values : List Int} :
    i ∈ between first last values ↔ i ∈ values ∧ first ≤ i ∧ i ≤ last := by
  rw [between, List.mem_filter, Bool.and_eq_true_iff, decide_eq_true_iff, decide_eq_true_iff]

/-- What `for value in values` goes through; `None` and other values are not iterable. -/
def iterate : Json → Except ValueError (List Json)
  | .arr items => .ok items
  | .obj fields => .ok (fields.map fun f => .str f.1)
  | .str s => .ok (s.toList.map fun c => .str (String.ofList [c]))
  | _ => .error ⟨"object is not iterable"⟩

end Indices
end StockContent.Knowledge
