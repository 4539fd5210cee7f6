import Mathlib.Data.List.Lex
import Mathlib.Data.Prod.Lex
import StockContent.Sampling.EvidenceWindow

/-! Requests for frames: which moments of the media are looked at for the evidence windows. -/
namespace StockContent.Sampling
open Storage Text Knowledge

inductive ExtractionReason where
  | knowledgeCenter
  | highSignal
  | knowledgeNearby
  deriving DecidableEq

namespace ExtractionReason

def text : ExtractionReason → String
  | .knowledgeCenter => "KNOWLEDGE_CENTER"
  | .highSignal => "HIGH_SIGNAL"
  | .knowledgeNearby => "KNOWLEDGE_NEARBY"

def priority : ExtractionReason → Nat
  | .knowledgeCenter => 0
  | .highSignal => 1
  | .knowledgeNearby => 2

def mandatory (reason : ExtractionReason) : Bool := reason ≠ .knowledgeNearby

theorem priority_inj {reason reason' : ExtractionReason} (h : reason.priority = reason'.priority) : reason = reason' := by
  cases reason <;> cases reason' <;> first | rfl | cases h

theorem mandatory_iff {reason : ExtractionReason} : reason.mandatory = true ↔ reason.priority ≤ 1 := by
  cases reason <;> decide

end ExtractionReason

structure KnowledgeFrameRequest where
  timestampMs : Int
  extractionReason : ExtractionReason
  semanticSegmentIds : List String
  evidenceWindowIds : List String
  plannerVersion : String
  deriving DecidableEq

/-- The offsets are one to three seconds, on either side. -/
def isOffset (value : Int) : Bool := [1000, 2000, 3000].contains (value.natAbs : Int)

/-- What the constructor checks are fields. -/
structure KnowledgeFramePlanner where
  nearbyOffsetsMs : List Int := [-1000, 1000]
  highSignalOffsetsMs : List Int := [-3000, -2000, -1000, 1000, 2000, 3000]
  maxFramesPerWindow : Nat := 7
  maxFramesPerMedia : Nat := 120
  plannerVersion : String := "knowledge-frame-plan.v3"
  nearby_ne : nearbyOffsetsMs ≠ []
  nearby_offsets : nearbyOffsetsMs.all isOffset = true
  high_offsets : highSignalOffsetsMs.all isOffset = true
  window_pos : 1 ≤ maxFramesPerWindow
  media_pos : 1 ≤ maxFramesPerMedia
  version_ne : plannerVersion ≠ ""

section Window
variable (digest : Json → String) (planner : KnowledgeFramePlanner) (durationMs : Int) (window : KnowledgeEvidenceWindow)

def stringList (values : List String) : Json := .arr (values.map .str)

def intList (values : List Int) : Json := .arr (values.map .int)

def evidenceWindowPayload : Json := .obj [
  ("semantic_segment_id", .str window.semanticSegmentId),
  ("start_ms", .int window.startMs),
  ("end_ms", .int window.endMs),
  ("center_ms", .int window.centerMs),
  ("transcript_segment_ids", stringList window.transcriptSegmentIds),
  ("transcript_anchor_ms", intList window.transcriptAnchorMs),
  ("high_signals", .arr (window.highSignals.map fun item => .arr
    [.str item.kind, .str item.reason, stringList item.transcriptSegmentIds, intList item.anchorMs])),
  ("planner_version", .str window.plannerVersion),
  ("knowledge_identity", .str window.knowledgeIdentity),
  ("sampling_strategy", .str window.samplingStrategy)]

def evidenceWindowId : String := "kew_" ++ String.ofList ((digest (evidenceWindowPayload window)).toList.take 57)

def anchors : List Int := if window.transcriptAnchorMs = [] then [window.centerMs] else window.transcriptAnchorMs

def phasesOnly : Bool := window.samplingStrategy = "THESIS_PHASES"

/-- The moments around each cue, and the moments of the cues themselves. -/
def highSignalMoments : List Int :=
  window.highSignals.flatMap fun signal =>
    (if signal.anchorMs = [] then anchors window else signal.anchorMs).flatMap fun anchor =>
      (0 :: sortedIndices planner.highSignalOffsetsMs).map (anchor + ·)

def nearbyMoments : List Int :=
  (anchors window).flatMap fun anchor => (sortedIndices planner.nearbyOffsetsMs).map (anchor + ·)

/-- What a window asks for, before its times are clamped. A thesis is seen once for each phase. -/
def moments : List (Int × ExtractionReason) :=
  (anchors window).map (·, .knowledgeCenter) ++
    if phasesOnly window then []
    else if window.highSignals ≠ [] then (highSignalMoments planner window).map (·, .highSignal)
    else (nearbyMoments planner window).map (·, .knowledgeNearby)

def localKey (item : Int × ExtractionReason) : Nat ×ₗ Int ×ₗ String :=
  toLex (item.2.priority, toLex (item.1, item.2.text))

/-- The requests of one window: all mandatory ones, and nearby ones as far as its budget goes. -/
def localRequests : List (Int × ExtractionReason) :=
  let clamped := (moments planner window).map fun item => (clamp item.1 durationMs, item.2)
  let sorted := sortedBy localKey clamped.dedup
  let mandatory := sorted.filter fun item => item.2.mandatory
  let ordinary := sorted.filter fun item => !item.2.mandatory
  mandatory ++ ordinary.take (planner.maxFramesPerWindow - mandatory.length)

structure Candidate where
  timestampMs : Int
  reason : ExtractionReason
  semanticSegmentId : String
  windowId : String
  deriving DecidableEq

def candidatesOf : List Candidate :=
  (localRequests planner durationMs window).map fun item =>
    ⟨item.1, item.2, window.semanticSegmentId, evidenceWindowId digest window⟩

end Window

section Merge
variable (version : String) (candidates : List Candidate)

def candidateKey (item : Candidate) : Nat ×ₗ String ×ₗ String ×ₗ String :=
  toLex (item.reason.priority, toLex (item.reason.text, toLex (item.semanticSegmentId, item.windowId)))

/-- The best reason at a moment, and all segments and windows that ask for it. -/
def frameAt (timestamp : Int) : KnowledgeFrameRequest :=
  let values := sortedBy candidateKey (candidates.filter (·.timestampMs = timestamp))
  { timestampMs := timestamp
    extractionReason := (values.head?.map Candidate.reason).getD .knowledgeCenter
    semanticSegmentIds := sortedSet (values.map Candidate.semanticSegmentId)
    evidenceWindowIds := sortedSet (values.map Candidate.windowId)
    plannerVersion := version }

def mergedFrames : List KnowledgeFrameRequest :=
  (sortedIndices (candidates.map Candidate.timestampMs)).map (frameAt version candidates)

end Merge

section Plan
variable (digest : Json → String) (planner : KnowledgeFramePlanner)

def windowOrderKey (item : KnowledgeEvidenceWindow) : Int ×ₗ Int ×ₗ String :=
  toLex (item.startMs, toLex (item.endMs, item.semanticSegmentId))

def highSignalWindowIds (windows : List KnowledgeEvidenceWindow) : List String :=
  (windows.filter fun window => window.highSignals ≠ []).map (evidenceWindowId digest)

def isMandatory (highIds : List String) (item : KnowledgeFrameRequest) : Bool :=
  item.extractionReason.mandatory || item.evidenceWindowIds.any highIds.contains

def ordinaryKey (item : KnowledgeFrameRequest) : Nat ×ₗ Int ×ₗ List String :=
  toLex (item.extractionReason.priority, toLex (item.timestampMs, item.semanticSegmentIds))

def outputKey (item : KnowledgeFrameRequest) : Int ×ₗ String := toLex (item.timestampMs, item.extractionReason.text)

/-- All mandatory frames, and ordinary ones as far as the budget of the media goes, in chronological order. -/
def selectFrames (highIds : List String) (output : List KnowledgeFrameRequest) : List KnowledgeFrameRequest :=
  let mandatory := output.filter (isMandatory highIds)
  let ordinary := output.filter fun item => !mandatory.contains item
  sortedBy outputKey
    (mandatory ++ (sortedBy ordinaryKey ordinary).take (planner.maxFramesPerMedia - mandatory.length))

def planFrames (windows : List KnowledgeEvidenceWindow) (mediaDurationMs : Int) :
    Except ValueError (List KnowledgeFrameRequest) := do
  require ⟨"media_duration_ms must be non-negative"⟩ (0 ≤ mediaDurationMs)
  let ordered := sortedBy windowOrderKey windows
  let candidates := ordered.flatMap (candidatesOf digest planner mediaDurationMs)
  return selectFrames planner (highSignalWindowIds digest ordered) (mergedFrames planner.plannerVersion candidates)

end Plan

section Local
variable {digest : Json → String} {planner : KnowledgeFramePlanner} {durationMs : Int} {window : KnowledgeEvidenceWindow}

theorem mem_localRequests_of_mandatory {moment : Int} {reason : ExtractionReason} (h : (moment, reason) ∈ moments planner window)
    (hreason : reason.mandatory = true) : (clamp moment durationMs, reason) ∈ localRequests planner durationMs window := by
  refine List.mem_append_left _ (List.mem_filter.mpr ⟨mem_sortedBy.mpr (List.mem_dedup.mpr ?_), hreason⟩)
  exact List.mem_map_of_mem (f := fun item : Int × ExtractionReason => (clamp item.1 durationMs, item.2)) h

/-- Every request is for a clamped moment of the window. -/
theorem localRequests_clamped {item : Int × ExtractionReason} (h : item ∈ localRequests planner durationMs window) :
    ∃ moment, item.1 = clamp moment durationMs := by
  have hsorted : item ∈ sortedBy localKey
      ((moments planner window).map fun item => (clamp item.1 durationMs, item.2)).dedup := by
    rcases List.mem_append.mp h with hmandatory | hordinary
    · exact (List.mem_filter.mp hmandatory).1
    · exact (List.mem_filter.mp (List.mem_of_mem_take hordinary)).1
  obtain ⟨moment, -, rfl⟩ := List.mem_map.mp (List.mem_dedup.mp (mem_sortedBy.mp hsorted))
  exact ⟨moment.1, rfl⟩

theorem mem_candidatesOf {item : Candidate} : item ∈ candidatesOf digest planner durationMs window ↔
    (item.timestampMs, item.reason) ∈ localRequests planner durationMs window ∧
      item.semanticSegmentId = window.semanticSegmentId ∧ item.windowId = evidenceWindowId digest window := by
  rw [candidatesOf, List.mem_map]
  constructor
  · rintro ⟨request, hrequest, rfl⟩
    exact ⟨hrequest, rfl, rfl⟩
  · obtain ⟨timestamp, reason, semanticId, windowId⟩ := item
    rintro ⟨hrequest, rfl, rfl⟩
    exact ⟨(timestamp, reason), hrequest, rfl⟩

end Local

section Merged
variable {version : String} {candidates others : List Candidate} {timestamp : Int} {item : Candidate}

theorem sortedIndices_congr {xs ys : List Int} (h : ∀ i, i ∈ xs ↔ i ∈ ys) : sortedIndices xs = sortedIndices ys := by
  have hdedup : xs.dedup.Perm ys.dedup := by
    rw [List.perm_ext_iff_of_nodup xs.nodup_dedup ys.nodup_dedup]
    intro i
    rw [List.mem_dedup, List.mem_dedup, h]
  have hperm : (sortedIndices xs).Perm (sortedIndices ys) :=
    (List.perm_insertionSort _ _).trans (hdedup.trans (List.perm_insertionSort _ _).symm)
  exact hperm.eq_of_pairwise' (List.pairwise_insertionSort _ _) (List.pairwise_insertionSort _ _)

theorem sortedIndices_lt (xs : List Int) : (sortedIndices xs).Pairwise (· < ·) := by
  have hnodup : (sortedIndices xs).Nodup := (List.perm_insertionSort _ _).nodup_iff.mpr xs.nodup_dedup
  exact ((List.pairwise_insertionSort _ _).and hnodup).imp fun h => lt_of_le_of_ne h.1 h.2

theorem mem_mergedFrames {frame : KnowledgeFrameRequest} : frame ∈ mergedFrames version candidates ↔
    ∃ item ∈ candidates, frame = frameAt version candidates item.timestampMs := by
  rw [mergedFrames, List.mem_map]
  constructor
  · rintro ⟨timestamp, htimestamp, rfl⟩
    obtain ⟨item, hitem, rfl⟩ := List.mem_map.mp (mem_sortedIndices.mp htimestamp)
    exact ⟨item, hitem, rfl⟩
  · rintro ⟨item, hitem, rfl⟩
    exact ⟨_, mem_sortedIndices.mpr (List.mem_map_of_mem hitem), rfl⟩

theorem mergedFrames_sorted (version : String) (candidates : List Candidate) :
    (mergedFrames version candidates).Pairwise fun a b => a.timestampMs < b.timestampMs :=
  List.pairwise_map.mpr (sortedIndices_lt _)

/-- The reason of a frame is the best one of its candidates. -/
theorem frameAt_reason (hitem : item ∈ candidates) (h : item.timestampMs = timestamp) :
    ∃ best ∈ candidates, best.timestampMs = timestamp ∧ (frameAt version candidates timestamp).extractionReason = best.reason ∧
      ∀ other ∈ candidates, other.timestampMs = timestamp → candidateKey best ≤ candidateKey other := by
  have hmem : item ∈ sortedBy candidateKey (candidates.filter (·.timestampMs = timestamp)) :=
    mem_sortedBy.mpr (List.mem_filter.mpr ⟨hitem, decide_eq_true h⟩)
  have hsorted := pairwise_sortedBy candidateKey (candidates.filter (·.timestampMs = timestamp))
  cases hvalues : sortedBy candidateKey (candidates.filter (·.timestampMs = timestamp)) with
  | nil =>
    rw [hvalues] at hmem
    cases hmem
  | cons best rest =>
    have hbest : best ∈ sortedBy candidateKey (candidates.filter (·.timestampMs = timestamp)) := by
      rw [hvalues]
      exact List.mem_cons_self
    obtain ⟨hbestmem, hbesttime⟩ := List.mem_filter.mp (mem_sortedBy.mp hbest)
    refine ⟨best, hbestmem, of_decide_eq_true hbesttime, ?_, ?_⟩
    · simp only [frameAt, hvalues, List.head?_cons, Option.map_some, Option.getD_some]
    · intro other hother htime
      have hothermem : other ∈ sortedBy candidateKey (candidates.filter (·.timestampMs = timestamp)) :=
        mem_sortedBy.mpr (List.mem_filter.mpr ⟨hother, decide_eq_true htime⟩)
      rw [hvalues] at hothermem hsorted
      rcases List.mem_cons.mp hothermem with rfl | hrest
      · exact le_rfl
      · exact (List.pairwise_cons.mp hsorted).1 other hrest

theorem priority_le_of_key {best other : Candidate} (h : candidateKey best ≤ candidateKey other) :
    best.reason.priority ≤ other.reason.priority :=
  Prod.Lex.monotone_fst _ _ h

theorem mem_evidenceWindowIds {windowId : String} : windowId ∈ (frameAt version candidates timestamp).evidenceWindowIds ↔
    ∃ item ∈ candidates, item.timestampMs = timestamp ∧ item.windowId = windowId := by
  simp [frameAt, mem_sortedSet, and_assoc]

/-- A mandatory candidate makes its frame mandatory. -/
theorem frameAt_mandatory (hitem : item ∈ candidates) (hreason : item.reason.mandatory = true) :
    (frameAt version candidates item.timestampMs).extractionReason.mandatory = true := by
  obtain ⟨best, -, -, hbest, hleast⟩ := @frameAt_reason version _ _ _ hitem rfl
  rw [hbest, ExtractionReason.mandatory_iff]
  exact (priority_le_of_key (hleast item hitem rfl)).trans (ExtractionReason.mandatory_iff.mp hreason)

/-- Frames depend on which candidates there are, not on their order. -/
theorem mergedFrames_congr (h : ∀ item, item ∈ candidates ↔ item ∈ others) :
    mergedFrames version candidates = mergedFrames version others := by
  have htimes : sortedIndices (candidates.map Candidate.timestampMs) = sortedIndices (others.map Candidate.timestampMs) := by
    refine sortedIndices_congr fun i => ?_
    simp only [List.mem_map, h]
  rw [mergedFrames, mergedFrames, htimes]
  refine List.map_congr_left fun timestamp htimestamp => ?_
  obtain ⟨item, hitem, rfl⟩ := List.mem_map.mp (mem_sortedIndices.mp htimestamp)
  have hreason : (frameAt version candidates item.timestampMs).extractionReason =
      (frameAt version others item.timestampMs).extractionReason := by
    obtain ⟨best, hbest, htime, hreason, hleast⟩ := @frameAt_reason version _ _ _ ((h item).mpr hitem) rfl
    obtain ⟨best', hbest', htime', hreason', hleast'⟩ := @frameAt_reason version _ _ _ hitem rfl
    rw [hreason, hreason']
    refine ExtractionReason.priority_inj (le_antisymm ?_ ?_)
    · exact priority_le_of_key (hleast best' ((h best').mpr hbest') htime')
    · exact priority_le_of_key (hleast' best ((h best).mp hbest) htime)
  have hset (field : Candidate → String) :
      sortedSet ((sortedBy candidateKey (candidates.filter (·.timestampMs = item.timestampMs))).map field) =
        sortedSet ((sortedBy candidateKey (others.filter (·.timestampMs = item.timestampMs))).map field) := by
    refine sortedSet_congr fun value => ?_
    simp only [List.mem_map, mem_sortedBy, List.mem_filter, h]
  simp only [frameAt, KnowledgeFrameRequest.mk.injEq, true_and, and_true]
  exact ⟨hreason, hset _, hset _⟩

end Merged
end StockContent.Sampling
