import StockContent.Sampling.EvidenceWindow

/-! Which windows lie in the media and around their center. -/
namespace StockContent.Sampling
open Storage Text Knowledge

section Spans
variable {padding duration spokenStart spokenEnd value : Int}

def Span.WellFormed (span : Span) (duration : Int) : Prop :=
  0 ≤ span.startMs ∧ span.startMs ≤ span.centerMs ∧ span.centerMs ≤ span.endMs ∧ span.endMs ≤ duration

/-- `0 ≤ start ≤ center ≤ end ≤ duration`. -/
def KnowledgeEvidenceWindow.WellFormed (window : KnowledgeEvidenceWindow) (duration : Int) : Prop :=
  0 ≤ window.startMs ∧ window.startMs ≤ window.centerMs ∧ window.centerMs ≤ window.endMs ∧ window.endMs ≤ duration

theorem clamp_bounds (value : Int) (h : 0 ≤ duration) : 0 ≤ clamp value duration ∧ clamp value duration ≤ duration := by
  rw [clamp]
  omega

/-- Clamped times make a window exactly if the start is at most two paddings behind the end. -/
theorem paddedSpan_wellFormed_iff (hpadding : 0 ≤ padding) :
    (paddedSpan padding duration (clamp spokenStart duration) (clamp spokenEnd duration)).WellFormed duration ↔
      0 ≤ duration ∧ clamp spokenStart duration - clamp spokenEnd duration ≤ 2 * padding := by
  by_cases h : 0 ≤ duration
  · obtain ⟨hstart₀, hstart₁⟩ := clamp_bounds spokenStart h
    obtain ⟨hend₀, hend₁⟩ := clamp_bounds spokenEnd h
    generalize clamp spokenStart duration = first at *
    generalize clamp spokenEnd duration = last at *
    simp only [Span.WellFormed, paddedSpan, clamp]
    omega
  · simp only [Span.WellFormed, paddedSpan, clamp]
    omega

end Spans

section Segments
variable {planner : EvidenceWindowPlanner} {tables : CharTables} {rows : List TranscriptSegmentItem}
  {mediaDurationMs : Option Int} {segments : List SemanticSegment} {windows : List KnowledgeEvidenceWindow} {duration : Int}

theorem segmentSpan_wellFormed_iff (semantic : SemanticSegment) :
    (segmentSpan planner duration semantic).WellFormed duration ↔ 0 ≤ duration := by
  have hpadding := planner.padding_nonneg
  rw [segmentSpan]
  split
  · rw [paddedSpan_wellFormed_iff hpadding]
    omega
  · rw [paddedSpan_wellFormed_iff hpadding]
    omega

/-- The planned windows of segments are those of the kept ones. -/
theorem mem_plan (h : plan planner tables rows mediaDurationMs segments = .ok windows) {window : KnowledgeEvidenceWindow} :
    window ∈ windows ↔ ∃ semantic ∈ firstOfEach SemanticSegment.semanticSegmentId [] (sortedBy segmentKey segments),
      segmentWindow planner tables rows (durationOf rows mediaDurationMs) semantic = window := by
  obtain ⟨-, h⟩ := then_eq_ok.mp h
  obtain rfl := Except.ok.inj h
  rw [mem_sortedBy, List.mem_map]

theorem plan_wellFormed_iff (h : plan planner tables rows mediaDurationMs segments = .ok windows) :
    (∀ window ∈ windows, window.WellFormed (durationOf rows mediaDurationMs)) ↔
      (segments ≠ [] → 0 ≤ durationOf rows mediaDurationMs) := by
  constructor
  · intro hall hne
    obtain ⟨semantic, hsemantic⟩ := List.exists_mem_of_ne_nil segments hne
    have hsorted := (perm_sortedBy segmentKey _).mem_iff.mpr hsemantic
    have hid := List.mem_map_of_mem (f := SemanticSegment.semanticSegmentId) hsorted
    obtain ⟨kept, hkept, -⟩ := List.mem_map.mp (mem_keys_firstOfEach.mpr ⟨hid, List.not_mem_nil⟩)
    have hwindow := hall _ ((mem_plan h).mpr ⟨kept, hkept, rfl⟩)
    exact (segmentSpan_wellFormed_iff kept).mp hwindow
  · intro hduration window hwindow
    obtain ⟨semantic, hsemantic, rfl⟩ := (mem_plan h).mp hwindow
    have hmem := mem_sortedBy.mp ((firstOfEach_sublist [] _).subset hsemantic)
    exact (segmentSpan_wellFormed_iff semantic).mpr (hduration (List.ne_nil_of_mem hmem))

end Segments

section Drafts
variable {planner : EvidenceWindowPlanner} {runtime : DraftRuntime} {rows : List TranscriptSegmentItem}
  {mediaDurationMs : Option Int} {drafts : List ClaimOccurrenceDraft} {windows : List KnowledgeEvidenceWindow} {duration : Int}

/-- The earliest start and the latest end of the rows that a draft cites, both in the media. -/
def spokenStart (runtime : DraftRuntime) (rows : List TranscriptSegmentItem) (duration : Int) (draft : ClaimOccurrenceDraft) : Int :=
  clamp (((selectedFor runtime rows draft).map TranscriptSegmentItem.startMs).min?.getD 0) duration

def spokenEnd (runtime : DraftRuntime) (rows : List TranscriptSegmentItem) (duration : Int) (draft : ClaimOccurrenceDraft) : Int :=
  clamp (((selectedFor runtime rows draft).map TranscriptSegmentItem.endMs).max?.getD 0) duration

/-- The drafts whose windows are kept: the first one of each identity. -/
def keptDrafts (runtime : DraftRuntime) (rows : List TranscriptSegmentItem) (drafts : List ClaimOccurrenceDraft) :
    List ClaimOccurrenceDraft :=
  firstOfEach (knowledgeIdentity runtime rows) [] (drafts.filter (plannable runtime rows))

theorem draftWindow_wellFormed_iff (draft : ClaimOccurrenceDraft) (anchors : List Int) :
    (draftWindow planner runtime rows duration draft anchors).WellFormed duration ↔
      0 ≤ duration ∧ spokenStart runtime rows duration draft - spokenEnd runtime rows duration draft ≤
        2 * planner.paddingMs :=
  paddedSpan_wellFormed_iff planner.padding_nonneg

theorem windowOf_eq_ok {draft : ClaimOccurrenceDraft} {window : KnowledgeEvidenceWindow}
    (h : windowOf planner runtime rows duration draft = .ok window) :
    ∃ anchors, phaseAnchors runtime rows draft = .ok anchors ∧
      window = draftWindow planner runtime rows duration draft anchors := by
  obtain ⟨anchors, hanchors, h⟩ := bind_eq_ok.mp h
  exact ⟨anchors, hanchors, (Except.ok.inj h).symm⟩

/-- The window of a draft, with no anchors where its phases are refused. -/
def windowFor (planner : EvidenceWindowPlanner) (runtime : DraftRuntime) (rows : List TranscriptSegmentItem)
    (duration : Int) (draft : ClaimOccurrenceDraft) : KnowledgeEvidenceWindow :=
  draftWindow planner runtime rows duration draft ((phaseAnchors runtime rows draft).toOption.getD [])

theorem windowOf_eq_ok_iff {draft : ClaimOccurrenceDraft} {window : KnowledgeEvidenceWindow} :
    windowOf planner runtime rows duration draft = .ok window ↔
      window = windowFor planner runtime rows duration draft ∧ ∃ anchors, phaseAnchors runtime rows draft = .ok anchors := by
  constructor
  · intro h
    obtain ⟨anchors, hanchors, rfl⟩ := windowOf_eq_ok h
    refine ⟨?_, anchors, hanchors⟩
    rw [windowFor, hanchors]
    rfl
  · rintro ⟨rfl, anchors, hanchors⟩
    rw [windowOf, windowFor, hanchors]
    rfl

theorem windows_eq_ok : drafts.mapM (windowOf planner runtime rows duration) = .ok windows ↔
    windows = drafts.map (windowFor planner runtime rows duration) ∧
      ∀ draft ∈ drafts, ∃ anchors, phaseAnchors runtime rows draft = .ok anchors :=
  mapM_eq_ok fun _ _ _ => windowOf_eq_ok_iff

/-- Drafts are planned exactly if the phases of each thesis can be read. -/
theorem planClaimDrafts_eq_ok : planClaimDrafts planner runtime rows mediaDurationMs drafts = .ok windows ↔
    (checkDuration mediaDurationMs = .ok () ∧
      ∀ draft ∈ drafts.filter (plannable runtime rows), ∃ anchors, phaseAnchors runtime rows draft = .ok anchors) ∧
    windows = sortedBy (windowKey KnowledgeEvidenceWindow.knowledgeIdentity)
      ((keptDrafts runtime rows drafts).map (windowFor planner runtime rows (durationOf rows mediaDurationMs))) := by
  rw [planClaimDrafts, then_eq_ok, bind_eq_ok, and_assoc]
  refine and_congr_right fun _ => ?_
  constructor
  · rintro ⟨read, hread, h⟩
    obtain ⟨rfl, hall⟩ := windows_eq_ok.mp hread
    obtain rfl := Except.ok.inj h
    refine ⟨hall, ?_⟩
    rw [firstOfEach_map]
    rfl
  · rintro ⟨hall, rfl⟩
    refine ⟨_, windows_eq_ok.mpr ⟨rfl, hall⟩, ?_⟩
    rw [firstOfEach_map]
    rfl

theorem planClaimDrafts_wellFormed_iff (h : planClaimDrafts planner runtime rows mediaDurationMs drafts = .ok windows) :
    (∀ window ∈ windows, window.WellFormed (durationOf rows mediaDurationMs)) ↔
      ∀ draft ∈ keptDrafts runtime rows drafts, 0 ≤ durationOf rows mediaDurationMs ∧
        spokenStart runtime rows (durationOf rows mediaDurationMs) draft -
          spokenEnd runtime rows (durationOf rows mediaDurationMs) draft ≤ 2 * planner.paddingMs := by
  obtain ⟨-, rfl⟩ := planClaimDrafts_eq_ok.mp h
  simp only [mem_sortedBy, List.forall_mem_map, windowFor, draftWindow_wellFormed_iff]

end Drafts

/-- Every planned window is well-formed exactly if the duration is not negative and no draft cites rows that end more
than two paddings before they start. -/
theorem windows_wellFormed_iff (planner : EvidenceWindowPlanner) (runtime : DraftRuntime) (rows : List TranscriptSegmentItem)
    (mediaDurationMs : Option Int) (segments : List SemanticSegment) (drafts : List ClaimOccurrenceDraft) :
    (∀ windows, plan planner runtime.tables rows mediaDurationMs segments = .ok windows →
      ((∀ window ∈ windows, window.WellFormed (durationOf rows mediaDurationMs)) ↔
        (segments ≠ [] → 0 ≤ durationOf rows mediaDurationMs))) ∧
    ∀ windows, planClaimDrafts planner runtime rows mediaDurationMs drafts = .ok windows →
      ((∀ window ∈ windows, window.WellFormed (durationOf rows mediaDurationMs)) ↔
        ∀ draft ∈ keptDrafts runtime rows drafts, 0 ≤ durationOf rows mediaDurationMs ∧
          spokenStart runtime rows (durationOf rows mediaDurationMs) draft -
            spokenEnd runtime rows (durationOf rows mediaDurationMs) draft ≤ 2 * planner.paddingMs) :=
  ⟨fun _ => plan_wellFormed_iff, fun _ => planClaimDrafts_wellFormed_iff⟩

def defaultPlanner : EvidenceWindowPlanner where
  padding_nonneg := by decide
  version_ne := by decide

/-- A row that ends four seconds before it starts. -/
def invertedRow : TranscriptSegmentItem where
  segmentId := "row"
  segmentIndex := 0
  startMs := 5000
  endMs := 1000

def citingDraft : ClaimOccurrenceDraft where
  semanticSegmentId := "semantic"
  knowledgeKind := "CLAIM"
  claimType := "OPINION"
  evidenceSegmentIndices := [0]

def spokenRow : TranscriptSegmentItem := { invertedRow with startMs := 1000, endMs := 5000 }

def spokenSegment : SemanticSegment where
  semanticSegmentId := "semantic"
  startSegmentIndex := 0
  endSegmentIndex := 0
  startMs := 1000
  endMs := 5000

theorem spoken_windows_wellFormed :
    ∃ windows windows', plan defaultPlanner plainTables [spokenRow] (some 10000) [spokenSegment] = .ok windows ∧
      planClaimDrafts defaultPlanner plainDraftRuntime [spokenRow] (some 10000) [citingDraft] = .ok windows' ∧
      ∀ window ∈ windows ++ windows', window.WellFormed (durationOf [spokenRow] (some 10000)) := by
  obtain ⟨hsegments, hdrafts⟩ :=
    windows_wellFormed_iff defaultPlanner plainDraftRuntime [spokenRow] (some 10000) [spokenSegment] [citingDraft]
  refine ⟨_, _, rfl, rfl, List.forall_mem_append.mpr ⟨?_, ?_⟩⟩
  · exact (hsegments _ rfl).mpr (by decide)
  · exact (hdrafts _ rfl).mpr (by decide)

/-- Only the plan for segments guards against times in the wrong order. -/
theorem inverted_draft_window :
    ∃ windows, planClaimDrafts defaultPlanner plainDraftRuntime [invertedRow] (some 10000) [citingDraft] = .ok windows ∧
      ∃ window ∈ windows, ¬window.WellFormed (durationOf [invertedRow] (some 10000)) := by
  refine ⟨_, rfl, _, List.mem_cons_self, ?_⟩
  rintro ⟨-, hstart, -, -⟩
  exact absurd hstart (by decide)

end StockContent.Sampling
