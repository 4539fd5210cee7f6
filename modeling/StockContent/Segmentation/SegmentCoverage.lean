import StockContent.Segmentation.SemanticSegmenter

/-! Whatever a model answers, the segments that come back cover the transcript, each row once. -/
namespace StockContent.Segmentation
open Storage Storage.Procedure

/-- Segments that follow one another from the first row to the last. -/
structure Covers (rows : Nat) (segments : List SemanticSegment) : Prop where
  consecutive : Consecutive 0 (segments.map (·.range)) rows
  disjoint : segments.Pairwise fun earlier later => earlier.endSegmentIndex < later.startSegmentIndex
  ascending : (segments.map (·.endSegmentIndex)).Pairwise (· < ·)
  once : ∀ row < rows, ∃! k : Nat, ∃ segment, segments[k]? = some segment ∧
    segment.startSegmentIndex ≤ row ∧ row ≤ segment.endSegmentIndex

theorem Covers.of_consecutive {rows : Nat} {segments : List SemanticSegment}
    (h : Consecutive 0 (segments.map (·.range)) rows) : Covers rows segments where
  consecutive := h
  disjoint := List.pairwise_map.mp h.disjoint
  ascending := by
    have hends := h.ends_ascending
    rw [List.map_map] at hends
    exact hends
  once := fun row hrow => by
    obtain ⟨k, ⟨range, hrange, hin⟩, hunique⟩ := h.once (Nat.zero_le row) hrow
    rw [List.getElem?_map, Option.map_eq_some_iff] at hrange
    obtain ⟨found, hfound, rfl⟩ := hrange
    refine ⟨k, ⟨found, hfound, hin⟩, fun j hj => hunique j ?_⟩
    obtain ⟨other, hother, hother_in⟩ := hj
    exact ⟨other.range, by rw [List.getElem?_map, hother, Option.map_some], hother_in⟩

section Materialize
variable {count : Nat}

/-- Ascending points cut the rows from `start` on into ranges that follow one another. -/
theorem ranges_consecutive {points : List Nat} {start : Nat} (hstart : start < count) (hascending : points.Pairwise (· < ·))
    (hbounds : ∀ point ∈ points, start ≤ point ∧ point < count - 1) :
    Consecutive start ((start :: points.map (· + 1)).zip (points ++ [count - 1])) count := by
  induction points generalizing start with
  | nil => exact ⟨rfl, Nat.le_sub_one_of_lt hstart, Nat.sub_add_cancel (Nat.lt_of_le_of_lt (Nat.zero_le _) hstart)⟩
  | cons point points ih =>
    obtain ⟨hafter, hascending⟩ := List.pairwise_cons.mp hascending
    obtain ⟨⟨hlow, hhigh⟩, hbounds⟩ := List.forall_mem_cons.mp hbounds
    refine ⟨rfl, hlow, ih (Nat.add_lt_of_lt_sub hhigh) hascending fun other hother => ?_⟩
    exact ⟨hafter other hother, (hbounds other hother).2⟩

theorem rangesOf_consecutive {points : List Int} (hcount : 0 < count) (hascending : points.Pairwise (· < ·))
    (hbounds : ∀ point ∈ points, 0 ≤ point ∧ point < (count : Int) - 1) : Consecutive 0 (rangesOf points count) count := by
  have hstarts : points.map (fun point => (point + 1).toNat) = (points.map Int.toNat).map (· + 1) := by
    rw [List.map_map]
    refine List.map_congr_left fun point hpoint => ?_
    have := hbounds point hpoint
    simp only [Function.comp_apply]
    omega
  rw [rangesOf, hstarts]
  refine ranges_consecutive hcount ?_ fun point hpoint => ?_
  · refine List.pairwise_map.mpr (hascending.imp_of_mem fun {a b} ha hb hab => ?_)
    have := hbounds a ha
    have := hbounds b hb
    omega
  · obtain ⟨original, horiginal, rfl⟩ := List.mem_map.mp hpoint
    have := hbounds original horiginal
    omega

variable {digest : Json → String} {transcript : TranscriptArtifact} {boundaries : List SemanticBoundary}
  {topic subject : Option String} {version : SegmentVersion}

theorem materializeOne_range {range : Nat × Nat} {index : Nat} {made : SemanticSegment}
    (h : materializeOne digest transcript boundaries topic subject version range index = .ok made) :
    made.range = range := by
  rw [materializeOne] at h
  obtain ⟨_, _, h⟩ := bind_eq_ok.mp h
  obtain ⟨_, _, h⟩ := bind_eq_ok.mp h
  obtain ⟨_, _, h⟩ := bind_eq_ok.mp h
  cases h
  rfl

/-- Validated boundaries cut the transcript into segments that cover it. -/
theorem materialize_consecutive {segments : List SemanticSegment}
    (h : materializeSemanticSegments digest transcript boundaries topic subject version = .ok segments) :
    Consecutive 0 (segments.map (·.range)) transcript.segments.length := by
  rw [materializeSemanticSegments] at h
  obtain ⟨points, hpoints, h⟩ := bind_eq_ok.mp h
  obtain ⟨_, hascending, hbounds⟩ := validateFrom_ok hpoints
  split at h
  · rename_i hempty
    cases h
    rw [List.isEmpty_iff.mp hempty]
    rfl
  · rename_i hrows
    have hranges : segments.map (·.range) = rangesOf points transcript.segments.length := by
      have hmade := (mapM_eq_ok_iff.mp h).imp fun _ _ hone => materializeOne_range hone
      rw [← List.zipIdx_map_fst 0 (rangesOf points transcript.segments.length), eq_comm, ← List.forall₂_eq_eq_eq,
        List.forall₂_map_left_iff, List.forall₂_map_right_iff]
      exact hmade.imp fun _ _ heq => heq.symm
    rw [hranges]
    refine rangesOf_consecutive ?_ hascending fun point hpoint => ⟨(hbounds point hpoint).1, (hbounds point hpoint).2.1⟩
    exact List.length_pos_iff.mpr fun hnil => hrows (by rw [hnil]; rfl)

/-- The check that follows finds nothing to refuse. -/
theorem validateFullCoverage_of_materialize {segments : List SemanticSegment}
    (h : materializeSemanticSegments digest transcript boundaries topic subject version = .ok segments) :
    validateFullCoverage segments transcript.segments.length = .ok () := by
  have hcovers := materialize_consecutive h
  rw [validateFullCoverage, then_eq_ok, require_eq_ok]
  refine ⟨?_, validateCoverageFrom_ok.mpr hcovers⟩
  cases segments with
  | nil => exact decide_eq_true (Eq.symm hcovers)
  | cons _ _ => rfl

theorem withContentHash_segments (artifact : SemanticSegmentArtifact) :
    (withContentHash digest artifact).segments = artifact.segments := by
  rw [withContentHash]
  split <;> rfl

theorem build_segments {segments : List SemanticSegment} {artifact : SemanticSegmentArtifact}
    (h : materializeSemanticSegments digest transcript boundaries topic subject version = .ok segments)
    (hartifact : buildSemanticSegmentArtifact digest transcript boundaries topic subject version = .ok artifact) :
    artifact.segments = segments.map itemOf := by
  rw [buildSemanticSegmentArtifact, h, ok_bind] at hartifact
  cases hartifact
  rw [withContentHash_segments]

end Materialize

section Segment
variable {G : Type} {rt : SegmentRuntime} {segmenter : SemanticSegmenter G} {transcript : TranscriptArtifact}

theorem addressed_segments (artifact : SemanticSegmentArtifact) :
    (addressed rt transcript artifact).segments = artifact.segments := by
  rw [addressed, withContentHash_segments, withContentHash_segments]

theorem emptyResult_covers {identitySeed : String} {result : SemanticSegmentationResult} (hempty : transcript.segments = [])
    (h : emptyResult rt segmenter transcript identitySeed = .ok result) :
    Covers transcript.segments.length result.segments ∧ result.artifact.segments = result.segments.map itemOf := by
  rw [emptyResult] at h
  obtain ⟨artifact, hartifact, h⟩ := bind_eq_ok.mp h
  cases h
  have hmade : materializeSemanticSegments rt.digest transcript [] none none (segmenter.version identitySeed) = .ok [] := by
    rw [materializeSemanticSegments, hempty]
    rfl
  exact ⟨.of_consecutive (materialize_consecutive hmade),
    (addressed_segments artifact).trans (build_segments hmade hartifact)⟩

theorem finish_covers {identitySeed : String} {draft : Draft} {result : SemanticSegmentationResult}
    (h : finish rt segmenter transcript identitySeed draft = .ok result) :
    Covers transcript.segments.length result.segments ∧ result.artifact.segments = result.segments.map itemOf := by
  rw [finish] at h
  obtain ⟨segments, hsegments, h⟩ := bind_eq_ok.mp h
  rw [then_eq_ok] at h
  obtain ⟨_, h⟩ := h
  obtain ⟨artifact, hartifact, h⟩ := bind_eq_ok.mp h
  cases h
  exact ⟨.of_consecutive (materialize_consecutive hsegments),
    (addressed_segments artifact).trans (build_segments hsegments hartifact)⟩

/-- For any transcript and any gateway, in whatever state it is: a call that returns covers the rows. -/
theorem segment_covers (rt : SegmentRuntime) (segmenter : SemanticSegmenter G) (transcript : TranscriptArtifact)
    (offlineFixture : Bool) (identitySeed : String) (s : G) :
    Holds (fun result _ => Covers transcript.segments.length result.segments ∧
        result.artifact.segments = result.segments.map itemOf)
      (fun _ _ => True) ((segment rt segmenter transcript offlineFixture identitySeed).exec s) := by
  rw [segment]
  split
  · rename_i hempty
    refine Triple.attempt (P := fun _ => True) (fun result h _ _ => ?_) (fun _ _ _ _ => trivial) s trivial
    exact emptyResult_covers (List.isEmpty_iff.mp hempty) h
  · refine ((Triple.trivial _).bind fun available => (Triple.trivial _).bind fun _ =>
      (Triple.trivial _).bind fun draft => ?_) s trivial
    exact Triple.attempt (fun result h _ _ => finish_covers h) fun _ _ _ _ => trivial

end Segment
end StockContent.Segmentation
