import StockContent.Sampling.FramePlan

/-! A frame plan is in order, inside the media and within its budget, loses no mandatory moment, and depends only on
which windows there are. -/
namespace StockContent.Sampling
open Storage Text Knowledge

section Select
variable {planner : KnowledgeFramePlanner} {highIds : List String} {output : List KnowledgeFrameRequest}
  {frame : KnowledgeFrameRequest}

/-- The frames that are not mandatory, as far as the budget goes. -/
def chosenOrdinary (planner : KnowledgeFramePlanner) (highIds : List String) (output : List KnowledgeFrameRequest) :
    List KnowledgeFrameRequest :=
  (sortedBy ordinaryKey (output.filter fun item => !(output.filter (isMandatory highIds)).contains item)).take
    (planner.maxFramesPerMedia - (output.filter (isMandatory highIds)).length)

theorem selectFrames_eq : selectFrames planner highIds output =
    sortedBy outputKey (output.filter (isMandatory highIds) ++ chosenOrdinary planner highIds output) := rfl

theorem mem_chosenOrdinary (h : frame ∈ chosenOrdinary planner highIds output) :
    frame ∈ output ∧ isMandatory highIds frame = false := by
  have hmem := List.mem_filter.mp (mem_sortedBy.mp (List.mem_of_mem_take h))
  refine ⟨hmem.1, ?_⟩
  rw [Bool.eq_false_iff]
  intro hmandatory
  have hnot := hmem.2
  rw [List.contains_iff_mem.mpr (List.mem_filter.mpr ⟨hmem.1, hmandatory⟩)] at hnot
  cases hnot

theorem mem_selectFrames (h : frame ∈ selectFrames planner highIds output) : frame ∈ output := by
  rw [selectFrames_eq, mem_sortedBy, List.mem_append] at h
  rcases h with hmandatory | hordinary
  · exact (List.mem_filter.mp hmandatory).1
  · exact (mem_chosenOrdinary hordinary).1

theorem mandatory_selected (hmem : frame ∈ output) (h : isMandatory highIds frame = true) :
    frame ∈ selectFrames planner highIds output := by
  rw [selectFrames_eq, mem_sortedBy]
  exact List.mem_append_left _ (List.mem_filter.mpr ⟨hmem, h⟩)

/-- The selection stays in its budget, unless the mandatory frames alone exceed it. -/
theorem selectFrames_length : (selectFrames planner highIds output).length ≤
    max planner.maxFramesPerMedia ((selectFrames planner highIds output).filter (isMandatory highIds)).length := by
  have hperm := perm_sortedBy outputKey (output.filter (isMandatory highIds) ++ chosenOrdinary planner highIds output)
  have hordinary : (chosenOrdinary planner highIds output).filter (isMandatory highIds) = [] :=
    List.filter_eq_nil_iff.mpr fun frame hframe => by simp [(mem_chosenOrdinary hframe).2]
  have hmandatory : ((selectFrames planner highIds output).filter (isMandatory highIds)).length =
      (output.filter (isMandatory highIds)).length := by
    rw [selectFrames_eq, (hperm.filter _).length_eq, List.filter_append, hordinary, List.append_nil, List.filter_filter]
    simp only [Bool.and_self]
  have htake : (chosenOrdinary planner highIds output).length ≤
      planner.maxFramesPerMedia - (output.filter (isMandatory highIds)).length := List.length_take_le _ _
  have htotal : (selectFrames planner highIds output).length =
      (output.filter (isMandatory highIds)).length + (chosenOrdinary planner highIds output).length := by
    rw [selectFrames_eq, hperm.length_eq, List.length_append]
  omega

/-- Moments stay distinct, and come in order. -/
theorem selectFrames_sorted (h : output.Pairwise fun a b => a.timestampMs < b.timestampMs) :
    (selectFrames planner highIds output).Pairwise fun a b => a.timestampMs < b.timestampMs := by
  have hnodup : output.Nodup := h.imp fun {a b} hab heq => by
    rw [heq] at hab
    exact absurd hab (lt_irrefl _)
  have htimes : ∀ frame ∈ output, ∀ other ∈ output, frame.timestampMs = other.timestampMs → frame = other := by
    intro frame hframe other hother htime
    have hinj : (output.map KnowledgeFrameRequest.timestampMs).Nodup :=
      List.pairwise_map.mpr (h.imp fun hlt => ne_of_lt hlt)
    exact List.inj_on_of_nodup_map hinj hframe hother htime
  have hdisjoint : (output.filter (isMandatory highIds) ++ chosenOrdinary planner highIds output).Nodup := by
    refine List.nodup_append.mpr ⟨hnodup.filter _, ?_, ?_⟩
    · refine List.Nodup.sublist (List.take_sublist _ _) ?_
      exact (perm_sortedBy ordinaryKey _).nodup_iff.mpr (hnodup.filter _)
    · rintro frame hframe other hother rfl
      have hordinary := (mem_chosenOrdinary hother).2
      rw [(List.mem_filter.mp hframe).2] at hordinary
      cases hordinary
  have hselected : (selectFrames planner highIds output).Nodup :=
    (perm_sortedBy outputKey _).nodup_iff.mpr hdisjoint
  have hordered := pairwise_sortedBy outputKey
    (output.filter (isMandatory highIds) ++ chosenOrdinary planner highIds output)
  rw [← selectFrames_eq] at hordered
  refine List.Pairwise.imp_of_mem ?_ (hordered.and hselected)
  intro a b ha hb hab
  have hle : a.timestampMs ≤ b.timestampMs := Prod.Lex.monotone_fst _ _ hab.1
  exact lt_of_le_of_ne hle fun heq => hab.2 (htimes a (mem_selectFrames ha) b (mem_selectFrames hb) heq)

theorem isMandatory_congr {others : List String} (h : ∀ id, id ∈ highIds ↔ id ∈ others) :
    isMandatory highIds = isMandatory others := by
  have hcontains : highIds.contains = others.contains := by
    funext id
    rw [Bool.eq_iff_iff, List.contains_iff_mem, List.contains_iff_mem, h]
  funext frame
  rw [isMandatory, isMandatory, hcontains]

theorem selectFrames_congr {others : List String} (h : ∀ id, id ∈ highIds ↔ id ∈ others) :
    selectFrames planner highIds output = selectFrames planner others output := by
  rw [selectFrames, selectFrames, isMandatory_congr h]

end Select

section Plan
variable {digest : Json → String} {planner : KnowledgeFramePlanner} {windows windows' : List KnowledgeEvidenceWindow}
  {mediaDurationMs : Int} {frames : List KnowledgeFrameRequest} {window : KnowledgeEvidenceWindow} {item : Candidate}

/-- All requests of all windows. -/
def candidates (digest : Json → String) (planner : KnowledgeFramePlanner) (mediaDurationMs : Int)
    (windows : List KnowledgeEvidenceWindow) : List Candidate :=
  (sortedBy windowOrderKey windows).flatMap (candidatesOf digest planner mediaDurationMs)

theorem mem_candidates : item ∈ candidates digest planner mediaDurationMs windows ↔
    ∃ window ∈ windows, item ∈ candidatesOf digest planner mediaDurationMs window := by
  simp only [candidates, List.mem_flatMap, mem_sortedBy]

theorem planFrames_eq_ok : planFrames digest planner windows mediaDurationMs = .ok frames ↔
    0 ≤ mediaDurationMs ∧ frames = selectFrames planner (highSignalWindowIds digest (sortedBy windowOrderKey windows))
      (mergedFrames planner.plannerVersion (candidates digest planner mediaDurationMs windows)) := by
  rw [planFrames, then_eq_ok, require_eq_ok, decide_eq_true_iff]
  refine and_congr_right fun _ => ?_
  exact ⟨fun h => (Except.ok.inj h).symm, fun h => congrArg Except.ok h.symm⟩

theorem mem_highSignalWindowIds {id : String} : id ∈ highSignalWindowIds digest (sortedBy windowOrderKey windows) ↔
    ∃ window ∈ windows, window.highSignals ≠ [] ∧ evidenceWindowId digest window = id := by
  simp [highSignalWindowIds, and_assoc]

/-- A mandatory moment of a window has a frame that names the window. -/
theorem moment_kept (h : planFrames digest planner windows mediaDurationMs = .ok frames) (hwindow : window ∈ windows)
    {moment : Int} {reason : ExtractionReason} (hmoment : (moment, reason) ∈ moments planner window)
    (hreason : reason.mandatory = true) :
    ∃ frame ∈ frames, frame.timestampMs = clamp moment mediaDurationMs ∧
      evidenceWindowId digest window ∈ frame.evidenceWindowIds := by
  obtain ⟨-, rfl⟩ := planFrames_eq_ok.mp h
  have hitem : (⟨clamp moment mediaDurationMs, reason, window.semanticSegmentId, evidenceWindowId digest window⟩ : Candidate) ∈
      candidates digest planner mediaDurationMs windows :=
    mem_candidates.mpr ⟨window, hwindow, mem_candidatesOf.mpr
      ⟨mem_localRequests_of_mandatory hmoment hreason, rfl, rfl⟩⟩
  refine ⟨_, mandatory_selected (mem_mergedFrames.mpr ⟨_, hitem, rfl⟩) ?_, rfl, ?_⟩
  · rw [isMandatory, frameAt_mandatory hitem hreason, Bool.true_or]
  · exact mem_evidenceWindowIds.mpr ⟨_, hitem, rfl, rfl⟩

theorem frame_in_media (h : planFrames digest planner windows mediaDurationMs = .ok frames) {frame : KnowledgeFrameRequest}
    (hframe : frame ∈ frames) : 0 ≤ frame.timestampMs ∧ frame.timestampMs ≤ mediaDurationMs := by
  obtain ⟨hduration, rfl⟩ := planFrames_eq_ok.mp h
  obtain ⟨item, hitem, rfl⟩ := mem_mergedFrames.mp (mem_selectFrames hframe)
  obtain ⟨window, -, hwindow⟩ := mem_candidates.mp hitem
  obtain ⟨moment, hmoment⟩ := localRequests_clamped (mem_candidatesOf.mp hwindow).1
  have htime : item.timestampMs = clamp moment mediaDurationMs := hmoment
  change 0 ≤ item.timestampMs ∧ item.timestampMs ≤ mediaDurationMs
  rw [htime]
  exact ⟨le_min (le_max_left _ _) hduration, min_le_right _ _⟩

/-- The plan depends on which windows there are. -/
theorem planFrames_congr (h : ∀ window, window ∈ windows' ↔ window ∈ windows) :
    planFrames digest planner windows' mediaDurationMs = planFrames digest planner windows mediaDurationMs := by
  have hcandidates (item : Candidate) : item ∈ candidates digest planner mediaDurationMs windows' ↔
      item ∈ candidates digest planner mediaDurationMs windows := by
    simp only [mem_candidates, h]
  have hids (id : String) : id ∈ highSignalWindowIds digest (sortedBy windowOrderKey windows') ↔
      id ∈ highSignalWindowIds digest (sortedBy windowOrderKey windows) := by
    simp only [mem_highSignalWindowIds, h]
  have hselect : selectFrames planner (highSignalWindowIds digest (sortedBy windowOrderKey windows'))
      (mergedFrames planner.plannerVersion (candidates digest planner mediaDurationMs windows')) =
      selectFrames planner (highSignalWindowIds digest (sortedBy windowOrderKey windows))
        (mergedFrames planner.plannerVersion (candidates digest planner mediaDurationMs windows)) := by
    rw [mergedFrames_congr hcandidates, selectFrames_congr hids]
  rw [planFrames, planFrames]
  exact congrArg (fun frames => require _ _ >>= fun _ => Except.ok frames) hselect

theorem anchor_moment {anchor : Int} (h : anchor ∈ anchors window) :
    (anchor, ExtractionReason.knowledgeCenter) ∈ moments planner window :=
  List.mem_append_left _ (List.mem_map_of_mem h)

theorem highSignal_moment (hphases : phasesOnly window = false) {moment : Int} (h : moment ∈ highSignalMoments planner window) :
    (moment, ExtractionReason.highSignal) ∈ moments planner window := by
  have hsignals : window.highSignals ≠ [] := by
    rintro hnil
    rw [highSignalMoments, hnil] at h
    cases h
  refine List.mem_append_right _ ?_
  rw [hphases, if_neg Bool.false_ne_true, if_pos hsignals]
  exact List.mem_map_of_mem h

/-- What a frame plan is for, but for the cues of theses, which are sampled by phase only. -/
theorem planFrames_complete (digest : Json → String) (planner : KnowledgeFramePlanner) (windows : List KnowledgeEvidenceWindow)
    (mediaDurationMs : Int) (frames : List KnowledgeFrameRequest)
    (h : planFrames digest planner windows mediaDurationMs = .ok frames) :
    (frames.Pairwise fun a b => a.timestampMs < b.timestampMs) ∧
    (∀ frame ∈ frames, 0 ≤ frame.timestampMs ∧ frame.timestampMs ≤ mediaDurationMs) ∧
    (∀ window ∈ windows, ∀ moment, (moment ∈ anchors window ∨
        phasesOnly window = false ∧ moment ∈ highSignalMoments planner window) →
      ∃ frame ∈ frames, frame.timestampMs = clamp moment mediaDurationMs ∧
        evidenceWindowId digest window ∈ frame.evidenceWindowIds) ∧
    frames.length ≤ max planner.maxFramesPerMedia
      (frames.filter (isMandatory (highSignalWindowIds digest windows))).length ∧
    ∀ windows', (∀ window, window ∈ windows' ↔ window ∈ windows) →
      planFrames digest planner windows' mediaDurationMs = .ok frames := by
  refine ⟨?_, fun _ => frame_in_media h, ?_, ?_, ?_⟩
  · obtain ⟨-, rfl⟩ := planFrames_eq_ok.mp h
    exact selectFrames_sorted (mergedFrames_sorted _ _)
  · intro window hwindow moment hmoment
    rcases hmoment with hanchor | hsignal
    · exact moment_kept h hwindow (anchor_moment hanchor) rfl
    · exact moment_kept h hwindow (highSignal_moment hsignal.1 hsignal.2) rfl
  · obtain ⟨-, rfl⟩ := planFrames_eq_ok.mp h
    have hids : isMandatory (highSignalWindowIds digest windows) =
        isMandatory (highSignalWindowIds digest (sortedBy windowOrderKey windows)) := by
      refine isMandatory_congr fun id => ?_
      rw [mem_highSignalWindowIds]
      simp [highSignalWindowIds, and_assoc]
    rw [hids]
    exact selectFrames_length
  · intro windows' hsame
    rw [planFrames_congr hsame]
    exact h

/-- The window of a claim around three seconds, with one cue. -/
def cueWindow : KnowledgeEvidenceWindow where
  semanticSegmentId := "semantic"
  startMs := 1000
  endMs := 5000
  centerMs := 3000
  transcriptSegmentIds := ["row"]
  highSignals := [⟨"NUMERIC", "numeric_value", ["row"], [5000]⟩]
  transcriptAnchorMs := [3000]
  plannerVersion := "knowledge-evidence-window.v2"

def defaultFramePlanner : KnowledgeFramePlanner where
  nearby_ne := by decide
  nearby_offsets := by decide
  high_offsets := by decide
  window_pos := by decide
  media_pos := by decide
  version_ne := by decide

theorem cue_frames_complete :
    ∃ frames, planFrames (fun _ => "0") defaultFramePlanner [cueWindow] 9000 = .ok frames ∧
      planFrames (fun _ => "0") defaultFramePlanner [cueWindow, cueWindow] 9000 = .ok frames ∧
      ∃ frame ∈ frames, frame.timestampMs = 8000 := by
  obtain ⟨frames, hframes⟩ : ∃ frames, planFrames (fun _ => "0") defaultFramePlanner [cueWindow] 9000 = .ok frames :=
    ⟨_, planFrames_eq_ok.mpr ⟨by decide, rfl⟩⟩
  obtain ⟨-, -, hkept, -, hsame⟩ := planFrames_complete (fun _ => "0") defaultFramePlanner [cueWindow] 9000 frames hframes
  refine ⟨frames, hframes, hsame _ (by simp), ?_⟩
  obtain ⟨frame, hframe, htime, -⟩ := hkept cueWindow (List.mem_singleton_self _) 8000 (.inr (by decide))
  exact ⟨frame, hframe, htime.trans (by decide)⟩

/-- The cues of a window that is sampled by its phases get no frames. -/
theorem thesis_cue_unsampled :
    ∃ frames, planFrames (fun _ => "0") defaultFramePlanner [{ cueWindow with samplingStrategy := "THESIS_PHASES" }] 9000 =
        .ok frames ∧ ∀ frame ∈ frames, frame.timestampMs ≠ clamp (5000 + 3000) 9000 :=
  ⟨_, rfl, by decide⟩

end Plan
end StockContent.Sampling
