import StockContent.Visual.BundleReader
import StockContent.Visual.ReplayReader

/-! Which sealed packets their readers accept: the validator of a bundle, and a replay of each frame. -/
namespace StockContent.Visual
open Storage Text

section Built
variable {artifacts : VisualArtifacts} {scope : PacketScope} {windowId : String} {frame : FrameArtifact}

theorem mem_windowFrames : frame ∈ windowFrames artifacts windowId ↔
    frame ∈ artifacts.frames ∧ windowId ∈ frame.evidenceWindowIds := by
  rw [windowFrames, List.mem_insertionSort, List.mem_filter, List.contains_iff_mem]

@[simp] theorem windowEntry_evidenceWindowId :
    (windowEntry artifacts scope windowId).evidenceWindowId = windowId := by
  rw [windowEntry]
  split <;> rfl

@[simp] theorem windowEntry_frames : (windowEntry artifacts scope windowId).frames =
    (windowFrames artifacts windowId).map (frameEntry artifacts scope windowId) := by
  rw [windowEntry]
  split
  · rename_i h
    rw [h, List.map_nil]
  · rename_i h
    rw [h]

theorem packet_windows (knowledgeId : String) {window : WindowEntry} :
    window ∈ (occurrenceVisualEvidencePacket artifacts scope knowledgeId).windows ↔
      ∃ id ∈ scope.windowIds, windowEntry artifacts scope id = window := by
  simp [occurrenceVisualEvidencePacket]

theorem packet_summed (knowledgeId : String) : (occurrenceVisualEvidencePacket artifacts scope knowledgeId).Summed := by
  change VisualEvidencePacket.Summed ⟨_, _, (packetStatus _).1, (packetStatus _).2, _⟩
  generalize (scope.windowIds.insertionSort (· ≤ ·)).map (windowEntry artifacts scope) = windows
  by_cases hempty : windows.isEmpty
  · have hs : packetStatus windows = (.gap, some .evidenceWindowMissing) := if_pos hempty
    constructor <;> simp [hs]
  by_cases hreview : windows.any (·.status = .humanReviewRequired)
  · have hs : packetStatus windows = (.humanReviewRequired, some .crosscheckContradicts) := by
      rw [packetStatus, if_neg hempty, if_pos hreview]
    constructor
    · simp [hs]
    · simpa [hs] using hreview
  by_cases hall : windows.all (·.status = .available)
  · have hs : packetStatus windows = (.available, none) := by
      rw [packetStatus, if_neg hempty, if_neg hreview, if_pos hall]
    constructor
    · intro _
      exact ⟨fun h => hempty (List.isEmpty_iff.mpr h), by simpa using hall⟩
    · simp [hs]
  · have hs : (packetStatus windows).1 = .gap := by
      rw [packetStatus, if_neg hempty, if_neg hreview, if_neg hall]
    constructor <;> simp [hs]

/-- What a modality read is shown, unless it read nothing. -/
def VisualArtifact.shown : VisualArtifact → Bool
  | .frame _ => false
  | .ocr artifact => artifact.text ≠ ""
  | .vision artifact => artifact.label ≠ "" || !artifact.labels.isEmpty

theorem mem_ocrResults {result : ModalityResult} : result ∈ ocrResults artifacts frame ↔
    ∃ a ∈ artifacts.ocr, a.frameId = frame.frameId ∧ (VisualArtifact.ocr a).shown = true ∧ ocrResult a = result := by
  simp [ocrResults, List.mem_insertionSort, VisualArtifact.shown, and_assoc]

theorem mem_visionResults {result : ModalityResult} : result ∈ visionResults artifacts frame ↔
    ∃ a ∈ artifacts.vision, a.frameId = frame.frameId ∧ (VisualArtifact.vision a).shown = true ∧
      visionResult a = result := by
  simp [visionResults, List.mem_insertionSort, VisualArtifact.shown, and_assoc]

theorem VisualArtifacts.load_of_mem {artifact : VisualArtifact} (h : artifact ∈ artifacts.all) :
    artifacts.load artifact.artifactId = some artifact := by
  cases hl : artifacts.load artifact.artifactId with
  | none =>
    have hnone := List.find?_eq_none.mp hl artifact h
    simp at hnone
  | some other =>
    have hid : other.artifactId = artifact.artifactId := by simpa using List.find?_some hl
    rw [artifacts.addressed other (List.mem_of_find?_eq_some hl) artifact h hid]

theorem mem_all_frame : VisualArtifact.frame frame ∈ artifacts.all ↔ frame ∈ artifacts.frames := by
  simp [artifacts.all_eq]

theorem mem_all_ocr {a : OCRArtifact} : VisualArtifact.ocr a ∈ artifacts.all ↔ a ∈ artifacts.ocr := by
  simp [artifacts.all_eq]

theorem mem_all_vision {a : VisionArtifact} : VisualArtifact.vision a ∈ artifacts.all ↔ a ∈ artifacts.vision := by
  simp [artifacts.all_eq]

end Built

section Relations
variable {scope : PacketScope} {windowId : String} {frame : FrameArtifact}

theorem uniqueCheck_eq_some {check : Crosscheck} :
    scope.uniqueCheck windowId frame = some check ↔ scope.scoped windowId frame = [check] := by
  rw [PacketScope.uniqueCheck]
  match scope.scoped windowId frame with
  | [] => simp
  | [_] => simp
  | _ :: _ :: _ => simp

theorem uniqueCheck_isSome :
    (scope.uniqueCheck windowId frame).isSome = true ↔ (scope.scoped windowId frame).length = 1 := by
  rw [PacketScope.uniqueCheck]
  match scope.scoped windowId frame with
  | [] => simp
  | [_] => simp
  | _ :: _ :: _ => simp

theorem sealCrosscheck_perm {checks : List Crosscheck} {relations : List CrosscheckRecord}
    (h : sealCrosscheck checks = .ok relations) : relations.Perm (checks.map .ofCheck) := by
  rw [sealCrosscheck] at h
  simp only [then_eq_ok, require_eq_ok] at h
  obtain ⟨-, -, -, h⟩ := h
  cases h
  exact List.perm_insertionSort _ _

private theorem insertionSort_eq_singleton {ids : List String} {id : String} :
    ids.insertionSort (· ≤ ·) = [id] ↔ ids = [id] := by
  constructor
  · intro h
    have hperm := (List.perm_insertionSort (· ≤ ·) ids).symm
    rw [h] at hperm
    exact List.perm_singleton.mp hperm
  · rintro rfl
    rfl

/-- A replay finds the sealed relations of the checks that the packet was built from. -/
theorem sealed_perm {replay : FrameReplay} (hrelations : replay.relations.Perm (scope.checks.map .ofCheck))
    (hwindow : replay.evidenceWindowId = windowId) (hsegment : replay.semanticSegmentId = scope.draft.semanticSegmentId) :
    (replay.sealed frame.frameId).Perm ((scope.scoped windowId frame).map .ofCheck) := by
  have hfilter := hrelations.filter fun relation : CrosscheckRecord => relation.frameId = frame.frameId &&
    relation.evidenceWindowIds = [replay.evidenceWindowId] && relation.semanticSegmentIds = [replay.semanticSegmentId]
  refine hfilter.trans (.of_eq ?_)
  rw [List.filter_map, PacketScope.scoped, hwindow, hsegment]
  congr 1
  apply List.filter_congr
  intro check _
  rw [Bool.eq_iff_iff]
  simp only [Function.comp_apply, Bool.and_eq_true, decide_eq_true_eq]
  simp only [CrosscheckRecord.ofCheck, insertionSort_eq_singleton]

/-- A window is unscoped where none of its frames has a check of its own in it. -/
def Unscoped (artifacts : VisualArtifacts) (scope : PacketScope) (windowId : String) : Prop :=
  ∀ frame ∈ windowFrames artifacts windowId, scope.uniqueCheck windowId frame = none

theorem frameEntry_unknown {artifacts : VisualArtifacts} (h : scope.uniqueCheck windowId frame = none) :
    (frameEntry artifacts scope windowId frame).relation = .unknown := by
  rw [frameEntry, h]
  rfl

/-- The gap of an unscoped window that shows frames. -/
theorem windowEntry_unscoped {artifacts : VisualArtifacts} (hframe : frame ∈ windowFrames artifacts windowId)
    (h : Unscoped artifacts scope windowId) :
    (windowEntry artifacts scope windowId).status = .gap ∧ (windowEntry artifacts scope windowId).reason =
      some (if (windowFrames artifacts windowId).any (scope.ambiguous windowId) then .crosscheckScopeAmbiguous
        else .crosscheckMissing) := by
  have hunknown : ∀ entry ∈ (windowFrames artifacts windowId).map (frameEntry artifacts scope windowId),
      entry.relation = .unknown := by
    rw [List.forall_mem_map]
    exact fun frame hframe => frameEntry_unknown (h frame hframe)
  rw [windowEntry]
  split
  · rename_i hnil
    rw [hnil] at hframe
    cases hframe
  · rename_i first rest hcons
    rw [hcons] at hunknown
    have hcontradicts : ((first :: rest).map (frameEntry artifacts scope windowId)).any
        (·.relation = .contradicts) = false := by
      rw [List.any_eq_false]
      intro entry hentry
      simp [hunknown entry hentry]
    have hsupported : ((first :: rest).map (frameEntry artifacts scope windowId)).any
        (·.supported scope.permitDisplayedSecondary) = false := by
      rw [List.any_eq_false]
      intro entry hentry
      simp [FrameEntry.supported, hunknown entry hentry]
    have hnone : ((first :: rest).all fun frame => (scope.uniqueCheck windowId frame).isNone) = true := by
      rw [List.all_eq_true]
      intro frame hframe
      rw [h frame (hcons ▸ hframe)]
      rfl
    have hstatus : windowStatus scope windowId (first :: rest)
        ((first :: rest).map (frameEntry artifacts scope windowId)) =
        (.gap, some (if (first :: rest).any (scope.ambiguous windowId) then .crosscheckScopeAmbiguous
          else .crosscheckMissing)) := by
      rw [windowStatus, if_neg (by rw [hcontradicts]; decide), if_neg (by rw [hsupported]; decide), if_pos hnone]
    dsimp only
    rw [hstatus, hcons]
    exact ⟨rfl, rfl⟩

/-- No other window has a gap for want of a crosscheck. -/
theorem unscoped_of_reason {artifacts : VisualArtifacts}
    (h : (windowEntry artifacts scope windowId).reason = some .crosscheckMissing ∨
      (windowEntry artifacts scope windowId).reason = some .crosscheckScopeAmbiguous) :
    Unscoped artifacts scope windowId := by
  rw [windowEntry] at h
  split at h
  · simp at h
  · rename_i first rest hcons
    dsimp only [windowStatus] at h
    split at h
    · simp at h
    split at h
    · simp at h
    split at h
    · rename_i hnone
      intro frame hframe
      rw [hcons] at hframe
      exact Option.isNone_iff_eq_none.mp (List.all_eq_true.mp hnone frame hframe)
    split at h
    · simp at h
    split at h
    · simp at h
    · simp at h

end Relations

/-- A run that seals the packet of an occurrence, with the crosscheck artifact that it has sealed before. -/
structure VisualRun where
  checker : TranscriptVisualCrossChecker
  scans : List Scan
  artifacts : VisualArtifacts
  relations : List CrosscheckRecord
  sealed : sealCrosscheck (scans.map checker.check) = .ok relations
  windowIds : List String
  draft : ClaimOccurrenceDraft
  knowledgeId : String
  crosscheckArtifactId : String
  packetArtifactId : String

namespace VisualRun
variable (run : VisualRun)

def scope : PacketScope where
  checks := transcriptVisualCrosschecks run.checker run.scans
  windowIds := run.windowIds
  draft := run.draft
  str := run.checker.str

def packet : VisualEvidencePacket := occurrenceVisualEvidencePacket run.artifacts run.scope run.knowledgeId

/-- A replay of the frames of a window. The artifact of the packet has all visual artifacts of its run as parents. -/
def replay (window : WindowEntry) : FrameReplay where
  evidenceWindowId := window.evidenceWindowId
  windowStatus := window.status.text
  windowReason := (window.reason.map (·.text)).getD ""
  semanticSegmentId := run.draft.semanticSegmentId
  relations := run.relations
  visualParentIds := run.artifacts.all.map (·.artifactId) ++ [run.crosscheckArtifactId]
  load := run.artifacts.load
  artifactId := run.packetArtifactId

/-- Both readers take the packet: the bundle validator as a whole, and a replay each of its frames. -/
def Accepted : Prop :=
  validateVisualEvidence run.checker.tables run.checker.str run.packet.json run.knowledgeId = .ok () ∧
    ∀ window ∈ run.packet.windows, ∀ frame ∈ window.frames,
      validateVisualPacketFrame run.checker.str (run.replay window) run.packet.json frame.json = .ok ()

/-- What a modality read has a name, a text and a model, and was read on the frame. -/
def Shows (tables : CharTables) (frame : FrameArtifact) (artifact : VisualArtifact) : Prop :=
  (nonblank tables artifact.artifactId ∧ nonblank tables artifact.result.summary ∧
    nonblank tables artifact.result.modelName ∧ nonblank tables artifact.result.modelVersion) ∧
  artifact.frameArtifactId = frame.artifactId ∧ artifact.timestampMs = frame.timestampMs ∧
    artifact.imageHash = frame.imageHash

structure FramePresentable (windowId : String) (frame : FrameArtifact) : Prop where
  named : nonblank run.checker.tables frame.frameId ∧ nonblank run.checker.tables frame.artifactId ∧
    nonblank run.checker.tables frame.imageHash
  relation : ∀ check, run.scope.uniqueCheck windowId frame = some check →
    check.relation ≠ .supportsDisplayedMention ∧ check.relation ≠ .entityCorrectionPending
  results : ∀ artifact ∈ run.artifacts.all, artifact.frameId = frame.frameId → artifact.shown = true →
    Shows run.checker.tables frame artifact

/-- Windows and frames have names, frames show what was read on them and stand in a relation that a bundle knows, and
either all frames of a window have a check of their own in it or none has. -/
def Presentable : Prop :=
  ∀ windowId ∈ run.windowIds, nonblank run.checker.tables windowId ∧
    (∀ frame ∈ windowFrames run.artifacts windowId, run.FramePresentable windowId frame) ∧
    ((∀ frame ∈ windowFrames run.artifacts windowId, (run.scope.uniqueCheck windowId frame).isSome) ∨
      Unscoped run.artifacts run.scope windowId)

variable {run} {windowId : String} {frame : FrameArtifact}

theorem relations_perm : run.relations.Perm (run.scope.checks.map .ofCheck) := by
  have hchecks : run.scope.checks.Perm (run.scans.map run.checker.check) := List.perm_insertionSort _ _
  exact (sealCrosscheck_perm run.sealed).trans (hchecks.symm.map _)

theorem sealed_scoped : ((run.replay (windowEntry run.artifacts run.scope windowId)).sealed frame.frameId).Perm
    ((run.scope.scoped windowId frame).map .ofCheck) :=
  sealed_perm relations_perm windowEntry_evidenceWindowId rfl

theorem uniquely_sealed :
    (∃ relation, (run.replay (windowEntry run.artifacts run.scope windowId)).sealed frame.frameId = [relation] ∧
      relation.relation = (frameEntry run.artifacts run.scope windowId frame).relation.text) ↔
    (run.scope.uniqueCheck windowId frame).isSome = true := by
  have hperm := @sealed_scoped run windowId frame
  have hlength := hperm.length_eq
  constructor
  · rintro ⟨relation, hsealed, -⟩
    rw [hsealed, List.length_singleton, List.length_map] at hlength
    exact uniqueCheck_isSome.mpr hlength.symm
  · intro h
    obtain ⟨check, hcheck⟩ := Option.isSome_iff_exists.mp h
    rw [uniqueCheck_eq_some.mp hcheck] at hperm
    refine ⟨.ofCheck check, List.perm_singleton.mp hperm, ?_⟩
    rw [frameEntry, hcheck]
    rfl

theorem reason_of_text {reason : Option PacketReason} {expected : PacketReason}
    (h : (reason.map (·.text)).getD "" = expected.text) : reason = some expected := by
  rcases reason with _ | reason
  · cases expected <;> exact absurd h (by decide)
  · rw [Option.map_some, Option.getD_some] at h
    rw [PacketReason.text_injective h]

/-- A packet with a gap is one of gaps, or one under review. -/
theorem status_of_gap (hw : windowId ∈ run.windowIds)
    (hgap : (windowEntry run.artifacts run.scope windowId).status = .gap) :
    run.packet.status = .gap ∨ run.packet.status = .humanReviewRequired ∧
      ∃ window ∈ run.packet.windows, window.status = .humanReviewRequired := by
  have hsummed : run.packet.Summed := packet_summed run.knowledgeId
  have hin : windowEntry run.artifacts run.scope windowId ∈ run.packet.windows :=
    (packet_windows run.knowledgeId).mpr ⟨windowId, hw, rfl⟩
  cases hs : run.packet.status with
  | available =>
    have havailable := (hsummed.available hs).2 _ hin
    rw [hgap] at havailable
    cases havailable
  | gap => exact .inl rfl
  | humanReviewRequired => exact .inr ⟨rfl, hsummed.review hs⟩

/-- A replay takes the relation of a frame with a check of its own, and of every frame of an unscoped window. -/
theorem related_iff (hw : windowId ∈ run.windowIds) (hframe : frame ∈ windowFrames run.artifacts windowId) :
    (frameEntry run.artifacts run.scope windowId frame).Related
      (run.replay (windowEntry run.artifacts run.scope windowId)) run.packet ↔
      (run.scope.uniqueCheck windowId frame).isSome = true ∨ Unscoped run.artifacts run.scope windowId := by
  constructor
  · rintro (⟨-, -, -, hreason⟩ | hunique)
    · refine .inr (unscoped_of_reason ?_)
      rcases hreason with ⟨hmissing, -⟩ | ⟨hambiguous, -⟩
      · exact .inl (reason_of_text hmissing)
      · exact .inr (reason_of_text hambiguous)
    · exact .inl (uniquely_sealed.mp hunique)
  · rintro (hunique | hunscoped)
    · exact .inr (uniquely_sealed.mpr hunique)
    · obtain ⟨hgap, hreason⟩ := windowEntry_unscoped hframe hunscoped
      have hlength : ((run.replay (windowEntry run.artifacts run.scope windowId)).sealed frame.frameId).length =
          (run.scope.scoped windowId frame).length := by
        rw [sealed_scoped.length_eq, List.length_map]
      have hne : (run.scope.scoped windowId frame).length ≠ 1 := by
        intro hone
        rw [← uniqueCheck_isSome, hunscoped frame hframe] at hone
        cases hone
      refine .inl ⟨congrArg PacketStatus.text hgap, status_of_gap hw hgap, frameEntry_unknown (hunscoped frame hframe), ?_⟩
      by_cases hambiguous : (windowFrames run.artifacts windowId).any (run.scope.ambiguous windowId) = true
      · rw [if_pos hambiguous] at hreason
        exact .inr ⟨by rw [replay, hreason]; rfl, fun h => hne (hlength.symm.trans h)⟩
      · rw [if_neg hambiguous] at hreason
        refine .inl ⟨by rw [replay, hreason]; rfl, hlength.trans ?_⟩
        -- A frame that is neither unique nor ambiguous has no check in scope.
        have hnot := List.any_eq_false.mp (Bool.eq_false_iff.mpr hambiguous) frame hframe
        have hle : ¬ 1 < (run.scope.scoped windowId frame).length := by
          intro hlt
          exact hnot (by rw [PacketScope.ambiguous, decide_eq_true hlt, Bool.true_or])
        omega

@[simp] theorem result_artifactId (artifact : VisualArtifact) : artifact.result.artifactId = artifact.artifactId := by
  cases artifact <;> rfl

@[simp] theorem result_artifactHash (artifact : VisualArtifact) :
    artifact.result.artifactHash = hashText artifact.contentHash := by
  cases artifact <;> rfl

theorem parent_of_mem {window : WindowEntry} {artifact : VisualArtifact} (h : artifact ∈ run.artifacts.all) :
    artifact.artifactId ∈ (run.replay window).visualParentIds :=
  List.mem_append_left _ (List.mem_map_of_mem h)

/-- A replay takes what an artifact says if the artifact was taken from the frame. -/
theorem result_sealed {window : WindowEntry} {artifact : VisualArtifact} (h : artifact ∈ run.artifacts.all)
    (hid : artifact.frameId = frame.frameId) :
    artifact.result.Sealed (run.replay window) (frameEntry run.artifacts run.scope windowId frame)
      artifact.artifactType ↔
      artifact.artifactId ≠ "" ∧ artifact.frameArtifactId = frame.artifactId ∧
        artifact.timestampMs = frame.timestampMs ∧ artifact.imageHash = frame.imageHash := by
  have hload : (run.replay window).load artifact.result.artifactId = some artifact := by
    rw [result_artifactId]
    exact VisualArtifacts.load_of_mem h
  constructor
  · rintro ⟨other, hne, -, hother, -, -, hfrom, -, htime, himage, -⟩
    cases hload.symm.trans hother
    exact ⟨by simpa using hne, hfrom, htime.symm, himage⟩
  · rintro ⟨hne, hfrom, htime, himage⟩
    have hparent := @parent_of_mem run window _ h
    rw [← result_artifactId] at hne hparent
    exact ⟨artifact, hne, hparent, hload, result_artifactHash artifact, rfl, hfrom, hid, htime.symm, himage, rfl, rfl,
      rfl, rfl⟩

theorem ne_empty_of_nonblank {tables : CharTables} {s : String} (h : nonblank tables s = true) : s ≠ "" := by
  rintro rfl
  cases h

theorem shows_iff {window : WindowEntry} {artifact : VisualArtifact} (h : artifact ∈ run.artifacts.all)
    (hid : artifact.frameId = frame.frameId) :
    artifact.result.Readable run.checker.tables ∧ artifact.result.Sealed (run.replay window)
      (frameEntry run.artifacts run.scope windowId frame) artifact.artifactType ↔
      Shows run.checker.tables frame artifact := by
  rw [result_sealed h hid, ModalityResult.Readable, result_artifactId, result_artifactHash]
  constructor
  · rintro ⟨⟨hnamed, -, htext, hmodel, hversion⟩, -, hfrom⟩
    exact ⟨⟨hnamed, htext, hmodel, hversion⟩, hfrom⟩
  · rintro ⟨⟨hnamed, htext, hmodel, hversion⟩, hfrom⟩
    exact ⟨⟨hnamed, nonblank_hashText _, htext, hmodel, hversion⟩, ne_empty_of_nonblank hnamed, hfrom⟩

/-- The results of a frame are those of the artifacts that show something on it. -/
theorem forall_results {P : ModalityResult → String → Prop} :
    ((∀ result ∈ ocrResults run.artifacts frame, P result "ocr") ∧
        ∀ result ∈ visionResults run.artifacts frame, P result "vision") ↔
      ∀ artifact ∈ run.artifacts.all, artifact.frameId = frame.frameId → artifact.shown = true →
        P artifact.result artifact.artifactType := by
  simp only [mem_ocrResults, mem_visionResults]
  constructor
  · rintro ⟨hocr, hvision⟩ artifact hin hid hshown
    cases artifact with
    | frame a => cases hshown
    | ocr a => exact hocr _ ⟨a, mem_all_ocr.mp hin, hid, hshown, rfl⟩
    | vision a => exact hvision _ ⟨a, mem_all_vision.mp hin, hid, hshown, rfl⟩
  · intro h
    constructor
    · rintro _ ⟨a, ha, hid, hshown, rfl⟩
      exact h (.ocr a) (mem_all_ocr.mpr ha) hid hshown
    · rintro _ ⟨a, ha, hid, hshown, rfl⟩
      exact h (.vision a) (mem_all_vision.mpr ha) hid hshown

theorem relation_allowed : ((frameEntry run.artifacts run.scope windowId frame).relation ≠ .supportsDisplayedMention ∧
    (frameEntry run.artifacts run.scope windowId frame).relation ≠ .entityCorrectionPending) ↔
    ∀ check, run.scope.uniqueCheck windowId frame = some check →
      check.relation ≠ .supportsDisplayedMention ∧ check.relation ≠ .entityCorrectionPending := by
  rw [frameEntry]
  cases run.scope.uniqueCheck windowId frame with
  | none => simp
  | some check => simp

/-- What both readers ask of a frame. -/
theorem frame_accepted_iff (hw : windowId ∈ run.windowIds) (hframe : frame ∈ windowFrames run.artifacts windowId) :
    (frameEntry run.artifacts run.scope windowId frame).Readable run.checker.tables ∧
      (frameEntry run.artifacts run.scope windowId frame).Sealed
        (run.replay (windowEntry run.artifacts run.scope windowId)) run.packet ↔
      run.FramePresentable windowId frame ∧ ((run.scope.uniqueCheck windowId frame).isSome = true ∨
        Unscoped run.artifacts run.scope windowId) := by
  obtain ⟨hin, hwindow⟩ := mem_windowFrames.mp hframe
  have hresults := @forall_results run frame fun result modality =>
    result.Readable run.checker.tables ∧ result.Sealed (run.replay (windowEntry run.artifacts run.scope windowId))
      (frameEntry run.artifacts run.scope windowId frame) modality
  rw [← related_iff hw hframe]
  constructor
  · rintro ⟨hread, hsealed⟩
    refine ⟨⟨hread.named, relation_allowed.mp hread.relation, ?_⟩, hsealed.related⟩
    have hall := hresults.mp ⟨fun r hr => ⟨hread.ocr r hr, hsealed.ocr r hr⟩,
      fun r hr => ⟨hread.vision r hr, hsealed.vision r hr⟩⟩
    intro artifact hartifact hid hshown
    exact (shows_iff hartifact hid).mp (hall artifact hartifact hid hshown)
  · rintro ⟨hpresentable, hrelated⟩
    have hall := hresults.mpr fun artifact hartifact hid hshown =>
      (shows_iff hartifact hid).mpr (hpresentable.results artifact hartifact hid hshown)
    constructor
    · exact ⟨relation_allowed.mpr hpresentable.relation, hpresentable.named, nonblank_hashText _,
        by rw [frameEntry, hashText, String.toList_append]; exact List.prefix_append _ _,
        fun r hr => (hall.1 r hr).1, fun r hr => (hall.2 r hr).1⟩
    · have hmem := mem_all_frame.mpr hin
      refine ⟨⟨.frame frame, ne_empty_of_nonblank hpresentable.named.2.1, run.parent_of_mem hmem,
        VisualArtifacts.load_of_mem hmem, rfl, rfl, rfl, rfl, ?_⟩, hrelated, fun r hr => (hall.1 r hr).2,
        fun r hr => (hall.2 r hr).2⟩
      rw [replay, windowEntry_evidenceWindowId]
      exact hwindow

theorem window_accepted_iff (hw : windowId ∈ run.windowIds) :
    ((windowEntry run.artifacts run.scope windowId).Readable run.checker.tables ∧
      ∀ entry ∈ (windowEntry run.artifacts run.scope windowId).frames,
        entry.Sealed (run.replay (windowEntry run.artifacts run.scope windowId)) run.packet) ↔
      nonblank run.checker.tables windowId ∧
        (∀ frame ∈ windowFrames run.artifacts windowId, run.FramePresentable windowId frame) ∧
        ((∀ frame ∈ windowFrames run.artifacts windowId, (run.scope.uniqueCheck windowId frame).isSome) ∨
          Unscoped run.artifacts run.scope windowId) := by
  rw [WindowEntry.Readable, windowEntry_evidenceWindowId, windowEntry_frames, List.forall_mem_map, List.forall_mem_map,
    and_assoc]
  apply and_congr_right
  intro _
  constructor
  · rintro ⟨hread, hsealed⟩
    have hframes := fun frame hframe => (frame_accepted_iff hw hframe).mp ⟨hread frame hframe, hsealed frame hframe⟩
    refine ⟨fun frame hframe => (hframes frame hframe).1, ?_⟩
    by_cases hunscoped : Unscoped run.artifacts run.scope windowId
    · exact .inr hunscoped
    · exact .inl fun frame hframe => (hframes frame hframe).2.resolve_right hunscoped
  · rintro ⟨hpresentable, hscoped⟩
    have hframes : ∀ frame ∈ windowFrames run.artifacts windowId, _ := fun frame hframe =>
      (frame_accepted_iff hw hframe).mpr ⟨hpresentable frame hframe, hscoped.imp (· frame hframe) id⟩
    exact ⟨fun frame hframe => (hframes frame hframe).1, fun frame hframe => (hframes frame hframe).2⟩

/-- The readers take exactly the presentable packets. -/
theorem accepted_iff_presentable (run : VisualRun) : run.Accepted ↔ run.Presentable := by
  have hvalid : validateVisualEvidence run.checker.tables run.checker.str run.packet.json run.knowledgeId = .ok () ↔
      ∀ window ∈ run.packet.windows, window.Readable run.checker.tables :=
    validateVisualEvidence_json (packet_summed run.knowledgeId) rfl
  rw [Accepted, hvalid]
  simp only [validateVisualPacketFrame_json]
  constructor
  · rintro ⟨hread, hsealed⟩ windowId hw
    have hin : windowEntry run.artifacts run.scope windowId ∈ run.packet.windows :=
      (packet_windows run.knowledgeId).mpr ⟨windowId, hw, rfl⟩
    exact (window_accepted_iff hw).mp ⟨hread _ hin, hsealed _ hin⟩
  · intro h
    constructor
    · intro window hwindow
      obtain ⟨windowId, hw, rfl⟩ := (packet_windows run.knowledgeId).mp hwindow
      exact ((window_accepted_iff hw).mpr (h windowId hw)).1
    · intro window hwindow
      obtain ⟨windowId, hw, rfl⟩ := (packet_windows run.knowledgeId).mp hwindow
      exact ((window_accepted_iff hw).mpr (h windowId hw)).2

end VisualRun

section Mention

def asciiTables : CharTables where
  isDecimal := Char.isDigit
  isSpace := Char.isWhitespace
  upper := fun c => [c.toUpper]
  letters := by
    intro c hc
    by_contra hspace
    simp only [Char.isWhitespace, Bool.not_eq_false, Bool.or_eq_true, decide_eq_true_eq, or_assoc] at hspace
    rcases hspace with rfl | rfl | rfl | rfl <;> exact absurd hc (by decide)

/-- The shown page says what is said. -/
def pageScan (text : String) : Scan where
  frame := ⟨"frame-1", "art_frame", 1000, ["segment-1"], ["window-1"]⟩
  ocrItems := [⟨text, text, some (99 / 100), "rapidocr", "1.3.0"⟩]
  visionItem := none
  transcriptSegments := [⟨"transcript-1", text, some (95 / 100)⟩]

def pageChecker : TranscriptVisualCrossChecker where
  tables := asciiTables
  str := fun _ => ""

def pageArtifacts (text : String) : VisualArtifacts where
  frames := [⟨"art_frame", "f1", "frame-1", 1000, "sha256:image", ["window-1"]⟩]
  ocr :=
    [{ artifactId := "art_ocr", contentHash := "o1", frameArtifactId := "art_frame", frameId := "frame-1"
       timestampMs := 1000, imageHash := "sha256:image", evidenceWindowIds := ["window-1"], text
       confidenceScore := some (99 / 100), engine := "rapidocr", engineVersion := "1.3.0" }]
  vision := []
  addressed := by simp [VisualArtifact.artifactId]

def pageRun (text : String) (relation : String) (h : sealCrosscheck [pageChecker.check (pageScan text)] =
    .ok [⟨"frame-1", "art_frame", 1000, ["segment-1"], ["window-1"], ["transcript-1"], relation⟩]) : VisualRun where
  checker := pageChecker
  scans := [pageScan text]
  artifacts := pageArtifacts text
  relations := _
  sealed := h
  windowIds := ["window-1"]
  draft := { semanticSegmentId := "segment-1" }
  knowledgeId := "co_1"
  crosscheckArtifactId := "art_crosscheck"
  packetArtifactId := "art_packets"

/-- Only a security is named. -/
def mentionRun : VisualRun := pageRun "600519" "SUPPORTS_DISPLAYED_MENTION" (by decide)

/-- The crosscheck artifact keeps the relation of a displayed mention; the bundle validator does not know it. -/
theorem displayed_mention_refused : ¬ mentionRun.Accepted ∧
    validateVisualEvidence asciiTables (fun _ => "") mentionRun.packet.json "co_1" =
      .error "INVALID_VISUAL_EVIDENCE_FRAME" := by
  have hrefused : validateVisualEvidence asciiTables (fun _ => "") mentionRun.packet.json "co_1" =
      .error "INVALID_VISUAL_EVIDENCE_FRAME" := by decide
  refine ⟨fun h => ?_, hrefused⟩
  cases h.1.symm.trans hrefused

example : (pageRun "算力上涨30%" "SUPPORTS" (by with_unfolding_all decide)).Accepted :=
  ⟨by with_unfolding_all decide, by with_unfolding_all decide⟩

end Mention
end StockContent.Visual
