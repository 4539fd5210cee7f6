import StockContent.Storage.Machine
import StockContent.Visual.EvidencePacket

/-! A frame of a sealed packet, as a replay compares it with the artifacts that its snapshot holds. -/
namespace StockContent.Visual
open Storage Occurrence

section Crosschecks

/-- A crosscheck as its artifact keeps it. -/
structure CrosscheckRecord where
  frameId : String
  frameArtifactId : String
  timestampMs : Int
  semanticSegmentIds : List String
  evidenceWindowIds : List String
  transcriptSegmentIds : List String
  relation : String
  deriving DecidableEq

def CrosscheckRecord.ofCheck (check : Crosscheck) : CrosscheckRecord where
  frameId := check.frameId
  frameArtifactId := check.frameArtifactId
  timestampMs := check.timestampMs
  semanticSegmentIds := check.semanticSegmentIds.insertionSort (· ≤ ·)
  evidenceWindowIds := check.evidenceWindowIds.insertionSort (· ≤ ·)
  transcriptSegmentIds := check.transcriptSegmentIds.insertionSort (· ≤ ·)
  relation := check.relation.text

def CrosscheckRecord.before (a b : CrosscheckRecord) : Bool :=
  a.timestampMs < b.timestampMs || (a.timestampMs = b.timestampMs && (a.frameId < b.frameId ||
    (a.frameId = b.frameId && a.frameArtifactId ≤ b.frameArtifactId)))

def crosscheckRelations : List String :=
  ["SUPPORTS", "CONTRADICTS", "SUPPORTS_DISPLAYED_SECONDARY", "SUPPORTS_DISPLAYED_MENTION",
    "ENTITY_CORRECTION_PENDING", "UNRELATED", "UNKNOWN"]

/-- The frames whose insights are admitted. -/
def eligibleFrameIds (checks : List Crosscheck) : List String :=
  (checks.filter fun check => check.relation = .supports || check.relation = .contradicts).map (·.frameId)

/-- The relations of the artifact in which the checks of a run are sealed. -/
def sealCrosscheck (checks : List Crosscheck) : Except String (List CrosscheckRecord) := do
  let records := (checks.map .ofCheck).insertionSort (fun a b => a.before b)
  require "invalid transcript visual crosscheck relation" (records.all (crosscheckRelations.contains ·.relation))
  require "crosscheck relation requires frame identity"
    (records.all fun item => item.frameId ≠ "" && item.frameArtifactId ≠ "")
  let allowed := (records.filter fun item => item.relation = "SUPPORTS" || item.relation = "CONTRADICTS").map (·.frameId)
  require "eligible visual frames must exactly equal admitted crosscheck relations"
    (sortedSet ((eligibleFrameIds checks).filter (· ≠ "")) = sortedSet allowed)
  return records

/-- The checks of a run, as later stages read them. -/
def transcriptVisualCrosschecks (checker : TranscriptVisualCrossChecker) (scans : List Scan) : List Crosscheck :=
  (scans.map checker.check).insertionSort fun a b =>
    a.timestampMs < b.timestampMs ∨ (a.timestampMs = b.timestampMs ∧ a.frameId ≤ b.frameId)

end Crosschecks

section Artifacts

def VisualArtifact.artifactType : VisualArtifact → String
  | .frame _ => "frame"
  | .ocr _ => "ocr"
  | .vision _ => "vision"

def VisualArtifact.frameId : VisualArtifact → String
  | .frame artifact => artifact.frameId
  | .ocr artifact => artifact.frameId
  | .vision artifact => artifact.frameId

def VisualArtifact.timestampMs : VisualArtifact → Int
  | .frame artifact => artifact.timestampMs
  | .ocr artifact => artifact.timestampMs
  | .vision artifact => artifact.timestampMs

def VisualArtifact.imageHash : VisualArtifact → String
  | .frame artifact => artifact.imageHash
  | .ocr artifact => artifact.imageHash
  | .vision artifact => artifact.imageHash

def VisualArtifact.evidenceWindowIds : VisualArtifact → List String
  | .frame artifact => artifact.evidenceWindowIds
  | .ocr artifact => artifact.evidenceWindowIds
  | .vision artifact => artifact.evidenceWindowIds

/-- A frame was taken from no other frame. -/
def VisualArtifact.frameArtifactId : VisualArtifact → String
  | .frame _ => ""
  | .ocr artifact => artifact.frameArtifactId
  | .vision artifact => artifact.frameArtifactId

/-- What a replay expects a modality's result to say about its artifact. -/
def VisualArtifact.result : VisualArtifact → ModalityResult
  | .frame artifact => ⟨artifact.artifactId, hashText artifact.contentHash, "", none, "", ""⟩
  | .ocr artifact => ocrResult artifact
  | .vision artifact => visionResult artifact

end Artifacts

/-- How a replay ends early. -/
inductive ReplayFailure where
  | integrity (code message : String) (details : List (String × String))
  | typeError (message : String)
  deriving DecidableEq, Repr

/-- What a replay passes along with a packet's frame. -/
structure FrameReplay where
  evidenceWindowId : String
  windowStatus : String
  windowReason : String
  semanticSegmentId : String
  relations : List CrosscheckRecord
  visualParentIds : List String
  load : String → Option VisualArtifact
  artifactId : String

section Replay
variable (str : Json → String) (replay : FrameReplay)

/-- `list(value or ())`. -/
def listed : Option Json → Except ReplayFailure (List Json)
  | none | some .null | some (.bool false) | some (.int 0) => .ok []
  | some (.float q) => if q = 0 then .ok [] else .error (.typeError "'float' object is not iterable")
  | some (.arr items) => .ok items
  | some (.obj fields) => .ok (fields.map fun field => .str field.1)
  | some (.str s) => .ok (s.toList.map fun c => .str (String.singleton c))
  | some (.bool true) => .error (.typeError "'bool' object is not iterable")
  | some (.int _) => .error (.typeError "'int' object is not iterable")

/-- `==` of a document's value with a sealed one. -/
def holds (value : Option Json) (expected : Json) : Bool := (value.getD .null).same expected

def FrameReplay.failure (code message : String) (more : List (String × String) := []) : ReplayFailure :=
  .integrity code message (("artifact_id", replay.artifactId) :: more)

/-- The artifact with an id, if it is one of the packet's parents. -/
def FrameReplay.parent (id : String) (message key : String) : Except ReplayFailure VisualArtifact :=
  match if id ≠ "" ∧ id ∈ replay.visualParentIds then replay.load id else none with
  | some artifact => .ok artifact
  | none => .error (replay.failure "REPLAY_LINEAGE_REFERENCE_MISSING" message [(key, id)])

/-- The sealed relations of a frame in its window and segment. -/
def FrameReplay.matching (frame : List (String × Json)) : List CrosscheckRecord :=
  replay.relations.filter fun relation =>
    relation.frameId = Json.orText str (Json.lookup frame "frame_id") &&
      relation.evidenceWindowIds = [replay.evidenceWindowId] && relation.semanticSegmentIds = [replay.semanticSegmentId]

def windowAwaitsReview : Json → Bool
  | .obj window => Json.lookup window "status" = some (.str "HUMAN_REVIEW_REQUIRED")
  | _ => false

def awaitsReview (packet : List (String × Json)) : Except ReplayFailure Bool :=
  if Json.orText str (Json.lookup packet "status") = "HUMAN_REVIEW_REQUIRED" then do
    let windows ← listed (Json.lookup packet "windows")
    return windows.any windowAwaitsReview
  else .ok false

/-- A gap is sealed because there is no crosscheck in scope, or more than one. Its frames are in no relation. -/
def FrameReplay.unresolvedGap (packet frame : List (String × Json)) (mixedHumanReview : Bool) : Bool :=
  let count := (replay.matching str frame).length
  replay.windowStatus = "GAP" && (Json.orText str (Json.lookup packet "status") = "GAP" || mixedHumanReview) &&
    Json.orText str (Json.lookup frame "relation") = "UNKNOWN" &&
    ((replay.windowReason = "CROSSCHECK_MISSING" && count = 0) ||
      (replay.windowReason = "CROSSCHECK_SCOPE_AMBIGUOUS" && count ≠ 1))

/-- Whether a frame shows the relation that is sealed for it alone. -/
def FrameReplay.uniquelySealed (frame : List (String × Json)) : Bool :=
  match replay.matching str frame with
  | [relation] => relation.relation = Json.orText str (Json.lookup frame "relation")
  | _ => false

def FrameReplay.sameResult (frame result : List (String × Json)) (artifact : VisualArtifact) : Bool :=
  let model := fieldsOf (Json.lookup result "model")
  artifact.frameArtifactId = Json.orText str (Json.lookup frame "frame_artifact_id") &&
    artifact.frameId = Json.orText str (Json.lookup frame "frame_id") &&
    holds (Json.lookup frame "timestamp_ms") (.int artifact.timestampMs) &&
    artifact.imageHash = Json.orText str (Json.lookup frame "image_hash") &&
    Json.orText str (Json.lookup result "summary") = artifact.result.summary &&
    holds (Json.lookup result "confidence") (confidenceJson artifact.result.confidence) &&
    holds (Json.lookup model "name") (.str artifact.result.modelName) &&
    holds (Json.lookup model "version") (.str artifact.result.modelVersion)

def FrameReplay.validateResult (frame : List (String × Json)) (modality : String) :
    Json → Except ReplayFailure Unit
  | .obj result => do
    let id := Json.orText str (Json.lookup result "artifact_id")
    let artifact ← replay.parent id "visual packet modality is outside sealed parent closure" "result_artifact_id"
    require (replay.failure "REPLAY_ARTIFACT_HASH_MISMATCH" "visual packet modality hash does not match artifact"
      [("result_artifact_id", id)]) (holds (Json.lookup result "artifact_hash") (.str (hashText artifact.contentHash)))
    require (replay.failure "REPLAY_LINEAGE_REFERENCE_INVALID" "visual packet modality type does not match artifact"
      [("result_artifact_id", id)]) (artifact.artifactType = modality)
    require (replay.failure "REPLAY_LINEAGE_REFERENCE_INVALID"
      "visual packet modality fields do not match sealed artifact" [("result_artifact_id", id)])
      (FrameReplay.sameResult str frame result artifact)
  | _ => .error (replay.failure "REPLAY_LINEAGE_REFERENCE_INVALID" "visual packet modality result is malformed")

def FrameReplay.validateResults (frame : List (String × Json)) (modality : String) : Except ReplayFailure Unit := do
  let results ← listed (Json.lookup frame modality)
  results.forM (replay.validateResult str frame modality)

def validateVisualPacketFrame : Json → Json → Except ReplayFailure Unit
  | .obj packet, .obj frame => do
    let id := Json.orText str (Json.lookup frame "frame_artifact_id")
    let artifact ← replay.parent id "visual packet frame is outside sealed parent closure" "frame_artifact_id"
    require (replay.failure "REPLAY_ARTIFACT_HASH_MISMATCH" "visual packet frame hash does not match artifact"
      [("frame_artifact_id", id)])
      (holds (Json.lookup frame "frame_artifact_hash") (.str (hashText artifact.contentHash)))
    require (replay.failure "REPLAY_LINEAGE_REFERENCE_INVALID"
      "visual packet frame fields do not match sealed artifact" [("frame_artifact_id", id)])
      (Json.orText str (Json.lookup frame "frame_id") = artifact.frameId &&
        holds (Json.lookup frame "timestamp_ms") (.int artifact.timestampMs) &&
        Json.orText str (Json.lookup frame "image_hash") = artifact.imageHash &&
        artifact.evidenceWindowIds.contains replay.evidenceWindowId)
    let mixedHumanReview ← awaitsReview str packet
    require (replay.failure "REPLAY_LINEAGE_REFERENCE_INVALID"
      "visual packet relation is not uniquely sealed for its scope")
      (replay.unresolvedGap str packet frame mixedHumanReview || replay.uniquelySealed str frame)
    ["ocr", "vision"].forM (replay.validateResults str frame)
  | _, _ => .error (replay.failure "REPLAY_LINEAGE_REFERENCE_INVALID" "knowledge visual evidence packet is malformed")

end Replay

section Reading
variable {str : Json → String} {replay : FrameReplay}

@[simp] theorem fieldsOf_obj (fields : List (String × Json)) : fieldsOf (some (.obj fields)) = fields := rfl

@[simp] theorem holds_str (a b : String) : holds (some (.str a)) (.str b) = true ↔ a = b := by
  simp [holds, Json.same, Json.numeric, Json.number?, Json.canonical]

@[simp] theorem holds_int (a b : Int) : holds (some (.int a)) (.int b) = true ↔ a = b := by
  simp [holds, Json.same, Json.numeric, Json.number?, Json.canonical]

@[simp] theorem holds_confidence (a b : Option Rat) :
    holds (some (confidenceJson a)) (confidenceJson b) = true ↔ a = b := by
  cases a <;> cases b <;> simp [holds, confidenceJson, Json.same, Json.numeric, Json.number?, Json.canonical]

theorem parent_eq_ok {id message key : String} {artifact : VisualArtifact} :
    replay.parent id message key = .ok artifact ↔
      id ≠ "" ∧ id ∈ replay.visualParentIds ∧ replay.load id = some artifact := by
  rw [FrameReplay.parent]
  by_cases h : id ≠ "" ∧ id ∈ replay.visualParentIds
  · rw [if_pos h]
    cases hl : replay.load id with
    | none => simp
    | some a => simp [h.1, h.2]
  · rw [if_neg h]
    simp only [reduceCtorEq, false_iff]
    rintro ⟨hne, hin, _⟩
    exact h ⟨hne, hin⟩

theorem windowAwaitsReview_json (window : WindowEntry) :
    windowAwaitsReview window.json = decide (window.status = .humanReviewRequired) := by
  simp [windowAwaitsReview, WindowEntry.json, Json.lookup_cons, PacketStatus.text_eq_review]

theorem awaitsReview_json (packet : VisualEvidencePacket) {fields : List (String × Json)}
    (h : packet.json = .obj fields) :
    awaitsReview str fields =
      .ok (packet.status = .humanReviewRequired && packet.windows.any (·.status = .humanReviewRequired)) := by
  cases h
  have hwindows : (packet.windows.map WindowEntry.json).any windowAwaitsReview =
      packet.windows.any (·.status = .humanReviewRequired) := by
    rw [List.any_map]
    congr 1
    funext window
    exact windowAwaitsReview_json window
  by_cases hs : packet.status = .humanReviewRequired
  · simp [awaitsReview, Json.lookup_cons, PacketStatus.text_eq_review, hs, listed, hwindows, pure, Except.pure]
  · simp [awaitsReview, Json.lookup_cons, PacketStatus.text_eq_review, hs]

/-- What a replay asks of a modality's result. -/
def ModalityResult.Sealed (replay : FrameReplay) (entry : FrameEntry) (modality : String) (result : ModalityResult) :
    Prop :=
  ∃ artifact, result.artifactId ≠ "" ∧ result.artifactId ∈ replay.visualParentIds ∧
    replay.load result.artifactId = some artifact ∧ result.artifactHash = hashText artifact.contentHash ∧
    artifact.artifactType = modality ∧ artifact.frameArtifactId = entry.frameArtifactId ∧
    artifact.frameId = entry.frameId ∧ entry.timestampMs = artifact.timestampMs ∧
    artifact.imageHash = entry.imageHash ∧ result.summary = artifact.result.summary ∧
    result.confidence = artifact.result.confidence ∧ result.modelName = artifact.result.modelName ∧
    result.modelVersion = artifact.result.modelVersion

theorem validateResult_json {entry : FrameEntry} {frame : List (String × Json)} (hframe : entry.json = .obj frame)
    (modality : String) (result : ModalityResult) :
    replay.validateResult str frame modality result.json = .ok () ↔ result.Sealed replay entry modality := by
  cases hframe
  rw [ModalityResult.json, FrameReplay.validateResult, bind_eq_ok, ModalityResult.Sealed]
  simp only [then_eq_ok, require_eq_ok, parent_eq_ok]
  refine exists_congr fun artifact => ?_
  simp [FrameReplay.sameResult, Json.lookup_cons, and_assoc]

theorem validateResults_json {entry : FrameEntry} {frame : List (String × Json)} (hframe : entry.json = .obj frame)
    {modality : String} {results : List ModalityResult}
    (h : Json.lookup frame modality = some (.arr (results.map ModalityResult.json))) :
    replay.validateResults str frame modality = .ok () ↔ ∀ result ∈ results, result.Sealed replay entry modality := by
  rw [FrameReplay.validateResults, h, listed, ok_bind, forM_eq_ok, List.forall_mem_map]
  simp only [validateResult_json hframe]

/-- The sealed relations of a frame in the window and the segment of a replay. -/
def FrameReplay.sealed (replay : FrameReplay) (frameId : String) : List CrosscheckRecord :=
  replay.relations.filter fun relation =>
    relation.frameId = frameId && relation.evidenceWindowIds = [replay.evidenceWindowId] &&
      relation.semanticSegmentIds = [replay.semanticSegmentId]

/-- Whether a frame's relation is the one sealed for it alone, or it is in none because its gap has none. -/
def FrameEntry.Related (replay : FrameReplay) (packet : VisualEvidencePacket) (entry : FrameEntry) : Prop :=
  (replay.windowStatus = "GAP" ∧ (packet.status = .gap ∨ packet.status = .humanReviewRequired ∧
      ∃ window ∈ packet.windows, window.status = .humanReviewRequired) ∧ entry.relation = .unknown ∧
    (replay.windowReason = "CROSSCHECK_MISSING" ∧ (replay.sealed entry.frameId).length = 0 ∨
      replay.windowReason = "CROSSCHECK_SCOPE_AMBIGUOUS" ∧ (replay.sealed entry.frameId).length ≠ 1)) ∨
    ∃ relation, replay.sealed entry.frameId = [relation] ∧ relation.relation = entry.relation.text

/-- What a replay asks of a packet's frame. -/
structure FrameEntry.Sealed (replay : FrameReplay) (packet : VisualEvidencePacket) (entry : FrameEntry) : Prop where
  frame : ∃ artifact, entry.frameArtifactId ≠ "" ∧ entry.frameArtifactId ∈ replay.visualParentIds ∧
    replay.load entry.frameArtifactId = some artifact ∧ entry.frameArtifactHash = hashText artifact.contentHash ∧
    entry.frameId = artifact.frameId ∧ entry.timestampMs = artifact.timestampMs ∧
    entry.imageHash = artifact.imageHash ∧ replay.evidenceWindowId ∈ artifact.evidenceWindowIds
  related : entry.Related replay packet
  ocr : ∀ result ∈ entry.ocr, result.Sealed replay entry "ocr"
  vision : ∀ result ∈ entry.vision, result.Sealed replay entry "vision"

theorem related_json {packet : VisualEvidencePacket} {entry : FrameEntry} {document frame : List (String × Json)}
    (hdocument : packet.json = .obj document) (hframe : entry.json = .obj frame) :
    (replay.unresolvedGap str document frame
      (packet.status = .humanReviewRequired && packet.windows.any (·.status = .humanReviewRequired)) ||
        replay.uniquelySealed str frame) = true ↔ entry.Related replay packet := by
  have hstatus : Json.orText str (Json.lookup document "status") = packet.status.text := by
    cases hdocument
    simp [Json.lookup_cons]
  have hrelation : Json.orText str (Json.lookup frame "relation") = entry.relation.text := by
    cases hframe
    simp [Json.lookup_cons]
  have hmatching : replay.matching str frame = replay.sealed entry.frameId := by
    cases hframe
    simp [FrameReplay.matching, FrameReplay.sealed, Json.lookup_cons]
  rw [FrameReplay.unresolvedGap, FrameReplay.uniquelySealed, hstatus, hrelation, hmatching, Bool.or_eq_true,
    FrameEntry.Related]
  apply or_congr
  · simp [PacketStatus.text_eq_gap, Relation.text_eq_unknown, and_assoc]
  · match replay.sealed entry.frameId with
    | [] => simp
    | [relation] => simp
    | _ :: _ :: _ => simp

theorem validateVisualPacketFrame_json (packet : VisualEvidencePacket) (entry : FrameEntry) :
    validateVisualPacketFrame str replay packet.json entry.json = .ok () ↔ entry.Sealed replay packet := by
  obtain ⟨document, hdocument⟩ : ∃ fields, packet.json = .obj fields := ⟨_, rfl⟩
  obtain ⟨frame, hframe⟩ : ∃ fields, entry.json = .obj fields := ⟨_, rfl⟩
  have hocr : Json.lookup frame "ocr" = some (.arr (entry.ocr.map ModalityResult.json)) := by
    cases hframe
    simp [Json.lookup_cons]
  have hvision : Json.lookup frame "vision" = some (.arr (entry.vision.map ModalityResult.json)) := by
    cases hframe
    simp [Json.lookup_cons]
  have hfields (artifact : VisualArtifact) :
      (Json.orText str (Json.lookup frame "frame_id") = artifact.frameId &&
        holds (Json.lookup frame "timestamp_ms") (.int artifact.timestampMs) &&
        Json.orText str (Json.lookup frame "image_hash") = artifact.imageHash &&
        artifact.evidenceWindowIds.contains replay.evidenceWindowId) = true ↔
      entry.frameId = artifact.frameId ∧ entry.timestampMs = artifact.timestampMs ∧
        entry.imageHash = artifact.imageHash ∧ replay.evidenceWindowId ∈ artifact.evidenceWindowIds := by
    cases hframe
    simp [Json.lookup_cons, and_assoc]
  have hid : Json.orText str (Json.lookup frame "frame_artifact_id") = entry.frameArtifactId := by
    cases hframe
    simp [Json.lookup_cons]
  have hhash : Json.lookup frame "frame_artifact_hash" = some (.str entry.frameArtifactHash) := by
    cases hframe
    simp [Json.lookup_cons]
  rw [hdocument, hframe, validateVisualPacketFrame, bind_eq_ok]
  simp only [then_eq_ok, require_eq_ok, parent_eq_ok, awaitsReview_json packet hdocument, ok_bind, forM_eq_ok,
    List.forall_mem_cons, List.not_mem_nil, validateResults_json hframe hocr, validateResults_json hframe hvision,
    related_json hdocument hframe, hfields, hid, hhash, holds_str]
  constructor
  · rintro ⟨artifact, ⟨hne, hin, hload⟩, hsum, ⟨hframeId, htime, himage, hwindow⟩, hrelated, hread, hseen, -⟩
    exact ⟨⟨artifact, hne, hin, hload, hsum, hframeId, htime, himage, hwindow⟩, hrelated, hread, hseen⟩
  · intro h
    obtain ⟨artifact, hne, hin, hload, hsum, hframeId, htime, himage, hwindow⟩ := h.frame
    exact ⟨artifact, ⟨hne, hin, hload⟩, hsum, ⟨hframeId, htime, himage, hwindow⟩, h.related, h.ocr, h.vision,
      fun _ hf => hf.elim⟩

end Reading
end StockContent.Visual
