import StockContent.Ledger.Projector
import StockContent.Occurrence.OccurrenceRepository
import StockContent.Visual.Crosscheck

/-! The visual evidence packet of an occurrence: for each of its evidence windows the frames
shown in it, what was read on them, and whether they support what was said. -/
namespace StockContent.Visual
open Storage Text Occurrence

structure FrameArtifact where
  artifactId : String
  contentHash : String
  frameId : String
  timestampMs : Int
  imageHash : String
  evidenceWindowIds : List String
  deriving DecidableEq

structure OCRArtifact where
  artifactId : String
  contentHash : String
  frameArtifactId : String
  frameId : String
  timestampMs : Int
  imageHash : String
  evidenceWindowIds : List String := []
  text : String
  confidenceScore : Option Rat := none
  engine : String
  engineVersion : String
  deriving DecidableEq

structure VisionArtifact where
  artifactId : String
  contentHash : String
  frameArtifactId : String
  frameId : String
  timestampMs : Int
  imageHash : String
  evidenceWindowIds : List String := []
  label : String := ""
  labels : List String := []
  confidenceScore : Option Rat := none
  modelName : String
  modelVersion : String
  deriving DecidableEq

inductive VisualArtifact where
  | frame (artifact : FrameArtifact)
  | ocr (artifact : OCRArtifact)
  | vision (artifact : VisionArtifact)
  deriving DecidableEq

def VisualArtifact.artifactId : VisualArtifact → String
  | .frame artifact => artifact.artifactId
  | .ocr artifact => artifact.artifactId
  | .vision artifact => artifact.artifactId

def VisualArtifact.contentHash : VisualArtifact → String
  | .frame artifact => artifact.contentHash
  | .ocr artifact => artifact.contentHash
  | .vision artifact => artifact.contentHash

/-- The visual artifacts of a run. Their ids are content addresses, so that an id names one artifact. -/
structure VisualArtifacts where
  frames : List FrameArtifact
  ocr : List OCRArtifact
  vision : List VisionArtifact
  all : List VisualArtifact := frames.map .frame ++ ocr.map .ocr ++ vision.map .vision
  all_eq : all = frames.map .frame ++ ocr.map .ocr ++ vision.map .vision := by rfl
  addressed : ∀ a ∈ all, ∀ b ∈ all, a.artifactId = b.artifactId → a = b

def VisualArtifacts.load (artifacts : VisualArtifacts) (artifactId : String) : Option VisualArtifact :=
  artifacts.all.find? (·.artifactId = artifactId)

/-- The part of a draft that its packet depends on. -/
structure ClaimOccurrenceDraft where
  semanticSegmentId : String
  bundleV2 : List (String × Json) := []

/-- The report of what a page on the screen says. Only letters in ASCII can make up `displayed`. -/
def isAttributedDisplayedSecondaryReport (text : Json → String) (draft : ClaimOccurrenceDraft) : Bool :=
  let attribution := fieldsOf (Json.lookup draft.bundleV2 "attribution")
  (Json.lookup draft.bundleV2 "claim_nature" = some (.str "ATTRIBUTED_SECONDARY_POLICY_REPORT") ||
    Json.lookup draft.bundleV2 "claim_nature" = some (.str "ATTRIBUTED_SECONDARY_MACRO_FACT_REPORT")) &&
    Json.lookup draft.bundleV2 "source_grade" = some (.str "SECONDARY") &&
    (Json.lookup attribution "attributed").any Ledger.truthy &&
    isIn "displayed" (Json.orText text (Json.lookup attribution "source_label")).toLower

inductive PacketStatus where
  | available | gap | humanReviewRequired
  deriving DecidableEq, Repr

def PacketStatus.text : PacketStatus → String
  | .available => "AVAILABLE"
  | .gap => "GAP"
  | .humanReviewRequired => "HUMAN_REVIEW_REQUIRED"

theorem PacketStatus.text_eq_available {status : PacketStatus} : status.text = "AVAILABLE" ↔ status = .available := by
  cases status <;> decide

theorem PacketStatus.text_eq_gap {status : PacketStatus} : status.text = "GAP" ↔ status = .gap := by
  cases status <;> decide

theorem PacketStatus.text_eq_review {status : PacketStatus} :
    status.text = "HUMAN_REVIEW_REQUIRED" ↔ status = .humanReviewRequired := by
  cases status <;> decide

inductive PacketReason where
  | evidenceWindowMissing | frameMissing | crosscheckContradicts | crosscheckScopeAmbiguous | crosscheckMissing
  | crosscheckUnknownOrUnrelated | displayedSecondaryNotAttributed | ocrAndVisionMissing | visualEvidenceGap
  deriving DecidableEq, Repr

def PacketReason.text : PacketReason → String
  | .evidenceWindowMissing => "EVIDENCE_WINDOW_MISSING"
  | .frameMissing => "FRAME_MISSING"
  | .crosscheckContradicts => "CROSSCHECK_CONTRADICTS"
  | .crosscheckScopeAmbiguous => "CROSSCHECK_SCOPE_AMBIGUOUS"
  | .crosscheckMissing => "CROSSCHECK_MISSING"
  | .crosscheckUnknownOrUnrelated => "CROSSCHECK_UNKNOWN_OR_UNRELATED"
  | .displayedSecondaryNotAttributed => "DISPLAYED_SECONDARY_NOT_ATTRIBUTED"
  | .ocrAndVisionMissing => "OCR_AND_VISION_MISSING"
  | .visualEvidenceGap => "VISUAL_EVIDENCE_GAP"

theorem PacketReason.text_injective : Function.Injective PacketReason.text := by
  intro a b h
  cases a <;> cases b <;> first | rfl | exact absurd h (by decide)

/-- What OCR or a vision model read on a frame. -/
structure ModalityResult where
  artifactId : String
  artifactHash : String
  summary : String
  confidence : Option Rat
  modelName : String
  modelVersion : String

structure FrameEntry where
  frameId : String
  frameArtifactId : String
  frameArtifactHash : String
  timestampMs : Int
  imageHash : String
  relation : Relation
  ocr : List ModalityResult
  vision : List ModalityResult

structure WindowEntry where
  evidenceWindowId : String
  status : PacketStatus
  reason : Option PacketReason
  frames : List FrameEntry

structure VisualEvidencePacket where
  knowledgeId : String
  occurrenceId : String
  status : PacketStatus
  reason : Option PacketReason
  windows : List WindowEntry

section Documents

def confidenceJson : Option Rat → Json
  | none => .null
  | some q => .float q

def reasonJson : Option PacketReason → Json
  | none => .null
  | some reason => .str reason.text

def ModalityResult.json (result : ModalityResult) : Json :=
  .obj
    [("artifact_id", .str result.artifactId), ("artifact_hash", .str result.artifactHash),
      ("summary", .str result.summary), ("confidence", confidenceJson result.confidence),
      ("model", .obj
        [("name", .str result.modelName), ("version", .str result.modelVersion),
          ("confidence", confidenceJson result.confidence)])]

def FrameEntry.json (entry : FrameEntry) : Json :=
  .obj
    [("frame_id", .str entry.frameId), ("frame_artifact_id", .str entry.frameArtifactId),
      ("frame_artifact_hash", .str entry.frameArtifactHash), ("timestamp_ms", .int entry.timestampMs),
      ("image_hash", .str entry.imageHash), ("relation", .str entry.relation.text),
      ("ocr", .arr (entry.ocr.map ModalityResult.json)), ("vision", .arr (entry.vision.map ModalityResult.json))]

def WindowEntry.json (entry : WindowEntry) : Json :=
  .obj
    [("evidence_window_id", .str entry.evidenceWindowId), ("status", .str entry.status.text),
      ("reason", reasonJson entry.reason), ("frames", .arr (entry.frames.map FrameEntry.json))]

def VisualEvidencePacket.json (packet : VisualEvidencePacket) : Json :=
  .obj
    [("knowledge_id", .str packet.knowledgeId), ("occurrence_id", .str packet.occurrenceId),
      ("status", .str packet.status.text), ("reason", reasonJson packet.reason),
      ("windows", .arr (packet.windows.map WindowEntry.json))]

end Documents

section Build

/-- `f"sha256:{content_hash}"`. -/
def hashText (contentHash : String) : String := "sha256:" ++ contentHash

def ocrResult (artifact : OCRArtifact) : ModalityResult :=
  ⟨artifact.artifactId, hashText artifact.contentHash, artifact.text, artifact.confidenceScore, artifact.engine,
    artifact.engineVersion⟩

def visionSummary (artifact : VisionArtifact) : String :=
  if artifact.label = "" then " ".intercalate artifact.labels else artifact.label

def visionResult (artifact : VisionArtifact) : ModalityResult :=
  ⟨artifact.artifactId, hashText artifact.contentHash, visionSummary artifact, artifact.confidenceScore,
    artifact.modelName, artifact.modelVersion⟩

/-- What a packet is built from, besides the artifacts. `str` is the text of a value that is no string. -/
structure PacketScope where
  checks : List Crosscheck
  windowIds : List String
  draft : ClaimOccurrenceDraft
  str : Json → String

variable (artifacts : VisualArtifacts) (scope : PacketScope)

def PacketScope.permitDisplayedSecondary : Bool := isAttributedDisplayedSecondaryReport scope.str scope.draft

/-- The checks of a frame in one window of the draft. -/
def PacketScope.scoped (windowId : String) (frame : FrameArtifact) : List Crosscheck :=
  scope.checks.filter fun check => check.frameId = frame.frameId && check.evidenceWindowIds = [windowId] &&
    check.semanticSegmentIds = [scope.draft.semanticSegmentId]

/-- The check of a frame, where it is the only one. -/
def PacketScope.uniqueCheck (windowId : String) (frame : FrameArtifact) : Option Crosscheck :=
  match scope.scoped windowId frame with
  | [check] => some check
  | _ => none

def PacketScope.ambiguous (windowId : String) (frame : FrameArtifact) : Bool :=
  1 < (scope.scoped windowId frame).length ||
    (scope.checks.any (·.frameId = frame.frameId) && (scope.scoped windowId frame).isEmpty)

def ocrResults (frame : FrameArtifact) : List ModalityResult :=
  (((artifacts.ocr.filter (·.frameId = frame.frameId)).insertionSort (·.artifactId ≤ ·.artifactId)).filter
    (·.text ≠ "")).map ocrResult

def visionResults (frame : FrameArtifact) : List ModalityResult :=
  (((artifacts.vision.filter (·.frameId = frame.frameId)).insertionSort (·.artifactId ≤ ·.artifactId)).filter
    fun item => item.label ≠ "" || !item.labels.isEmpty).map visionResult

def frameEntry (windowId : String) (frame : FrameArtifact) : FrameEntry where
  frameId := frame.frameId
  frameArtifactId := frame.artifactId
  frameArtifactHash := hashText frame.contentHash
  timestampMs := frame.timestampMs
  imageHash := frame.imageHash
  relation := ((scope.uniqueCheck windowId frame).map (·.relation)).getD .unknown
  ocr := ocrResults artifacts frame
  vision := visionResults artifacts frame

/-- The frames of a window, by time and id. -/
def windowFrames (windowId : String) : List FrameArtifact :=
  (artifacts.frames.filter (·.evidenceWindowIds.contains windowId)).insertionSort fun a b =>
    a.timestampMs < b.timestampMs ∨ (a.timestampMs = b.timestampMs ∧ a.frameId ≤ b.frameId)

def FrameEntry.supported (permitDisplayedSecondary : Bool) (entry : FrameEntry) : Bool :=
  (entry.relation = .supports || (entry.relation = .supportsDisplayedSecondary && permitDisplayedSecondary)) &&
    (!entry.ocr.isEmpty || !entry.vision.isEmpty)

/-- The status of a window that has frames. -/
def windowStatus (windowId : String) (frames : List FrameArtifact) (entries : List FrameEntry) :
    PacketStatus × Option PacketReason :=
  if entries.any (·.relation = .contradicts) then (.humanReviewRequired, some .crosscheckContradicts)
  else if entries.any (·.supported scope.permitDisplayedSecondary) then (.available, none)
  else if frames.all fun frame => (scope.uniqueCheck windowId frame).isNone then
    (.gap, some (if frames.any (scope.ambiguous windowId) then .crosscheckScopeAmbiguous else .crosscheckMissing))
  else if entries.any fun entry => entry.relation = .unknown || entry.relation = .unrelated then
    (.gap, some .crosscheckUnknownOrUnrelated)
  else if entries.any (·.relation = .supportsDisplayedSecondary) then (.gap, some .displayedSecondaryNotAttributed)
  else (.gap, some .ocrAndVisionMissing)

def windowEntry (windowId : String) : WindowEntry :=
  match windowFrames artifacts windowId with
  | [] => ⟨windowId, .gap, some .frameMissing, []⟩
  | frame :: frames =>
    let entries := (frame :: frames).map (frameEntry artifacts scope windowId)
    let (status, reason) := windowStatus scope windowId (frame :: frames) entries
    ⟨windowId, status, reason, entries⟩

def packetStatus (windows : List WindowEntry) : PacketStatus × Option PacketReason :=
  if windows.isEmpty then (.gap, some .evidenceWindowMissing)
  else if windows.any (·.status = .humanReviewRequired) then (.humanReviewRequired, some .crosscheckContradicts)
  else if windows.all (·.status = .available) then (.available, none)
  else (.gap, some (((windows.find? (·.status = .gap)).bind (·.reason)).getD .visualEvidenceGap))

/-- Seal the visual decision of an occurrence from its artifacts. -/
def occurrenceVisualEvidencePacket (knowledgeId : String) : VisualEvidencePacket :=
  let windows := (scope.windowIds.insertionSort (· ≤ ·)).map (windowEntry artifacts scope)
  let (status, reason) := packetStatus windows
  ⟨knowledgeId, knowledgeId, status, reason, windows⟩

end Build
end StockContent.Visual
