import StockContent.Storage.Machine
import StockContent.Visual.EvidencePacket

/-! The packet of an item, as the validator of a version 2 bundle reads it. -/
namespace StockContent.Visual
open Storage Text

section Validator
variable (tables : CharTables) (str : Json → String)

/-- `str(value or "").strip()` is not empty. -/
def filled (value : Option Json) : Bool := nonblank tables (Json.orText str value)

/-- `value in allowed`, for a set, in which a value is looked up by its hash. -/
def isOneOf (allowed : List String) : Option Json → Except String Bool
  | some (.str s) => .ok (allowed.contains s)
  | some (.arr _) => .error "unhashable type: 'list'"
  | some (.obj _) => .error "unhashable type: 'dict'"
  | _ => .ok false

def requireOneOf (error : String) (allowed : List String) (value : Option Json) : Except String Unit := do
  require error (← isOneOf allowed value)

def requireMapping (error : String) : Option Json → Except String (List (String × Json))
  | some (.obj fields) => .ok fields
  | _ => .error error

def requireList (error : String) : Option Json → Except String (List Json)
  | some (.arr items) => .ok items
  | _ => .error error

/-- Truth values are whole numbers. -/
def isInt : Option Json → Bool
  | some (.int _) | some (.bool _) => true
  | _ => false

def packetStatuses : List String := ["AVAILABLE", "GAP", "HUMAN_REVIEW_REQUIRED"]

def allowedRelations : List String :=
  ["SUPPORTS", "SUPPORTS_DISPLAYED_SECONDARY", "CONTRADICTS", "UNKNOWN", "UNRELATED"]

/-- A modality's result names its artifact, its content and its model. -/
def summarized : Json → Bool
  | .obj item =>
    match Json.lookup item "model" with
    | some (.obj model) =>
      ["artifact_id", "artifact_hash", "summary"].all (fun key => filled tables str (Json.lookup item key)) &&
        ["name", "version"].all fun key => filled tables str (Json.lookup model key)
    | _ => false
  | _ => false

def validateResults (frame : List (String × Json)) (modality : String) : Except String Unit := do
  let items ← requireList "INVALID_VISUAL_EVIDENCE_FRAME" (Json.lookup frame modality)
  items.forM fun item => require "INVALID_VISUAL_EVIDENCE_SUMMARY" (summarized tables str item)

def validateFrame (value : Json) : Except String Unit := do
  let frame ← requireMapping "INCOMPLETE_VISUAL_EVIDENCE_FRAME" (some value)
  require "INCOMPLETE_VISUAL_EVIDENCE_FRAME"
    (["frame_id", "frame_artifact_id", "frame_artifact_hash", "timestamp_ms", "image_hash", "relation", "ocr",
      "vision"].all fun key => (Json.lookup frame key).isSome)
  requireOneOf "INVALID_VISUAL_EVIDENCE_FRAME" allowedRelations (Json.lookup frame "relation")
  require "INVALID_VISUAL_EVIDENCE_FRAME" (isInt (Json.lookup frame "timestamp_ms"))
  require "INVALID_VISUAL_EVIDENCE_FRAME"
    (["frame_id", "frame_artifact_id", "frame_artifact_hash", "image_hash"].all fun key =>
      filled tables str (Json.lookup frame key))
  require "INVALID_VISUAL_EVIDENCE_FRAME"
    ("sha256:".toList.isPrefixOf (((Json.lookup frame "frame_artifact_hash").map (Json.strOf str)).getD "").toList)
  ["ocr", "vision"].forM (validateResults tables str frame)

/-- The status of a window whose frames are in order. -/
def validateWindow (value : Json) : Except String String := do
  let window ← requireMapping "INVALID_VISUAL_EVIDENCE_WINDOW" (some value)
  require "INVALID_VISUAL_EVIDENCE_WINDOW" (filled tables str (Json.lookup window "evidence_window_id"))
  requireOneOf "INVALID_VISUAL_EVIDENCE_WINDOW" packetStatuses (Json.lookup window "status")
  let frames ← requireList "INVALID_VISUAL_EVIDENCE_WINDOW" (Json.lookup window "frames")
  frames.forM (validateFrame tables str)
  return ((Json.lookup window "status").map (Json.strOf str)).getD ""

def validateVisualEvidence (value : Json) (knowledgeId : String) : Except String Unit := do
  let packet ← requireMapping "INVALID_VISUAL_EVIDENCE_PACKET" (some value)
  require "VISUAL_EVIDENCE_IDENTITY_MISMATCH"
    (Json.lookup packet "knowledge_id" = some (.str knowledgeId) &&
      Json.lookup packet "occurrence_id" = some (.str knowledgeId))
  let status := Json.lookup packet "status"
  requireOneOf "INVALID_VISUAL_EVIDENCE_PACKET" packetStatuses status
  let windows ← requireList "INVALID_VISUAL_EVIDENCE_PACKET" (Json.lookup packet "windows")
  require "VISUAL_EVIDENCE_AVAILABLE_WITHOUT_WINDOW" (status != some (.str "AVAILABLE") || !windows.isEmpty)
  let statuses ← windows.mapM (validateWindow tables str)
  require "VISUAL_EVIDENCE_STATUS_MISMATCH"
    (status != some (.str "AVAILABLE") || (!statuses.isEmpty && statuses.all (· == "AVAILABLE")))
  require "VISUAL_EVIDENCE_STATUS_MISMATCH"
    (status != some (.str "HUMAN_REVIEW_REQUIRED") || statuses.contains "HUMAN_REVIEW_REQUIRED")

end Validator

section Reading
variable {tables : CharTables} {str : Json → String}

theorem requireOneOf_str {error : String} {allowed : List String} {s : String} :
    requireOneOf error allowed (some (.str s)) = .ok () ↔ s ∈ allowed := by
  change require error (allowed.contains s) = .ok () ↔ _
  rw [require_eq_ok, List.contains_iff_mem]

@[simp] theorem requireMapping_obj (error : String) (fields : List (String × Json)) :
    requireMapping error (some (.obj fields)) = .ok fields := rfl

@[simp] theorem requireList_arr (error : String) (items : List Json) :
    requireList error (some (.arr items)) = .ok items := rfl

@[simp] theorem filled_str (s : String) : filled tables str (some (.str s)) = nonblank tables s := rfl

/-- A hash with its prefix is never blank. -/
@[simp] theorem nonblank_hashText (contentHash : String) : nonblank tables (hashText contentHash) = true := by
  have hs : 's' ∈ (hashText contentHash).toList := by
    rw [hashText, String.toList_append]
    exact List.mem_append_left _ (by decide)
  exact List.any_eq_true.mpr ⟨'s', hs, by rw [tables.letters 's' (by decide)]; rfl⟩

theorem status_text_mem (status : PacketStatus) : status.text ∈ packetStatuses := by
  cases status <;> decide

/-- Two of the relations that a crosscheck can find are not among those a bundle may show. -/
theorem relation_text_mem (relation : Relation) :
    relation.text ∈ allowedRelations ↔ relation ≠ .supportsDisplayedMention ∧ relation ≠ .entityCorrectionPending := by
  cases relation <;> decide

/-- What the bundle validator asks of a modality's result. -/
def ModalityResult.Readable (tables : CharTables) (result : ModalityResult) : Prop :=
  nonblank tables result.artifactId ∧ nonblank tables result.artifactHash ∧ nonblank tables result.summary ∧
    nonblank tables result.modelName ∧ nonblank tables result.modelVersion

theorem summarized_json (result : ModalityResult) :
    summarized tables str result.json = true ↔ result.Readable tables := by
  simp [summarized, ModalityResult.json, ModalityResult.Readable, Json.lookup_cons, and_assoc]

/-- What the bundle validator asks of a frame. -/
structure FrameEntry.Readable (tables : CharTables) (entry : FrameEntry) : Prop where
  relation : entry.relation ≠ .supportsDisplayedMention ∧ entry.relation ≠ .entityCorrectionPending
  named : nonblank tables entry.frameId ∧ nonblank tables entry.frameArtifactId ∧ nonblank tables entry.imageHash
  hashed : nonblank tables entry.frameArtifactHash
  addressed : "sha256:".toList <+: entry.frameArtifactHash.toList
  ocr : ∀ result ∈ entry.ocr, result.Readable tables
  vision : ∀ result ∈ entry.vision, result.Readable tables

theorem validateResults_arr {results : List ModalityResult} {frame : List (String × Json)} {modality : String}
    (h : Json.lookup frame modality = some (.arr (results.map ModalityResult.json))) :
    validateResults tables str frame modality = .ok () ↔ ∀ result ∈ results, result.Readable tables := by
  rw [validateResults, h, requireList_arr, ok_bind, forM_eq_ok, List.forall_mem_map]
  simp only [require_eq_ok, summarized_json]

theorem validateFrame_json (entry : FrameEntry) :
    validateFrame tables str entry.json = .ok () ↔ entry.Readable tables := by
  rw [FrameEntry.json, validateFrame, requireMapping_obj, ok_bind]
  set frame := [("frame_id", Json.str entry.frameId), _, _, _, _, _, _, _] with hframe
  have hocr : Json.lookup frame "ocr" = some (.arr (entry.ocr.map ModalityResult.json)) := by
    simp [hframe, Json.lookup_cons]
  have hvision : Json.lookup frame "vision" = some (.arr (entry.vision.map ModalityResult.json)) := by
    simp [hframe, Json.lookup_cons]
  have hrelation : Json.lookup frame "relation" = some (.str entry.relation.text) := by
    simp [hframe, Json.lookup_cons]
  simp only [then_eq_ok, require_eq_ok, forM_eq_ok, List.forall_mem_cons, List.not_mem_nil,
    validateResults_arr hocr, validateResults_arr hvision, hrelation, requireOneOf_str, relation_text_mem]
  have hkeys : (["frame_id", "frame_artifact_id", "frame_artifact_hash", "timestamp_ms", "image_hash", "relation",
      "ocr", "vision"].all fun key => (Json.lookup frame key).isSome) = true := by
    simp [hframe, Json.lookup_cons]
  have htime : isInt (Json.lookup frame "timestamp_ms") = true := by
    simp [hframe, Json.lookup_cons, isInt]
  have hnames : (["frame_id", "frame_artifact_id", "frame_artifact_hash", "image_hash"].all fun key =>
      filled tables str (Json.lookup frame key)) = true ↔
      nonblank tables entry.frameId ∧ nonblank tables entry.frameArtifactId ∧
        nonblank tables entry.frameArtifactHash ∧ nonblank tables entry.imageHash := by
    simp [hframe, Json.lookup_cons]
  have hhash : Json.lookup frame "frame_artifact_hash" = some (.str entry.frameArtifactHash) := by
    simp [hframe, Json.lookup_cons]
  rw [hnames, hhash, Option.map_some, Option.getD_some, Json.strOf, List.isPrefixOf_iff_prefix]
  constructor
  · rintro ⟨-, hrel, -, ⟨hid, hart, hhashed, himage⟩, hprefix, hread, hseen, -⟩
    exact ⟨hrel, ⟨hid, hart, himage⟩, hhashed, hprefix, hread, hseen⟩
  · intro h
    obtain ⟨hid, hart, himage⟩ := h.named
    exact ⟨hkeys, h.relation, htime, ⟨hid, hart, h.hashed, himage⟩, h.addressed, h.ocr, h.vision,
      fun _ hf => hf.elim⟩

/-- What the bundle validator asks of a window. -/
def WindowEntry.Readable (tables : CharTables) (entry : WindowEntry) : Prop :=
  nonblank tables entry.evidenceWindowId ∧ ∀ frame ∈ entry.frames, frame.Readable tables

theorem validateWindow_json (entry : WindowEntry) (status : String) :
    validateWindow tables str entry.json = .ok status ↔ status = entry.status.text ∧ entry.Readable tables := by
  rw [WindowEntry.json, validateWindow, requireMapping_obj, ok_bind]
  set window := [("evidence_window_id", Json.str entry.evidenceWindowId), _, _, _] with hwindow
  have hid : Json.lookup window "evidence_window_id" = some (.str entry.evidenceWindowId) := by
    simp [hwindow, Json.lookup_cons]
  have hstatus : Json.lookup window "status" = some (.str entry.status.text) := by
    simp [hwindow, Json.lookup_cons]
  have hframes : Json.lookup window "frames" = some (.arr (entry.frames.map FrameEntry.json)) := by
    simp [hwindow, Json.lookup_cons]
  simp only [hid, hstatus, hframes, filled_str, then_eq_ok, require_eq_ok, requireOneOf_str, status_text_mem,
    requireList_arr, ok_bind, forM_eq_ok, List.forall_mem_map, validateFrame_json, Option.map_some, Option.getD_some,
    Json.strOf, true_and, WindowEntry.Readable]
  constructor
  · rintro ⟨hfilled, hread, hout⟩
    cases hout
    exact ⟨rfl, hfilled, hread⟩
  · rintro ⟨rfl, hfilled, hread⟩
    exact ⟨hfilled, hread, rfl⟩

theorem validateWindow_each {windows : List WindowEntry} {statuses : List String} :
    (windows.map WindowEntry.json).mapM (validateWindow tables str) = .ok statuses ↔
      statuses = windows.map (·.status.text) ∧ ∀ window ∈ windows, window.Readable tables := by
  rw [List.mapM_map]
  exact mapM_eq_ok fun window _ status => validateWindow_json window status

/-- The status of a packet agrees with those of its windows. -/
structure VisualEvidencePacket.Summed (packet : VisualEvidencePacket) : Prop where
  available : packet.status = .available → packet.windows ≠ [] ∧ ∀ window ∈ packet.windows, window.status = .available
  review : packet.status = .humanReviewRequired → ∃ window ∈ packet.windows, window.status = .humanReviewRequired

/-- The bundle validator accepts a packet under its own id whose status follows from its windows, if it can read
each of them. -/
theorem validateVisualEvidence_json {packet : VisualEvidencePacket} (hsummed : packet.Summed)
    (hsame : packet.occurrenceId = packet.knowledgeId) :
    validateVisualEvidence tables str packet.json packet.knowledgeId = .ok () ↔
      ∀ window ∈ packet.windows, window.Readable tables := by
  rw [VisualEvidencePacket.json, validateVisualEvidence, requireMapping_obj, ok_bind, hsame]
  set fields := [("knowledge_id", Json.str packet.knowledgeId), _, _, _, _] with hfields
  have hknowledge : Json.lookup fields "knowledge_id" = some (.str packet.knowledgeId) := by
    simp [hfields, Json.lookup_cons]
  have hoccurrence : Json.lookup fields "occurrence_id" = some (.str packet.knowledgeId) := by
    simp [hfields, Json.lookup_cons]
  have hstatus : Json.lookup fields "status" = some (.str packet.status.text) := by
    simp [hfields, Json.lookup_cons]
  have hwindows : Json.lookup fields "windows" = some (.arr (packet.windows.map WindowEntry.json)) := by
    simp [hfields, Json.lookup_cons]
  simp only [hknowledge, hoccurrence, hstatus, hwindows, then_eq_ok, require_eq_ok, requireOneOf_str, status_text_mem,
    requireList_arr, ok_bind]
  have hidentity : (decide True && decide True) = true := rfl
  have hfirst : (some (Json.str packet.status.text) != some (Json.str "AVAILABLE") ||
      !(packet.windows.map WindowEntry.json).isEmpty) = true := by
    by_cases hs : packet.status = .available
    · simp [hs, (hsummed.available hs).1]
    · simp [PacketStatus.text_eq_available, hs]
  have hall : (some (Json.str packet.status.text) != some (Json.str "AVAILABLE") ||
      !(packet.windows.map (·.status.text)).isEmpty &&
        (packet.windows.map (·.status.text)).all fun x => x == "AVAILABLE") = true := by
    by_cases hs : packet.status = .available
    · obtain ⟨hne, hw⟩ := hsummed.available hs
      simpa [hs, hne, PacketStatus.text_eq_available] using hw
    · simp [PacketStatus.text_eq_available, hs]
  have hreview : (some (Json.str packet.status.text) != some (Json.str "HUMAN_REVIEW_REQUIRED") ||
      (packet.windows.map (·.status.text)).contains "HUMAN_REVIEW_REQUIRED") = true := by
    by_cases hs : packet.status = .humanReviewRequired
    · obtain ⟨window, hw, hreview⟩ := hsummed.review hs
      have hin : "HUMAN_REVIEW_REQUIRED" ∈ packet.windows.map (·.status.text) :=
        List.mem_map.mpr ⟨window, hw, PacketStatus.text_eq_review.mpr hreview⟩
      rw [List.contains_iff_mem.mpr hin, Bool.or_true]
    · simp [PacketStatus.text_eq_review, hs]
  constructor
  · rintro ⟨-, -, -, hrun⟩
    obtain ⟨statuses, hstatuses, -⟩ := bind_eq_ok.mp hrun
    exact (validateWindow_each.mp hstatuses).2
  · intro hread
    refine ⟨hidentity, trivial, hfirst, ?_⟩
    rw [validateWindow_each.mpr ⟨rfl, hread⟩, ok_bind, then_eq_ok, require_eq_ok, require_eq_ok]
    exact ⟨hall, hreview⟩

end Reading
end StockContent.Visual
