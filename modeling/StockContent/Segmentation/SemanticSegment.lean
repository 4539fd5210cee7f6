import StockContent.Storage.Json
import StockContent.Storage.Machine
import StockContent.Storage.Spans

/-! Semantic segments of a transcript, and the points between them. -/
namespace StockContent.Segmentation
open Storage

inductive SegmentError where
  | typeError (message : String)
  | valueError (message : String)
  | overflowError (message : String)
  | indexError
  | runtimeError (message : String)
  /-- What a gateway raises of its own. -/
  | raised (message : String)
  deriving DecidableEq

/-- `except (TypeError, ValueError, json.JSONDecodeError)`. -/
def SegmentError.repairable : SegmentError → Bool
  | .typeError _ | .valueError _ => true
  | _ => false

/-- What a gateway answers, as decoded. -/
inductive Reply where
  | null
  | bool (b : Bool)
  | int (n : Int)
  /-- `none` where the number is not finite. -/
  | float (value : Option Rat)
  | str (s : String)
  | arr (items : List Reply)
  | obj (fields : List (String × Reply))

inductive Confidence where
  | int (n : Int)
  | float (value : Rat)
  deriving DecidableEq

def Confidence.value : Confidence → Rat
  | .int n => n
  | .float value => value

def Confidence.toJson : Confidence → Json
  | .int n => .int n
  | .float value => .float value

/-- The milliseconds are those the item derives from its seconds. -/
structure TranscriptSegmentItem where
  segmentId : String
  segmentIndex : Int
  startMs : Int
  endMs : Int
  text : String
  rawText : Option String := none
  deriving DecidableEq

structure TranscriptArtifact where
  artifactId : String
  segments : List TranscriptSegmentItem

structure SemanticBoundary where
  afterSegmentIndex : Int
  boundaryType : String := "TOPIC_CHANGE"
  nextTopic : Option String := none
  nextSubject : Option String := none
  confidence : Option Confidence := none
  deriving DecidableEq

structure SemanticSegment where
  semanticSegmentId : String
  transcriptArtifactId : String
  segmentIndex : Nat
  startSegmentIndex : Nat
  endSegmentIndex : Nat
  startSegmentId : String
  endSegmentId : String
  startMs : Int
  endMs : Int
  topic : Option String := none
  subject : Option String := none
  segmentType : String := "ANALYSIS"
  modelId : String := ""
  promptVersion : String := ""
  confidence : Option Confidence := none
  derivationNamespace : String := ""
  deriving DecidableEq

structure SemanticSegmentItem where
  semanticSegmentId : String
  segmentIndex : Nat
  startSegmentIndex : Nat
  endSegmentIndex : Nat
  startSegmentId : String
  endSegmentId : String
  startMs : Int
  endMs : Int
  topic : Option String
  subject : Option String
  segmentType : String
  confidence : Option Confidence
  derivationNamespace : String
  deriving DecidableEq

structure SemanticSegmentArtifact where
  artifactId : String
  artifactType : String
  schemaVersion : String := "artifact.v1"
  producerStage : String := ""
  producerVersion : String := "1.0.0"
  parentArtifactIds : List String := []
  contentHash : String := ""
  transcriptArtifactId : String
  segments : List SemanticSegmentItem
  modelId : String
  promptVersion : String
  segmentationSchemaVersion : String

/-- What tells one materialization from another. -/
structure SegmentVersion where
  modelId : String := ""
  promptVersion : String := ""
  schemaVersion : String := "semantic-segment.v1"
  identitySeed : String := ""

section Boundaries

def indexOf : Reply → Except SegmentError Int
  | .int value => .ok value
  | _ => .error (.valueError "boundary after_segment_index must be an int")

/-- The values are checked one after the other; `last` is the one before. -/
def validateFrom (segmentCount : Int) : Option Int → List Reply → Except SegmentError (List Int)
  | _, [] => .ok []
  | last, raw :: rest => do
    let value ← indexOf raw
    require (.valueError "boundary must satisfy 0 <= boundary < N-1") (0 ≤ value && value < segmentCount - 1)
    require (.valueError "boundaries must be strictly ascending and unique") (last.all (· < value))
    (validateFrom segmentCount (some value) rest).map (value :: ·)

def validateBoundaries (boundaries : List Reply) (segmentCount : Nat) : Except SegmentError (List Int) :=
  validateFrom segmentCount none boundaries

def SemanticBoundary.index (boundary : SemanticBoundary) : Reply := .int boundary.afterSegmentIndex

def validateCoverageFrom (segmentCount : Nat) : Nat → List SemanticSegment → Except SegmentError Unit
  | expected, [] =>
    require (.valueError "semantic segments must cover every transcript segment") (expected = segmentCount)
  | expected, segment :: rest => do
    require (.valueError "semantic segments must be contiguous and gap-free")
      (segment.startSegmentIndex = expected && segment.startSegmentIndex ≤ segment.endSegmentIndex)
    validateCoverageFrom segmentCount (segment.endSegmentIndex + 1) rest

def validateFullCoverage (segments : List SemanticSegment) (segmentCount : Nat) : Except SegmentError Unit := do
  require (.valueError "semantic segments must cover the transcript") (!segments.isEmpty || segmentCount = 0)
  validateCoverageFrom segmentCount 0 segments

end Boundaries

section Materialize
variable (digest : Json → String)

def semanticSegmentId (transcriptArtifactId startSegmentId endSegmentId : String) (version : SegmentVersion) :
    Except SegmentError String := do
  require (.valueError "transcript and boundary segment ids are required")
    (transcriptArtifactId ≠ "" && startSegmentId ≠ "" && endSegmentId ≠ "")
  let payload := [("transcript_artifact_id", Json.str transcriptArtifactId), ("start_segment_id", .str startSegmentId),
      ("end_segment_id", .str endSegmentId), ("schema_version", .str version.schemaVersion)] ++
    if version.identitySeed = "" then [] else [("identity_seed", .str version.identitySeed)]
  return "semseg_" ++ String.ofList ((digest (Json.obj payload).canonical).toList.take 57)

def itemAt (items : List TranscriptSegmentItem) (index : Nat) : Except SegmentError TranscriptSegmentItem :=
  (items[index]?).elim (.error .indexError) .ok

/-- The segment of one range; the boundary before it describes it. -/
def materializeOne (transcript : TranscriptArtifact) (boundaries : List SemanticBoundary)
    (initialTopic initialSubject : Option String)
    (version : SegmentVersion) (range : Nat × Nat) (index : Nat) : Except SegmentError SemanticSegment := do
  let first ← itemAt transcript.segments range.1
  let last ← itemAt transcript.segments range.2
  let id ← semanticSegmentId digest transcript.artifactId first.segmentId last.segmentId version
  let before := if index = 0 then none else boundaries[index - 1]?
  return {
    semanticSegmentId := id
    transcriptArtifactId := transcript.artifactId
    segmentIndex := index
    startSegmentIndex := range.1
    endSegmentIndex := range.2
    startSegmentId := first.segmentId
    endSegmentId := last.segmentId
    startMs := first.startMs
    endMs := last.endMs
    modelId := version.modelId
    promptVersion := version.promptVersion
    topic := before.elim initialTopic (·.nextTopic)
    subject := before.elim initialSubject (·.nextSubject)
    confidence := before.bind (·.confidence)
    derivationNamespace := version.identitySeed }

/-- The ranges between the points. -/
def rangesOf (points : List Int) (count : Nat) : List (Nat × Nat) :=
  (0 :: points.map fun point => (point + 1).toNat).zip (points.map Int.toNat ++ [count - 1])

def materializeSemanticSegments (transcript : TranscriptArtifact) (boundaries : List SemanticBoundary)
    (initialTopic initialSubject : Option String) (version : SegmentVersion) :
    Except SegmentError (List SemanticSegment) := do
  let points ← validateBoundaries (boundaries.map (·.index)) transcript.segments.length
  if transcript.segments.isEmpty then return []
  else (rangesOf points transcript.segments.length).zipIdx.mapM fun entry =>
    materializeOne digest transcript boundaries initialTopic initialSubject version entry.1 entry.2

def itemOf (segment : SemanticSegment) : SemanticSegmentItem where
  semanticSegmentId := segment.semanticSegmentId
  segmentIndex := segment.segmentIndex
  startSegmentIndex := segment.startSegmentIndex
  endSegmentIndex := segment.endSegmentIndex
  startSegmentId := segment.startSegmentId
  endSegmentId := segment.endSegmentId
  startMs := segment.startMs
  endMs := segment.endMs
  topic := segment.topic
  subject := segment.subject
  segmentType := segment.segmentType
  confidence := segment.confidence
  derivationNamespace := segment.derivationNamespace

def textOrNull : Option String → Json
  | none => .null
  | some text => .str text

/-- An empty namespace is left out, as it was before there were any. -/
def SemanticSegmentItem.toDict (item : SemanticSegmentItem) : Json :=
  .obj <| [("semantic_segment_id", .str item.semanticSegmentId), ("segment_index", .int item.segmentIndex),
    ("start_segment_index", .int item.startSegmentIndex), ("end_segment_index", .int item.endSegmentIndex),
    ("start_segment_id", .str item.startSegmentId), ("end_segment_id", .str item.endSegmentId),
    ("start_ms", .int item.startMs), ("end_ms", .int item.endMs), ("topic", textOrNull item.topic),
    ("subject", textOrNull item.subject), ("segment_type", .str item.segmentType),
    ("confidence", item.confidence.elim .null Confidence.toJson)] ++
    if item.derivationNamespace = "" then [] else [("derivation_namespace", .str item.derivationNamespace)]

/-- The id and the hash take no part in the identity, nor does the time of creation. -/
def artifactIdentityPayload (artifact : SemanticSegmentArtifact) : Json :=
  .obj [("artifact_type", .str artifact.artifactType), ("schema_version", .str artifact.schemaVersion),
    ("producer_stage", .str artifact.producerStage), ("producer_version", .str artifact.producerVersion),
    ("parent_artifact_ids", .arr (artifact.parentArtifactIds.map .str)),
    ("transcript_artifact_id", .str artifact.transcriptArtifactId),
    ("segments", .arr (artifact.segments.map (·.toDict))), ("model_id", .str artifact.modelId),
    ("prompt_version", .str artifact.promptVersion),
    ("segmentation_schema_version", .str artifact.segmentationSchemaVersion)]

def contentHashOf (artifact : SemanticSegmentArtifact) : String := digest (artifactIdentityPayload artifact).canonical

/-- What construction adds to an artifact without a hash. -/
def withContentHash (artifact : SemanticSegmentArtifact) : SemanticSegmentArtifact :=
  if artifact.contentHash = "" then { artifact with contentHash := contentHashOf digest artifact } else artifact

def artifactIdOf (artifact : SemanticSegmentArtifact) : String :=
  artifact.artifactType ++ "-" ++ String.ofList ((contentHashOf digest artifact).toList.take 32)

def buildSemanticSegmentArtifact (transcript : TranscriptArtifact) (boundaries : List SemanticBoundary)
    (initialTopic initialSubject : Option String) (version : SegmentVersion) :
    Except SegmentError SemanticSegmentArtifact := do
  let segments ← materializeSemanticSegments digest transcript boundaries initialTopic initialSubject version
  return withContentHash digest {
    artifactId := "semantic-segments-pending"
    artifactType := "semantic_segments"
    transcriptArtifactId := transcript.artifactId
    segments := segments.map itemOf
    modelId := version.modelId
    promptVersion := version.promptVersion
    segmentationSchemaVersion := version.schemaVersion }

end Materialize

def SemanticSegment.range (segment : SemanticSegment) : Nat × Nat := (segment.startSegmentIndex, segment.endSegmentIndex)

section Coverage
variable {digest : Json → String} {segments : List SemanticSegment} {count : Nat}

theorem validateCoverageFrom_ok {expected : Nat} : validateCoverageFrom count expected segments = .ok () ↔
    Consecutive expected (segments.map (·.range)) count := by
  induction segments generalizing expected with
  | nil => rw [validateCoverageFrom, require_eq_ok, decide_eq_true_iff]; rfl
  | cons segment segments ih =>
    rw [validateCoverageFrom, then_eq_ok, require_eq_ok, Bool.and_eq_true, decide_eq_true_iff, decide_eq_true_iff,
      ih, and_assoc]
    rfl

/-- Validated points are ascending, and each has a row after it. -/
theorem validateFrom_ok {boundaries : List Reply} {bound : Int} {last : Option Int} {points : List Int}
    (h : validateFrom bound last boundaries = .ok points) :
    boundaries = points.map Reply.int ∧ points.Pairwise (· < ·) ∧
      ∀ point ∈ points, 0 ≤ point ∧ point < bound - 1 ∧ last.all (· < point) = true := by
  induction boundaries generalizing last points with
  | nil =>
    cases h
    exact ⟨rfl, List.Pairwise.nil, List.forall_mem_nil _⟩
  | cons raw rest ih =>
    rw [validateFrom] at h
    obtain ⟨value, hvalue, h⟩ := bind_eq_ok.mp h
    rw [then_eq_ok, then_eq_ok, require_eq_ok, require_eq_ok, Bool.and_eq_true, decide_eq_true_iff, decide_eq_true_iff] at h
    obtain ⟨⟨hlow, hhigh⟩, hlast, h⟩ := h
    cases hrest : validateFrom bound (some value) rest with
    | error e =>
      rw [hrest] at h
      cases h
    | ok others =>
      rw [hrest] at h
      cases h
      obtain ⟨hraw, hascending, hothers⟩ := ih hrest
      have hafter : ∀ point ∈ others, value < point := fun point hpoint => of_decide_eq_true (hothers point hpoint).2.2
      have hindex : raw = .int value := by
        cases raw with
        | int other =>
          cases hvalue
          rfl
        | null | bool _ | float _ | str _ | arr _ | obj _ => cases hvalue
      refine ⟨?_, List.pairwise_cons.mpr ⟨hafter, hascending⟩,
        List.forall_mem_cons.mpr ⟨⟨hlow, hhigh, hlast⟩, fun point hpoint => ?_⟩⟩
      · rw [hindex, hraw, List.map_cons]
      · obtain ⟨hlow', hhigh', _⟩ := hothers point hpoint
        refine ⟨hlow', hhigh', ?_⟩
        cases last with
        | none => rfl
        | some last => exact decide_eq_true (lt_trans (of_decide_eq_true hlast) (hafter point hpoint))

end Coverage
end StockContent.Segmentation
