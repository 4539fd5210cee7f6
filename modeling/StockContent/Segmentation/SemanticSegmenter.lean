import StockContent.Segmentation.BoundaryProtocol

/-! Segmentation of a transcript: boundaries block by block, two passes that look for more of
them inside the segments found, and a check of the labels of the brief ones. -/
namespace StockContent.Segmentation
open Storage Storage.Procedure

/-- The arguments of a segmenter. -/
structure SegmenterOptions where
  modelId : String := ""
  promptVersion : String := "semantic-segmentation.v1"
  safeTokens : Int := 3200
  blockTokens : Option Int := none
  segmentOverlap : Int := 2
  allowOfflineFixture : Bool := true
  requireModelIdentity : Bool := false
  requireInitialTopic : Bool := false
  refineSegments : Bool := false
  refinementMinTokens : Int := 1
  verifyBriefTopicLabels : Bool := false

structure SemanticSegmenter (G : Type) where
  modelGateway : Option (ModelGateway G)
  modelId : String
  promptVersion : String
  safeTokens : Int
  blockTokens : Int
  segmentOverlap : Nat
  allowOfflineFixture : Bool
  requireModelIdentity : Bool
  requireInitialTopic : Bool
  refineSegments : Bool
  refinementMinTokens : Int
  verifyBriefTopicLabels : Bool

def segmentationSchemaVersion : String := "semantic-segment.v1"

/-- `value or default`. -/
def orDefault (value : Option Int) (default : Int) : Int := if value.getD 0 = 0 then default else value.getD 0

def createSegmenter {G : Type} (modelGateway : Option (ModelGateway G)) (options : SegmenterOptions) :
    Except SegmentError (SemanticSegmenter G) := do
  require (.valueError "token budgets must be positive") (0 < options.safeTokens && options.blockTokens.all (0 < ·))
  require (.valueError "segment_overlap must be non-negative") (0 ≤ options.segmentOverlap)
  require (.valueError "refinement_min_tokens must be positive") (0 < options.refinementMinTokens)
  return {
    modelGateway := modelGateway
    modelId := options.modelId
    promptVersion := options.promptVersion
    safeTokens := options.safeTokens
    blockTokens := orDefault options.blockTokens options.safeTokens
    segmentOverlap := options.segmentOverlap.toNat
    allowOfflineFixture := options.allowOfflineFixture
    requireModelIdentity := options.requireModelIdentity
    requireInitialTopic := options.requireInitialTopic
    refineSegments := options.refineSegments
    refinementMinTokens := options.refinementMinTokens
    verifyBriefTopicLabels := options.verifyBriefTopicLabels }

/-- What the metrics count. -/
structure Counts where
  repair : Nat := 0
  refinementCall : Nat := 0
  refinementAdded : Nat := 0
  topicAuditCall : Nat := 0
  topicAuditAdded : Nat := 0
  adjudicationCall : Nat := 0
  adjudicationRejected : Nat := 0
  briefLabelCall : Nat := 0
  briefLabelCorrected : Nat := 0

/-- The boundaries so far, and the label of the first segment. -/
structure Draft where
  boundaries : List SemanticBoundary := []
  initialTopic : Option String := none
  initialSubject : Option String := none
  counts : Counts := {}

structure SemanticSegmentationResult where
  artifact : SemanticSegmentArtifact
  segments : List SemanticSegment
  metrics : List (String × Nat)

section Calls
variable {G : Type} (rt : SegmentRuntime) (segmenter : SemanticSegmenter G) (gateway : ModelGateway G)

def ask (prompt : String) : Procedure G SegmentError Reply :=
  complete gateway segmenter.requireModelIdentity segmenter.modelId prompt

def callWithRepair (items : List TranscriptSegmentItem) (start stop : Nat) (refinement topicAudit : Bool) :
    Procedure G SegmentError (BlockReply × Nat) :=
  withRepair (ask segmenter gateway) (parseBoundaries rt segmenter.requireInitialTopic start stop)
    (boundaryPrompt items start stop ++ reviewInstruction refinement topicAudit)
    (boundaryRepairInstruction ++ boundaryCoordinateInstruction start stop)
    "semantic segmentation boundary protocol failed after one repair"

def adjudicateInternalBoundaries (items : List TranscriptSegmentItem) (start stop : Nat)
    (proposals : List SemanticBoundary) (parentTopic parentSubject : Option String) : Procedure G SegmentError (List SemanticBoundary × Nat) :=
  withRepair (ask segmenter gateway) (acceptedBoundaries rt proposals)
    (adjudicationPrompt items start stop proposals parentTopic parentSubject) adjudicationRepairInstruction
    "boundary adjudication protocol failed after one repair"

def verifyBriefTopicLabel (items : List TranscriptSegmentItem) (topic subject : Option String) :
    Procedure G SegmentError ((Option String × Option String) × Nat) :=
  let rows := items.map (·.spoken)
  withRepair (ask segmenter gateway) (groundedLabel rt rows subject) (briefLabelPrompt rows topic subject)
    briefLabelRepairInstruction "brief label grounding failed after one repair"

def blocks (items : List TranscriptSegmentItem) (refinement topicAudit : Bool) (limitTokens : Option Int) :
    Except SegmentError (List (Nat × Nat)) := do
  let rowBudget := orDefault limitTokens segmenter.blockTokens - promptOverhead refinement topicAudit
  require (.valueError "block token budget cannot hold the segmentation instructions") (0 < rowBudget)
  blocksFrom rowBudget segmenter.segmentOverlap (items.map itemTokenCost) 0

/-- The block overlap supplies context; it is no least length of a topic. -/
def reconcileOverlap : Int := min 2 segmenter.segmentOverlap

end Calls

section First
variable {G : Type} (rt : SegmentRuntime) (segmenter : SemanticSegmenter G) (gateway : ModelGateway G)
    (items : List TranscriptSegmentItem)

/-- The first block names the first segment. -/
def Draft.block (draft : Draft) (start : Nat) (reply : BlockReply) (repairs : Nat) : Draft where
  boundaries := draft.boundaries ++ reply.boundaries
  initialTopic := if start = 0 then reply.topic else draft.initialTopic
  initialSubject := if start = 0 then reply.subject else draft.initialSubject
  counts := { draft.counts with repair := draft.counts.repair + repairs }

def blockStep (draft : Draft) (window : Nat × Nat) : Procedure G SegmentError Draft := do
  let asked ← callWithRepair rt segmenter gateway items window.1 window.2 false false
  return draft.block window.1 asked.1 asked.2

/-- A short transcript is one block; the proposals of several are reconciled. -/
def firstBoundaries : Procedure G SegmentError Draft :=
  if (tokenCount items + promptOverhead false false : Nat) ≤ segmenter.safeTokens then
    blockStep rt segmenter gateway items {} (0, items.length)
  else do
    let windows ← attempt (blocks segmenter items false false none)
    let draft ← windows.foldlM (blockStep rt segmenter gateway items) {}
    let boundaries ← attempt (reconcile draft.boundaries (reconcileOverlap segmenter))
    return { draft with boundaries }

end First

section Review
variable {G : Type} (rt : SegmentRuntime) (segmenter : SemanticSegmenter G) (gateway : ModelGateway G)
    (transcript : TranscriptArtifact)

/-- What a pass over the segments finds: boundaries inside them, and labels for their first rows. -/
structure Review where
  proposals : List SemanticBoundary
  labels : Dict Int (Option String × Option String)
  counts : Counts

def looksCompositeTopic (topic subject : Option String) : Bool :=
  let label := " ".intercalate ([topic, subject].filter isGiven |>.map (·.getD ""))
  ["、", "以及", "及", "与", "和", " and "].any (Text.isIn · label)

/-- An audit needs a narrower view than the largest context a model has. -/
def auditTokens (span : List TranscriptSegmentItem) : Int :=
  let largestRow := (span.map itemTokenCost).foldl max 0
  min segmenter.blockTokens (max 1400 (promptOverhead true true + largestRow))

/-- The segments that a pass leaves as they are. -/
def skipsSegment (topicAudit : Bool) (segment : SemanticSegment) (span : List TranscriptSegmentItem) : Bool :=
  let rows := segment.endSegmentIndex + 1 - segment.startSegmentIndex
  if topicAudit then rows < 4 || (tokenCount span < 256 && !looksCompositeTopic segment.topic segment.subject)
  else rows < 2 || (tokenCount span : Int) < segmenter.refinementMinTokens

def reviewWindows (topicAudit : Bool) (start stop : Nat) (span : List TranscriptSegmentItem) :
    Except SegmentError (List (Nat × Nat)) :=
  let limitTokens := if topicAudit then some (auditTokens segmenter span) else none
  if (tokenCount span + promptOverhead true topicAudit : Nat) ≤ limitTokens.getD segmenter.blockTokens then
    .ok [(start, stop)]
  else (blocks segmenter span true topicAudit limitTokens).map
    (·.map fun window => (start + window.1, start + window.2))

/-- Only what was proposed is adjudicated. -/
def adjudicated (segment : SemanticSegment) (window : Nat × Nat) (proposed : List SemanticBoundary) :
    Procedure G SegmentError (List SemanticBoundary × Nat) :=
  if proposed.isEmpty then pure (proposed, 0)
  else adjudicateInternalBoundaries rt segmenter gateway transcript.segments window.1 window.2 proposed segment.topic
    segment.subject

def Counts.reviewed (counts : Counts) (topicAudit : Bool) (proposed accepted repairs : Nat) : Counts :=
  { counts with
    repair := counts.repair + repairs
    refinementCall := counts.refinementCall + (!topicAudit).toNat
    topicAuditCall := counts.topicAuditCall + topicAudit.toNat
    adjudicationCall := counts.adjudicationCall + min 1 proposed
    adjudicationRejected := counts.adjudicationRejected + (proposed - accepted) }

def reviewWindow (topicAudit : Bool) (segment : SemanticSegment) (review : Review) (window : Nat × Nat) :
    Procedure G SegmentError Review := do
  let asked ← callWithRepair rt segmenter gateway transcript.segments window.1 window.2 true topicAudit
  let proposed := asked.1.boundaries
  let judged ← adjudicated rt segmenter gateway transcript segment window proposed
  let names :=
    window.1 = segment.startSegmentIndex && isGiven asked.1.topic && (proposed.isEmpty || !judged.1.isEmpty)
  return {
    proposals := review.proposals ++ judged.1
    labels := if names then review.labels.set segment.startSegmentIndex (asked.1.topic, asked.1.subject) else review.labels
    counts := review.counts.reviewed topicAudit proposed.length judged.1.length (asked.2 + judged.2) }

def reviewSegment (topicAudit : Bool) (review : Review) (segment : SemanticSegment) : Procedure G SegmentError Review := do
  let span := slice transcript.segments segment.startSegmentIndex (segment.endSegmentIndex + 1)
  if skipsSegment segmenter topicAudit segment span then return review
  else
    let windows ← attempt (reviewWindows segmenter topicAudit segment.startSegmentIndex (segment.endSegmentIndex + 1) span)
    let found ← windows.foldlM (reviewWindow rt segmenter gateway transcript topicAudit segment)
      { review with proposals := [] }
    let accepted ← attempt
      (if windows.length = 1 then .ok found.proposals else reconcile found.proposals (reconcileOverlap segmenter))
    return { found with proposals := review.proposals ++ accepted }

/-- A label names the boundary before its row. -/
def relabelled (labels : Dict Int (Option String × Option String)) (boundary : SemanticBoundary) : SemanticBoundary :=
  (labels.lookup (boundary.afterSegmentIndex + 1)).elim boundary fun label =>
    { boundary with nextTopic := label.1, nextSubject := label.2 }

def Draft.reviewed (draft : Draft) (topicAudit : Bool) (review : Review) : Draft where
  boundaries := ((draft.boundaries ++ review.proposals).insertionSort (·.afterSegmentIndex ≤ ·.afterSegmentIndex)).map
    (relabelled review.labels)
  initialTopic := (review.labels.lookup 0).elim draft.initialTopic Prod.fst
  initialSubject := (review.labels.lookup 0).elim draft.initialSubject Prod.snd
  counts :=
    if topicAudit then { review.counts with topicAuditAdded := review.proposals.length }
    else { review.counts with refinementAdded := review.proposals.length }

/-- The segments as they are now; only the last ones carry the models and the namespace. -/
def Draft.segments (draft : Draft) : Except SegmentError (List SemanticSegment) :=
  materializeSemanticSegments rt.digest transcript draft.boundaries draft.initialTopic draft.initialSubject {}

/-- One pass over the segments, a second look or an audit of their topics. -/
def reviewPass (topicAudit : Bool) (draft : Draft) : Procedure G SegmentError Draft := do
  let segments ← attempt (draft.segments rt transcript)
  let review ← segments.foldlM (reviewSegment rt segmenter gateway transcript topicAudit)
    { proposals := [], labels := Table.empty, counts := draft.counts }
  return draft.reviewed topicAudit review

end Review

section Labels
variable {G : Type} (rt : SegmentRuntime) (segmenter : SemanticSegmenter G) (gateway : ModelGateway G)
    (transcript : TranscriptArtifact)

def Draft.corrected (draft : Draft) (start : Nat) (topic subject : Option String) : Draft :=
  if start = 0 then { draft with initialTopic := topic, initialSubject := subject }
  else { draft with boundaries := draft.boundaries.map fun boundary =>
    if boundary.afterSegmentIndex = (start : Int) - 1 then { boundary with nextTopic := topic, nextSubject := subject }
    else boundary }

def Counts.labelled (counts : Counts) (corrected : Bool) (repairs : Nat) : Counts :=
  { counts with
    repair := counts.repair + repairs
    briefLabelCall := counts.briefLabelCall + 1
    briefLabelCorrected := counts.briefLabelCorrected + corrected.toNat }

def labelStep (draft : Draft) (segment : SemanticSegment) : Procedure G SegmentError Draft := do
  if 6 < segment.endSegmentIndex + 1 - segment.startSegmentIndex then return draft
  else
    let verified ← verifyBriefTopicLabel rt segmenter gateway
      (slice transcript.segments segment.startSegmentIndex (segment.endSegmentIndex + 1)) segment.topic segment.subject
    let corrected := verified.1 ≠ (segment.topic, segment.subject)
    let draft := { draft with counts := draft.counts.labelled corrected verified.2 }
    return if corrected then draft.corrected segment.startSegmentIndex verified.1.1 verified.1.2 else draft

def labelPass (draft : Draft) : Procedure G SegmentError Draft := do
  let segments ← attempt (draft.segments rt transcript)
  segments.foldlM (labelStep rt segmenter gateway transcript) draft

end Labels

section Segment
variable {G : Type} (rt : SegmentRuntime) (segmenter : SemanticSegmenter G) (transcript : TranscriptArtifact)

def SemanticSegmenter.version (identitySeed : String) : SegmentVersion where
  modelId := segmenter.modelId
  promptVersion := segmenter.promptVersion
  schemaVersion := segmentationSchemaVersion
  identitySeed := identitySeed

/-- The transcript is the parent, and the id is the address of the content. -/
def addressed (artifact : SemanticSegmentArtifact) : SemanticSegmentArtifact :=
  let linked := withContentHash rt.digest
    { artifact with parentArtifactIds := [transcript.artifactId], artifactId := "", contentHash := "" }
  withContentHash rt.digest { linked with artifactId := artifactIdOf rt.digest linked }

def emptyResult (identitySeed : String) : Except SegmentError SemanticSegmentationResult := do
  let artifact ← buildSemanticSegmentArtifact rt.digest transcript [] none none (segmenter.version identitySeed)
  return {
    artifact := addressed rt transcript artifact
    segments := []
    metrics := [("segment_count", 0), ("repair_count", 0), ("failure_count", 0)] }

def metricsOf (draft : Draft) (segments : List SemanticSegment) : List (String × Nat) :=
  [("segment_count", segments.length), ("repair_count", draft.counts.repair), ("failure_count", 0),
    ("boundary_count", draft.boundaries.length), ("refinement_call_count", draft.counts.refinementCall),
    ("refinement_added_boundary_count", draft.counts.refinementAdded),
    ("topic_audit_call_count", draft.counts.topicAuditCall),
    ("topic_audit_added_boundary_count", draft.counts.topicAuditAdded),
    ("adjudication_call_count", draft.counts.adjudicationCall),
    ("adjudication_rejected_boundary_count", draft.counts.adjudicationRejected),
    ("brief_label_call_count", draft.counts.briefLabelCall),
    ("brief_label_corrected_count", draft.counts.briefLabelCorrected)]

def finish (identitySeed : String) (draft : Draft) : Except SegmentError SemanticSegmentationResult := do
  let version := segmenter.version identitySeed
  let segments ← materializeSemanticSegments rt.digest transcript draft.boundaries draft.initialTopic
    draft.initialSubject version
  validateFullCoverage segments transcript.segments.length
  let artifact ← buildSemanticSegmentArtifact rt.digest transcript draft.boundaries draft.initialTopic
    draft.initialSubject version
  return { artifact := addressed rt transcript artifact, segments, metrics := metricsOf draft segments }

def drafted (gateway : ModelGateway G) : Procedure G SegmentError Draft := do
  let first ← firstBoundaries rt segmenter gateway transcript.segments
  let refined ←
    (if segmenter.refineSegments then
      reviewPass rt segmenter gateway transcript false first >>= reviewPass rt segmenter gateway transcript true
    else pure first)
  if segmenter.verifyBriefTopicLabels then labelPass rt segmenter gateway transcript refined else return refined

/-- Without a model there are no boundaries. -/
def segment (offlineFixture : Bool) (identitySeed : String) : Procedure G SegmentError SemanticSegmentationResult :=
  if transcript.segments.isEmpty then attempt (emptyResult rt segmenter transcript identitySeed)
  else do
    let available ← segmenter.modelGateway.elim (pure false) (·.available)
    attempt (require (.runtimeError "semantic segmentation model gateway is unavailable")
      (available || segmenter.allowOfflineFixture || offlineFixture))
    let draft ← (segmenter.modelGateway.filter fun _ => !offlineFixture && available).elim (pure {})
      (drafted rt segmenter transcript)
    attempt (finish rt segmenter transcript identitySeed draft)

end Segment
end StockContent.Segmentation
