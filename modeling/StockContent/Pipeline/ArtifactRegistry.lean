import Mathlib.Data.List.Sort
import Mathlib.Logic.Function.Basic
import StockContent.Storage.Machine

/-! The registry of a pipeline's artifacts: eight slots of the original chain, six of the semantic and temporal
chain, and three lists of visual artifacts. -/
namespace StockContent.Pipeline
open Storage

inductive BaseSlot where
  | source | media | transcript | evidence | claims | verification | knowledge | summary
  deriving DecidableEq, Repr

inductive SingleSlot where
  | semanticSegments | occurrences | lifecycle | transcriptVisualCrosscheck | securityEntityAlignment
  | knowledgeVisualEvidence
  deriving DecidableEq, Repr

inductive VisualSlot where
  | frames | ocr | vision
  deriving DecidableEq, Repr

inductive Slot where
  | base (slot : BaseSlot)
  | single (slot : SingleSlot)
  | visual (slot : VisualSlot)
  deriving DecidableEq, Repr

def artifactSlotNames : List BaseSlot :=
  [.source, .media, .transcript, .evidence, .claims, .verification, .knowledge, .summary]

def singleArtifactSlotNames : List SingleSlot :=
  [.semanticSegments, .occurrences, .lifecycle, .transcriptVisualCrosscheck, .securityEntityAlignment,
    .knowledgeVisualEvidence]

def visualArtifactSlotNames : List VisualSlot := [.frames, .ocr, .vision]

def BaseSlot.name : BaseSlot → String
  | .source => "source"
  | .media => "media"
  | .transcript => "transcript"
  | .evidence => "evidence"
  | .claims => "claims"
  | .verification => "verification"
  | .knowledge => "knowledge"
  | .summary => "summary"

def SingleSlot.name : SingleSlot → String
  | .semanticSegments => "semantic_segments"
  | .occurrences => "occurrences"
  | .lifecycle => "lifecycle"
  | .transcriptVisualCrosscheck => "transcript_visual_crosscheck"
  | .securityEntityAlignment => "security_entity_alignment"
  | .knowledgeVisualEvidence => "knowledge_visual_evidence"

def VisualSlot.name : VisualSlot → String
  | .frames => "frames"
  | .ocr => "ocr"
  | .vision => "vision"

/-- The classes a slot can ask for, and the others. -/
inductive ArtifactClass where
  | semanticSegment | claimOccurrence | lifecycle | transcriptVisualCrosscheck | securityEntityAlignment
  | knowledgeVisualEvidence | frame | ocr | vision
  | other (name : String)
  deriving DecidableEq, Repr

def ArtifactClass.name : ArtifactClass → String
  | .semanticSegment => "SemanticSegmentArtifact"
  | .claimOccurrence => "ClaimOccurrenceArtifact"
  | .lifecycle => "LifecycleArtifact"
  | .transcriptVisualCrosscheck => "TranscriptVisualCrosscheckArtifact"
  | .securityEntityAlignment => "SecurityEntityAlignmentArtifact"
  | .knowledgeVisualEvidence => "KnowledgeVisualEvidenceArtifact"
  | .frame => "FrameArtifact"
  | .ocr => "OCRArtifact"
  | .vision => "VisionArtifact"
  | .other name => name

def SingleSlot.expected : SingleSlot → ArtifactClass
  | .semanticSegments => .semanticSegment
  | .occurrences => .claimOccurrence
  | .lifecycle => .lifecycle
  | .transcriptVisualCrosscheck => .transcriptVisualCrosscheck
  | .securityEntityAlignment => .securityEntityAlignment
  | .knowledgeVisualEvidence => .knowledgeVisualEvidence

def VisualSlot.expected : VisualSlot → ArtifactClass
  | .frames => .frame
  | .ocr => .ocr
  | .vision => .vision

structure ArtifactBase where
  artifactId : String
  contentHash : String
  artifactClass : ArtifactClass
  deriving DecidableEq, Repr

structure ArtifactRegistry where
  base : BaseSlot → Option ArtifactBase := fun _ => none
  visual : VisualSlot → List ArtifactBase := fun _ => []
  single : SingleSlot → Option ArtifactBase := fun _ => none

inductive RegistryError where
  | valueError (message : String)
  | typeError (message : String)
  | keyError (message : String)
  deriving DecidableEq, Repr

def visualNamed (slot : String) : Option VisualSlot := visualArtifactSlotNames.find? (·.name = slot)

/-- What a slot's name stands for; no name stands for two. -/
def slotNamed (slot : String) : Option Slot :=
  ((singleArtifactSlotNames.find? (·.name = slot)).map .single).or
    (((visualNamed slot).map .visual).or ((artifactSlotNames.find? (·.name = slot)).map .base))

/-- The same id with another hash. -/
def ArtifactBase.conflicts (existing artifact : ArtifactBase) : Bool :=
  existing.artifactId = artifact.artifactId ∧ existing.contentHash ≠ artifact.contentHash

namespace ArtifactRegistry
variable (registry : ArtifactRegistry)

def visualArtifacts : List ArtifactBase := visualArtifactSlotNames.flatMap registry.visual

def artifacts : List ArtifactBase :=
  artifactSlotNames.filterMap registry.base ++ registry.visualArtifacts ++
    singleArtifactSlotNames.filterMap registry.single

def differentPayload (artifact : ArtifactBase) : RegistryError :=
  .valueError ("artifact id " ++ artifact.artifactId ++ " already has a different payload")

def requireSame (existing : List ArtifactBase) (artifact : ArtifactBase) : Except RegistryError Unit :=
  require (differentPayload artifact) (existing.all fun known => !known.conflicts artifact)

def requireClass (slot : String) (expected : ArtifactClass) (artifact : ArtifactBase) : Except RegistryError Unit :=
  require (.typeError (slot ++ " expects " ++ expected.name)) (artifact.artifactClass = expected)

/-- The slot's own list, up to the first artifact of the id: whether there is none. -/
def fresh (artifact : ArtifactBase) : List ArtifactBase → Except RegistryError Bool
  | [] => .ok true
  | existing :: rest =>
    if existing.conflicts artifact then .error (differentPayload artifact)
    else if existing.artifactId = artifact.artifactId then .ok false
    else fresh artifact rest

def append (slot : VisualSlot) (artifact : ArtifactBase) : ArtifactRegistry :=
  { registry with visual := Function.update registry.visual slot (registry.visual slot ++ [artifact]) }

def add (slot : String) (artifact : ArtifactBase) : Except RegistryError ArtifactRegistry :=
  match visualNamed slot with
  | none => .error (.keyError ("unknown visual artifact slot: " ++ slot))
  | some visual => do
    requireClass slot visual.expected artifact
    requireSame registry.artifacts artifact
    let isFresh ← fresh artifact (registry.visual visual)
    return if isFresh then registry.append visual artifact else registry

/-- The six slots look only at what they hold themselves, before the artifact's class; the others look at
everything registered. -/
def set (slot : String) (artifact : ArtifactBase) : Except RegistryError ArtifactRegistry :=
  match slotNamed slot with
  | some (.single single) => do
    requireSame (registry.single single).toList artifact
    requireClass slot single.expected artifact
    return { registry with single := Function.update registry.single single (some artifact) }
  | some (.visual _) => do
    requireSame registry.artifacts artifact
    registry.add slot artifact
  | some (.base base) => do
    requireSame registry.artifacts artifact
    requireSame (registry.base base).toList artifact
    return { registry with base := Function.update registry.base base (some artifact) }
  | none => do
    requireSame registry.artifacts artifact
    .error (.keyError ("unknown artifact slot: " ++ slot))

def artifactIds : List (String × String) :=
  artifactSlotNames.filterMap (fun slot => (registry.base slot).map fun a => (slot.name, a.artifactId)) ++
    singleArtifactSlotNames.filterMap (fun slot => (registry.single slot).map fun a => (slot.name, a.artifactId)) ++
    visualArtifactSlotNames.flatMap fun slot =>
      ((registry.visual slot).insertionSort fun a b => a.artifactId ≤ b.artifactId).zipIdx.map fun entry =>
        (slot.name ++ ":" ++ toString entry.2, entry.1.artifactId)

end ArtifactRegistry

inductive RegistryCall where
  | set (slot : String) (artifact : ArtifactBase)
  | add (slot : String) (artifact : ArtifactBase)
  deriving DecidableEq, Repr

namespace RegistryCall

def artifact : RegistryCall → ArtifactBase
  | .set _ artifact | .add _ artifact => artifact

def apply (registry : ArtifactRegistry) : RegistryCall → Except RegistryError ArtifactRegistry
  | .set slot artifact => registry.set slot artifact
  | .add slot artifact => registry.add slot artifact

/-- A call that raises leaves the registry as it was. -/
def step (registry : ArtifactRegistry) (call : RegistryCall) : ArtifactRegistry :=
  match call.apply registry with
  | .ok registry' => registry'
  | .error _ => registry

end RegistryCall

/-- What a sequence of calls makes of a registry. -/
def registerAll (registry : ArtifactRegistry) (calls : List RegistryCall) : ArtifactRegistry :=
  calls.foldl RegistryCall.step registry

end StockContent.Pipeline
