import Mathlib.Algebra.Order.Ring.Unbundled.Rat
import StockContent.Segmentation.BoundaryPrompts
import StockContent.Storage.Dict
import StockContent.Storage.Triple
import StockContent.Text.Strip

/-! What a model may answer. A reply that does not keep to the form is asked for once more;
what is read of it are coordinates inside the block and their labels. -/
namespace StockContent.Segmentation
open Storage Storage.Procedure

namespace Reply

/-- `response.get(key)`, of an object. -/
def get? : Reply → String → Option Reply
  | .obj fields, key => (fields.find? (·.1 = key)).map (·.2)
  | _, _ => none

/-- An object with these keys and no others. -/
def hasKeys (keys : List String) : Reply → Bool
  | .obj fields => fields.all (fun f => keys.contains f.1) && keys.all (fields.map Prod.fst).contains
  | _ => false

def items? : Reply → Option (List Reply)
  | .arr items => some items
  | _ => none

def int? : Reply → Option Int
  | .int n => some n
  | _ => none

def text? : Reply → Option String
  | .str s => some s
  | _ => none

def isNull : Reply → Bool
  | .null => true
  | _ => false

end Reply

/-- What is not read here: the decoder of a reply's text, the character tables, and the digest of a document. -/
structure SegmentRuntime where
  loads : String → Except SegmentError Reply
  tables : Text.CharTables
  digest : Json → String

section Metadata

/-- A boundary as a reply spells it out. -/
structure BoundaryFields where
  afterSegmentIndex : Reply
  boundaryType : Reply := .str "TOPIC_CHANGE"
  nextTopic : Reply := .null
  nextSubject : Reply := .null
  confidence : Reply := .null

def boundaryNames : List String := ["after_segment_index", "boundary_type", "next_topic", "next_subject", "confidence"]

/-- `SemanticBoundary(**item)`. -/
def boundaryFields : Reply → Except SegmentError BoundaryFields
  | .obj fields => do
    let item := Reply.obj fields
    require (.typeError "SemanticBoundary() got an unexpected keyword argument")
      (fields.all fun f => boundaryNames.contains f.1)
    let index ← (item.get? "after_segment_index").elim
      (.error (.typeError "SemanticBoundary() missing 1 required positional argument: 'after_segment_index'")) .ok
    return {
      afterSegmentIndex := index
      boundaryType := (item.get? "boundary_type").getD (.str "TOPIC_CHANGE")
      nextTopic := (item.get? "next_topic").getD .null
      nextSubject := (item.get? "next_subject").getD .null
      confidence := (item.get? "confidence").getD .null }
  | _ => .error (.typeError "SemanticBoundary() argument after ** must be a mapping")

/-- What is left of the fields of a boundary once they are checked. -/
structure Metadata where
  boundaryType : String
  nextTopic : Option String
  nextSubject : Option String
  confidence : Option Confidence

def Metadata.at (metadata : Metadata) (point : Int) : SemanticBoundary where
  afterSegmentIndex := point
  boundaryType := metadata.boundaryType
  nextTopic := metadata.nextTopic
  nextSubject := metadata.nextSubject
  confidence := metadata.confidence

def optionalText (name : String) : Reply → Except SegmentError (Option String)
  | .null => .ok none
  | .str s => .ok (some s)
  | _ => .error (.valueError (name ++ " must be a string or null"))

def confidenceError : SegmentError := .valueError "confidence must be a finite number between 0 and 1"

/-- An integer past the largest float raises on its way to the comparison. -/
def confidenceOf : Reply → Except SegmentError (Option Confidence)
  | .null => .ok none
  | .int n => do
    require (.overflowError "int too large to convert to float") (n.natAbs < 2 ^ 1024 - 2 ^ 970)
    require confidenceError (0 ≤ n && n ≤ 1)
    return some (.int n)
  | .float (some q) => do
    require confidenceError (0 ≤ q && q ≤ 1)
    return some (.float q)
  | _ => .error confidenceError

def validateMetadata (proposal : BoundaryFields) : Except SegmentError Metadata := do
  let boundaryType := proposal.boundaryType.text?.getD ""
  require (.valueError "boundary_type must be a non-empty string") (boundaryType ≠ "")
  let nextTopic ← optionalText "next_topic" proposal.nextTopic
  let nextSubject ← optionalText "next_subject" proposal.nextSubject
  let confidence ← confidenceOf proposal.confidence
  return { boundaryType, nextTopic, nextSubject, confidence }

def replyOf : Option String → Reply
  | none => .null
  | some s => .str s

def Confidence.reply : Confidence → Reply
  | .int n => .int n
  | .float value => .float (some value)

def SemanticBoundary.fields (boundary : SemanticBoundary) : BoundaryFields where
  afterSegmentIndex := boundary.index
  boundaryType := .str boundary.boundaryType
  nextTopic := replyOf boundary.nextTopic
  nextSubject := replyOf boundary.nextSubject
  confidence := boundary.confidence.elim .null Confidence.reply

end Metadata

section Reading
variable (rt : SegmentRuntime)

/-- A reply may be wrapped, and its content may be text. -/
def contentOf (response : Reply) : Except SegmentError Reply :=
  match (response.get? "content").getD response with
  | .str text => rt.loads text
  | content => .ok content

/-- `isinstance(value, str) and value.strip()`. -/
def isFilled (value : Reply) : Bool := value.text?.any fun s => Text.strip rt.tables s ≠ ""

/-- The boundaries of a block, and the label of its first rows. -/
structure BlockReply where
  boundaries : List SemanticBoundary
  topic : Option String
  subject : Option String

def parseBoundaries (requireInitialTopic : Bool) (blockStart blockEnd : Nat) (response : Reply) :
    Except SegmentError BlockReply := do
  let content ← contentOf rt response
  let shapeError := SegmentError.valueError "boundary response must contain only topic labels and boundaries"
  require shapeError
    (content.hasKeys ["boundaries"] || content.hasKeys ["initial_topic", "initial_subject", "boundaries"])
  let items ← ((content.get? "boundaries").bind Reply.items?).elim (.error shapeError) .ok
  let initialTopic := (content.get? "initial_topic").getD .null
  let initialSubject := (content.get? "initial_subject").getD .null
  require (.valueError "semantic segmentation requires a concrete initial topic")
    (!requireInitialTopic || isFilled rt initialTopic)
  require (.valueError "initial_topic must be a non-empty string or null")
    (initialTopic.isNull || isFilled rt initialTopic)
  require (.valueError "initial_subject must be a non-empty string or null")
    (initialSubject.isNull || isFilled rt initialSubject)
  let parsed ← items.mapM boundaryFields
  let metadata ← parsed.mapM validateMetadata
  let points ← validateBoundaries (parsed.map (·.afterSegmentIndex)) blockEnd
  require (.valueError "boundary outside requested block")
    (points.all fun point => (blockStart : Int) ≤ point && point < (blockEnd : Int) - 1)
  return {
    boundaries := List.zipWith Metadata.at metadata points
    topic := initialTopic.text?
    subject := initialSubject.text? }

/-- The proposals a reply accepts, by their coordinates. -/
def acceptedBoundaries (proposals : List SemanticBoundary) (response : Reply) :
    Except SegmentError (List SemanticBoundary) := do
  let content ← contentOf rt response
  require (.valueError "boundary adjudication response has invalid shape")
    (content.hasKeys ["accepted_after_segment_indices"])
  let subsetError := SegmentError.valueError "boundary adjudication response must be a unique proposed-coordinate subset"
  let items ← ((content.get? "accepted_after_segment_indices").bind Reply.items?).elim (.error subsetError) .ok
  let accepted ← items.mapM fun item => item.int?.elim (.error subsetError) .ok
  require subsetError
    (accepted.Nodup && accepted.all fun index => (proposals.map (·.afterSegmentIndex)).contains index)
  return proposals.filter fun item => accepted.contains item.afterSegmentIndex

/-- A label that is spelled as one of the rows spells it. -/
def groundedLabel (rows : List String) (subject : Option String) (response : Reply) :
    Except SegmentError (Option String × Option String) := do
  let content ← contentOf rt response
  require (.valueError "brief label response has invalid shape") (content.hasKeys ["topic", "subject", "source_quote"])
  let field := fun key => (content.get? key).getD .null
  let topic := (field "topic").text?.getD ""
  let quote := (field "source_quote").text?.getD ""
  let spelled := (field "subject").text?.getD ""
  require (.valueError "brief label is not grounded in its exact source quote")
    (isFilled rt (field "topic") && isFilled rt (field "source_quote") && rows.any (Text.isIn quote) &&
      !(subject.isSome && (field "subject").isNull) &&
      ((field "subject").isNull ||
        isFilled rt (field "subject") && Text.isIn spelled quote && Text.isIn spelled topic))
  return (some topic, (field "subject").text?)

end Reading

section Asking
variable {G A : Type}

/-- A model behind a gateway; what it answers may depend on all it was asked before. -/
structure ModelGateway (G : Type) where
  available : Procedure G SegmentError Bool
  completePrompt : (prompt system : String) → Procedure G SegmentError Reply
  completeMessages : List (String × String) → Procedure G SegmentError Reply

def detectorSystem : String := "You are a semantic boundary detector. Return JSON only."

/-- Gateways that do not take a prompt are asked by messages. -/
def askAgain (gateway : ModelGateway G) (prompt : String) : SegmentError → Procedure G SegmentError Reply
  | .typeError _ => gateway.completeMessages [("system", detectorSystem), ("user", prompt)]
  | e => throw e

def complete (gateway : ModelGateway G) (requireModelIdentity : Bool) (modelId prompt : String) :
    Procedure G SegmentError Reply := do
  let response ← tryCatch (gateway.completePrompt prompt detectorSystem) (askAgain gateway prompt)
  attempt (require (.runtimeError "semantic segmentation runtime model identity mismatch")
    (!requireModelIdentity || (response.get? "model").bind Reply.text? = some modelId))
  return response

/-- One repair of a reply that cannot be read, and the number of repairs. -/
def withRepair (ask : String → Procedure G SegmentError Reply) (read : Reply → Except SegmentError A)
    (prompt repair failure : String) : Procedure G SegmentError (A × Nat) := do
  let response ← ask prompt
  match read response with
  | .ok a => return (a, 0)
  | .error e =>
    if e.repairable then
      let repaired ← ask (prompt ++ repair)
      match read repaired with
      | .ok a => return (a, 1)
      | .error e => throw (if e.repairable then .valueError failure else e)
    else throw e

end Asking

section Reconcile

/-- A coordinate, the number of blocks that proposed it, and the best of what they said. -/
structure Candidate where
  support : Nat
  boundary : SemanticBoundary

def isGiven (label : Option String) : Bool := label.getD "" ≠ ""

/-- Confidence first, then support, then how complete the labels are. -/
def compareRank (a b : Candidate) : Ordering :=
  (compare (a.boundary.confidence.map (·.value)) (b.boundary.confidence.map (·.value))).then <|
  (compare a.support b.support).then <|
  (compare (isGiven a.boundary.nextSubject) (isGiven b.boundary.nextSubject)).then <|
  (compare (isGiven a.boundary.nextTopic) (isGiven b.boundary.nextTopic)).then <|
  (compare a.boundary.boundaryType b.boundary.boundaryType).then <|
  (compare (a.boundary.nextSubject.getD "") (b.boundary.nextSubject.getD "")).then <|
  compare (a.boundary.nextTopic.getD "") (b.boundary.nextTopic.getD "")

/-- The first of the highest rank. -/
def strongest : List Candidate → Option Candidate
  | [] => none
  | first :: rest => some (rest.foldl (fun best item => if (compareRank best item).isLT then item else best) first)

def candidateOf (group : Int × List SemanticBoundary) : Option Candidate :=
  strongest (group.2.map fun boundary => { support := group.2.length, boundary })

/-- Of close coordinates the repeated ones stay, or the strongest where none is. -/
def selected (cluster : List Candidate) : List Candidate :=
  if cluster.length = 1 then cluster
  else
    let repeated := cluster.filter (1 < ·.support)
    if repeated.isEmpty then (strongest cluster).toList else repeated

def Candidate.position (candidate : Candidate) : Int := candidate.boundary.afterSegmentIndex

def reconcile (proposals : List SemanticBoundary) (overlap : Int) : Except SegmentError (List SemanticBoundary) := do
  require (.valueError "overlap must be non-negative") (0 ≤ overlap)
  proposals.forM fun proposal => do
    require (.valueError "boundary after_segment_index must be non-negative") (0 ≤ proposal.afterSegmentIndex)
    (validateMetadata proposal.fields).map fun _ => ()
  let candidates := ((Dict.groupBy (·.afterSegmentIndex) proposals).rows.filterMap candidateOf).insertionSort
    (·.position ≤ ·.position)
  let clusters := candidates.splitBy fun a b => b.position - a.position ≤ overlap
  return (clusters.flatMap selected).map (·.boundary)

end Reconcile
end StockContent.Segmentation
