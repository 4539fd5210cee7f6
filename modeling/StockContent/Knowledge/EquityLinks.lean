import StockContent.Knowledge.EntityProse

/-! Reviewed equity mentions and the knowledge cards they are attached to: a mention goes to the one card whose topic
its evidence is about, and to the audit where there is none or more than one. -/
namespace StockContent.Knowledge
open Storage Text

structure Stage where
  stageId : String
  topicIndex : Int
  startSegmentIndex : Int
  endSegmentIndex : Int
  startMs : Int
  endMs : Int
  deriving DecidableEq

structure TranscriptEvidence where
  segmentIndex : Json := .null
  text : Json := .null
  deriving DecidableEq

structure ReviewedFrame where
  frameId : Json := .null
  timestampMs : Json := .null
  imageSha256 : Json := .null
  deriving DecidableEq

/-- A mention as it is handed in. A list that is missing or is none is `none`. -/
structure ReviewedMention where
  entityId : Json := .null
  evidenceTier : Option String := none
  identityStatus : Option String := none
  name : Json := .null
  code : Json := .null
  market : Json := .null
  codeStatus : Option String := none
  visualEvidence : Option (List ReviewedFrame) := none
  transcriptEvidence : Option (List TranscriptEvidence) := none
  stageIds : Option (List String) := none
  rawEntityText : Option String := none
  asrCorrectionSupported : Bool := false
  deriving DecidableEq

/-- `stopIteration` is what `next` raises where nothing is found. -/
inductive LinkError where
  | valueError (message : String)
  | stopIteration
  | prose (error : ProseError)
  deriving DecidableEq

structure CheckedFrame where
  frameId : Option String
  timestampMs : Int
  imageSha256 : String
  deriving DecidableEq

/-- A mention that has passed the checks, with the stages that it declares. -/
structure CheckedMention where
  entityId : String
  evidenceTier : String
  identityStatus : String
  name : String
  code : Option String
  market : Option String
  codeStatus : Option String
  frames : List CheckedFrame
  speech : List SpokenMention
  stages : List Stage
  rawEntityText : Option String
  asrCorrectionSupported : Bool
  deriving DecidableEq

def spokenTiers : List String := ["FOCUSED_CHART_SPOKEN", "SLIDE_ENTITY_SPOKEN"]
def visualOnlyTiers : List String := ["FOCUSED_CHART_VISUAL_ONLY", "SLIDE_ENTITY_VISUAL_ONLY"]
def visualOnlyCorroborationGraceMs : Int := 15000

def evidenceStatuses : List (Option String × Option String) := [
  (some "FOCUSED_CHART_SPOKEN", some "CONFIRMED_IN_VIDEO"),
  (some "FOCUSED_CHART_VISUAL_ONLY", some "CONFIRMED_ON_SCREEN_SPEECH_LINK_UNRESOLVED"),
  (some "SLIDE_ENTITY_SPOKEN", some "CONFIRMED_IN_VIDEO"),
  (some "SLIDE_ENTITY_VISUAL_ONLY", some "CONFIRMED_ON_SCREEN_SPEECH_LINK_UNRESOLVED")]

section Checks
variable (tables : CharTables)

/-- `isinstance(value, int)`: truth values are integers. -/
def asInt : Json → Option Int
  | .int n => some n
  | .bool b => some (if b then 1 else 0)
  | _ => none

def asText : Json → Option String
  | .str text => some text
  | _ => none

def isBlank (text : String) : Bool := (stripChars tables text.toList).isEmpty

def isCode (lengths : List Nat) (text : String) : Bool :=
  lengths.contains text.length && text.toList.all Char.isDigit

def ensureThat (condition : Bool) (message : String) : Except LinkError Unit :=
  if condition then .ok () else .error (.valueError message)

def checkFrame (frame : ReviewedFrame) : Except LinkError CheckedFrame :=
  match asInt frame.timestampMs, asText frame.imageSha256 with
  | some timestampMs, some imageSha256 =>
    .ok ⟨(asText frame.frameId).filter fun id => !isBlank tables id, timestampMs, imageSha256⟩
  | _, _ => .error (.valueError "Equity frame evidence is incomplete")

def checkEvidence (rows : List String) (evidence : TranscriptEvidence) : Except LinkError SpokenMention :=
  match (asInt evidence.segmentIndex).filter fun index : Int => 0 ≤ index && index < (rows.length : Int) with
  | none => .error (.valueError "Equity transcript coordinate is invalid")
  | some index =>
    if evidence.text = .str (rows.getD index.toNat "") then .ok ⟨index, rows.getD index.toNat ""⟩
    else .error (.valueError "Equity transcript quote differs from source")

def checkEach {A B : Type} (check : A → Except LinkError B) : List A → Except LinkError (List B)
  | [] => .ok []
  | x :: xs => do
    let y ← check x
    let ys ← checkEach check xs
    return y :: ys

def checkCode (tier : String) (code : Json) : Except LinkError (Option String) :=
  if "FOCUSED_CHART".toList.isPrefixOf tier.toList then
    match (asText code).filter (isCode [6]) with
    | some text => .ok (some text)
    | none => .error (.valueError "Focused-chart equity code is not six ASCII digits")
  else if code = .null then .ok none
  else match (asText code).filter (isCode [5, 6]) with
    | some text => .ok (some text)
    | none => .error (.valueError "Slide entity code is invalid")

def checkMarket (market : Json) : Except LinkError (Option String) :=
  if market = .null then .ok none
  else match (asText market).filter fun text => !isBlank tables text with
    | some text => .ok (some text)
    | none => .error (.valueError "Equity market is invalid")

def checkText (message : String) (accepted : String → Bool) (value : Json) : Except LinkError String :=
  ((asText value).filter accepted).elim (.error (.valueError message)) .ok

/-- The checks of one mention, after the ids that have been seen. -/
def checkMention (stages : List Stage) (rows : List String) (seen : List String) (mention : ReviewedMention) :
    Except LinkError CheckedMention := do
  let entityId ← checkText "Missing or duplicate equity entity ID" (fun id => id ≠ "" && !seen.contains id)
    mention.entityId
  ensureThat (evidenceStatuses.contains (mention.evidenceTier, mention.identityStatus))
    "Unsupported equity evidence status"
  let tier := mention.evidenceTier.getD ""
  let name ← checkText "Equity name is missing" (fun name => !isBlank tables name) mention.name
  let code ← checkCode tier mention.code
  let market ← checkMarket tables mention.market
  let reviewed := mention.visualEvidence.getD []
  ensureThat (!reviewed.isEmpty) "Equity has no reviewed frame"
  let frames ← checkEach (checkFrame tables) reviewed
  let speech ← checkEach (checkEvidence rows) (mention.transcriptEvidence.getD [])
  ensureThat (!(spokenTiers.contains tier && speech.isEmpty)) "Spoken equity has no transcript evidence"
  let declared := mention.stageIds.getD []
  ensureThat (!declared.isEmpty && declared.all (stages.map Stage.stageId).contains) "Equity stage ID is invalid"
  return {
    entityId, name, code, market, frames, speech
    evidenceTier := tier
    identityStatus := mention.identityStatus.getD ""
    codeStatus := mention.codeStatus
    stages := declared.filterMap fun id => stages.find? fun stage => stage.stageId = id
    rawEntityText := mention.rawEntityText
    asrCorrectionSupported := mention.asrCorrectionSupported }

/-- The checks of all mentions, one after another. -/
def checkMentions (stages : List Stage) (rows : List String) :
    List String → List ReviewedMention → Except LinkError (List CheckedMention)
  | _, [] => .ok []
  | seen, mention :: rest => do
    let checked ← checkMention tables stages rows seen mention
    let others ← checkMentions stages rows (seen ++ [checked.entityId]) rest
    return checked :: others

end Checks

namespace CheckedMention
variable (mention : CheckedMention)

def isSpoken : Bool := spokenTiers.contains mention.evidenceTier

def spokenIn (stage : Stage) : Bool := mention.speech.any fun item =>
  stage.startSegmentIndex ≤ item.segmentIndex && item.segmentIndex ≤ stage.endSegmentIndex

/-- What is said about the entity is said in other stages. -/
def conflictsWith (stage : Stage) : Bool := !mention.speech.isEmpty && !mention.spokenIn stage

def frameIn (stage : Stage) : Bool := mention.frames.any fun frame =>
  (stage.startMs ≤ frame.timestampMs && frame.timestampMs ≤ stage.endMs) ||
    (!mention.conflictsWith stage && stage.endMs < frame.timestampMs &&
      frame.timestampMs ≤ stage.endMs + visualOnlyCorroborationGraceMs)

def isEligible (stage : Stage) : Bool :=
  mention.isSpoken && mention.spokenIn stage ||
    (visualOnlyTiers.contains mention.evidenceTier && mention.frameIn stage && !mention.conflictsWith stage)

def eligible : List Stage := mention.stages.filter mention.isEligible

/-- The cards that own the topics of the eligible stages. -/
def targetCards (cardByTopic : List (Int × Nat)) : List Nat :=
  (mention.eligible.filterMap fun stage => cardByTopic.lookup stage.topicIndex).dedup

/-- Near enough to a stage to be called a frame of it, or of what comes before or after. -/
def nearStage (stage : Stage) (frame : CheckedFrame) : Bool :=
  stage.startMs - 3000 ≤ frame.timestampMs && frame.timestampMs ≤ stage.endMs + visualOnlyCorroborationGraceMs

def frameScope (stage : Stage) (frame : CheckedFrame) : String :=
  if stage.startMs ≤ frame.timestampMs ∧ frame.timestampMs ≤ stage.endMs then "IN_DECLARED_STAGE"
  else if stage.startMs - 3000 ≤ frame.timestampMs ∧ frame.timestampMs < stage.startMs then "PRE_TOPIC_CORROBORATION"
  else "POST_TOPIC_CORROBORATION"

def frameIdOf (frame : CheckedFrame) : String :=
  frame.frameId.getD ("frame_" ++ String.ofList (frame.imageSha256.toList.take 24))

/-- The frame with its scope: `next` without a default. -/
def scopedFrame (frame : CheckedFrame) : Except LinkError FrameEvidence :=
  (mention.stages.find? fun stage => nearStage stage frame).elim (.error .stopIteration) fun stage =>
    .ok ⟨frameIdOf frame, frame.timestampMs, frame.imageSha256, frameScope stage frame⟩

def givenCodeStatus : String :=
  if mention.codeStatus.getD "" = "" then
    if mention.code.getD "" = "" then "NOT_VISIBLE_IN_VIDEO" else "CONFIRMED_IN_VIDEO"
  else mention.codeStatus.getD ""

def linkStatus : String :=
  if mention.isSpoken then "SPOKEN_AND_DISPLAYED_CONFIRMED" else "DISPLAYED_ONLY_SPEECH_LINK_UNRESOLVED"

/-- What is attached to the card. -/
def linked (frames : List FrameEvidence) : EquityMention where
  entityId := mention.entityId
  name := mention.name
  code := mention.code
  market := mention.market
  codeStatus := mention.givenCodeStatus
  evidenceTier := mention.evidenceTier
  identityStatus := mention.identityStatus
  linkStatus := mention.linkStatus
  rawSpokenMentions := mention.speech
  canonicalIdentity := {
    name := some mention.name
    code := some mention.code
    market := some mention.market
    codeStatus := mention.givenCodeStatus
    identityStatus := mention.identityStatus }
  speechLinkStatus := mention.linkStatus
  knowledgeRelation := "TOPIC_SCOPED_MENTION_NOT_RECOMMENDATION"
  stageIds := mention.eligible.map Stage.stageId
  transcriptEvidence := if mention.isSpoken then mention.speech else []
  visualEvidence := frames
  recommendationStatus := "NOT_A_RECOMMENDATION"

end CheckedMention

section Reprojection
variable (tables : CharTables) (protectedIndices : List Int)

/-- Whether two raw texts can be of one entity: one is part of the other. -/
def sameRawEntity (given found : Option String) : Bool :=
  let given := stripChars tables (given.getD "").toList
  let found := stripChars tables (found.getD "").toList
  given.isEmpty || decide (given <:+: found) || decide (found <:+: given)

def CheckedMention.resolutionStatus (mention : CheckedMention) : String :=
  if mention.asrCorrectionSupported then "RESOLVED_BY_CROSS_MODAL" else "RESOLVED_BY_VISUAL"

def CheckedMention.resolve (mention : CheckedMention) (item : UnresolvedItem) : UnresolvedItem :=
  if item.isOpenEntity && item.segmentIndices.any (mention.speech.map SpokenMention.segmentIndex).contains &&
      !item.segmentIndices.any protectedIndices.contains && sameRawEntity tables mention.rawEntityText item.rawText then
    { item with
      status := mention.resolutionStatus
      resolution := some (String.ofList (canonicalLabel mention.name.toList mention.code mention.market)) }
  else item

def reprojectResolvedEntity (mention : CheckedMention) (card : KnowledgeCard) : KnowledgeCard :=
  let items := card.unresolvedItems.map (mention.resolve tables protectedIndices)
  let unresolved := items.any UnresolvedItem.isOpenEntity
  { card with
    unresolvedItems := items
    unresolvedEntityInRange := unresolved
    reasonCodes := if unresolved then card.reasonCodes else card.reasonCodes.erase "ENTITY_NAME_UNRESOLVED" }

def CheckedMention.attachTo (mention : CheckedMention) (frames : List FrameEvidence) (card : KnowledgeCard) :
    KnowledgeCard :=
  let card := { card with equityMentions := card.equityMentions ++ [mention.linked frames] }
  if mention.isSpoken then reprojectResolvedEntity tables protectedIndices mention card else card

end Reprojection

structure UnlinkedMention where
  entityId : String
  reason : String
  deriving DecidableEq

structure LinkState where
  cards : List KnowledgeCard
  unlinked : List UnlinkedMention := []
  linkedCount : Nat := 0
  deriving DecidableEq

structure LinkAudit where
  reviewedMentionCount : Nat
  linkedMentionCount : Nat
  cardsWithMentions : Nat
  unlinked : List UnlinkedMention
  deriving DecidableEq

section Linking

def cardByTopic (cards : List KnowledgeCard) : List (Int × Nat) :=
  cards.zipIdx.flatMap fun entry => entry.1.topicIndices.map fun topic => (topic, entry.2)

/-- The coordinates at which something is said about an entity that is only seen. -/
def visualOnlyEvidenceIndices (mentions : List ReviewedMention) : List Int :=
  (mentions.filter fun mention => visualOnlyTiers.contains (mention.evidenceTier.getD "")).flatMap fun mention =>
    (mention.transcriptEvidence.getD []).filterMap fun evidence => asInt evidence.segmentIndex

variable (tables : CharTables) (protectedIndices : List Int) (topics : List (Int × Nat))

/-- A mention that has passed the checks goes to its card or to the audit. -/
def placeMention (mention : CheckedMention) (state : LinkState) : Except LinkError LinkState :=
  match mention.targetCards topics with
  | [index] => do
    let frames ← checkEach mention.scopedFrame mention.frames
    return { state with
      cards := state.cards.modify index (mention.attachTo tables protectedIndices frames)
      linkedCount := state.linkedCount + 1 }
  | [] => .ok { state with
      unlinked := state.unlinked ++ [⟨mention.entityId, "NO_EVIDENCE_SCOPED_KNOWLEDGE"⟩] }
  | _ => .ok { state with unlinked := state.unlinked ++ [⟨mention.entityId, "AMBIGUOUS_KNOWLEDGE_SCOPE"⟩] }

def linkMentions (stages : List Stage) (rows : List String) :
    List String → List ReviewedMention → LinkState → Except LinkError LinkState
  | _, [], state => .ok state
  | seen, mention :: rest, state => do
    let checked ← checkMention tables stages rows seen mention
    let state ← placeMention tables protectedIndices topics checked state
    linkMentions stages rows (seen ++ [checked.entityId]) rest state

end Linking

/-- The cards before anything is attached. -/
def KnowledgeCard.cleared (card : KnowledgeCard) : KnowledgeCard := { card with equityMentions := [] }

def linkAudit (mentions : List ReviewedMention) (state : LinkState) (linked : List KnowledgeCard) : LinkAudit where
  reviewedMentionCount := mentions.length
  linkedMentionCount := state.linkedCount
  cardsWithMentions := linked.countP fun card => !card.equityMentions.isEmpty
  unlinked := state.unlinked

def linkEquityMentions (rt : ProseRuntime) (cards : List KnowledgeCard) (stages : List Stage) (rows : List String)
    (mentions : List ReviewedMention) : Except LinkError (List KnowledgeCard × LinkAudit) := do
  ensureThat (decide (stages.map Stage.stageId).Nodup) "Duplicate stage ID"
  ensureThat (decide (cards.flatMap KnowledgeCard.topicIndices).Nodup) "Topic belongs to multiple knowledge cards"
  let state ← linkMentions rt.tables (visualOnlyEvidenceIndices mentions) (cardByTopic cards) stages rows [] mentions
    { cards := cards.map KnowledgeCard.cleared }
  let linked ← (reconcileConfirmedEntityProse rt state.cards).mapError .prose
  return (linked, linkAudit mentions state linked)

end StockContent.Knowledge
