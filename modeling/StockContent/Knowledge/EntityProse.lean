import StockContent.Knowledge.ClaimDraft
import StockContent.Storage.Machine
import StockContent.Storage.StableMembership
import StockContent.Text.Leading
import StockContent.Text.Matches

/-! The prose of a knowledge card after an entity on screen has been confirmed: what is rewritten, and what is refused
because it still calls the entity unknown. -/
namespace StockContent.Knowledge
open Storage Text

structure SpokenMention where
  segmentIndex : Int
  text : String
  deriving DecidableEq

/-- The keys of a canonical identity; a key may be missing, and its value may be `None`. -/
structure CanonicalIdentity where
  name : Option String := none
  code : Option (Option String) := none
  market : Option (Option String) := none
  codeStatus : String := ""
  identityStatus : String := ""
  deriving DecidableEq

structure FrameEvidence where
  frameId : String
  timestampMs : Int
  imageSha256 : String
  frameScopeStatus : String
  deriving DecidableEq

structure EquityMention where
  entityId : String
  name : String
  code : Option String := none
  market : Option String := none
  codeStatus : String := ""
  evidenceTier : String := ""
  identityStatus : String := ""
  linkStatus : String := ""
  rawSpokenMentions : List SpokenMention := []
  canonicalIdentity : CanonicalIdentity := {}
  speechLinkStatus : String := ""
  knowledgeRelation : String := ""
  stageIds : List String := []
  transcriptEvidence : List SpokenMention := []
  visualEvidence : List FrameEvidence := []
  recommendationStatus : String := ""
  deriving DecidableEq

structure UnresolvedItem where
  kind : String
  status : String
  rawText : Option String := none
  segmentIndices : List Int := []
  resolution : Option String := none
  deriving DecidableEq

structure ProseReconciliation where
  entityId : String
  canonicalName : String
  rawSpokenText : Option String
  segmentIndices : List Int
  changedFields : List String
  policy : String := "EXACT_SPOKEN_COORDINATE_AND_CONFIRMED_DISPLAY_ONLY"
  deriving DecidableEq

/-- A card, its prose among `fields`. -/
structure KnowledgeCard where
  topicIndices : List Int := []
  equityMentions : List EquityMention := []
  unresolvedItems : List UnresolvedItem := []
  reasonCodes : List String := []
  unresolvedEntityInRange : Bool := false
  fields : List (String × Json) := []
  entityProseReconciliation : Option (List ProseReconciliation) := none
  deriving DecidableEq

/-- What the rewriting takes from the language. -/
structure ProseRuntime where
  tables : CharTables
  escapes : Escapes
  /-- `str` of what is no text. -/
  str : Json → String

inductive ProseError where
  | valueError (message : String)
  | template (error : TemplateError)
  deriving DecidableEq

def proseFields : List String :=
  ["knowledge_title", "atomic_statement", "detailed_explanation", "subject", "applicability", "risks",
    "invalidation_conditions"]

def resolvedVisualEntityStatuses : List String := ["RESOLVED_BY_VISUAL", "RESOLVED_BY_CROSS_MODAL"]

section Expressions
open Regex

/-- `未核实|未确认|尚未确认`. -/
def unverified : Regex := words ["未核实", "未确认", "尚未确认"]

def identityUncertainty : Regex := choice [
  .seq (word "身份") (words ["未核实", "未确认", "尚未确认", "无法确认", "未经确认", "未获核实"]),
  sequence [words ["无法", "不能", "不足以"], word "确认",
    words ["其对应股票", "公司身份", "具体公司", "具体标的", "股票代码"]],
  sequence [word "不能据此确认为", option (word "某家"), word "上市公司"],
  sequence [option (words ["转录", "转写", "口播"]), word "名称", words ["未确认", "尚未确认"]]]

def genericIdentityPlaceholder : Regex := .alt
  (sequence [option (word "该"), word "身份", unverified, option (word "的"), word "标的"])
  (sequence [words ["转录", "转写", "口播"], word "名称", words ["未确认", "尚未确认"], word "的",
    .rep (noneOf "，。；！？") 0 (some 16), word "标的"])

def transcribed : Regex := words ["转录", "转写"]

/-- The raw text in quotation marks. -/
def quotedRaw (raw : List Char) : Regex := sequence [oneOf "“\"", literal raw, oneOf "”\""]

def scopedParenthetical (raw : List Char) : Regex :=
  sequence [transcribed, word "作", quotedRaw raw, word "的标的", oneOf "（(", option (word "公司"), word "身份", unverified,
    oneOf "）)"]

def leadingDescriptor (raw : List Char) : Regex :=
  sequence [word "身份", unverified, oneOf "、，", word "名称", transcribed, word "为", quotedRaw raw, word "的"]

def trailingDescriptor (raw : List Char) : Regex :=
  sequence [transcribed, word "中的", quotedRaw raw, word "身份", unverified]

def identityDescriptor (raw : List Char) : Regex :=
  sequence [words ["口播", "转录", "转写"], word "名称为", quotedRaw raw, oneOf "、，", word "身份", unverified,
    option (word "的"), word "标的"]

def spokenPlaceholder (raw : List Char) : Regex :=
  sequence [option (word "名称"), word "转录", words ["为", "作"], quotedRaw raw, word "的标的"]

def scopedPlaceholder (raw : List Char) : Regex :=
  sequence [option (word "某"), option (word "名称"), transcribed, word "为", quotedRaw raw, option (oneOf "、，"),
    option (word "具体"), word "身份", words ["未核实", "未确认", "尚未确认", "无法确认", "未经确认"], option (word "的"),
    word "标的"]

def identityOnlySentence (raw : List Char) : Regex :=
  sequence [option (words ["本卡", "原始"]), word "口播", option (word "名称"), option (words ["为", "是"]),
    option (oneOf "“\""), literal raw, option (oneOf "”\""), many (noneOf "。！？"), words ["无法", "不能", "未能"],
    many (noneOf "。！？"), words ["身份", "公司", "股票", "标的"], many (noneOf "。！？")]

def insufficientName : Regex := sequence [word "该名称", option (word "仍"), word "不足以确认公司身份"]

/-- `该标的身份及([^。；]+)未获核实`. -/
def unverifiedAspect : Regex := sequence [word "该标的身份及", Regex.some (noneOf "。；"), word "未获核实"]

def notListed (name : List Char) : Regex :=
  sequence [option (oneOf "“\""), literal name, option (oneOf "”\""), option (word "也"), word "不能据此确认为",
    option (word "某家"), word "上市公司"]

def unconfirmedIdentity : Regex :=
  sequence [word "其", option (words ["公司", "标的"]), word "身份", option (word "尚"),
    words ["无法", "未能", "未", "未经"], option (word "得到"), word "确认"]

def unconfirmedCode : Regex :=
  sequence [option (word "仅凭本卡内容"), words ["无法", "不能"], word "确认公司身份或股票代码"]

def severalTargets : Regex := words ["多个", "两个", "若干", "部分标的"]

end Expressions

section Targets
variable (rt : ProseRuntime)

/-- A confirmed entity whose spoken coordinates meet those of a resolved item. -/
structure ProseTarget where
  entityId : String
  name : List Char
  label : List Char
  code : Option String
  rawText : Option (List Char)
  segmentIndices : List Int
  deriving DecidableEq

def orElseText (first second : Option String) : Option String := if first.getD "" = "" then second else first

/-- The name with the code, or else with the market. -/
def canonicalLabel (name : List Char) (code market : Option String) : List Char :=
  let qualifier := orElseText code (if market = some "HK" then some "港股" else market)
  if qualifier.getD "" = "" then name else name ++ "（".toList ++ (qualifier.getD "").toList ++ "）".toList

def shortRawEntity (value : Option String) : Option (List Char) :=
  let raw := stripChars rt.tables (value.getD "").toList
  if raw.isEmpty || raw.length > 32 || raw.any (fun c => "，。；！？\n".toList.contains c) then none else some raw

def EquityMention.speechIndices (mention : EquityMention) : List Int :=
  sortedIndices (mention.rawSpokenMentions.map SpokenMention.segmentIndex)

def EquityMention.canonicalName (mention : EquityMention) : List Char :=
  stripChars rt.tables ((orElseText mention.canonicalIdentity.name (some mention.name)).getD "").toList

def EquityMention.canonicalCode (mention : EquityMention) : Option String :=
  mention.canonicalIdentity.code.getD mention.code

def EquityMention.canonicalMarket (mention : EquityMention) : Option String :=
  mention.canonicalIdentity.market.getD mention.market

/-- Whether the item names the entity as the resolution of an ambiguity at one of its coordinates. -/
def UnresolvedItem.confirms (item : UnresolvedItem) (indices : List Int) (name : List Char) : Bool :=
  item.kind = "ENTITY" && resolvedVisualEntityStatuses.contains item.status &&
    item.segmentIndices.any indices.contains && decide (name <:+: (item.resolution.getD "").toList)

def mentionTargets (items : List UnresolvedItem) (mention : EquityMention) : List ProseTarget :=
  let indices := mention.speechIndices
  let name := mention.canonicalName rt
  if mention.speechLinkStatus ≠ "SPOKEN_AND_DISPLAYED_CONFIRMED" || indices.isEmpty || name.isEmpty then []
  else
    -- One item is enough: the others have the same key.
    ((items.filter fun item => item.confirms indices name).take 1).map fun item =>
      { entityId := mention.entityId
        name
        label := canonicalLabel name mention.canonicalCode mention.canonicalMarket
        code := mention.canonicalCode
        rawText := shortRawEntity rt item.rawText
        segmentIndices := sortedIndices (indices.filter item.segmentIndices.contains) }

/-- The key under which a mention is seen once. -/
def EquityMention.targetKey (mention : EquityMention) : List Char × List Int :=
  (if mention.entityId = "" then mention.canonicalName rt else mention.entityId.toList, mention.speechIndices)

def confirmedProseTargets (card : KnowledgeCard) : List ProseTarget :=
  (firstOfEach (EquityMention.targetKey rt) []
    (card.equityMentions.filter fun mention => !(mentionTargets rt card.unresolvedItems mention).isEmpty)).flatMap
    (mentionTargets rt card.unresolvedItems)

end Targets

section Rewriting
variable (rt : ProseRuntime)

def rawSentinel : List Char := "\x00RAW_SPOKEN_ENTITY\x00".toList

def confirmationText (label : List Char) : List Char := "同期画面已确认其规范身份为".toList ++ label

def identityConfirmationSentence (target : ProseTarget) (raw : List Char) : List Char :=
  "本卡原始口播为“".toList ++ raw ++ "”，".toList ++ "同期画面确认其对应".toList ++ target.label ++
    if target.code.getD "" = "" then "；视频画面未显示股票代码".toList else []

/-- The text with what an expression reads put as a template says. -/
def rewrite (r : Regex) (written text : List Char) : Except ProseError (List Char) :=
  (subTemplate rt.escapes r written text).mapError .template

/-- What is done to the text where the raw spoken form is known. -/
def rewriteRaw (target : ProseTarget) (raw text : List Char) : Except ProseError (List Char) := do
  let label := target.label
  let text ← rewrite rt (scopedParenthetical raw) label text
  let text ← rewrite rt (leadingDescriptor raw) (label ++ ['的']) text
  let text ← rewrite rt (trailingDescriptor raw) (confirmationText label) text
  let text ← rewrite rt (identityDescriptor raw) label text
  let text ← rewrite rt (spokenPlaceholder raw) label text
  let text := replace ("一个".toList ++ label) label text
  let text ← rewrite rt (scopedPlaceholder raw) label text
  let text ← rewrite rt (identityOnlySentence raw) (identityConfirmationSentence target rawSentinel) text
  return replace rawSentinel raw (replace raw target.name text)

/-- The one template with a group: `\\1` is what lies between the two fixed texts. -/
def confirmedAspect (found : List Char) : List Char :=
  "该标的身份已由同期画面确认，".toList ++ (found.drop "该标的身份及".length).dropLast.dropLast.dropLast.dropLast ++
    "仍未获核实".toList

def rewriteScopedPronoun (target : ProseTarget) (text : List Char) : Except ProseError (List Char) := do
  let confirmation := confirmationText target.label
  let text ← rewrite rt insufficientName confirmation text
  let text := unverifiedAspect.sub confirmedAspect text
  let text ← rewrite rt (notListed target.name) confirmation text
  let text := replace "两个身份未确认的标的".toList (target.label ++ "与另一个身份未确认的标的".toList) text
  let text := replace "标的及术语得到进一步核实".toList "相关术语得到进一步核实".toList text
  return replace "具体证券身份和压力位未确认".toList "具体证券身份已由同期画面确认，压力位仍未确认".toList text

def rewriteGeneric (target : ProseTarget) (text : List Char) : Except ProseError (List Char) := do
  let text ← rewrite rt genericIdentityPlaceholder target.label text
  let text ← rewrite rt unconfirmedIdentity ("其规范身份经同期画面确认为".toList ++ target.label) text
  rewrite rt unconfirmedCode
    (confirmationText target.label ++ if target.code.getD "" = "" then "，但视频画面未显示股票代码".toList else []) text

def rewriteEntityIdentityProse (text : List Char) (target : ProseTarget) (allowGeneric allowScopedPronoun : Bool) :
    Except ProseError (List Char) := do
  let text ← target.rawText.elim (.ok text) fun raw => rewriteRaw rt target raw text
  let text ← (if allowScopedPronoun then rewriteScopedPronoun rt target text else .ok text)
  if allowGeneric then rewriteGeneric rt target text else .ok text

end Rewriting

section Reconciliation
variable (rt : ProseRuntime)

def UnresolvedItem.isOpenEntity (item : UnresolvedItem) : Bool := item.kind = "ENTITY" && item.status = "UNRESOLVED"

def KnowledgeCard.allowsGeneric (card : KnowledgeCard) (targets : List ProseTarget) : Bool :=
  targets.length = 1 && !card.unresolvedItems.any UnresolvedItem.isOpenEntity

/-- A title about one entity may be rewritten even if others are open. -/
def fieldAllowsGeneric (allowGeneric : Bool) (targets : List ProseTarget) (field : String) (text : List Char) : Bool :=
  allowGeneric || (field = "knowledge_title" && targets.length = 1 && !severalTargets.searches text)

/-- The text of a field that is a text. -/
def KnowledgeCard.prose (card : KnowledgeCard) (field : String) : Option String :=
  match Json.lookup card.fields field with
  | some (.str text) => some text
  | _ => none

/-- One field for one target; the fields that changed are listed. -/
def reconcileField (targets : List ProseTarget) (allowGeneric : Bool) (target : ProseTarget) (field : String)
    (state : KnowledgeCard × List String) : Except ProseError (KnowledgeCard × List String) :=
  match state.1.prose field with
  | none => .ok state
  | some before => do
    let after ← rewriteEntityIdentityProse rt before.toList target
      (fieldAllowsGeneric allowGeneric targets field before.toList) (targets.length = 1)
    if String.ofList after = before then return state
    else return ({ state.1 with fields := Json.put state.1.fields field (.str (String.ofList after)) }, state.2 ++ [field])

def reconcileFields (targets : List ProseTarget) (allowGeneric : Bool) (target : ProseTarget) :
    List String → KnowledgeCard × List String → Except ProseError (KnowledgeCard × List String)
  | [], state => .ok state
  | field :: fields, state => do
    let state ← reconcileField rt targets allowGeneric target field state
    reconcileFields targets allowGeneric target fields state

def reconcileTargets (targets : List ProseTarget) (allowGeneric : Bool) :
    List ProseTarget → KnowledgeCard × List ProseReconciliation →
      Except ProseError (KnowledgeCard × List ProseReconciliation)
  | [], state => .ok state
  | target :: rest, state => do
    let (card, changed) ← reconcileFields rt targets allowGeneric target proseFields (state.1, [])
    let entry : ProseReconciliation := {
      entityId := target.entityId
      canonicalName := String.ofList target.name
      rawSpokenText := target.rawText.map String.ofList
      segmentIndices := target.segmentIndices
      changedFields := changed }
    reconcileTargets targets allowGeneric rest (card, if changed.isEmpty then state.2 else state.2 ++ [entry])

def reconcileCard (card : KnowledgeCard) : Except ProseError KnowledgeCard := do
  let targets := confirmedProseTargets rt card
  let (card', entries) ← reconcileTargets rt targets (card.allowsGeneric targets) targets (card, [])
  return if entries.isEmpty then card' else { card' with entityProseReconciliation := some entries }

end Reconciliation

section Consistency
variable (rt : ProseRuntime)

def uncertaintyDistance : Nat := 24

def identityUncertaintyNear (text value : List Char) : Bool :=
  !value.isEmpty && (finditer [identityUncertainty] text).any fun uncertainty =>
    (finditer [Regex.literal value] text).any fun found =>
      uncertainty.start ≤ found.stop + uncertaintyDistance && found.start ≤ uncertainty.stop + uncertaintyDistance

def staleSentence (target : ProseTarget) (allowGeneric : Bool) (sentence : List Char) : Bool :=
  identityUncertainty.searches sentence && (identityUncertaintyNear sentence target.name ||
    target.rawText.any (identityUncertaintyNear sentence) ||
    allowGeneric && genericIdentityPlaceholder.searches sentence)

def staleField (targets : List ProseTarget) (allowGeneric : Bool) (target : ProseTarget) (field : String)
    (text : List Char) : Bool :=
  let comparison := replace (target.label ++ "与另一个身份未确认的标的".toList)
    (target.label ++ "与另一待核标的".toList) text
  identityUncertainty.searches text && (splitAfter (fun c => "。！？；".toList.contains c) comparison).any
    (staleSentence target (fieldAllowsGeneric allowGeneric targets field text))

/-- The fields of a card that still call a confirmed entity unknown. -/
def KnowledgeCard.proseIssues (card : KnowledgeCard) : List String :=
  let targets := confirmedProseTargets rt card
  let knowledgeId := (Json.lookup card.fields "knowledge_id").elim "<unknown>" (Json.strOf rt.str)
  targets.flatMap fun target => (proseFields.filter fun field => (card.prose field).any fun text =>
    staleField targets (card.allowsGeneric targets) target field text.toList).map fun field =>
      knowledgeId ++ ":" ++ field ++ ":" ++ String.ofList target.name

def validateConfirmedEntityProseConsistency (cards : List KnowledgeCard) : Except ProseError Unit :=
  let issues := cards.flatMap (KnowledgeCard.proseIssues rt)
  if issues.isEmpty then .ok ()
  else .error (.valueError ("Confirmed entity identity remains unresolved in prose: " ++ ", ".intercalate issues))

def reconcileCards : List KnowledgeCard → Except ProseError (List KnowledgeCard)
  | [] => .ok []
  | card :: cards => do
    let card ← reconcileCard rt card
    let cards ← reconcileCards cards
    return card :: cards

def reconcileConfirmedEntityProse (cards : List KnowledgeCard) : Except ProseError (List KnowledgeCard) := do
  let cards ← reconcileCards rt cards
  validateConfirmedEntityProseConsistency rt cards
  return cards

end Consistency

section Kept
variable {rt : ProseRuntime}

/-- Nothing but prose is written. -/
structure KnowledgeCard.Kept (card card' : KnowledgeCard) : Prop where
  topicIndices : card'.topicIndices = card.topicIndices
  equityMentions : card'.equityMentions = card.equityMentions
  unresolvedItems : card'.unresolvedItems = card.unresolvedItems

theorem KnowledgeCard.Kept.refl (card : KnowledgeCard) : card.Kept card := ⟨rfl, rfl, rfl⟩

theorem KnowledgeCard.Kept.trans {card card' card'' : KnowledgeCard} (h : card.Kept card') (h' : card'.Kept card'') :
    card.Kept card'' :=
  ⟨h'.topicIndices.trans h.topicIndices, h'.equityMentions.trans h.equityMentions,
    h'.unresolvedItems.trans h.unresolvedItems⟩

variable {targets rest : List ProseTarget} {allowGeneric : Bool} {target : ProseTarget}

theorem reconcileField_kept {field : String} {state state' : KnowledgeCard × List String}
    (h : reconcileField rt targets allowGeneric target field state = .ok state') : state.1.Kept state'.1 := by
  rw [reconcileField] at h
  split at h
  · obtain rfl := Except.ok.inj h
    exact .refl _
  · obtain ⟨after, -, h⟩ := bind_eq_ok.mp h
    split at h
    · obtain rfl := Except.ok.inj h
      exact .refl _
    · obtain rfl := Except.ok.inj h
      exact ⟨rfl, rfl, rfl⟩

theorem reconcileFields_kept {fields : List String} {state state' : KnowledgeCard × List String}
    (h : reconcileFields rt targets allowGeneric target fields state = .ok state') : state.1.Kept state'.1 := by
  induction fields generalizing state with
  | nil =>
    obtain rfl := Except.ok.inj h
    exact .refl _
  | cons field fields ih =>
    obtain ⟨next, hnext, hrest⟩ := bind_eq_ok.mp h
    exact (reconcileField_kept hnext).trans (ih hrest)

theorem reconcileTargets_kept {state state' : KnowledgeCard × List ProseReconciliation}
    (h : reconcileTargets rt targets allowGeneric rest state = .ok state') : state.1.Kept state'.1 := by
  induction rest generalizing state with
  | nil =>
    obtain rfl := Except.ok.inj h
    exact .refl _
  | cons target rest ih =>
    obtain ⟨next, hnext, hrest⟩ := bind_eq_ok.mp h
    exact (reconcileFields_kept hnext).trans (ih hrest)

theorem reconcileCard_kept {card card' : KnowledgeCard} (h : reconcileCard rt card = .ok card') : card.Kept card' := by
  obtain ⟨state, hstate, h⟩ := bind_eq_ok.mp h
  have hkept : card.Kept state.1 := reconcileTargets_kept hstate
  obtain rfl := Except.ok.inj h
  split
  · exact hkept
  · exact ⟨hkept.topicIndices, hkept.equityMentions, hkept.unresolvedItems⟩

theorem reconcileCards_kept {cards cards' : List KnowledgeCard} (h : reconcileCards rt cards = .ok cards') :
    List.Forall₂ KnowledgeCard.Kept cards cards' := by
  induction cards generalizing cards' with
  | nil =>
    obtain rfl := Except.ok.inj h
    exact .nil
  | cons card cards ih =>
    obtain ⟨card', hcard, h⟩ := bind_eq_ok.mp h
    obtain ⟨rest, hrest, h⟩ := bind_eq_ok.mp h
    obtain rfl := Except.ok.inj h
    exact .cons (reconcileCard_kept hcard) (ih hrest)

/-- Reconciliation moves no mention and no topic. -/
theorem reconcile_kept {cards cards' : List KnowledgeCard} (h : reconcileConfirmedEntityProse rt cards = .ok cards') :
    List.Forall₂ KnowledgeCard.Kept cards cards' := by
  obtain ⟨reconciled, hreconciled, h⟩ := bind_eq_ok.mp h
  obtain ⟨-, -, h⟩ := bind_eq_ok.mp h
  obtain rfl := Except.ok.inj h
  exact reconcileCards_kept hreconciled

end Kept
end StockContent.Knowledge
