import StockContent.Text.Matches
import StockContent.Knowledge.AtomicClaimDraft

/-! What a model has extracted is accepted claim by claim, when every check on the cited text passes. -/
namespace StockContent.Knowledge
open Storage Text Numeric

inductive ClaimRejectionCode where
  | malformedJson
  | schemaInvalid
  | transcriptQualityNotPass
  | semanticSegmentMismatch
  | evidenceCoordinateInvalid
  | quoteNotVerbatim
  | notAtomic
  | conditionNotGrounded
  | invalidationNotGrounded
  | hardFactMismatch
  | predicateMismatch
  | entityMismatch
  | subjectMismatch
  | polarityMismatch
  | tenseMismatch
  | temporalNotGrounded
  | visualAnchorInvalid
  | inferredVisualHighRisk
  deriving DecidableEq

/-- An answer that is no text of JSON, or one that reading does not survive. -/
inductive LoadError where
  | malformed
  | raised (name : String)
  deriving DecidableEq

/-- What the validator takes from the language and its packages: `json.loads`, and the reading of a draft, which keeps
the constraints of its fields. -/
structure ClaimRuntime extends DraftRuntime where
  loads : String → Except LoadError Json
  modelValidate : Json → Option AtomicClaimDraft

structure ValidatedAtomicClaim where
  draft : AtomicClaimDraft
  contradictionGroupId : Option String

structure AtomicClaimValidationResult where
  accepted : List ValidatedAtomicClaim
  rejected : List ClaimRejectionCode

section Words

def conditionWords : List String := ["如果", "若", "条件"]

inductive TextPolarity where
  | negative
  | positive
  | neutral
  deriving DecidableEq

def textPolarity (text : String) : TextPolarity :=
  if anyIn ["下降", "下滑", "减少", "亏损", "利空", "不", "未"] text then .negative
  else if anyIn ["增长", "上升", "改善", "盈利", "利好"] text then .positive
  else .neutral

def textTense (text : String) : AssertionTense :=
  if anyIn conditionWords text then .conditional
  else if anyIn ["将", "预计", "预测", "未来", "明年"] text then .future
  else if anyIn ["去年", "曾", "已经", "此前"] text then .past
  else if text = "" then .unknown
  else .present

def clauseEnds : List Char := ['；', ';', '。', '！', '？', '!', '?']

def metrics : Regex := words ["营收", "收入", "利润", "毛利率", "销量", "订单", "价格", "估值"]

/-- Two metrics with a conjunction between them. -/
def joinedMetrics : Regex :=
  let line : Regex := .many (.one (· ≠ '\n'))
  .sequence [metrics, line, words ["以及", "同时", "并且", "，", "、", "和"], line, metrics]

end Words

section Validate
variable (runtime : ClaimRuntime)

/-- One clause, without two metrics that are joined. -/
def isAtomic (statement : String) : Bool :=
  let clauses := (statement.toList.splitOnP clauseEnds.contains).map (stripChars runtime.tables)
  (clauses.filter (· ≠ [])).length = 1 && (joinedMetrics.findAll statement).isEmpty

def highRisk (draft : AtomicClaimDraft) : Bool :=
  !(NumericAlignmentService.tokens runtime.tables draft.normalizedStatement).isEmpty ||
    anyIn ["营收", "收入", "利润", "估值", "价格", "收益", "增长", "财务"] (draft.predicate ++ draft.normalizedStatement)

def isFinite : Binary64 → Bool
  | .finite _ => true
  | _ => false

def visualValid (anchor : VisualEvidenceAnchor) : Bool :=
  anchor.frameId ≠ "" && anchor.modelId ≠ "" && anchor.modelVersion ≠ "" &&
    firstText [anchor.ocrText, anchor.visualLabel] ≠ "" && anchor.bbox.length = 4 && anchor.bbox.all isFinite

def isThesis (draft : AtomicClaimDraft) : Bool :=
  Json.lookup draft.bundleV2 "knowledge_role" = some (.str KnowledgeRole.thesis.value)

def primaryText (transcript : List TranscriptSegmentItem) (draft : AtomicClaimDraft) : String :=
  textAt transcript draft.evidenceSegmentIndices

/-- A thesis cites a whole arc, and is compared with its quote alone. -/
def alignmentText (transcript : List TranscriptSegmentItem) (draft : AtomicClaimDraft) : String :=
  if isThesis draft then draft.verbatimQuote else primaryText transcript draft

/-- A condition or an invalidation that is stated has to stand in the segments that are cited for it. -/
def clauseGrounded (transcript : List TranscriptSegmentItem) (text : Option String) (indices : List Int) : Bool :=
  firstText [text] = "" ||
    (!indices.isEmpty && containsText runtime.toDraftRuntime (firstText [text]) (textAt transcript indices))

def objectText (draft : AtomicClaimDraft) : String := firstText [draft.object.map ClaimObject.text]

def objectValue (draft : AtomicClaimDraft) : Option Json := draft.object.bind ClaimObject.value

/-- The first check that fails gives the code of the rejection. -/
def validateOne (draft : AtomicClaimDraft) (transcript : List TranscriptSegmentItem)
    (byId : Dict String SemanticSegment) : Except ClaimRejectionCode Unit := do
  let contains := containsText runtime.toDraftRuntime
  let segment ← (byId.lookup draft.semanticSegmentId).elim (.error .semanticSegmentMismatch) .ok
  let byIndex := rowsByIndex transcript
  let valid ← (permittedThesisEvidenceIndices runtime.toDraftRuntime draft.coordinates segment
    (byIndex.rows.map Prod.fst)).mapError fun _ => .evidenceCoordinateInvalid
  require .evidenceCoordinateInvalid
    (!draft.allIndices.isEmpty && draft.allIndices.all fun index => valid.contains index && (byIndex.lookup index).isSome)
  require .quoteNotVerbatim (contains draft.verbatimQuote (primaryText transcript draft))
  let text := alignmentText transcript draft
  require .notAtomic (isAtomic runtime draft.normalizedStatement)
  require .conditionNotGrounded (!(anyIn conditionWords draft.verbatimQuote && firstText [draft.conditionText] = ""))
  require .invalidationNotGrounded
    (!(anyIn ["证伪", "失效"] draft.verbatimQuote && firstText [draft.invalidationText] = ""))
  require .conditionNotGrounded
    (clauseGrounded runtime transcript draft.conditionText draft.conditionEvidenceSegmentIndices)
  require .invalidationNotGrounded
    (clauseGrounded runtime transcript draft.invalidationText draft.invalidationEvidenceSegmentIndices)
  require .hardFactMismatch (NumericAlignmentService.aligned runtime.tables draft.normalizedStatement text)
  require .predicateMismatch (contains draft.predicate text)
  require .hardFactMismatch (objectText draft = "" || contains (objectText draft) text)
  require .hardFactMismatch ((objectValue draft).all fun value => contains (runtime.str value) text)
  require .subjectMismatch (EntityAlignmentService.subjectAligned runtime.toDraftRuntime draft text)
  require .polarityMismatch (textPolarity draft.normalizedStatement = textPolarity text ||
    textPolarity draft.normalizedStatement = .neutral)
  require .tenseMismatch (textTense draft.normalizedStatement = textTense text ||
    textTense draft.normalizedStatement = .unknown)
  require .tenseMismatch (draft.assertionTense = .unknown || draft.assertionTense = textTense text)
  require .entityMismatch
    (EntityAlignmentService.statementEntitiesAligned runtime.toDraftRuntime draft.normalizedStatement text)
  require .temporalNotGrounded (temporalGrounded runtime.toDraftRuntime draft transcript valid)
  require .visualAnchorInvalid (draft.visualAnchors.all visualValid)
  require .inferredVisualHighRisk
    (!(draft.visualAnchors.any (fun anchor => anchor.supportType = .inferredVisual) && highRisk runtime draft))

/-- A draft whose statement is freed from framing; nothing may be left of it. -/
def readDraft (item : Json) : Option AtomicClaimDraft :=
  (runtime.modelValidate item).bind fun draft =>
    match atomicStatement runtime.tables draft.normalizedStatement with
    | .error _ => none
    | .ok statement =>
      if h : statement ≠ "" then some { draft with normalizedStatement := statement, stated := h } else none

def segmentsById (segments : List SemanticSegment) : Dict String SemanticSegment :=
  Table.empty.putAll (segments.map fun item => (item.semanticSegmentId, item))

/-- An item of the answer, accepted or rejected. -/
def validateItem (transcript : List TranscriptSegmentItem) (segments : List SemanticSegment) (item : Json) :
    Except ClaimRejectionCode AtomicClaimDraft := do
  let draft ← (readDraft runtime item).elim (.error .schemaInvalid) .ok
  validateOne runtime draft transcript (segmentsById segments)
  return draft

/-- The claims of an answer: a list, or an object with nothing else. -/
def claimItems : Json → Option (List Json)
  | .obj fields =>
    match Json.lookup fields "claims" with
    | some (.arr items) => if fields.all fun field => field.1 = "claims" then some items else none
    | _ => none
  | .arr items => some items
  | _ => none

/-- The answer of a model: a text, or what has been read already. -/
inductive ClaimPayload where
  | text (answer : String)
  | value (answer : Json)

def ClaimPayload.read : ClaimPayload → Except LoadError Json
  | .text answer => runtime.loads answer
  | .value answer => .ok answer

def acceptedOf (outcomes : List (Except ClaimRejectionCode AtomicClaimDraft)) : List AtomicClaimDraft :=
  outcomes.filterMap Except.toOption

def rejectionOf : Except ClaimRejectionCode AtomicClaimDraft → Option ClaimRejectionCode
  | .error code => some code
  | .ok _ => none

def validatePayloads (payload : ClaimPayload) (transcript : List TranscriptSegmentItem)
    (segments : List SemanticSegment) (transcriptQualityStatus : String) :
    Except String AtomicClaimValidationResult :=
  if transcriptQualityStatus ≠ "PASS" then .ok ⟨[], [.transcriptQualityNotPass]⟩
  else
    match payload.read runtime with
    | .error .malformed => .ok ⟨[], [.malformedJson]⟩
    | .error (.raised name) => .error name
    | .ok raw =>
      match claimItems raw with
      | none => .ok ⟨[], [.schemaInvalid]⟩
      | some items =>
        let outcomes := items.map (validateItem runtime transcript segments)
        let accepted := acceptedOf outcomes
        .ok ⟨accepted.map fun draft => ⟨draft, contradictionGroup runtime.toDraftRuntime accepted draft⟩,
          outcomes.filterMap rejectionOf⟩

end Validate
section Grounded
variable {runtime : ClaimRuntime} {transcript : List TranscriptSegmentItem} {segments : List SemanticSegment}
  {draft : AtomicClaimDraft}

/-- A pattern reads a piece of the text that is the token, up to blanks, capitals and the sign for per cent. -/
def StandsAsToken (tables : CharTables) (text token : String) : Prop :=
  ∃ pattern ∈ NumericAlignmentService.patterns tables, ∃ piece : String, piece.toList <:+: text.toList ∧
    pattern.ReadsText piece.toList ∧ NumericAlignmentService.normal tables piece = token

theorem stands_of_mem_tokens {tables : CharTables} {text token : String}
    (h : token ∈ NumericAlignmentService.tokens tables text) : StandsAsToken tables text token := by
  obtain ⟨pattern, hpattern, htoken⟩ := List.mem_flatMap.mp h
  obtain ⟨piece, hpiece, rfl⟩ := List.mem_map.mp htoken
  obtain ⟨hin, hread⟩ := Regex.findAllFrom_reads hpiece
  exact ⟨pattern, hpattern, piece, hin, hread, rfl⟩

theorem aligned_iff {tables : CharTables} {statement evidence : String} :
    NumericAlignmentService.aligned tables statement evidence = true ↔
      ∀ token ∈ NumericAlignmentService.tokens tables statement, token ∈ NumericAlignmentService.tokens tables evidence := by
  rw [NumericAlignmentService.aligned, List.all_eq_true]
  simp only [List.contains_iff_mem]

/-- Every hard token of the statement is one of the text that the draft is compared with, and stands there; so does the
value of the object, as a text; and the quote stands in the cited segments. -/
structure HardFactsGrounded (runtime : ClaimRuntime) (transcript : List TranscriptSegmentItem)
    (draft : AtomicClaimDraft) : Prop where
  recognised : ∀ token ∈ NumericAlignmentService.tokens runtime.tables draft.normalizedStatement,
    token ∈ NumericAlignmentService.tokens runtime.tables (alignmentText transcript draft)
  stands : ∀ token ∈ NumericAlignmentService.tokens runtime.tables draft.normalizedStatement,
    StandsAsToken runtime.tables (alignmentText transcript draft) token
  value : ∀ value, objectValue draft = some value →
    containsText runtime.toDraftRuntime (runtime.str value) (alignmentText transcript draft) = true
  quoted : containsText runtime.toDraftRuntime draft.verbatimQuote (primaryText transcript draft) = true

/-- A draft that passes every check has passed those of its hard facts. -/
theorem validateOne_grounded {byId : Dict String SemanticSegment}
    (h : validateOne runtime draft transcript byId = .ok ()) : HardFactsGrounded runtime transcript draft := by
  rw [validateOne] at h
  obtain ⟨_, _, h⟩ := bind_eq_ok.mp h
  obtain ⟨_, _, h⟩ := bind_eq_ok.mp h
  simp only [then_eq_ok, require_eq_ok] at h
  obtain ⟨_, hquote, _, _, _, _, _, haligned, _, _, hvalue, _⟩ := h
  have hrecognised := aligned_iff.mp haligned
  exact {
    recognised := hrecognised
    stands := fun token htoken => stands_of_mem_tokens (hrecognised token htoken)
    value := fun value hobject => by
      rw [hobject, Option.all_some] at hvalue
      exact hvalue
    quoted := hquote }

theorem mem_acceptedOf {outcomes : List (Except ClaimRejectionCode AtomicClaimDraft)} :
    draft ∈ acceptedOf outcomes ↔ .ok draft ∈ outcomes := by
  rw [acceptedOf, List.mem_filterMap]
  constructor
  · rintro ⟨outcome, houtcome, hdraft⟩
    rw [toOption_eq_some.mp hdraft] at houtcome
    exact houtcome
  · exact fun h => ⟨_, h, rfl⟩

/-- What is accepted has been read from an item of the answer and has passed every check. -/
theorem validatePayloads_accepted {payload : ClaimPayload} {status : String} {result : AtomicClaimValidationResult}
    {claim : ValidatedAtomicClaim} (h : validatePayloads runtime payload transcript segments status = .ok result)
    (hclaim : claim ∈ result.accepted) :
    validateOne runtime claim.draft transcript (segmentsById segments) = .ok () := by
  rw [validatePayloads] at h
  split at h
  · cases h
    cases hclaim
  · split at h
    · cases h
      cases hclaim
    · cases h
    · split at h
      · cases h
        cases hclaim
      · cases h
        obtain ⟨draft, hdraft, rfl⟩ := List.mem_map.mp hclaim
        obtain ⟨item, -, hitem⟩ := List.mem_map.mp (mem_acceptedOf.mp hdraft)
        rw [validateItem] at hitem
        obtain ⟨read, -, hread⟩ := bind_eq_ok.mp hitem
        obtain ⟨hvalid, hsame⟩ := then_eq_ok.mp hread
        obtain rfl := Except.ok.inj hsame
        exact hvalid

/-- An accepted claim brings in no hard fact: each hard token of its statement stands in the text that it cites, and so
does the value of its object. -/
theorem accepted_hard_facts {payload : ClaimPayload} {status : String} {result : AtomicClaimValidationResult}
    (h : validatePayloads runtime payload transcript segments status = .ok result) :
    ∀ claim ∈ result.accepted, HardFactsGrounded runtime transcript claim.draft := by
  intro claim hclaim
  exact validateOne_grounded (validatePayloads_accepted h hclaim)

end Grounded

section Numbers
variable (tables : CharTables)

def isNumberChar (c : Char) : Bool := tables.isDecimal c || ".,".toList.contains c

/-- A number that is no part of a longer one. -/
def StandsWhole (text number : List Char) : Prop := ∃ before after, text = before ++ number ++ after ∧
  before.getLast?.any (isNumberChar tables) = false ∧ after.head?.any (isNumberChar tables) = false

/-- Every run of digits of the statement is a number of the evidence, whatever its unit. -/
def NumbersStand (statement evidence : String) : Prop := ∀ number : List Char, number ≠ [] →
  (∀ c ∈ number, tables.isDecimal c = true) → StandsWhole tables statement.toList number →
    StandsWhole tables evidence.toList number

end Numbers

section Inputs

def plainStr (value : Json) : String := Json.strOf (fun _ => "") value

def plainInts : Option Json → List Int
  | some (.arr items) => items.filterMap fun item => match item with
    | .int n => some n
    | _ => none
  | _ => []

/-- The reading of a draft that gives texts and integers where they are expected. -/
def plainModelValidate : Json → Option AtomicClaimDraft
  | .obj fields =>
    let text (key : String) : String := Json.orText plainStr (Json.lookup fields key)
    let indices := plainInts (Json.lookup fields "evidence_segment_indices")
    let named : List (String × Json) → String := fun subject => Json.orText plainStr (Json.lookup subject "subject_key")
    match Json.lookup fields "subject", Json.lookup fields "object" with
    | some (.obj subject), some (.obj object) =>
      if h : named subject ≠ "" ∧ text "verbatim_quote" ≠ "" ∧ text "normalized_statement" ≠ "" ∧
          text "predicate" ≠ "" ∧ indices ≠ [] then
        some {
          semanticSegmentId := text "semantic_segment_id"
          verbatimQuote := text "verbatim_quote"
          normalizedStatement := text "normalized_statement"
          subject := { subjectKey := named subject, identity := .inl h.1 }
          predicate := text "predicate"
          object := some { text := Json.orText plainStr (Json.lookup object "text"), value := Json.lookup object "value" }
          sentiment := text "sentiment"
          evidenceSegmentIndices := indices
          quoted := h.2.1
          stated := h.2.2.1
          predicated := h.2.2.2.1
          cited := h.2.2.2.2 }
      else none
    | _, _ => none
  | _ => none

def plainLoads (_ : String) : Except LoadError Json := .error .malformed

def plainClaimRuntime : ClaimRuntime :=
  { plainDraftRuntime with str := plainStr, loads := plainLoads, modelValidate := plainModelValidate }

def plainTranscript (text : String) : List TranscriptSegmentItem :=
  [{ segmentId := "row", segmentIndex := 0, startMs := 0, endMs := 1000, text := text }]

/-- An answer with one claim about the one row of a transcript, which is its quote. -/
def oneClaim (quote statement subject predicate value : String) : ClaimPayload := .value (.obj [("claims", .arr [.obj [
  ("semantic_segment_id", .str "semantic"), ("verbatim_quote", .str quote), ("normalized_statement", .str statement),
  ("subject", .obj [("subject_key", .str subject)]), ("predicate", .str predicate),
  ("object", .obj [("text", .str value), ("value", .str value)]), ("sentiment", .str "NEUTRAL"),
  ("evidence_segment_indices", .arr [.int 0]), ("extraction_confidence", .int 1)]])])

def validateOneClaim (quote statement subject predicate value : String) : Except String AtomicClaimValidationResult :=
  validatePayloads plainClaimRuntime (oneClaim quote statement subject predicate value) (plainTranscript quote)
    [plainSegment] "PASS"

/-- The statements that are accepted, each with the text that it is compared with. -/
def acceptedTexts (transcript : List TranscriptSegmentItem) (result : AtomicClaimValidationResult) :
    List (String × String) :=
  result.accepted.map fun claim => (claim.draft.normalizedStatement, alignmentText transcript claim.draft)

/-- A count without a unit of money or time is no hard fact, and is not compared: the statement has thirty shops where
the text has twenty. -/
theorem invented_count_accepted : ∃ result,
    validateOneClaim "公司有20家门店" "公司有30家门店" "公司" "有" "20" = .ok result ∧ ∃ claim ∈ result.accepted,
      ¬ NumbersStand plainTables claim.draft.normalizedStatement
        (alignmentText (plainTranscript "公司有20家门店") claim.draft) := by
  have htexts : (validateOneClaim "公司有20家门店" "公司有30家门店" "公司" "有" "20").map
      (acceptedTexts (plainTranscript "公司有20家门店")) = .ok [("公司有30家门店", "公司有20家门店")] := by
    decide +kernel
  obtain ⟨result, hresult, haccepted⟩ := map_eq_ok.mp htexts
  obtain ⟨claim, hclaim, hpair⟩ := List.map_eq_singleton_iff.mp haccepted
  refine ⟨result, hresult, claim, hclaim ▸ List.mem_singleton.mpr rfl, ?_⟩
  rw [(Prod.mk.inj hpair).1, (Prod.mk.inj hpair).2]
  intro hstand
  have hthirty : StandsWhole plainTables "公司有30家门店".toList "30".toList :=
    ⟨"公司有".toList, "家门店".toList, by decide, by decide, by decide⟩
  obtain ⟨before, after, htext, -, -⟩ := hstand "30".toList (by decide) (List.all_eq_true.mp (by decide)) hthirty
  have hin : "30".toList <:+: "公司有20家门店".toList := ⟨before, after, htext.symm⟩
  revert hin
  decide

theorem growth_grounded : ∃ result,
    validateOneClaim "600519营收增长10%" "600519营收增长10%" "600519" "营收增长" "10%" = .ok result ∧
      ∃ claim ∈ result.accepted,
        HardFactsGrounded plainClaimRuntime (plainTranscript "600519营收增长10%") claim.draft := by
  have htexts : (validateOneClaim "600519营收增长10%" "600519营收增长10%" "600519" "营收增长" "10%").map
      (acceptedTexts (plainTranscript "600519营收增长10%")) = .ok [("600519营收增长10%", "600519营收增长10%")] := by
    decide +kernel
  obtain ⟨result, hresult, haccepted⟩ := map_eq_ok.mp htexts
  obtain ⟨claim, hclaim, _⟩ := List.map_eq_singleton_iff.mp haccepted
  have hmem : claim ∈ result.accepted := hclaim ▸ List.mem_singleton.mpr rfl
  exact ⟨result, hresult, claim, hmem, accepted_hard_facts hresult claim hmem⟩

end Inputs

end StockContent.Knowledge
