import StockContent.Knowledge.ThesisHierarchy
import StockContent.Ledger.Projector

/-! The identifier reads theses from a model's answer, theses become drafts of claims, and a later check says which
coordinates such a draft may cite. -/
namespace StockContent.Knowledge
open Storage Text

structure Chapter where
  startMs : Int
  endMs : Int

section Indices

def least (values : List Int) : Int := values.min?.getD 0

def greatest (values : List Int) : Int := values.max?.getD 0

/-- Neither the arguments nor the conclusion start before what they follow. -/
def ordered (proposal argument conclusion : List Int) : Bool :=
  least proposal ≤ least argument && least argument ≤ least conclusion

def sameSet (xs ys : List Int) : Bool := xs.all ys.contains && ys.all xs.contains

end Indices

section Parse
variable (runtime : DraftRuntime)

def chapterContextPaddingMs : Int := 120000

def chapterSegments (chapter : Chapter) (transcript : List TranscriptSegmentItem) : List TranscriptSegmentItem :=
  let startMs := max 0 (chapter.startMs - chapterContextPaddingMs)
  let endMs := chapter.endMs + chapterContextPaddingMs
  transcript.filter fun item => startMs ≤ item.endMs && item.startMs ≤ endMs

/-- The rows a thesis may be read from: those of its chapter, or of the transcript where there are none. -/
def selectedRows (chapter : Option Chapter) (transcript : List TranscriptSegmentItem) : List TranscriptSegmentItem :=
  let selected := (chapter.map (chapterSegments · transcript)).getD []
  if selected = [] then transcript else selected

/-- One of the three index sets of an answer. -/
def indices (raw : List (String × Json)) (allowed : List Int) (name : String) : Except ValueError (List Int) := do
  let items ← iterate (((Json.lookup raw name).filter Ledger.truthy).getD (.arr []))
  let values ← items.mapM runtime.toInt
  require ⟨"invalid " ++ name⟩ (!values.isEmpty && values.all allowed.contains)
  return sortedIndices values

/-- The spans of a thesis in its transcript, with at least one segment of evidence. -/
structure RhetoricalScope where
  proposal : List Int
  argument : List Int
  conclusion : List Int
  evidence : List Int
  cited : evidence ≠ []

def rhetoricalScope (raw : List (String × Json)) (allowed : List Int) : Except ValueError RhetoricalScope := do
  let proposal ← indices runtime raw allowed "proposal_segment_indices"
  let argument ← indices runtime raw allowed "argument_segment_indices"
  let conclusion ← indices runtime raw allowed "conclusion_segment_indices"
  require ⟨"thesis rhetorical spans must be ordered"⟩ (ordered proposal argument conclusion)
  let evidence := between (least proposal) (greatest conclusion) (sortedIndices allowed)
  if cited : evidence ≠ [] then return ⟨proposal, argument, conclusion, evidence, cited⟩
  else throw ⟨"thesis evidence window is empty"⟩

def requiredKeys : List String :=
  ["knowledge_title", "atomic_statement", "subject_type", "subject_key", "subject_name", "predicate", "claim_type",
    "sentiment", "attribution", "detailed_explanation"]

def required (raw : List (String × Json)) (key : String) : String :=
  strip runtime.tables (Json.orText runtime.str (Json.lookup raw key))

def evidenceText (transcript : List TranscriptSegmentItem) (evidence : List Int) : String :=
  " ".intercalate ((transcript.filter fun item => evidence.contains item.segmentIndex).map fun item =>
    firstText [item.rawText, some item.text, item.normalizedText])

def isLocal (text other : String) : Bool := isIn (runtime.casefold text) (runtime.casefold other)

/-- The semantic segments that a span overlaps. -/
def overlapping (first last : Int) (segments : List SemanticSegment) : List SemanticSegment :=
  segments.filter fun item => first ≤ item.endSegmentIndex && item.startSegmentIndex ≤ last

def thesisIdentity (statement : String) (first last : Int) (semanticIds : List String) : Json := .obj [
  ("statement", .str statement), ("start_segment_index", .int first), ("end_segment_index", .int last),
  ("semantic_segment_ids", .arr (semanticIds.map .str))]

def parse (raw : Json) (transcript : List TranscriptSegmentItem) (segments : List SemanticSegment)
    (chapter : Option Chapter) (modelId : String) : Except ValueError ChapterThesis :=
  match raw with
  | .obj raw => do
    let scope ← rhetoricalScope runtime raw (segmentIndices (selectedRows chapter transcript))
    let first := least scope.proposal
    let last := greatest scope.conclusion
    require ⟨"chapter thesis fields are incomplete"⟩ (requiredKeys.all fun key => required runtime raw key ≠ "")
    let text := evidenceText transcript scope.evidence
    let statement := required runtime raw "atomic_statement"
    require ⟨"chapter thesis atomic_statement must be verbatim transcript text"⟩ (isLocal runtime statement text)
    (["subject_key", "subject_name", "predicate"].forM fun field =>
      require ⟨"chapter thesis " ++ field ++ " must be transcript-local"⟩ (isLocal runtime (required runtime raw field) text))
    let detail ← normalizeDetailText runtime.tables (required runtime raw "detailed_explanation")
    let semanticIds := (overlapping first last segments).map SemanticSegment.semanticSegmentId
    return {
      thesisId := "thesis_" ++ String.ofList ((runtime.digest (thesisIdentity statement first last semanticIds)).toList.take 56)
      knowledgeTitle := required runtime raw "knowledge_title"
      atomicStatement := statement
      subjectType := required runtime raw "subject_type"
      subjectKey := required runtime raw "subject_key"
      subjectName := required runtime raw "subject_name"
      predicate := required runtime raw "predicate"
      claimType := required runtime raw "claim_type"
      sentiment := required runtime raw "sentiment"
      attribution := required runtime raw "attribution"
      detailedExplanation := detail
      proposalSegmentIndices := scope.proposal
      argumentSegmentIndices := scope.argument
      conclusionSegmentIndices := scope.conclusion
      evidenceSegmentIndices := scope.evidence
      semanticSegmentIds := semanticIds
      modelId := modelId
      cited := scope.cited }
  | _ => .error ⟨"chapter thesis must be an object"⟩

end Parse

section Materialize

/-- A thesis as a claim of its own, bound to the first semantic segment it overlaps. -/
def materialize (thesis : ChapterThesis) : Except ValueError ClaimOccurrenceDraft :=
  match thesis.semanticSegmentIds with
  | [] => .error ⟨"chapter thesis must overlap a semantic segment"⟩
  | semanticId :: _ => .ok {
      semanticSegmentId := semanticId
      knowledgeKind := "THESIS"
      claimType := thesis.claimType
      subjectType := some thesis.subjectType
      subjectKey := thesis.subjectKey
      subjectName := some thesis.subjectName
      predicateKey := thesis.predicate
      conclusion := thesis.atomicStatement
      normalizedStatement := some thesis.atomicStatement
      verbatimQuote := some thesis.atomicStatement
      evidenceSegmentIndices := thesis.evidenceSegmentIndices
      sentiment := thesis.sentiment
      extractionConfidence := 1
      extractionModelId := if thesis.modelId = "" then "chapter-thesis-identifier" else thesis.modelId
      extractionPromptVersion := "chapter-thesis.v2"
      bundleV2 := [
        ("claim_nature", .str "CAUSAL_THESIS"),
        ("attribution", .obj [("attributed", .bool true), ("source_label", .str thesis.attribution)]),
        ("source_grade", .str "SOURCE_ASSERTION"),
        ("external_truth_status", .str "NOT_CHECKED"),
        ("detail", .obj [("explanation", .str thesis.detailedExplanation)]),
        ("knowledge_title", .str thesis.knowledgeTitle),
        ("knowledge_role", .str KnowledgeRole.thesis.value),
        ("hierarchy_node_id", .str thesis.thesisId),
        ("thesis_evidence_scope", thesis.scope)] }

def materializeThesisClaimDrafts (theses : List ChapterThesis) : Except ValueError (List ClaimOccurrenceDraft) :=
  theses.mapM materialize

end Materialize

section Permit
variable (runtime : DraftRuntime)

/-- Whatever goes wrong in reading a scope, the scope is malformed. -/
def malformed {A : Type} (read : Except ValueError A) : Except ValueError A :=
  read.mapError fun _ => ⟨"thesis evidence scope is malformed"⟩

def scopeIndex (scope : List (String × Json)) (name : String) : Except ValueError Int :=
  malformed ((Json.lookup scope name).elim (.error ⟨name⟩) runtime.toInt)

def scopeIndices (scope : List (String × Json)) (name : String) : Except ValueError (List Int) :=
  malformed ((Json.lookup scope name).elim (.error ⟨name⟩) fun value => iterate value >>= (·.mapM runtime.toInt))

/-- The coordinates a draft may cite: those of its semantic segment, or all of its scope if it is a thesis. -/
def permittedThesisEvidenceIndices (draft : ClaimOccurrenceDraft) (segment : SemanticSegment) (available : List Int) :
    Except ValueError (List Int) :=
  if Json.lookup draft.bundleV2 "knowledge_role" ≠ some (.str KnowledgeRole.thesis.value) then .ok (semanticRange segment)
  else
    match Json.lookup draft.bundleV2 "thesis_evidence_scope" with
    | some (.obj scope) => do
      let first ← scopeIndex runtime scope "start_segment_index"
      let last ← scopeIndex runtime scope "end_segment_index"
      let proposal ← scopeIndices runtime scope "proposal_segment_indices"
      let argument ← scopeIndices runtime scope "argument_segment_indices"
      let conclusion ← scopeIndices runtime scope "conclusion_segment_indices"
      require ⟨"thesis evidence scope is empty or inverted"⟩
        (first ≤ last && !proposal.isEmpty && !argument.isEmpty && !conclusion.isEmpty)
      require ⟨"thesis rhetorical spans are not ordered"⟩ (ordered proposal argument conclusion)
      let allowed := between first last available
      require ⟨"thesis evidence scope is outside transcript authority"⟩
        (allowed.min? = some first && allowed.max? = some last)
      require ⟨"thesis does not overlap its selected semantic segment"⟩ ((semanticRange segment).any allowed.contains)
      require ⟨"thesis rhetorical coordinate is outside its evidence scope"⟩
        ((proposal ++ argument ++ conclusion).all allowed.contains)
      require ⟨"thesis must cite its complete evidence scope"⟩ (sameSet draft.evidenceSegmentIndices allowed)
      return allowed
    | _ => .error ⟨"thesis evidence scope is required"⟩

end Permit

section Spans
variable {values allowed : List Int} {first last : Int}

theorem least_mem (h : values ≠ []) : least values ∈ values ∧ ∀ i ∈ values, least values ≤ i := by
  obtain ⟨low, hlow⟩ := Option.ne_none_iff_exists'.mp fun hnone => h (List.min?_eq_none_iff.mp hnone)
  rw [least, hlow]
  exact List.min?_eq_some_iff.mp hlow

theorem greatest_mem (h : values ≠ []) : greatest values ∈ values ∧ ∀ i ∈ values, i ≤ greatest values := by
  obtain ⟨high, hhigh⟩ := Option.ne_none_iff_exists'.mp fun hnone => h (List.max?_eq_none_iff.mp hnone)
  rw [greatest, hhigh]
  exact List.max?_eq_some_iff.mp hhigh

theorem sortedIndices_pairwise (values : List Int) : (sortedIndices values).Pairwise (· ≤ ·) :=
  List.pairwise_insertionSort _ _

theorem head_of_sorted (hsorted : values.Pairwise (· ≤ ·)) (hne : values ≠ []) (hmem : first ∈ values)
    (hleast : ∀ i ∈ values, first ≤ i) : values.head hne = first := by
  cases values with
  | nil => exact absurd rfl hne
  | cons i values =>
    refine le_antisymm ?_ (hleast i List.mem_cons_self)
    rcases List.mem_cons.mp hmem with rfl | hmem
    · exact le_rfl
    · exact (List.pairwise_cons.mp hsorted).1 first hmem

theorem getLast_of_sorted (hsorted : values.Pairwise (· ≤ ·)) (hne : values ≠ []) (hmem : last ∈ values)
    (hgreatest : ∀ i ∈ values, i ≤ last) : values.getLast hne = last := by
  refine le_antisymm (hgreatest _ (List.getLast_mem hne)) ?_
  rw [← List.dropLast_append_getLast hne] at hmem hsorted
  rcases List.mem_append.mp hmem with hbefore | hlast
  · exact (List.pairwise_append.mp hsorted).2.2 last hbefore _ (List.mem_singleton_self _)
  · exact le_of_eq (List.mem_singleton.mp hlast)

/-- Evidence that starts and ends in allowed rows has these as its first and its last index. -/
theorem between_ends (hne : between first last (sortedIndices allowed) ≠ []) (hfirst : first ∈ allowed)
    (hlast : last ∈ allowed) (hle : first ≤ last) :
    (between first last (sortedIndices allowed)).head hne = first ∧
      (between first last (sortedIndices allowed)).getLast hne = last := by
  have hsorted : (between first last (sortedIndices allowed)).Pairwise (· ≤ ·) :=
    (sortedIndices_pairwise allowed).sublist List.filter_sublist
  refine ⟨head_of_sorted hsorted hne ?_ ?_, getLast_of_sorted hsorted hne ?_ ?_⟩
  · simp [hfirst, hle]
  · exact fun i hi => (mem_between.mp hi).2.1
  · simp [hlast, hle]
  · exact fun i hi => (mem_between.mp hi).2.2

theorem min?_between (hfirst : first ∈ values) (hle : first ≤ last) : (between first last values).min? = some first :=
  List.min?_eq_some_iff.mpr ⟨mem_between.mpr ⟨hfirst, le_rfl, hle⟩, fun _ hi => (mem_between.mp hi).2.1⟩

theorem max?_between (hlast : last ∈ values) (hle : first ≤ last) : (between first last values).max? = some last :=
  List.max?_eq_some_iff.mpr ⟨mem_between.mpr ⟨hlast, hle, le_rfl⟩, fun _ hi => (mem_between.mp hi).2.2⟩

theorem sameSet_iff {xs ys : List Int} : sameSet xs ys = true ↔ ∀ i, i ∈ xs ↔ i ∈ ys := by
  simp only [sameSet, Bool.and_eq_true, List.all_eq_true, List.contains_iff_mem]
  exact ⟨fun h i => ⟨h.1 i, h.2 i⟩, fun h => ⟨fun i => (h i).mp, fun i => (h i).mpr⟩⟩

end Spans

section Accepted
variable {runtime : DraftRuntime} {raw : List (String × Json)} {allowed : List Int} {scope : RhetoricalScope}
  {transcript : List TranscriptSegmentItem} {segments : List SemanticSegment} {chapter : Option Chapter}
  {modelId : String} {thesis : ChapterThesis} {draft : ClaimOccurrenceDraft} {segment : SemanticSegment}

theorem indices_eq_ok {name : String} {values : List Int} (h : indices runtime raw allowed name = .ok values) :
    values ≠ [] ∧ ∀ i ∈ values, i ∈ allowed := by
  obtain ⟨items, -, h⟩ := bind_eq_ok.mp h
  obtain ⟨read, -, h⟩ := bind_eq_ok.mp h
  obtain ⟨hread, h⟩ := then_eq_ok.mp h
  obtain rfl := Except.ok.inj h
  obtain ⟨hne, hall⟩ := Bool.and_eq_true_iff.mp (require_eq_ok.mp hread)
  rw [Bool.not_eq_true', List.isEmpty_eq_false_iff] at hne
  refine ⟨fun hnil => ?_, fun i hi => ?_⟩
  · obtain ⟨i, hi⟩ := List.exists_mem_of_ne_nil _ hne
    rw [← mem_sortedIndices, hnil] at hi
    cases hi
  · exact List.contains_iff_mem.mp (List.all_eq_true.mp hall i (mem_sortedIndices.mp hi))

/-- What the identifier checks about the spans. -/
structure RhetoricalScope.Read (scope : RhetoricalScope) (allowed : List Int) : Prop where
  proposal_ne : scope.proposal ≠ []
  argument_ne : scope.argument ≠ []
  conclusion_ne : scope.conclusion ≠ []
  within : ∀ i ∈ scope.proposal ++ scope.argument ++ scope.conclusion, i ∈ allowed
  spans : ordered scope.proposal scope.argument scope.conclusion = true
  evidence_eq : scope.evidence = between (least scope.proposal) (greatest scope.conclusion) (sortedIndices allowed)

theorem rhetoricalScope_eq_ok (h : rhetoricalScope runtime raw allowed = .ok scope) : scope.Read allowed := by
  obtain ⟨proposal, hproposal, h⟩ := bind_eq_ok.mp h
  obtain ⟨argument, hargument, h⟩ := bind_eq_ok.mp h
  obtain ⟨conclusion, hconclusion, h⟩ := bind_eq_ok.mp h
  obtain ⟨hordered, h⟩ := then_eq_ok.mp h
  dsimp only at h
  split at h
  · obtain rfl := Except.ok.inj h
    obtain ⟨hp, hpall⟩ := indices_eq_ok hproposal
    obtain ⟨ha, haall⟩ := indices_eq_ok hargument
    obtain ⟨hc, hcall⟩ := indices_eq_ok hconclusion
    refine ⟨hp, ha, hc, ?_, require_eq_ok.mp hordered, rfl⟩
    intro i hi
    rcases List.mem_append.mp hi with hi | hi
    · exact (List.mem_append.mp hi).elim (hpall i) (haall i)
    · exact hcall i hi
  · cases h

namespace RhetoricalScope.Read
variable (hread : scope.Read allowed)
include hread

theorem starts_ordered :
    least scope.proposal ≤ least scope.argument ∧ least scope.argument ≤ least scope.conclusion := by
  have hspans := Bool.and_eq_true_iff.mp hread.spans
  exact ⟨of_decide_eq_true hspans.1, of_decide_eq_true hspans.2⟩

theorem first_mem : least scope.proposal ∈ allowed :=
  hread.within _ (List.mem_append_left _ (List.mem_append_left _ (least_mem hread.proposal_ne).1))

theorem last_mem : greatest scope.conclusion ∈ allowed :=
  hread.within _ (List.mem_append_right _ (greatest_mem hread.conclusion_ne).1)

theorem first_le {i : Int} (hi : i ∈ scope.proposal ++ scope.argument ++ scope.conclusion) : least scope.proposal ≤ i := by
  obtain ⟨hpa, hac⟩ := hread.starts_ordered
  rcases List.mem_append.mp hi with hi | hi
  · exact (List.mem_append.mp hi).elim ((least_mem hread.proposal_ne).2 i) fun hi =>
      hpa.trans ((least_mem hread.argument_ne).2 i hi)
  · exact (hpa.trans hac).trans ((least_mem hread.conclusion_ne).2 i hi)

theorem first_le_last : least scope.proposal ≤ greatest scope.conclusion :=
  hread.first_le (List.mem_append_right _ (greatest_mem hread.conclusion_ne).1)

end RhetoricalScope.Read

theorem selectedRows_subset {row : TranscriptSegmentItem} (h : row ∈ selectedRows chapter transcript) : row ∈ transcript := by
  rw [selectedRows] at h
  split at h
  · exact h
  · cases chapter with
    | none => cases h
    | some chapter => exact (List.mem_filter.mp h).1

theorem mem_segmentIndices_of_selected {i : Int} (h : i ∈ segmentIndices (selectedRows chapter transcript)) :
    i ∈ segmentIndices transcript := by
  obtain ⟨row, hrow, rfl⟩ := List.mem_map.mp h
  exact List.mem_map_of_mem (selectedRows_subset hrow)

/-- What a thesis keeps of the spans. -/
structure ChapterThesis.Keeps (thesis : ChapterThesis) (segments : List SemanticSegment) (scope : RhetoricalScope) :
    Prop where
  proposal : thesis.proposalSegmentIndices = scope.proposal
  argument : thesis.argumentSegmentIndices = scope.argument
  conclusion : thesis.conclusionSegmentIndices = scope.conclusion
  evidence : thesis.evidenceSegmentIndices = scope.evidence
  ids : thesis.semanticSegmentIds =
    (overlapping (least scope.proposal) (greatest scope.conclusion) segments).map SemanticSegment.semanticSegmentId

/-- The spans of an accepted answer, as its thesis keeps them. -/
theorem parse_eq_ok {answer : Json} (h : parse runtime answer transcript segments chapter modelId = .ok thesis) :
    ∃ raw scope, answer = .obj raw ∧
      rhetoricalScope runtime raw (segmentIndices (selectedRows chapter transcript)) = .ok scope ∧
      thesis.Keeps segments scope := by
  cases answer with
  | obj raw =>
    rw [parse] at h
    obtain ⟨scope, hscope, h⟩ := bind_eq_ok.mp h
    obtain ⟨-, h⟩ := then_eq_ok.mp h
    obtain ⟨-, h⟩ := then_eq_ok.mp h
    obtain ⟨-, h⟩ := then_eq_ok.mp h
    obtain ⟨detail, -, h⟩ := bind_eq_ok.mp h
    obtain rfl := Except.ok.inj h
    exact ⟨raw, scope, rfl, hscope, rfl, rfl, rfl, rfl, rfl⟩
  | null => cases h
  | bool b => cases h
  | int n => cases h
  | float q => cases h
  | str s => cases h
  | arr items => cases h

theorem materialize_eq_ok : materialize thesis = .ok draft → draft.evidenceSegmentIndices = thesis.evidenceSegmentIndices ∧
    thesis.semanticSegmentIds.head? = some draft.semanticSegmentId ∧
    Json.lookup draft.bundleV2 "knowledge_role" = some (.str KnowledgeRole.thesis.value) ∧
    Json.lookup draft.bundleV2 "thesis_evidence_scope" = some thesis.scope := by
  intro h
  rw [materialize] at h
  split at h
  · cases h
  · rename_i semanticId ids hids
    obtain rfl := Except.ok.inj h
    rw [hids]
    exact ⟨rfl, rfl, by simp [Json.lookup], by simp [Json.lookup]⟩

theorem materialize_isOk : (∃ draft, materialize thesis = .ok draft) ↔ thesis.semanticSegmentIds ≠ [] := by
  rw [materialize]
  split
  · rename_i hids
    simp [hids]
  · rename_i hids
    simp [hids]

theorem mapM_toInt (values : List Int) : (values.map Json.int).mapM runtime.toInt = .ok values := by
  induction values with
  | nil => rfl
  | cons i values ih =>
    rw [List.map_cons, List.mapM_cons, ih]
    rfl

theorem scopeIndices_indexList {fields : List (String × Json)} {name : String} {values : List Int}
    (h : Json.lookup fields name = some (ChapterThesis.indexList values)) :
    scopeIndices runtime fields name = .ok values := by
  rw [scopeIndices, h, Option.elim_some, ChapterThesis.indexList, iterate, ok_bind, mapM_toInt]
  rfl

/-- The check of a materialized thesis, on the spans that the thesis keeps. -/
theorem permitted_materialized (h : materialize thesis = .ok draft) (available : List Int) :
    (∃ permitted, permittedThesisEvidenceIndices runtime draft segment available = .ok permitted) ↔
      (thesis.startSegmentIndex ≤ thesis.endSegmentIndex ∧ thesis.proposalSegmentIndices ≠ [] ∧
        thesis.argumentSegmentIndices ≠ [] ∧ thesis.conclusionSegmentIndices ≠ []) ∧
      ordered thesis.proposalSegmentIndices thesis.argumentSegmentIndices thesis.conclusionSegmentIndices = true ∧
      ((between thesis.startSegmentIndex thesis.endSegmentIndex available).min? = some thesis.startSegmentIndex ∧
        (between thesis.startSegmentIndex thesis.endSegmentIndex available).max? = some thesis.endSegmentIndex) ∧
      (∃ i ∈ semanticRange segment, i ∈ between thesis.startSegmentIndex thesis.endSegmentIndex available) ∧
      (∀ i ∈ thesis.proposalSegmentIndices ++ thesis.argumentSegmentIndices ++ thesis.conclusionSegmentIndices,
        i ∈ between thesis.startSegmentIndex thesis.endSegmentIndex available) ∧
      ∀ i, i ∈ thesis.evidenceSegmentIndices ↔
        i ∈ between thesis.startSegmentIndex thesis.endSegmentIndex available := by
  obtain ⟨hevidence, -, hrole, hscope⟩ := materialize_eq_ok h
  have hfirst (fields : List (String × Json)) (name : String) (i : Int) (hlookup : Json.lookup fields name = some (.int i)) :
      scopeIndex runtime fields name = .ok i := by
    rw [scopeIndex, hlookup]
    rfl
  rw [permittedThesisEvidenceIndices, if_neg (not_not.mpr hrole), hscope, ChapterThesis.scope]
  dsimp only
  rw [hfirst _ _ thesis.startSegmentIndex (by simp [Json.lookup]), ok_bind,
    hfirst _ _ thesis.endSegmentIndex (by simp [Json.lookup]), ok_bind,
    @scopeIndices_indexList _ _ _ thesis.proposalSegmentIndices (by simp [Json.lookup]), ok_bind,
    @scopeIndices_indexList _ _ _ thesis.argumentSegmentIndices (by simp [Json.lookup]), ok_bind,
    @scopeIndices_indexList _ _ _ thesis.conclusionSegmentIndices (by simp [Json.lookup]), ok_bind]
  simp only [then_eq_ok, require_eq_ok, exists_and_left, Bool.and_eq_true, decide_eq_true_eq, Bool.not_eq_true',
    List.isEmpty_eq_false_iff, List.any_eq_true, List.all_eq_true, List.contains_iff_mem, hevidence, sameSet_iff]
  simp only [pure, Except.pure, Except.ok.injEq, exists_eq', and_true, and_assoc]

/-- Where the later check agrees with the reading: nothing is argued behind the conclusion, no row inside the span was
left out of the selection, and the semantic segment that the thesis is bound to has a row inside the span. -/
structure Covered (transcript : List TranscriptSegmentItem) (segments : List SemanticSegment) (chapter : Option Chapter)
    (scope : RhetoricalScope) : Prop where
  closes : ∀ i ∈ scope.proposal ++ scope.argument, i ≤ greatest scope.conclusion
  complete : ∀ i ∈ segmentIndices transcript, least scope.proposal ≤ i → i ≤ greatest scope.conclusion →
    i ∈ segmentIndices (selectedRows chapter transcript)
  bound : ∃ bound, (overlapping (least scope.proposal) (greatest scope.conclusion) segments).head? = some bound ∧
    ∀ segment ∈ segments, segment.semanticSegmentId = bound.semanticSegmentId → ∃ i ∈ segmentIndices transcript,
      (least scope.proposal ≤ i ∧ i ≤ greatest scope.conclusion) ∧
        segment.startSegmentIndex ≤ i ∧ i ≤ segment.endSegmentIndex

/-- What later stages do with a thesis: its claim is made, and the check accepts it against its semantic segment. -/
def Accepted (runtime : DraftRuntime) (transcript : List TranscriptSegmentItem) (segments : List SemanticSegment)
    (thesis : ChapterThesis) : Prop :=
  ∃ draft, materialize thesis = .ok draft ∧ ∀ segment ∈ segments, segment.semanticSegmentId = draft.semanticSegmentId →
    ∃ permitted, permittedThesisEvidenceIndices runtime draft segment (segmentIndices transcript) = .ok permitted

theorem thesis_ends {first last : Int} (hevidence : thesis.evidenceSegmentIndices = between first last (sortedIndices allowed))
    (hfirst : first ∈ allowed) (hlast : last ∈ allowed) (hle : first ≤ last) :
    thesis.startSegmentIndex = first ∧ thesis.endSegmentIndex = last := by
  have hne := thesis.cited
  rw [hevidence] at hne
  obtain ⟨hhead, htail⟩ := between_ends hne hfirst hlast hle
  simp only [ChapterThesis.startSegmentIndex, ChapterThesis.endSegmentIndex, hevidence]
  exact ⟨hhead, htail⟩

section Kept
variable (hkeeps : thesis.Keeps segments scope) (hread : scope.Read (segmentIndices (selectedRows chapter transcript)))
  (hdraft : materialize thesis = .ok draft)
include hkeeps hdraft

/-- The segment that a claim of the thesis is bound to. -/
theorem bound_of_kept : ∃ bound ∈ segments,
    (overlapping (least scope.proposal) (greatest scope.conclusion) segments).head? = some bound ∧
      bound.semanticSegmentId = draft.semanticSegmentId := by
  have hhead := (materialize_eq_ok hdraft).2.1
  rw [hkeeps.ids, List.head?_map] at hhead
  obtain ⟨bound, hbound, hid⟩ := Option.map_eq_some_iff.mp hhead
  exact ⟨bound, (List.mem_filter.mp (List.mem_of_head? hbound)).1, hbound, hid⟩

include hread

/-- What is left of the check once the spans have been read. -/
theorem permitted_kept :
    (∃ permitted, permittedThesisEvidenceIndices runtime draft segment (segmentIndices transcript) = .ok permitted) ↔
      (∃ i ∈ segmentIndices transcript, (least scope.proposal ≤ i ∧ i ≤ greatest scope.conclusion) ∧
        segment.startSegmentIndex ≤ i ∧ i ≤ segment.endSegmentIndex) ∧
      (∀ i ∈ scope.proposal ++ scope.argument, i ≤ greatest scope.conclusion) ∧
      ∀ i ∈ segmentIndices transcript, least scope.proposal ≤ i → i ≤ greatest scope.conclusion →
        i ∈ segmentIndices (selectedRows chapter transcript) := by
  have hle := hread.first_le_last
  obtain ⟨hstart, hend⟩ := thesis_ends (hkeeps.evidence.trans hread.evidence_eq) hread.first_mem hread.last_mem hle
  rw [permitted_materialized hdraft, hstart, hend, hkeeps.proposal, hkeeps.argument, hkeeps.conclusion, hkeeps.evidence,
    hread.evidence_eq, min?_between (mem_segmentIndices_of_selected hread.first_mem) hle,
    max?_between (mem_segmentIndices_of_selected hread.last_mem) hle]
  simp only [hle, hread.proposal_ne, hread.argument_ne, hread.conclusion_ne, hread.spans, ne_eq, not_false_eq_true,
    and_self, true_and, mem_between, mem_semanticRange, mem_sortedIndices]
  refine and_congr ?_ (and_congr ?_ ?_)
  · constructor
    · rintro ⟨i, hrange, hi, hspan⟩
      exact ⟨i, hi, hspan, hrange⟩
    · rintro ⟨i, hi, hspan, hrange⟩
      exact ⟨i, hrange, hi, hspan⟩
  · constructor
    · intro hall i hi
      exact (hall i (List.mem_append_left _ hi)).2.2
    · intro hcloses i hi
      refine ⟨mem_segmentIndices_of_selected (hread.within i hi), hread.first_le hi, ?_⟩
      exact (List.mem_append.mp hi).elim (hcloses i) ((greatest_mem hread.conclusion_ne).2 i)
  · constructor
    · intro hsame i hi hi₁ hi₂
      exact ((hsame i).mpr ⟨hi, hi₁, hi₂⟩).1
    · intro hcomplete i
      constructor
      · rintro ⟨hi, hspan⟩
        exact ⟨mem_segmentIndices_of_selected hi, hspan⟩
      · rintro ⟨hi, hspan⟩
        exact ⟨hcomplete i hi hspan.1 hspan.2, hspan⟩

end Kept

/-- A thesis is accepted later on exactly if its spans are covered. -/
theorem accepted_iff {answer : Json} (h : parse runtime answer transcript segments chapter modelId = .ok thesis) :
    ∃ raw scope, answer = .obj raw ∧
      rhetoricalScope runtime raw (segmentIndices (selectedRows chapter transcript)) = .ok scope ∧
      (Accepted runtime transcript segments thesis ↔ Covered transcript segments chapter scope) := by
  obtain ⟨raw, scope, rfl, hscope, hkeeps⟩ := parse_eq_ok h
  have hread := rhetoricalScope_eq_ok hscope
  refine ⟨raw, scope, rfl, hscope, ?_⟩
  constructor
  · rintro ⟨draft, hdraft, haccepted⟩
    obtain ⟨bound, hmem, hhead, hid⟩ := bound_of_kept hkeeps hdraft
    obtain ⟨-, hcloses, hcomplete⟩ := (permitted_kept hkeeps hread hdraft).mp (haccepted bound hmem hid)
    refine ⟨hcloses, hcomplete, bound, hhead, fun segment hsegment hsame => ?_⟩
    exact ((permitted_kept hkeeps hread hdraft).mp (haccepted segment hsegment (hsame.trans hid))).1
  · rintro ⟨hcloses, hcomplete, bound, hhead, hmeets⟩
    have hids_ne : thesis.semanticSegmentIds ≠ [] := by
      rw [hkeeps.ids]
      intro hnil
      rw [List.map_eq_nil_iff.mp hnil] at hhead
      cases hhead
    obtain ⟨draft, hdraft⟩ := materialize_isOk.mpr hids_ne
    obtain ⟨bound', -, hhead', hid⟩ := bound_of_kept hkeeps hdraft
    obtain rfl := Option.some.inj (hhead.symm.trans hhead')
    exact ⟨draft, hdraft, fun segment hsegment hsame =>
      (permitted_kept hkeeps hread hdraft).mpr ⟨hmeets segment hsegment (hsame.trans hid.symm), hcloses, hcomplete⟩⟩

/-- The spans that an answer about a chapter states are covered. -/
def AnswerCovered (runtime : DraftRuntime) (transcript : List TranscriptSegmentItem) (segments : List SemanticSegment)
    (item : Json × Option Chapter) : Prop :=
  ∀ raw scope, item.1 = .obj raw →
    rhetoricalScope runtime raw (segmentIndices (selectedRows item.2 transcript)) = .ok scope →
      Covered transcript segments item.2 scope

theorem accepted_iff_covered {item : Json × Option Chapter}
    (h : parse runtime item.1 transcript segments item.2 modelId = .ok thesis) :
    Accepted runtime transcript segments thesis ↔ AnswerCovered runtime transcript segments item := by
  obtain ⟨raw, scope, hraw, hscope, hiff⟩ := accepted_iff h
  rw [hiff, AnswerCovered]
  constructor
  · intro hcovered raw' scope' hraw' hscope'
    obtain rfl := Json.obj.inj (hraw.symm.trans hraw')
    obtain rfl := Except.ok.inj (hscope.symm.trans hscope')
    exact hcovered
  · exact fun hcovered => hcovered raw scope hraw hscope

theorem materializeAll_iff {theses : List ChapterThesis} :
    (∃ drafts, materializeThesisClaimDrafts theses = .ok drafts ∧ ∀ draft ∈ drafts, ∀ segment ∈ segments,
      segment.semanticSegmentId = draft.semanticSegmentId →
        ∃ permitted, permittedThesisEvidenceIndices runtime draft segment (segmentIndices transcript) = .ok permitted) ↔
      ∀ thesis ∈ theses, Accepted runtime transcript segments thesis := by
  induction theses with
  | nil => exact iff_of_true ⟨[], rfl, nofun⟩ nofun
  | cons thesis theses ih =>
    rw [List.forall_mem_cons, ← ih]
    constructor
    · rintro ⟨drafts, hdrafts, hall⟩
      rw [materializeThesisClaimDrafts, mapM_eq_ok_iff] at hdrafts
      cases hdrafts with
      | cons hdraft hdrafts =>
        obtain ⟨hfirst, hrest⟩ := List.forall_mem_cons.mp hall
        exact ⟨⟨_, hdraft, hfirst⟩, _, mapM_eq_ok_iff.mpr hdrafts, hrest⟩
    · rintro ⟨⟨draft, hdraft, hfirst⟩, drafts, hdrafts, hrest⟩
      rw [materializeThesisClaimDrafts, mapM_eq_ok_iff] at hdrafts
      exact ⟨draft :: drafts, mapM_eq_ok_iff.mpr (.cons hdraft hdrafts), List.forall_mem_cons.mpr ⟨hfirst, hrest⟩⟩

/-- No accepted thesis fails later in a run, exactly if the spans of every answer are covered. -/
theorem theses_accepted_iff {items : List (Json × Option Chapter)} {theses : List ChapterThesis}
    (h : items.mapM (fun item => parse runtime item.1 transcript segments item.2 modelId) = .ok theses) :
    (∃ drafts, materializeThesisClaimDrafts theses = .ok drafts ∧ ∀ draft ∈ drafts, ∀ segment ∈ segments,
      segment.semanticSegmentId = draft.semanticSegmentId →
        ∃ permitted, permittedThesisEvidenceIndices runtime draft segment (segmentIndices transcript) = .ok permitted) ↔
      ∀ item ∈ items, AnswerCovered runtime transcript segments item := by
  rw [materializeAll_iff]
  have hparsed := mapM_eq_ok_iff.mp h
  clear h
  induction hparsed with
  | nil => exact iff_of_true nofun nofun
  | cons hparse _ ih =>
    rw [List.forall_mem_cons, List.forall_mem_cons]
    exact and_congr (accepted_iff_covered hparse) ih

end Accepted

section Answer

def plainRow (segmentIndex : Int) : TranscriptSegmentItem where
  segmentId := "row"
  segmentIndex := segmentIndex
  startMs := 1000 * segmentIndex
  endMs := 1000 * segmentIndex + 1000
  text := "需求增长"

/-- An answer that proposes at 1, argues at the given segments and concludes at 3. -/
def plainAnswer (argument : List Int) : Json := .obj [
  ("knowledge_title", .str "需求增长"), ("atomic_statement", .str "需求增长"), ("subject_type", .str "THEME"),
  ("subject_key", .str "需求"), ("subject_name", .str "需求"), ("predicate", .str "增长"),
  ("claim_type", .str "INFERENCE"), ("sentiment", .str "BULLISH"), ("attribution", .str "讲者"),
  ("detailed_explanation", .str "价格上涨"), ("proposal_segment_indices", .arr [.int 1]),
  ("argument_segment_indices", ChapterThesis.indexList argument), ("conclusion_segment_indices", .arr [.int 3])]

def plainSegment : SemanticSegment where
  semanticSegmentId := "semantic"
  startSegmentIndex := 0
  endSegmentIndex := 9
  startMs := 0
  endMs := 10000

def plainRows : List TranscriptSegmentItem := (List.range 10).map fun i : Nat => plainRow i

def plainItem (argument : List Int) : Json × Option Chapter := (plainAnswer argument, none)

def plainScope (argument : List Int) : RhetoricalScope where
  proposal := [1]
  argument := argument
  conclusion := [3]
  evidence := [1, 2, 3]
  cited := List.cons_ne_nil _ _

theorem plainScope_covered : Covered plainRows [plainSegment] none (plainScope [2, 3]) where
  closes := by decide
  complete := by decide
  bound := ⟨plainSegment, by decide, by decide⟩

theorem plainItem_read : ∃ theses, [plainItem [2, 3]].mapM
    (fun item => parse plainDraftRuntime item.1 plainRows [plainSegment] item.2 "") = .ok theses :=
  toBool_eq_true.mp (by with_unfolding_all decide)

theorem plainItem_covered : AnswerCovered plainDraftRuntime plainRows [plainSegment] (plainItem [2, 3]) := by
  intro raw scope hraw hscope
  have hread : rhetoricalScope plainDraftRuntime raw (segmentIndices (selectedRows none plainRows)) =
      .ok (plainScope [2, 3]) := by
    obtain rfl := Json.obj.inj hraw
    rfl
  obtain rfl := Except.ok.inj (hread.symm.trans hscope)
  exact plainScope_covered

/-- Where the argument ends with the conclusion, the thesis is accepted. -/
theorem plainItem_accepted : ∃ theses drafts, materializeThesisClaimDrafts theses = .ok drafts ∧
    ∀ draft ∈ drafts, ∀ segment ∈ [plainSegment], segment.semanticSegmentId = draft.semanticSegmentId →
      ∃ permitted, permittedThesisEvidenceIndices plainDraftRuntime draft segment (segmentIndices plainRows) =
        .ok permitted := by
  obtain ⟨theses, htheses⟩ := plainItem_read
  obtain ⟨drafts, hdrafts⟩ := (theses_accepted_iff htheses).mpr fun item hitem => by
    rw [List.mem_singleton.mp hitem]
    exact plainItem_covered
  exact ⟨theses, drafts, hdrafts⟩

/-- An argument behind the conclusion is read, and later refused. -/
theorem late_argument_refused :
    (do
      let thesis ← parse plainDraftRuntime (plainAnswer [2, 9]) plainRows [plainSegment] none ""
      let draft ← materialize thesis
      return draft.semanticSegmentId) = .ok plainSegment.semanticSegmentId ∧
    (do
      let thesis ← parse plainDraftRuntime (plainAnswer [2, 9]) plainRows [plainSegment] none ""
      let draft ← materialize thesis
      permittedThesisEvidenceIndices plainDraftRuntime draft plainSegment (segmentIndices plainRows)) =
        .error ⟨"thesis rhetorical coordinate is outside its evidence scope"⟩ := by
  with_unfolding_all decide

end Answer
end StockContent.Knowledge
