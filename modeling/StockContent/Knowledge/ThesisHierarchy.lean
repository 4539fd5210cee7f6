import StockContent.Knowledge.SourceFraming
import StockContent.Storage.ByKey

/-! Chapter theses, and the parent that an atomic draft gets among them. -/
namespace StockContent.Knowledge
open Storage Text

inductive KnowledgeRole where
  | thesis
  | mechanism
  | evidence
  | implication
  deriving DecidableEq

def KnowledgeRole.value : KnowledgeRole → String
  | .thesis => "THESIS"
  | .mechanism => "MECHANISM"
  | .evidence => "EVIDENCE"
  | .implication => "IMPLICATION"

/-- A thesis cites at least one segment. -/
structure ChapterThesis where
  thesisId : String
  knowledgeTitle : String
  atomicStatement : String
  subjectType : String
  subjectKey : String
  subjectName : String
  predicate : String
  claimType : String
  sentiment : String
  attribution : String
  detailedExplanation : String
  proposalSegmentIndices : List Int
  argumentSegmentIndices : List Int
  conclusionSegmentIndices : List Int
  evidenceSegmentIndices : List Int
  semanticSegmentIds : List String
  knowledgeRole : String := KnowledgeRole.thesis.value
  modelId : String := ""
  cited : evidenceSegmentIndices ≠ []
  deriving DecidableEq

namespace ChapterThesis
variable (thesis : ChapterThesis)

def startSegmentIndex : Int := thesis.evidenceSegmentIndices.head thesis.cited

def endSegmentIndex : Int := thesis.evidenceSegmentIndices.getLast thesis.cited

def size : Int := thesis.endSegmentIndex - thesis.startSegmentIndex

def indexList (indices : List Int) : Json := .arr (indices.map .int)

/-- The complete chapter scope. -/
def scope : Json := .obj [
  ("start_segment_index", .int thesis.startSegmentIndex),
  ("end_segment_index", .int thesis.endSegmentIndex),
  ("proposal_segment_indices", indexList thesis.proposalSegmentIndices),
  ("argument_segment_indices", indexList thesis.argumentSegmentIndices),
  ("conclusion_segment_indices", indexList thesis.conclusionSegmentIndices)]

end ChapterThesis

section Role
variable (tables : CharTables) (str : Json → String)

def anyIn (tokens : List String) (text : String) : Bool := tokens.any (isIn · text)

def roleForClaim (draft : ClaimOccurrenceDraft) : KnowledgeRole :=
  let explicit := upper tables (Json.orText str (Json.lookup draft.bundleV2 "knowledge_role"))
  let nature := upper tables
    (firstText [some (Json.orText str (Json.lookup draft.bundleV2 "claim_nature")), some draft.claimType])
  let statement := draft.statement
  if explicit = "MECHANISM" then .mechanism
  else if explicit = "EVIDENCE" then .evidence
  else if explicit = "IMPLICATION" then .implication
  else if anyIn ["CAUSAL", "MECHANISM", "WORKFLOW"] nature ||
      anyIn ["因为", "因此", "所以", "依赖", "关键条件", "卡住", "瓶颈", "约束"] statement then .mechanism
  else if isIn "FORECAST" nature then
    if statement.toList.any tables.isDecimal || anyIn ["价格", "涨幅", "预测值", "图表"] statement then .evidence
    else .implication
  else if anyIn ["意味着", "有望", "可能", "受益", "反弹", "业绩"] statement then .implication
  else .evidence

/-- The evidence of a draft lies in the range of a thesis. -/
def contained (draft : ClaimOccurrenceDraft) (thesis : ChapterThesis) : Bool :=
  match draft.evidenceSegmentIndices.min?, draft.evidenceSegmentIndices.max? with
  | some first, some last => thesis.startSegmentIndex ≤ first && last ≤ thesis.endSegmentIndex
  | _, _ => false

/-- A statement of evidence or an implication may follow a thesis by up to eight segments. -/
def adjacentAfter (draft : ClaimOccurrenceDraft) (thesis : ChapterThesis) : Bool :=
  match draft.evidenceSegmentIndices.min? with
  | some first =>
    (roleForClaim tables str draft = .evidence || roleForClaim tables str draft = .implication) &&
      0 < first - thesis.endSegmentIndex && first - thesis.endSegmentIndex ≤ 8
  | none => false

def parentOf (theses : List ChapterThesis) (draft : ClaimOccurrenceDraft) : Option ChapterThesis :=
  -- The order is named because another one on the integers is not computable.
  @List.argmin ChapterThesis Int Int.instLinearOrder.toPreorder _ ChapterThesis.size
    (theses.filter fun thesis => contained draft thesis || adjacentAfter tables str draft thesis)

def attachTo (parent : ChapterThesis) (draft : ClaimOccurrenceDraft) : ClaimOccurrenceDraft :=
  let bundle := Json.put draft.bundleV2 "knowledge_role" (.str (roleForClaim tables str draft).value)
  let bundle := Json.put bundle "parent_knowledge_id" (.str parent.thesisId)
  let bundle := Json.put bundle "parent_knowledge_title" (.str parent.knowledgeTitle)
  { draft with bundleV2 := Json.put bundle "thesis_evidence_scope" parent.scope }

def attachThesisHierarchy (drafts : List ClaimOccurrenceDraft) (theses : List ChapterThesis) :
    List ClaimOccurrenceDraft :=
  drafts.map fun draft => (parentOf tables str theses draft).elim draft (attachTo tables str · draft)

variable {tables str} {drafts : List ClaimOccurrenceDraft} {theses : List ChapterThesis} {draft : ClaimOccurrenceDraft}
  {thesis parent : ChapterThesis}

theorem contained_iff : contained draft thesis = true ↔ draft.evidenceSegmentIndices ≠ [] ∧
    ∀ index ∈ draft.evidenceSegmentIndices, thesis.startSegmentIndex ≤ index ∧ index ≤ thesis.endSegmentIndex := by
  rw [contained]
  cases hfirst : draft.evidenceSegmentIndices.min? with
  | none => simp [List.min?_eq_none_iff.mp hfirst]
  | some first =>
    obtain ⟨hmem, hleast⟩ := List.min?_eq_some_iff.mp hfirst
    have hne := List.ne_nil_of_mem hmem
    cases hlast : draft.evidenceSegmentIndices.max? with
    | none => exact absurd (List.max?_eq_none_iff.mp hlast) hne
    | some last =>
      obtain ⟨hlastmem, hgreatest⟩ := List.max?_eq_some_iff.mp hlast
      rw [Bool.and_eq_true_iff, decide_eq_true_iff, decide_eq_true_iff]
      constructor
      · rintro ⟨hstart, hend⟩
        exact ⟨hne, fun index hindex => ⟨hstart.trans (hleast index hindex), (hgreatest index hindex).trans hend⟩⟩
      · rintro ⟨-, hall⟩
        exact ⟨(hall first hmem).1, (hall last hlastmem).2⟩

/-- Which thesis a draft is attached to can be read from its scope, as far as its range goes. -/
theorem scope_of_attachTo (h : attachTo tables str parent draft = attachTo tables str thesis draft) :
    parent.startSegmentIndex = thesis.startSegmentIndex ∧ parent.endSegmentIndex = thesis.endSegmentIndex := by
  have hbundle := congrArg (fun draft => Json.lookup draft.bundleV2 "thesis_evidence_scope") h
  simp only [attachTo, Json.lookup_put, if_true, Option.some.injEq, ChapterThesis.scope, Json.obj.injEq] at hbundle
  obtain ⟨hstart, hrest⟩ := List.cons.inj hbundle
  obtain ⟨hend, -⟩ := List.cons.inj hrest
  exact ⟨Json.int.inj (Prod.mk.inj hstart).2, Json.int.inj (Prod.mk.inj hend).2⟩

theorem contained_congr (hstart : parent.startSegmentIndex = thesis.startSegmentIndex)
    (hend : parent.endSegmentIndex = thesis.endSegmentIndex) : contained draft parent = contained draft thesis := by
  rw [contained, contained, hstart, hend]

/-- A containing thesis is a candidate, so that the draft is attached to some thesis. -/
theorem parentOf_isSome (hmem : thesis ∈ theses) (h : contained draft thesis = true) :
    ∃ parent, parentOf tables str theses draft = some parent := by
  refine Option.ne_none_iff_exists'.mp fun hnone => ?_
  have hcandidate : (contained draft thesis || adjacentAfter tables str draft thesis) = true := by rw [h, Bool.true_or]
  refine List.ne_nil_of_mem (a := thesis) ?_ (List.argmin_eq_none.mp hnone)
  exact List.mem_filter.mpr ⟨hmem, hcandidate⟩

theorem parentOf_mem (h : parentOf tables str theses draft = some parent) : parent ∈ theses :=
  (List.mem_filter.mp (List.argmin_mem h)).1

/-- The draft is attached to a containing thesis exactly if its parent contains it. -/
theorem attached_iff (h : parentOf tables str theses draft = some parent) :
    (∃ thesis ∈ theses, contained draft thesis = true ∧
      (parentOf tables str theses draft).elim draft (attachTo tables str · draft) = attachTo tables str thesis draft) ↔
      contained draft parent = true := by
  rw [h, Option.elim_some]
  constructor
  · rintro ⟨thesis, -, hcontained, hsame⟩
    obtain ⟨hstart, hend⟩ := scope_of_attachTo hsame
    rw [contained_congr hstart hend]
    exact hcontained
  · intro hcontained
    exact ⟨parent, parentOf_mem h, hcontained, rfl⟩

/-- A thesis that comes before the evidence does not contain it. -/
theorem not_contained_of_adjacent (h : adjacentAfter tables str draft thesis = true) : contained draft thesis = false := by
  rw [Bool.eq_false_iff]
  intro hcontained
  obtain ⟨-, hall⟩ := contained_iff.mp hcontained
  rw [adjacentAfter] at h
  cases hfirst : draft.evidenceSegmentIndices.min? with
  | none => simp [hfirst] at h
  | some first =>
    simp only [hfirst, Bool.and_eq_true, decide_eq_true_eq] at h
    have hwithin := (hall first (List.min?_eq_some_iff.mp hfirst).1).2
    omega

/-- Every adjacent thesis gives way to a containing one: an earlier one that is not longer, or a later one that is shorter. -/
def GivesWay (tables : CharTables) (str : Json → String) (theses : List ChapterThesis) (draft : ClaimOccurrenceDraft) : Prop :=
  ∀ before thesis rest, theses = before ++ thesis :: rest → adjacentAfter tables str draft thesis = true →
    (∃ other ∈ before, contained draft other = true ∧ other.size ≤ thesis.size) ∨
      ∃ other ∈ rest, contained draft other = true ∧ other.size < thesis.size

theorem parentOf_contains_iff (h : ∃ thesis ∈ theses, contained draft thesis = true) :
    (∃ parent, parentOf tables str theses draft = some parent ∧ contained draft parent = true) ↔
      GivesWay tables str theses draft := by
  have hgood : ∀ thesis, contained draft thesis = true →
      (contained draft thesis || adjacentAfter tables str draft thesis) = true := by
    intro thesis hthesis
    rw [hthesis, Bool.true_or]
  rw [parentOf, argmin_filter_good_iff hgood h, GivesWay]
  constructor
  · intro hcondition before thesis rest hsplit hadjacent
    exact hcondition before thesis rest hsplit (by rw [hadjacent, Bool.or_true]) (not_contained_of_adjacent hadjacent)
  · intro hcondition before thesis rest hsplit hcandidate hnot
    rw [hnot, Bool.false_or] at hcandidate
    exact hcondition before thesis rest hsplit hcandidate

/-- Every draft that some thesis contains is attached to such a thesis, exactly if the adjacent theses give way. -/
theorem attaches_containing_iff (tables : CharTables) (str : Json → String) (drafts : List ClaimOccurrenceDraft)
    (theses : List ChapterThesis) :
    (∀ (i : Nat) draft, drafts[i]? = some draft → (∃ thesis ∈ theses, contained draft thesis = true) →
      ∃ thesis ∈ theses, contained draft thesis = true ∧
        (attachThesisHierarchy tables str drafts theses)[i]? = some (attachTo tables str thesis draft)) ↔
      ∀ draft ∈ drafts, (∃ thesis ∈ theses, contained draft thesis = true) → GivesWay tables str theses draft := by
  have hdraft {i : Nat} {draft : ClaimOccurrenceDraft} (hi : drafts[i]? = some draft)
      (h : ∃ thesis ∈ theses, contained draft thesis = true) :
      (∃ thesis ∈ theses, contained draft thesis = true ∧
        (attachThesisHierarchy tables str drafts theses)[i]? = some (attachTo tables str thesis draft)) ↔
        GivesWay tables str theses draft := by
    obtain ⟨thesis, hmem, hcontained⟩ := h
    obtain ⟨parent, hparent⟩ := @parentOf_isSome tables str _ _ _ hmem hcontained
    rw [← parentOf_contains_iff ⟨thesis, hmem, hcontained⟩, attachThesisHierarchy, List.getElem?_map, hi, Option.map_some]
    simp only [Option.some.injEq]
    rw [attached_iff hparent, hparent]
    simp
  constructor
  · intro h draft hmem hcontained
    obtain ⟨i, hi⟩ := List.mem_iff_getElem?.mp hmem
    exact (hdraft hi hcontained).mp (h i draft hi hcontained)
  · intro h i draft hi hcontained
    exact (hdraft hi hcontained).mpr (h draft (List.mem_of_getElem? hi) hcontained)

/-- A thesis about the segments `first` to `last`. -/
def plainThesis (thesisId : String) (first last : Int) : ChapterThesis where
  thesisId := thesisId
  knowledgeTitle := "存储景气"
  atomicStatement := "需求增长"
  subjectType := "THEME"
  subjectKey := "存储"
  subjectName := "存储"
  predicate := "增长"
  claimType := "INFERENCE"
  sentiment := "BULLISH"
  attribution := "讲者"
  detailedExplanation := "需求增长"
  proposalSegmentIndices := [first]
  argumentSegmentIndices := [first]
  conclusionSegmentIndices := [last]
  evidenceSegmentIndices := [first, last]
  semanticSegmentIds := ["semantic"]
  cited := List.cons_ne_nil _ _

def plainDraft : ClaimOccurrenceDraft where
  semanticSegmentId := "semantic"
  knowledgeKind := "CLAIM"
  claimType := "OPINION"
  evidenceSegmentIndices := [8]
  normalizedStatement := some "公司增资"

/-- A short thesis that ends two segments earlier is preferred to the one that contains the draft. -/
theorem adjacent_thesis_wins :
    contained plainDraft (plainThesis "chapter" 0 20) = true ∧
      ∀ thesis ∈ [plainThesis "chapter" 0 20, plainThesis "aside" 5 6], contained plainDraft thesis = true →
        (attachThesisHierarchy plainTables (fun _ => "") [plainDraft]
          [plainThesis "chapter" 0 20, plainThesis "aside" 5 6])[0]? ≠
            some (attachTo plainTables (fun _ => "") thesis plainDraft) := by
  decide

end Role
end StockContent.Knowledge
