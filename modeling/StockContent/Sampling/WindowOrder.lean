import StockContent.Sampling.WindowBounds

/-! When the order of the segments or of the drafts does not matter to their windows. -/
namespace StockContent.Sampling
open Storage Text Knowledge

section Segments
variable {planner : EvidenceWindowPlanner} {tables : CharTables} {rows : List TranscriptSegmentItem}
  {mediaDurationMs : Option Int} {segments segments' : List SemanticSegment}

theorem segmentKey_inj {item item' : SemanticSegment} (h : segmentKey item = segmentKey item') : item = item' := by
  cases item
  cases item'
  simp only [segmentKey, toLex_inj, Prod.mk.injEq] at h
  obtain ⟨rfl, rfl, rfl, rfl, rfl⟩ := h
  rfl

/-- Segments are sorted before identities are compared. -/
theorem plan_perm (h : segments'.Perm segments) :
    plan planner tables rows mediaDurationMs segments' = plan planner tables rows mediaDurationMs segments := by
  rw [plan, plan, sortedBy_eq_of_perm h fun _ _ _ _ => segmentKey_inj]

end Segments

section Drafts
variable {planner : EvidenceWindowPlanner} {runtime : DraftRuntime} {rows : List TranscriptSegmentItem}
  {mediaDurationMs : Option Int} {drafts drafts' : List ClaimOccurrenceDraft} {draft other : ClaimOccurrenceDraft}
  {duration : Int}

/-- The hash tells the identities of the drafts of a list apart. -/
def IdentitiesDistinct (runtime : DraftRuntime) (rows : List TranscriptSegmentItem) (drafts : List ClaimOccurrenceDraft) : Prop :=
  ∀ draft ∈ drafts, ∀ other ∈ drafts, knowledgeIdentity runtime rows draft = knowledgeIdentity runtime rows other →
    identityPayload runtime rows draft = identityPayload runtime rows other

/-- The phases of a thesis cannot be read. -/
def Refused (runtime : DraftRuntime) (rows : List TranscriptSegmentItem) (draft : ClaimOccurrenceDraft) : Prop :=
  plannable runtime rows draft = true ∧ ¬∃ anchors, phaseAnchors runtime rows draft = .ok anchors

/-- Both are theses with the same moments for their phases, or none of them is a thesis. -/
def Alike (runtime : DraftRuntime) (rows : List TranscriptSegmentItem) (draft other : ClaimOccurrenceDraft) : Prop :=
  isThesis runtime draft = isThesis runtime other ∧ phaseAnchors runtime rows draft = phaseAnchors runtime rows other

theorem windowFor_eq_iff (hpayload : identityPayload runtime rows draft = identityPayload runtime rows other)
    (hdraft : ∃ anchors, phaseAnchors runtime rows draft = .ok anchors)
    (hother : ∃ anchors, phaseAnchors runtime rows other = .ok anchors) :
    windowFor planner runtime rows duration draft = windowFor planner runtime rows duration other ↔
      Alike runtime rows draft other := by
  obtain ⟨anchors, hanchors⟩ := hdraft
  obtain ⟨anchors', hanchors'⟩ := hother
  have hidentity : knowledgeIdentity runtime rows draft = knowledgeIdentity runtime rows other := by
    rw [knowledgeIdentity, knowledgeIdentity, hpayload]
  simp only [identityPayload, Json.obj.injEq, List.cons.injEq, Prod.mk.injEq, Json.str.injEq, Json.arr.injEq, true_and,
    and_true] at hpayload
  obtain ⟨hsemantic, hindices, -⟩ := hpayload
  have hsame : indicesOf runtime rows draft = indicesOf runtime rows other :=
    List.map_injective_iff.mpr (fun _ _ h => Json.int.inj h) hindices
  have hselected : selectedFor runtime rows draft = selectedFor runtime rows other := by
    rw [selectedFor, selectedFor, hsame]
  have hspan : draftSpan planner runtime rows duration draft = draftSpan planner runtime rows duration other := by
    rw [draftSpan, draftSpan, hselected]
  rw [windowFor, windowFor, hanchors, hanchors', Alike, hanchors, hanchors']
  change draftWindow planner runtime rows duration draft anchors = draftWindow planner runtime rows duration other anchors' ↔ _
  simp only [draftWindow, hsemantic, hselected, hspan, hidentity, KnowledgeEvidenceWindow.mk.injEq, true_and, Except.ok.injEq]
  constructor
  · rintro ⟨-, hanchor, hstrategy⟩
    have hflag : isThesis runtime draft = isThesis runtime other := by
      cases h : isThesis runtime draft <;> cases h' : isThesis runtime other
      · rfl
      · simp [h, h'] at hstrategy
      · simp [h, h'] at hstrategy
      · rfl
    refine ⟨hflag, ?_⟩
    cases h : isThesis runtime other with
    | true =>
      rw [hflag, h, if_pos rfl, if_pos rfl] at hanchor
      exact hanchor
    | false =>
      rw [phaseAnchors, hflag, h, if_neg Bool.false_ne_true] at hanchors
      rw [phaseAnchors, h, if_neg Bool.false_ne_true] at hanchors'
      exact (Except.ok.inj hanchors).symm.trans (Except.ok.inj hanchors')
  · rintro ⟨hflag, rfl⟩
    rw [hflag]
    exact ⟨rfl, rfl, rfl⟩

/-- The windows that are kept, as they come before the last sort. -/
def keptWindows (planner : EvidenceWindowPlanner) (runtime : DraftRuntime) (rows : List TranscriptSegmentItem)
    (duration : Int) (drafts : List ClaimOccurrenceDraft) : List KnowledgeEvidenceWindow :=
  firstOfEach KnowledgeEvidenceWindow.knowledgeIdentity []
    ((drafts.filter (plannable runtime rows)).map (windowFor planner runtime rows duration))

theorem map_keptDrafts (drafts : List ClaimOccurrenceDraft) :
    (keptDrafts runtime rows drafts).map (windowFor planner runtime rows duration) =
      keptWindows planner runtime rows duration drafts := by
  rw [keptWindows, firstOfEach_map]
  rfl

/-- Where an identity determines its window, every order keeps the same windows. -/
theorem sorted_keptWindows_perm (h : drafts'.Perm drafts)
    (hsame : ∀ draft ∈ drafts, ∀ other ∈ drafts, plannable runtime rows draft = true → plannable runtime rows other = true →
      knowledgeIdentity runtime rows draft = knowledgeIdentity runtime rows other →
        windowFor planner runtime rows duration draft = windowFor planner runtime rows duration other) :
    sortedBy (windowKey KnowledgeEvidenceWindow.knowledgeIdentity) (keptWindows planner runtime rows duration drafts') =
      sortedBy (windowKey KnowledgeEvidenceWindow.knowledgeIdentity) (keptWindows planner runtime rows duration drafts) := by
  have hperm := (h.filter (plannable runtime rows)).map (windowFor planner runtime rows duration)
  have hdetermined : ∀ window ∈ (drafts.filter (plannable runtime rows)).map (windowFor planner runtime rows duration),
      ∀ window' ∈ (drafts.filter (plannable runtime rows)).map (windowFor planner runtime rows duration),
        window.knowledgeIdentity = window'.knowledgeIdentity → window = window' := by
    intro window hwindow window' hwindow' hid
    obtain ⟨draft, hdraft, rfl⟩ := List.mem_map.mp hwindow
    obtain ⟨other, hother, rfl⟩ := List.mem_map.mp hwindow'
    obtain ⟨hdraft, hplan⟩ := List.mem_filter.mp hdraft
    obtain ⟨hother, hplan'⟩ := List.mem_filter.mp hother
    exact hsame draft hdraft other hother hplan hplan' hid
  have hkept := firstOfEach_perm hdetermined fun _ => hperm.mem_iff.symm
  refine (sortedBy_eq_of_perm hkept ?_).symm
  intro window hwindow window' hwindow' hkey
  simp only [windowKey, toLex_inj, Prod.mk.injEq] at hkey
  exact eq_of_mem_firstOfEach hwindow hwindow' hkey.2.2

/-- A draft that comes first has its window kept. -/
theorem windowFor_mem_keptWindows (hplan : plannable runtime rows draft = true) (rest : List ClaimOccurrenceDraft) :
    windowFor planner runtime rows duration draft ∈ keptWindows planner runtime rows duration (draft :: rest) := by
  rw [keptWindows, List.filter_cons_of_pos hplan, List.map_cons]
  exact head_mem_firstOfEach _ _

theorem planClaimDrafts_iff {windows : List KnowledgeEvidenceWindow}
    (hduration : checkDuration mediaDurationMs = .ok ()) (hread : ∀ draft ∈ drafts, ¬Refused runtime rows draft) :
    planClaimDrafts planner runtime rows mediaDurationMs drafts = .ok windows ↔
      windows = sortedBy (windowKey KnowledgeEvidenceWindow.knowledgeIdentity)
        (keptWindows planner runtime rows (durationOf rows mediaDurationMs) drafts) := by
  rw [planClaimDrafts_eq_ok, map_keptDrafts]
  refine and_iff_right ⟨hduration, fun draft hdraft => ?_⟩
  obtain ⟨hmem, hplan⟩ := List.mem_filter.mp hdraft
  by_contra hrefused
  exact hread draft hmem ⟨hplan, hrefused⟩

theorem planClaimDrafts_refused {windows : List KnowledgeEvidenceWindow} (hmem : draft ∈ drafts)
    (h : Refused runtime rows draft) : planClaimDrafts planner runtime rows mediaDurationMs drafts ≠ .ok windows := by
  intro hplan
  exact h.2 ((planClaimDrafts_eq_ok.mp hplan).1.2 draft (List.mem_filter.mpr ⟨hmem, h.1⟩))

section Order
variable (hread : ∀ draft ∈ drafts, ¬Refused runtime rows draft)
include hread

theorem readable_perm (h : drafts'.Perm drafts) : ∀ draft ∈ drafts', ¬Refused runtime rows draft :=
  fun draft hmem => hread draft (h.mem_iff.mp hmem)

/-- Of drafts with one identity, the windows are the same if the drafts are alike. -/
theorem windowFor_alike (hdistinct : IdentitiesDistinct runtime rows drafts) (hdraft : draft ∈ drafts)
    (hother : other ∈ drafts) (hplan : plannable runtime rows draft = true) (hplan' : plannable runtime rows other = true)
    (hid : knowledgeIdentity runtime rows draft = knowledgeIdentity runtime rows other) :
    windowFor planner runtime rows duration draft = windowFor planner runtime rows duration other ↔
      Alike runtime rows draft other := by
  refine windowFor_eq_iff (hdistinct draft hdraft other hother hid) ?_ ?_
  · by_contra hnone
    exact hread draft hdraft ⟨hplan, hnone⟩
  · by_contra hnone
    exact hread other hother ⟨hplan', hnone⟩

/-- If every order plans the same windows, the window of each draft is among them: some order has it first. -/
theorem windowFor_mem_of_order (hok : checkDuration mediaDurationMs = .ok ())
    (hsame : ∀ drafts', drafts'.Perm drafts → ∀ windows,
      planClaimDrafts planner runtime rows mediaDurationMs drafts' = .ok windows ↔
        planClaimDrafts planner runtime rows mediaDurationMs drafts = .ok windows)
    (hdraft : draft ∈ drafts) (hplan : plannable runtime rows draft = true) :
    windowFor planner runtime rows (durationOf rows mediaDurationMs) draft ∈
      keptWindows planner runtime rows (durationOf rows mediaDurationMs) drafts := by
  have hperm := (List.perm_cons_erase hdraft).symm
  have hwindows := (hsame _ hperm _).mp ((planClaimDrafts_iff hok (readable_perm hread hperm)).mpr rfl)
  rw [← @mem_sortedBy _ _ _ (windowKey KnowledgeEvidenceWindow.knowledgeIdentity),
    ← (planClaimDrafts_iff hok hread).mp hwindows, mem_sortedBy]
  exact windowFor_mem_keptWindows hplan _

end Order

theorem planClaimDrafts_negative (h : mediaDurationMs.all (0 ≤ ·) = false) (drafts : List ClaimOccurrenceDraft)
    (windows : List KnowledgeEvidenceWindow) :
    planClaimDrafts planner runtime rows mediaDurationMs drafts ≠ .ok windows := by
  intro hplan
  have hok := require_eq_ok.mp (planClaimDrafts_eq_ok.mp hplan).1.1
  exact Bool.false_ne_true (h.symm.trans hok)

end Drafts

/-- Segments may come in any order. Drafts may exactly if none are planned at all, or drafts of one identity are alike. -/
theorem windows_perm_iff (planner : EvidenceWindowPlanner) (runtime : DraftRuntime) (rows : List TranscriptSegmentItem)
    (mediaDurationMs : Option Int) (segments : List SemanticSegment) (drafts : List ClaimOccurrenceDraft)
    (hdistinct : IdentitiesDistinct runtime rows drafts) :
    (∀ segments', segments'.Perm segments → plan planner runtime.tables rows mediaDurationMs segments' =
      plan planner runtime.tables rows mediaDurationMs segments) ∧
    ((∀ drafts', drafts'.Perm drafts → ∀ windows,
      planClaimDrafts planner runtime rows mediaDurationMs drafts' = .ok windows ↔
        planClaimDrafts planner runtime rows mediaDurationMs drafts = .ok windows) ↔
      (mediaDurationMs.all (0 ≤ ·) = false ∨ ∃ draft ∈ drafts, Refused runtime rows draft) ∨
        ∀ draft ∈ drafts, ∀ other ∈ drafts, plannable runtime rows draft = true → plannable runtime rows other = true →
          knowledgeIdentity runtime rows draft = knowledgeIdentity runtime rows other → Alike runtime rows draft other) := by
  refine ⟨fun _ => plan_perm, ?_⟩
  by_cases hduration : mediaDurationMs.all (0 ≤ ·) = false
  · refine iff_of_true (fun drafts' _ windows => ?_) (.inl (.inl hduration))
    exact iff_of_false (planClaimDrafts_negative hduration _ _) (planClaimDrafts_negative hduration _ _)
  by_cases hrefused : ∃ draft ∈ drafts, Refused runtime rows draft
  · obtain ⟨draft, hmem, hdraft⟩ := hrefused
    refine iff_of_true (fun drafts' hperm windows => ?_) (.inl (.inr ⟨draft, hmem, hdraft⟩))
    exact iff_of_false (planClaimDrafts_refused (hperm.mem_iff.mpr hmem) hdraft) (planClaimDrafts_refused hmem hdraft)
  have hok : checkDuration mediaDurationMs = .ok () := require_eq_ok.mpr (Bool.eq_true_of_not_eq_false hduration)
  have hread : ∀ draft ∈ drafts, ¬Refused runtime rows draft := fun draft hmem hdraft => hrefused ⟨draft, hmem, hdraft⟩
  constructor
  · intro hsame
    refine .inr fun draft hdraft other hother hplan hplan' hid => ?_
    have halike := @windowFor_alike planner _ _ _ _ _ (durationOf rows mediaDurationMs) hread hdistinct hdraft hother
      hplan hplan' hid
    refine halike.mp ?_
    exact eq_of_mem_firstOfEach (windowFor_mem_of_order hread hok hsame hdraft hplan)
      (windowFor_mem_of_order hread hok hsame hother hplan') hid
  · intro hcondition drafts' hperm windows
    rw [planClaimDrafts_iff hok (readable_perm hread hperm), planClaimDrafts_iff hok hread]
    have halike := hcondition.resolve_left fun h => h.elim hduration hrefused
    rw [@sorted_keptWindows_perm planner _ _ _ _ (durationOf rows mediaDurationMs) hperm
      fun draft hdraft other hother hplan hplan' hid =>
        (windowFor_alike hread hdistinct hdraft hother hplan hplan' hid).mpr
          (halike draft hdraft other hother hplan hplan' hid)]

/-- The statement of `citingDraft` once more, from another extraction. -/
def repeatedDraft : ClaimOccurrenceDraft := { citingDraft with sentiment := "BULLISH" }

/-- The same statement with the same evidence, as a thesis. -/
def thesisDraft : ClaimOccurrenceDraft where
  semanticSegmentId := "semantic"
  knowledgeKind := "THESIS"
  claimType := "OPINION"
  evidenceSegmentIndices := [0]
  bundleV2 := [("knowledge_role", .str "THESIS"), ("thesis_evidence_scope", .obj [
    ("start_segment_index", .int 0), ("end_segment_index", .int 0), ("proposal_segment_indices", .arr [.int 0]),
    ("argument_segment_indices", .arr [.int 0]), ("conclusion_segment_indices", .arr [.int 0])])]

theorem repeated_draft_order :
    ∃ windows, planClaimDrafts defaultPlanner plainDraftRuntime [spokenRow] none [citingDraft, repeatedDraft] = .ok windows ∧
      planClaimDrafts defaultPlanner plainDraftRuntime [spokenRow] none [repeatedDraft, citingDraft] = .ok windows := by
  have hpayload : ∀ draft ∈ [citingDraft, repeatedDraft], ∀ other ∈ [citingDraft, repeatedDraft],
      identityPayload plainDraftRuntime [spokenRow] draft = identityPayload plainDraftRuntime [spokenRow] other := by
    decide
  have halike : ∀ draft ∈ [citingDraft, repeatedDraft], ∀ other ∈ [citingDraft, repeatedDraft],
      Alike plainDraftRuntime [spokenRow] draft other := by
    simp only [List.forall_mem_cons, List.not_mem_nil, IsEmpty.forall_iff, implies_true, and_true]
    exact ⟨⟨⟨rfl, rfl⟩, ⟨rfl, rfl⟩⟩, ⟨rfl, rfl⟩, ⟨rfl, rfl⟩⟩
  refine ⟨_, rfl, ?_⟩
  have horder := (windows_perm_iff defaultPlanner plainDraftRuntime [spokenRow] none [] [citingDraft, repeatedDraft]
    fun draft hdraft other hother _ => hpayload draft hdraft other hother).2.mpr
      (.inr fun draft hdraft other hother _ _ _ => halike draft hdraft other hother)
  exact (horder _ (List.Perm.swap _ _ _) _).mpr rfl

/-- Of a thesis and an atomic draft with one identity, the first one is planned. -/
theorem thesis_order_matters :
    ∃ windows windows',
      planClaimDrafts defaultPlanner plainDraftRuntime [spokenRow] none [citingDraft, thesisDraft] = .ok windows ∧
      planClaimDrafts defaultPlanner plainDraftRuntime [spokenRow] none [thesisDraft, citingDraft] = .ok windows' ∧
      windows ≠ windows' :=
  ⟨_, _, rfl, rfl, by decide⟩

end StockContent.Sampling
