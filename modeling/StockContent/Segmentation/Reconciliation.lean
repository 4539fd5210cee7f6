import Mathlib.Data.List.SplitBy
import Mathlib.Data.Prod.Lex
import Mathlib.Data.String.Basic
import StockContent.Segmentation.BoundaryProtocol
import StockContent.Storage.ByKey

/-! Proposals of several blocks become boundaries in the order of the transcript. Which of the
proposals of one coordinate speaks for it is settled by rank; of equal ranks it is the first. -/
namespace StockContent.Segmentation
open Storage

deriving instance DecidableEq for Candidate

section Rank

abbrev Rank := WithBot Rat ×ₗ Nat ×ₗ Bool ×ₗ Bool ×ₗ String ×ₗ String ×ₗ String

/-- What is compared of a candidate, the weightiest first. -/
def rank (candidate : Candidate) : Rank :=
  toLex (candidate.boundary.confidence.map (·.value), toLex (candidate.support,
    toLex (isGiven candidate.boundary.nextSubject, toLex (isGiven candidate.boundary.nextTopic,
      toLex (candidate.boundary.boundaryType,
        toLex (candidate.boundary.nextSubject.getD "", candidate.boundary.nextTopic.getD ""))))))

theorem compare_confidence (x y : Option Rat) : compare x y = @compare (WithBot Rat) _ x y := by
  cases x with
  | none => cases y <;> rfl
  | some p =>
    cases y with
    | none => rfl
    | some q =>
      change compare p q = @compare (WithBot Rat) _ p q
      rcases lt_trichotomy p q with h | rfl | h
      · rw [compare_lt_iff_lt.mpr h, compare_lt_iff_lt.mpr (WithBot.coe_lt_coe.mpr h)]
      · rw [compare_eq_iff_eq.mpr rfl, compare_eq_iff_eq.mpr rfl]
      · rw [compare_gt_iff_gt.mpr h, compare_gt_iff_gt.mpr (WithBot.coe_lt_coe.mpr h)]

theorem compareRank_eq (a b : Candidate) : compareRank a b = compare (rank a) (rank b) := by
  rw [compareRank, compare_confidence]
  simp only [Prod.Lex.compare_def]
  rfl

theorem isLT_compareRank {a b : Candidate} : (compareRank a b).isLT ↔ rank a < rank b := by
  rw [compareRank_eq, ← compare_lt_iff_lt, Ordering.isLT_iff_eq_lt]

theorem strongest_eq_argmax (candidates : List Candidate) : strongest candidates = candidates.argmax rank := by
  cases candidates with
  | nil => rfl
  | cons first rest =>
    rw [strongest, List.argmax, List.foldl_cons]
    change _ = rest.foldl _ (some first)
    induction rest generalizing first with
    | nil => rfl
    | cons item rest ih =>
      rw [List.foldl_cons, ih, List.foldl_cons]
      congr 1
      change _ = if rank first < rank item then some item else some first
      by_cases h : rank first < rank item
      · rw [if_pos h, if_pos (isLT_compareRank.mpr h)]
      · rw [if_neg h, if_neg (mt isLT_compareRank.mp h)]

end Rank

section Candidates

/-- What is proposed at a coordinate, with the number of blocks that propose it. -/
def rivals (proposals : List SemanticBoundary) (point : Int) : List Candidate :=
  let proposed := proposals.filter (·.afterSegmentIndex = point)
  proposed.map fun boundary => { support := proposed.length, boundary }

def candidates (proposals : List SemanticBoundary) : List Candidate :=
  ((Dict.groupBy (·.afterSegmentIndex) proposals).rows.filterMap candidateOf).insertionSort (·.position ≤ ·.position)

variable {proposals permuted : List SemanticBoundary} {point : Int} {candidate : Candidate}

theorem mem_rivals : candidate ∈ rivals proposals point ↔ candidate.boundary ∈ proposals ∧ candidate.position = point ∧
    candidate.support = (proposals.filter (·.afterSegmentIndex = point)).length := by
  rw [rivals, List.mem_map]
  constructor
  · rintro ⟨boundary, hm, rfl⟩
    obtain ⟨hm, hpoint⟩ := List.mem_filter.mp hm
    exact ⟨hm, of_decide_eq_true hpoint, rfl⟩
  · rintro ⟨hm, hpoint, hsupport⟩
    exact ⟨candidate.boundary, List.mem_filter.mpr ⟨hm, decide_eq_true hpoint⟩, by rw [← hsupport]⟩

theorem length_rivals (h : candidate ∈ rivals proposals point) : (rivals proposals point).length = candidate.support := by
  rw [(mem_rivals.mp h).2.2, rivals, List.length_map]

theorem rivals_perm (h : permuted.Perm proposals) : (rivals permuted point).Perm (rivals proposals point) := by
  have hproposed := h.filter (·.afterSegmentIndex = point)
  rw [rivals, rivals, hproposed.length_eq]
  exact hproposed.map _

/-- At every coordinate with proposals the first of the highest rank is the candidate. -/
theorem mem_candidates :
    candidate ∈ candidates proposals ↔ (rivals proposals candidate.position).argmax rank = some candidate := by
  rw [candidates, List.mem_insertionSort, List.mem_filterMap]
  constructor
  · rintro ⟨⟨point, group⟩, hrow, hcandidate⟩
    obtain ⟨rfl, -⟩ := Dict.mem_groupBy.mp hrow
    rw [candidateOf, strongest_eq_argmax] at hcandidate
    change (rivals proposals point).argmax rank = _ at hcandidate
    rw [(mem_rivals.mp (List.argmax_mem hcandidate)).2.1]
    exact hcandidate
  · intro h
    refine ⟨(candidate.position, proposals.filter (·.afterSegmentIndex = candidate.position)), ?_, ?_⟩
    · refine Dict.mem_groupBy.mpr ⟨rfl, ?_⟩
      rintro hnil
      rw [rivals, hnil] at h
      cases h
    · rw [candidateOf, strongest_eq_argmax]
      exact h

theorem mem_of_mem_candidates (h : candidate ∈ candidates proposals) : candidate.boundary ∈ proposals :=
  (mem_rivals.mp (List.argmax_mem (mem_candidates.mp h))).1

theorem candidates_ascending (proposals : List SemanticBoundary) :
    (candidates proposals).Pairwise (·.position < ·.position) := by
  have hle : (candidates proposals).Pairwise (·.position ≤ ·.position) := List.pairwise_insertionSort _ _
  have hrows := (Dict.groupBy (·.afterSegmentIndex) proposals).unique
  have hne : ((Dict.groupBy (·.afterSegmentIndex) proposals).rows.filterMap candidateOf).Pairwise
      (·.position ≠ ·.position) := by
    rw [List.pairwise_filterMap]
    refine (List.pairwise_map.mp hrows).imp_of_mem ?_
    intro row row' hrow hrow' hne a ha b hb
    have hposition {row : Int × List SemanticBoundary} {c : Candidate}
        (hrow : row ∈ (Dict.groupBy (·.afterSegmentIndex) proposals).rows) (hc : candidateOf row = some c) :
        c.position = row.1 := by
      obtain ⟨hgroup, -⟩ := Dict.mem_groupBy.mp hrow
      rw [candidateOf, strongest_eq_argmax, hgroup] at hc
      exact (mem_rivals.mp (List.argmax_mem hc)).2.1
    rw [hposition hrow ha, hposition hrow' hb]
    exact hne
  have hsorted := (List.perm_insertionSort (fun a b : Candidate => a.position ≤ b.position) _).symm.pairwise hne
    fun {a b} h => h.symm
  exact hle.imp₂ (fun a b hab hne => lt_of_le_of_ne hab hne) hsorted

end Candidates

section Result
variable {proposals permuted result : List SemanticBoundary} {overlap : Int}

/-- What `reconcile` asks of the proposals before it looks at any two of them. -/
def Accepted (proposals : List SemanticBoundary) (overlap : Int) : Prop :=
  0 ≤ overlap ∧ ∀ proposal ∈ proposals,
    0 ≤ proposal.afterSegmentIndex ∧ (validateMetadata proposal.fields).map (fun _ => ()) = .ok ()

def retained (overlap : Int) (candidates : List Candidate) : List Candidate :=
  (candidates.splitBy fun a b => b.position - a.position ≤ overlap).flatMap selected

theorem reconcile_eq_ok : reconcile proposals overlap = .ok result ↔
    Accepted proposals overlap ∧ result = (retained overlap (candidates proposals)).map (·.boundary) := by
  rw [reconcile, then_eq_ok, require_eq_ok, decide_eq_true_iff, then_eq_ok, forM_eq_ok, Accepted, and_assoc]
  refine and_congr_right fun _ => and_congr ?_ ⟨fun h => (Except.ok.inj h).symm, fun h => congrArg _ h.symm⟩
  refine forall₂_congr fun proposal _ => ?_
  rw [then_eq_ok, require_eq_ok, decide_eq_true_iff]

theorem accepted_perm (h : permuted.Perm proposals) : Accepted permuted overlap ↔ Accepted proposals overlap :=
  and_congr_right fun _ => forall_congr' fun _ => imp_congr h.mem_iff Iff.rfl

theorem selected_sublist (cluster : List Candidate) : (selected cluster).Sublist cluster := by
  rw [selected]
  split
  · exact List.Sublist.refl _
  · dsimp only
    split
    · rw [strongest_eq_argmax]
      cases h : cluster.argmax rank with
      | none => exact List.nil_sublist _
      | some candidate => exact List.singleton_sublist.mpr (List.argmax_mem h)
    · exact List.filter_sublist

theorem retained_sublist (overlap : Int) (candidates : List Candidate) :
    (retained overlap candidates).Sublist candidates := by
  have hclusters := List.flatten_splitBy (fun a b : Candidate => decide (b.position - a.position ≤ overlap)) candidates
  conv_rhs => rw [← hclusters]
  rw [retained]
  induction candidates.splitBy _ with
  | nil => exact List.Sublist.refl _
  | cons cluster clusters ih => exact (selected_sublist cluster).append ih

/-- A repeated coordinate is never given up. -/
theorem mem_retained_of_repeated {candidates : List Candidate} {candidate : Candidate} (hm : candidate ∈ candidates)
    (h : 1 < candidate.support) : candidate ∈ retained overlap candidates := by
  have hclusters := List.flatten_splitBy (fun a b : Candidate => decide (b.position - a.position ≤ overlap)) candidates
  rw [← hclusters, List.mem_flatten] at hm
  obtain ⟨cluster, hcluster, hm⟩ := hm
  refine List.mem_flatMap.mpr ⟨cluster, hcluster, ?_⟩
  have hrepeated : candidate ∈ cluster.filter (1 < ·.support) := List.mem_filter.mpr ⟨hm, decide_eq_true h⟩
  rw [selected]
  split
  · exact hm
  · dsimp only
    rw [if_neg]
    · exact hrepeated
    · rw [List.isEmpty_iff]
      exact List.ne_nil_of_mem hrepeated

/-- What is returned comes in the order of the transcript, at coordinates that were proposed. -/
theorem reconcile_ascending (h : reconcile proposals overlap = .ok result) :
    result.Pairwise (·.afterSegmentIndex < ·.afterSegmentIndex) ∧ ∀ boundary ∈ result, boundary ∈ proposals := by
  obtain ⟨-, rfl⟩ := reconcile_eq_ok.mp h
  have hsublist := retained_sublist overlap (candidates proposals)
  refine ⟨List.pairwise_map.mpr ((candidates_ascending proposals).sublist hsublist), ?_⟩
  intro boundary hm
  obtain ⟨candidate, hcandidate, rfl⟩ := List.mem_map.mp hm
  exact mem_of_mem_candidates (hsublist.subset hcandidate)

end Result

section Order
variable {proposals permuted result : List SemanticBoundary} {overlap : Int}

/-- At no coordinate do two different proposals share the highest rank. -/
def Undisputed (proposals : List SemanticBoundary) : Prop :=
  ∀ point, ∀ x y, Greatest rank (rivals proposals point) x → Greatest rank (rivals proposals point) y → x = y

theorem candidates_perm (h : permuted.Perm proposals) (hundisputed : Undisputed proposals) :
    candidates permuted = candidates proposals := by
  have hmem : ∀ candidate, candidate ∈ candidates permuted ↔ candidate ∈ candidates proposals := by
    intro candidate
    rw [mem_candidates, mem_candidates, argmax_perm_iff.mpr (hundisputed candidate.position) _ (rivals_perm h)]
  have hnodup (proposals : List SemanticBoundary) : (candidates proposals).Nodup :=
    (candidates_ascending proposals).imp fun {a b} hlt heq => (heq ▸ hlt).false
  refine ((List.perm_ext_iff_of_nodup (hnodup permuted) (hnodup proposals)).mpr hmem).eq_of_pairwise ?_
    (candidates_ascending permuted) (candidates_ascending proposals)
  exact fun a b _ _ hab hba => absurd hba hab.asymm

/-- The proposal that comes first speaks for its coordinate if none has a higher rank. -/
theorem mem_result_of_first {x y : Candidate} {point : Int} (hx : Greatest rank (rivals proposals point) x)
    (hy : y ∈ rivals proposals point) (hne : x ≠ y)
    (h : reconcile (x.boundary :: proposals.erase x.boundary) overlap = .ok result) : x.boundary ∈ result := by
  obtain ⟨-, rfl⟩ := reconcile_eq_ok.mp h
  obtain ⟨hm, rfl, hsupport⟩ := mem_rivals.mp hx.1
  have hperm : (x.boundary :: proposals.erase x.boundary).Perm proposals := (List.perm_cons_erase hm).symm
  have hfirst : ∃ rest, rivals (x.boundary :: proposals.erase x.boundary) x.position = x :: rest := by
    have hlength := (hperm.filter (·.afterSegmentIndex = x.position)).length_eq
    have hhead : (x.boundary :: proposals.erase x.boundary).filter (·.afterSegmentIndex = x.position) =
        x.boundary :: (proposals.erase x.boundary).filter (·.afterSegmentIndex = x.position) :=
      List.filter_cons_of_pos (decide_eq_true rfl)
    rw [rivals, hlength, hhead, List.map_cons, ← hsupport]
    exact ⟨_, rfl⟩
  obtain ⟨rest, hrest⟩ := hfirst
  have hgreatest : Greatest rank (x :: rest) x := hrest ▸ hx.perm (rivals_perm hperm)
  have hcandidate : x ∈ candidates (x.boundary :: proposals.erase x.boundary) := by
    rw [mem_candidates, hrest]
    exact argmax_cons_greatest hgreatest
  have hrepeated : 1 < x.support := by
    rw [← length_rivals hx.1]
    by_contra hle
    obtain ⟨z, hz⟩ := List.length_eq_one_iff.mp (le_antisymm (not_lt.mp hle) (List.length_pos_of_mem hy))
    have hxz : x = z := List.mem_singleton.mp (hz ▸ hx.1)
    have hyz : y = z := List.mem_singleton.mp (hz ▸ hy)
    exact hne (hxz.trans hyz.symm)
  exact List.mem_map_of_mem (mem_retained_of_repeated hcandidate hrepeated)

theorem undisputed_of_perm (haccepted : Accepted proposals overlap)
    (h : ∀ permuted, permuted.Perm proposals → (reconcile permuted overlap).toOption = (reconcile proposals overlap).toOption) :
    Undisputed proposals := by
  intro point x y hx hy
  by_contra hne
  have hreturns : reconcile proposals overlap = .ok _ := reconcile_eq_ok.mpr ⟨haccepted, rfl⟩
  have hfirst {z : Candidate} (hz : Greatest rank (rivals proposals point) z) {w : Candidate}
      (hw : w ∈ rivals proposals point) (hne : z ≠ w) :
      z.boundary ∈ (retained overlap (candidates proposals)).map (·.boundary) := by
    have hm := (mem_rivals.mp hz.1).1
    have hsame := h _ (List.perm_cons_erase hm).symm
    rw [hreturns] at hsame
    exact mem_result_of_first hz hw hne (toOption_eq_some.mp hsame)
  obtain ⟨-, hpointx, hsupportx⟩ := mem_rivals.mp hx.1
  obtain ⟨-, hpointy, hsupporty⟩ := mem_rivals.mp hy.1
  have hnodup : (((retained overlap (candidates proposals)).map (·.boundary)).map (·.afterSegmentIndex)).Nodup :=
    List.pairwise_map.mpr ((reconcile_ascending hreturns).1.imp ne_of_lt)
  have hboundary : x.boundary = y.boundary :=
    List.inj_on_of_nodup_map hnodup (hfirst hx hy.1 hne) (hfirst hy hx.1 (Ne.symm hne)) (hpointx.trans hpointy.symm)
  have hsupport : x.support = y.support := hsupportx.trans hsupporty.symm
  cases x
  cases y
  simp only at hboundary hsupport
  exact hne (by rw [hboundary, hsupport])

/-- The order of the proposals does not matter, and what comes out ascends and was proposed. -/
def OrderIndependent (proposals : List SemanticBoundary) (overlap : Int) : Prop :=
  ∀ permuted, permuted.Perm proposals →
    (reconcile permuted overlap).toOption = (reconcile proposals overlap).toOption ∧
    ∀ result, reconcile permuted overlap = .ok result → result.Pairwise (·.afterSegmentIndex < ·.afterSegmentIndex) ∧
      ∀ boundary ∈ result, ∃ proposal ∈ proposals, proposal.afterSegmentIndex = boundary.afterSegmentIndex

theorem reconcile_perm (h : permuted.Perm proposals) (hundisputed : Accepted proposals overlap → Undisputed proposals) :
    (reconcile permuted overlap).toOption = (reconcile proposals overlap).toOption := by
  apply Option.ext
  intro result
  rw [toOption_eq_some, toOption_eq_some, reconcile_eq_ok, reconcile_eq_ok, accepted_perm h]
  refine and_congr_right fun haccepted => ?_
  rw [candidates_perm h (hundisputed haccepted)]

theorem reconcile_orderIndependent (proposals : List SemanticBoundary) (overlap : Int) :
    OrderIndependent proposals overlap ↔ (Accepted proposals overlap → Undisputed proposals) := by
  constructor
  · exact fun h haccepted => undisputed_of_perm haccepted fun permuted hp => (h permuted hp).1
  · intro h permuted hp
    refine ⟨reconcile_perm hp h, fun result hresult => ?_⟩
    obtain ⟨hascending, hproposed⟩ := reconcile_ascending hresult
    exact ⟨hascending, fun boundary hm => ⟨boundary, hp.mem_iff.mp (hproposed boundary hm), rfl⟩⟩

/-- A label that is empty ranks with one that is absent. -/
theorem reconcile_empty_label : ¬ OrderIndependent
    [{ afterSegmentIndex := 3, nextTopic := none }, { afterSegmentIndex := 3, nextTopic := some "" }] 2 := by
  intro h
  have hswapped := (h _ (List.Perm.swap _ _ _)).1
  revert hswapped
  decide

end Order
end StockContent.Segmentation
