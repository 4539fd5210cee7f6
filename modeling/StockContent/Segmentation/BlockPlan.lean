import Mathlib.Algebra.Order.BigOperators.Group.List
import Mathlib.Algebra.Order.Group.Nat
import StockContent.Segmentation.SemanticSegmenter

/-! The blocks a transcript is asked about: every row is in one of them, each is within the
budget, and the overlap with the block before is context of which nothing is left out. -/
namespace StockContent.Segmentation
open Storage

section Rows

/-- What the rows between two positions cost. -/
def rowsCost (costs : List Nat) (start stop : Nat) : Nat := ((costs.take stop).drop start).sum

/-- A block holds as many rows as the budget does. -/
structure Fills (rowBudget : Int) (costs : List Nat) (start stop : Nat) : Prop where
  advances : start < stop
  bounded : stop ≤ costs.length
  fits : rowsCost costs start stop ≤ rowBudget
  full : stop < costs.length → rowBudget < rowsCost costs start (stop + 1)

/-- Where the block after a block begins. -/
def nextStart (segmentOverlap start stop : Nat) : Nat := stop - min segmentOverlap ((stop - start) / 3)

variable {rowBudget : Int} {costs : List Nat} {segmentOverlap start stop : Nat}

theorem start_lt_nextStart (segmentOverlap : Nat) (h : start < stop) : start < nextStart segmentOverlap start stop := by
  unfold nextStart
  omega

theorem nextStart_le : nextStart segmentOverlap start stop ≤ stop := Nat.sub_le _ _

theorem rowsCost_eq_take (costs : List Nat) (start count : Nat) :
    rowsCost costs start (start + count) = ((costs.drop start).take count).sum := by
  rw [rowsCost, List.drop_take, Nat.add_sub_cancel_left]

/-- More rows cost more. -/
theorem rowsCost_mono {start' stop' : Nat} (hstart : start' ≤ start) (hstop : stop ≤ stop') :
    rowsCost costs start stop ≤ rowsCost costs start' stop' := by
  have htake : (costs.take stop).Sublist (costs.take stop') := (List.take_prefix_take_left hstop).sublist
  have hdrop : ((costs.take stop').drop start).Sublist ((costs.take stop').drop start') :=
    List.drop_sublist_drop_left _ hstart
  exact ((htake.drop start).trans hdrop).sum_le_sum fun _ _ => Nat.zero_le _

theorem rowsCost_single (h : start < costs.length) : rowsCost costs start (start + 1) = costs[start] := by
  rw [rowsCost_eq_take, List.drop_eq_getElem_cons h]
  simp only [List.take_succ_cons, List.take_zero, List.sum_cons, List.sum_nil, Nat.add_zero]

/-- Only one number of rows fills a block. -/
theorem Fills.unique {stop' : Nat} (h : Fills rowBudget costs start stop) (h' : Fills rowBudget costs start stop') :
    stop = stop' := by
  have hnot {stop stop' : Nat} (h : Fills rowBudget costs start stop) (h' : Fills rowBudget costs start stop') :
      ¬ stop < stop' := by
    intro hlt
    have hfull := h.full (lt_of_lt_of_le hlt h'.bounded)
    have hmore : rowsCost costs start (stop + 1) ≤ rowsCost costs start stop' := rowsCost_mono le_rfl hlt
    have hfits := h'.fits
    omega
  exact le_antisymm (not_lt.mp (hnot h' h)) (not_lt.mp (hnot h h'))

/-- The row after a block fits next to the overlap, or the next block ends where this one does. -/
theorem Fills.ends_later_iff {stop' : Nat} (hmore : stop < costs.length)
    (h' : Fills rowBudget costs (nextStart segmentOverlap start stop) stop') :
    stop < stop' ↔ rowsCost costs (nextStart segmentOverlap start stop) (stop + 1) ≤ rowBudget := by
  constructor
  · intro hlt
    have hwithin : rowsCost costs (nextStart segmentOverlap start stop) (stop + 1) ≤
        rowsCost costs (nextStart segmentOverlap start stop) stop' := rowsCost_mono le_rfl hlt
    have hfits := h'.fits
    omega
  · intro hfits
    by_contra hle
    have hfull := h'.full (by omega)
    have hwithin : rowsCost costs (nextStart segmentOverlap start stop) (stop' + 1) ≤
        rowsCost costs (nextStart segmentOverlap start stop) (stop + 1) := rowsCost_mono le_rfl (by omega)
    omega

end Rows

section Fill
variable {rowBudget : Int}

/-- Rows are taken for as long as they fit; the first of a block always does. -/
theorem fillBlock_spec {costs : List Nat} {budget : Int} {taken : Nat} (hfits : ∀ cost ∈ costs, (cost : Int) ≤ rowBudget)
    (hbudget : budget ≤ rowBudget) (hfirst : taken = 0 → budget = 0) :
    ∃ more ≤ costs.length, fillBlock rowBudget budget taken costs = .ok (taken + more) ∧
      budget + (costs.take more).sum ≤ rowBudget ∧
      (more < costs.length → 0 < taken + more ∧ rowBudget < budget + (costs.take (more + 1)).sum) := by
  induction costs generalizing budget taken with
  | nil => exact ⟨0, le_rfl, rfl, by simpa using hbudget, fun h => absurd h (lt_irrefl 0)⟩
  | cons cost costs ih =>
    obtain ⟨hcost, hfits⟩ := List.forall_mem_cons.mp hfits
    have hfill : fillBlock rowBudget budget taken (cost :: costs) =
        if 0 < taken && rowBudget < budget + cost then .ok taken
        else fillBlock rowBudget (budget + cost) (taken + 1) costs := by
      rw [fillBlock, require, if_pos (decide_eq_true hcost)]
      rfl
    rw [hfill]
    by_cases hstop : 0 < taken ∧ rowBudget < budget + cost
    · refine ⟨0, Nat.zero_le _, if_pos (by simpa using hstop), by simpa using hbudget, fun _ => ?_⟩
      simpa using hstop
    · have hmore : budget + cost ≤ rowBudget := by
        rcases Nat.eq_zero_or_pos taken with hzero | hpos
        · rw [hfirst hzero, zero_add]
          exact hcost
        · exact not_lt.mp fun hlt => hstop ⟨hpos, hlt⟩
      obtain ⟨more, hle, hok, hsum, hfull⟩ := ih hfits hmore (fun h => absurd h (Nat.succ_ne_zero _))
      refine ⟨more + 1, Nat.succ_le_succ hle, ?_, ?_, fun hlt => ?_⟩
      · rw [if_neg (by simpa using hstop), hok, Nat.succ_add_eq_add_succ]
      · simpa [add_assoc] using hsum
      · have hrest := (hfull (Nat.lt_of_succ_lt_succ hlt)).2
        refine ⟨by omega, ?_⟩
        simpa [add_assoc] using hrest

variable {costs : List Nat}

/-- A block is filled, and the blocks after it begin in it. -/
theorem blocksFrom_filled (hfits : ∀ cost ∈ costs, (cost : Int) ≤ rowBudget) (segmentOverlap : Nat) {start : Nat}
    (hstart : start < costs.length) :
    ∃ stop, Fills rowBudget costs start stop ∧ blocksFrom rowBudget segmentOverlap costs start =
      if stop = costs.length then .ok [(start, stop)]
      else (blocksFrom rowBudget segmentOverlap costs (nextStart segmentOverlap start stop)).map ((start, stop) :: ·) := by
  have hahead : ∀ cost ∈ costs.drop start, (cost : Int) ≤ rowBudget :=
    fun cost hm => hfits cost (List.mem_of_mem_drop hm)
  have hfirst : (costs[start] : Int) ≤ rowBudget := hfits _ (List.getElem_mem hstart)
  have hzero : (0 : Int) ≤ rowBudget := le_trans (Int.natCast_nonneg _) hfirst
  obtain ⟨taken, hle, hok, hsum, hfull⟩ := fillBlock_spec hahead hzero (fun _ : (0 : Nat) = 0 => rfl)
  rw [List.length_drop] at hle hfull
  have hpos : 0 < taken := by
    rcases Nat.eq_zero_or_pos taken with hnone | hpos
    · rw [hnone] at hfull
      exact absurd (hfull (by omega)).1 (lt_irrefl _)
    · exact hpos
  have hstop : min costs.length (max (start + 1) (start + (0 + taken))) = start + taken := by omega
  refine ⟨start + taken, ⟨by omega, by omega, ?_, fun hlt => ?_⟩, ?_⟩
  · rw [rowsCost_eq_take]
    simpa using hsum
  · rw [Nat.add_assoc, rowsCost_eq_take]
    simpa using (hfull (by omega)).2
  · rw [blocksFrom, if_pos hstart, hok]
    change (if min _ _ = _ then _ else _) = _
    rw [hstop]
    rfl

end Fill

section Walk
variable {rowBudget : Int} {segmentOverlap : Nat} {costs : List Nat}

/-- Blocks that are filled one after the other, from a row on up to the last. -/
inductive Walk (rowBudget : Int) (segmentOverlap : Nat) (costs : List Nat) : Nat → List (Nat × Nat) → Prop
  | last {start : Nat} (filled : Fills rowBudget costs start costs.length) :
      Walk rowBudget segmentOverlap costs start [(start, costs.length)]
  | more {start stop : Nat} {blocks : List (Nat × Nat)} (filled : Fills rowBudget costs start stop)
      (remain : stop < costs.length)
      (rest : Walk rowBudget segmentOverlap costs (nextStart segmentOverlap start stop) blocks) :
      Walk rowBudget segmentOverlap costs start ((start, stop) :: blocks)

/-- Each block begins after the one before, so the walk comes to the last row. -/
theorem blocksFrom_walk (hfits : ∀ cost ∈ costs, (cost : Int) ≤ rowBudget) (segmentOverlap : Nat) {start : Nat}
    (hstart : start < costs.length) :
    ∃ blocks, blocksFrom rowBudget segmentOverlap costs start = .ok blocks ∧
      Walk rowBudget segmentOverlap costs start blocks := by
  obtain ⟨stop, hfilled, hblocks⟩ := blocksFrom_filled hfits segmentOverlap hstart
  by_cases hlast : stop = costs.length
  · rw [if_pos hlast] at hblocks
    exact ⟨_, hblocks, hlast ▸ .last (hlast ▸ hfilled)⟩
  · have hmore : stop < costs.length := lt_of_le_of_ne hfilled.bounded hlast
    have hnext := start_lt_nextStart segmentOverlap hfilled.advances
    obtain ⟨blocks, hrest, hwalk⟩ := blocksFrom_walk hfits segmentOverlap (lt_of_le_of_lt nextStart_le hmore)
    refine ⟨(start, stop) :: blocks, ?_, .more hfilled hmore hwalk⟩
    rw [hblocks, if_neg hlast, hrest]
    rfl
termination_by costs.length - start

theorem Walk.head {start : Nat} {blocks : List (Nat × Nat)} (h : Walk rowBudget segmentOverlap costs start blocks) :
    ∃ stop rest, blocks = (start, stop) :: rest ∧ Fills rowBudget costs start stop := by
  cases h with
  | last filled => exact ⟨_, _, rfl, filled⟩
  | more filled remain rest => exact ⟨_, _, rfl, filled⟩

theorem Walk.unique {start : Nat} {blocks blocks' : List (Nat × Nat)}
    (h : Walk rowBudget segmentOverlap costs start blocks) (h' : Walk rowBudget segmentOverlap costs start blocks') :
    blocks = blocks' := by
  induction h generalizing blocks' with
  | last filled =>
    cases h' with
    | last _ => rfl
    | more filled' remain _ => exact absurd (filled.unique filled') remain.ne'
  | more filled remain rest ih =>
    cases h' with
    | last filled' => exact absurd (filled'.unique filled) remain.ne'
    | more filled' _ rest' =>
      obtain rfl := filled.unique filled'
      rw [ih rest']

theorem Walk.filled {start : Nat} {blocks : List (Nat × Nat)} (h : Walk rowBudget segmentOverlap costs start blocks) :
    ∀ block ∈ blocks, start ≤ block.1 ∧ Fills rowBudget costs block.1 block.2 := by
  induction h with
  | last filled => exact List.forall_mem_singleton.mpr ⟨le_rfl, filled⟩
  | more filled remain rest ih =>
    have hnext := start_lt_nextStart segmentOverlap filled.advances
    refine List.forall_mem_cons.mpr ⟨⟨le_rfl, filled⟩, fun block hm => ?_⟩
    exact ⟨(hnext.trans_le (ih block hm).1).le, (ih block hm).2⟩

theorem Walk.starts {start : Nat} {blocks : List (Nat × Nat)} (h : Walk rowBudget segmentOverlap costs start blocks) :
    (blocks.map Prod.fst).Pairwise (· < ·) := by
  induction h with
  | last filled => exact List.pairwise_singleton _ _
  | more filled remain rest ih =>
    have hnext := start_lt_nextStart segmentOverlap filled.advances
    rw [List.map_cons, List.pairwise_cons]
    refine ⟨fun later hlater => ?_, ih⟩
    obtain ⟨block, hm, rfl⟩ := List.mem_map.mp hlater
    exact hnext.trans_le (rest.filled block hm).1

/-- The walk comes to the last row and passes over none. -/
theorem Walk.last_stop {start : Nat} {blocks : List (Nat × Nat)}
    (h : Walk rowBudget segmentOverlap costs start blocks) : blocks.getLast?.map Prod.snd = some costs.length := by
  induction h with
  | last filled => rfl
  | more filled remain rest ih =>
    obtain ⟨stop, blocks, rfl, _⟩ := rest.head
    rw [List.getLast?_cons_cons]
    exact ih

theorem Walk.covers {start : Nat} {blocks : List (Nat × Nat)} (h : Walk rowBudget segmentOverlap costs start blocks)
    {row : Nat} (hstart : start ≤ row) (hrow : row < costs.length) :
    ∃ block ∈ blocks, block.1 ≤ row ∧ row < block.2 := by
  induction h with
  | last filled => exact ⟨_, List.mem_singleton_self _, hstart, hrow⟩
  | more filled remain rest ih =>
    rename_i stop _
    by_cases hstop : row < stop
    · exact ⟨_, List.mem_cons_self, hstart, hstop⟩
    · obtain ⟨block, hm, hin⟩ := ih (nextStart_le.trans (not_lt.mp hstop))
      exact ⟨block, List.mem_cons_of_mem _ hm, hin⟩

/-- What holds of every filled block and the block filled after it holds all along a walk. -/
theorem Walk.chain {R : Nat × Nat → Nat × Nat → Prop} {start : Nat} {blocks : List (Nat × Nat)}
    (h : Walk rowBudget segmentOverlap costs start blocks)
    (hR : ∀ start stop stop', Fills rowBudget costs start stop →
      Fills rowBudget costs (nextStart segmentOverlap start stop) stop' →
      R (start, stop) (nextStart segmentOverlap start stop, stop')) : blocks.IsChain R := by
  induction h with
  | last filled => exact List.IsChain.singleton _
  | more filled remain rest ih =>
    obtain ⟨stop, blocks, rfl, hnext⟩ := rest.head
    exact List.isChain_cons_cons.mpr ⟨hR _ _ _ filled hnext, ih⟩

/-- A block that begins in another one does not end before it. -/
theorem Fills.stop_le {start stop stop' : Nat} (h : Fills rowBudget costs start stop)
    (h' : Fills rowBudget costs (nextStart segmentOverlap start stop) stop') : stop ≤ stop' := by
  by_contra hlt
  have hfull := h'.full (by have := h.bounded; omega)
  have hstart := start_lt_nextStart segmentOverlap h.advances
  have hwithin : rowsCost costs (nextStart segmentOverlap start stop) (stop' + 1) ≤ rowsCost costs start stop :=
    rowsCost_mono hstart.le (by omega)
  have hfits := h.fits
  omega

end Walk

section Plan
variable {rowBudget : Int} {segmentOverlap : Nat} {costs : List Nat}

/-- What the blocks of a transcript are for: all of its rows, in order, within the budget. -/
structure BlockPlan (rowBudget : Int) (costs : List Nat) (blocks : List (Nat × Nat)) : Prop where
  covers : ∀ row < costs.length, ∃ block ∈ blocks, block.1 ≤ row ∧ row < block.2
  within : ∀ block ∈ blocks, block.1 < block.2 ∧ block.2 ≤ costs.length ∧ rowsCost costs block.1 block.2 ≤ rowBudget
  starts : (blocks.map Prod.fst).Pairwise (· < ·)
  stops : blocks.IsChain fun before after => before.2 ≤ after.2
  overlaps : blocks.IsChain fun before after => after.1 ≤ before.2
  first : costs ≠ [] → blocks.head?.map Prod.fst = some 0
  last : costs ≠ [] → blocks.getLast?.map Prod.snd = some costs.length
  empty : costs = [] → blocks = []

theorem Walk.plan {blocks : List (Nat × Nat)} (h : Walk rowBudget segmentOverlap costs 0 blocks) :
    BlockPlan rowBudget costs blocks where
  covers _ hrow := h.covers (Nat.zero_le _) hrow
  within block hm :=
    have hfilled := (h.filled block hm).2
    ⟨hfilled.advances, hfilled.bounded, hfilled.fits⟩
  starts := h.starts
  stops := h.chain fun _ _ _ hfilled hnext => hfilled.stop_le hnext
  overlaps := h.chain fun _ _ _ _ _ => nextStart_le
  first _ := by
    obtain ⟨stop, rest, rfl, _⟩ := h.head
    rfl
  last _ := h.last_stop
  empty hempty := by
    obtain ⟨stop, rest, rfl, hfilled⟩ := h.head
    have hadvances := hfilled.advances
    have hbounded := hfilled.bounded
    rw [hempty, List.length_nil] at hbounded
    omega

theorem blocksFrom_nil (rowBudget : Int) (segmentOverlap : Nat) : blocksFrom rowBudget segmentOverlap [] 0 = .ok [] := by
  rw [blocksFrom]
  rfl

/-- The budget of the rows of a prompt. -/
def rowBudgetOf {G : Type} (segmenter : SemanticSegmenter G) (refinement topicAudit : Bool) (limitTokens : Option Int) :
    Int :=
  orDefault limitTokens segmenter.blockTokens - promptOverhead refinement topicAudit

theorem blocks_eq {G : Type} {segmenter : SemanticSegmenter G} {items : List TranscriptSegmentItem}
    {refinement topicAudit : Bool} {limitTokens : Option Int}
    (h : 0 < rowBudgetOf segmenter refinement topicAudit limitTokens) :
    blocks segmenter items refinement topicAudit limitTokens =
      blocksFrom (rowBudgetOf segmenter refinement topicAudit limitTokens) segmenter.segmentOverlap
        (items.map itemTokenCost) 0 := by
  rw [blocks]
  change (require _ (decide (0 < rowBudgetOf segmenter refinement topicAudit limitTokens)) >>= fun _ => _) = _
  rw [decide_eq_true h]
  rfl

/-- Three short rows and a long one. -/
def unevenRows : List TranscriptSegmentItem :=
  [⟨"row-0", 0, 0, 900, "hold", none⟩, ⟨"row-1", 1, 900, 1700, "wait", none⟩, ⟨"row-2", 2, 1700, 2500, "then", none⟩,
    ⟨"row-3", 3, 2500, 9000, "the yield curve is what decides which of the sectors lead", none⟩]

theorem unevenRows_costs : unevenRows.map itemTokenCost = [9, 9, 9, 22] := by decide

theorem unevenRows_fit : ∀ cost ∈ unevenRows.map itemTokenCost, (cost : Int) ≤ 27 := by
  rw [unevenRows_costs]
  decide

/-- Whatever the rows cost, as long as each fits the budget by itself, they are all asked about. -/
theorem blocks_cover {rowBudget : Int} {costs : List Nat} (hfits : ∀ cost ∈ costs, (cost : Int) ≤ rowBudget)
    (segmentOverlap : Nat) :
    ∃ plan, blocksFrom rowBudget segmentOverlap costs 0 = .ok plan ∧ BlockPlan rowBudget costs plan ∧
      ∀ (G : Type) (segmenter : SemanticSegmenter G) (items : List TranscriptSegmentItem) (refinement topicAudit : Bool)
        (limitTokens : Option Int), items.map itemTokenCost = costs → segmenter.segmentOverlap = segmentOverlap →
        rowBudgetOf segmenter refinement topicAudit limitTokens = rowBudget → 0 < rowBudget →
          blocks segmenter items refinement topicAudit limitTokens = .ok plan := by
  obtain ⟨plan, hplan, hsound⟩ : ∃ plan, blocksFrom rowBudget segmentOverlap costs 0 = .ok plan ∧
      BlockPlan rowBudget costs plan := by
    rcases costs.eq_nil_or_concat with rfl | ⟨_, _, hcosts⟩
    · exact ⟨[], blocksFrom_nil _ _, ⟨nofun, nofun, .nil, .nil, .nil, fun h => absurd rfl h, fun h => absurd rfl h,
        fun _ => rfl⟩⟩
    · obtain ⟨plan, hplan, hwalk⟩ := blocksFrom_walk hfits segmentOverlap (show 0 < costs.length by simp [hcosts])
      exact ⟨plan, hplan, hwalk.plan⟩
  refine ⟨plan, hplan, hsound, ?_⟩
  intro G segmenter items refinement topicAudit limitTokens hcosts hoverlap hbudget hpos
  rw [blocks_eq (hbudget ▸ hpos), hcosts, hoverlap, hbudget, hplan]

theorem blocks_cover_uneven :
    ∃ plan, blocksFrom 27 2 (unevenRows.map itemTokenCost) 0 = .ok plan ∧
      BlockPlan 27 (unevenRows.map itemTokenCost) plan := by
  obtain ⟨plan, hplan, hsound, _⟩ := blocks_cover unevenRows_fit 2
  exact ⟨plan, hplan, hsound⟩

end Plan

section Advance
variable {rowBudget : Int} {segmentOverlap : Nat} {costs : List Nat}

/-- The rows at which a block begins, when a block holds as many rows as the budget does and
the next one goes back by the overlap. -/
inductive Reached (rowBudget : Int) (segmentOverlap : Nat) (costs : List Nat) : Nat → Nat → Prop
  | here {start : Nat} : Reached rowBudget segmentOverlap costs start start
  | later {start stop row : Nat} (filled : Fills rowBudget costs start stop) (remain : stop < costs.length)
      (rest : Reached rowBudget segmentOverlap costs (nextStart segmentOverlap start stop) row) :
      Reached rowBudget segmentOverlap costs start row

/-- Wherever the rows of a block end before the transcript does, the overlap leaves room for one more row. -/
def OverlapsFit (rowBudget : Int) (segmentOverlap : Nat) (costs : List Nat) (start : Nat) : Prop :=
  ∀ row stop, Reached rowBudget segmentOverlap costs start row → Fills rowBudget costs row stop → stop < costs.length →
    rowsCost costs (nextStart segmentOverlap row stop) (stop + 1) ≤ rowBudget

theorem overlapsFit_last {start : Nat} (h : Fills rowBudget costs start costs.length) :
    OverlapsFit rowBudget segmentOverlap costs start := by
  intro row stop hreached hfilled hmore
  cases hreached with
  | here => exact absurd (h.unique hfilled) hmore.ne'
  | later filled remain rest => exact absurd (h.unique filled) remain.ne'

theorem overlapsFit_more {start stop : Nat} (h : Fills rowBudget costs start stop) (hmore : stop < costs.length) :
    OverlapsFit rowBudget segmentOverlap costs start ↔
      rowsCost costs (nextStart segmentOverlap start stop) (stop + 1) ≤ rowBudget ∧
        OverlapsFit rowBudget segmentOverlap costs (nextStart segmentOverlap start stop) := by
  constructor
  · intro hfit
    exact ⟨hfit _ _ .here h hmore, fun row stop hreached => hfit row stop (.later h hmore hreached)⟩
  · rintro ⟨hroom, hrest⟩ row stop' hreached hfilled hmore'
    cases hreached with
    | here =>
      obtain rfl := h.unique hfilled
      exact hroom
    | later filled remain rest =>
      obtain rfl := h.unique filled
      exact hrest row stop' rest hfilled hmore'

theorem Walk.ends_later_iff {start : Nat} {blocks : List (Nat × Nat)}
    (h : Walk rowBudget segmentOverlap costs start blocks) :
    (blocks.IsChain fun before after => before.2 < after.2) ↔ OverlapsFit rowBudget segmentOverlap costs start := by
  induction h with
  | last filled => exact iff_of_true (List.IsChain.singleton _) (overlapsFit_last filled)
  | more filled remain rest ih =>
    obtain ⟨stop, blocks, rfl, hnext⟩ := rest.head
    rw [List.isChain_cons_cons, overlapsFit_more filled remain, ih, hnext.ends_later_iff remain]

/-- Every block ends after the one before exactly if each overlap leaves room for the row that comes next. -/
theorem blocks_advance_iff {rowBudget : Int} {costs : List Nat} (hfits : ∀ cost ∈ costs, (cost : Int) ≤ rowBudget)
    (segmentOverlap : Nat) :
    ∃ plan, blocksFrom rowBudget segmentOverlap costs 0 = .ok plan ∧
      ((plan.IsChain fun before after => before.2 < after.2) ↔ OverlapsFit rowBudget segmentOverlap costs 0) := by
  rcases costs.eq_nil_or_concat with rfl | ⟨_, _, hcosts⟩
  · refine ⟨[], blocksFrom_nil _ _, iff_of_true .nil fun row stop _ hfilled => ?_⟩
    exact absurd (hfilled.advances.trans_le hfilled.bounded) (Nat.not_lt_zero _)
  · obtain ⟨plan, hplan, hwalk⟩ := blocksFrom_walk hfits segmentOverlap (show 0 < costs.length by simp [hcosts])
    exact ⟨plan, hplan, hwalk.ends_later_iff⟩

/-- The long row does not fit next to the overlap: the second block is a row that was in the first. -/
theorem uneven_block_does_not_advance :
    (∀ cost ∈ unevenRows.map itemTokenCost, (cost : Int) ≤ 27) ∧
      blocksFrom 27 2 (unevenRows.map itemTokenCost) 0 = .ok [(0, 3), (2, 3), (3, 4)] ∧
      ¬ [(0, 3), (2, 3), (3, 4)].IsChain fun before after : Nat × Nat => before.2 < after.2 := by
  refine ⟨unevenRows_fit, ?_, by decide⟩
  obtain ⟨plan, hplan, hwalk⟩ := blocksFrom_walk unevenRows_fit 2 (show 0 < _ by rw [unevenRows_costs]; decide)
  rw [hplan]
  rw [unevenRows_costs] at hwalk
  have huneven : Walk 27 2 [9, 9, 9, 22] 0 [(0, 3), (2, 3), (3, 4)] :=
    .more ⟨by decide, by decide, by decide, by decide⟩ (by decide)
      (.more ⟨by decide, by decide, by decide, by decide⟩ (by decide)
        (.last ⟨by decide, by decide, by decide, by decide⟩))
  rw [hwalk.unique huneven]

/-- Without an overlap there is room for the next row. -/
theorem blocks_advance_uneven :
    ∃ plan, blocksFrom 27 0 (unevenRows.map itemTokenCost) 0 = .ok plan ∧
      plan.IsChain fun before after => before.2 < after.2 := by
  obtain ⟨plan, hplan, hiff⟩ := blocks_advance_iff unevenRows_fit 0
  refine ⟨plan, hplan, hiff.mpr fun row stop _ hfilled hmore => ?_⟩
  have hnext : nextStart 0 row stop = stop := by simp [nextStart]
  rw [hnext, rowsCost_single hmore]
  exact unevenRows_fit _ (List.getElem_mem hmore)

end Advance
end StockContent.Segmentation
