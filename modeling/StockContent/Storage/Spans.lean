import Mathlib.Algebra.BigOperators.Group.List.Basic
import Mathlib.Data.Int.Interval
import Mathlib.Data.List.Basic
import Mathlib.Order.Bounds.Basic

/-! Half-open spans of whole numbers: what they cover, how much that is, and the gaps they leave. Ranges of positions
that follow one another without gap or overlap. -/
namespace StockContent.Storage

/-- The whole numbers from the first one on, up to the second one but without it. -/
abbrev Span := Int × Int

def Span.length (span : Span) : Int := span.2 - span.1

/-- The numbers of a span. The order is named because another one on the integers is not computable. -/
def Span.points (span : Span) : Finset Int :=
  @Finset.Ico Int Int.instLinearOrder.toPreorder Int.instLocallyFiniteOrder span.1 span.2

section Covered
variable (spans : List Span) (first last : Int)

def Covers (t : Int) : Prop := ∃ span ∈ spans, span.1 ≤ t ∧ t < span.2

instance (t : Int) : Decidable (Covers spans t) :=
  inferInstanceAs (Decidable (∃ span ∈ spans, span.1 ≤ t ∧ t < span.2))

def covered : Finset Int := (Span.points (first, last)).filter (Covers spans)

/-- A stretch between the ends that no span reaches into. -/
def Uncovered (stretch : Span) : Prop :=
  first ≤ stretch.1 ∧ stretch.1 ≤ stretch.2 ∧ stretch.2 ≤ last ∧ ∀ t, stretch.1 ≤ t → t < stretch.2 → ¬ Covers spans t

/-- Spans between the ends, each after the one before. -/
structure Apart : Prop where
  pairwise : spans.Pairwise fun earlier later => earlier.2 ≤ later.1
  forward : ∀ span ∈ spans, span.1 ≤ span.2
  within : ∀ span ∈ spans, first ≤ span.1 ∧ span.2 ≤ last

/-- What lies before the first span, between neighbours and after the last one. -/
def gapsFrom (last : Int) : Int → List Span → List Span
  | cursor, [] => [(cursor, last)]
  | cursor, span :: rest => (cursor, span.1) :: gapsFrom last span.2 rest

end Covered

variable {spans others : List Span} {span stretch : Span} {first last t : Int}

@[simp] theorem Span.mem_points : t ∈ span.points ↔ span.1 ≤ t ∧ t < span.2 := Finset.mem_Ico

@[simp] theorem Span.card_points (span : Span) : span.points.card = (span.2 - span.1).toNat := Int.card_Ico _ _

theorem not_covers_nil (t : Int) : ¬ Covers [] t := by
  rintro ⟨_, hmem, _⟩
  exact List.not_mem_nil hmem

theorem covers_cons : Covers (span :: spans) t ↔ (span.1 ≤ t ∧ t < span.2) ∨ Covers spans t := by
  simp only [Covers, List.mem_cons, exists_eq_or_imp]

theorem covers_append : Covers (spans ++ others) t ↔ Covers spans t ∨ Covers others t := by
  simp only [Covers, List.mem_append, or_and_right, exists_or]

theorem covers_singleton : Covers [span] t ↔ span.1 ≤ t ∧ t < span.2 := by
  simp only [Covers, List.mem_singleton, exists_eq_left]

theorem covered_congr (h : ∀ t, first ≤ t → t < last → (Covers spans t ↔ Covers others t)) :
    covered spans first last = covered others first last :=
  Finset.filter_congr fun t ht => h t (Span.mem_points.mp ht).1 (Span.mem_points.mp ht).2

theorem Uncovered.congr (h : ∀ t, first ≤ t → t < last → (Covers spans t ↔ Covers others t))
    (hstretch : Uncovered spans first last stretch) : Uncovered others first last stretch := by
  obtain ⟨hstart, hordered, hstop, hnone⟩ := hstretch
  refine ⟨hstart, hordered, hstop, fun t htstart htstop => ?_⟩
  rw [← h t (hstart.trans htstart) (htstop.trans_le hstop)]
  exact hnone t htstart htstop

theorem card_covered_le (spans : List Span) (h : first ≤ last) :
    ((covered spans first last).card : Int) ≤ last - first := by
  have hcard : (covered spans first last).card ≤ (Span.points (first, last)).card := Finset.card_filter_le _ _
  rw [Span.card_points] at hcard
  dsimp only at hcard
  omega

namespace Apart

theorem tail (h : Apart (span :: spans) first last) : Apart spans span.2 last where
  pairwise := (List.pairwise_cons.mp h.pairwise).2
  forward := fun other hother => h.forward other (List.mem_cons_of_mem _ hother)
  within := fun other hother => ⟨(List.pairwise_cons.mp h.pairwise).1 other hother,
    (h.within other (List.mem_cons_of_mem _ hother)).2⟩

theorem head (h : Apart (span :: spans) first last) : first ≤ span.1 ∧ span.1 ≤ span.2 ∧ span.2 ≤ last := by
  have hmem : span ∈ span :: spans := List.mem_cons_self
  exact ⟨(h.within span hmem).1, h.forward span hmem, (h.within span hmem).2⟩

theorem le_of_covers (h : Apart spans first last) (ht : Covers spans t) : first ≤ t := by
  obtain ⟨other, hother, hstart, _⟩ := ht
  exact (h.within other hother).1.trans hstart

/-- Spans apart from each other cover as much as they are long. -/
theorem card_covered (h : Apart spans first last) :
    ((covered spans first last).card : Int) = (spans.map Span.length).sum := by
  induction spans generalizing first with
  | nil =>
    have hnone : covered [] first last = ∅ := Finset.filter_eq_empty_iff.mpr fun t _ => not_covers_nil t
    rw [hnone]
    rfl
  | cons span rest ih =>
    obtain ⟨hfirst, hforward, hlast⟩ := h.head
    have hsplit : covered (span :: rest) first last = span.points ∪ covered rest span.2 last := by
      ext t
      simp only [covered, Finset.mem_filter, Finset.mem_union, Span.mem_points, covers_cons]
      constructor
      · rintro ⟨⟨_, htlast⟩, hin | hrest⟩
        · exact .inl hin
        · exact .inr ⟨⟨h.tail.le_of_covers hrest, htlast⟩, hrest⟩
      · rintro (hin | ⟨⟨htfirst, htlast⟩, hrest⟩)
        · exact ⟨⟨by omega, by omega⟩, .inl hin⟩
        · exact ⟨⟨by omega, htlast⟩, .inr hrest⟩
    have hdisjoint : Disjoint span.points (covered rest span.2 last) := by
      rw [Finset.disjoint_left]
      intro t hin hrest
      simp only [covered, Finset.mem_filter, Span.mem_points] at hin hrest
      omega
    rw [hsplit, Finset.card_union_of_disjoint hdisjoint, Span.card_points, Nat.cast_add, ih h.tail, List.map_cons,
      List.sum_cons, Span.length, Int.toNat_of_nonneg (Int.sub_nonneg.mpr hforward)]

theorem uncovered_of_mem_gapsFrom (h : Apart spans first last) (hends : first ≤ last)
    (hgap : stretch ∈ gapsFrom last first spans) : Uncovered spans first last stretch := by
  induction spans generalizing first with
  | nil =>
    obtain rfl := List.mem_singleton.mp hgap
    exact ⟨le_refl _, hends, le_refl _, fun t _ _ => not_covers_nil t⟩
  | cons span rest ih =>
    obtain ⟨hfirst, hforward, hlast⟩ := h.head
    rcases List.mem_cons.mp hgap with rfl | hrest
    · refine ⟨le_refl _, hfirst, by omega, fun t _ ht => ?_⟩
      rw [covers_cons]
      rintro (hin | hin)
      · omega
      · have := h.tail.le_of_covers hin
        omega
    · obtain ⟨hstart, hends, hstop, hnone⟩ := ih h.tail hlast hrest
      refine ⟨by omega, hends, hstop, fun t htstart htstop => ?_⟩
      rw [covers_cons]
      rintro (hin | hin)
      · omega
      · exact hnone t htstart htstop hin

/-- No stretch without a span is longer than all gaps, unless an empty span splits a gap in two. -/
theorem exists_gap_of_uncovered (h : Apart spans first last) (hproper : ∀ span ∈ spans, span.1 < span.2 ∨ span.1 = last)
    (hstretch : Uncovered spans first last stretch) : ∃ gap ∈ gapsFrom last first spans, stretch.length ≤ gap.length := by
  obtain ⟨hstart, hordered, hstop, hnone⟩ := hstretch
  induction spans generalizing first with
  | nil =>
    refine ⟨(first, last), List.mem_singleton_self _, ?_⟩
    simp only [Span.length]
    omega
  | cons span rest ih =>
    obtain ⟨hfirst, hforward, _⟩ := h.head
    have hspan := hproper span List.mem_cons_self
    by_cases hbefore : stretch.2 ≤ span.1 ∨ stretch.1 = stretch.2
    · refine ⟨(first, span.1), List.mem_cons_self, ?_⟩
      simp only [Span.length]
      omega
    · -- The stretch reaches past the start of the span, so that it begins after its end.
      have hafter : span.2 ≤ stretch.1 := by
        by_contra hinside
        refine hnone (max stretch.1 span.1) (le_max_left _ _) (by omega) (covers_cons.mpr (.inl ⟨le_max_right _ _, ?_⟩))
        omega
      obtain ⟨gap, hgap, hlength⟩ := ih h.tail (fun other hother => hproper other (List.mem_cons_of_mem _ hother)) hafter
        fun t htstart htstop hcovers => hnone t htstart htstop (covers_cons.mpr (.inr hcovers))
      exact ⟨gap, List.mem_cons_of_mem _ hgap, hlength⟩

/-- The longest gap is the longest stretch without a span. -/
theorem isGreatest_gap (h : Apart spans first last) (hends : first ≤ last)
    (hproper : ∀ span ∈ spans, span.1 < span.2 ∨ span.1 = last) {longest : Int}
    (hmem : longest ∈ (gapsFrom last first spans).map Span.length)
    (hmax : ∀ n ∈ (gapsFrom last first spans).map Span.length, n ≤ longest) :
    IsGreatest {n | ∃ stretch, Uncovered spans first last stretch ∧ stretch.length = n} longest := by
  constructor
  · obtain ⟨gap, hgap, hlength⟩ := List.mem_map.mp hmem
    exact ⟨gap, h.uncovered_of_mem_gapsFrom hends hgap, hlength⟩
  · rintro n ⟨stretch, hstretch, rfl⟩
    obtain ⟨gap, hgap, hle⟩ := h.exists_gap_of_uncovered hproper hstretch
    exact hle.trans (hmax _ (List.mem_map_of_mem hgap))

end Apart
/-- Inclusive ranges from `start` on, each beginning right after the one before; `stop` is
the first position after the last of them. -/
def Consecutive : Nat → List (Nat × Nat) → Nat → Prop
  | start, [], stop => start = stop
  | start, range :: ranges, stop => range.1 = start ∧ range.1 ≤ range.2 ∧ Consecutive (range.2 + 1) ranges stop

namespace Consecutive
variable {start stop : Nat} {ranges : List (Nat × Nat)}

theorem start_le (h : Consecutive start ranges stop) : start ≤ stop := by
  induction ranges generalizing start with
  | nil => exact Nat.le_of_eq h
  | cons range ranges ih =>
    obtain ⟨rfl, hrange, hrest⟩ := h
    exact Nat.le_of_succ_le (Nat.le_trans (Nat.succ_le_succ hrange) (ih hrest))

/-- Every range lies between the ends, its last position before `stop`. -/
theorem bounds (h : Consecutive start ranges stop) :
    ∀ range ∈ ranges, start ≤ range.1 ∧ range.1 ≤ range.2 ∧ range.2 < stop := by
  induction ranges generalizing start with
  | nil => exact List.forall_mem_nil _
  | cons range ranges ih =>
    obtain ⟨rfl, hrange, hrest⟩ := h
    refine List.forall_mem_cons.mpr ⟨⟨Nat.le_refl _, hrange, start_le hrest⟩, fun other hother => ?_⟩
    obtain ⟨hfirst, hlast⟩ := ih hrest other hother
    exact ⟨by omega, hlast⟩

/-- Of two ranges the earlier one ends before the later one begins. -/
theorem disjoint (h : Consecutive start ranges stop) : ranges.Pairwise fun earlier later => earlier.2 < later.1 := by
  induction ranges generalizing start with
  | nil => exact List.Pairwise.nil
  | cons range ranges ih =>
    obtain ⟨_, _, hrest⟩ := h
    exact List.pairwise_cons.mpr ⟨fun later hlater => (bounds hrest later hlater).1, ih hrest⟩

/-- The ends of the ranges are strictly ascending. -/
theorem ends_ascending (h : Consecutive start ranges stop) : (ranges.map Prod.snd).Pairwise (· < ·) := by
  induction ranges generalizing start with
  | nil => exact List.Pairwise.nil
  | cons range ranges ih =>
    obtain ⟨_, _, hrest⟩ := h
    rw [List.map_cons, List.pairwise_cons]
    refine ⟨fun last hlast => ?_, ih hrest⟩
    obtain ⟨other, hother, rfl⟩ := List.mem_map.mp hlast
    have hbounds := bounds hrest other hother
    omega

/-- Every position between the ends is in exactly one of the ranges. -/
theorem once (h : Consecutive start ranges stop) {i : Nat} (hstart : start ≤ i) (hstop : i < stop) :
    ∃! k : Nat, ∃ range : Nat × Nat, ranges[k]? = some range ∧ range.1 ≤ i ∧ i ≤ range.2 := by
  induction ranges generalizing start with
  | nil =>
    have : start = stop := h
    omega
  | cons range ranges ih =>
    obtain ⟨rfl, _, hrest⟩ := h
    by_cases hi : i ≤ range.2
    · refine ⟨0, ⟨range, rfl, hstart, hi⟩, fun k hk => ?_⟩
      obtain ⟨other, hother, hfirst, _⟩ := hk
      cases k with
      | zero => rfl
      | succ k =>
        have hbounds := bounds hrest other (List.mem_of_getElem? hother)
        omega
    · obtain ⟨k, ⟨other, hother, hin⟩, hunique⟩ := ih hrest (Nat.lt_of_not_le hi)
      refine ⟨k + 1, ⟨other, hother, hin⟩, fun j hj => ?_⟩
      obtain ⟨found, hfound, hfirst, hlast⟩ := hj
      cases j with
      | zero =>
        cases hfound
        exact absurd hlast hi
      | succ j => rw [hunique j ⟨found, hfound, hfirst, hlast⟩]

end Consecutive
end StockContent.Storage
