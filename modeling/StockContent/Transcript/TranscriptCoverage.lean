import Mathlib.Algebra.Order.BigOperators.Group.List
import StockContent.Transcript.TranscriptQuality

/-! What a report says of coverage and gaps. The sweep merges spans in the order of their starts; each step keeps what is
covered, and counts what was covered before as overlap. A segment that begins after the end of the video becomes a span
that runs backwards. -/
namespace StockContent.Transcript
open Storage Text Numeric

section Steps
variable {spans union : List Span} {span last : Span} {state : Sweep} {durationMs : Int}

/-- What the sweep has of the spans it has seen. -/
structure Swept (spans : List Span) (durationMs : Int) (state : Sweep) : Prop where
  covers : ∀ t, Covers state.union t ↔ Covers spans t
  apart : Apart state.union 0 durationMs
  proper : ∀ span ∈ state.union, span.1 < span.2 ∨ span.1 = durationMs
  total : coveredMs state.union + state.overlap = (spans.map Span.length).sum
  starts : ∀ span ∈ state.union, ∃ seen ∈ spans, span.1 = seen.1

/-- A span of the video, empty only at its end. -/
def InVideo (durationMs : Int) (span : Span) : Prop :=
  0 ≤ span.1 ∧ span.1 ≤ span.2 ∧ span.2 ≤ durationMs ∧ (span.1 < span.2 ∨ span.1 = durationMs)

theorem coveredMs_append (spans others : List Span) : coveredMs (spans ++ others) = coveredMs spans + coveredMs others := by
  rw [coveredMs, List.map_append, List.sum_append]
  rfl

theorem coveredMs_singleton (span : Span) : coveredMs [span] = span.2 - span.1 := by
  rw [coveredMs, List.map_singleton, List.sum_singleton]
  rfl

theorem apart_append_singleton (h : Apart union 0 durationMs) (hspan : InVideo durationMs span)
    (hafter : ∀ earlier ∈ union, earlier.2 ≤ span.1) : Apart (union ++ [span]) 0 durationMs where
  pairwise := List.pairwise_append.mpr ⟨h.pairwise, List.pairwise_singleton _ _, fun earlier hearlier _ hlater =>
    List.mem_singleton.mp hlater ▸ hafter earlier hearlier⟩
  forward := List.forall_mem_append.mpr ⟨h.forward, List.forall_mem_singleton.mpr hspan.2.1⟩
  within := List.forall_mem_append.mpr ⟨h.within, List.forall_mem_singleton.mpr ⟨hspan.1, hspan.2.2.1⟩⟩

/-- Nothing before the last span reaches into it. -/
theorem before_last (h : Apart (union ++ [last]) 0 durationMs) : ∀ earlier ∈ union, earlier.2 ≤ last.1 :=
  fun earlier hearlier => (List.pairwise_append.mp h.pairwise).2.2 earlier hearlier last (List.mem_singleton_self _)

theorem apart_of_append (h : Apart (union ++ [last]) 0 durationMs) : Apart union 0 durationMs where
  pairwise := (List.pairwise_append.mp h.pairwise).1
  forward := (List.forall_mem_append.mp h.forward).1
  within := (List.forall_mem_append.mp h.within).1

theorem place_none (h : state.union = []) (span : Span) : state.place span = ⟨[span], state.overlap⟩ := by
  rw [Sweep.place, h]
  rfl

theorem place_some (h : state.union = union ++ [last]) (span : Span) : state.place span =
    if last.2 < span.1 then ⟨state.union ++ [span], state.overlap⟩
    else ⟨union ++ [(last.1, max last.2 span.2)], state.overlap + max 0 (min span.2 last.2 - span.1)⟩ := by
  rw [Sweep.place, h, List.getLast?_concat, List.dropLast_concat]

/-- One step: the next span begins no earlier than all before. -/
theorem Swept.place (h : Swept spans durationMs state) (hspan : InVideo durationMs span)
    (hsorted : ∀ seen ∈ spans, seen.1 ≤ span.1) : Swept (spans ++ [span]) durationMs (state.place span) := by
  have htotal := h.total
  have hlength : ((spans ++ [span]).map Span.length).sum = (spans.map Span.length).sum + (span.2 - span.1) := by
    rw [List.map_append, List.sum_append, List.map_singleton, List.sum_singleton, Span.length]
  have hnew : ∃ seen ∈ spans ++ [span], span.1 = seen.1 :=
    ⟨span, List.mem_append_right _ (List.mem_singleton_self _), rfl⟩
  have hold : ∀ start, (∃ seen ∈ spans, start = seen.1) → ∃ seen ∈ spans ++ [span], start = seen.1 :=
    fun _ hseen => hseen.imp fun _ hseen => ⟨List.mem_append_left _ hseen.1, hseen.2⟩
  obtain hnil | ⟨union, last, hunion⟩ := List.eq_nil_or_concat state.union
  · rw [place_none hnil]
    rw [hnil] at htotal
    exact {
      covers := fun t => by
        rw [covers_append, ← h.covers t, hnil]
        exact (or_iff_right (not_covers_nil t)).symm
      apart := by
        have hempty : Apart [] 0 durationMs := hnil ▸ h.apart
        exact apart_append_singleton hempty hspan (List.forall_mem_nil _)
      proper := List.forall_mem_singleton.mpr hspan.2.2.2
      total := by
        rw [hlength, ← htotal, coveredMs_singleton]
        have : coveredMs [] = 0 := rfl
        dsimp only
        omega
      starts := List.forall_mem_singleton.mpr hnew }
  · rw [List.concat_eq_append] at hunion
    rw [place_some hunion]
    have hapart : Apart (union ++ [last]) 0 durationMs := hunion ▸ h.apart
    have hlastmem : last ∈ state.union := hunion ▸ List.mem_append_right _ (List.mem_singleton_self _)
    have hlast := h.apart.forward last hlastmem
    have hbefore := before_last hapart
    split
    · rename_i hgap
      exact {
        covers := fun t => by rw [covers_append, covers_append, h.covers t]
        apart := by
          refine apart_append_singleton h.apart hspan ?_
          rw [hunion]
          refine List.forall_mem_append.mpr ⟨fun earlier hearlier => ?_, List.forall_mem_singleton.mpr hgap.le⟩
          exact (hbefore earlier hearlier).trans (hlast.trans hgap.le)
        proper := List.forall_mem_append.mpr ⟨h.proper, List.forall_mem_singleton.mpr hspan.2.2.2⟩
        total := by
          rw [hlength, ← htotal, coveredMs_append, coveredMs_singleton]
          dsimp only
          omega
        starts := List.forall_mem_append.mpr
          ⟨fun earlier hearlier => hold _ (h.starts earlier hearlier), List.forall_mem_singleton.mpr hnew⟩ }
    · rename_i hmeets
      obtain ⟨seen, hseen, hstart⟩ := h.starts last hlastmem
      have hordered : last.1 ≤ span.1 := hstart ▸ hsorted seen hseen
      have hend := (h.apart.within last hlastmem).2
      have hmerged : InVideo durationMs (last.1, max last.2 span.2) := by
        have := (h.apart.within last hlastmem).1
        have := h.proper last hlastmem
        obtain ⟨_, _, _, _⟩ := hspan
        refine ⟨?_, ?_, ?_, ?_⟩ <;> dsimp only <;> omega
      exact {
        covers := fun t => by
          rw [covers_append, covers_append, ← h.covers t, hunion, covers_append, or_assoc]
          refine or_congr_right ?_
          rw [covers_singleton, covers_singleton, covers_singleton]
          obtain ⟨_, _, _, _⟩ := hspan
          dsimp only
          omega
        apart := apart_append_singleton (apart_of_append hapart) hmerged hbefore
        proper := by
          refine List.forall_mem_append.mpr ⟨fun earlier hearlier => h.proper earlier ?_,
            List.forall_mem_singleton.mpr hmerged.2.2.2⟩
          rw [hunion]
          exact List.mem_append_left _ hearlier
        total := by
          rw [hunion, coveredMs_append, coveredMs_singleton] at htotal
          rw [hlength, ← htotal, coveredMs_append, coveredMs_singleton]
          obtain ⟨_, _, _, _⟩ := hspan
          dsimp only
          omega
        starts := by
          refine List.forall_mem_append.mpr ⟨fun earlier hearlier => hold _ (h.starts earlier ?_),
            List.forall_mem_singleton.mpr (hold _ ⟨seen, hseen, hstart⟩)⟩
          rw [hunion]
          exact List.mem_append_left _ hearlier }

/-- All steps, by induction over what is left to place. -/
theorem Swept.foldl {rest : List Span} (h : Swept spans durationMs state) (hrest : ∀ span ∈ rest, InVideo durationMs span)
    (hsorted : (spans ++ rest).Pairwise fun earlier later => earlier.1 ≤ later.1) :
    Swept (spans ++ rest) durationMs (rest.foldl Sweep.place state) := by
  induction rest generalizing spans state with
  | nil =>
    rw [List.append_nil]
    exact h
  | cons span rest ih =>
    obtain ⟨hspan, hrest⟩ := List.forall_mem_cons.mp hrest
    rw [List.append_cons] at hsorted ⊢
    have hbefore := (List.pairwise_append.mp (List.pairwise_append.mp hsorted).1).2.2
    exact ih (h.place hspan fun seen hseen => hbefore seen hseen span (List.mem_singleton_self _)) hrest hsorted

theorem swept_nil (durationMs : Int) : Swept [] durationMs {} where
  covers := fun _ => Iff.rfl
  apart := ⟨List.Pairwise.nil, List.forall_mem_nil _, List.forall_mem_nil _⟩
  proper := List.forall_mem_nil _
  total := rfl
  starts := List.forall_mem_nil _

theorem swept_sweep (hspans : ∀ span ∈ spans, InVideo durationMs span)
    (hsorted : spans.Pairwise fun earlier later => earlier.1 ≤ later.1) : Swept spans durationMs (sweep spans) :=
  (swept_nil durationMs).foldl hspans hsorted

/-- Spans that begin after the end are kept as they are, each with its negative length. -/
theorem foldl_late (hspans : ∀ span ∈ spans, durationMs < span.1 ∧ span.2 = durationMs)
    (hstate : ∀ last, state.union.getLast? = some last → last.2 ≤ durationMs) :
    spans.foldl Sweep.place state = ⟨state.union ++ spans, state.overlap⟩ := by
  induction spans generalizing state with
  | nil => simp only [List.foldl_nil, List.append_nil]
  | cons span rest ih =>
    obtain ⟨⟨hlate, hclipped⟩, hrest⟩ := List.forall_mem_cons.mp hspans
    have hplace : state.place span = ⟨state.union ++ [span], state.overlap⟩ := by
      obtain hnil | ⟨union, last, hunion⟩ := List.eq_nil_or_concat state.union
      · rw [place_none hnil, hnil]
        rfl
      · rw [List.concat_eq_append] at hunion
        have hlast := hstate last (by rw [hunion, List.getLast?_concat])
        rw [place_some hunion, if_pos (hlast.trans_lt hlate)]
    have hnext : ∀ last, (state.place span).union.getLast? = some last → last.2 ≤ durationMs := by
      intro last hlast
      rw [hplace, List.getLast?_concat] at hlast
      cases hlast
      exact hclipped.le
    rw [List.foldl_cons, ih hrest hnext, hplace, List.append_assoc]
    rfl

end Steps

section Gaps
variable {span last : Span} {union rest : List Span} {durationMs n : Int}

theorem gaps_after (hlast : (span :: rest).getLast? = some last) :
    List.zipWith (fun before after : Span => after.1 - before.2) (span :: rest) rest ++ [durationMs - last.2] =
      (gapsFrom durationMs span.2 rest).map Span.length := by
  induction rest generalizing span with
  | nil =>
    cases hlast
    rfl
  | cons next rest ih =>
    rw [List.getLast?_cons_cons] at hlast
    rw [List.zipWith_cons_cons, List.cons_append, ih hlast]
    rfl

/-- The lengths that are compared are those of all gaps. -/
theorem mem_gapLengths : n ∈ gapLengths union durationMs ↔ n ∈ (gapsFrom durationMs 0 union).map Span.length := by
  cases union with
  | nil =>
    have hwhole : (gapsFrom durationMs 0 []).map Span.length = [durationMs - 0] := rfl
    rw [hwhole, Int.sub_zero]
    rfl
  | cons span rest =>
    obtain ⟨last, hlast⟩ : ∃ last, (span :: rest).getLast? = some last := List.getLast?_isSome.mpr (List.cons_ne_nil _ _)
      |> Option.isSome_iff_exists.mp
    have hfirst : (gapsFrom durationMs 0 (span :: rest)).map Span.length =
        (span.1 - 0) :: (gapsFrom durationMs span.2 rest).map Span.length := rfl
    rw [hfirst, ← gaps_after hlast, Int.sub_zero, gapLengths, hlast]
    simp only [List.head?_cons, List.tail_cons, List.mem_append, List.mem_cons, List.not_mem_nil, or_false]
    exact or_left_comm

theorem maxGapMs_mem (union : List Span) (durationMs : Int) :
    maxGapMs union durationMs ∈ (gapsFrom durationMs 0 union).map Span.length ∧
      ∀ n ∈ (gapsFrom durationMs 0 union).map Span.length, n ≤ maxGapMs union durationMs := by
  simp only [← mem_gapLengths]
  cases hmax : (gapLengths union durationMs).max? with
  | none =>
    have hnone := List.max?_eq_none_iff.mp hmax
    have hsome : ((gapsFrom durationMs 0 union).map Span.length).length ≠ 0 := by
      cases union <;> exact Nat.succ_ne_zero _
    refine absurd (List.length_eq_zero_iff.mpr (List.eq_nil_iff_forall_not_mem.mpr fun n hn => ?_)) hsome
    exact List.not_mem_nil (hnone ▸ mem_gapLengths.mpr hn)
  | some n =>
    obtain ⟨hmem, hle⟩ := List.max?_eq_some_iff.mp hmax
    rw [maxGapMs, hmax]
    exact ⟨hmem, hle⟩

end Gaps

section Coverage
variable {tables : TranscriptTables} {segments ordered : List (TranscriptCandidateSegment tables)} {durationMs : Int}
  {report : TranscriptQualityReport} {language : String}

def spansOf (segments : List (TranscriptCandidateSegment tables)) : List Span :=
  segments.map fun item => (item.startMs, item.endMs)

/-- How much of a segment lies in the video. -/
def clippedLength (durationMs : Int) (item : TranscriptCandidateSegment tables) : Int :=
  max 0 (min item.endMs durationMs - item.startMs)

/-- The numbers of a report are what the segments, cut off at the ends of the video, come to. -/
structure ExactCoverage (segments : List (TranscriptCandidateSegment tables)) (durationMs : Int)
    (report : TranscriptQualityReport) : Prop where
  union : report.coveredMs = (covered (spansOf segments) 0 durationMs).card
  nonnegative : 0 ≤ report.coveredMs
  atMost : report.coveredMs ≤ durationMs
  overlap : report.coveredMs + (sweep (intervals (sortedBy segmentKey segments) durationMs)).overlap =
    (segments.map (clippedLength durationMs)).sum
  longest : IsGreatest {n | ∃ stretch, Uncovered (spansOf segments) 0 durationMs stretch ∧ stretch.length = n} report.maxGapMs

theorem covers_intervals {t : Int} (ht : t < durationMs) :
    Covers (intervals ordered durationMs) t ↔ Covers (spansOf ordered) t := by
  simp only [Covers, intervals, spansOf, List.mem_map, exists_exists_and_eq_and, lt_min_iff, ht, and_true]

theorem covers_perm {others : List (TranscriptCandidateSegment tables)} (h : ordered.Perm others) (t : Int) :
    Covers (spansOf ordered) t ↔ Covers (spansOf others) t := by
  simp only [Covers, spansOf, List.mem_map, exists_exists_and_eq_and, h.mem_iff]

theorem start_le_of_key {item other : TranscriptCandidateSegment tables} (h : segmentKey item ≤ segmentKey other) :
    item.startMs ≤ other.startMs := by
  rw [segmentKey, segmentKey, Prod.Lex.toLex_le_toLex] at h
  rcases h with hlt | ⟨heq, _⟩
  · exact hlt.le
  · exact heq.le

def isTimely (durationMs : Int) (item : TranscriptCandidateSegment tables) : Bool := item.startMs ≤ durationMs

/-- The segments in order: first those that begin by the end of the video, then those that do not. -/
theorem ordered_split (segments : List (TranscriptCandidateSegment tables)) (durationMs : Int) :
    ∃ timely late, sortedBy segmentKey segments = timely ++ late ∧ (∀ item ∈ timely, item.startMs ≤ durationMs) ∧
      ∀ item ∈ late, durationMs < item.startMs := by
  have hsorted := pairwise_sortedBy segmentKey segments
  refine ⟨(sortedBy segmentKey segments).takeWhile (isTimely durationMs),
    (sortedBy segmentKey segments).dropWhile (isTimely durationMs), List.takeWhile_append_dropWhile.symm,
    fun item hitem => ?_, fun item hitem => ?_⟩
  · have htimely : isTimely durationMs item = true := List.mem_takeWhile_imp hitem
    exact of_decide_eq_true htimely
  · have hpairwise := hsorted.sublist (List.dropWhile_sublist (isTimely durationMs))
    have hhead := List.head?_dropWhile_not (isTimely durationMs) (sortedBy segmentKey segments)
    obtain ⟨first, rest, hlate⟩ := List.exists_cons_of_ne_nil (List.ne_nil_of_mem hitem)
    rw [hlate] at hitem hpairwise hhead
    have hfirst : durationMs < first.startMs := Int.not_le.mp (of_decide_eq_false hhead)
    rcases List.mem_cons.mp hitem with rfl | hrest
    · exact hfirst
    · exact hfirst.trans_le (start_le_of_key ((List.pairwise_cons.mp hpairwise).1 item hrest))

theorem inVideo_intervals {timely : List (TranscriptCandidateSegment tables)}
    (htimely : ∀ item ∈ timely, item.startMs ≤ durationMs) : ∀ span ∈ intervals timely durationMs, InVideo durationMs span := by
  rw [intervals, List.forall_mem_map]
  intro item hitem
  have htimes := item.times
  have hstart := htimely item hitem
  refine ⟨htimes.1, ?_, ?_, ?_⟩ <;> dsimp only <;> omega

theorem pairwise_intervals (h : ordered.Pairwise fun a b => segmentKey a ≤ segmentKey b) :
    (intervals ordered durationMs).Pairwise fun earlier later => earlier.1 ≤ later.1 :=
  List.pairwise_map.mpr (h.imp start_le_of_key)

/-- The sweep over the segments that begin by the end; the others are kept behind it. -/
theorem sweep_split {timely late : List (TranscriptCandidateSegment tables)}
    (hsplit : sortedBy segmentKey segments = timely ++ late) (htimely : ∀ item ∈ timely, item.startMs ≤ durationMs)
    (hlate : ∀ item ∈ late, durationMs < item.startMs) :
    Swept (intervals timely durationMs) durationMs (sweep (intervals timely durationMs)) ∧
      sweep (intervals (sortedBy segmentKey segments) durationMs) =
        ⟨(sweep (intervals timely durationMs)).union ++ intervals late durationMs,
          (sweep (intervals timely durationMs)).overlap⟩ := by
  have hsorted := pairwise_sortedBy segmentKey segments
  rw [hsplit] at hsorted
  have hswept := swept_sweep (inVideo_intervals htimely) (pairwise_intervals (List.pairwise_append.mp hsorted).1)
  refine ⟨hswept, ?_⟩
  have happend : intervals (timely ++ late) durationMs = intervals timely durationMs ++ intervals late durationMs :=
    List.map_append
  rw [hsplit, happend, sweep, List.foldl_append]
  refine foldl_late ?_ fun last hlast => (hswept.apart.within last (List.mem_of_getLast? hlast)).2
  rw [intervals, List.forall_mem_map]
  intro item hitem
  have htimes := item.times
  have hstart := hlate item hitem
  refine ⟨hstart, ?_⟩
  dsimp only
  omega

/-- Late segments cover nothing of the video. -/
theorem covers_late {late : List (TranscriptCandidateSegment tables)} (hlate : ∀ item ∈ late, durationMs < item.startMs)
    {t : Int} (ht : t < durationMs) : ¬ Covers (spansOf late) t := by
  rintro ⟨span, hspan, hstart, _⟩
  obtain ⟨item, hitem, rfl⟩ := List.mem_map.mp hspan
  have := hlate item hitem
  dsimp only at hstart
  omega

theorem covers_sweep {timely late : List (TranscriptCandidateSegment tables)}
    (hsplit : sortedBy segmentKey segments = timely ++ late)
    (hswept : Swept (intervals timely durationMs) durationMs (sweep (intervals timely durationMs)))
    (hlate : ∀ item ∈ late, durationMs < item.startMs) (t : Int) (ht : t < durationMs) :
    Covers (sweep (intervals timely durationMs)).union t ↔ Covers (spansOf segments) t := by
  have happend : spansOf (timely ++ late) = spansOf timely ++ spansOf late := List.map_append
  rw [hswept.covers, covers_intervals ht, ← covers_perm (perm_sortedBy segmentKey segments) t, hsplit, happend,
    covers_append]
  exact (or_iff_left (covers_late hlate ht)).symm

theorem sum_clippedLength {timely : List (TranscriptCandidateSegment tables)}
    (htimely : ∀ item ∈ timely, item.startMs ≤ durationMs) :
    ((intervals timely durationMs).map Span.length).sum = (timely.map (clippedLength durationMs)).sum := by
  rw [intervals, List.map_map]
  refine congrArg List.sum (List.map_congr_left fun item hitem => ?_)
  have htimes := item.times
  have hstart := htimely item hitem
  simp only [Function.comp_apply, Span.length, clippedLength]
  omega

/-- Late segments make the covered time shorter. -/
theorem coveredMs_late {late : List (TranscriptCandidateSegment tables)} (hlate : ∀ item ∈ late, durationMs < item.startMs)
    (hne : late ≠ []) : coveredMs (intervals late durationMs) < 0 := by
  rw [coveredMs, intervals, List.map_map]
  have hneg : ∀ item ∈ late, (Span.length ∘ fun item : TranscriptCandidateSegment tables =>
      (item.startMs, min item.endMs durationMs)) item < 0 := by
    intro item hitem
    have hstart := hlate item hitem
    simp only [Function.comp_apply, Span.length]
    omega
  have hsum := List.sum_lt_sum_of_ne_nil hne _ _ hneg
  rw [List.map_const', List.sum_replicate, nsmul_zero] at hsum
  exact hsum

/-- A report counts what is covered, and what lies between the end of the video and the late segments against it. -/
theorem coveredMs_of_evaluate {timely late : List (TranscriptCandidateSegment tables)}
    (h : evaluate segments durationMs language = .ok report) (hsplit : sortedBy segmentKey segments = timely ++ late)
    (htimely : ∀ item ∈ timely, item.startMs ≤ durationMs) (hlate : ∀ item ∈ late, durationMs < item.startMs) :
    report.coveredMs = (covered (spansOf segments) 0 durationMs).card + coveredMs (intervals late durationMs) := by
  obtain ⟨hswept, hsweep⟩ := sweep_split hsplit htimely hlate
  have hcovers := covers_sweep hsplit hswept hlate
  rw [(reported_of_evaluate h).covered, hsweep, coveredMs_append, ← covered_congr fun t _ ht => hcovers t ht,
    hswept.apart.card_covered]
  rfl

theorem ExactCoverage.timely (h : evaluate segments durationMs language = .ok report)
    (hexact : ExactCoverage segments durationMs report) : ∀ item ∈ segments, item.startMs ≤ durationMs := by
  intro item hitem
  obtain ⟨timely, late, hsplit, htimely, hlate⟩ := ordered_split segments durationMs
  by_contra hstart
  have hsorted : item ∈ timely ++ late := hsplit ▸ mem_sortedBy.mpr hitem
  have hmem := (List.mem_append.mp hsorted).resolve_left fun hin => hstart (htimely item hin)
  have hneg := coveredMs_late hlate (List.ne_nil_of_mem hmem)
  have hcovered := coveredMs_of_evaluate h hsplit htimely hlate
  have hunion := hexact.union
  omega

theorem exactCoverage_of_timely (h : evaluate segments durationMs language = .ok report)
    (hall : ∀ item ∈ segments, item.startMs ≤ durationMs) : ExactCoverage segments durationMs report := by
  have hreported := reported_of_evaluate h
  have hpositive := hreported.positive
  have hsplit : sortedBy segmentKey segments = sortedBy segmentKey segments ++ [] := (List.append_nil _).symm
  have htimely : ∀ item ∈ sortedBy segmentKey segments, item.startMs ≤ durationMs := fun item hitem =>
    hall item (mem_sortedBy.mp hitem)
  have hlate : ∀ item ∈ ([] : List (TranscriptCandidateSegment tables)), durationMs < item.startMs := List.forall_mem_nil _
  have hcovered := coveredMs_of_evaluate h hsplit htimely hlate
  have hzero : coveredMs (intervals ([] : List (TranscriptCandidateSegment tables)) durationMs) = 0 := rfl
  rw [hzero, Int.add_zero] at hcovered
  have hlength := card_covered_le (spansOf segments) hpositive.le
  have hswept := (sweep_split hsplit htimely hlate).1
  refine ⟨hcovered, by omega, by omega, ?_, ?_⟩
  · have hperm := ((perm_sortedBy segmentKey segments).map (clippedLength durationMs)).sum_eq
    rw [hreported.covered, ← hperm, ← sum_clippedLength htimely]
    exact hswept.total
  · obtain ⟨hmem, hmax⟩ := maxGapMs_mem (sweep (intervals (sortedBy segmentKey segments) durationMs)).union durationMs
    have hgreatest := hswept.apart.isGreatest_gap hpositive.le hswept.proper hmem hmax
    have hcovers := covers_sweep hsplit hswept hlate
    rw [hreported.gap]
    refine Eq.mp (congrArg (IsGreatest · _) (Set.ext fun n => exists_congr fun stretch => and_congr_left' ?_)) hgreatest
    exact ⟨Uncovered.congr fun t _ ht => hcovers t ht, Uncovered.congr fun t _ ht => (hcovers t ht).symm⟩

/-- The numbers of a report are exact exactly if no segment begins after the end of the video. -/
theorem exactCoverage_iff (h : evaluate segments durationMs language = .ok report) :
    ExactCoverage segments durationMs report ↔ ∀ item ∈ segments, item.startMs ≤ durationMs :=
  ⟨ExactCoverage.timely h, exactCoverage_of_timely h⟩

end Coverage

section Late

theorem earlyCue_accepted : checkSegment asciiTables (cueFields 0 10 "one" "one") = .ok () :=
  cueFields_accepted (by decide) (by decide) (by decide)

theorem lateCue_accepted : checkSegment asciiTables (cueFields 20 30 "two" "two") = .ok () :=
  cueFields_accepted (by decide) (by decide) (by decide)

def earlyCue : TranscriptCandidateSegment asciiTables := ⟨cueFields 0 10 "one" "one", earlyCue_accepted⟩

def lateCue : TranscriptCandidateSegment asciiTables := ⟨cueFields 20 30 "two" "two", lateCue_accepted⟩

theorem cues_evaluated : (evaluate [earlyCue, lateCue] 15 "zh").toBool = true ∧ (evaluate [earlyCue] 15 "zh").toBool = true := by
  decide +kernel

/-- The second segment begins five after the end of the video, and takes five from what the first one covers. -/
theorem exactCoverage_lateCue :
    ∃ report, evaluate [earlyCue, lateCue] 15 "zh" = .ok report ∧ ¬ ExactCoverage [earlyCue, lateCue] 15 report := by
  obtain ⟨report, hreport⟩ := toBool_eq_true.mp cues_evaluated.1
  refine ⟨report, hreport, fun hexact => ?_⟩
  have hlate := hexact.timely hreport lateCue (List.mem_cons_of_mem _ (List.mem_singleton_self _))
  exact absurd hlate (by decide)

theorem exactCoverage_iff_earlyCue : ∃ report, evaluate [earlyCue] 15 "zh" = .ok report ∧
    (ExactCoverage [earlyCue] 15 report ↔ ∀ item ∈ [earlyCue], item.startMs ≤ 15) := by
  obtain ⟨report, hreport⟩ := toBool_eq_true.mp cues_evaluated.2
  exact ⟨report, hreport, exactCoverage_iff hreport⟩

end Late
end StockContent.Transcript
