import Mathlib.Data.Finset.Card
import StockContent.Knowledge.CrossVideoRuns
import StockContent.Numeric.Binary64

/-! The numbers that corroboration publishes of a group: whether they count videos, and the bounds of its scores. -/
namespace StockContent.Numeric.Binary64

section Division

/-- True division of whole numbers. -/
def trueDivide (a d : Int) : Binary64 := ofQuotient (a * one) d.toNat

theorem roundUnits_le_one {n d : Nat} (hd : 0 < d) (h : n ≤ d) : roundUnits (n * one) d ≤ one := by
  have hmono : roundUnits (n * one) d ≤ roundUnits (1 * one * 1) 1 :=
    roundUnits_mono hd Nat.one_pos (by rw [Nat.mul_one, Nat.mul_one, Nat.one_mul, Nat.mul_comm]; gcongr)
  rwa [roundUnits_eq_self (representable_one (Nat.one_le_two_pow)) Nat.one_pos, Nat.one_mul] at hmono

theorem one_lt_limit : one < limit := by
  unfold limit
  exact lt_mul_of_one_lt_left one_pos (Nat.one_lt_two_pow (by decide))

/-- A quotient of at most one is a finite number between minus one and one. -/
theorem trueDivide_bounds {a d : Int} (hd : 0 < d) (h : a.natAbs ≤ d.toNat) :
    (natural 1).neg.le (trueDivide a d) = true ∧ (trueDivide a d).le (natural 1) = true := by
  have hunits : roundUnits (a * one).natAbs d.toNat ≤ one := by
    rw [Int.natAbs_mul, Int.natAbs_natCast]
    exact roundUnits_le_one (by omega) h
  rw [trueDivide, ofQuotient, if_pos (hunits.trans_lt one_lt_limit), natural, neg]
  constructor
  · refine le_finite ?_
    split <;> omega
  · refine le_finite ?_
    split <;> omega

theorem trueDivide_nonneg {a d : Int} (ha : 0 ≤ a) (hd : 0 < d) (h : a.natAbs ≤ d.toNat) :
    (natural 0).le (trueDivide a d) = true := by
  have hunits : roundUnits (a * one).natAbs d.toNat ≤ one := by
    rw [Int.natAbs_mul, Int.natAbs_natCast]
    exact roundUnits_le_one (by omega) h
  have hsign : ¬ a * one < 0 := Int.not_lt.mpr (Int.mul_nonneg ha (Int.natCast_nonneg _))
  rw [trueDivide, ofQuotient, if_pos (hunits.trans_lt one_lt_limit), if_neg hsign, natural, Nat.zero_mul]
  exact le_finite (Int.natCast_nonneg _)

end Division
end StockContent.Numeric.Binary64

namespace StockContent.Knowledge
open Storage Numeric

section Counts
variable {F : Type} (runtime : WriteRuntime F)

abbrev supportedRows (group : List CrossVideoPayload) : List CrossVideoPayload :=
  group.filter fun row => supported runtime row.supportStatus

/-- The supported rows of a group with one sentiment. -/
def agreeingRows (group : List CrossVideoPayload) (sentiment : String) : List CrossVideoPayload :=
  (supportedRows runtime group).filter (·.sentiment = sentiment)

/-- The number of videos that have such a row. -/
def agreeingVideos (group : List CrossVideoPayload) (sentiment : String) : Nat :=
  ((agreeingRows runtime group sentiment).map (·.videoId)).toFinset.card

/-- The group of a row. -/
def groupOf (rows : List CrossVideoPayload) (row : CrossVideoPayload) : List CrossVideoPayload :=
  (rows.filter grouped).filter (groupKey · = groupKey row)

/-- No video says the same twice in the group of a row that gets values. -/
def SaidOnce (rows : List CrossVideoPayload) : Prop :=
  ∀ row ∈ rows, shares runtime row = true → ∀ sentiment ∈ ["BULLISH", "BEARISH"],
    ((agreeingRows runtime (groupOf rows row) sentiment).map (·.videoId)).Nodup

variable {runtime} {group rows others : List CrossVideoPayload}

theorem sentiment_count {sentiment : String} (hsome : sentiment ≠ "") (hneutral : sentiment ≠ "NEUTRAL") :
    (((Dict.groupBy CrossVideoPayload.videoId (supportedRows runtime group)).rows.flatMap
      Prod.snd).map fun row => orText row.sentiment "NEUTRAL").count sentiment =
        (agreeingRows runtime group sentiment).length := by
  have hitems : ((Dict.groupBy CrossVideoPayload.videoId (supportedRows runtime group)).rows.flatMap
      Prod.snd).Perm (supportedRows runtime group) := Dict.flatMap_groupBy_perm _
  rw [(hitems.map _).count_eq, List.count, List.countP_map, List.countP_eq_length_filter, agreeingRows]
  congr 1
  refine List.filter_congr fun row _ => ?_
  rw [Function.comp_apply, orText]
  split
  · rename_i hempty
    simp [hempty, Ne.symm hsome, Ne.symm hneutral]
  · rfl

theorem sentiments_length : (((Dict.groupBy CrossVideoPayload.videoId
    (supportedRows runtime group)).rows.flatMap Prod.snd).map
      fun row => orText row.sentiment "NEUTRAL").length =
        (supportedRows runtime group).length := by
  rw [List.length_map, (Dict.flatMap_groupBy_perm _).length_eq]

theorem videos_length : (Dict.groupBy CrossVideoPayload.videoId
    (supportedRows runtime group)).rows.length =
      ((supportedRows runtime group).map (·.videoId)).toFinset.card := by
  rw [List.card_toFinset, ← (Dict.keys_groupBy_perm _).length_eq, List.length_map]

theorem corroborating_eq : (valuesOf runtime group).corroboratingVideoCount =
    max (agreeingRows runtime group "BULLISH").length (agreeingRows runtime group "BEARISH").length := by
  rw [← sentiment_count (by decide) (by decide), ← sentiment_count (by decide) (by decide)]
  rfl

theorem contradicting_eq : (valuesOf runtime group).contradictingVideoCount =
    min (agreeingRows runtime group "BULLISH").length (agreeingRows runtime group "BEARISH").length := by
  rw [← sentiment_count (by decide) (by decide), ← sentiment_count (by decide) (by decide)]
  rfl

theorem agreeingVideos_le (runtime : WriteRuntime F) (group : List CrossVideoPayload) (sentiment : String) :
    agreeingVideos runtime group sentiment ≤ (valuesOf runtime group).independentSourceCount := by
  refine le_trans (Finset.card_le_card fun video hvideo => ?_) videos_length.ge
  rw [List.mem_toFinset] at hvideo ⊢
  exact (List.filter_sublist.map _).subset hvideo

theorem agreeingVideos_le_rows (runtime : WriteRuntime F) (group : List CrossVideoPayload) (sentiment : String) :
    agreeingVideos runtime group sentiment ≤ (agreeingRows runtime group sentiment).length :=
  (List.toFinset_card_le _).trans_eq (List.length_map _)

theorem agreeingVideos_eq_iff {sentiment : String} :
    agreeingVideos runtime group sentiment = (agreeingRows runtime group sentiment).length ↔
      ((agreeingRows runtime group sentiment).map (·.videoId)).Nodup := by
  rw [agreeingVideos, ← List.length_map (f := CrossVideoPayload.videoId)]
  exact Multiset.toFinset_card_eq_card_iff_nodup (m := ⟦_⟧)

/-- Rows of different sentiments are different rows. -/
theorem agreeing_add_le (runtime : WriteRuntime F) (group : List CrossVideoPayload) : (agreeingRows runtime group "BULLISH").length +
    (agreeingRows runtime group "BEARISH").length ≤ (supportedRows runtime group).length := by
  rw [agreeingRows, agreeingRows]
  generalize supportedRows runtime group = rows
  induction rows with
  | nil => exact le_rfl
  | cons row rest ih =>
    rw [List.filter_cons, List.filter_cons, List.length_cons]
    by_cases hbullish : row.sentiment = "BULLISH"
    · have hbearish : ¬ row.sentiment = "BEARISH" := fun h => absurd (hbullish.symm.trans h) (by decide)
      rw [if_pos (decide_eq_true hbullish), if_neg (by simpa using hbearish), List.length_cons]
      omega
    · rw [if_neg (by simpa using hbullish)]
      split
      · rw [List.length_cons]
        omega
      · omega

end Counts

section Sound
variable {runtime : WriteRuntime Binary64} {rows group : List CrossVideoPayload}

/-- What the result should say: numbers of videos, scores within their bounds, and the same in any order of the rows. -/
structure CorroborationSound (runtime : WriteRuntime Binary64) (rows : List CrossVideoPayload) : Prop where
  counts : ∀ row ∈ rows, ∀ values ∈ (calculate runtime rows).lookup row.knowledgeUid,
    values.corroboratingVideoCount = max (agreeingVideos runtime (groupOf rows row) "BULLISH")
        (agreeingVideos runtime (groupOf rows row) "BEARISH") ∧
      values.contradictingVideoCount = min (agreeingVideos runtime (groupOf rows row) "BULLISH")
        (agreeingVideos runtime (groupOf rows row) "BEARISH") ∧
      values.corroboratingVideoCount ≤ values.independentSourceCount ∧
      values.contradictingVideoCount ≤ values.independentSourceCount
  scores : ∀ knowledgeUid, ∀ values ∈ (calculate runtime rows).lookup knowledgeUid,
    ((Binary64.natural 1).neg.le values.consensusScore = true ∧ values.consensusScore.le (Binary64.natural 1) = true) ∧
      (Binary64.natural 0).le values.disagreementScore = true ∧ values.disagreementScore.le (Binary64.natural 1) = true
  orderFree : ∀ others, others.Perm rows → ∀ knowledgeUid,
    (calculate runtime others).lookup knowledgeUid = (calculate runtime rows).lookup knowledgeUid

/-- A row has values only if it shares, and then those of its group. -/
theorem lookup_eq_some_iff (hn : (rows.map (·.knowledgeUid)).Nodup) {row : CrossVideoPayload} (hrow : row ∈ rows)
    {values : CrossVideoValues Binary64} : (calculate runtime rows).lookup row.knowledgeUid = some values ↔
      shares runtime row = true ∧ valuesOf runtime (groupOf rows row) = values := by
  cases hshares : shares runtime row with
  | true => rw [lookup_calculate hn hrow hshares, Option.some.injEq, and_iff_right rfl, groupOf]
  | false =>
    have hnone : (calculate runtime rows).lookup row.knowledgeUid = none := by
      refine lookup_calculate_none fun other hother hkey => ?_
      rw [List.inj_on_of_nodup_map hn hother hrow hkey, hshares]
    rw [hnone]
    exact ⟨(nomatch ·), fun h => absurd h.1 Bool.false_ne_true⟩

theorem exists_row_of_lookup {knowledgeUid : String} {values : CrossVideoValues Binary64}
    (h : (calculate runtime rows).lookup knowledgeUid = some values) : ∃ row ∈ rows, row.knowledgeUid = knowledgeUid := by
  by_contra hnone
  rw [lookup_calculate_none fun row hrow hkey => absurd ⟨row, hrow, hkey⟩ hnone] at h
  cases h

theorem scores_bounds (hdivide : runtime.divide = Binary64.trueDivide) (group : List CrossVideoPayload) :
    ((Binary64.natural 1).neg.le (valuesOf runtime group).consensusScore = true ∧
      (valuesOf runtime group).consensusScore.le (Binary64.natural 1) = true) ∧
      (Binary64.natural 0).le (valuesOf runtime group).disagreementScore = true ∧
      (valuesOf runtime group).disagreementScore.le (Binary64.natural 1) = true := by
  have hadd := agreeing_add_le runtime group
  simp only [valuesOf, hdivide, sentiments_length, sentiment_count (show "BULLISH" ≠ "" by decide) (by decide),
    sentiment_count (show "BEARISH" ≠ "" by decide) (by decide)]
  generalize (agreeingRows runtime group "BULLISH").length = bullish at hadd
  generalize (agreeingRows runtime group "BEARISH").length = bearish at hadd
  generalize (supportedRows runtime group).length = total at hadd
  refine ⟨Binary64.trueDivide_bounds ?_ ?_, Binary64.trueDivide_nonneg ?_ ?_ ?_, (Binary64.trueDivide_bounds ?_ ?_).2⟩
  all_goals omega

theorem counts_iff (group : List CrossVideoPayload) :
    ((valuesOf runtime group).corroboratingVideoCount =
        max (agreeingVideos runtime group "BULLISH") (agreeingVideos runtime group "BEARISH") ∧
      (valuesOf runtime group).contradictingVideoCount =
        min (agreeingVideos runtime group "BULLISH") (agreeingVideos runtime group "BEARISH") ∧
      (valuesOf runtime group).corroboratingVideoCount ≤ (valuesOf runtime group).independentSourceCount ∧
      (valuesOf runtime group).contradictingVideoCount ≤ (valuesOf runtime group).independentSourceCount) ↔
    ∀ sentiment ∈ ["BULLISH", "BEARISH"], ((agreeingRows runtime group sentiment).map (·.videoId)).Nodup := by
  simp only [List.forall_mem_cons, List.not_mem_nil, false_imp_iff, implies_true, and_true, ← agreeingVideos_eq_iff]
  have hbullish := agreeingVideos_le_rows runtime group "BULLISH"
  have hbearish := agreeingVideos_le_rows runtime group "BEARISH"
  have hbullish' := agreeingVideos_le runtime group "BULLISH"
  have hbearish' := agreeingVideos_le runtime group "BEARISH"
  rw [corroborating_eq, contradicting_eq]
  omega

/-- The counts are numbers of videos exactly if no video says the same twice. -/
theorem corroboration_sound_iff (runtime : WriteRuntime Binary64) (hdivide : runtime.divide = Binary64.trueDivide)
    {rows : List CrossVideoPayload} (hn : (rows.map (·.knowledgeUid)).Nodup) :
    CorroborationSound runtime rows ↔ SaidOnce runtime rows := by
  constructor
  · intro h row hrow hshares
    exact (counts_iff _).mp (h.counts row hrow _ ((lookup_eq_some_iff hn hrow).mpr ⟨hshares, rfl⟩))
  · intro h
    refine ⟨fun row hrow values hvalues => ?_, fun knowledgeUid values hvalues => ?_, fun others hperm knowledgeUid => ?_⟩
    · obtain ⟨hshares, rfl⟩ := (lookup_eq_some_iff hn hrow).mp hvalues
      exact (counts_iff _).mpr (h row hrow hshares)
    · obtain ⟨row, hrow, rfl⟩ := exists_row_of_lookup hvalues
      obtain ⟨_, rfl⟩ := (lookup_eq_some_iff hn hrow).mp hvalues
      exact scores_bounds hdivide _
    · exact lookup_calculate_perm hperm ((hperm.map _).nodup_iff.mpr hn) knowledgeUid

def dividingRuntime : WriteRuntime Binary64 where
  str := fun _ => ""
  dictOf := fun _ => .error .typeError
  tables := plainRuntime.tables
  divide := Binary64.trueDivide
  nextId := fun ids => ids.foldr max 0 + 1

/-- A unit of a video that is bullish on the same outlook. -/
def bullishRow (knowledgeUid videoId : String) : CrossVideoPayload where
  knowledgeUid := knowledgeUid
  videoId := videoId
  subjectKey := some "600519"
  predicateKey := some "outlook"
  sentiment := "BULLISH"
  supportStatus := "SOURCE_SUPPORTED"
  lifecycleStatus := "ACTIVE"
  evidenceIds := []

theorem two_videos_counted : (([bullishRow "a" "v1", bullishRow "b" "v2"].map (·.knowledgeUid)).Nodup) ∧
    (CorroborationSound dividingRuntime [bullishRow "a" "v1", bullishRow "b" "v2"] ↔
      SaidOnce dividingRuntime [bullishRow "a" "v1", bullishRow "b" "v2"]) :=
  ⟨by decide, corroboration_sound_iff dividingRuntime rfl (by decide)⟩

/-- One video that repeats itself is counted as two. -/
theorem repeated_video_counted : ¬ CorroborationSound dividingRuntime [bullishRow "a" "v1", bullishRow "b" "v1"] := by
  intro h
  have hn : ([bullishRow "a" "v1", bullishRow "b" "v1"].map (·.knowledgeUid)).Nodup := by decide
  have hshares : shares dividingRuntime (bullishRow "a" "v1") = true := by decide
  have hvalues := (lookup_eq_some_iff hn List.mem_cons_self).mpr ⟨hshares, rfl⟩
  have hle := (h.counts _ List.mem_cons_self _ hvalues).2.2.1
  have hindependent : (valuesOf dividingRuntime (groupOf [bullishRow "a" "v1", bullishRow "b" "v1"]
      (bullishRow "a" "v1"))).independentSourceCount = 1 := by decide
  rw [corroborating_eq, hindependent] at hle
  exact absurd hle (by decide)

end Sound
end StockContent.Knowledge
