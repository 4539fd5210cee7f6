import StockContent.Storage.AsciiText
import StockContent.Transcript.TranscriptCoverage

/-! What a transcript that passes is sure of. The share that is covered and the share of the tokens that are preserved are
rounded before they are compared; tokens are compared over the whole transcript, and new ones are allowed. -/
namespace StockContent.Transcript
open Storage Text Numeric

section Rounding
variable {n n' d d' : Int} {x : Binary64}

theorem quotient_eq_ok (hd : 0 < d) (h : quotient n d = .ok x) : x = Binary64.ofQuotient (n * Binary64.one) d.natAbs := by
  rw [quotient, if_neg hd.ne', Int.sign_eq_one_of_pos hd, Int.mul_one] at h
  split at h
  · cases h
  · exact (Except.ok.inj h).symm

/-- Rounding keeps the order of shares, whatever the unit. -/
theorem ofQuotient_le_of_mul_le (hn : 0 ≤ n) (hd : 0 < d) (hd' : 0 < d') (h : n * d' ≤ n' * d) (unit : Nat) :
    (Binary64.ofQuotient (n * unit) d.natAbs).le (Binary64.ofQuotient (n' * unit) d'.natAbs) = true := by
  have hn' : 0 ≤ n' := by
    by_contra hneg
    have hleft := Int.mul_nonneg hn hd'.le
    have hright := Int.mul_neg_of_neg_of_pos (Int.not_le.mp hneg) hd
    omega
  have hunit : (0 : Int) ≤ unit := Int.natCast_nonneg unit
  refine Binary64.ofQuotient_le (Int.mul_nonneg hn hunit) (Int.mul_nonneg hn' hunit) (Int.natAbs_pos.mpr hd.ne')
    (Int.natAbs_pos.mpr hd'.ne') ?_
  have hscaled : n * unit * d' ≤ n' * unit * d := by
    calc n * unit * d' = n * d' * unit := mul_right_comm _ _ _
      _ ≤ n' * d * unit := Int.mul_le_mul_of_nonneg_right h hunit
      _ = n' * unit * d := mul_right_comm _ _ _
  have habs := Binary64.natAbs_mono (Int.mul_nonneg (Int.mul_nonneg hn hunit) hd'.le) hscaled
  rwa [Int.natAbs_mul, Int.natAbs_mul (n' * unit)] at habs

theorem finite_of_le_finite {b : Int} (hd : 0 < d) (h : quotient n d = .ok x) (hle : x.le (.finite b) = true) :
    ∃ a, x = .finite a ∧ a ≤ b := by
  cases x with
  | nan => cases hle
  | infinite negative =>
    rw [quotient, if_neg hd.ne'] at h
    split at h
    · cases h
    · rename_i hfinite
      exact absurd (Except.ok.inj h) (hfinite negative)
  | finite a => exact ⟨a, rfl, of_decide_eq_true hle⟩

/-- The number just below 0.90 is nearest to all that lies below the middle, and the number just below one to a share that
lacks one of `2 ^ 54 - 1`. -/
theorem roundings : Binary64.ofQuotient ((16212958658533785 : Int) * Binary64.one) (2 ^ 54 : Int).natAbs =
      .finite (8106479329266892 * 2 ^ 1021) ∧
    minTranscriptCoverage = .finite (8106479329266893 * 2 ^ 1021) ∧
    Binary64.ofQuotient ((2 ^ 54 - 2 : Int) * Binary64.one) (2 ^ 54 - 1 : Int).natAbs =
      .finite (9007199254740991 * 2 ^ 1021) ∧
    (9007199254740991 * 2 ^ 1021 : Int) < (1 * Binary64.one : Nat) := by
  decide +kernel

theorem middle_lt_minTranscriptCoverage {a : Int} (h : a ≤ 8106479329266892 * 2 ^ 1021) :
    (Binary64.finite a).lt (.finite (8106479329266893 * 2 ^ 1021)) = true := by
  have hstrict : (8106479329266892 * 2 ^ 1021 : Int) < 8106479329266893 * 2 ^ 1021 :=
    Int.mul_lt_mul_of_pos_right (by decide) (Int.pow_pos (by decide))
  have hlt := h.trans_lt hstrict
  rw [Binary64.lt, Bool.and_eq_true]
  refine ⟨decide_eq_true hlt.le, ?_⟩
  rw [Bool.not_eq_true']
  exact decide_eq_false (Int.not_le.mpr hlt)

/-- What is not below 0.90 as a number is above the middle between 0.90 and the number before. -/
theorem middle_lt_of_covered (hn : 0 ≤ n) (hd : 0 < d) (h : quotient n d = .ok x)
    (hlt : x.lt minTranscriptCoverage = false) : 16212958658533785 * d < n * 2 ^ 54 := by
  by_contra hle
  have hbelow := ofQuotient_le_of_mul_le hn hd (by decide : (0 : Int) < 2 ^ 54) (Int.not_lt.mp hle) Binary64.one
  rw [← quotient_eq_ok hd h, roundings.1] at hbelow
  obtain ⟨a, rfl, ha⟩ := finite_of_le_finite hd h hbelow
  rw [roundings.2.1, middle_lt_minTranscriptCoverage ha] at hlt
  cases hlt

/-- Of less than `2 ^ 54` tokens all are preserved if their share is rounded to one. -/
theorem eq_of_quotient_one (hn : 0 ≤ n) (hd : 0 < d) (hsmall : d < 2 ^ 54) (hle : n ≤ d)
    (h : quotient n d = .ok (Binary64.natural 1)) : n = d := by
  by_contra hne
  have hscaled : n * (2 ^ 54 - 1) ≤ (2 ^ 54 - 2) * d := by omega
  have hbelow := ofQuotient_le_of_mul_le hn hd (by decide : (0 : Int) < 2 ^ 54 - 1) hscaled Binary64.one
  obtain ⟨-, -, hnext, hlt⟩ := roundings
  generalize (9007199254740991 * 2 ^ 1021 : Int) = b at hnext hlt
  rw [← quotient_eq_ok hd h, hnext] at hbelow
  have hone : ((1 * Binary64.one : Nat) : Int) ≤ b := of_decide_eq_true hbelow
  exact absurd hlt (Int.not_lt.mpr hone)

end Rounding

section Tokens
variable {tables : TranscriptTables} {segments : List (TranscriptCandidateSegment tables)} {raw normalized : List String}

/-- Of less than `2 ^ 54` tokens none is lost where the ratio is one. -/
theorem count_le_of_preserved (h : preservationRatio raw normalized = .ok (Binary64.natural 1)) (hsmall : raw.length < 2 ^ 54)
    (token : String) : raw.count token ≤ normalized.count token := by
  by_cases hmem : token ∈ raw
  · have hne : raw ≠ [] := List.ne_nil_of_mem hmem
    rw [preservationRatio, if_neg hne] at h
    have hlength : 0 < raw.length := List.length_pos_of_mem hmem
    have hall := eq_of_quotient_one (Int.natCast_nonneg _) (Int.natCast_pos.mpr hlength) (by omega)
      (Int.ofNat_le.mpr List.countP_le_length) h
    have hpreserved := List.countP_eq_length.mp (Int.ofNat_inj.mp hall) token hmem
    exact of_decide_eq_true hpreserved
  · rw [List.count_eq_zero_of_not_mem hmem]
    exact Nat.zero_le _

/-- Where no segment adds a token and the whole loses none, each segment keeps its own. -/
theorem perm_of_count_le (hkept : ∀ token, (rawTokens segments).count token ≤ (normalizedTokens segments).count token)
    (hadds : ∀ item ∈ segments, ∀ token,
      (tokensOf tables item.normalizedText).count token ≤ (tokensOf tables item.rawText).count token) :
    ∀ item ∈ segments, (tokensOf tables item.normalizedText).Perm (tokensOf tables item.rawText) := by
  intro item hitem
  rw [List.perm_iff_count]
  intro token
  have hkept := hkept token
  rw [rawTokens, normalizedTokens, List.count_flatMap, List.count_flatMap] at hkept
  obtain ⟨hle, heq⟩ := Json.sum_le_sum_and_eq fun other hother => hadds other hother token
  exact heq (Nat.le_antisymm hle hkept) item hitem

end Tokens

section Passing
variable {tables : TranscriptTables} {segments : List (TranscriptCandidateSegment tables)} {durationMs : Int}
  {report : TranscriptQualityReport} {language : String}

/-- A transcript without flaw: its segments are in order, apart and within the video, cover nine tenths of it, and each
one keeps its hard facts exactly. -/
structure SoundTranscript (segments : List (TranscriptCandidateSegment tables)) (durationMs : Int) : Prop where
  apart : segments.Pairwise fun earlier later => earlier.endMs ≤ later.startMs
  within : ∀ item ∈ segments, item.endMs ≤ durationMs
  coverage : 9 * durationMs ≤ 10 * ((covered (spansOf segments) 0 durationMs).card : Int)
  facts : ∀ item ∈ segments, (tokensOf tables item.normalizedText).Perm (tokensOf tables item.rawText)

/-- What passing makes sure of. -/
structure PassedTranscript (segments : List (TranscriptCandidateSegment tables)) (durationMs : Int) : Prop where
  apart : segments.Pairwise fun earlier later => earlier.endMs ≤ later.startMs
  within : ∀ item ∈ segments, item.endMs ≤ durationMs
  coverage : durationMs ≤ 3002399751580330 → 9 * durationMs ≤ 10 * ((covered (spansOf segments) 0 durationMs).card : Int)
  rounded : 16212958658533785 * durationMs < ((covered (spansOf segments) 0 durationMs).card : Int) * 2 ^ 54
  kept : (rawTokens segments).length < 2 ^ 54 →
    ∀ token, (rawTokens segments).count token ≤ (normalizedTokens segments).count token
  facts : (rawTokens segments).length < 2 ^ 54 →
    (∀ item ∈ segments, ∀ token,
      (tokensOf tables item.normalizedText).count token ≤ (tokensOf tables item.rawText).count token) →
    ∀ item ∈ segments, (tokensOf tables item.normalizedText).Perm (tokensOf tables item.rawText)

theorem isChain_of_zip (h : (segments.zip segments.tail).all (fun pair => pair.1.endMs ≤ pair.2.startMs) = true) :
    segments.IsChain fun earlier later => earlier.endMs ≤ later.startMs := by
  induction segments with
  | nil => exact .nil
  | cons item rest ih =>
    cases rest with
    | nil => exact .singleton _
    | cons next rest =>
      rw [List.tail_cons, List.zip_cons_cons, List.all_cons, Bool.and_eq_true, decide_eq_true_eq] at h
      exact List.isChain_cons_cons.mpr ⟨h.1, ih h.2⟩

theorem pairwise_of_isMonotonic {ordered : List (TranscriptCandidateSegment tables)}
    (h : isMonotonic segments ordered = true) :
    segments = ordered ∧ segments.Pairwise fun earlier later => earlier.endMs ≤ later.startMs := by
  rw [isMonotonic, Bool.and_eq_true, decide_eq_true_eq] at h
  obtain ⟨rfl, hzip⟩ := h
  refine ⟨rfl, ?_⟩
  have htrans : IsTrans (TranscriptCandidateSegment tables) fun earlier later => earlier.endMs ≤ later.startMs :=
    ⟨fun a b c hab hbc => hab.trans (b.times.2.le.trans hbc)⟩
  exact List.isChain_iff_pairwise.mp (isChain_of_zip hzip)

/-- Nothing is found where all four checks find nothing. -/
theorem reasonsOf_eq_nil {ordered : List (TranscriptCandidateSegment tables)} {monotonic : Bool}
    {coverageRatio preservation : Binary64} (h : reasonsOf ordered durationMs monotonic coverageRatio preservation = []) :
    (∀ item ∈ ordered, item.endMs ≤ durationMs) ∧ monotonic = true ∧ coverageRatio.lt minTranscriptCoverage = false ∧
      preservation = Binary64.natural 1 := by
  rw [reasonsOf, List.append_eq_nil_iff, List.append_eq_nil_iff, List.append_eq_nil_iff] at h
  obtain ⟨⟨⟨hwithin, hmonotonic⟩, hcoverage⟩, hpreservation⟩ := h
  refine ⟨fun item hitem => ?_, ?_, ?_, ?_⟩
  · have hnone := List.filter_eq_nil_iff.mp (List.map_eq_nil_iff.mp hwithin) item hitem
    exact Int.not_lt.mp fun hlt => hnone (decide_eq_true hlt)
  · by_contra hnot
    rw [if_neg hnot] at hmonotonic
    cases hmonotonic
  · refine Bool.eq_false_iff.mpr fun hlt => ?_
    rw [if_pos hlt] at hcoverage
    cases hcoverage
  · by_contra hnot
    rw [if_neg hnot] at hpreservation
    cases hpreservation

theorem passedTranscript (h : evaluate segments durationMs language = .ok report) (hpass : report.qualityStatus = .pass) :
    PassedTranscript segments durationMs := by
  have hreported := reported_of_evaluate h
  obtain ⟨hwithin, hmonotonic, hcoverage, hpreservation⟩ :=
    reasonsOf_eq_nil (statusOf_eq_pass.mp (hreported.status.symm.trans hpass))
  obtain ⟨hordered, hapart⟩ := pairwise_of_isMonotonic hmonotonic
  rw [← hordered] at hwithin
  have hexact := exactCoverage_of_timely h fun item hitem => (item.times.2.trans_le (hwithin item hitem)).le
  have hrounded := middle_lt_of_covered hexact.nonnegative hreported.positive hreported.coverage hcoverage
  rw [hexact.union] at hrounded
  have hratio := hreported.preservation
  rw [hpreservation, ← hordered] at hratio
  exact {
    apart := hapart
    within := hwithin
    coverage := fun hshort => by omega
    rounded := hrounded
    kept := count_le_of_preserved hratio
    facts := fun hsmall => perm_of_count_le (count_le_of_preserved hratio hsmall) }

end Passing

section Swapped

theorem firstCue_accepted : checkSegment asciiTables (cueFields 0 50 "600000" "000001") = .ok () :=
  cueFields_accepted (by decide) (by decide) (by decide)

theorem secondCue_accepted : checkSegment asciiTables (cueFields 50 100 "000001" "600000") = .ok () :=
  cueFields_accepted (by decide) (by decide) (by decide)

def firstCue : TranscriptCandidateSegment asciiTables := ⟨cueFields 0 50 "600000" "000001", firstCue_accepted⟩

def secondCue : TranscriptCandidateSegment asciiTables := ⟨cueFields 50 100 "000001" "600000", secondCue_accepted⟩

def swapped : List (TranscriptCandidateSegment asciiTables) := [firstCue, secondCue]

theorem passes_swapped : ((evaluate swapped 100 "zh").toOption.any fun report => report.qualityStatus = .pass) = true := by
  decide +kernel

theorem swapped_report : ∃ report, evaluate swapped 100 "zh" = .ok report ∧ report.qualityStatus = .pass := by
  obtain ⟨report, hreport, hpass⟩ := (Option.any_eq_true _ _).mp passes_swapped
  exact ⟨report, toOption_eq_some.mp hreport, of_decide_eq_true hpass⟩

/-- Two segments trade their tickers, and the transcript passes. -/
theorem not_soundTranscript_swapped :
    (∃ report, evaluate swapped 100 "zh" = .ok report ∧ report.qualityStatus = .pass) ∧ ¬ SoundTranscript swapped 100 := by
  refine ⟨swapped_report, fun hsound => ?_⟩
  have hfacts := hsound.facts firstCue List.mem_cons_self
  have hcount := hfacts.count_eq "600000"
  exact absurd hcount (by decide)

theorem passedTranscript_swapped : PassedTranscript swapped 100 := by
  obtain ⟨report, hreport, hpass⟩ := swapped_report
  exact passedTranscript hreport hpass

end Swapped
end StockContent.Transcript
