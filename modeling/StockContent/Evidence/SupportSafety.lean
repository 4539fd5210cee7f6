import StockContent.Evidence.UnitNormalizer

/-! Support and what it rests on: the hard checks, the judge, the quality of the evidence and, for support from what is seen,
an item with the numbers of the claim. -/
namespace StockContent.Evidence
open StockContent.Text StockContent.Numeric

section Score

theorem le_of_lt {a b : Binary64} (h : a.lt b = true) : a.le b = true := (Bool.and_eq_true_iff.mp h).1

theorem natural_le_self {n : Nat} (h : n ≤ 2 ^ 53) : (Binary64.natural n).le (.natural n) = true :=
  (Binary64.magnitude_natural h).le_self

theorem atMostOne_le (x : Binary64) : (atMostOne x).le (Binary64.natural 1) = true := by
  unfold atMostOne
  split
  · exact le_of_lt ‹_›
  · exact natural_le_self (by decide)

/-- Whatever is clamped, also what is no number, ends between zero and one. -/
theorem clamp_bounds (x : Binary64) :
    (Binary64.natural 0).le (clamp x) = true ∧ (clamp x).le (Binary64.natural 1) = true := by
  unfold clamp
  split
  · exact ⟨le_of_lt ‹_›, atMostOne_le x⟩
  · exact ⟨natural_le_self (by decide), by decide +kernel⟩

theorem resultOf_score (status : String) (score : Binary64) (reasons : List String) (checks : Option Checks) :
    (Binary64.natural 0).le (resultOf status score reasons checks).supportScore = true ∧
      (resultOf status score reasons checks).supportScore.le (.natural 1) = true := clamp_bounds _

end Score

section Claim
variable {verifier : ClaimEvidenceVerifier} {unit : CheckedUnit} {source : String}

/-- The judge takes support away with a contradiction, and gives it only where no hard check has failed. -/
theorem judged_supported {answer : JudgeVerdict} {status : String} {reasons : List String} {hardFailed : Bool}
    {threshold : Binary64} (h : (judged verifier answer status reasons hardFailed threshold).1 = "SOURCE_SUPPORTED") :
    labelOf verifier answer ≠ "CONTRADICTED" ∧ (status = "SOURCE_SUPPORTED" ∨ hardFailed = false) := by
  unfold judged at h
  split at h
  · dsimp only at h
    split at h
    · exact absurd h (by decide)
    · exact absurd h ‹_›
  · rename_i hlabel
    refine ⟨hlabel, ?_⟩
    by_cases hstatus : status = "SOURCE_SUPPORTED"
    · exact .inl hstatus
    · right
      split at h
      · split at h
        · exact absurd h hstatus
        · exact absurd h hstatus
      · split at h
        · rename_i hupgrade
          simp only [Bool.and_eq_true, Bool.not_eq_true'] at hupgrade
          exact hupgrade.1.2
        · exact absurd h hstatus

theorem judged_status {answer : JudgeVerdict} {status : String} {reasons : List String} {hardFailed : Bool}
    {threshold : Binary64} (h : status = "SOURCE_SUPPORTED" ∨ status = "NEEDS_REVIEW") :
    (judged verifier answer status reasons hardFailed threshold).1 = "SOURCE_SUPPORTED" ∨
      (judged verifier answer status reasons hardFailed threshold).1 = "NEEDS_REVIEW" := by
  unfold judged
  repeat' split
  all_goals first | exact h | exact .inl rfl | exact .inr rfl

/-- What the judge said of a claim, if there is one. -/
def NotContradicted (verifier : ClaimEvidenceVerifier) (unit : CheckedUnit) (source : String) : Prop :=
  ∀ judge, verifier.judge = some judge →
    labelOf verifier (answerOf unit judge source (checksOf verifier unit source)) ≠ "CONTRADICTED"

theorem verifyAgainst_supported (h : (verifyAgainst verifier unit source).supportStatus = "SOURCE_SUPPORTED") :
    (checksOf verifier unit source).hardFailed = [] ∧ NotContradicted verifier unit source := by
  have hstatus {threshold score : Binary64} (h : (if (checksOf verifier unit source).hardFailed = [] && threshold.le score
      then "SOURCE_SUPPORTED" else "NEEDS_REVIEW") = "SOURCE_SUPPORTED") : (checksOf verifier unit source).hardFailed = [] := by
    split at h
    · rename_i hpassed
      exact of_decide_eq_true (Bool.and_eq_true_iff.mp hpassed).1
    · exact absurd h (by decide)
  unfold verifyAgainst at h
  cases hjudge : verifier.judge with
  | none =>
    rw [hjudge] at h
    exact ⟨hstatus h, fun judge hsome => by rw [hjudge] at hsome; cases hsome⟩
  | some judge =>
    rw [hjudge] at h
    obtain ⟨hlabel, hpassed⟩ := judged_supported h
    refine ⟨hpassed.elim hstatus fun hnone => not_not.mp (of_decide_eq_false hnone), fun other hother => ?_⟩
    rw [hjudge] at hother
    cases hother
    exact hlabel

theorem verifyAgainst_status : (verifyAgainst verifier unit source).supportStatus = "SOURCE_SUPPORTED" ∨
    (verifyAgainst verifier unit source).supportStatus = "NEEDS_REVIEW" := by
  have hstatus {threshold score : Binary64} : (if (checksOf verifier unit source).hardFailed = [] && threshold.le score
      then "SOURCE_SUPPORTED" else "NEEDS_REVIEW") = "SOURCE_SUPPORTED" ∨
      (if (checksOf verifier unit source).hardFailed = [] && threshold.le score
      then "SOURCE_SUPPORTED" else "NEEDS_REVIEW") = "NEEDS_REVIEW" := by
    split
    · exact .inl rfl
    · exact .inr rfl
  unfold verifyAgainst
  cases verifier.judge with
  | none => exact hstatus
  | some judge => exact judged_status hstatus

/-- Support from the source: all hard checks passed on located evidence, and the judge did not object. -/
theorem verify_supported (h : (verify verifier unit).supportStatus = "SOURCE_SUPPORTED") :
    ∃ primary, primaryOf unit.evidence = some primary ∧ isLocated primary = true ∧
      (checksOf verifier unit (sourceText primary)).hardFailed = [] ∧ NotContradicted verifier unit (sourceText primary) := by
  unfold verify at h
  split at h
  · exact absurd h (by decide)
  · rename_i primary hprimary
    obtain ⟨hfound, hlocated⟩ := Option.filter_eq_some_iff.mp hprimary
    split at h
    · exact absurd h (by decide)
    · obtain ⟨hpassed, hjudge⟩ := verifyAgainst_supported h
      exact ⟨primary, hfound, hlocated, hpassed, hjudge⟩

theorem verify_status_ne (verifier : ClaimEvidenceVerifier) (unit : CheckedUnit) :
    (verify verifier unit).supportStatus ≠ "CROSS_MODAL_SUPPORTED" := by
  unfold verify
  split
  · decide
  · split
    · decide
    · rcases @verifyAgainst_status verifier unit _ with h | h <;> rw [h] <;> decide

theorem verify_score (verifier : ClaimEvidenceVerifier) (unit : CheckedUnit) :
    (Binary64.natural 0).le (verify verifier unit).supportScore = true ∧
      (verify verifier unit).supportScore.le (.natural 1) = true := by
  unfold verify
  split
  · exact resultOf_score _ _ _ _
  · split
    · exact resultOf_score _ _ _ _
    · unfold verifyAgainst
      cases verifier.judge with
      | none => exact clamp_bounds _
      | some judge => exact clamp_bounds _

end Claim

section Gate
variable {tables : EvidenceTables} {evidence : List EvidenceItem} {status default : String}
  {quality : EvidenceQualityStatus} {reasons : List String}

/-- The gate gives no support, and leaves it only where the quality is known and not low. -/
theorem gate_supported (h : (gate tables evidence status default quality reasons).supportStatus = "SOURCE_SUPPORTED" ∨
      (gate tables evidence status default quality reasons).supportStatus = "CROSS_MODAL_SUPPORTED") :
    (gate tables evidence status default quality reasons).supportStatus = status ∧ (quality = .high ∨ quality = .medium) := by
  unfold gate at h ⊢
  split at h
  · rename_i hnone
    rcases h with h | h <;> exact absurd (h.symm.trans hnone) (by decide)
  · rename_i hsome
    rw [if_neg hsome]
    split at h
    · rcases h with h | h <;> exact absurd (show "NEEDS_REVIEW" = _ from h) (by decide)
    · rename_i hlow
      rw [if_neg hlow]
      split at h
      · rename_i hunknown
        dsimp only at h
        split at h
        · rcases h with h | h <;> exact absurd (show "SOURCE_LOCATED" = _ from h) (by decide)
        · rename_i hstatus
          simp only [Bool.or_eq_true, decide_eq_true_eq] at hstatus
          exact absurd h hstatus
      · rename_i hknown
        rw [if_neg hknown]
        refine ⟨rfl, ?_⟩
        cases quality with
        | high => exact .inl rfl
        | medium => exact .inr rfl
        | low => exact absurd rfl hlow
        | unknown => exact absurd rfl hknown

end Gate

section Cross
variable {verifier : CrossModalVerifier} {unit : ClaimUnit} {extraOcr : List EvidenceItem}

theorem crossVerdict_supported {entry : Qualified} (h : crossVerdict verifier unit extraOcr = .supported entry) :
    unit.supportStatus = some "SOURCE_SUPPORTED" ∧ claimValues verifier unit ≠ [] ∧
      entry ∈ qualified verifier unit extraOcr ∧ isSupport verifier unit entry = true := by
  unfold crossVerdict at h
  split at h
  · cases h
  · split at h
    · cases h
    · rename_i hready
      rw [Bool.or_eq_true, not_or, decide_eq_true_eq, decide_eq_true_eq, not_not] at hready
      split at h
      · rename_i found hfound
        cases h
        exact ⟨hready.1, hready.2, List.mem_of_find?_eq_some hfound, List.find?_some hfound⟩
      · cases h

/-- Only the verdict is written. -/
theorem verifyOne_frame (verifier : CrossModalVerifier) (unit : ClaimUnit) (extraOcr : List EvidenceItem) :
    ∃ supportStatus verificationStatus crossModal,
      verifyOne verifier unit extraOcr = { unit with supportStatus, verificationStatus, crossModal } := by
  unfold verifyOne
  split
  · exact ⟨_, _, _, rfl⟩
  · exact ⟨_, _, _, rfl⟩
  · exact ⟨_, _, _, rfl⟩

theorem verifyOne_sourceSupported (h : (verifyOne verifier unit extraOcr).supportStatus = some "SOURCE_SUPPORTED") :
    unit.supportStatus = some "SOURCE_SUPPORTED" := by
  unfold verifyOne at h
  split at h
  · exact h
  · exact absurd (Option.some.inj h) (by decide)
  · exact absurd (Option.some.inj h) (by decide)

theorem verifyOne_crossSupported (h : (verifyOne verifier unit extraOcr).supportStatus = some "CROSS_MODAL_SUPPORTED")
    (hbefore : unit.supportStatus ≠ some "CROSS_MODAL_SUPPORTED") :
    ∃ entry, crossVerdict verifier unit extraOcr = .supported entry := by
  unfold verifyOne at h
  split at h
  · exact absurd h hbefore
  · exact absurd (Option.some.inj h) (by decide)
  · exact ⟨_, ‹_›⟩

/-- An item that supports a claim: it may have been there at the same time, it can be read well enough, it names the subject
of a unit that has one, and it has the numbers of the claim. -/
structure SeenSupport (verifier : CrossModalVerifier) (unit : ClaimUnit) (extraOcr : List EvidenceItem)
    (primary ocr : EvidenceItem) : Prop where
  given : ocr ∈ unit.evidence ∨ ocr ∈ extraOcr
  isOcr : isOcr verifier.tables ocr = true
  near : overlaps primary ocr = true
  level : ocrLevel verifier ocr = .high ∨ ocrLevel verifier ocr = .medium
  named : subjectHit verifier unit (ocrText verifier.tables ocr) = true
  valued : claimValues verifier unit ≠ []
  matched : numbersMatch (claimValues verifier unit) (numbersOf verifier.tables (ocrText verifier.tables ocr)) = true

theorem isSupport_parts {entry : Qualified} (h : isSupport verifier unit entry = true) :
    (entry.level = .high ∨ entry.level = .medium) ∧ entry.subjectHit = true ∧
      numbersMatch (claimValues verifier unit) entry.numbers = true := by
  rw [isSupport, Bool.and_eq_true, Bool.and_eq_true, Bool.and_eq_true, Bool.and_eq_true, Bool.or_eq_true,
    decide_eq_true_eq, decide_eq_true_eq] at h
  exact ⟨h.1.1.1.1, h.1.1.1.2, h.1.2⟩

theorem mem_ocrItems {ocr : EvidenceItem} (h : ocr ∈ ocrItems verifier unit extraOcr) :
    (ocr ∈ unit.evidence ∨ ocr ∈ extraOcr) ∧ isOcr verifier.tables ocr = true ∧
      ∃ primary, primaryOf unit.evidence = some primary ∧ overlaps primary ocr = true := by
  have hnear {candidates : List EvidenceItem}
      (h : ocr ∈ overlappingOcr verifier.tables (primaryOf unit.evidence) candidates) : ocr ∈ candidates ∧
        isOcr verifier.tables ocr = true ∧ ∃ primary, primaryOf unit.evidence = some primary ∧ overlaps primary ocr = true := by
    obtain ⟨hmem, hboth⟩ := List.mem_filter.mp h
    obtain ⟨hocr, hany⟩ := Bool.and_eq_true_iff.mp hboth
    exact ⟨hmem, hocr, (Option.any_eq_true _ _).mp hany⟩
  rcases List.mem_append.mp h with hin | hin
  · exact ⟨.inl (hnear hin).1, (hnear hin).2⟩
  · exact ⟨.inr (hnear hin).1, (hnear hin).2⟩

theorem seenSupport_of_qualify {primary ocr : EvidenceItem} (hocr : ocr ∈ ocrItems verifier unit extraOcr)
    (hnear : overlaps primary ocr = true) (hvalued : claimValues verifier unit ≠ [])
    (hsupport : isSupport verifier unit (qualify verifier unit ocr) = true) :
    SeenSupport verifier unit extraOcr primary ocr := by
  obtain ⟨hgiven, hisOcr, _⟩ := mem_ocrItems hocr
  obtain ⟨hlevel, hnamed, hmatched⟩ := isSupport_parts hsupport
  dsimp only [qualify] at hlevel hnamed hmatched
  exact ⟨hgiven, hisOcr, hnear, hlevel, hnamed, hvalued, hmatched⟩

theorem mem_qualified {entry : Qualified} (h : entry ∈ qualified verifier unit extraOcr) :
    ∃ ocr ∈ ocrItems verifier unit extraOcr, qualify verifier unit ocr = entry := by
  rw [qualified] at h
  exact List.mem_map.mp (List.mem_of_mem_filter h)

theorem seenSupport_of_supported {entry : Qualified} (h : crossVerdict verifier unit extraOcr = .supported entry) :
    ∃ primary ocr, primaryOf unit.evidence = some primary ∧ SeenSupport verifier unit extraOcr primary ocr := by
  obtain ⟨_, hvalued, hqualified, hsupport⟩ := crossVerdict_supported h
  obtain ⟨ocr, hocr, hentry⟩ := mem_qualified hqualified
  obtain ⟨_, _, primary, hprimary, hnear⟩ := mem_ocrItems hocr
  rw [← hentry] at hsupport
  exact ⟨primary, ocr, hprimary, seenSupport_of_qualify hocr hnear hvalued hsupport⟩

end Cross

section Safety
variable {normalizer : KnowledgeUnitNormalizer} {cross : CrossModalVerifier} {title : String}
  {extraOcr : List EvidenceItem} {unit : KnowledgeUnit}

/-- What support of a unit rests on. -/
structure Evidenced (verifier : ClaimEvidenceVerifier) (unit : KnowledgeUnit) : Prop where
  checked : ∃ primary, primaryOf unit.evidence = some primary ∧ isLocated primary = true ∧
    (checksOf verifier unit.toCheckedUnit (sourceText primary)).hardFailed = [] ∧
    NotContradicted verifier unit.toCheckedUnit (sourceText primary)
  quality : unit.evidenceQualityStatus = some "HIGH" ∨ unit.evidenceQualityStatus = some "MEDIUM"
  score : ∃ score, unit.supportScore = some score ∧ (Binary64.natural 0).le score = true ∧ score.le (.natural 1) = true

theorem settled_evidenced {candidate : KnowledgeUnit} (h : (settled normalizer candidate).supportStatus = some "SOURCE_SUPPORTED" ∨
      (settled normalizer candidate).supportStatus = some "CROSS_MODAL_SUPPORTED") :
    (settled normalizer candidate).supportStatus = some "SOURCE_SUPPORTED" ∧
      Evidenced normalizer.verifier (settled normalizer candidate) := by
  obtain ⟨hsame, hquality⟩ := gate_supported (h.imp (fun h => Option.some.inj h) fun h => Option.some.inj h)
  have hstatus : (verify normalizer.verifier candidate.toCheckedUnit).supportStatus = "SOURCE_SUPPORTED" := by
    rw [← hsame]
    refine h.elim (fun h => Option.some.inj h) fun h => absurd ?_ (verify_status_ne normalizer.verifier candidate.toCheckedUnit)
    rw [← hsame]
    exact Option.some.inj h
  refine ⟨congrArg some (hsame.trans hstatus), verify_supported hstatus, ?_, ?_⟩
  · exact hquality.imp (congrArg fun quality : EvidenceQualityStatus => some quality.value)
      (congrArg fun quality : EvidenceQualityStatus => some quality.value)
  · exact ⟨_, rfl, verify_score normalizer.verifier candidate.toCheckedUnit⟩

/-- Support never comes without its evidence: neither from the source, nor from what is seen. -/
theorem support_evidenced {units : List KnowledgeUnit} (hunit : unit ∈ crossVerify cross extraOcr (normalize normalizer title units))
    (h : unit.supportStatus = some "SOURCE_SUPPORTED" ∨ unit.supportStatus = some "CROSS_MODAL_SUPPORTED") :
    Evidenced normalizer.verifier unit ∧ (unit.supportStatus = some "CROSS_MODAL_SUPPORTED" →
      ∃ primary ocr, primaryOf unit.evidence = some primary ∧ SeenSupport cross unit.toClaimUnit extraOcr primary ocr) := by
  obtain ⟨before, hbefore, rfl⟩ := List.mem_map.mp hunit
  obtain ⟨raw, _, hraw⟩ := List.mem_filterMap.mp hbefore
  obtain ⟨candidate, rfl⟩ : ∃ candidate, before = settled normalizer candidate := by
    unfold normalizeUnit at hraw
    dsimp only at hraw
    split at hraw
    · cases hraw
    · exact ⟨_, (Option.some.inj hraw).symm⟩
  have hready : (settled normalizer candidate).supportStatus = some "SOURCE_SUPPORTED" := by
    by_contra hnot
    rcases h with h | h
    · exact hnot (verifyOne_sourceSupported h)
    · by_cases hcross : (settled normalizer candidate).supportStatus = some "CROSS_MODAL_SUPPORTED"
      · exact hnot (settled_evidenced (.inr hcross)).1
      · obtain ⟨entry, hentry⟩ := verifyOne_crossSupported h hcross
        exact hnot (crossVerdict_supported hentry).1
  obtain ⟨_, hevidenced⟩ := settled_evidenced (.inl hready)
  have hne : (settled normalizer candidate).supportStatus ≠ some "CROSS_MODAL_SUPPORTED" := by
    rw [hready]
    decide
  have hseen (hcross : (verifyOne cross (settled normalizer candidate).toClaimUnit extraOcr).supportStatus =
      some "CROSS_MODAL_SUPPORTED") : ∃ primary ocr, primaryOf (settled normalizer candidate).evidence = some primary ∧
        SeenSupport cross (settled normalizer candidate).toClaimUnit extraOcr primary ocr := by
    obtain ⟨entry, hentry⟩ := verifyOne_crossSupported hcross hne
    exact seenSupport_of_supported hentry
  obtain ⟨status, verification, crossModal, hframe⟩ :=
    verifyOne_frame cross (settled normalizer candidate).toClaimUnit extraOcr
  rw [hframe] at hseen ⊢
  refine ⟨⟨hevidenced.checked, hevidenced.quality, hevidenced.score⟩, fun hcross => ?_⟩
  obtain ⟨primary, ocr, hprimary, hseen⟩ := hseen hcross
  exact ⟨primary, ocr, hprimary, hseen.given, hseen.isOcr, hseen.near, hseen.level, hseen.named, hseen.valued, hseen.matched⟩

end Safety
section Untimed

/-- Both stretches of time are known, and they overlap. -/
def OverlapInTime (left right : EvidenceItem) : Prop :=
  ∃ leftStart leftEnd rightStart rightEnd, left.startMs = some leftStart ∧ left.endMs = some leftEnd ∧
    right.startMs = some rightStart ∧ right.endMs = some rightEnd ∧ leftStart.lt rightEnd = true ∧ rightStart.lt leftEnd = true

def untimedNormalizer : KnowledgeUnitNormalizer where
  verifier := { tables := { plainNumberTables with lower := List.map Char.toLower } }
  extractEntities := fun _ _ => []

def untimedCross : CrossModalVerifier := { tables := plainNumberTables }

def untimedUnit : KnowledgeUnit where
  statement := some "公司甲营收30亿元"
  evidence := [{
    isPrimary := true
    startMs := some (.natural 0)
    endMs := some (.natural 10)
    sourceType := some "ASR"
    rawText := some "公司甲营收30亿元"
    confidenceScore := some (some (.ofDecimal 9 1)) }]
  subjectName := some "公司甲"
  subjectKey := some "公司甲"

/-- A frame that no time is known of. -/
def untimedFrame : EvidenceItem where
  rawText := some "公司甲营收30亿元"
  score := some (some (.natural 1))

def untimedUnits : List KnowledgeUnit := crossVerify untimedCross [untimedFrame] (normalize untimedNormalizer "" [untimedUnit])

theorem untimedUnits_supported : untimedUnits.any (fun unit => unit.supportStatus = some "CROSS_MODAL_SUPPORTED" &&
    (unit.evidence ++ [untimedFrame]).all fun ocr => !isOcr untimedCross.tables ocr || ocr.startMs.isNone) = true := by
  decide +kernel

theorem exists_untimed_supported : ∃ unit ∈ untimedUnits, unit.supportStatus = some "CROSS_MODAL_SUPPORTED" ∧
    ∀ ocr, ocr ∈ unit.evidence ∨ ocr ∈ [untimedFrame] → isOcr untimedCross.tables ocr = true → ocr.startMs = none := by
  obtain ⟨unit, hunit, hboth⟩ := List.any_eq_true.mp untimedUnits_supported
  obtain ⟨hstatus, hall⟩ := Bool.and_eq_true_iff.mp hboth
  refine ⟨unit, hunit, of_decide_eq_true hstatus, fun ocr hocr hisOcr => ?_⟩
  have huntimed := List.all_eq_true.mp hall ocr (List.mem_append.mpr hocr)
  rw [hisOcr] at huntimed
  exact Option.isNone_iff_eq_none.mp huntimed

theorem support_evidenced_untimed : ∃ unit ∈ untimedUnits, Evidenced untimedNormalizer.verifier unit ∧
    ∃ primary ocr, primaryOf unit.evidence = some primary ∧
      SeenSupport untimedCross unit.toClaimUnit [untimedFrame] primary ocr := by
  obtain ⟨unit, hunit, hstatus, _⟩ := exists_untimed_supported
  obtain ⟨hevidenced, hseen⟩ := support_evidenced hunit (.inr hstatus)
  exact ⟨unit, hunit, hevidenced, hseen hstatus⟩

/-- Support from a frame does not say that the frame was there while the claim was made. -/
theorem not_overlapInTime_untimed : ¬ ∀ unit ∈ untimedUnits, unit.supportStatus = some "CROSS_MODAL_SUPPORTED" →
    ∃ primary ocr, primaryOf unit.evidence = some primary ∧
      SeenSupport untimedCross unit.toClaimUnit [untimedFrame] primary ocr ∧ OverlapInTime primary ocr := by
  intro hall
  obtain ⟨unit, hunit, hstatus, huntimed⟩ := exists_untimed_supported
  obtain ⟨primary, ocr, _, hseen, _, _, start, _, _, _, hstart, _⟩ := hall unit hunit hstatus
  rw [huntimed ocr hseen.given hseen.isOcr] at hstart
  cases hstart

end Untimed

end StockContent.Evidence
