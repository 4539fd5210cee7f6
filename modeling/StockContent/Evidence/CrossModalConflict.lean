import StockContent.Evidence.CrossModalVerifier

/-! When a conflict is reported. One pair of comparable numbers is enough to look for a mismatch, and the mismatch is
looked for among all numbers of the claim: one that has no counterpart at all counts as a mismatch too. -/
namespace StockContent.Evidence
open StockContent.Text StockContent.Numeric

section Numbers
variable {claim ocr : FinancialNumericValue} {claims numbers : List FinancialNumericValue}

/-- Some number of the claim has counterparts, and matches none of them. -/
def Disagrees (claims numbers : List FinancialNumericValue) : Prop :=
  ∃ claim ∈ claims, (∃ ocr ∈ numbers, comparable claim ocr = true) ∧
    ∀ ocr ∈ numbers, comparable claim ocr = true → numericValuesMatch claim ocr = false

/-- Every number of the claim with a counterpart matches one, and there is such a number; another one has no counterpart. -/
def AgreesInPart (claims numbers : List FinancialNumericValue) : Prop :=
  (∃ claim ∈ claims, ∃ ocr ∈ numbers, comparable claim ocr = true) ∧
    (∀ claim ∈ claims, (∃ ocr ∈ numbers, comparable claim ocr = true) →
      ∃ ocr ∈ numbers, comparable claim ocr = true ∧ numericValuesMatch claim ocr = true) ∧
    ∃ claim ∈ claims, ∀ ocr ∈ numbers, comparable claim ocr = false

theorem differ_unit_of_match (h : numericValuesMatch claim ocr = true) : differ claim.unit ocr.unit = false := by
  refine Bool.eq_false_iff.mpr fun hdiffer => ?_
  rw [differ] at hdiffer
  rw [numericValuesMatch, if_pos hdiffer] at h
  cases h

/-- A number is matched by a counterpart. -/
theorem isMatched_iff :
    isMatched claim numbers = true ↔ ∃ ocr ∈ numbers, comparable claim ocr = true ∧ numericValuesMatch claim ocr = true := by
  rw [isMatched, List.any_eq_true]
  refine exists_congr fun ocr => and_congr_right fun _ => ?_
  rw [Bool.and_eq_true, comparable, Bool.and_eq_true]
  constructor
  · rintro ⟨hmetric, hmatch⟩
    exact ⟨⟨hmetric, Bool.not_eq_true' _ ▸ differ_unit_of_match hmatch⟩, hmatch⟩
  · rintro ⟨⟨hmetric, _⟩, hmatch⟩
    exact ⟨hmetric, hmatch⟩

/-- What is counted as a conflict: a disagreement, or an agreement in part. -/
theorem numbersConflict_iff : numbersConflict claims numbers = true ↔ Disagrees claims numbers ∨ AgreesInPart claims numbers := by
  have hunmatched : numbersMatch claims numbers = false ↔ ∃ claim ∈ claims, isMatched claim numbers = false := by
    rw [numbersMatch, List.all_eq_false]
    simp only [Bool.not_eq_true]
  have hpair : claims.any (fun claim => numbers.any fun ocr => comparable claim ocr) = true ↔
      ∃ claim ∈ claims, ∃ ocr ∈ numbers, comparable claim ocr = true := by
    simp only [List.any_eq_true]
  have hnone {claim : FinancialNumericValue} (h : isMatched claim numbers = false) :
      ∀ ocr ∈ numbers, comparable claim ocr = true → numericValuesMatch claim ocr = false := by
    intro ocr hocr hcomparable
    refine Bool.eq_false_iff.mpr fun hmatch => Bool.eq_false_iff.mp h (isMatched_iff.mpr ⟨ocr, hocr, hcomparable, hmatch⟩)
  rw [numbersConflict, Bool.and_eq_true, Bool.not_eq_true', hunmatched, hpair]
  constructor
  · rintro ⟨hsome, claim, hclaim, hmissed⟩
    by_cases hdisagrees : Disagrees claims numbers
    · exact .inl hdisagrees
    · refine .inr ⟨hsome, fun other hother hcounterpart => isMatched_iff.mp ?_, claim, hclaim, fun ocr hocr => ?_⟩
      · by_contra hnot
        exact hdisagrees ⟨other, hother, hcounterpart, hnone (Bool.eq_false_iff.mpr hnot)⟩
      · refine Bool.eq_false_iff.mpr fun hcomparable => ?_
        exact hdisagrees ⟨claim, hclaim, ⟨ocr, hocr, hcomparable⟩, hnone hmissed⟩
  · rintro (⟨claim, hclaim, hcounterpart, hmissed⟩ | ⟨hsome, _, claim, hclaim, halone⟩)
    · refine ⟨⟨claim, hclaim, hcounterpart⟩, claim, hclaim, Bool.eq_false_iff.mpr fun hmatched => ?_⟩
      obtain ⟨ocr, hocr, hcomparable, hmatch⟩ := isMatched_iff.mp hmatched
      exact Bool.eq_false_iff.mp (hmissed ocr hocr hcomparable) hmatch
    · refine ⟨hsome, claim, hclaim, Bool.eq_false_iff.mpr fun hmatched => ?_⟩
      obtain ⟨ocr, hocr, hcomparable, _⟩ := isMatched_iff.mp hmatched
      exact Bool.eq_false_iff.mp (halone ocr hocr) hcomparable

theorem Disagrees.ne_nil (h : Disagrees claims numbers) : claims ≠ [] ∧ numbers ≠ [] := by
  obtain ⟨claim, hclaim, ⟨ocr, hocr, _⟩, _⟩ := h
  exact ⟨List.ne_nil_of_mem hclaim, List.ne_nil_of_mem hocr⟩

theorem AgreesInPart.ne_nil (h : AgreesInPart claims numbers) : claims ≠ [] ∧ numbers ≠ [] := by
  obtain ⟨⟨claim, hclaim, ocr, hocr, _⟩, _⟩ := h
  exact ⟨List.ne_nil_of_mem hclaim, List.ne_nil_of_mem hocr⟩

end Numbers

section Conflict
variable (verifier : CrossModalVerifier) (unit : ClaimUnit) (extraOcr : List EvidenceItem)

/-- The verifier reports a conflict, whatever an earlier run left in the unit. -/
def reportsConflict : Bool :=
  (verifyOne verifier { unit with crossModal := none } extraOcr).crossModal.any (·.status = "CROSS_MODAL_CONFLICT")

/-- The items that count with full weight: of high confidence, and naming the subject of a unit that has one. -/
def weighty : List Qualified :=
  (qualified verifier unit extraOcr).filter fun entry => entry.level = .high && entry.subjectHit

/-- A conflict is reported only over a real disagreement. -/
def ConflictIsReal : Prop :=
  reportsConflict verifier unit extraOcr = true →
    ∃ entry ∈ weighty verifier unit extraOcr, Disagrees (claimValues verifier unit) entry.numbers

variable {verifier unit extraOcr}

theorem crossVerdict_clear : crossVerdict verifier { unit with crossModal := none } extraOcr = crossVerdict verifier unit extraOcr :=
  rfl

theorem reportsConflict_iff : reportsConflict verifier unit extraOcr = true ↔
    ∃ entry, crossVerdict verifier unit extraOcr = .conflict entry := by
  rw [reportsConflict, verifyOne, crossVerdict_clear]
  cases crossVerdict verifier unit extraOcr with
  | unchanged => exact iff_of_false Bool.false_ne_true fun h => by obtain ⟨_, h⟩ := h; cases h
  | conflict entry => exact iff_of_true (by simp) ⟨entry, rfl⟩
  | supported entry => exact iff_of_false (by simp) fun h => by obtain ⟨_, h⟩ := h; cases h

theorem isConflict_iff {entry : Qualified} : isConflict (claimValues verifier unit) entry = true ↔
    (entry.level = .high ∧ entry.subjectHit = true) ∧
      (Disagrees (claimValues verifier unit) entry.numbers ∨ AgreesInPart (claimValues verifier unit) entry.numbers) := by
  simp only [isConflict, Bool.and_eq_true, decide_eq_true_eq, numbersConflict_iff, and_assoc, ne_eq]
  refine and_congr_right fun _ => and_congr_right fun _ => ?_
  constructor
  · rintro ⟨_, _, h⟩
    exact h
  · intro h
    have hne := h.elim Disagrees.ne_nil AgreesInPart.ne_nil
    exact ⟨hne.1, hne.2, h⟩

/-- A conflict is reported where an item of full weight disagrees, or agrees in part. -/
theorem reportsConflict_iff_weighty : reportsConflict verifier unit extraOcr = true ↔
    ∃ entry ∈ weighty verifier unit extraOcr,
      Disagrees (claimValues verifier unit) entry.numbers ∨ AgreesInPart (claimValues verifier unit) entry.numbers := by
  have hfound : (∃ entry, crossVerdict verifier unit extraOcr = .conflict entry) ↔
      ∃ entry ∈ qualified verifier unit extraOcr, isConflict (claimValues verifier unit) entry = true := by
    rw [crossVerdict]
    cases hfind : (qualified verifier unit extraOcr).find? (isConflict (claimValues verifier unit)) with
    | some entry =>
      exact iff_of_true ⟨entry, rfl⟩ ⟨entry, List.mem_of_find?_eq_some hfind, List.find?_some hfind⟩
    | none =>
      refine iff_of_false ?_ fun h => ?_
      · dsimp only
        rintro ⟨entry, h⟩
        split at h
        · cases h
        · split at h <;> cases h
      · obtain ⟨entry, hentry, hconflict⟩ := h
        exact List.find?_eq_none.mp hfind entry hentry hconflict
  rw [reportsConflict_iff, hfound]
  refine exists_congr fun entry => ?_
  rw [isConflict_iff, weighty, List.mem_filter, Bool.and_eq_true, decide_eq_true_eq]
  exact and_assoc.symm

/-- Conflicts are real exactly where some item of full weight disagrees or none agrees in part. -/
theorem conflictIsReal_iff : ConflictIsReal verifier unit extraOcr ↔
    (∃ entry ∈ weighty verifier unit extraOcr, Disagrees (claimValues verifier unit) entry.numbers) ∨
      ∀ entry ∈ weighty verifier unit extraOcr, ¬ AgreesInPart (claimValues verifier unit) entry.numbers := by
  rw [ConflictIsReal, reportsConflict_iff_weighty]
  constructor
  · intro hreal
    by_cases hpart : ∃ entry ∈ weighty verifier unit extraOcr, AgreesInPart (claimValues verifier unit) entry.numbers
    · obtain ⟨entry, hentry, hpart⟩ := hpart
      exact .inl (hreal ⟨entry, hentry, .inr hpart⟩)
    · exact .inr fun entry hentry hentryPart => hpart ⟨entry, hentry, hentryPart⟩
  · rintro (hdisagrees | hnone) ⟨entry, hentry, hconflict⟩
    · exact hdisagrees
    · exact ⟨entry, hentry, hconflict.resolve_right (hnone entry hentry)⟩

end Conflict

section Partial

/-- The claim has a second number. -/
def partialUnit : ClaimUnit where
  statement := some "公司甲市盈率20倍，营收30亿元"
  evidence := [{ isPrimary := true, startMs := some (.natural 0), endMs := some (.natural 10), sourceType := some "ASR" }]
  subjectName := some "公司甲"
  supportStatus := some "SOURCE_SUPPORTED"

def partialFrame : EvidenceItem where
  rawText := some "公司甲市盈率20倍"
  score := some (some (.natural 1))

def plainVerifier : CrossModalVerifier := { tables := plainNumberTables }

/-- The frame gives the price-earnings ratio of the claim and nothing on its revenue; a conflict is reported. -/
theorem not_conflictIsReal_partial : ¬ ConflictIsReal plainVerifier partialUnit [partialFrame] := by
  have hreports : reportsConflict plainVerifier partialUnit [partialFrame] = true := by decide +kernel
  have hagrees : ((weighty plainVerifier partialUnit [partialFrame]).all fun entry =>
      (claimValues plainVerifier partialUnit).all fun claim =>
        entry.numbers.all fun ocr => !comparable claim ocr || numericValuesMatch claim ocr) = true := by decide +kernel
  intro hreal
  obtain ⟨entry, hentry, claim, hclaim, ⟨ocr, hocr, hcomparable⟩, hmissed⟩ := hreal hreports
  have hmatch := List.all_eq_true.mp (List.all_eq_true.mp (List.all_eq_true.mp hagrees entry hentry) claim hclaim) ocr hocr
  rw [hcomparable, hmissed ocr hocr hcomparable] at hmatch
  cases hmatch

end Partial
end StockContent.Evidence
