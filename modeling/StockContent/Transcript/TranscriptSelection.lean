import StockContent.Transcript.TranscriptSoundness

/-! Which transcript is used. A candidate that passes alone comes first: official subtitles, then automatic ones, then
speech. Where none does, the gaps of a subtitle are filled with aligned speech. -/
namespace StockContent.Transcript
open Storage Text Numeric

section First
variable {A B E : Type} {f : A → Except E (Option B)} {xs ys : List A} {b : B}

theorem findSomeM?_cons (f : A → Except E (Option B)) (x : A) (xs : List A) : (x :: xs).findSomeM? f =
    f x >>= fun found => found.elim (xs.findSomeM? f) fun b => .ok (some b) := by
  rw [List.findSomeM?]
  refine bind_congr fun found => ?_
  cases found <;> rfl

/-- Nothing is found exactly where no element has anything. -/
theorem findSomeM?_eq_none : xs.findSomeM? f = .ok none ↔ ∀ x ∈ xs, f x = .ok none := by
  induction xs with
  | nil => exact iff_of_true rfl (List.forall_mem_nil _)
  | cons x xs ih =>
    rw [findSomeM?_cons, bind_eq_ok, List.forall_mem_cons, ← ih]
    constructor
    · rintro ⟨found, hx, hrest⟩
      cases found with
      | none => exact ⟨hx, hrest⟩
      | some b => cases hrest
    · rintro ⟨hx, hrest⟩
      exact ⟨none, hx, hrest⟩

/-- What is found is what the first element has that has anything. -/
theorem findSomeM?_eq_some : xs.findSomeM? f = .ok (some b) ↔
    ∃ before x after, xs = before ++ x :: after ∧ (∀ y ∈ before, f y = .ok none) ∧ f x = .ok (some b) := by
  induction xs with
  | nil =>
    refine iff_of_false (fun h => by cases h) ?_
    rintro ⟨before, x, after, hnil, _⟩
    exact List.append_ne_nil_of_right_ne_nil before (List.cons_ne_nil x after) hnil.symm
  | cons x xs ih =>
    rw [findSomeM?_cons, bind_eq_ok]
    constructor
    · rintro ⟨found, hx, hrest⟩
      cases found with
      | none =>
        obtain ⟨before, y, after, rfl, hbefore, hy⟩ := ih.mp hrest
        exact ⟨x :: before, y, after, rfl, List.forall_mem_cons.mpr ⟨hx, hbefore⟩, hy⟩
      | some c =>
        cases hrest
        exact ⟨[], x, xs, rfl, List.forall_mem_nil _, hx⟩
    · rintro ⟨before, y, after, hsplit, hbefore, hy⟩
      cases before with
      | nil =>
        obtain ⟨rfl, rfl⟩ := List.cons.inj hsplit
        exact ⟨some b, hy, rfl⟩
      | cons z before =>
        obtain ⟨rfl, rfl⟩ := List.cons.inj hsplit
        obtain ⟨hz, hbefore⟩ := List.forall_mem_cons.mp hbefore
        exact ⟨none, hz, ih.mpr ⟨before, y, after, rfl, hbefore, hy⟩⟩

theorem findSomeM?_append : (xs ++ ys).findSomeM? f = .ok (some b) ↔
    xs.findSomeM? f = .ok (some b) ∨ xs.findSomeM? f = .ok none ∧ ys.findSomeM? f = .ok (some b) := by
  induction xs with
  | nil =>
    refine ⟨fun h => .inr ⟨rfl, h⟩, ?_⟩
    rintro (h | h)
    · cases h
    · exact h.2
  | cons x xs ih =>
    rw [List.cons_append, findSomeM?_cons, findSomeM?_cons]
    cases f x with
    | error e => exact iff_of_false (fun h => by cases h) fun h => by rcases h with h | ⟨h, _⟩ <;> cases h
    | ok found =>
      cases found with
      | none => exact ih
      | some c => exact ⟨.inl, fun h => h.resolve_right fun h => by cases h.1⟩

end First

section Select
variable {tables : TranscriptTables}

structure TranscriptSelection (tables : TranscriptTables) where
  segments : List (TranscriptCandidateSegment tables)
  language : String
  report : TranscriptQualityReport

inductive SelectionError where
  | quality (error : TranscriptError)
  | transcriptSelectionError (report : TranscriptQualityReport)

/-- A selection, and the subtitle and the speech it comes from. -/
structure Choice (tables : TranscriptTables) where
  candidate : TranscriptCandidate tables
  speech : Option (TranscriptCandidate tables) := none
  selection : TranscriptSelection tables

/-- The stretches before, between and after segments in order. -/
def gapsFromCursor (durationMs : Int) : Int → List (TranscriptCandidateSegment tables) → List Span
  | cursor, [] => if cursor < durationMs then [(cursor, durationMs)] else []
  | cursor, item :: rest =>
    (if cursor < item.startMs then [(cursor, item.startMs)] else []) ++
      gapsFromCursor durationMs (max cursor item.endMs) rest

/-- `TranscriptSelectionService._gaps`. -/
def gaps (segments : List (TranscriptCandidateSegment tables)) (durationMs : Int) : List Span :=
  gapsFromCursor durationMs 0 segments

variable (candidates : List (TranscriptCandidate tables)) (durationMs : Int)

def officialOf : List (TranscriptCandidate tables) :=
  candidates.filter fun item => item.source = .officialSubtitle && item.isChinese

def autoOf : List (TranscriptCandidate tables) :=
  candidates.filter fun item => item.source = .autoSubtitle && item.isChinese

def asrOf : List (TranscriptCandidate tables) := candidates.filter fun item => item.source = .asr

def candidateKey (item : TranscriptCandidate tables) : String ×ₗ String := toLex (item.candidateId, item.sourceArtifactId)

def subtitleKey (item : TranscriptCandidate tables) : String ×ₗ String := toLex (item.source.value, item.candidateId)

def combinedKey (item : TranscriptCandidateSegment tables) : Int ×ₗ Int ×ₗ String ×ₗ String :=
  toLex (item.startMs, toLex (item.endMs, toLex (item.sourceArtifactId, item.rawText)))

/-- A candidate as it is. An official one that has more against it than gaps ends the search. -/
def tryAlone (official : List (TranscriptCandidate tables)) (candidate : TranscriptCandidate tables) :
    Except SelectionError (Option (Choice tables)) := do
  let report ← (evaluate candidate.orderedSegments durationMs candidate.language).mapError .quality
  if report.qualityStatus = .pass then
    return some { candidate, selection := ⟨candidate.orderedSegments, candidate.language, report⟩ }
  else if official.contains candidate && report.reasonCodes.any (· ≠ "COVERAGE_BELOW_90_PERCENT") then
    .error (.transcriptSelectionError report)
  else return none

def additions (subtitle speech : TranscriptCandidate tables) : List (TranscriptCandidateSegment tables) :=
  speech.orderedSegments.filter fun item =>
    (gaps subtitle.orderedSegments durationMs).any fun gap => gap.1 ≤ item.startMs && item.endMs ≤ gap.2

def combined (subtitle speech : TranscriptCandidate tables) : List (TranscriptCandidateSegment tables) :=
  sortedBy combinedKey (subtitle.orderedSegments ++ additions durationMs subtitle speech)

def isAligned (speech : TranscriptCandidate tables) : Bool := speech.segments.all (·.alignmentStatus = .aligned)

/-- A subtitle with aligned speech in its gaps. -/
def tryAugmented (pair : TranscriptCandidate tables × TranscriptCandidate tables) :
    Except SelectionError (Option (Choice tables)) :=
  if isAligned pair.2 then do
    let segments := combined durationMs pair.1 pair.2
    let report ← (evaluate segments durationMs pair.1.language).mapError .quality
    return if report.qualityStatus = .pass then
      some { candidate := pair.1, speech := some pair.2, selection := ⟨segments, pair.1.language, report⟩ }
    else none
  else .ok none

def tryAllAlone : Except SelectionError (Option (Choice tables)) :=
  (sortedBy candidateKey (officialOf candidates) ++
    (sortedBy candidateKey (autoOf candidates) ++ sortedBy candidateKey (asrOf candidates))).findSomeM?
      (tryAlone durationMs (officialOf candidates))

def pairs : List (TranscriptCandidate tables × TranscriptCandidate tables) :=
  (sortedBy subtitleKey (officialOf candidates ++ autoOf candidates)).flatMap fun subtitle =>
    (sortedBy TranscriptCandidate.candidateId (asrOf candidates)).map fun speech => (subtitle, speech)

def tryAllAugmented : Except SelectionError (Option (Choice tables)) :=
  (pairs candidates).findSomeM? (tryAugmented durationMs)

def reportedLanguage : String :=
  (((officialOf candidates).head?.or candidates.head?).map TranscriptCandidate.language).getD "und"

/-- What `select` returns, with where it comes from. -/
def chosen : Except SelectionError (Choice tables) := do
  let found ← tryAllAlone candidates durationMs
  match found with
  | some choice => return choice
  | none =>
    let filled ← tryAllAugmented candidates durationMs
    match filled with
    | some choice => return choice
    | none =>
      let report ← (evaluate ([] : List (TranscriptCandidateSegment tables)) durationMs
        (reportedLanguage candidates)).mapError .quality
      .error (.transcriptSelectionError report)

/-- `TranscriptSelectionService.select`. -/
def select : Except SelectionError (TranscriptSelection tables) := (chosen candidates durationMs).map Choice.selection

end Select

section Gaps
variable {tables : TranscriptTables} {segments : List (TranscriptCandidateSegment tables)} {gap : Span}
  {durationMs cursor t : Int}

/-- No segment reaches into a gap: the cursor is behind all segments so far, and no later one begins before the gap ends. -/
theorem not_covers_gapsFromCursor (hsorted : segments.Pairwise fun a b => segmentKey a ≤ segmentKey b)
    (hgap : gap ∈ gapsFromCursor durationMs cursor segments) (ht : gap.1 ≤ t ∧ t < gap.2) :
    cursor ≤ t ∧ ¬ Covers (spansOf segments) t := by
  induction segments generalizing cursor with
  | nil =>
    rw [gapsFromCursor] at hgap
    split at hgap
    · obtain rfl := List.mem_singleton.mp hgap
      exact ⟨ht.1, not_covers_nil t⟩
    · exact absurd hgap List.not_mem_nil
  | cons item rest ih =>
    obtain ⟨hitem, hrest⟩ := List.pairwise_cons.mp hsorted
    have hspans : spansOf (item :: rest) = (item.startMs, item.endMs) :: spansOf rest := rfl
    rw [hspans, covers_cons, not_or]
    rcases List.mem_append.mp hgap with hhere | hlater
    · split at hhere
      · obtain rfl := List.mem_singleton.mp hhere
        refine ⟨ht.1, fun hin => absurd hin.1 (Int.not_le.mpr ht.2), ?_⟩
        rintro ⟨span, hspan, hstart, _⟩
        obtain ⟨other, hother, rfl⟩ := List.mem_map.mp hspan
        exact absurd hstart (Int.not_le.mpr (ht.2.trans_le (start_le_of_key (hitem other hother))))
      · exact absurd hhere List.not_mem_nil
    · obtain ⟨hcursor, hnone⟩ := ih hrest hlater
      refine ⟨(le_max_left _ _).trans hcursor, fun hin => ?_, hnone⟩
      exact absurd hin.2 (Int.not_lt.mpr ((le_max_right _ _).trans hcursor))

theorem not_covers_gaps {subtitle : TranscriptCandidate tables} (hgap : gap ∈ gaps subtitle.orderedSegments durationMs)
    (ht : gap.1 ≤ t ∧ t < gap.2) : ¬ Covers (spansOf subtitle.segments) t := by
  rw [← covers_perm (perm_sortedBy segmentKey subtitle.segments) t]
  exact (not_covers_gapsFromCursor (pairwise_sortedBy segmentKey subtitle.segments) hgap ht).2

end Gaps

section Tries
variable {tables : TranscriptTables} {candidates others : List (TranscriptCandidate tables)}
  {candidate subtitle speech : TranscriptCandidate tables} {durationMs : Int} {choice : Choice tables}

def PassesAlone (durationMs : Int) (candidate : TranscriptCandidate tables) : Prop :=
  ∃ report, evaluate candidate.orderedSegments durationMs candidate.language = .ok report ∧ report.qualityStatus = .pass

def PassesAugmented (durationMs : Int) (subtitle speech : TranscriptCandidate tables) : Prop :=
  isAligned speech = true ∧ ∃ report, evaluate (combined durationMs subtitle speech) durationMs subtitle.language = .ok report ∧
    report.qualityStatus = .pass

theorem tryAlone_eq_some {official : List (TranscriptCandidate tables)}
    (h : tryAlone durationMs official candidate = .ok (some choice)) : ∃ report,
      evaluate candidate.orderedSegments durationMs candidate.language = .ok report ∧ report.qualityStatus = .pass ∧
        choice = { candidate, selection := ⟨candidate.orderedSegments, candidate.language, report⟩ } := by
  obtain ⟨report, hreport, h⟩ := bind_eq_ok.mp h
  split at h
  · exact ⟨report, mapError_eq_ok.mp hreport, ‹_›, (Option.some.inj (Except.ok.inj h)).symm⟩
  · split at h <;> cases h

theorem tryAlone_eq_none {official : List (TranscriptCandidate tables)}
    (h : tryAlone durationMs official candidate = .ok none) : ¬ PassesAlone durationMs candidate := by
  rintro ⟨report, hreport, hpass⟩
  obtain ⟨other, hother, h⟩ := bind_eq_ok.mp h
  have hsame : report = other := Except.ok.inj (hreport.symm.trans (mapError_eq_ok.mp hother))
  rw [← hsame, if_pos hpass] at h
  cases h

theorem tryAugmented_eq_some (h : tryAugmented durationMs (subtitle, speech) = .ok (some choice)) :
    isAligned speech = true ∧ ∃ report,
      evaluate (combined durationMs subtitle speech) durationMs subtitle.language = .ok report ∧ report.qualityStatus = .pass ∧
        choice = { candidate := subtitle, speech := some speech,
                   selection := ⟨combined durationMs subtitle speech, subtitle.language, report⟩ } := by
  unfold tryAugmented at h
  split at h
  · rename_i haligned
    obtain ⟨report, hreport, h⟩ := bind_eq_ok.mp h
    replace h := Except.ok.inj h
    split at h
    · exact ⟨haligned, report, mapError_eq_ok.mp hreport, ‹_›, (Option.some.inj h).symm⟩
    · cases h
  · cases h

theorem tryAugmented_eq_none (h : tryAugmented durationMs (subtitle, speech) = .ok none) :
    ¬ PassesAugmented durationMs subtitle speech := by
  rintro ⟨haligned, report, hreport, hpass⟩
  rw [tryAugmented, if_pos haligned] at h
  obtain ⟨other, hother, h⟩ := bind_eq_ok.mp h
  have hsame : report = other := Except.ok.inj (hreport.symm.trans (mapError_eq_ok.mp hother))
  rw [← hsame, if_pos hpass] at h
  cases h

/-- A choice is made alone, or where no candidate decides alone. -/
theorem chosen_eq_ok : chosen candidates durationMs = .ok choice ↔
    tryAllAlone candidates durationMs = .ok (some choice) ∨
      tryAllAlone candidates durationMs = .ok none ∧ tryAllAugmented candidates durationMs = .ok (some choice) := by
  rw [chosen, bind_eq_ok]
  constructor
  · rintro ⟨found, halone, h⟩
    cases found with
    | some found =>
      cases h
      exact .inl halone
    | none =>
      obtain ⟨filled, hfilled, h⟩ := bind_eq_ok.mp h
      cases filled with
      | some filled =>
        cases h
        exact .inr ⟨halone, hfilled⟩
      | none =>
        obtain ⟨report, _, h⟩ := bind_eq_ok.mp h
        cases h
  · rintro (halone | ⟨halone, hfilled⟩)
    · exact ⟨some choice, halone, rfl⟩
    · exact ⟨none, halone, bind_eq_ok.mpr ⟨some choice, hfilled, rfl⟩⟩

theorem select_eq_ok {selection : TranscriptSelection tables} : select candidates durationMs = .ok selection ↔
    ∃ choice, chosen candidates durationMs = .ok choice ∧ choice.selection = selection := by
  rw [select]
  cases chosen candidates durationMs with
  | error e => exact iff_of_false (fun h => by cases h) fun h => by obtain ⟨_, h, _⟩ := h; cases h
  | ok choice => simp only [Except.map, Except.ok.injEq, exists_eq_left']

end Tries
end StockContent.Transcript
