import StockContent.Transcript.TranscriptSelection

/-! The policy of the selection. What is selected passes and does not depend on the order of the candidates. Alone, an
official subtitle comes before an automatic one; with its gaps filled it comes after it, by the names of the sources. -/
namespace StockContent.Transcript
open Storage Text Numeric

section Orders
variable {tables : TranscriptTables} {candidates others : List (TranscriptCandidate tables)} {durationMs : Int}

theorem eq_of_id_eq (hids : (candidates.map TranscriptCandidate.candidateId).Nodup) {x y : TranscriptCandidate tables}
    (hx : x ∈ candidates) (hy : y ∈ candidates) (h : x.candidateId = y.candidateId) : x = y :=
  List.inj_on_of_nodup_map hids hx hy h

theorem sortedBy_filter_perm {K : Type} [LinearOrder K] {key : TranscriptCandidate tables → K}
    (hids : (candidates.map TranscriptCandidate.candidateId).Nodup)
    (hkey : ∀ x y, key x = key y → x.candidateId = y.candidateId) {xs ys : List (TranscriptCandidate tables)}
    (hsub : ∀ x ∈ xs, x ∈ candidates) (h : xs.Perm ys) : sortedBy key xs = sortedBy key ys :=
  sortedBy_eq_of_perm h fun x hx y hy hxy => eq_of_id_eq hids (hsub x hx) (hsub y hy) (hkey x y hxy)

theorem id_of_candidateKey (x y : TranscriptCandidate tables) (h : candidateKey x = candidateKey y) :
    x.candidateId = y.candidateId := congrArg (fun key => (ofLex key).1) h

theorem id_of_subtitleKey (x y : TranscriptCandidate tables) (h : subtitleKey x = subtitleKey y) :
    x.candidateId = y.candidateId := congrArg (fun key => (ofLex key).2) h

theorem officialOf_sub : ∀ x ∈ officialOf candidates, x ∈ candidates := fun _ hx => List.mem_of_mem_filter hx
theorem autoOf_sub : ∀ x ∈ autoOf candidates, x ∈ candidates := fun _ hx => List.mem_of_mem_filter hx
theorem asrOf_sub : ∀ x ∈ asrOf candidates, x ∈ candidates := fun _ hx => List.mem_of_mem_filter hx

theorem source_of_mem_officialOf {x : TranscriptCandidate tables} (hx : x ∈ officialOf candidates) :
    x.source = .officialSubtitle :=
  of_decide_eq_true (Bool.and_eq_true_iff.mp (List.mem_filter.mp hx).2).1

theorem source_of_mem_autoOf {x : TranscriptCandidate tables} (hx : x ∈ autoOf candidates) : x.source = .autoSubtitle :=
  of_decide_eq_true (Bool.and_eq_true_iff.mp (List.mem_filter.mp hx).2).1

/-- Candidates with different ids are tried in the same order, however they are handed in. -/
theorem tryAllAlone_perm (hids : (candidates.map TranscriptCandidate.candidateId).Nodup) (h : candidates.Perm others) :
    tryAllAlone candidates durationMs = tryAllAlone others durationMs := by
  have hofficial : (officialOf candidates).Perm (officialOf others) := h.filter _
  have htry : tryAlone durationMs (officialOf candidates) = tryAlone durationMs (officialOf others) := by
    funext candidate
    rw [tryAlone, tryAlone, hofficial.contains_eq]
  rw [tryAllAlone, tryAllAlone, htry, sortedBy_filter_perm hids id_of_candidateKey officialOf_sub hofficial,
    sortedBy_filter_perm hids id_of_candidateKey autoOf_sub (h.filter _),
    sortedBy_filter_perm hids id_of_candidateKey asrOf_sub (h.filter _)]
  rfl

theorem tryAllAugmented_perm (hids : (candidates.map TranscriptCandidate.candidateId).Nodup) (h : candidates.Perm others) :
    tryAllAugmented candidates durationMs = tryAllAugmented others durationMs := by
  have hofficial : (officialOf candidates).Perm (officialOf others) := h.filter _
  have hauto : (autoOf candidates).Perm (autoOf others) := h.filter _
  have hasr : (asrOf candidates).Perm (asrOf others) := h.filter _
  rw [tryAllAugmented, tryAllAugmented, pairs, pairs,
    sortedBy_filter_perm hids id_of_subtitleKey (List.forall_mem_append.mpr ⟨officialOf_sub, autoOf_sub⟩)
      (hofficial.append hauto),
    sortedBy_filter_perm hids (fun _ _ h => h) asrOf_sub hasr]

theorem select_perm (hids : (candidates.map TranscriptCandidate.candidateId).Nodup) (h : candidates.Perm others)
    (selection : TranscriptSelection tables) :
    select others durationMs = .ok selection ↔ select candidates durationMs = .ok selection := by
  simp only [select_eq_ok, chosen_eq_ok, tryAllAlone_perm hids h, tryAllAugmented_perm hids h]

end Orders

section Alone
variable {tables : TranscriptTables} {candidates : List (TranscriptCandidate tables)} {durationMs : Int}
  {choice : Choice tables}

/-- What was found alone is a candidate of the group that was searched, and passes. -/
theorem findSomeM?_tryAlone {official xs : List (TranscriptCandidate tables)}
    (h : xs.findSomeM? (tryAlone durationMs official) = .ok (some choice)) : choice.candidate ∈ xs ∧ choice.speech = none ∧
      PassesAlone durationMs choice.candidate ∧
      evaluate choice.selection.segments durationMs choice.selection.language = .ok choice.selection.report ∧
      choice.selection.report.qualityStatus = .pass := by
  obtain ⟨before, candidate, after, rfl, _, hfound⟩ := findSomeM?_eq_some.mp h
  obtain ⟨report, hreport, hpass, rfl⟩ := tryAlone_eq_some hfound
  exact ⟨List.mem_append_right _ List.mem_cons_self, rfl, ⟨report, hreport, hpass⟩, hreport, hpass⟩

theorem not_passesAlone_of_none {official xs : List (TranscriptCandidate tables)}
    (h : xs.findSomeM? (tryAlone durationMs official) = .ok none) : ∀ candidate ∈ xs, ¬ PassesAlone durationMs candidate :=
  fun candidate hcandidate => tryAlone_eq_none (findSomeM?_eq_none.mp h candidate hcandidate)

/-- Where an automatic subtitle is used as it is, no official one passes. -/
theorem not_passesAlone_official (h : tryAllAlone candidates durationMs = .ok (some choice))
    (hauto : choice.candidate.source = .autoSubtitle) : ∀ other ∈ officialOf candidates, ¬ PassesAlone durationMs other := by
  intro other hother
  rcases findSomeM?_append.mp h with hofficial | ⟨hnone, _⟩
  · have hmem := mem_sortedBy.mp (findSomeM?_tryAlone hofficial).1
    rw [source_of_mem_officialOf hmem] at hauto
    cases hauto
  · exact not_passesAlone_of_none hnone other (mem_sortedBy.mpr hother)

theorem not_passesAlone_of_tryAllAlone (h : tryAllAlone candidates durationMs = .ok none) :
    ∀ other ∈ officialOf candidates ++ (autoOf candidates ++ asrOf candidates), ¬ PassesAlone durationMs other := by
  have hnone := not_passesAlone_of_none h
  simp only [List.mem_append, mem_sortedBy] at hnone ⊢
  exact hnone

theorem mem_of_tryAllAlone (h : tryAllAlone candidates durationMs = .ok (some choice)) :
    choice.candidate ∈ officialOf candidates ++ (autoOf candidates ++ asrOf candidates) := by
  have hmem := (findSomeM?_tryAlone h).1
  simp only [List.mem_append, mem_sortedBy] at hmem ⊢
  exact hmem

end Alone

section Augmented
variable {tables : TranscriptTables} {candidates : List (TranscriptCandidate tables)} {durationMs : Int}
  {choice : Choice tables}

theorem mem_pairs {pair : TranscriptCandidate tables × TranscriptCandidate tables} :
    pair ∈ pairs candidates ↔ pair.1 ∈ officialOf candidates ++ autoOf candidates ∧ pair.2 ∈ asrOf candidates := by
  rw [pairs, List.mem_flatMap]
  constructor
  · rintro ⟨subtitle, hsubtitle, hpair⟩
    obtain ⟨speech, hspeech, rfl⟩ := List.mem_map.mp hpair
    exact ⟨mem_sortedBy.mp hsubtitle, mem_sortedBy.mp hspeech⟩
  · rintro ⟨hsubtitle, hspeech⟩
    exact ⟨pair.1, mem_sortedBy.mpr hsubtitle, List.mem_map.mpr ⟨pair.2, mem_sortedBy.mpr hspeech, rfl⟩⟩

theorem pairwise_pairs (candidates : List (TranscriptCandidate tables)) :
    (pairs candidates).Pairwise fun a b => subtitleKey a.1 ≤ subtitleKey b.1 := by
  rw [pairs, List.pairwise_flatMap]
  refine ⟨fun subtitle _ => List.pairwise_map.mpr (List.pairwise_of_forall fun _ _ => le_rfl),
    (pairwise_sortedBy subtitleKey _).imp fun hle a ha b hb => ?_⟩
  obtain ⟨_, _, rfl⟩ := List.mem_map.mp ha
  obtain ⟨_, _, rfl⟩ := List.mem_map.mp hb
  exact hle

/-- `"AUTO_SUBTITLE"` is before `"OFFICIAL_SUBTITLE"`. -/
theorem not_subtitleKey_le {official auto : TranscriptCandidate tables} (hofficial : official.source = .officialSubtitle)
    (hauto : auto.source = .autoSubtitle) : ¬ subtitleKey official ≤ subtitleKey auto := by
  have hlt : ¬ TranscriptSource.officialSubtitle.value < TranscriptSource.autoSubtitle.value := by decide
  have hne : TranscriptSource.officialSubtitle.value ≠ TranscriptSource.autoSubtitle.value := by decide
  rw [subtitleKey, subtitleKey, hofficial, hauto, Prod.Lex.toLex_le_toLex]
  rintro (h | ⟨h, _⟩)
  · exact hlt h
  · exact hne h

/-- The first pair that passes, with all that was tried before it. -/
theorem split_of_tryAllAugmented (h : tryAllAugmented candidates durationMs = .ok (some choice)) :
    ∃ before speech after, pairs candidates = before ++ (choice.candidate, speech) :: after ∧ choice.speech = some speech ∧
      PassesAugmented durationMs choice.candidate speech ∧ (∀ pair ∈ before, ¬ PassesAugmented durationMs pair.1 pair.2) ∧
      choice.selection.segments = combined durationMs choice.candidate speech ∧
      evaluate choice.selection.segments durationMs choice.selection.language = .ok choice.selection.report ∧
      choice.selection.report.qualityStatus = .pass := by
  obtain ⟨before, pair, after, hsplit, hbefore, hfound⟩ := findSomeM?_eq_some.mp h
  obtain ⟨haligned, report, hreport, hpass, rfl⟩ := tryAugmented_eq_some hfound
  exact ⟨before, pair.2, after, hsplit, rfl, ⟨haligned, report, hreport, hpass⟩,
    fun other hother => tryAugmented_eq_none (hbefore other hother), rfl, hreport, hpass⟩

/-- An official subtitle is augmented only where no automatic one passes. -/
theorem not_passesAugmented_auto (h : tryAllAugmented candidates durationMs = .ok (some choice))
    (hofficial : choice.candidate.source = .officialSubtitle) :
    ∀ auto ∈ autoOf candidates, ∀ speech ∈ asrOf candidates, ¬ PassesAugmented durationMs auto speech := by
  intro auto hauto speech hspeech
  obtain ⟨before, chosenSpeech, after, hsplit, _, _, hbefore, _⟩ := split_of_tryAllAugmented h
  have hmem : (auto, speech) ∈ pairs candidates := mem_pairs.mpr ⟨List.mem_append_right _ hauto, hspeech⟩
  have hsorted := pairwise_pairs candidates
  rw [hsplit] at hmem hsorted
  rcases List.mem_append.mp hmem with hin | hin
  · exact hbefore _ hin
  · rcases List.mem_cons.mp hin with heq | hin
    · have hsame : auto = choice.candidate := congrArg Prod.fst heq
      have hsource := source_of_mem_autoOf hauto
      rw [hsame, hofficial] at hsource
      cases hsource
    · have hle := (List.pairwise_cons.mp (List.pairwise_append.mp hsorted).2.1).1 _ hin
      exact absurd hle (not_subtitleKey_le hofficial (source_of_mem_autoOf hauto))

end Augmented

section Policy
variable {tables : TranscriptTables} {candidates : List (TranscriptCandidate tables)} {durationMs : Int}
  {choice : Choice tables}

/-- An automatic subtitle is not used where an official one passes in the same step: alone, or with its gaps filled. -/
def OfficialFirst (candidates : List (TranscriptCandidate tables)) (durationMs : Int) (choice : Choice tables) : Prop :=
  choice.candidate.source = .autoSubtitle →
    (choice.speech = none → ∀ other ∈ officialOf candidates, ¬ PassesAlone durationMs other) ∧
    (choice.speech ≠ none → ∀ other ∈ officialOf candidates, ∀ speech ∈ asrOf candidates,
      ¬ PassesAugmented durationMs other speech)

/-- All segments of the subtitle, and aligned segments of the speech that lie in its gaps. -/
def FillsGaps (durationMs : Int) (subtitle speech : TranscriptCandidate tables)
    (segments : List (TranscriptCandidateSegment tables)) : Prop :=
  ∃ added, segments.Perm (subtitle.segments ++ added) ∧ ∀ item ∈ added,
    item ∈ speech.segments ∧ item.alignmentStatus = .aligned ∧
      ∃ gap ∈ gaps subtitle.orderedSegments durationMs, gap.1 ≤ item.startMs ∧ item.endMs ≤ gap.2 ∧
        ∀ t, gap.1 ≤ t → t < gap.2 → ¬ Covers (spansOf subtitle.segments) t

structure SelectionPolicy (candidates : List (TranscriptCandidate tables)) (durationMs : Int) : Prop where
  permuted : ∀ others, candidates.Perm others → ∀ selection,
    select others durationMs = .ok selection ↔ select candidates durationMs = .ok selection
  passes : ∀ selection, select candidates durationMs = .ok selection →
    evaluate selection.segments durationMs selection.language = .ok selection.report ∧ selection.report.qualityStatus = .pass
  officialFirst : ∀ choice, chosen candidates durationMs = .ok choice → OfficialFirst candidates durationMs choice
  filled : ∀ choice, chosen candidates durationMs = .ok choice → ∀ speech, choice.speech = some speech →
    speech ∈ asrOf candidates ∧ FillsGaps durationMs choice.candidate speech choice.selection.segments

theorem fillsGaps_combined (durationMs : Int) {subtitle speech : TranscriptCandidate tables}
    (haligned : isAligned speech = true) : FillsGaps durationMs subtitle speech (combined durationMs subtitle speech) := by
  refine ⟨additions durationMs subtitle speech, ?_, fun item hitem => ?_⟩
  · exact (perm_sortedBy combinedKey _).trans ((perm_sortedBy segmentKey subtitle.segments).append_right _)
  · obtain ⟨hordered, hgap⟩ := List.mem_filter.mp hitem
    have hmem : item ∈ speech.segments := mem_sortedBy.mp hordered
    obtain ⟨gap, hgap, hinside⟩ := List.any_eq_true.mp hgap
    rw [Bool.and_eq_true, decide_eq_true_eq, decide_eq_true_eq] at hinside
    exact ⟨hmem, of_decide_eq_true (List.all_eq_true.mp haligned item hmem), gap, hgap, hinside.1, hinside.2,
      fun t hstart hstop => not_covers_gaps hgap ⟨hstart, hstop⟩⟩

theorem passes_of_chosen (h : chosen candidates durationMs = .ok choice) :
    evaluate choice.selection.segments durationMs choice.selection.language = .ok choice.selection.report ∧
      choice.selection.report.qualityStatus = .pass := by
  rcases chosen_eq_ok.mp h with halone | ⟨_, hfilled⟩
  · exact (findSomeM?_tryAlone halone).2.2.2
  · obtain ⟨_, _, _, _, _, _, _, _, hpasses⟩ := split_of_tryAllAugmented hfilled
    exact hpasses

theorem filled_of_chosen (h : chosen candidates durationMs = .ok choice) {speech : TranscriptCandidate tables}
    (hspeech : choice.speech = some speech) :
    speech ∈ asrOf candidates ∧ FillsGaps durationMs choice.candidate speech choice.selection.segments := by
  rcases chosen_eq_ok.mp h with halone | ⟨_, hfilled⟩
  · rw [(findSomeM?_tryAlone halone).2.1] at hspeech
    cases hspeech
  · obtain ⟨before, used, after, hsplit, hused, hpasses, _, hsegments, _⟩ := split_of_tryAllAugmented hfilled
    obtain rfl : used = speech := Option.some.inj (hused.symm.trans hspeech)
    have hpair : (choice.candidate, used) ∈ pairs candidates := hsplit ▸ List.mem_append_right _ List.mem_cons_self
    rw [hsegments]
    exact ⟨(mem_pairs.mp hpair).2, fillsGaps_combined durationMs hpasses.1⟩

/-- One candidate decides alone, or not both kinds of subtitles pass with speech in their gaps. -/
def Undisputed (candidates : List (TranscriptCandidate tables)) (durationMs : Int) : Prop :=
  (∃ candidate ∈ officialOf candidates ++ (autoOf candidates ++ asrOf candidates), PassesAlone durationMs candidate) ∨
    (∀ auto ∈ autoOf candidates, ∀ speech ∈ asrOf candidates, ¬ PassesAugmented durationMs auto speech) ∨
    ∀ official ∈ officialOf candidates, ∀ speech ∈ asrOf candidates, ¬ PassesAugmented durationMs official speech

theorem officialFirst_of_undisputed (h : chosen candidates durationMs = .ok choice)
    (hundisputed : Undisputed candidates durationMs) : OfficialFirst candidates durationMs choice := by
  intro hauto
  rcases chosen_eq_ok.mp h with halone | ⟨hnone, hfilled⟩
  · exact ⟨fun _ => not_passesAlone_official halone hauto, fun hne => absurd (findSomeM?_tryAlone halone).2.1 hne⟩
  · obtain ⟨before, speech, after, hsplit, hspeech, hpasses, _⟩ := split_of_tryAllAugmented hfilled
    obtain ⟨hsubtitle, hasr⟩ := mem_pairs.mp (hsplit ▸ List.mem_append_right before List.mem_cons_self :
      (choice.candidate, speech) ∈ pairs candidates)
    refine ⟨fun hmissing => absurd (hspeech.symm.trans hmissing) (Option.some_ne_none speech), fun _ => ?_⟩
    rcases hundisputed with ⟨candidate, hcandidate, hdecides⟩ | hnoAuto | hnoOfficial
    · exact absurd hdecides (not_passesAlone_of_tryAllAlone hnone candidate hcandidate)
    · rcases List.mem_append.mp hsubtitle with hofficial | hin
      · rw [source_of_mem_officialOf hofficial] at hauto
        cases hauto
      · exact absurd hpasses (hnoAuto _ hin speech hasr)
    · exact hnoOfficial

theorem Undisputed.of_officialFirst (h : chosen candidates durationMs = .ok choice)
    (hfirst : OfficialFirst candidates durationMs choice) : Undisputed candidates durationMs := by
  rcases chosen_eq_ok.mp h with halone | ⟨_, hfilled⟩
  · exact .inl ⟨choice.candidate, mem_of_tryAllAlone halone, (findSomeM?_tryAlone halone).2.2.1⟩
  · obtain ⟨before, speech, after, hsplit, hspeech, _⟩ := split_of_tryAllAugmented hfilled
    have hsubtitle := (mem_pairs.mp (hsplit ▸ List.mem_append_right before List.mem_cons_self :
      (choice.candidate, speech) ∈ pairs candidates)).1
    rcases List.mem_append.mp hsubtitle with hofficial | hauto
    · exact .inr (.inl (not_passesAugmented_auto hfilled (source_of_mem_officialOf hofficial)))
    · refine .inr (.inr ((hfirst (source_of_mem_autoOf hauto)).2 ?_))
      rw [hspeech]
      exact Option.some_ne_none speech

/-- The policy holds exactly if nothing is selected or no automatic subtitle stands against an official one once gaps are
filled. -/
theorem selectionPolicy_iff (hids : (candidates.map TranscriptCandidate.candidateId).Nodup) :
    SelectionPolicy candidates durationMs ↔
      ((∃ selection, select candidates durationMs = .ok selection) → Undisputed candidates durationMs) := by
  constructor
  · rintro hpolicy ⟨selection, hselection⟩
    obtain ⟨choice, hchoice, _⟩ := select_eq_ok.mp hselection
    exact .of_officialFirst hchoice (hpolicy.officialFirst choice hchoice)
  · intro hundisputed
    exact {
      permuted := fun _ hperm selection => select_perm hids hperm selection
      passes := fun selection hselection => by
        obtain ⟨choice, hchoice, rfl⟩ := select_eq_ok.mp hselection
        exact passes_of_chosen hchoice
      officialFirst := fun choice hchoice =>
        officialFirst_of_undisputed hchoice (hundisputed ⟨choice.selection, select_eq_ok.mpr ⟨choice, hchoice, rfl⟩⟩)
      filled := fun choice hchoice speech hspeech => filled_of_chosen hchoice hspeech }

end Policy

section Disputed

theorem startCue_accepted : checkSegment asciiTables (cueFields 0 60 "one" "one") = .ok () :=
  cueFields_accepted (by decide) (by decide) (by decide)

theorem endCue_accepted : checkSegment asciiTables (cueFields 60 100 "two" "two") = .ok () :=
  cueFields_accepted (by decide) (by decide) (by decide)

def startCue : TranscriptCandidateSegment asciiTables := ⟨cueFields 0 60 "one" "one", startCue_accepted⟩

def endCue : TranscriptCandidateSegment asciiTables := ⟨cueFields 60 100 "two" "two", endCue_accepted⟩

theorem official_accepted : checkCandidate "manual" "manual" "zh" = .ok () := by decide

theorem auto_accepted : checkCandidate "machine" "machine" "zh" = .ok () := by decide

theorem speech_accepted : checkCandidate "speech" "speech" "zh" = .ok () := by decide

def official : TranscriptCandidate asciiTables := ⟨"manual", .officialSubtitle, "zh", "manual", [startCue], official_accepted⟩

def auto : TranscriptCandidate asciiTables := ⟨"machine", .autoSubtitle, "zh", "machine", [startCue], auto_accepted⟩

def speech : TranscriptCandidate asciiTables := ⟨"speech", .asr, "zh", "speech", [endCue], speech_accepted⟩

theorem passesAugmented_official : PassesAugmented 100 official speech := by
  have hpasses : ((evaluate (combined 100 official speech) 100 official.language).toOption.any
      fun report => report.qualityStatus = .pass) = true := by decide +kernel
  obtain ⟨report, hreport, hpass⟩ := (Option.any_eq_true _ _).mp hpasses
  exact ⟨by decide, report, toOption_eq_some.mp hreport, of_decide_eq_true hpass⟩

theorem chosen_auto : ∃ choice, chosen [official, auto, speech] 100 = .ok choice ∧
    choice.candidate.source = .autoSubtitle ∧ choice.speech.isSome := by
  have hchosen : ((chosen [official, auto, speech] 100).toOption.any fun choice =>
      choice.candidate.source = .autoSubtitle && choice.speech.isSome) = true := by decide +kernel
  obtain ⟨choice, hchoice, hauto⟩ := (Option.any_eq_true _ _).mp hchosen
  rw [Bool.and_eq_true, decide_eq_true_eq] at hauto
  exact ⟨choice, toOption_eq_some.mp hchoice, hauto⟩

/-- Both subtitles end early, and the same speech completes either: the automatic one is used. -/
theorem not_selectionPolicy_disputed : ([official, auto, speech].map TranscriptCandidate.candidateId).Nodup ∧
    ¬ SelectionPolicy [official, auto, speech] 100 := by
  refine ⟨by decide, fun hpolicy => ?_⟩
  obtain ⟨choice, hchoice, hauto, hspeech⟩ := chosen_auto
  have hfirst := (hpolicy.officialFirst choice hchoice hauto).2 (Option.isSome_iff_ne_none.mp hspeech)
  have hofficial : official ∈ officialOf [official, auto, speech] :=
    List.mem_filter.mpr ⟨List.mem_cons_self, by decide⟩
  have hasr : speech ∈ asrOf [official, auto, speech] :=
    List.mem_filter.mpr ⟨List.mem_cons_of_mem _ (List.mem_cons_of_mem _ List.mem_cons_self), by decide⟩
  exact hfirst official hofficial speech hasr passesAugmented_official

theorem selectionPolicy_iff_disputed : SelectionPolicy [official, auto, speech] 100 ↔
    ((∃ selection, select [official, auto, speech] 100 = .ok selection) → Undisputed [official, auto, speech] 100) :=
  selectionPolicy_iff (by decide)

end Disputed
end StockContent.Transcript
