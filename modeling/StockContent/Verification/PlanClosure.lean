import StockContent.Verification.JobOwnership

/-! What a plan leaves behind in a reachable store: whether its pending entries refer to
jobs that can still run. -/
namespace StockContent.Verification
open Storage

/-- Statuses in which a job still awaits its result. -/
def stillOpen (row : ClaimVerificationJobRow) : Prop :=
  row.status = .pending ∨ row.status = .leased ∨ row.status = .retryable

section Lookups
variable {Id : Type}

/-- A terminal result that a plan may see at its candidate time. -/
def visibleTerminal (claimId provider : String) (candidate : Time) (policyVersion : String)
    (row : ClaimVerificationResultRow Id) : Prop :=
  row.claimId = claimId ∧ row.provider = provider ∧ row.status.terminal = true ∧
    (∃ a, row.availableAt = some a ∧ a ≤ candidate) ∧
    (policyVersion = "" ∨ row.resultPayload.verificationRuleVersion = policyVersion)

variable {codec : ResultCodec Id} {claimId provider policyVersion : String} {candidate : Time}
  {results : ResultTable Id} {jobs : JobTable}

theorem latestTerminalAsOf_some {row : ClaimVerificationResultRow Id}
    (h : latestTerminalAsOf codec claimId provider candidate policyVersion results = some row) :
    row ∈ results.rows ∧ visibleTerminal claimId provider candidate policyVersion row := by
  obtain ⟨hm, hv⟩ := Table.mem_select_all.mp (List.mem_of_find?_eq_some h)
  simp only [Bool.and_eq_true, beq_iff_eq, Option.any_eq_true, decide_eq_true_eq] at hv
  obtain ⟨⟨⟨hc, hp⟩, ht⟩, ha⟩ := hv
  exact ⟨hm, hc, hp, ht, ha, by simpa using List.find?_some h⟩

theorem latestTerminalAsOf_none :
    latestTerminalAsOf codec claimId provider candidate policyVersion results = none ↔
      ∀ row ∈ results.rows, ¬ visibleTerminal claimId provider candidate policyVersion row := by
  simp only [latestTerminalAsOf, List.find?_eq_none, Table.mem_select_all, visibleTerminal, Bool.and_eq_true,
    beq_iff_eq, Option.any_eq_true, decide_eq_true_eq, and_imp, not_and]

theorem findActiveAsOf_some {row : ClaimVerificationJobRow}
    (h : findActiveAsOf claimId provider candidate jobs = some row) :
    row ∈ jobs.rows ∧ forClaim claimId provider row = true ∧ row.createdAt ≤ candidate ∧ stillOpen row := by
  obtain ⟨hm, hv⟩ := Table.mem_select (List.mem_of_head? h)
  simp only [Bool.and_eq_true, Bool.or_eq_true, beq_iff_eq, decide_eq_true_eq, or_assoc] at hv
  exact ⟨hm, hv.1.1, hv.1.2, hv.2⟩

theorem job_of_claim (hok : jobs.All JobOk) {row : ClaimVerificationJobRow} (hm : row ∈ jobs.rows)
    (hf : forClaim claimId provider row = true) : jobs.get (jobIdOf claimId provider) = some row := by
  rw [← (hok.of_mem hm).named hf]
  exact Table.get_of_mem hm

theorem jobIdOf_inj {claimId' : String} (h : jobIdOf claimId provider = jobIdOf claimId' provider) :
    claimId = claimId' := by
  simpa [jobIdOf, String.append_assoc] using h

end Lookups

section Bundle
variable {Id : Type} [DecidableEq Id] {codec : ResultCodec Id} {claims : List FinancialClaim} {claim : FinancialClaim}
  {provider policyVersion : String} {candidate : Time} {traceId : Option String} {db db' : VerificationDb Id}
  {plan : InitialVerificationPersistencePlan Id}

omit [DecidableEq Id] in
theorem jobs_coherent
    (hplan : buildInitialVerificationPlan codec claims provider candidate policyVersion traceId db = .ok plan) :
    Table.Coherent ClaimVerificationJobRow.jobId (plan.pendingJobsToInsert.map (·.write)) := by
  intro w hw w' hw' hkey
  obtain ⟨write, hm, rfl⟩ := List.mem_map.mp hw
  obtain ⟨write', hm', rfl⟩ := List.mem_map.mp hw'
  obtain ⟨claim, _, rfl⟩ := pending_planned hplan hm
  obtain ⟨claim', _, rfl⟩ := pending_planned hplan hm'
  exact forClaim_iff.mpr ⟨jobIdOf_inj hkey, rfl⟩

/-- A planned job is stored for its claim: the row that was there, or a pending one that
is as old as the snapshot. -/
theorem planned_job_stored (hok : StoreOk codec db)
    (hplan : buildInitialVerificationPlan codec claims provider candidate policyVersion traceId db = .ok plan)
    (hsave : saveVerificationBundle plan db = .ok db')
    (hw : { plannedJob claim provider candidate with traceId } ∈ plan.pendingJobsToInsert) :
    ∃ row, db'.jobs.get (jobIdOf claim.claimId provider) = some row ∧ forClaim claim.claimId provider row = true ∧
      (db.jobs.get (jobIdOf claim.claimId provider) = some row ∨
        row.status = .pending ∧ row.createdAt = candidate) := by
  have hj := ((bundle_ensureAll hok.jobs hplan).mp hsave).1
  have hev := (Table.ensureAll_evolves hj).1
  obtain ⟨row, hg, hf⟩ := Table.ensureAll_agrees (jobs_coherent hplan) hj _ (List.mem_map_of_mem hw)
  change db'.jobs.get (jobIdOf claim.claimId provider) = some row at hg
  refine ⟨row, hg, hf, ?_⟩
  cases hold : db.jobs.get (jobIdOf claim.claimId provider) with
  | some old =>
    obtain ⟨_, hg', rfl⟩ := hev.old _ old hold
    exact .inl (hg'.symm.trans hg)
  | none =>
    obtain ⟨w, hm, rfl⟩ := hev.new _ row hold hg
    obtain ⟨write, hmem, rfl⟩ := List.mem_map.mp hm
    obtain ⟨other, _, rfl⟩ := pending_planned hplan hmem
    exact .inr ⟨rfl, rfl⟩

omit [DecidableEq Id] in
/-- Each entry of a plan comes from one of its claims. -/
theorem mem_entries
    (hplan : buildInitialVerificationPlan codec claims provider candidate policyVersion traceId db = .ok plan)
    {entry : VerificationArtifactEntry Id} :
    entry ∈ plan.artifactResults ↔ ∃ claim ∈ claims, ∃ part,
      planClaim codec claim provider traceId (resolve codec claim provider candidate policyVersion db) = .ok part ∧
        part.artifactResults = [entry] ∧ Contributes codec claim provider traceId part entry
          (resolve codec claim provider candidate policyVersion db) := by
  rw [mem_plan rfl (fun _ _ => rfl) hplan]
  refine exists_congr fun claim => and_congr_right fun _ => exists_congr fun part => and_congr_right fun hp => ?_
  obtain ⟨e, he, hc⟩ := planClaim_ok hp
  rw [he, List.mem_singleton]
  constructor
  · rintro rfl
    exact ⟨rfl, hc⟩
  · rintro ⟨h, _⟩
    exact (List.singleton_inj.mp h).symm

omit [DecidableEq Id] in
/-- Each claim of a plan has its entry. -/
theorem entry_of_claim
    (hplan : buildInitialVerificationPlan codec claims provider candidate policyVersion traceId db = .ok plan)
    (hc : claim ∈ claims) :
    ∃ entry ∈ plan.artifactResults, ∃ part,
      Contributes codec claim provider traceId part entry
        (resolve codec claim provider candidate policyVersion db) := by
  obtain ⟨part, hp⟩ := build_isOk.mp ⟨plan, hplan⟩ claim hc
  obtain ⟨entry, he, hcontrib⟩ := planClaim_ok hp
  exact ⟨entry, (mem_entries hplan).mpr ⟨claim, hc, part, hp, he, hcontrib⟩, part, hcontrib⟩

omit [DecidableEq Id] in
/-- A pending entry belongs to a claim that a provider has to check and for which no
terminal result can be seen, and names its active job or the planned one. -/
theorem pending_entry
    (hplan : buildInitialVerificationPlan codec claims provider candidate policyVersion traceId db = .ok plan)
    {entry : VerificationArtifactEntry Id} (hm : entry ∈ plan.artifactResults)
    (hs : entry.status = .verificationPending) :
    ∃ claim ∈ claims, isQuantVerifiable claim = true ∧
      latestTerminalAsOf codec claim.claimId provider candidate policyVersion db.results = none ∧
      ((∃ row, findActiveAsOf claim.claimId provider candidate db.jobs = some row ∧
          entry.verificationJobId = some row.jobId) ∨
        { plannedJob claim provider candidate with traceId } ∈ plan.pendingJobsToInsert ∧
          entry.verificationJobId = some (jobIdOf claim.claimId provider)) := by
  obtain ⟨claim, hc, part, hp, _, hcontrib⟩ := (mem_entries hplan).mp hm
  have hlineage := entry.lineage
  rw [if_pos hs] at hlineage
  generalize hr : resolve codec claim provider candidate policyVersion db = resolved at hcontrib
  cases resolve_iff.mp hr with
  | reusedResult _ _ =>
    obtain ⟨_, _, result, _, hrec⟩ := hcontrib
    rw [hrec.verificationJobId] at hlineage
    cases hlineage
  | terminalResult _ _ =>
    rw [hcontrib.2.2.verificationJobId] at hlineage
    cases hlineage
  | reusedJob hq hnone ha => exact ⟨claim, hc, hq, hnone, .inl ⟨_, ha, hcontrib.2.2.verificationJobId⟩⟩
  | pendingJob hq hnone _ =>
    exact ⟨claim, hc, hq, hnone, .inr ⟨(mem_pendingJobs hplan).mpr ⟨claim, hc, _, hr, rfl⟩,
      hcontrib.2.2.verificationJobId⟩⟩

/-- Rows that a bundle finds keep their status, so an old job under a pending entry is
as open as it was. -/
theorem pending_entries_iff (hok : StoreOk codec db)
    (hplan : buildInitialVerificationPlan codec claims provider candidate policyVersion traceId db = .ok plan)
    (hsave : saveVerificationBundle plan db = .ok db') :
    (∀ entry ∈ plan.artifactResults, entry.status = .verificationPending →
      ∃ jobId row, entry.verificationJobId = some jobId ∧ db'.jobs.get jobId = some row ∧ stillOpen row) ↔
    ∀ claim ∈ claims, isQuantVerifiable claim = true →
      (∀ row ∈ db.results.rows, ¬ visibleTerminal claim.claimId provider candidate policyVersion row) →
      ∀ job ∈ db.jobs.rows, forClaim claim.claimId provider job = true → stillOpen job := by
  have hkept := (bundle_evolves hok.jobs hplan hsave).1.old
  constructor
  · intro h claim hc hq hv job hm hf
    have hnone : latestTerminalAsOf codec claim.claimId provider candidate policyVersion db.results = none :=
      latestTerminalAsOf_none.mpr hv
    have hg := job_of_claim hok.jobs hm hf
    cases ha : findActiveAsOf claim.claimId provider candidate db.jobs with
    | some row =>
      obtain ⟨hm', hf', _, hopen⟩ := findActiveAsOf_some ha
      rw [job_of_claim hok.jobs hm' hf'] at hg
      cases hg
      exact hopen
    | none =>
      obtain ⟨entry, he, part, hcontrib⟩ := entry_of_claim hplan hc
      rw [resolve_iff.mpr (.pendingJob hq hnone ha)] at hcontrib
      have hrec := hcontrib.2.2
      obtain ⟨jobId, row, hid, hg', hopen⟩ := h entry he hrec.status
      rw [hrec.verificationJobId] at hid
      cases hid
      obtain ⟨_, hsame, rfl⟩ := hkept _ job hg
      cases hg'.symm.trans hsame
      exact hopen
  · intro h entry hm hs
    rcases pending_entry hplan hm hs with ⟨claim, hc, hq, hnone, ⟨row, ha, hid⟩ | ⟨hw, hid⟩⟩
    · obtain ⟨hm', hf', _, hopen⟩ := findActiveAsOf_some ha
      obtain ⟨_, hg, rfl⟩ := hkept _ row (Table.get_of_mem hm')
      exact ⟨row.jobId, row, hid, hg, hopen⟩
    · rcases planned_job_stored hok hplan hsave hw with ⟨row, hg, hf, hold | ⟨hs', _⟩⟩
      · exact ⟨_, row, hid, hg, h claim hc hq (latestTerminalAsOf_none.mp hnone) row (Table.mem_of_get hold) hf⟩
      · exact ⟨_, row, hid, hg, .inl hs'⟩

end Bundle

/-- In every reachable store, the pending entries of a saved plan refer to jobs that are
still open exactly when every claim that has to be checked and has no visible terminal
result has no job but open ones. -/
theorem pending_entries_open {Id : Type} [DecidableEq Id] (codec : ResultCodec Id) (calls : List VerificationCall)
    {claims : List FinancialClaim} {provider policyVersion : String} {candidate : Time} {traceId : Option String}
    {plan : InitialVerificationPersistencePlan Id} {db' : VerificationDb Id}
    (hplan : buildInitialVerificationPlan codec claims provider candidate policyVersion traceId
      ((verificationStore codec).run .empty calls) = .ok plan)
    (hsave : saveVerificationBundle plan ((verificationStore codec).run .empty calls) = .ok db') :
    (∀ entry ∈ plan.artifactResults, entry.status = .verificationPending →
      ∃ jobId row, entry.verificationJobId = some jobId ∧ db'.jobs.get jobId = some row ∧ stillOpen row) ↔
    ∀ claim ∈ claims, isQuantVerifiable claim = true →
      (∀ row ∈ ((verificationStore codec).run .empty calls).results.rows,
        ¬ visibleTerminal claim.claimId provider candidate policyVersion row) →
      ∀ job ∈ ((verificationStore codec).run .empty calls).jobs.rows,
        forClaim claim.claimId provider job = true → stillOpen job :=
  pending_entries_iff (verification_ok codec calls) hplan hsave

def priceClaim : FinancialClaim := ⟨"c1", .price, "FACT"⟩

/-- The first snapshot of a claim leaves it with an open job. -/
theorem pending_entries_open_first :
    ∃ plan db', buildInitialVerificationPlan transparent [priceClaim] "quant" (seconds 30) "verification_rule.v1" none
        .empty = .ok plan ∧ saveVerificationBundle plan .empty = .ok db' ∧
      ∀ entry ∈ plan.artifactResults, entry.status = .verificationPending →
        ∃ jobId row, entry.verificationJobId = some jobId ∧ db'.jobs.get jobId = some row ∧ stillOpen row :=
  have hplan {plan} (h : buildInitialVerificationPlan transparent [priceClaim] "quant" (seconds 30)
      "verification_rule.v1" none ((verificationStore transparent).run .empty []) = .ok plan) {db'}
      (hsave : saveVerificationBundle plan ((verificationStore transparent).run .empty []) = .ok db') :=
    (pending_entries_open transparent [] h hsave).mpr fun _ _ _ _ _ hm => by cases hm
  ⟨_, _, rfl, rfl, hplan rfl rfl⟩

/-- A worker hands a job over to manual review; then a snapshot is planned. -/
def handedOver : List VerificationCall :=
  [.enqueue [priceClaim] "quant" none (seconds 0) (seconds 0),
    .claimDue [] "worker-a" 10 60 (seconds 10),
    .mark "verify-job-c1-quant" "worker-a" (.manualReview "no such instrument") (seconds 20)]

/-- The entry is pending although its job is under manual review. -/
theorem reviewed_job_left_pending :
    let db := (verificationStore transparent).run .empty handedOver
    ∃ plan db', buildInitialVerificationPlan transparent [priceClaim] "quant" (seconds 30) "verification_rule.v1" none
        db = .ok plan ∧ saveVerificationBundle plan db = .ok db' ∧
      ∃ entry ∈ plan.artifactResults, entry.status = .verificationPending ∧
        ∀ jobId row, entry.verificationJobId = some jobId → db'.jobs.get jobId = some row → ¬ stillOpen row := by
  intro db
  refine ⟨_, _, rfl, rfl, _, List.mem_singleton_self _, rfl, ?_⟩
  have hreviewed : (db.jobs.get (jobIdOf "c1" "quant")).map (·.status) = some .manualReview := by decide
  rintro jobId row ⟨⟩ hg hopen
  change db.jobs.get (jobIdOf "c1" "quant") = some row at hg
  rw [hg] at hreviewed
  simp [stillOpen, Option.some.inj hreviewed, JobStatus.pending, JobStatus.manualReview] at hopen
end StockContent.Verification
