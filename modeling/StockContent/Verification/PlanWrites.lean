import StockContent.Storage.Ensure
import StockContent.Verification.InitialPlan
import StockContent.Verification.ResultRows

/-! What a plan contains, claim by claim, and its bundle as a batch of idempotent writes. -/
namespace StockContent.Verification
open Storage

section Plan
variable {Id : Type}

/-- The fields of an entry made from a result. -/
structure Records (entry : VerificationArtifactEntry Id) (result : VerificationResult) (provider : String)
    (verificationId : Option Id) (verificationJobId : Option String) : Prop where
  claimId : entry.claimId = result.claimId
  provider : entry.provider = provider
  status : entry.status = result.status
  verificationId : entry.verificationId = verificationId
  verificationJobId : entry.verificationJobId = verificationJobId
  result : entry.result = some result

theorem fromResult_ok {result : VerificationResult} {provider : String} {verificationId : Option Id}
    {verificationJobId : Option String} {entry : VerificationArtifactEntry Id}
    (h : VerificationArtifactEntry.fromResult result provider verificationId verificationJobId = .ok entry) :
    Records entry result provider verificationId verificationJobId := by
  by_cases hl : if result.status = .verificationPending then verificationJobId.any (· ≠ "") = true
      else verificationId.isSome = true
  · rw [VerificationArtifactEntry.fromResult, dif_pos hl] at h
    cases h
    exact ⟨rfl, rfl, rfl, rfl, rfl, rfl⟩
  · rw [VerificationArtifactEntry.fromResult, dif_neg hl] at h
    by_cases hp : result.status = .verificationPending
    · rw [if_pos hp] at h
      cases h
    · rw [if_neg hp] at h
      cases h

theorem fromResult_isOk (result : VerificationResult) (provider : String) (verificationId : Option Id)
    (verificationJobId : Option String)
    (h : if result.status = .verificationPending then verificationJobId.any (· ≠ "") = true
      else verificationId.isSome = true) :
    ∃ entry, VerificationArtifactEntry.fromResult result provider verificationId verificationJobId = .ok entry :=
  ⟨_, dif_pos h⟩

variable {codec : ResultCodec Id} {claims : List FinancialClaim} {claim : FinancialClaim}
  {provider policyVersion : String} {candidate : Time} {traceId : Option String} {db : VerificationDb Id}
  {plan : InitialVerificationPersistencePlan Id}

/-- A plan is made exactly when every claim can be planned. -/
theorem build_isOk :
    (∃ plan, buildInitialVerificationPlan codec claims provider candidate policyVersion traceId db = .ok plan) ↔
      ∀ claim ∈ claims, ∃ part, planClaim codec claim provider traceId
        (resolve codec claim provider candidate policyVersion db) = .ok part := by
  induction claims with
  | nil => exact ⟨fun _ _ h => (by cases h), fun _ => ⟨_, rfl⟩⟩
  | cons claim claims ih =>
    rw [List.forall_mem_cons, ← ih]
    simp only [buildInitialVerificationPlan, bind_eq_ok]
    constructor
    · rintro ⟨_, first, hf, rest, hr, _⟩
      exact ⟨⟨first, hf⟩, rest, hr⟩
    · rintro ⟨⟨first, hf⟩, rest, hr⟩
      exact ⟨_, first, hf, rest, hr, rfl⟩

/-- Each list of a plan collects what its claims contribute. -/
theorem mem_plan {A : Type} {f : InitialVerificationPersistencePlan Id → List A} (hnil : f {} = [])
    (happ : ∀ p q, f (InitialVerificationPersistencePlan.append p q) = f p ++ f q)
    (h : buildInitialVerificationPlan codec claims provider candidate policyVersion traceId db = .ok plan) {x : A} :
    x ∈ f plan ↔ ∃ claim ∈ claims, ∃ part, planClaim codec claim provider traceId
      (resolve codec claim provider candidate policyVersion db) = .ok part ∧ x ∈ f part := by
  induction claims generalizing plan with
  | nil =>
    cases h
    simp [hnil]
  | cons claim claims ih =>
    obtain ⟨first, hf, h⟩ := bind_eq_ok.mp h
    obtain ⟨rest, hr, h⟩ := bind_eq_ok.mp h
    cases h
    rw [happ, List.mem_append, ih hr]
    simp only [List.mem_cons, exists_eq_or_imp, hf, Except.ok.injEq, exists_eq_left']

def plannedJob (claim : FinancialClaim) (provider : String) (candidate : Time) : VerificationJobWrite :=
  { jobId := jobIdOf claim.claimId provider, claimId := claim.claimId, provider, createdAt := candidate }

/-- How a claim is resolved, by the stored rows that its plan may see. -/
inductive Resolves (codec : ResultCodec Id) (claim : FinancialClaim) (provider : String) (candidate : Time)
    (policyVersion : String) (db : VerificationDb Id) : Resolved Id → Prop
  | reusedResult {row : ClaimVerificationResultRow Id}
      (hs : latestTerminalAsOf codec claim.claimId provider candidate policyVersion db.results = some row)
      (hq : isQuantVerifiable claim = true ∨
        row.status = (deterministicResult claim candidate policyVersion).status) :
      Resolves codec claim provider candidate policyVersion db (.reusedResult row)
  | terminalResult (hq : isQuantVerifiable claim = false)
      (hs : ∀ row, latestTerminalAsOf codec claim.claimId provider candidate policyVersion db.results = some row →
        row.status ≠ (deterministicResult claim candidate policyVersion).status) :
      Resolves codec claim provider candidate policyVersion db
        (.terminalResult (deterministicTerminalResult codec claim provider candidate policyVersion))
  | reusedJob (hq : isQuantVerifiable claim = true)
      (hs : latestTerminalAsOf codec claim.claimId provider candidate policyVersion db.results = none)
      {row : ClaimVerificationJobRow} (ha : findActiveAsOf claim.claimId provider candidate db.jobs = some row) :
      Resolves codec claim provider candidate policyVersion db (.reusedJob row)
  | pendingJob (hq : isQuantVerifiable claim = true)
      (hs : latestTerminalAsOf codec claim.claimId provider candidate policyVersion db.results = none)
      (ha : findActiveAsOf claim.claimId provider candidate db.jobs = none) :
      Resolves codec claim provider candidate policyVersion db (.pendingJob (plannedJob claim provider candidate))

theorem verificationRequirement_async :
    verificationRequirement claim = .asyncRequired ↔ isQuantVerifiable claim = true := by
  rw [verificationRequirement]
  split
  · simp [*]
  · split <;> simp [*]

theorem resolve_spec : Resolves codec claim provider candidate policyVersion db
    (resolve codec claim provider candidate policyVersion db) := by
  rw [resolve]
  dsimp only
  split
  · rename_i hr
    have hq : isQuantVerifiable claim = false := by simpa [verificationRequirement_async] using hr
    cases hs : latestTerminalAsOf codec claim.claimId provider candidate policyVersion db.results with
    | none => exact .terminalResult hq fun row h => by rw [hs] at h; cases h
    | some row =>
      by_cases he : row.status = (deterministicResult claim candidate policyVersion).status
      · simp only [deterministicTerminalResult, Option.filter, he, decide_true, if_true]
        exact .reusedResult hs (.inr he)
      · simp only [deterministicTerminalResult, Option.filter, he, decide_false, Bool.false_eq_true, if_false]
        refine .terminalResult hq fun row' h => ?_
        rw [hs] at h
        cases h
        exact he
  · rename_i hr
    have hq : isQuantVerifiable claim = true := verificationRequirement_async.mp (not_not.mp hr)
    cases hs : latestTerminalAsOf codec claim.claimId provider candidate policyVersion db.results with
    | some row => exact .reusedResult hs (.inl hq)
    | none =>
      cases ha : findActiveAsOf claim.claimId provider candidate db.jobs with
      | some row => exact .reusedJob hq hs ha
      | none => exact .pendingJob hq hs ha

theorem Resolves.unique {r r' : Resolved Id} (h : Resolves codec claim provider candidate policyVersion db r)
    (h' : Resolves codec claim provider candidate policyVersion db r') : r = r' := by
  cases h <;> cases h' <;> grind

/-- The cases of `resolve`. -/
theorem resolve_iff {r : Resolved Id} : resolve codec claim provider candidate policyVersion db = r ↔
    Resolves codec claim provider candidate policyVersion db r :=
  ⟨fun h => h ▸ resolve_spec, fun h => resolve_spec.unique h⟩

variable (codec) in
/-- What one claim brings to a plan: an entry, and the write that goes with it. -/
def Contributes (claim : FinancialClaim) (provider : String) (traceId : Option String)
    (part : InitialVerificationPersistencePlan Id) (entry : VerificationArtifactEntry Id) : Resolved Id → Prop
  | .terminalResult write => part.terminalResultsToInsert = [write] ∧ part.pendingJobsToInsert = [] ∧
      Records entry write.result provider (some write.verificationId) none
  | .reusedResult row => part.terminalResultsToInsert = [] ∧ part.pendingJobsToInsert = [] ∧
      ∃ result, codec.validate row.resultPayload = .ok result ∧
        Records entry result provider (some row.verificationId) none
  | .pendingJob job => part.terminalResultsToInsert = [] ∧ part.pendingJobsToInsert = [{ job with traceId }] ∧
      Records entry (pendingResult claim.claimId) provider none (some job.jobId)
  | .reusedJob row => part.terminalResultsToInsert = [] ∧ part.pendingJobsToInsert = [] ∧
      Records entry (pendingResult claim.claimId) provider none (some row.jobId)

theorem planClaim_ok {resolved : Resolved Id} {part : InitialVerificationPersistencePlan Id}
    (h : planClaim codec claim provider traceId resolved = .ok part) :
    ∃ entry, part.artifactResults = [entry] ∧
      Contributes codec claim provider traceId part entry resolved := by
  cases resolved with
  | reusedResult row =>
    obtain ⟨result, hv, h⟩ := bind_eq_ok.mp h
    obtain ⟨entry, he, h⟩ := bind_eq_ok.mp h
    cases h
    exact ⟨entry, rfl, rfl, rfl, result, hv, fromResult_ok he⟩
  | _ =>
    obtain ⟨entry, he, h⟩ := bind_eq_ok.mp h
    cases h
    exact ⟨entry, rfl, rfl, rfl, fromResult_ok he⟩

variable (codec) in
/-- The lineage that the entry of a claim has to carry is there. -/
def Plannable : Resolved Id → Prop
  | .terminalResult write => write.result.status ≠ .verificationPending
  | .reusedResult row => ∃ result, codec.validate row.resultPayload = .ok result ∧
      result.status ≠ .verificationPending
  | .pendingJob job => job.jobId ≠ ""
  | .reusedJob row => row.jobId ≠ ""

theorem planClaim_isOk {resolved : Resolved Id} (h : Plannable codec resolved) :
    ∃ part, planClaim codec claim provider traceId resolved = .ok part := by
  have hpending (jobId : String) (hj : jobId ≠ "") := fromResult_isOk (pendingResult claim.claimId) provider
    (none : Option Id) (some jobId) (by simp [pendingResult, unboundResult, hj])
  cases resolved with
  | terminalResult write =>
    obtain ⟨entry, he⟩ := fromResult_isOk write.result provider (some write.verificationId) none
      (by rw [if_neg h]; rfl)
    exact ⟨_, by simp only [planClaim, he]; rfl⟩
  | reusedResult row =>
    obtain ⟨result, hv, hs⟩ := h
    obtain ⟨entry, he⟩ := fromResult_isOk result provider (some row.verificationId) none (by rw [if_neg hs]; rfl)
    exact ⟨_, by simp only [planClaim, hv, bind, Except.bind, he]; rfl⟩
  | pendingJob job =>
    obtain ⟨entry, he⟩ := hpending job.jobId h
    exact ⟨_, by simp only [planClaim, he]; rfl⟩
  | reusedJob row =>
    obtain ⟨entry, he⟩ := hpending row.jobId h
    exact ⟨_, by simp only [planClaim, he]; rfl⟩

theorem deterministicResult_fields (claim : FinancialClaim) (candidate : Time) (policyVersion : String) :
    let fields := (deterministicResult claim candidate policyVersion).toResultFields
    fields.claimId = claim.claimId ∧ fields.status ≠ .verificationPending ∧ fields.factDate = none ∧
      fields.availableAt = some (.ofUtc candidate) ∧ fields.reason.isSome = true ∧ fields.referenceValue = .null := by
  rw [deterministicResult]
  split <;> simp [unboundResult]

theorem deterministic_sound (claim : FinancialClaim) (provider : String) (candidate : Time) (policyVersion : String) :
    SoundWrite codec (deterministicTerminalResult codec claim provider candidate policyVersion).values := by
  obtain ⟨hc, _, _, ha, _, _⟩ := deterministicResult_fields claim candidate policyVersion
  exact ⟨rfl, hc, rfl, ⟨false, rfl⟩, candidate, rfl, .inr ha⟩

/-- The results a plan writes. -/
theorem mem_terminalResults
    (h : buildInitialVerificationPlan codec claims provider candidate policyVersion traceId db = .ok plan)
    {write : VerificationResultWrite Id} :
    write ∈ plan.terminalResultsToInsert ↔ ∃ claim ∈ claims,
      resolve codec claim provider candidate policyVersion db = .terminalResult write := by
  rw [mem_plan rfl (fun _ _ => rfl) h]
  constructor
  · rintro ⟨claim, hm, part, hp, hw⟩
    refine ⟨claim, hm, ?_⟩
    obtain ⟨entry, _, hres⟩ := planClaim_ok hp
    cases hr : resolve codec claim provider candidate policyVersion db <;> rw [hr] at hres <;>
      simp only [hres.1, List.mem_singleton, List.not_mem_nil] at hw
    rw [hw]
  · rintro ⟨claim, hm, hr⟩
    obtain ⟨part, hp⟩ := build_isOk.mp ⟨plan, h⟩ claim hm
    obtain ⟨entry, _, hres⟩ := planClaim_ok hp
    rw [hr] at hres
    exact ⟨claim, hm, part, hp, by rw [hres.1]; exact List.mem_singleton_self write⟩

/-- The jobs a plan writes. -/
theorem mem_pendingJobs
    (h : buildInitialVerificationPlan codec claims provider candidate policyVersion traceId db = .ok plan)
    {write : VerificationJobWrite} :
    write ∈ plan.pendingJobsToInsert ↔ ∃ claim ∈ claims, ∃ job,
      resolve codec claim provider candidate policyVersion db = .pendingJob job ∧ write = { job with traceId } := by
  rw [mem_plan rfl (fun _ _ => rfl) h]
  constructor
  · rintro ⟨claim, hm, part, hp, hw⟩
    refine ⟨claim, hm, ?_⟩
    obtain ⟨entry, _, hres⟩ := planClaim_ok hp
    cases hr : resolve codec claim provider candidate policyVersion db <;> rw [hr] at hres <;>
      simp only [hres.2.1, List.mem_singleton, List.not_mem_nil] at hw
    exact ⟨_, rfl, hw⟩
  · rintro ⟨claim, hm, job, hr, rfl⟩
    obtain ⟨part, hp⟩ := build_isOk.mp ⟨plan, h⟩ claim hm
    obtain ⟨entry, _, hres⟩ := planClaim_ok hp
    rw [hr] at hres
    exact ⟨claim, hm, part, hp, by rw [hres.2.1]; exact List.mem_singleton_self _⟩

end Plan

section Save
variable {Id : Type} [DecidableEq Id] {codec : ResultCodec Id} {jobs jobs' : JobTable}
  {results results' : ResultTable Id}

/-- A job stands in for another of its claim and provider. -/
def VerificationJobWrite.write (write : VerificationJobWrite) : Write ClaimVerificationJobRow :=
  ⟨write.row, forClaim write.claimId write.provider⟩

/-- A stored result stands in for one whose immutable columns it has. -/
def VerificationResultWrite.write (write : VerificationResultWrite Id) : Write (ClaimVerificationResultRow Id) :=
  ⟨write.values.row, (agrees · write.values)⟩

omit [DecidableEq Id] in
/-- Claim and provider name the job, so the unique pair and the primary key reject together. -/
theorem insertIgnore_ensure (hok : jobs.All JobOk) {row : ClaimVerificationJobRow}
    (hid : row.jobId = jobIdOf row.claimId row.provider) :
    (∃ inserted, (insertIgnore row jobs : Except (JobError Id) _) = .ok (jobs', inserted)) ↔
      jobs.ensure ⟨row, forClaim row.claimId row.provider⟩ = some jobs' := by
  have hkey {r : ClaimVerificationJobRow} (hm : r ∈ jobs.rows) (hf : forClaim row.claimId row.provider r = true) :
      jobs.get row.jobId = some r := by
    rw [hid, ← (hok.of_mem hm).named hf]
    exact Table.get_of_mem hm
  rw [insertIgnore, Table.ensure]
  dsimp only
  cases hg : jobs.get row.jobId with
  | none =>
    have hnone : ¬ jobs.rows.any (forClaim row.claimId row.provider) = true := by
      rw [List.any_eq_true]
      rintro ⟨r, hm, hf⟩
      rw [hkey hm hf] at hg
      cases hg
    rw [if_neg hnone]
    cases jobs.insert row <;> simp
  | some q =>
    have hstored : jobs.rows.any (forClaim row.claimId row.provider) = forClaim row.claimId row.provider q := by
      rw [Bool.eq_iff_iff, List.any_eq_true]
      refine ⟨?_, fun hf => ⟨q, Table.mem_of_get hg, hf⟩⟩
      rintro ⟨r, hm, hf⟩
      rw [hkey hm hf] at hg
      cases hg
      exact hf
    have hins : jobs.insert row = none := Table.insert_eq_none.mpr (by simp [hg])
    rw [hstored, hins]
    by_cases hf : forClaim row.claimId row.provider q = true <;> simp [hf]

theorem VerificationJobWrite.fresh {write : VerificationJobWrite}
    (hid : write.jobId = jobIdOf write.claimId write.provider) : FreshJob write.row :=
  pending_fresh hid rfl rfl rfl rfl

omit [DecidableEq Id] in
/-- The jobs of a bundle are a batch of idempotent writes. -/
theorem saveJobs_ensureAll {writes : List VerificationJobWrite} (hok : jobs.All JobOk)
    (hid : ∀ write ∈ writes, write.jobId = jobIdOf write.claimId write.provider) :
    (saveJobs writes jobs : Except (JobError Id) JobTable) = .ok jobs' ↔
      jobs.ensureAll (writes.map (·.write)) = some jobs' := by
  induction writes generalizing jobs with
  | nil => simp [saveJobs, Table.ensureAll]
  | cons write writes ih =>
    rw [List.map_cons, Table.ensureAll_cons, saveJobs, bind_eq_ok]
    have hfirst := hid write List.mem_cons_self
    have hnext {u : JobTable} (hu : jobs.ensure write.write = some u) : u.All JobOk := by
      rw [(Table.ensure_eq_some.mp hu).2]
      have hev : Table.Evolves FreshJob Eq jobs ((jobs.insert write.row).getD jobs) :=
        .insert_getD (fun _ => rfl) (VerificationJobWrite.fresh hfirst)
      exact hev.all (fun _ hf => hf.1) (fun _ _ h he => he ▸ h) hok
    have hrest := fun w hw => hid w (List.mem_cons_of_mem write hw)
    constructor
    · rintro ⟨⟨u, inserted⟩, hi, h⟩
      have hu : jobs.ensure write.write = some u := (insertIgnore_ensure hok hfirst).mp ⟨inserted, hi⟩
      exact ⟨u, hu, (ih (hnext hu) hrest).mp h⟩
    · rintro ⟨u, hu, h⟩
      obtain ⟨inserted, hi⟩ := (insertIgnore_ensure hok hfirst).mpr hu
      exact ⟨(u, inserted), hi, (ih (hnext hu) hrest).mpr h⟩

theorem persist_ensure {write : VerificationResultWrite Id}
    (hself : agrees write.values.row write.values = true) :
    persistVerificationResult write.values results = .ok results' ↔
      results.ensure write.write = some results' := by
  have hagree : agrees ((results.get write.verificationId).getD write.values.row) write.values = true ↔
      ∀ q, results.get write.verificationId = some q → agrees q write.values = true := by
    cases results.get write.verificationId <;> simp [hself]
  rw [persist_eq, Table.ensure_eq_some]
  change (if agrees ((results.get write.verificationId).getD write.values.row) write.values = true then
    Except.ok ((results.insert write.values.row).getD results) else _) = _ ↔
      (∀ q, results.get write.verificationId = some q → agrees q write.values = true) ∧
        results' = (results.insert write.values.row).getD results
  rw [← hagree]
  split
  · rename_i ha
    exact ⟨fun h => ⟨ha, (Except.ok.inj h).symm⟩, fun h => congrArg Except.ok h.2.symm⟩
  · rename_i ha
    exact ⟨fun h => (by cases h), fun h => absurd h.1 ha⟩

/-- The results of a bundle are a batch of idempotent writes. -/
theorem saveResults_ensureAll {writes : List (VerificationResultWrite Id)}
    (hself : ∀ write ∈ writes, agrees write.values.row write.values = true) :
    saveResults writes results = .ok results' ↔ results.ensureAll (writes.map (·.write)) = some results' := by
  induction writes generalizing results with
  | nil => simp [saveResults, Table.ensureAll]
  | cons write writes ih =>
    rw [List.map_cons, Table.ensureAll_cons, saveResults, bind_eq_ok]
    simp only [persist_ensure (hself write List.mem_cons_self), ih fun w hw => hself w (List.mem_cons_of_mem write hw)]

theorem saveVerificationBundle_ok {plan : InitialVerificationPersistencePlan Id} {db db' : VerificationDb Id} :
    saveVerificationBundle plan db = .ok db' ↔
      (saveJobs plan.pendingJobsToInsert db.jobs : Except (JobError Id) JobTable) = .ok db'.jobs ∧
        saveResults plan.terminalResultsToInsert db.results = .ok db'.results := by
  simp only [saveVerificationBundle, bind_eq_ok]
  constructor
  · rintro ⟨jobs, hj, results, hr, h⟩
    cases h
    exact ⟨hj, hr⟩
  · rintro ⟨hj, hr⟩
    exact ⟨_, hj, _, hr, rfl⟩

variable {claims : List FinancialClaim} {provider policyVersion : String} {candidate : Time}
  {traceId : Option String} {db db' : VerificationDb Id} {plan : InitialVerificationPersistencePlan Id}

omit [DecidableEq Id] in
/-- Every result a plan writes is the deterministic one of its claim. -/
theorem terminal_deterministic
    (h : buildInitialVerificationPlan codec claims provider candidate policyVersion traceId db = .ok plan)
    {write : VerificationResultWrite Id} (hw : write ∈ plan.terminalResultsToInsert) :
    ∃ claim ∈ claims, isQuantVerifiable claim = false ∧
      write = deterministicTerminalResult codec claim provider candidate policyVersion := by
  obtain ⟨claim, hm, hr⟩ := (mem_terminalResults h).mp hw
  cases resolve_iff.mp hr with
  | terminalResult hq _ => exact ⟨claim, hm, hq, rfl⟩

omit [DecidableEq Id] in
/-- Every job a plan writes is named after its claim. -/
theorem pending_planned
    (h : buildInitialVerificationPlan codec claims provider candidate policyVersion traceId db = .ok plan)
    {write : VerificationJobWrite} (hw : write ∈ plan.pendingJobsToInsert) :
    ∃ claim ∈ claims, write = { plannedJob claim provider candidate with traceId } := by
  obtain ⟨claim, hm, job, hr, rfl⟩ := (mem_pendingJobs h).mp hw
  cases resolve_iff.mp hr
  exact ⟨claim, hm, rfl⟩

omit [DecidableEq Id] in
theorem deterministic_agrees (claim : FinancialClaim) (provider : String) (candidate : Time) (policyVersion : String) :
    agrees (deterministicTerminalResult codec claim provider candidate policyVersion).values.row
      (deterministicTerminalResult codec claim provider candidate policyVersion).values = true := by
  obtain ⟨_, _, hf, _⟩ := deterministicResult_fields claim candidate policyVersion
  simp [agrees, ResultValues.row, VerificationResultWrite.values, deterministicTerminalResult, hf]

/-- Saving the bundle of a plan is a batch of writes to each of the two tables. -/
theorem bundle_ensureAll (hok : db.jobs.All JobOk)
    (h : buildInitialVerificationPlan codec claims provider candidate policyVersion traceId db = .ok plan) :
    saveVerificationBundle plan db = .ok db' ↔
      db.jobs.ensureAll (plan.pendingJobsToInsert.map (·.write)) = some db'.jobs ∧
        db.results.ensureAll (plan.terminalResultsToInsert.map (·.write)) = some db'.results := by
  rw [saveVerificationBundle_ok, saveJobs_ensureAll hok, saveResults_ensureAll]
  · intro write hw
    obtain ⟨claim, _, _, rfl⟩ := terminal_deterministic h hw
    exact deterministic_agrees claim provider candidate policyVersion
  · intro write hw
    obtain ⟨claim, _, rfl⟩ := pending_planned h hw
    rfl

/-- A bundle adds pending jobs and deterministic results and rewrites nothing. -/
theorem bundle_evolves (hok : db.jobs.All JobOk)
    (h : buildInitialVerificationPlan codec claims provider candidate policyVersion traceId db = .ok plan)
    (hs : saveVerificationBundle plan db = .ok db') :
    Table.Evolves FreshJob Eq db.jobs db'.jobs ∧ Table.Evolves (StoredResult codec) Eq db.results db'.results := by
  obtain ⟨hj, hr⟩ := (bundle_ensureAll hok h).mp hs
  refine ⟨(Table.ensureAll_evolves hj).1.mono ?_ fun _ _ he => he,
    (Table.ensureAll_evolves hr).1.mono ?_ fun _ _ he => he⟩
  · rintro r ⟨w, hw, rfl⟩
    obtain ⟨write, hm, rfl⟩ := List.mem_map.mp hw
    obtain ⟨claim, _, rfl⟩ := pending_planned h hm
    exact VerificationJobWrite.fresh rfl
  · rintro r ⟨w, hw, rfl⟩
    obtain ⟨write, hm, rfl⟩ := List.mem_map.mp hw
    obtain ⟨claim, _, _, rfl⟩ := terminal_deterministic h hm
    exact ⟨_, deterministic_sound claim provider candidate policyVersion, rfl⟩

theorem publishVerification_ok {u : Unit} :
    publishVerification codec claims provider candidate policyVersion traceId db = .ok (db', u) ↔
      ∃ plan, buildInitialVerificationPlan codec claims provider candidate policyVersion traceId db = .ok plan ∧
        saveVerificationBundle plan db = .ok db' ∧
        verifyInitialVerificationClosure plan.artifactResults candidate db' = .ok () := by
  simp only [publishVerification, bind_eq_ok, mapError_eq_ok]
  constructor
  · rintro ⟨plan, hp, db'', hs, _, hv, h⟩
    cases h
    exact ⟨plan, hp, hs, hv⟩
  · rintro ⟨plan, hp, hs, hv⟩
    exact ⟨plan, hp, db', hs, (), hv, rfl⟩

end Save
end StockContent.Verification
