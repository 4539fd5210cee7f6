import StockContent.Verification.PlanClosure

/-! The validator on what a plan wrote: when the bundle of a plan is saved without a
conflict and its entries are accepted. -/
namespace StockContent.Verification
open Storage

theorem canonical_eq_null {v : Json} : v.canonical = .null ↔ v = .null := by
  cases v <;> simp [Json.canonical]

section Stored
variable {Id : Type} {codec : ResultCodec Id}

/-- A stored result with the identity of one that has no reference value is that result
in its own envelope. -/
theorem payload_of_identity {claimId claimId' provider provider' : String} {fields fields' : ResultFields}
    (hnull : fields'.referenceValue = .null)
    (h : identityOf claimId provider fields = identityOf claimId' provider' fields') :
    claimId = claimId' ∧ provider = provider' ∧ fields = { fields' with availableAt := fields.availableAt } := by
  have hc : claimId = claimId' := congrArg VerificationIdentity.claimId h
  have hp : provider = provider' := congrArg VerificationIdentity.provider h
  have hr : (identityOf claimId provider fields).result = (identityOf claimId' provider' fields').result :=
    congrArg VerificationIdentity.result h
  have hv : fields.referenceValue = .null := by
    have hcanonical : fields.referenceValue.canonical = fields'.referenceValue.canonical :=
      congrArg ResultFields.referenceValue hr
    rw [hnull] at hcanonical
    exact canonical_eq_null.mp hcanonical
  have hfields : fields = { (identityOf claimId provider fields).result with
      availableAt := fields.availableAt, referenceValue := .null } := by
    rw [← hv]
    rfl
  refine ⟨hc, hp, hfields.trans ?_⟩
  rw [hr, ← hnull]
  rfl

/-- What is stored under the name of a deterministic result is that result, available
from some time on; it stands in for the write when that time is the candidate's. -/
theorem stored_deterministic (hcf : codec.CollisionFree) {claim : FinancialClaim} {provider policyVersion : String}
    {candidate : Time} {row : ClaimVerificationResultRow Id} (hrow : StoredResult codec row)
    (hid : row.verificationId =
      (deterministicTerminalResult codec claim provider candidate policyVersion).verificationId) :
    let fields := (deterministicResult claim candidate policyVersion).toResultFields
    ∃ a, row.availableAt = some a ∧ row.claimId = claim.claimId ∧ row.provider = provider ∧
      row.status = fields.status ∧ row.resultPayload = { fields with availableAt := some (.ofUtc a) } ∧
      (agrees row (deterministicTerminalResult codec claim provider candidate policyVersion).values = true ↔
        a = candidate) := by
  intro fields
  obtain ⟨values, hsound, rfl⟩ := hrow
  obtain ⟨_, _, hfact, havail, hreason, hnull⟩ := deterministicResult_fields claim candidate policyVersion
  obtain ⟨escaped, hname⟩ := hsound.identity
  obtain ⟨hc, hp, hpay⟩ := payload_of_identity hnull (hcf _ _ _ _ (hname.symm.trans hid))
  obtain ⟨a, ha, henv⟩ := hsound.envelope
  have hat : values.resultPayload.availableAt = some (.ofUtc a) := by
    rcases henv with ⟨_, hnone⟩ | hat
    · rw [hpay] at hnone
      change fields.reason = none at hnone
      rw [hnone] at hreason
      cases hreason
    · exact hat
  rw [hat] at hpay
  refine ⟨a, ha, hc, hp, ?_, hpay, ?_⟩
  · change values.status = fields.status
    rw [← hsound.status, hpay]
  · constructor
    · intro hagree
      have hav := (Bool.and_eq_true_iff.mp hagree).2
      change (values.availableAt == some candidate) = true at hav
      rw [ha] at hav
      exact Option.some.inj (eq_of_beq hav)
    · rintro rfl
      have hsame : { fields with availableAt := some (.ofUtc a) } = fields := by rw [← havail]
      have hres : values.result = fields := hsound.payload.trans (hpay.trans hsame)
      have hstatus : values.status = fields.status := by rw [← hsound.status, hpay]
      simp [agrees, ResultValues.row, VerificationResultWrite.values, deterministicTerminalResult,
        VerificationResult.modelDump, hc, hp, hstatus, hres, hpay.trans hsame, ha, fields, hfact]

/-- The stored payload of a row is read back to a result with the same text. -/
def ReadsBack (codec : ResultCodec Id) (row : ClaimVerificationResultRow Id) : Prop :=
  ∃ result, codec.validate row.resultPayload = .ok result ∧ row.resultPayload.sameText result.modelDump = true

theorem sameText_fields {fields fields' : ResultFields} (h : fields.sameText fields' = true) :
    fields.claimId = fields'.claimId ∧ fields.status = fields'.status := by
  have hall := eq_of_beq h
  have hc := congrArg ResultFields.claimId hall
  have hs := congrArg ResultFields.status hall
  exact ⟨hc, hs⟩

/-- A result read back is about the claim and has the status of its row. -/
theorem readsBack_fields {row : ClaimVerificationResultRow Id} (hrow : StoredResult codec row)
    {result : VerificationResult} (h : row.resultPayload.sameText result.modelDump = true) :
    row.claimId = result.claimId ∧ row.status = result.status := by
  obtain ⟨values, hsound, rfl⟩ := hrow
  obtain ⟨hc, hs⟩ := sameText_fields h
  exact ⟨hsound.claim.symm.trans hc, hsound.status.symm.trans hs⟩

end Stored

section Closure
variable {Id : Type} [DecidableEq Id] {codec : ResultCodec Id} {db : VerificationDb Id} {candidate : Time}
  {entry : VerificationArtifactEntry Id} {result : VerificationResult} {provider : String}

theorem closure_ok {entries : List (VerificationArtifactEntry Id)} :
    verifyInitialVerificationClosure entries candidate db = .ok () ↔
      ∀ entry ∈ entries, verifyEntry entry candidate db = .ok () := by
  induction entries with
  | nil => simp [verifyInitialVerificationClosure]
  | cons entry entries ih =>
    rw [List.forall_mem_cons, ← ih, verifyInitialVerificationClosure, bind_eq_ok]
    constructor
    · rintro ⟨⟨⟩, he, hrest⟩
      exact ⟨he, hrest⟩
    · rintro ⟨he, hrest⟩
      exact ⟨(), he, hrest⟩

/-- A pending entry is accepted with a job of its claim that the candidate can see. -/
theorem verifyEntry_pending {jobId : String} (hrec : Records entry result provider none (some jobId))
    (hs : result.status = .verificationPending) :
    verifyEntry entry candidate db = .ok () ↔ ∃ row, db.jobs.get jobId = some row ∧
      forClaim result.claimId provider row = true ∧ row.createdAt ≤ candidate := by
  rw [verifyEntry, if_pos (hrec.status.trans hs), hrec.verificationJobId, hrec.claimId, hrec.provider,
    Option.bind_some]
  cases db.jobs.get jobId with
  | none => simp
  | some row =>
    simp only [Option.some.injEq, exists_eq_left', forClaim_iff]
    by_cases hc : row.claimId ≠ result.claimId ∨ row.provider ≠ provider
    · rw [if_pos hc]
      refine iff_of_false (by simp) fun h => ?_
      rcases hc with hc | hc
      · exact hc h.1.1
      · exact hc h.1.2
    · rw [if_neg hc]
      push Not at hc
      by_cases ht : candidate < row.createdAt
      · rw [if_pos ht]
        exact iff_of_false (by simp) fun h => absurd h.2 (not_le.mpr ht)
      · rw [if_neg ht]
        exact iff_of_true rfl ⟨hc, not_lt.mp ht⟩

/-- A terminal entry is accepted with a stored result that says the same and that the
candidate can see. -/
theorem verifyEntry_terminal {id : Id} (hrec : Records entry result provider (some id) none)
    (hs : result.status ≠ .verificationPending) :
    verifyEntry entry candidate db = .ok () ↔ ∃ row, db.results.get id = some row ∧
      row.claimId = result.claimId ∧ row.provider = provider ∧ row.status = result.status ∧
      row.resultPayload.sameText result.modelDump = true ∧ ∃ a, row.availableAt = some a ∧ a ≤ candidate := by
  have hne : entry.status ≠ .verificationPending := fun h => hs (hrec.status.symm.trans h)
  rw [verifyEntry, if_neg hne, hrec.verificationId, hrec.claimId, hrec.provider, hrec.status, hrec.result,
    Option.bind_some]
  cases db.results.get id with
  | none => simp
  | some row =>
    simp only [Option.some.injEq, exists_eq_left', Option.any_some, Bool.not_eq_true']
    by_cases hc : row.claimId ≠ result.claimId ∨ row.provider ≠ provider ∨ row.status ≠ result.status ∨
        row.resultPayload.sameText result.modelDump = false
    · rw [if_pos hc]
      refine iff_of_false (by simp) fun h => ?_
      rcases hc with hc | hc | hc | hc
      · exact hc h.1
      · exact hc h.2.1
      · exact hc h.2.2.1
      · rw [h.2.2.2.1] at hc
        cases hc
    · rw [if_neg hc]
      push Not at hc
      cases ha : row.availableAt with
      | none => simp
      | some a =>
        by_cases ht : candidate < a
        · simp [ht, not_le.mpr ht]
        · simp [ht, hc, not_lt.mp ht]

end Closure

section Validation
variable {Id : Type} [DecidableEq Id] {codec : ResultCodec Id} {claims : List FinancialClaim} {claim : FinancialClaim}
  {provider policyVersion : String} {candidate : Time} {traceId : Option String} {db db' : VerificationDb Id}
  {plan : InitialVerificationPersistencePlan Id}

/-- When the plan and the validator agree on one claim. A stored result that is reused
reads back to what was stored; a job under the name of a planned one is the claim's and
as old as the snapshot; and a deterministic result that is stored already has been
available from this very candidate time. -/
structure PlanCloses (codec : ResultCodec Id) (provider : String) (candidate : Time) (policyVersion : String)
    (db : VerificationDb Id) (claim : FinancialClaim) : Prop where
  reused : ∀ row, latestTerminalAsOf codec claim.claimId provider candidate policyVersion db.results = some row →
    isQuantVerifiable claim = true ∨ row.status = (deterministicResult claim candidate policyVersion).status →
    ReadsBack codec row
  pending : isQuantVerifiable claim = true →
    latestTerminalAsOf codec claim.claimId provider candidate policyVersion db.results = none →
    ∀ job, db.jobs.get (jobIdOf claim.claimId provider) = some job →
      forClaim claim.claimId provider job = true ∧ job.createdAt ≤ candidate
  written : isQuantVerifiable claim = false →
    (∀ row, latestTerminalAsOf codec claim.claimId provider candidate policyVersion db.results = some row →
      row.status ≠ (deterministicResult claim candidate policyVersion).status) →
    ∀ row, db.results.get (deterministicTerminalResult codec claim provider candidate policyVersion).verificationId =
      some row → row.availableAt = some candidate

omit [DecidableEq Id] in
theorem results_coherent (hcf : codec.CollisionFree)
    (hplan : buildInitialVerificationPlan codec claims provider candidate policyVersion traceId db = .ok plan) :
    Table.Coherent ClaimVerificationResultRow.verificationId (plan.terminalResultsToInsert.map (·.write)) := by
  intro w hw w' hw' hkey
  obtain ⟨write, hm, rfl⟩ := List.mem_map.mp hw
  obtain ⟨write', hm', rfl⟩ := List.mem_map.mp hw'
  obtain ⟨claim, _, _, rfl⟩ := terminal_deterministic hplan hm
  obtain ⟨claim', _, _, rfl⟩ := terminal_deterministic hplan hm'
  obtain ⟨a, ha, _, _, _, _, hagree⟩ := stored_deterministic hcf
    ⟨_, deterministic_sound claim provider candidate policyVersion, rfl⟩ hkey
  exact hagree.mpr (Option.some.inj ha).symm

theorem latestTerminalAsOf_stored (hok : StoreOk codec db) {claimId : String} {row : ClaimVerificationResultRow Id}
    (h : latestTerminalAsOf codec claimId provider candidate policyVersion db.results = some row) :
    db.results.get row.verificationId = some row ∧ StoredResult codec row ∧
      visibleTerminal claimId provider candidate policyVersion row := by
  obtain ⟨hm, hv⟩ := latestTerminalAsOf_some h
  exact ⟨Table.get_of_mem hm, hok.results.of_mem hm, hv⟩

theorem terminal_ne {status : ResultStatus} (h : status.terminal = true) : status ≠ .verificationPending := by
  simpa [ResultStatus.terminal] using h

theorem jobIdOf_ne (claimId provider : String) : jobIdOf claimId provider ≠ "" := by
  simp [jobIdOf]

theorem plannable (hok : StoreOk codec db) (h : PlanCloses codec provider candidate policyVersion db claim) :
    Plannable codec (resolve codec claim provider candidate policyVersion db) := by
  generalize hr : resolve codec claim provider candidate policyVersion db = resolved
  cases resolve_iff.mp hr with
  | reusedResult hs hq =>
    obtain ⟨_, hrow, _, _, ht, _⟩ := latestTerminalAsOf_stored hok hs
    obtain ⟨result, hv, htext⟩ := h.reused _ hs hq
    exact ⟨result, hv, (readsBack_fields hrow htext).2 ▸ terminal_ne ht⟩
  | terminalResult => exact (deterministicResult_fields claim candidate policyVersion).2.1
  | reusedJob _ _ ha =>
    obtain ⟨hm, hf, _, _⟩ := findActiveAsOf_some ha
    exact fun he => jobIdOf_ne claim.claimId provider (((hok.jobs.of_mem hm).named hf).symm.trans he)
  | pendingJob => exact jobIdOf_ne claim.claimId provider

/-- A bundle is saved when every planned job and result may stand for what is stored. -/
theorem bundle_isOk (hok : StoreOk codec db) (hcf : codec.CollisionFree)
    (hplan : buildInitialVerificationPlan codec claims provider candidate policyVersion traceId db = .ok plan) :
    (∃ db', saveVerificationBundle plan db = .ok db') ↔
      (∀ write ∈ plan.pendingJobsToInsert, ∀ job, db.jobs.get write.jobId = some job →
        forClaim write.claimId write.provider job = true) ∧
      ∀ write ∈ plan.terminalResultsToInsert, ∀ row, db.results.get write.verificationId = some row →
        agrees row write.values = true := by
  have hjobs := Table.ensureAll_isSome (t := db.jobs) (jobs_coherent hplan)
  have hresults := Table.ensureAll_isSome (t := db.results) (results_coherent hcf hplan)
  rw [List.forall_mem_map] at hjobs hresults
  refine Iff.trans ?_ (and_congr hjobs hresults)
  constructor
  · rintro ⟨db', hs⟩
    obtain ⟨hj, hr⟩ := (bundle_ensureAll hok.jobs hplan).mp hs
    exact ⟨⟨_, hj⟩, _, hr⟩
  · rintro ⟨⟨jobs, hj⟩, results, hr⟩
    exact ⟨⟨jobs, results⟩, (bundle_ensureAll hok.jobs hplan).mpr ⟨hj, hr⟩⟩

/-- What the validator finds of a planned result. -/
theorem planned_result_stored (hok : StoreOk codec db) (hcf : codec.CollisionFree)
    (hplan : buildInitialVerificationPlan codec claims provider candidate policyVersion traceId db = .ok plan)
    (hsave : saveVerificationBundle plan db = .ok db')
    (hw : deterministicTerminalResult codec claim provider candidate policyVersion ∈ plan.terminalResultsToInsert) :
    let result := deterministicResult claim candidate policyVersion
    ∃ row, db'.results.get (deterministicTerminalResult codec claim provider candidate policyVersion).verificationId =
        some row ∧ row.claimId = claim.claimId ∧ row.provider = provider ∧ row.status = result.status ∧
      row.resultPayload = result.modelDump ∧ row.availableAt = some candidate := by
  have hr := ((bundle_ensureAll hok.jobs hplan).mp hsave).2
  obtain ⟨row, hg, hagree⟩ := Table.ensureAll_agrees (results_coherent hcf hplan) hr _ (List.mem_map_of_mem hw)
  have hstored : db'.results.All (StoredResult codec) :=
    (bundle_evolves hok.jobs hplan hsave).2.all (fun _ hf => hf) (fun _ _ h he => he ▸ h) hok.results
  obtain ⟨a, ha, hc, hp, hs, hpay, hiff⟩ := stored_deterministic hcf (hstored _ row hg) (Table.get_key hg)
  obtain rfl := hiff.mp hagree
  refine ⟨row, hg, hc, hp, hs, hpay.trans ?_, ha⟩
  rw [← (deterministicResult_fields claim a policyVersion).2.2.2.1]
  rfl

/-- The entries of a plan whose claims all close are accepted. -/
theorem entries_accepted (hok : StoreOk codec db) (hcf : codec.CollisionFree)
    (h : ∀ claim ∈ claims, PlanCloses codec provider candidate policyVersion db claim)
    (hplan : buildInitialVerificationPlan codec claims provider candidate policyVersion traceId db = .ok plan)
    (hsave : saveVerificationBundle plan db = .ok db') {entry : VerificationArtifactEntry Id}
    (hm : entry ∈ plan.artifactResults) : verifyEntry entry candidate db' = .ok () := by
  obtain ⟨hkeptJobs, hkeptResults⟩ := bundle_evolves hok.jobs hplan hsave
  obtain ⟨claim, hc, part, _, _, hcontrib⟩ := (mem_entries hplan).mp hm
  generalize hr : resolve codec claim provider candidate policyVersion db = resolved at hcontrib
  cases resolve_iff.mp hr with
  | reusedResult hs hq =>
    obtain ⟨_, _, result, hv, hrec⟩ := hcontrib
    obtain ⟨hg, hrow, _, hp, ht, ha, _⟩ := latestTerminalAsOf_stored hok hs
    obtain ⟨_, hv', htext⟩ := (h claim hc).reused _ hs hq
    cases hv.symm.trans hv'
    obtain ⟨hclaim, hstatus⟩ := readsBack_fields hrow htext
    obtain ⟨_, hg', rfl⟩ := hkeptResults.old _ _ hg
    exact (verifyEntry_terminal hrec (hstatus ▸ terminal_ne ht)).mpr ⟨_, hg', hclaim, hp, hstatus, htext, ha⟩
  | terminalResult hq hs =>
    have hw := (mem_terminalResults hplan).mpr ⟨claim, hc, hr⟩
    obtain ⟨row, hg, hclaim, hp, hstatus, hpay, ha⟩ := planned_result_stored hok hcf hplan hsave hw
    obtain ⟨hid, hne, _⟩ := deterministicResult_fields claim candidate policyVersion
    refine (verifyEntry_terminal hcontrib.2.2 hne).mpr
      ⟨row, hg, hclaim.trans hid.symm, hp, hstatus, ?_, candidate, ha, le_refl _⟩
    rw [hpay]
    exact ResultFields.sameText_self _
  | reusedJob _ _ ha =>
    obtain ⟨hm', hf, ht, _⟩ := findActiveAsOf_some ha
    obtain ⟨_, hg, rfl⟩ := hkeptJobs.old _ _ (Table.get_of_mem hm')
    exact (verifyEntry_pending hcontrib.2.2 rfl).mpr ⟨_, hg, hf, ht⟩
  | pendingJob hq hs _ =>
    obtain ⟨row, hg, hf, hcreated⟩ := planned_job_stored hok hplan hsave
      ((mem_pendingJobs hplan).mpr ⟨claim, hc, _, hr, rfl⟩)
    refine (verifyEntry_pending hcontrib.2.2 rfl).mpr ⟨row, hg, hf, ?_⟩
    rcases hcreated with hold | ⟨_, hnew⟩
    · exact ((h claim hc).pending hq hs row hold).2
    · exact hnew.le

/-- A claim closes when the plan it is part of was saved and accepted. -/
theorem planCloses_of_accepted (hok : StoreOk codec db) (hcf : codec.CollisionFree)
    (hplan : buildInitialVerificationPlan codec claims provider candidate policyVersion traceId db = .ok plan)
    (hsave : saveVerificationBundle plan db = .ok db')
    (haccepted : ∀ entry ∈ plan.artifactResults, verifyEntry entry candidate db' = .ok ()) (hc : claim ∈ claims) :
    PlanCloses codec provider candidate policyVersion db claim := by
  obtain ⟨hkeptJobs, hkeptResults⟩ := bundle_evolves hok.jobs hplan hsave
  obtain ⟨entry, he, part, hcontrib⟩ := entry_of_claim hplan hc
  have hverified := haccepted entry he
  refine ⟨fun row hs hq => ?_, fun hq hs job hg => ?_, fun hq hs row hg => ?_⟩
  · rw [resolve_iff.mpr (.reusedResult hs hq)] at hcontrib
    obtain ⟨_, _, result, hv, hrec⟩ := hcontrib
    refine ⟨result, hv, ?_⟩
    have hne : result.status ≠ .verificationPending := fun hp => by
      have hlineage := entry.lineage
      rw [if_pos (hrec.status.trans hp), hrec.verificationJobId] at hlineage
      cases hlineage
    obtain ⟨_, hg', _, _, _, htext, _⟩ := (verifyEntry_terminal hrec hne).mp hverified
    obtain ⟨_, hg, rfl⟩ := hkeptResults.old _ _ (latestTerminalAsOf_stored hok hs).1
    cases hg.symm.trans hg'
    exact htext
  · cases ha : findActiveAsOf claim.claimId provider candidate db.jobs with
    | some row =>
      obtain ⟨hm, hf, ht, _⟩ := findActiveAsOf_some ha
      cases hg.symm.trans (job_of_claim hok.jobs hm hf)
      exact ⟨hf, ht⟩
    | none =>
      rw [resolve_iff.mpr (.pendingJob hq hs ha)] at hcontrib
      obtain ⟨row, hg', hf, ht⟩ := (verifyEntry_pending hcontrib.2.2 rfl).mp hverified
      obtain ⟨_, hkept, rfl⟩ := hkeptJobs.old _ job hg
      cases hkept.symm.trans hg'
      exact ⟨hf, ht⟩
  · have hr := resolve_iff.mpr (Resolves.terminalResult hq hs)
    have hagree := ((bundle_isOk hok hcf hplan).mp ⟨db', hsave⟩).2 _
      ((mem_terminalResults hplan).mpr ⟨claim, hc, hr⟩) row hg
    obtain ⟨a, ha, _, _, _, _, hiff⟩ := stored_deterministic hcf (hok.results _ row hg) (Table.get_key hg)
    rw [ha, hiff.mp hagree]

end Validation

/-- In every reachable store, a plan can be made, its bundle is saved without a conflict
and its entries are accepted exactly when each of its claims closes. -/
theorem plan_validated {Id : Type} [DecidableEq Id] (codec : ResultCodec Id) (hcf : codec.CollisionFree)
    (calls : List VerificationCall) (claims : List FinancialClaim) (provider : String) (candidate : Time)
    (policyVersion : String) (traceId : Option String) :
    let db := (verificationStore codec).run .empty calls
    (∃ plan db', buildInitialVerificationPlan codec claims provider candidate policyVersion traceId db = .ok plan ∧
      saveVerificationBundle plan db = .ok db' ∧
      verifyInitialVerificationClosure plan.artifactResults candidate db' = .ok ()) ↔
    ∀ claim ∈ claims, PlanCloses codec provider candidate policyVersion db claim := by
  intro db
  have hok : StoreOk codec db := verification_ok codec calls
  constructor
  · rintro ⟨plan, db', hplan, hsave, hclosed⟩ claim hc
    exact planCloses_of_accepted hok hcf hplan hsave (closure_ok.mp hclosed) hc
  · intro h
    obtain ⟨plan, hplan⟩ := build_isOk.mpr fun claim hc => planClaim_isOk (plannable hok (h claim hc))
    obtain ⟨db', hsave⟩ : ∃ db', saveVerificationBundle plan db = .ok db' := by
      refine (bundle_isOk hok hcf hplan).mpr ⟨fun write hw job hg => ?_, fun write hw row hg => ?_⟩
      · obtain ⟨claim, hc, job', hr, rfl⟩ := (mem_pendingJobs hplan).mp hw
        cases resolve_iff.mp hr with
        | pendingJob hq hs _ => exact ((h claim hc).pending hq hs job hg).1
      · obtain ⟨claim, hc, hr⟩ := (mem_terminalResults hplan).mp hw
        cases resolve_iff.mp hr with
        | terminalResult hq hs =>
          obtain ⟨a, ha, _, _, _, _, hiff⟩ := stored_deterministic hcf (hok.results _ row hg) (Table.get_key hg)
          have he := (h claim hc).written hq hs row hg
          rw [ha] at he
          exact hiff.mpr (Option.some.inj he)
    exact ⟨plan, db', hplan, hsave, closure_ok.mpr fun entry hm => entries_accepted hok hcf h hplan hsave hm⟩

def opinionClaim : FinancialClaim := ⟨"c2", .opinion, "OPINION"⟩

theorem transparent_collisionFree : transparent.CollisionFree := fun _ _ _ _ h => h

/-- A first snapshot is validated. -/
theorem plan_validated_first :
    ∃ plan db', buildInitialVerificationPlan transparent [priceClaim, opinionClaim] "quant" (seconds 30)
        "verification_rule.v1" none .empty = .ok plan ∧ saveVerificationBundle plan .empty = .ok db' ∧
      verifyInitialVerificationClosure plan.artifactResults (seconds 30) db' = .ok () :=
  (plan_validated transparent transparent_collisionFree [] [priceClaim, opinionClaim] "quant" (seconds 30)
    "verification_rule.v1" none).mpr fun _ _ =>
      ⟨fun _ h => (by cases h), fun _ _ _ h => (by cases h), fun _ _ _ h => (by cases h)⟩

/-- A snapshot of an opinion is published; then one with an earlier candidate time is planned. -/
theorem earlier_candidate_conflicts :
    let db := (verificationStore transparent).run .empty
      [.publish [opinionClaim] "quant" (seconds 200) "verification_rule.v1" none]
    ∃ plan, buildInitialVerificationPlan transparent [opinionClaim] "quant" (seconds 100) "verification_rule.v1"
      none db = .ok plan ∧ ∃ id, saveVerificationBundle plan db = .error (.differentResult id) :=
  ⟨_, rfl, _, rfl⟩

end StockContent.Verification
