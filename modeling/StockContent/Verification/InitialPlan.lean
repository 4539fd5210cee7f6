import StockContent.Verification.VerificationJobs

/-! Initial verification: the plan a new snapshot makes for its claims, the bundle that
writes it, and the validator that checks its references before the snapshot commits. -/
namespace StockContent.Verification
open Storage

inductive VerificationRequirement where
  | asyncRequired | notVerifiable | notRequired
  deriving DecidableEq, Repr

def verificationRequirement (claim : FinancialClaim) : VerificationRequirement :=
  if isQuantVerifiable claim then .asyncRequired
  else if claim.factCategory = "FACT" then .notVerifiable
  else .notRequired

structure VerificationJobWrite where
  jobId : String
  claimId : String
  provider : String
  createdAt : Time
  traceId : Option String := none
  deriving DecidableEq

structure VerificationResultWrite (Id : Type) where
  verificationId : Id
  claimId : String
  provider : String
  result : VerificationResult
  availableAt : Time

section Planner
variable {Id : Type} [DecidableEq Id] (codec : ResultCodec Id)

def deterministicResult (claim : FinancialClaim) (candidate : Time) (policyVersion : String) :
    VerificationResult :=
  if verificationRequirement claim = .notVerifiable then
    unboundResult claim.claimId .notVerifiable ResultStatus.bound_notVerifiable (some "FACT_NOT_QUANT_VERIFIABLE")
      policyVersion (some (.ofUtc candidate))
  else
    unboundResult claim.claimId .notRequired ResultStatus.bound_notRequired (some "NON_FACT_CLAIM") policyVersion
      (some (.ofUtc candidate))

/-- The planner's digest keeps other than ASCII characters. -/
def plannedIdOf (claimId provider : String) (fields : ResultFields) : Id :=
  codec.digest false (identityOf claimId provider fields)

def deterministicTerminalResult (claim : FinancialClaim) (provider : String) (candidate : Time)
    (policyVersion : String) : VerificationResultWrite Id :=
  let result := deterministicResult claim candidate policyVersion
  { verificationId := plannedIdOf codec claim.claimId provider result.toResultFields
    claimId := claim.claimId
    provider
    result
    availableAt := candidate }

/-- What a claim needs, given what is stored at the candidate time. -/
inductive Resolved (Id : Type) where
  | terminalResult (write : VerificationResultWrite Id)
  | reusedResult (row : ClaimVerificationResultRow Id)
  | pendingJob (job : VerificationJobWrite)
  | reusedJob (row : ClaimVerificationJobRow)

def resolve (claim : FinancialClaim) (provider : String) (candidate : Time) (policyVersion : String)
    (db : VerificationDb Id) : Resolved Id :=
  let existing := latestTerminalAsOf codec claim.claimId provider candidate policyVersion db.results
  if verificationRequirement claim ≠ .asyncRequired then
    let terminal := deterministicTerminalResult codec claim provider candidate policyVersion
    match existing.filter (·.status = terminal.result.status) with
    | some row => .reusedResult row
    | none => .terminalResult terminal
  else match existing with
    | some row => .reusedResult row
    | none => match findActiveAsOf claim.claimId provider candidate db.jobs with
      | some row => .reusedJob row
      | none => .pendingJob
        { jobId := jobIdOf claim.claimId provider, claimId := claim.claimId, provider, createdAt := candidate }

structure InitialVerificationPersistencePlan (Id : Type) where
  artifactResults : List (VerificationArtifactEntry Id) := []
  terminalResultsToInsert : List (VerificationResultWrite Id) := []
  pendingJobsToInsert : List VerificationJobWrite := []
  reusedTerminalResultIds : List Id := []
  reusedJobIds : List String := []

def pendingResult (claimId : String) : VerificationResult :=
  unboundResult claimId .verificationPending rfl none "verification_rule.v1" none

/-- The part of the plan that one claim contributes. -/
def planClaim (claim : FinancialClaim) (provider : String) (traceId : Option String) :
    Resolved Id → Except String (InitialVerificationPersistencePlan Id)
  | .terminalResult write => do
    let entry ← VerificationArtifactEntry.fromResult write.result provider (some write.verificationId) none
    return { artifactResults := [entry], terminalResultsToInsert := [write] }
  | .reusedResult row => do
    let result ← codec.validate row.resultPayload
    let entry ← VerificationArtifactEntry.fromResult result provider (some row.verificationId) none
    return { artifactResults := [entry], reusedTerminalResultIds := [row.verificationId] }
  | .pendingJob job => do
    let entry ← VerificationArtifactEntry.fromResult (pendingResult claim.claimId) provider none (some job.jobId)
    return { artifactResults := [entry], pendingJobsToInsert := [{ job with traceId }] }
  | .reusedJob row => do
    let entry ← VerificationArtifactEntry.fromResult (pendingResult claim.claimId) provider none (some row.jobId)
    return { artifactResults := [entry], reusedJobIds := [row.jobId] }

def InitialVerificationPersistencePlan.append (p q : InitialVerificationPersistencePlan Id) :
    InitialVerificationPersistencePlan Id where
  artifactResults := p.artifactResults ++ q.artifactResults
  terminalResultsToInsert := p.terminalResultsToInsert ++ q.terminalResultsToInsert
  pendingJobsToInsert := p.pendingJobsToInsert ++ q.pendingJobsToInsert
  reusedTerminalResultIds := p.reusedTerminalResultIds ++ q.reusedTerminalResultIds
  reusedJobIds := p.reusedJobIds ++ q.reusedJobIds

/-- Every claim is resolved against the same stored state; nothing is written yet. -/
def buildInitialVerificationPlan (claims : List FinancialClaim) (provider : String) (candidate : Time)
    (policyVersion : String) (traceId : Option String) (db : VerificationDb Id) :
    Except String (InitialVerificationPersistencePlan Id) :=
  match claims with
  | [] => .ok {}
  | claim :: claims => do
    let first ← planClaim codec claim provider traceId (resolve codec claim provider candidate policyVersion db)
    let rest ← buildInitialVerificationPlan claims provider candidate policyVersion traceId db
    return first.append rest

def VerificationJobWrite.row (write : VerificationJobWrite) : ClaimVerificationJobRow where
  jobId := write.jobId
  claimId := write.claimId
  provider := write.provider
  status := .pending
  nextRetryAt := some write.createdAt
  traceId := write.traceId
  createdAt := write.createdAt

def VerificationResultWrite.values (write : VerificationResultWrite Id) : ResultValues Id where
  verificationId := write.verificationId
  claimId := write.claimId
  provider := write.provider
  status := write.result.status
  result := write.result.toResultFields
  resultPayload := write.result.modelDump
  traceId := none
  availableAt := some write.availableAt
  createdAt := write.availableAt

def saveJobs (writes : List VerificationJobWrite) (jobs : JobTable) : Except (JobError Id) JobTable :=
  match writes with
  | [] => .ok jobs
  | write :: writes => do
    let (jobs, _) ← insertIgnore write.row jobs
    saveJobs writes jobs

def saveResults (writes : List (VerificationResultWrite Id)) (results : ResultTable Id) :
    Except (JobError Id) (ResultTable Id) :=
  match writes with
  | [] => .ok results
  | write :: writes => do
    let results ← persistVerificationResult write.values results
    saveResults writes results

def saveVerificationBundle (plan : InitialVerificationPersistencePlan Id) (db : VerificationDb Id) :
    Except (JobError Id) (VerificationDb Id) := do
  let jobs ← saveJobs plan.pendingJobsToInsert db.jobs
  let results ← saveResults plan.terminalResultsToInsert db.results
  return { jobs, results }

/-- The checks on one artifact entry. The status of a job is not inspected: a pending
entry stays closed after its job completes. -/
def verifyEntry (entry : VerificationArtifactEntry Id) (candidate : Time) (db : VerificationDb Id) :
    Except String Unit :=
  if entry.status = .verificationPending then
    match entry.verificationJobId.bind fun jobId => db.jobs.get jobId with
    | none => .error ("verification job row missing: " ++ entry.verificationJobId.getD "")
    | some row =>
      if row.claimId ≠ entry.claimId ∨ row.provider ≠ entry.provider then
        .error ("verification job lineage mismatch: " ++ row.jobId)
      else if candidate < row.createdAt then
        .error ("verification job is not visible at snapshot: " ++ row.jobId)
      else .ok ()
  else match entry.verificationId.bind fun id => db.results.get id with
    | none => .error "verification result row missing"
    | some row =>
      if row.claimId ≠ entry.claimId ∨ row.provider ≠ entry.provider ∨ row.status ≠ entry.status ∨
          entry.result.any (fun result => !row.resultPayload.sameText result.modelDump) then
        .error "verification result lineage mismatch"
      else if row.availableAt.all (candidate < ·) then
        .error "verification result is not visible at snapshot"
      else .ok ()

def verifyInitialVerificationClosure (entries : List (VerificationArtifactEntry Id)) (candidate : Time)
    (db : VerificationDb Id) : Except String Unit :=
  match entries with
  | [] => .ok ()
  | entry :: entries => do
    verifyEntry entry candidate db
    verifyInitialVerificationClosure entries candidate db

/-- Plan, write and validate in one transaction, as a snapshot is published. -/
def publishVerification (claims : List FinancialClaim) (provider : String) (candidate : Time)
    (policyVersion : String) (traceId : Option String) (db : VerificationDb Id) :
    Except (JobError Id) (VerificationDb Id × Unit) := do
  let plan ← (buildInitialVerificationPlan codec claims provider candidate policyVersion traceId db).mapError
    .validationError
  let db ← saveVerificationBundle plan db
  (verifyInitialVerificationClosure plan.artifactResults candidate db).mapError .valueError
  return (db, ())

end Planner
end StockContent.Verification
