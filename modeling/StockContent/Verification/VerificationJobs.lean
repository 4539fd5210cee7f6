import StockContent.Storage.Machine
import StockContent.Storage.Table
import StockContent.Verification.VerificationResult

/-! The verification job repository: leased jobs with a retry schedule, and the
immutable results that completed jobs leave behind. -/
namespace StockContent.Verification
open Storage

inductive JobStatus where
  | leased
  | retryable
  | result (status : ResultStatus)
  deriving DecidableEq

def JobStatus.pending : JobStatus := .result .verificationPending
def JobStatus.manualReview : JobStatus := .result .manualReview

structure ClaimVerificationJobRow where
  jobId : String
  claimId : String
  provider : String
  status : JobStatus
  retryCount : Nat := 0
  maxRetries : Nat := 5
  nextRetryAt : Option Time
  leaseOwner : Option String := none
  leaseExpiresAt : Option Time := none
  lastError : Option String := none
  traceId : Option String := none
  createdAt : Time
  deriving DecidableEq

/-- A stored result. Timestamp columns keep instants, the payload keeps what was written. -/
structure ClaimVerificationResultRow (Id : Type) where
  verificationId : Id
  claimId : String
  provider : String
  status : ResultStatus
  marketSnapshotId : Option String
  marketDataVersion : Option String
  resultPayload : ResultFields
  traceId : Option String
  factDate : Option Time
  adjustment : Option String
  verificationTimestamp : Option Time
  verificationRuleVersion : Option String
  verifiedAt : Option Time
  availableAt : Option Time
  createdAt : Time
  deriving DecidableEq

abbrev JobTable := Table ClaimVerificationJobRow.jobId
abbrev ResultTable (Id : Type) := Table (@ClaimVerificationResultRow.verificationId Id)

structure VerificationDb (Id : Type) where
  jobs : JobTable
  results : ResultTable Id

inductive JobError (Id : Type) where
  | keyError (message : String)
  | verificationJobIntegrity (message : String)
  | differentResult (verificationId : Id)
  | validationError (message : String)
  | valueError (message : String)
  | runtimeError (message : String)
  | indexError
  | integrityError
  deriving DecidableEq

def retryScheduleSeconds : List Int := [60, 300, 1800, 7200, 43200]

def jobIdOf (claimId provider : String) : String := "verify-job-" ++ claimId ++ "-" ++ provider

section Jobs

def forClaim (claimId provider : String) (row : ClaimVerificationJobRow) : Bool :=
  row.claimId == claimId && row.provider == provider

/-- Only a taken claim and provider are passed over; a primary key that another claim
took fails the insert. -/
def insertIgnore {Id : Type} (row : ClaimVerificationJobRow) (jobs : JobTable) :
    Except (JobError Id) (JobTable × Bool) :=
  if jobs.rows.any (forClaim row.claimId row.provider) then .ok (jobs, false)
  else match jobs.insert row with
    | some jobs' => .ok (jobs', true)
    | none => .error .integrityError

/-- A trace id is filled in where there was none. -/
def traced (traceId : Option String) (row : ClaimVerificationJobRow) : ClaimVerificationJobRow :=
  if (traceId.filter (· ≠ "")).isSome ∧ (row.traceId.filter (· ≠ "")) = none then { row with traceId } else row

@[simp] theorem traced_jobId (traceId : Option String) (row : ClaimVerificationJobRow) :
    (traced traceId row).jobId = row.jobId := by
  unfold traced; split <;> rfl

/-- `locked` are the rows that `SKIP LOCKED` passes over. A missing due time or expiry
does not hold a row back. -/
def claimable (now : Time) (row : ClaimVerificationJobRow) : Bool :=
  (row.status == .pending || row.status == .leased) &&
    row.nextRetryAt.all (· ≤ now) && row.leaseExpiresAt.all (· ≤ now)

def leased (workerId : String) (leaseSeconds : Int) (now : Time) (row : ClaimVerificationJobRow) :
    ClaimVerificationJobRow :=
  { row with
    status := .leased
    leaseOwner := some workerId
    leaseExpiresAt := some (now + seconds leaseSeconds) }

@[simp] theorem leased_jobId (workerId : String) (leaseSeconds : Int) (now : Time)
    (row : ClaimVerificationJobRow) : (leased workerId leaseSeconds now row).jobId = row.jobId := rfl

def dueRows (locked : List String) (limit : Nat) (now : Time) (jobs : JobTable) : List ClaimVerificationJobRow :=
  jobs.select (fun row => claimable now row && !locked.contains row.jobId)
    (fun a b => a.createdAt < b.createdAt ∨ (a.createdAt = b.createdAt ∧ a.jobId ≤ b.jobId)) limit

def claimDue (locked : List String) (workerId : String) (limit : Nat) (leaseSeconds : Int) (now : Time)
    (jobs : JobTable) : JobTable × List ClaimVerificationJobRow :=
  let rows := dueRows locked limit now jobs
  (jobs.modifyEach (rows.map (·.jobId)) (leased workerId leaseSeconds now) (leased_jobId workerId leaseSeconds now),
    rows.map (leased workerId leaseSeconds now))

variable {Id : Type}

def assertOwner (workerId : String) (now : Time) (row : ClaimVerificationJobRow) : Except (JobError Id) Unit :=
  if row.status ≠ .leased ∨ row.leaseOwner ≠ some workerId then
    .error (.verificationJobIntegrity "verification job lease owner mismatch")
  else if row.leaseExpiresAt.any (· ≤ now) then
    .error (.verificationJobIntegrity "verification job lease expired")
  else .ok ()

/-- What the owner of a lease may do to its job, apart from completing it. -/
inductive JobMark where
  | renewLease (leaseSeconds : Int)
  | retry (error : String)
  | manualReview (reason : String)
  deriving DecidableEq

def unleased (row : ClaimVerificationJobRow) : ClaimVerificationJobRow :=
  { row with leaseOwner := none, leaseExpiresAt := none }

def JobMark.apply (now : Time) (row : ClaimVerificationJobRow) : JobMark → Except (JobError Id) ClaimVerificationJobRow
  | .renewLease leaseSeconds => .ok { row with leaseExpiresAt := some (now + seconds leaseSeconds) }
  | .retry error =>
    let row := unleased { row with retryCount := row.retryCount + 1, lastError := some error }
    if row.maxRetries < row.retryCount then .ok { row with status := .manualReview, nextRetryAt := none }
    else match retryScheduleSeconds[row.retryCount - 1]? with
      | none => .error .indexError
      | some delay => .ok { row with status := .pending, nextRetryAt := some (now + seconds delay) }
  | .manualReview reason =>
    .ok (unleased { row with status := .manualReview, lastError := some reason, nextRetryAt := none })

def getJob (jobId : String) (jobs : JobTable) : Except (JobError Id) ClaimVerificationJobRow :=
  match jobs.get jobId with
  | none => .error (.keyError "verification job not found")
  | some row => .ok row

def applyMark (jobId workerId : String) (mark : JobMark) (now : Time) (jobs : JobTable) :
    Except (JobError Id) (JobTable × ClaimVerificationJobRow) := do
  let row ← getJob jobId jobs
  assertOwner workerId now row
  let row ← mark.apply now row
  return (jobs.update row, row)

def renewLease (jobId workerId : String) (leaseSeconds : Int) (now : Time) (jobs : JobTable) :
    Except (JobError Id) (JobTable × ClaimVerificationJobRow) :=
  applyMark jobId workerId (.renewLease leaseSeconds) now jobs
def markRetry (jobId workerId error : String) (now : Time) (jobs : JobTable) :
    Except (JobError Id) (JobTable × ClaimVerificationJobRow) :=
  applyMark jobId workerId (.retry error) now jobs
def markManualReview (jobId workerId reason : String) (now : Time) (jobs : JobTable) :
    Except (JobError Id) (JobTable × ClaimVerificationJobRow) :=
  applyMark jobId workerId (.manualReview reason) now jobs

/-- The retry counter is kept. -/
def reopened (now : Time) (row : ClaimVerificationJobRow) : ClaimVerificationJobRow :=
  unleased { row with status := .pending, nextRetryAt := some now, lastError := none }

def requeue (jobId : String) (now : Time) (jobs : JobTable) :
    Except (JobError Id) (JobTable × ClaimVerificationJobRow) := do
  let row ← getJob jobId jobs
  return (jobs.update (reopened now row), reopened now row)

end Jobs

section Results
variable {Id : Type} [DecidableEq Id] (codec : ResultCodec Id)

/-- The two digests of a result: the repository escapes other than ASCII characters, the
planner keeps them. -/
def verificationIdOf (claimId provider : String) (fields : ResultFields) : Id :=
  codec.digest true (identityOf claimId provider fields)

/-- A row as a writer hands it over, before columns turn datetimes into instants. -/
structure ResultValues (Id : Type) where
  verificationId : Id
  claimId : String
  provider : String
  status : ResultStatus
  result : ResultFields
  resultPayload : ResultFields
  traceId : Option String
  availableAt : Option Time
  createdAt : Time

def ResultValues.row (values : ResultValues Id) : ClaimVerificationResultRow Id where
  verificationId := values.verificationId
  claimId := values.claimId
  provider := values.provider
  status := values.status
  marketSnapshotId := values.result.marketSnapshotId
  marketDataVersion := values.result.marketDataVersion
  resultPayload := values.resultPayload
  traceId := values.traceId
  factDate := values.result.factDate.map FactDate.column
  adjustment := values.result.adjustment
  verificationTimestamp := values.result.verificationTimestamp.map DateTime.utc
  verificationRuleVersion := some values.result.verificationRuleVersion
  verifiedAt := values.result.verificationTimestamp.map DateTime.utc
  availableAt := values.availableAt
  createdAt := values.createdAt

/-- The immutable columns agree. A stored fact date is read back in UTC and compared by
day with the day the writer wrote. -/
def agrees (row : ClaimVerificationResultRow Id) (values : ResultValues Id) : Bool :=
  row.claimId == values.claimId && row.provider == values.provider && row.status == values.status &&
    row.marketSnapshotId == values.result.marketSnapshotId &&
    row.marketDataVersion == values.result.marketDataVersion &&
    row.resultPayload.same values.resultPayload &&
    row.factDate.map (· / dayLength) == values.result.factDate.map FactDate.isoDay &&
    row.adjustment == values.result.adjustment &&
    row.verificationTimestamp == values.result.verificationTimestamp.map DateTime.utc &&
    row.verificationRuleVersion == some values.result.verificationRuleVersion &&
    row.verifiedAt == values.result.verificationTimestamp.map DateTime.utc &&
    row.availableAt == values.availableAt

/-- Insert a result unless its id is stored, then compare what is stored. -/
def persistVerificationResult (values : ResultValues Id) (results : ResultTable Id) :
    Except (JobError Id) (ResultTable Id) :=
  let results := (results.insert values.row).getD results
  match results.get values.verificationId with
  | none => .error (.runtimeError "verification result disappeared after a unique-key conflict")
  | some row => if agrees row values then .ok results else .error (.differentResult values.verificationId)

/-- The instant from which a completed result can be seen. -/
def resultAvailableAt (result : ResultFields) (fallback : Time) : Time :=
  let base := max ((result.availableAt.map DateTime.utc).getD fallback) fallback
  match result.verificationTimestamp with
  | none => base
  | some timestamp => max base timestamp.utc

def closed (status : ResultStatus) (job : ClaimVerificationJobRow) : ClaimVerificationJobRow :=
  unleased { job with status := .result status, nextRetryAt := none }

def completed (job : ClaimVerificationJobRow) (result : VerificationResult) (now : Time) : ResultValues Id :=
  let result := result.availableFrom (resultAvailableAt result.toResultFields now)
  { verificationId := verificationIdOf codec job.claimId job.provider result.toResultFields
    claimId := job.claimId
    provider := job.provider
    status := result.status
    result := result.toResultFields
    resultPayload := result.modelDump
    traceId := job.traceId
    availableAt := some (resultAvailableAt result.toResultFields now)
    createdAt := now }

def completeResult (jobId workerId : String) (result : VerificationResult) (now : Time)
    (db : VerificationDb Id) : Except (JobError Id) (VerificationDb Id × Unit) :=
  if result.status = .verificationPending ∨ result.status = .manualReview then
    .error (.verificationJobIntegrity "completion requires a terminal verification result")
  else do
    let job ← getJob jobId db.jobs
    if result.claimId ≠ job.claimId then
      .error (.verificationJobIntegrity "result claim does not match leased job")
    let values := completed codec job result now
    match db.results.get values.verificationId with
    | some existing =>
      -- The first completion owns the envelope; the owner of the job is not asked for.
      let values := { values with availableAt := existing.availableAt, resultPayload := existing.resultPayload }
      let results ← persistVerificationResult values db.results
      return ({ jobs := db.jobs.update (closed result.status job), results }, ())
    | none =>
      assertOwner workerId now job
      let results ← persistVerificationResult values db.results
      return ({ jobs := db.jobs.update (closed result.status job), results }, ())

/-- The refresh of a snapshot completes a job inside a larger transaction. `prior` says
whether a snapshot already shows the stored result, `publish` what becomes of the rest. -/
def refreshResult (jobId workerId : String) (result : VerificationResult) (prior : Bool)
    (publish : Except String Unit) (now : Time) (db : VerificationDb Id) :
    Except (JobError Id) (VerificationDb Id × Unit) :=
  if result.status = .verificationPending ∨ result.status = .notRequired then
    .error (.verificationJobIntegrity "verification refresh requires a terminal external result")
  else do
    let job ← getJob jobId db.jobs
    if result.claimId ≠ job.claimId then
      .error (.verificationJobIntegrity "result claim does not match leased job")
    let values := completed codec job result now
    let existing := db.results.get values.verificationId
    let values := match existing.bind (·.availableAt) with
      | none => values
      | some availableAt =>
        { values with
          availableAt := some availableAt
          resultPayload := (result.availableFrom availableAt).modelDump }
    let closing (results : ResultTable Id) : VerificationDb Id × Unit :=
      ({ jobs := db.jobs.update (closed result.status job), results }, ())
    if existing.isSome then
      let results ← persistVerificationResult values db.results
      if prior then return closing results
    else if job.leaseOwner ≠ some workerId ∨ job.status ≠ .leased then
      .error (.verificationJobIntegrity "verification job lease owner mismatch")
    let results ← persistVerificationResult values db.results
    publish.mapError .valueError
    return closing results

/-- The result that enqueueing writes for a claim no provider can check. -/
def unverifiable (claim : FinancialClaim) : VerificationResult :=
  if claim.factCategory = "FACT" then
    unboundResult claim.claimId .notVerifiable ResultStatus.bound_notVerifiable none "verification_rule.v1" none
  else unboundResult claim.claimId .notRequired ResultStatus.bound_notRequired none "verification_rule.v1" none

def enqueueResult (claim : FinancialClaim) (provider : String) (traceId : Option String) (now : Time)
    (results : ResultTable Id) : Except (JobError Id) (ResultTable Id) :=
  let result := unverifiable claim
  let values : ResultValues Id :=
    { verificationId := verificationIdOf codec claim.claimId provider result.toResultFields
      claimId := claim.claimId
      provider
      status := result.status
      result := result.toResultFields
      resultPayload := result.modelDump
      traceId
      availableAt := some now
      createdAt := now }
  let results := (results.insert values.row).getD results
  match results.get values.verificationId with
  | none => .error (.runtimeError "verification result disappeared after a unique-key conflict")
  | some row =>
    if row.resultPayload.same result.modelDump then .ok results
    else .error (.differentResult values.verificationId)

/-- `clock` is the time the database stamps a new job with. -/
def enqueueJob (claim : FinancialClaim) (provider : String) (traceId : Option String) (now clock : Time)
    (jobs : JobTable) : Except (JobError Id) (JobTable × List String) := do
  let (jobs, inserted) ← insertIgnore
    { jobId := jobIdOf claim.claimId provider
      claimId := claim.claimId
      provider
      status := .pending
      maxRetries := retryScheduleSeconds.length
      nextRetryAt := some now
      traceId
      createdAt := clock } jobs
  match jobs.rows.find? (forClaim claim.claimId provider) with
  | none => .error (.runtimeError "verification job disappeared after a unique-key conflict")
  | some row => return (jobs.update (traced traceId row), if inserted then [row.jobId] else [])

def enqueueClaim (claim : FinancialClaim) (provider : String) (traceId : Option String) (now clock : Time)
    (db : VerificationDb Id) : Except (JobError Id) (VerificationDb Id × List String) :=
  if isQuantVerifiable claim then do
    let (jobs, created) ← enqueueJob claim provider traceId now clock db.jobs
    return ({ db with jobs }, created)
  else do
    let results ← enqueueResult codec claim provider traceId now db.results
    return ({ db with results }, [])

def enqueue (claims : List FinancialClaim) (provider : String) (traceId : Option String) (now clock : Time)
    (db : VerificationDb Id) : Except (JobError Id) (VerificationDb Id × List String) :=
  match claims with
  | [] => .ok (db, [])
  | claim :: claims => do
    let (db, created) ← enqueueClaim codec claim provider traceId now clock db
    let (db, more) ← enqueue claims provider traceId now clock db
    return (db, created ++ more)

/-- The oldest open job of a claim that existed at a candidate time. -/
def findActiveAsOf (claimId provider : String) (candidate : Time) (jobs : JobTable) :
    Option ClaimVerificationJobRow :=
  (jobs.select
    (fun row => forClaim claimId provider row && row.createdAt ≤ candidate &&
      (row.status == .pending || row.status == .leased || row.status == .retryable))
    (fun a b => a.createdAt < b.createdAt ∨ (a.createdAt = b.createdAt ∧ a.jobId ≤ b.jobId)) 1).head?

/-- The newest terminal result of a claim under a policy that can be seen at a candidate time. -/
def latestTerminalAsOf (claimId provider : String) (candidate : Time) (policyVersion : String)
    (results : ResultTable Id) : Option (ClaimVerificationResultRow Id) :=
  let visible := results.select
    (fun row => row.claimId == claimId && row.provider == provider && row.status.terminal &&
      row.availableAt.any (· ≤ candidate))
    (fun a b => a.availableAt.getD 0 > b.availableAt.getD 0 ∨ (a.availableAt.getD 0 = b.availableAt.getD 0 ∧
      (a.createdAt > b.createdAt ∨ (a.createdAt = b.createdAt ∧ codec.precedes b.verificationId a.verificationId))))
    results.rows.length
  visible.find? fun row => policyVersion = "" ∨ row.resultPayload.verificationRuleVersion = policyVersion

end Results
end StockContent.Verification
