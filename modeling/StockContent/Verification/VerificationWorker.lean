import StockContent.Ledger.Projector
import StockContent.Storage.Procedure
import StockContent.Tasks.TaskLease
import StockContent.Verification.SnapshotRefresh

/-! The verification worker: one pass leases due jobs and, under a task run for each, asks
the provider and stores what it says, or schedules the job again. -/
namespace StockContent.Verification
open Storage Tasks

/-- What `verify` returns; nothing counts as an empty payload. -/
inductive ProviderOutcome where
  | result (result : VerificationResult)
  | payload (payload : List (String × Json))

/-- The arguments that a payload gives to the constructor of results. -/
structure ResultDraft where
  claimId : String
  status : String
  marketSnapshotId : Json
  marketDataVersion : Json
  factDate : Json
  adjustment : Json
  verificationTimestamp : Time
  verificationRuleVersion : String
  availableAt : Time
  referenceValue : Json
  reason : Json

inductive WorkerError (Id : Type) where
  | job (error : JobError Id)
  | lease (error : TaskRunError)
  | raised (message : String)

/-- The job rows with what completions write, and the rows of the task runs. -/
structure WorkerDb (Id H B : Type) where
  refresh : RefreshDb Id H B
  runs : TaskRunTable

abbrev Work (Id H B A : Type) := Procedure (WorkerDb Id H B) (WorkerError Id) A

/-- `taskLease` and `completion` say which of the optional services the worker was built with.
`verify` may answer each job as it likes; `claims` reads the claim repository, `construct`
is the constructor of results. -/
structure VerificationWorkerApplication (Id H B : Type) where
  provider : Option (ClaimVerificationJobRow → FinancialClaim → Except String ProviderOutcome)
  completion : Bool
  taskLease : Bool
  claims : String → B → Option FinancialClaim
  construct : ResultDraft → Except String VerificationResult
  str : Json → String
  errorText : WorkerError Id → String

structure Pass where
  workerId : String
  limit : Nat := 10
  leaseSeconds : Int := 60
  now : Time
  locked : List String := []

inductive Verdict where
  | completed | retried | manualReview
  deriving DecidableEq

structure PassCounters where
  completed : Nat := 0
  retried : Nat := 0
  manualReview : Nat := 0
  deriving DecidableEq

structure PassReport extends PassCounters where
  claimed : Nat
  deriving DecidableEq

def PassCounters.count (counters : PassCounters) : Verdict → PassCounters
  | .completed => { counters with completed := counters.completed + 1 }
  | .retried => { counters with retried := counters.retried + 1 }
  | .manualReview => { counters with manualReview := counters.manualReview + 1 }

section Payload

def field (payload : List (String × Json)) (key : String) : Json := (Json.lookup payload key).getD .null

/-- `a or b`. -/
def either (a b : Json) : Json := if Ledger.truthy a then a else b

/-- The statuses of a provider in the words of a result. -/
def resultStatusName (status : List Char) : String :=
  if status = "MATCH".toList then "VERIFIED"
  else if status = "CONFLICT".toList then "CONTRADICTED"
  else if status = "PARTIAL".toList then "PARTIALLY_VERIFIED"
  else if status = "PENDING".toList then "VERIFICATION_PENDING"
  else if status = "NOT_FOUND".toList then "NOT_VERIFIABLE"
  else String.ofList status

/-- `dict(value or {})`, for values that are objects. -/
def objectOf (value : Json) : Except String (List (String × Json)) :=
  match value with
  | .obj fields => .ok fields
  | v => if Ledger.truthy v then .error "market fact is not a mapping" else .ok []

variable {Id H B : Type} (worker : VerificationWorkerApplication Id H B)

def toResult (claim : FinancialClaim) (outcome : ProviderOutcome) (now : Time) : Except String VerificationResult :=
  match outcome with
  | .result result => .ok (if result.availableAt.isNone then result.availableFrom now else result)
  | .payload payload => do
    let status := resultStatusName
      (Ledger.upper (worker.str (either (field payload "status") (.str "NOT_VERIFIABLE"))))
    let market ← objectOf (either (field payload "market_fact") (field payload "market_snapshot"))
    worker.construct
      { claimId := claim.claimId
        status
        marketSnapshotId := either (field market "data_snapshot_id") (field market "snapshot_id")
        marketDataVersion := either (field market "data_version") (field market "market_data_version")
        factDate := either (field market "trading_date") (field payload "fact_date")
        adjustment := (Json.lookup market "adjustment").getD (.str "NONE")
        verificationTimestamp := now
        verificationRuleVersion :=
          worker.str (either (field payload "verification_rule_version") (.str "verification_rule.v1"))
        availableAt := now
        referenceValue := field market "close"
        reason := field payload "reason" }

end Payload

section Pass
variable {Id H B : Type} [DecidableEq Id] [DecidableEq H] (services : RefreshServices Id H B) (codec : ResultCodec Id)
  (worker : VerificationWorkerApplication Id H B) (pass : Pass)

def onRefresh {A : Type} (f : RefreshDb Id H B → Except (JobError Id) (RefreshDb Id H B × A)) : Work Id H B A :=
  Procedure.transact fun db => ((f db.refresh).map fun p => ({ db with refresh := p.1 }, p.2)).mapError .job

def onVerification {A : Type} (f : VerificationDb Id → Except (JobError Id) (VerificationDb Id × A)) : Work Id H B A :=
  onRefresh fun db => (f db.verification).map fun p => ({ db with verification := p.1 }, p.2)

def onJobTable {A : Type} (f : JobTable → Except (JobError Id) (JobTable × A)) : Work Id H B A :=
  onVerification fun db => (f db.jobs).map fun p => ({ db with jobs := p.1 }, p.2)

def onRuns {A : Type} (f : TaskRunTable → Except TaskRunError (TaskRunTable × A)) : Work Id H B A :=
  Procedure.transact fun db => ((f db.runs).map fun p => ({ db with runs := p.1 }, p.2)).mapError .lease

def raise {A : Type} (message : String) : Work Id H B A := throw (.raised message)

/-- The newest snapshot with an artifact that the claim is a member of. -/
def resolveParentSnapshotId (claimId : String) (db : RefreshDb Id H B) : Except (JobError Id) String :=
  let slots (row : ContentSnapshotRow) :=
    row.artifactIds.claims :: row.artifactIds.verification :: row.artifactIds.others.map (·.2)
  match (db.snapshots.select (fun row => (slots row).any fun artifactId => db.members.contains (artifactId, claimId))
    (fun a b => a.createdAt > b.createdAt ∨ (a.createdAt = b.createdAt ∧ a.contentSnapshotId ≥ b.contentSnapshotId))
    1).head? with
  | none => .error (.keyError ("no snapshot lineage for claim: " ++ claimId))
  | some row => .ok row.contentSnapshotId

def taskRunIdOf (jobId : String) : String := "verification:" ++ jobId

def acquireTaskRun (job : ClaimVerificationJobRow) : Work Id H B (Option TaskRun) :=
  if worker.taskLease then do
    let db ← get
    if (db.runs.get (taskRunIdOf job.jobId)).isNone then
      set { db with runs := db.runs.create "verification" (taskRunIdOf job.jobId) }
    some <$> onRuns (TaskRunTable.acquire (taskRunIdOf job.jobId) pass.workerId pass.now (seconds pass.leaseSeconds))
  else return none

def endTaskRun (target : TaskRunState) : Option TaskRun → Work Id H B Unit
  | none => return ()
  | some run => do
    let _ ← onRuns (TaskRunTable.transition run.taskRunId target pass.workerId run.fencingToken pass.now)

/-- The result of the provider. A pending one is no result. -/
def askProvider (job : ClaimVerificationJobRow) (claim : FinancialClaim) : Except String VerificationResult :=
  match worker.provider with
  | none => .error "verification provider unavailable"
  | some verify => do
    let outcome ← verify job claim
    let result ← toResult worker claim outcome pass.now
    if result.status = .verificationPending then .error "verification provider returned pending" else return result

def storeResult (job : ClaimVerificationJobRow) (result : VerificationResult) : Work Id H B Unit :=
  if worker.completion then do
    let parentSnapshotId ← onRefresh fun db =>
      (resolveParentSnapshotId job.claimId db).map fun parentSnapshotId => (db, some parentSnapshotId)
    let _ ← onRefresh (complete services codec
      { jobId := job.jobId, workerId := pass.workerId, result, parentSnapshotId, now := pass.now })
  else onVerification (completeResult codec job.jobId pass.workerId result pass.now)

/-- The body that a handler guards: from the provider to the end of the task run. -/
def verifyJob (job : ClaimVerificationJobRow) (claim : FinancialClaim) (run : Option TaskRun) : Work Id H B Verdict :=
  match askProvider worker pass job claim with
  | .error message => raise message
  | .ok result => do
    storeResult services codec worker pass job result
    endTaskRun pass .succeeded run
    return .completed

/-- The handler: the job goes back to the schedule. -/
def retryJob (job : ClaimVerificationJobRow) (run : Option TaskRun) (error : WorkerError Id) : Work Id H B Verdict := do
  let updated ← onJobTable (markRetry job.jobId pass.workerId (worker.errorText error) pass.now)
  endTaskRun pass .failed run
  return if updated.status = .manualReview then .manualReview else .retried

/-- Only what follows the lease of the task run is guarded. -/
def processJob (job : ClaimVerificationJobRow) : Work Id H B Verdict := do
  let run ← acquireTaskRun worker pass job
  let db ← get
  match worker.claims job.claimId db.refresh.other with
  | none => do
    let _ ← onJobTable (markManualReview job.jobId pass.workerId "CLAIM_NOT_FOUND" pass.now)
    return .manualReview
  | some claim => tryCatch (verifyJob services codec worker pass job claim run) (retryJob worker pass job run)

def processJobs (counters : PassCounters) : List ClaimVerificationJobRow → Work Id H B PassCounters
  | [] => return counters
  | job :: jobs => do
    let verdict ← processJob services codec worker pass job
    processJobs (counters.count verdict) jobs

def claimJobs : Work Id H B (List ClaimVerificationJobRow) :=
  onJobTable fun jobs => .ok (claimDue pass.locked pass.workerId pass.limit pass.leaseSeconds pass.now jobs)

def runOnce : Work Id H B PassReport := do
  let jobs ← claimJobs pass
  let counters ← processJobs services codec worker pass {} jobs
  return { counters with claimed := jobs.length }

end Pass
end StockContent.Verification
