import StockContent.Verification.WorkerPasses

/-! Runs of verification workers: passes between any calls on the jobs and the task runs, and
exactly when a pass settles all it leased. -/
namespace StockContent.Verification
open Storage Tasks

/-- A pass of some worker, or a call of another writer of the jobs or of the task runs. -/
inductive PassCall (Id H B : Type) where
  | refresh (call : RefreshCall)
  | taskRun (call : TaskRunCall)
  | pass (worker : VerificationWorkerApplication Id H B) (pass : Pass)

section Runs
variable {Id H B : Type} [DecidableEq Id] [DecidableEq H] (services : RefreshServices Id H B) (codec : ResultCodec Id)

abbrev WorkerReply (Id : Type) := Option (Except (WorkerError Id) PassReport)

def execWorker (db : WorkerDb Id H B) : PassCall Id H B → WorkerDb Id H B × WorkerReply Id
  | .refresh call => ({ db with refresh := (refreshStore services codec).step db.refresh call }, none)
  | .taskRun call => ({ db with runs := taskRunStore.step db.runs call }, none)
  | .pass worker pass => ((runOnce services codec worker pass).exec db).map id some

def workerStore : Machine (WorkerDb Id H B) (PassCall Id H B) (WorkerReply Id) := ⟨execWorker services codec⟩

/-- The state before any verification and task run. -/
def WorkerDb.start (base : RefreshDb Id H B) : WorkerDb Id H B := ⟨base.unverified, .empty⟩

/-- The jobs that a pass leases. -/
def claimedBy (pass : Pass) (db : WorkerDb Id H B) : List ClaimVerificationJobRow :=
  (claimDue pass.locked pass.workerId pass.limit pass.leaseSeconds pass.now db.refresh.verification.jobs).2

/-- The pass returns, counts each job once and leaves none of them leased. -/
def PassSettles (worker : VerificationWorkerApplication Id H B) (pass : Pass) (db : WorkerDb Id H B) : Prop :=
  ∃ db' report, (runOnce services codec worker pass).exec db = (db', .ok report) ∧
    report.claimed = (claimedBy pass db).length ∧
    report.completed + report.retried + report.manualReview = report.claimed ∧
    ∀ job ∈ claimedBy pass db, ∃ row, db'.refresh.verification.jobs.get job.jobId = some row ∧ Settled pass.now row

variable {services codec} {worker : VerificationWorkerApplication Id H B} {pass : Pass} {db : WorkerDb Id H B}

section Invariant

/-- The job rows of a worker's database are those of some run. -/
def WorkerOk (codec : ResultCodec Id) (db : WorkerDb Id H B) : Prop := StoreOk codec db.refresh.verification

variable {A : Type}

omit [DecidableEq H] in
theorem preserves_onRefresh {f : RefreshDb Id H B → Except (JobError Id) (RefreshDb Id H B × A)}
    (h : ∀ db db' a, StoreOk codec db.verification → f db = .ok (db', a) → StoreOk codec db'.verification) :
    (onRefresh f : Work Id H B A).Preserves (WorkerOk codec) := by
  intro db hok
  cases hf : f db.refresh with
  | error e =>
    rw [onRefresh_error hf]
    exact hok
  | ok p =>
    rw [onRefresh_ok hf]
    exact h db.refresh p.1 p.2 hok hf

omit [DecidableEq H] in
theorem preserves_onVerification {f : VerificationDb Id → Except (JobError Id) (VerificationDb Id × A)}
    (h : ∀ db db' a, StoreOk codec db → f db = .ok (db', a) → StoreOk codec db') :
    (onVerification f : Work Id H B A).Preserves (WorkerOk codec) := by
  intro db hok
  cases hf : f db.refresh.verification with
  | error e =>
    rw [onVerification_error hf]
    exact hok
  | ok p =>
    rw [onVerification_ok hf]
    exact h _ p.1 p.2 hok hf

omit [DecidableEq H] in
theorem preserves_mark (jobId workerId : String) (m : JobMark) (now : Time) :
    (onJobTable (applyMark jobId workerId m now) : Work Id H B ClaimVerificationJobRow).Preserves (WorkerOk codec) := by
  refine preserves_onVerification fun db db' row hok h => ?_
  cases hmark : @applyMark Id jobId workerId m now db.jobs with
  | error e =>
    rw [hmark] at h
    cases h
  | ok p =>
    rw [hmark] at h
    cases h
    exact hok.mark hmark

omit [DecidableEq H] in
theorem preserves_onRuns (f : TaskRunTable → Except TaskRunError (TaskRunTable × A)) :
    (onRuns f : Work Id H B A).Preserves (WorkerOk codec) := by
  intro db hok
  cases hf : f db.runs with
  | error e =>
    rw [onRuns_error hf]
    exact hok
  | ok p =>
    rw [onRuns_ok hf]
    exact hok

omit [DecidableEq H] in
theorem preserves_acquireTaskRun (job : ClaimVerificationJobRow) :
    (acquireTaskRun worker pass job).Preserves (WorkerOk codec) := by
  intro db hok
  cases htask : worker.taskLease with
  | false =>
    rw [acquireTaskRun, htask]
    exact hok
  | true =>
    rw [exec_acquireTaskRun htask, ← bind_pure_comp]
    exact (preserves_onRuns _).bind (fun _ => .pure _) _ hok

omit [DecidableEq H] in
theorem preserves_endTaskRun (target : TaskRunState) (run : Option TaskRun) :
    (endTaskRun pass target run : Work Id H B Unit).Preserves (WorkerOk codec) := by
  cases run with
  | none => exact .pure ()
  | some run => exact (preserves_onRuns _).bind fun _ => .pure _

theorem preserves_storeResult (job : ClaimVerificationJobRow) (result : VerificationResult) :
    (storeResult services codec worker pass job result).Preserves (WorkerOk codec) := by
  unfold storeResult
  split
  · refine .bind (preserves_onRefresh fun db db' parent hok h => ?_) fun parent =>
      .bind (preserves_onRefresh fun db db' out hok h => ?_) fun _ => .pure _
    · cases hparent : @resolveParentSnapshotId Id H B job.claimId db with
      | error e =>
        rw [hparent] at h
        cases h
      | ok parent =>
        rw [hparent] at h
        cases h
        exact hok
    · rw [← step_complete_ok h]
      exact storeOk_step services codec hok _
  · exact preserves_onVerification fun db db' u hok h => hok.completeResult h

theorem preserves_processJob (job : ClaimVerificationJobRow) :
    (processJob services codec worker pass job).Preserves (WorkerOk codec) := by
  refine .bind (preserves_acquireTaskRun job) fun run => .get_bind fun db hok => ?_
  cases worker.claims job.claimId db.refresh.other with
  | none => exact (preserves_mark _ _ _ _).bind (fun _ => .pure _) db hok
  | some claim =>
    refine Procedure.Preserves.tryCatch ?_ (fun error => ?_) db hok
    · unfold verifyJob
      cases askProvider worker pass job claim with
      | error message => exact .throw _
      | ok result => exact (preserves_storeResult job result).bind fun _ => (preserves_endTaskRun _ run).bind fun _ => .pure _
    · exact (preserves_mark _ _ _ _).bind fun _ => (preserves_endTaskRun _ run).bind fun _ => .pure _

theorem preserves_processJobs (jobs : List ClaimVerificationJobRow) (counters : PassCounters) :
    (processJobs services codec worker pass counters jobs).Preserves (WorkerOk codec) := by
  induction jobs generalizing counters with
  | nil => exact .pure counters
  | cons job jobs ih => exact (preserves_processJob job).bind fun verdict => ih (counters.count verdict)

omit [DecidableEq H] in
variable (codec pass db) in
/-- The batch is leased before anything else. -/
theorem exec_claimJobs : (claimJobs pass : Work Id H B (List ClaimVerificationJobRow)).exec db =
    (db.withVerification ((verificationStore codec).step db.refresh.verification
      (.claimDue pass.locked pass.workerId pass.limit pass.leaseSeconds pass.now)), .ok (claimedBy pass db)) :=
  onJobTable_ok rfl

theorem preserves_runOnce : (runOnce services codec worker pass).Preserves (WorkerOk codec) := by
  refine .bind (fun db hok => ?_) fun jobs => (preserves_processJobs jobs {}).bind fun _ => .pure _
  rw [exec_claimJobs codec]
  exact hok.step codec _

variable (services codec) in
theorem workerOk (base : RefreshDb Id H B) (calls : List (PassCall Id H B)) :
    WorkerOk codec ((workerStore services codec).run (.start base) calls) := by
  refine (workerStore services codec).run_invariant (fun db call hok => ?_) (by exact StoreOk.empty) calls
  cases call with
  | refresh call => exact storeOk_step services codec hok call
  | taskRun call => exact hok
  | pass worker pass => exact preserves_runOnce db hok

end Invariant

omit [DecidableEq H] in
variable (codec db) in
/-- A batch holds its jobs once each, under the lease of the pass. -/
theorem claimedBy_held (hpositive : 0 < pass.leaseSeconds) :
    ((claimedBy pass db).map (·.jobId)).Nodup ∧ ∀ job ∈ claimedBy pass db,
      ((verificationStore codec).step db.refresh.verification
        (.claimDue pass.locked pass.workerId pass.limit pass.leaseSeconds pass.now)).jobs.get job.jobId = some job ∧
      holdsLease pass.workerId pass.now job = true := by
  let due := dueRows pass.locked pass.limit pass.now db.refresh.verification.jobs
  constructor
  · have hids : (claimedBy pass db).map (·.jobId) = due.map (·.jobId) := by
      simp only [claimedBy, claimDue, List.map_map]
      rfl
    rw [hids]
    exact Table.nodup_select ..
  · intro job hjob
    obtain ⟨row, hrow, rfl⟩ := List.mem_map.mp hjob
    have hget : db.refresh.verification.jobs.get row.jobId = some row := Table.get_of_mem (Table.mem_select hrow).1
    refine ⟨?_, holdsLease_iff.mpr ⟨rfl, rfl, fun e he => ?_⟩⟩
    · change (claimDue pass.locked pass.workerId pass.limit pass.leaseSeconds pass.now _).1.get row.jobId = _
      rw [claimDue, Table.get_modifyEach, hget, Option.map_some, if_pos (List.mem_map_of_mem hrow)]
    · cases he
      exact Int.lt_add_of_pos_right pass.now (seconds_pos hpositive)

variable (services codec worker pass) in
/-- In every state of a run, a pass settles all it leased exactly when each job's task run can
be leased: it is not over and not held by another worker. The lease of a pass lasts. -/
theorem run_once_settles_iff (base : RefreshDb Id H B) (calls : List (PassCall Id H B))
    (hpositive : 0 < pass.leaseSeconds) :
    let db := (workerStore services codec).run (.start base) calls
    PassSettles services codec worker pass db ↔
      (worker.taskLease = true → ∀ job ∈ claimedBy pass db, runLeasable pass db.runs job.jobId = true) := by
  intro db
  let leased := db.withVerification ((verificationStore codec).step db.refresh.verification
    (.claimDue pass.locked pass.workerId pass.limit pass.leaseSeconds pass.now))
  have hok : StoreOk codec leased.refresh.verification :=
    StoreOk.step codec _ (workerOk services codec base calls)
  obtain ⟨hnodup, hheld⟩ := claimedBy_held codec db hpositive
  have hclaim := exec_claimJobs codec pass db
  constructor
  · rintro ⟨db', report, hrun, -⟩ htask job hjob
    by_contra hrefused
    obtain ⟨_, e, hraised⟩ := processJobs_raises services worker hpositive htask hnodup leased hok hheld
      ⟨job, hjob, Bool.eq_false_iff.mpr hrefused⟩ {}
    rw [runOnce, Procedure.exec_bind_ok hclaim, Procedure.exec_bind_error hraised] at hrun
    cases hrun
  · intro hleasable
    obtain ⟨db', counters, hexec, htotal, hsettled, _⟩ :=
      processJobs_done services worker hpositive hnodup leased hok hheld hleasable {}
    refine ⟨db', { counters with claimed := (claimedBy pass db).length }, ?_, rfl, ?_, hsettled⟩
    · rw [runOnce, Procedure.exec_bind_ok hclaim, Procedure.exec_bind_ok hexec]
      rfl
    · exact htotal.trans (Nat.zero_add _)

end Runs

section Examples

/-- The worker as it is deployed, with a provider that verifies every claim. -/
def deployedWorker : VerificationWorkerApplication VerificationIdentity (VerificationArtifact VerificationIdentity) Unit where
  provider := some fun job _ =>
    .ok (.result ⟨{ verifiedResult.toResultFields with claimId := job.claimId }, verifiedResult.binding⟩)
  completion := true
  taskLease := true
  claims claimId _ := some ⟨claimId, .price, "FACT"⟩
  construct _ := .error "no payload is read"
  str _ := ""
  errorText _ := ""

def passAt (t : Int) : Pass := { workerId := "verification-worker", now := seconds t }

abbrev DeployedCall := PassCall VerificationIdentity (VerificationArtifact VerificationIdentity) Unit

/-- A job is completed and reopened, and another claim is enqueued. -/
def reopenedJob : List DeployedCall :=
  [.refresh (.store (.enqueue [⟨"c1", .price, "FACT"⟩] "quant" none (seconds 0) (seconds 0))),
    .pass deployedWorker (passAt 30),
    .refresh (.store (.requeue "verify-job-c1-quant" (seconds 40))),
    .refresh (.store (.enqueue [⟨"c2", .price, "FACT"⟩] "quant" none (seconds 40) (seconds 40)))]

/-- The task run of the reopened job is over: the next pass raises, with both jobs leased. -/
theorem reopened_job_ends_pass :
    ¬ ∀ base calls worker (pass : Pass), 0 < pass.leaseSeconds →
      PassSettles plainServices transparent worker pass ((workerStore plainServices transparent).run (.start base) calls) := by
  intro h
  obtain ⟨db', report, hrun, -⟩ := h sharedHead reopenedJob deployedWorker (passAt 60) (by decide)
  have hraised : ((runOnce plainServices transparent deployedWorker (passAt 60)).exec
      ((workerStore plainServices transparent).run (.start sharedHead) reopenedJob)).2.isOk = false := by
    decide
  rw [hrun] at hraised
  cases hraised

theorem first_pass_settles :
    PassSettles plainServices transparent deployedWorker (passAt 30)
      ((workerStore plainServices transparent).run (.start sharedHead) (reopenedJob.take 1)) := by
  refine (run_once_settles_iff plainServices transparent deployedWorker (passAt 30) sharedHead (reopenedJob.take 1)
    (by decide)).mpr fun _ job _ => ?_
  rfl

end Examples
end StockContent.Verification
