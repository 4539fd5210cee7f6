import StockContent.Verification.RefreshLeases
import StockContent.Verification.VerificationWorker

/-! Passes of the verification worker: what one job does to its rows and to those of the
others, and when a pass settles every job it leased. -/
namespace StockContent.Verification
open Storage Tasks

/-- A job that nobody leases any more: it is over, or due again later. -/
def Settled (now : Time) (row : ClaimVerificationJobRow) : Prop :=
  row.leaseOwner = none ∧ row.leaseExpiresAt = none ∧
    (finished row ∨ row.status = .pending ∧ ∃ t, row.nextRetryAt = some t ∧ now < t)

/-- The task run of a job can be leased by the worker of a pass. -/
def runLeasable (pass : Pass) (runs : TaskRunTable) (jobId : String) : Bool :=
  (runs.get (taskRunIdOf jobId)).all (TaskRun.leasable pass.workerId pass.now)

theorem taskRunIdOf_inj {jobId jobId' : String} : taskRunIdOf jobId = taskRunIdOf jobId' ↔ jobId = jobId' := by
  refine ⟨fun h => ?_, congrArg taskRunIdOf⟩
  have h := congrArg String.toList h
  simp only [taskRunIdOf, String.toList_append] at h
  exact String.toList_inj.mp (List.append_cancel_left h)

def PassCounters.total (counters : PassCounters) : Nat := counters.completed + counters.retried + counters.manualReview

theorem PassCounters.total_count (counters : PassCounters) (verdict : Verdict) :
    (counters.count verdict).total = counters.total + 1 := by
  cases verdict <;> simp only [count, total] <;> omega

section Frames
variable {Id H B : Type}

/-- What one job leaves of the others. -/
structure Touches (jobId : String) (db db' : WorkerDb Id H B) : Prop where
  jobs : ∀ k, k ≠ jobId → db'.refresh.verification.jobs.get k = db.refresh.verification.jobs.get k
  runs : ∀ k, k ≠ taskRunIdOf jobId → db'.runs.get k = db.runs.get k

end Frames

section Runs
variable {Id H B : Type} {worker : VerificationWorkerApplication Id H B} {pass : Pass} {db : WorkerDb Id H B}
  {job : ClaimVerificationJobRow}

/-- A worker holds the task run that it leased, if it leases task runs. -/
def HoldsRun (pass : Pass) (jobId : String) (runs : TaskRunTable) (leased : Option TaskRun) : Prop :=
  ∀ run, leased = some run → run.taskRunId = taskRunIdOf jobId ∧ runs.get (taskRunIdOf jobId) = some run ∧
    run.state = .running ∧ run.heldBy pass.workerId run.fencingToken pass.now = true

theorem heldBy_leasedTo (run : TaskRun) {owner : String} {now ttl : Time} (h : 0 < ttl) :
    (run.leasedTo owner now ttl).heldBy owner (run.leasedTo owner now ttl).fencingToken now = true := by
  simp [TaskRun.heldBy, TaskRun.leasedTo, Int.lt_add_of_pos_right now h]

theorem onRuns_ok {A : Type} {f : TaskRunTable → Except TaskRunError (TaskRunTable × A)} {runs' : TaskRunTable} {a : A}
    (h : f db.runs = .ok (runs', a)) :
    (onRuns f : Work Id H B A).exec db = ({ db with runs := runs' }, .ok a) := by
  simp [onRuns, h, Except.map, Except.mapError]

theorem onRuns_error {A : Type} {f : TaskRunTable → Except TaskRunError (TaskRunTable × A)} {e : TaskRunError}
    (h : f db.runs = .error e) : (onRuns f : Work Id H B A).exec db = (db, .error (.lease e)) := by
  simp [onRuns, h, Except.map, Except.mapError]

/-- A stored run is leased, or refused, by what its row says. -/
theorem acquire_stored (pass : Pass) {runs : TaskRunTable} {taskRunId : String} {run : TaskRun}
    (hrun : runs.get taskRunId = some run) :
    TaskRunTable.acquire taskRunId pass.workerId pass.now (seconds pass.leaseSeconds) runs =
      (run.acquireLease pass.workerId pass.now (seconds pass.leaseSeconds)).map
        fun run => (runs.update run, run) := by
  simp only [TaskRunTable.acquire, TaskRunTable.onRun, hrun]
  cases run.acquireLease pass.workerId pass.now (seconds pass.leaseSeconds) <;> rfl

/-- The table in which the run of a job is leased: a run is created where there was none. -/
def withRun (jobId : String) (runs : TaskRunTable) : TaskRunTable :=
  if (runs.get (taskRunIdOf jobId)).isNone then runs.create "verification" (taskRunIdOf jobId) else runs

theorem withRun_get (pass : Pass) (jobId : String) (runs : TaskRunTable) :
    (∃ run, (withRun jobId runs).get (taskRunIdOf jobId) = some run ∧
      run.leasable pass.workerId pass.now = runLeasable pass runs jobId) ∧
    ∀ k, k ≠ taskRunIdOf jobId → (withRun jobId runs).get k = runs.get k := by
  unfold withRun runLeasable
  cases hrun : runs.get (taskRunIdOf jobId) with
  | some run => exact ⟨⟨run, hrun, rfl⟩, fun _ _ => rfl⟩
  | none =>
    rw [Option.isNone_none, if_pos rfl, TaskRunTable.create]
    refine ⟨⟨{ taskRunId := taskRunIdOf jobId, taskType := "verification" }, ?_, rfl⟩, fun k hk => ?_⟩
    · rw [Table.get_insert_getD, hrun, Option.none_or, if_pos rfl]
    · rw [Table.get_insert_getD, if_neg hk.symm, Option.or_none]

theorem exec_acquireTaskRun (htask : worker.taskLease = true) :
    (acquireTaskRun worker pass job).exec db =
      (some <$> onRuns (TaskRunTable.acquire (taskRunIdOf job.jobId) pass.workerId pass.now
        (seconds pass.leaseSeconds)) : Work Id H B (Option TaskRun)).exec
        { db with runs := withRun job.jobId db.runs } := by
  rw [acquireTaskRun, if_pos htask, Procedure.exec_bind_ok (Procedure.exec_get db), withRun]
  dsimp only
  split
  · rw [Procedure.exec_bind_ok (Procedure.exec_set db _)]
  · rfl

theorem acquireTaskRun_leased (db : WorkerDb Id H B) (hpositive : 0 < pass.leaseSeconds)
    (hleasable : worker.taskLease = true → runLeasable pass db.runs job.jobId = true) :
    ∃ runs run, (acquireTaskRun worker pass job).exec db = ({ db with runs }, .ok run) ∧
      HoldsRun pass job.jobId runs run ∧ ∀ k, k ≠ taskRunIdOf job.jobId → runs.get k = db.runs.get k := by
  cases htask : worker.taskLease with
  | false =>
    refine ⟨db.runs, none, ?_, fun run h => (by cases h), fun _ _ => rfl⟩
    rw [acquireTaskRun, htask]
    rfl
  | true =>
    obtain ⟨⟨run, hrun, hsame⟩, hothers⟩ := withRun_get pass job.jobId db.runs
    rw [hleasable htask] at hsame
    have hacquire := acquire_stored pass hrun
    rw [(run.acquireLease_eq pass.workerId pass.now (seconds pass.leaseSeconds)).1 hsame] at hacquire
    have hrunId : run.taskRunId = taskRunIdOf job.jobId := Table.get_key hrun
    let leased := run.leasedTo pass.workerId pass.now (seconds pass.leaseSeconds)
    have hid : leased.taskRunId = taskRunIdOf job.jobId := hrunId
    refine ⟨(withRun job.jobId db.runs).update leased, some leased, ?_, fun run' h => ?_, fun k hk => ?_⟩
    · rw [exec_acquireTaskRun htask, Procedure.exec_map_ok (onRuns_ok hacquire)]
    · cases h
      refine ⟨hid, ?_, rfl, heldBy_leasedTo run (seconds_pos hpositive)⟩
      rw [← hid]
      exact Table.get_update_self (hid ▸ hrun)
    · rw [Table.get_update_ne _ (hid ▸ hk.symm), hothers k hk]

theorem acquireTaskRun_refused (db : WorkerDb Id H B) (htask : worker.taskLease = true)
    (hrefused : runLeasable pass db.runs job.jobId = false) :
    ∃ db' e, (acquireTaskRun worker pass job).exec db = (db', .error e) := by
  obtain ⟨⟨run, hrun, hsame⟩, _⟩ := withRun_get pass job.jobId db.runs
  rw [hrefused] at hsame
  obtain ⟨e, he⟩ := (run.acquireLease_eq pass.workerId pass.now (seconds pass.leaseSeconds)).2 hsame
  have hacquire := acquire_stored pass hrun
  rw [he] at hacquire
  exact ⟨_, _, by rw [exec_acquireTaskRun htask, Procedure.exec_map_error (onRuns_error hacquire)]⟩

/-- Success and failure end a run that is held. -/
theorem endTaskRun_ok (db : WorkerDb Id H B) {jobId : String} {run : Option TaskRun} {target : TaskRunState}
    (htarget : target = .succeeded ∨ target = .failed) (hrun : HoldsRun pass jobId db.runs run) :
    ∃ runs, (endTaskRun pass target run : Work Id H B Unit).exec db = ({ db with runs }, .ok ()) ∧
      ∀ k, k ≠ taskRunIdOf jobId → runs.get k = db.runs.get k := by
  cases run with
  | none => exact ⟨db.runs, rfl, fun _ _ => rfl⟩
  | some run =>
    obtain ⟨hid, hstored, hrunning, hheld⟩ := hrun run rfl
    have hallowed : target ∈ TaskRun.allowed run.state := by
      rw [hrunning]
      rcases htarget with rfl | rfl <;> decide
    have htransition : TaskRunTable.transition run.taskRunId target pass.workerId run.fencingToken pass.now db.runs =
        .ok (db.runs.update (run.moved target), run.moved target) :=
      TaskRunTable.onRun_ok.mpr ⟨run, hid ▸ hstored, TaskRun.transition_ok.mpr ⟨hheld, hallowed, rfl⟩, rfl⟩
    refine ⟨db.runs.update (run.moved target), ?_, fun k hk => ?_⟩
    · rw [endTaskRun, Procedure.exec_bind_ok (onRuns_ok htransition)]
      rfl
    · exact Table.get_update_ne _ (by rw [show (run.moved target).taskRunId = run.taskRunId from rfl, hid]; exact hk.symm)

end Runs

section Jobs
variable {Id H B : Type} {db : WorkerDb Id H B}

theorem JobOk.settled {row : ClaimVerificationJobRow} {now : Time} (hok : JobOk row)
    (h : finished row ∨ row.status = .pending ∧ ∃ t, row.nextRetryAt = some t ∧ now < t) : Settled now row := by
  have hstatus : row.status ≠ .leased := by
    intro hleased
    rcases h with ⟨status, hs, _⟩ | ⟨hs, _⟩
    · rw [hleased] at hs
      cases hs
    · rw [hleased] at hs
      cases hs
  exact ⟨(hok.unleased hstatus).1, (hok.unleased hstatus).2, h⟩

def WorkerDb.withVerification (db : WorkerDb Id H B) (verification : VerificationDb Id) : WorkerDb Id H B :=
  { db with refresh := { db.refresh with verification } }

variable {A : Type} {a : A}

theorem onRefresh_ok {f : RefreshDb Id H B → Except (JobError Id) (RefreshDb Id H B × A)} {refresh : RefreshDb Id H B}
    (h : f db.refresh = .ok (refresh, a)) :
    (onRefresh f : Work Id H B A).exec db = ({ db with refresh }, .ok a) := by
  simp [onRefresh, h, Except.map, Except.mapError]

theorem onRefresh_error {f : RefreshDb Id H B → Except (JobError Id) (RefreshDb Id H B × A)} {e : JobError Id}
    (h : f db.refresh = .error e) : (onRefresh f : Work Id H B A).exec db = (db, .error (.job e)) := by
  simp [onRefresh, h, Except.map, Except.mapError]

theorem onVerification_ok {f : VerificationDb Id → Except (JobError Id) (VerificationDb Id × A)}
    {verification : VerificationDb Id} (h : f db.refresh.verification = .ok (verification, a)) :
    (onVerification f : Work Id H B A).exec db = (db.withVerification verification, .ok a) :=
  onRefresh_ok (by rw [h]; rfl)

theorem onVerification_error {f : VerificationDb Id → Except (JobError Id) (VerificationDb Id × A)} {e : JobError Id}
    (h : f db.refresh.verification = .error e) :
    (onVerification f : Work Id H B A).exec db = (db, .error (.job e)) :=
  onRefresh_error (by rw [h]; rfl)

theorem onJobTable_ok {f : JobTable → Except (JobError Id) (JobTable × A)} {jobs : JobTable}
    (h : f db.refresh.verification.jobs = .ok (jobs, a)) :
    (onJobTable f : Work Id H B A).exec db =
      (db.withVerification { db.refresh.verification with jobs }, .ok a) :=
  onVerification_ok (by rw [h]; rfl)

variable [DecidableEq Id] {codec : ResultCodec Id} {pass : Pass} {job : ClaimVerificationJobRow}

theorem StoreOk.mark {db : VerificationDb Id} (hok : StoreOk codec db) {jobId workerId : String} {m : JobMark}
    {now : Time} {jobs : JobTable} {row : ClaimVerificationJobRow}
    (h : (applyMark jobId workerId m now db.jobs : Except (JobError Id) _) = .ok (jobs, row)) :
    StoreOk codec { db with jobs } := by
  have hexec : onJobs (applyMark jobId workerId m now) db = .ok ({ db with jobs }, row) := onJobs_ok.mpr ⟨h, rfl⟩
  have hstep := hok.step codec (.mark jobId workerId m now)
  simp only [Machine.step, verificationStore, execVerification, hexec] at hstep
  exact hstep

theorem StoreOk.completeResult {db db' : VerificationDb Id} (hok : StoreOk codec db) {jobId workerId : String}
    {result : VerificationResult} {now : Time} {u : Unit}
    (h : completeResult codec jobId workerId result now db = .ok (db', u)) : StoreOk codec db' := by
  have hstep := hok.step codec (.completeResult jobId workerId result now)
  simp only [Machine.step, verificationStore, execVerification, h] at hstep
  exact hstep

/-- What is known of a job after the worker was done with it. -/
structure Done (codec : ResultCodec Id) (pass : Pass) (jobId : String) (db db' : WorkerDb Id H B) : Prop where
  store : StoreOk codec db'.refresh.verification
  touches : Touches jobId db db'
  settled : ∃ row, db'.refresh.verification.jobs.get jobId = some row ∧ Settled pass.now row

theorem Done.of_update (row : ClaimVerificationJobRow) {refresh : RefreshDb Id H B} {runs : TaskRunTable}
    (hjob : db.refresh.verification.jobs.get job.jobId = some job) (hid : row.jobId = job.jobId)
    (hjobs : refresh.verification.jobs = db.refresh.verification.jobs.update row)
    (hok : StoreOk codec refresh.verification)
    (hruns : ∀ k, k ≠ taskRunIdOf job.jobId → runs.get k = db.runs.get k)
    (hover : finished row ∨ row.status = .pending ∧ ∃ t, row.nextRetryAt = some t ∧ pass.now < t) :
    Done codec pass job.jobId db ⟨refresh, runs⟩ := by
  have hstored : refresh.verification.jobs.get job.jobId = some row := by
    rw [hjobs, ← hid]
    exact Table.get_update_self (hid ▸ hjob)
  refine ⟨hok, ⟨fun k hk => ?_, hruns⟩, row, hstored, (hok.jobs _ row hstored).settled hover⟩
  change refresh.verification.jobs.get k = _
  rw [hjobs, Table.get_update_ne _ (hid ▸ hk.symm)]

end Jobs

section Pass
variable {Id H B : Type} [DecidableEq Id] [DecidableEq H] {services : RefreshServices Id H B} {codec : ResultCodec Id}
  {worker : VerificationWorkerApplication Id H B} {pass : Pass} {db : WorkerDb Id H B} {job : ClaimVerificationJobRow}

omit [DecidableEq Id] [DecidableEq H] in
theorem askProvider_ok {claim : FinancialClaim} {result : VerificationResult}
    (h : askProvider worker pass job claim = .ok result) : result.status ≠ .verificationPending := by
  unfold askProvider at h
  split at h
  · cases h
  · obtain ⟨outcome, _, h⟩ := bind_eq_ok.mp h
    obtain ⟨answer, _, h⟩ := bind_eq_ok.mp h
    split at h
    · cases h
    · cases h
      assumption

variable (services worker pass) in
/-- A result is refused, and everything stays, or it closes the job. -/
theorem storeResult_cases (result : VerificationResult)
    (hok : StoreOk codec db.refresh.verification)
    (hjob : db.refresh.verification.jobs.get job.jobId = some job) :
    (∃ e, (storeResult services codec worker pass job result).exec db = (db, .error e)) ∨
      ∃ refresh, (storeResult services codec worker pass job result).exec db = ({ db with refresh }, .ok ()) ∧
        StoreOk codec refresh.verification ∧
        refresh.verification.jobs = db.refresh.verification.jobs.update (closed result.status job) := by
  unfold storeResult
  split
  · cases hparent : @resolveParentSnapshotId Id H B job.claimId db.refresh with
    | error e =>
      exact .inl ⟨.job e, Procedure.exec_bind_error (onRefresh_error (by rw [hparent]; rfl))⟩
    | ok parent =>
      rw [Procedure.exec_bind_ok (onRefresh_ok (by rw [hparent]; rfl))]
      let completion : Completion :=
        { jobId := job.jobId, workerId := pass.workerId, result, parentSnapshotId := some parent, now := pass.now }
      cases hcomplete : complete services codec completion db.refresh with
      | error e => exact .inl ⟨.job e, Procedure.exec_bind_error (onRefresh_error hcomplete)⟩
      | ok p =>
        refine .inr ⟨p.1, by rw [Procedure.exec_bind_ok (onRefresh_ok hcomplete)]; rfl, ?_, ?_⟩
        · rw [← step_complete_ok hcomplete]
          exact storeOk_step services codec hok (.complete completion)
        · obtain ⟨stored, hstored, _, hjobs, _⟩ := refreshResult_ok (complete_refreshResult hcomplete)
          rw [hjob] at hstored
          cases hstored
          exact hjobs
  · cases hcomplete : completeResult codec job.jobId pass.workerId result pass.now db.refresh.verification with
    | error e => exact .inl ⟨.job e, onVerification_error hcomplete⟩
    | ok p =>
      refine .inr ⟨{ db.refresh with verification := p.1 }, onVerification_ok hcomplete, hok.completeResult hcomplete, ?_⟩
      obtain ⟨stored, hstored, _, _, _, hjobs, _⟩ := completeResult_ok hcomplete
      rw [hjob] at hstored
      cases hstored
      exact hjobs

variable (services worker) in
/-- The guarded body raises and leaves everything as it was, or is done with the job. -/
theorem verifyJob_cases (db : WorkerDb Id H B) (claim : FinancialClaim) {run : Option TaskRun} (hok : StoreOk codec db.refresh.verification)
    (hjob : db.refresh.verification.jobs.get job.jobId = some job) (hrun : HoldsRun pass job.jobId db.runs run) :
    (∃ e, (verifyJob services codec worker pass job claim run).exec db = (db, .error e)) ∨
      ∃ db', (verifyJob services codec worker pass job claim run).exec db = (db', .ok .completed) ∧
        Done codec pass job.jobId db db' := by
  unfold verifyJob
  cases hask : askProvider worker pass job claim with
  | error message => exact .inl ⟨.raised message, rfl⟩
  | ok result =>
    have hpending := askProvider_ok hask
    dsimp only
    rcases storeResult_cases services worker pass result hok hjob with
      ⟨e, hraised⟩ | ⟨refresh, hstored, hok', hjobs⟩
    · exact .inl ⟨e, Procedure.exec_bind_error hraised⟩
    · obtain ⟨runs, hend, hothers⟩ := endTaskRun_ok { db with refresh } (.inl rfl) hrun
      refine .inr ⟨⟨refresh, runs⟩, ?_, ?_⟩
      · rw [Procedure.exec_bind_ok hstored, Procedure.exec_bind_ok hend]
        rfl
      · have hclosed : finished (closed result.status job) := ⟨result.status, rfl, hpending⟩
        exact .of_update (closed result.status job) hjob rfl hjobs hok' hothers (.inl hclosed)

omit [DecidableEq H] in
variable (worker) in
/-- The handler always finds the lease of the job, and its delay in the schedule. -/
theorem retryJob_done (db : WorkerDb Id H B) (error : WorkerError Id) {run : Option TaskRun} (hok : StoreOk codec db.refresh.verification)
    (hjob : db.refresh.verification.jobs.get job.jobId = some job)
    (hheld : holdsLease pass.workerId pass.now job = true) (hrun : HoldsRun pass job.jobId db.runs run) :
    ∃ db' verdict, (retryJob worker pass job run error : Work Id H B Verdict).exec db = (db', .ok verdict) ∧
      Done codec pass job.jobId db db' := by
  obtain ⟨row, happly, hid, _, hreview, hpending⟩ :=
    @retry_apply Id job (hok.jobs _ job hjob) (worker.errorText error) pass.now
  have hmark : markRetry job.jobId pass.workerId (worker.errorText error) pass.now db.refresh.verification.jobs =
      .ok (db.refresh.verification.jobs.update row, row) := applyMark_ok.mpr ⟨job, hjob, hheld, happly, rfl⟩
  let jobs := db.refresh.verification.jobs.update row
  obtain ⟨runs, hend, hothers⟩ := endTaskRun_ok
    (db.withVerification { db.refresh.verification with jobs }) (.inr rfl) hrun
  have hexec : (retryJob worker pass job run error : Work Id H B Verdict).exec db =
      (⟨{ db.refresh with verification := { db.refresh.verification with jobs } }, runs⟩,
        .ok (if row.status = .manualReview then .manualReview else .retried)) := by
    rw [retryJob, Procedure.exec_bind_ok (onJobTable_ok hmark), Procedure.exec_bind_ok hend]
    rfl
  refine ⟨_, _, hexec, .of_update row hjob hid rfl (hok.mark hmark) hothers ?_⟩
  by_cases hover : job.maxRetries < row.retryCount
  · have hstatus := hreview.mpr hover
    exact .inl ⟨.manualReview, hstatus, by decide⟩
  · exact .inr (hpending (not_lt.mp hover))

omit [DecidableEq H] in
theorem reviewJob_done (db : WorkerDb Id H B) (hok : StoreOk codec db.refresh.verification)
    (hjob : db.refresh.verification.jobs.get job.jobId = some job)
    (hheld : holdsLease pass.workerId pass.now job = true) :
    ∃ db' row, (onJobTable (markManualReview job.jobId pass.workerId "CLAIM_NOT_FOUND" pass.now) :
        Work Id H B ClaimVerificationJobRow).exec db = (db', .ok row) ∧
      Done codec pass job.jobId db db' := by
  let row := unleased { job with status := .manualReview, lastError := some "CLAIM_NOT_FOUND", nextRetryAt := none }
  have hmark : markManualReview job.jobId pass.workerId "CLAIM_NOT_FOUND" pass.now db.refresh.verification.jobs =
      (.ok (db.refresh.verification.jobs.update row, row) : Except (JobError Id) _) :=
    applyMark_ok.mpr ⟨job, hjob, hheld, rfl, rfl⟩
  have hreview : finished row := ⟨.manualReview, rfl, by decide⟩
  exact ⟨_, row, onJobTable_ok hmark, .of_update row hjob rfl rfl (hok.mark hmark) (fun _ _ => rfl) (.inl hreview)⟩

variable (services) in
/-- A leased job whose task run can be leased is dealt with, whatever the provider does. -/
theorem processJob_done (hpositive : 0 < pass.leaseSeconds) (hok : StoreOk codec db.refresh.verification)
    (hjob : db.refresh.verification.jobs.get job.jobId = some job)
    (hheld : holdsLease pass.workerId pass.now job = true)
    (hleasable : worker.taskLease = true → runLeasable pass db.runs job.jobId = true) :
    ∃ db' verdict, (processJob services codec worker pass job).exec db = (db', .ok verdict) ∧
      Done codec pass job.jobId db db' := by
  obtain ⟨runs, run, hacquire, hrun, hothers⟩ := acquireTaskRun_leased db hpositive hleasable
  have hrest {db' : WorkerDb Id H B} (h : Done codec pass job.jobId { db with runs } db') :
      Done codec pass job.jobId db db' :=
    ⟨h.store, ⟨h.touches.jobs, fun k hk => (h.touches.runs k hk).trans (hothers k hk)⟩, h.settled⟩
  rw [processJob, Procedure.exec_bind_ok hacquire, Procedure.exec_bind_ok (Procedure.exec_get _)]
  dsimp only
  cases worker.claims job.claimId db.refresh.other with
  | none =>
    obtain ⟨db', row, hreview, hdone⟩ := reviewJob_done { db with runs } hok hjob hheld
    exact ⟨db', .manualReview, by rw [Procedure.exec_bind_ok hreview]; rfl, hrest hdone⟩
  | some claim =>
    dsimp only
    rw [Procedure.exec_tryCatch]
    rcases verifyJob_cases services worker { db with runs } claim hok hjob hrun with
      ⟨e, hraised⟩ | ⟨db', hverified, hdone⟩
    · rw [hraised]
      obtain ⟨db', verdict, hretry, hdone⟩ := retryJob_done worker { db with runs } e hok hjob hheld hrun
      exact ⟨db', verdict, hretry, hrest hdone⟩
    · rw [hverified]
      exact ⟨db', .completed, rfl, hrest hdone⟩

variable (services codec) in
theorem processJob_raises (htask : worker.taskLease = true) (hrefused : runLeasable pass db.runs job.jobId = false) :
    ∃ db' e, (processJob services codec worker pass job).exec db = (db', .error e) := by
  obtain ⟨db', e, hacquire⟩ := acquireTaskRun_refused db htask hrefused
  exact ⟨db', e, by rw [processJob, Procedure.exec_bind_error hacquire]⟩

variable (services worker) in
/-- The jobs of a batch are dealt with one after the other, none in the way of another. -/
theorem processJobs_done (hpositive : 0 < pass.leaseSeconds) {jobs : List ClaimVerificationJobRow}
    (hnodup : (jobs.map (·.jobId)).Nodup) (db : WorkerDb Id H B) (hok : StoreOk codec db.refresh.verification)
    (hstored : ∀ job ∈ jobs, db.refresh.verification.jobs.get job.jobId = some job ∧
      holdsLease pass.workerId pass.now job = true)
    (hleasable : worker.taskLease = true → ∀ job ∈ jobs, runLeasable pass db.runs job.jobId = true)
    (counters : PassCounters) :
    ∃ db' counters', (processJobs services codec worker pass counters jobs).exec db = (db', .ok counters') ∧
      counters'.total = counters.total + jobs.length ∧
      (∀ job ∈ jobs, ∃ row, db'.refresh.verification.jobs.get job.jobId = some row ∧ Settled pass.now row) ∧
      ∀ k, k ∉ jobs.map (·.jobId) → db'.refresh.verification.jobs.get k = db.refresh.verification.jobs.get k := by
  induction jobs generalizing db counters with
  | nil => exact ⟨db, counters, rfl, rfl, fun _ h => (by cases h), fun _ _ => rfl⟩
  | cons job jobs ih =>
    obtain ⟨hnew, hnodup⟩ := List.nodup_cons.mp hnodup
    obtain ⟨hjob, hrest⟩ := List.forall_mem_cons.mp hstored
    obtain ⟨db₁, verdict, hexec, hdone⟩ := processJob_done services hpositive hok hjob.1 hjob.2
      fun htask => hleasable htask job List.mem_cons_self
    have hne {other : ClaimVerificationJobRow} (h : other ∈ jobs) : other.jobId ≠ job.jobId := by
      intro he
      exact hnew (List.mem_map.mpr ⟨other, h, he⟩)
    obtain ⟨db₂, counters', hexec', htotal, hsettled, hothers⟩ := ih hnodup db₁ hdone.store
      (fun other h => by rw [hdone.touches.jobs _ (hne h)]; exact hrest other h)
      (fun htask other h => by
        rw [runLeasable, hdone.touches.runs _ fun he => hne h (taskRunIdOf_inj.mp he)]
        exact hleasable htask other (List.mem_cons_of_mem job h))
      (counters.count verdict)
    refine ⟨db₂, counters', by rw [processJobs, Procedure.exec_bind_ok hexec, hexec'], ?_, ?_, fun k hk => ?_⟩
    · rw [htotal, PassCounters.total_count, List.length_cons]
      omega
    · rw [List.forall_mem_cons]
      refine ⟨?_, hsettled⟩
      obtain ⟨row, hrow, hs⟩ := hdone.settled
      exact ⟨row, by rw [hothers _ hnew, hrow], hs⟩
    · rw [List.map_cons, List.mem_cons, not_or] at hk
      rw [hothers k hk.2, hdone.touches.jobs k hk.1]

variable (services worker) in
/-- A task run that cannot be leased ends the pass. -/
theorem processJobs_raises (hpositive : 0 < pass.leaseSeconds) (htask : worker.taskLease = true)
    {jobs : List ClaimVerificationJobRow} (hnodup : (jobs.map (·.jobId)).Nodup) (db : WorkerDb Id H B)
    (hok : StoreOk codec db.refresh.verification)
    (hstored : ∀ job ∈ jobs, db.refresh.verification.jobs.get job.jobId = some job ∧
      holdsLease pass.workerId pass.now job = true)
    (hrefused : ∃ job ∈ jobs, runLeasable pass db.runs job.jobId = false) (counters : PassCounters) :
    ∃ db' e, (processJobs services codec worker pass counters jobs).exec db = (db', .error e) := by
  induction jobs generalizing db counters with
  | nil =>
    obtain ⟨_, h, _⟩ := hrefused
    cases h
  | cons job jobs ih =>
    obtain ⟨hnew, hnodup⟩ := List.nodup_cons.mp hnodup
    obtain ⟨hjob, hrest⟩ := List.forall_mem_cons.mp hstored
    cases hfirst : runLeasable pass db.runs job.jobId with
    | false =>
      obtain ⟨db', e, hexec⟩ := processJob_raises services codec htask hfirst
      exact ⟨db', e, by rw [processJobs, Procedure.exec_bind_error hexec]⟩
    | true =>
      obtain ⟨db₁, verdict, hexec, hdone⟩ := processJob_done services hpositive hok hjob.1 hjob.2
        fun _ => hfirst
      obtain ⟨other, hmem, hother⟩ := hrefused
      rcases List.mem_cons.mp hmem with rfl | hmem
      · rw [hfirst] at hother
        cases hother
      have hne {other : ClaimVerificationJobRow} (h : other ∈ jobs) : other.jobId ≠ job.jobId := by
        intro he
        exact hnew (List.mem_map.mpr ⟨other, h, he⟩)
      obtain ⟨db₂, e, hexec'⟩ := ih hnodup db₁ hdone.store
        (fun other h => by rw [hdone.touches.jobs _ (hne h)]; exact hrest other h)
        ⟨other, hmem, by rw [runLeasable, hdone.touches.runs _ fun he => hne hmem (taskRunIdOf_inj.mp he)]; exact hother⟩
        (counters.count verdict)
      exact ⟨db₂, e, by rw [processJobs, Procedure.exec_bind_ok hexec, hexec']⟩

end Pass

end StockContent.Verification
