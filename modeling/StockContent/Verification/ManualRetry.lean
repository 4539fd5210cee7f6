import StockContent.Ledger.SystemEvents
import StockContent.Verification.JobOwnership

/-! Manual retries: a request reads the status of a claim's job in one transaction and
requeues the job in another, while workers go on claiming and completing it. -/
namespace StockContent.Verification
open Storage

def JobStatus.text : JobStatus → String
  | .leased => "LEASED"
  | .retryable => "RETRYABLE"
  | .result status => Ledger.statusText status

/-- The first job among the results and jobs of a claim; results carry no job id. -/
def persistentJob (claimId : String) (jobs : JobTable) : Option ClaimVerificationJobRow :=
  (jobs.select (fun row => row.claimId == claimId && row.jobId != "")
    (fun a b => a.createdAt < b.createdAt ∨ (a.createdAt = b.createdAt ∧ a.jobId ≤ b.jobId)) jobs.rows.length).head?

/-- The guard of a manual retry, on the status that was read. -/
def mayRequeue (status : String) : Bool := !(["PENDING", "LEASED"].contains status)

/-- A request between its two transactions. -/
structure RetryRequest where
  claimId : String
  jobId : String

structure RetryDb (Id : Type) where
  verification : VerificationDb Id
  waiting : String → Option RetryRequest

def VerificationCall.reopens : VerificationCall → Bool
  | .requeue .. => true
  | _ => false

/-- Calls of enqueuers, workers and publishers: only manual retries requeue. -/
abbrev WorkerCall := { call : VerificationCall // call.reopens = false }

inductive RetryCall where
  | read (request claimId : String)
  | requeue (request : String) (now : Time)
  | work (call : WorkerCall)

inductive RetryReply where
  | claimNotFound
  | lifecycle
  | waits
  | retried (claimId jobId : String)
  | idle
  | worked (reply : VerificationReply)

section Exec
variable {Id : Type} [DecidableEq Id] (codec : ResultCodec Id)

/-- The status read, and the request that goes on to requeue. A claim without a job is left
to the lifecycle in memory. -/
def readStatus (known : String → Bool) (claimId : String) (jobs : JobTable) : Option RetryRequest × RetryReply :=
  if known claimId = false then (none, .claimNotFound)
  else match persistentJob claimId jobs with
    | none => (none, .lifecycle)
    | some job =>
      if mayRequeue job.status.text then (some ⟨claimId, job.jobId⟩, .waits) else (none, .retried claimId job.jobId)

def execRetry (known : String → Bool) (db : RetryDb Id) : RetryCall → RetryDb Id × Except (JobError Id) RetryReply
  | .read request claimId =>
    let (found, reply) := readStatus known claimId db.verification.jobs
    ({ db with waiting := Function.update db.waiting request found }, .ok reply)
  | .requeue request now =>
    match db.waiting request with
    | none => (db, .ok .idle)
    | some r =>
      ((verificationStore codec).exec db.verification (.requeue r.jobId now)).map
        (fun verification => ⟨verification, Function.update db.waiting request none⟩)
        (Except.map fun _ => .retried r.claimId r.jobId)
  | .work call =>
    ((verificationStore codec).exec db.verification call).map (fun verification => { db with verification })
      (Except.map .worked)

/-- `known` are the claims that the claim repository has. -/
def retryStore (known : String → Bool) : Machine (RetryDb Id) RetryCall (Except (JobError Id) RetryReply) :=
  ⟨execRetry codec known⟩

def RetryDb.empty : RetryDb Id := ⟨.empty, fun _ => none⟩

end Exec

section Leases
variable {Id : Type}

/-- The expiry of a job's lease after a call, as the callers see it. -/
def leaseAfter (jobId : String) (lease : Option Time) :
    VerificationCall → Except (JobError Id) VerificationReply → Option Time
  | .claimDue .., .ok (.claimed rows) =>
    match rows.find? (·.jobId = jobId) with
    | none => lease
    | some row => row.leaseExpiresAt
  | .mark job _ _ _, .ok (.job row) => if job = jobId then row.leaseExpiresAt else lease
  | .completeResult job .., .ok _ | .refresh job .., .ok _ | .requeue job _, .ok _ => if job = jobId then none else lease
  | _, _ => lease

variable [DecidableEq Id] {codec : ResultCodec Id} {db : VerificationDb Id} {jobId : String}
  {row : ClaimVerificationJobRow}

omit [DecidableEq Id] in
theorem find_claimed (locked : List String) (workerId : String) (limit : Nat) (leaseSeconds : Int) (now : Time)
    {jobs : JobTable} (hg : jobs.get jobId = some row) :
    ((claimDue locked workerId limit leaseSeconds now jobs).1.get jobId).map (·.leaseExpiresAt) =
      some (@leaseAfter Id jobId row.leaseExpiresAt (.claimDue locked workerId limit leaseSeconds now)
        (.ok (.claimed (claimDue locked workerId limit leaseSeconds now jobs).2))) := by
  let due := dueRows locked limit now jobs
  have hclaimed : (due.map (leased workerId leaseSeconds now)).find? (·.jobId = jobId) =
      (due.find? (·.jobId = jobId)).map (leased workerId leaseSeconds now) := List.find?_map ..
  rw [claimDue, Table.get_modifyEach, hg]
  simp only [Option.map_some, leaseAfter]
  rw [hclaimed]
  cases hfind : due.find? (·.jobId = jobId) with
  | none =>
    have hn : jobId ∉ due.map (·.jobId) := by
      intro hm
      obtain ⟨other, ho, he⟩ := List.mem_map.mp hm
      simpa [he] using List.find?_eq_none.mp hfind other ho
    rw [if_neg hn]
    rfl
  | some other =>
    have hm : other ∈ due := List.mem_of_find?_eq_some hfind
    have he : other.jobId = jobId := by simpa using List.find?_some hfind
    rw [if_pos (he ▸ List.mem_map_of_mem hm)]
    rfl

/-- What a stored version of a job leaves of the others. -/
theorem get_update (jobs : JobTable) {row' : ClaimVerificationJobRow} (hg : jobs.get jobId = some row) :
    (jobs.update row').get jobId = some (if row'.jobId = jobId then row' else row) := by
  have hid : row.jobId = jobId := Table.get_key hg
  rw [Table.update, Table.get_rewrite, hg, Option.map_some, hid]
  simp only [eq_comm]

omit [DecidableEq Id] in
theorem leaseAfter_update {closedId : String} (row' : ClaimVerificationJobRow)
    (hg : db.jobs.get jobId = some row) (hid : row'.jobId = closedId) :
    ((db.jobs.update row').get jobId).map (·.leaseExpiresAt) =
      some (if closedId = jobId then row'.leaseExpiresAt else row.leaseExpiresAt) := by
  rw [get_update db.jobs hg, Option.map_some, hid]
  split <;> rfl

variable (codec) in
/-- The lease of a stored job is what the callers see of it. -/
theorem lease_seen (hok : StoreOk codec db) (call : VerificationCall) (hg : db.jobs.get jobId = some row) :
    (((verificationStore codec).step db call).jobs.get jobId).map (·.leaseExpiresAt) =
      some (leaseAfter jobId row.leaseExpiresAt call ((verificationStore codec).outcome db call)) := by
  have hkept : (db.jobs.get jobId).map (·.leaseExpiresAt) = some row.leaseExpiresAt := by rw [hg, Option.map_some]
  cases call with
  | claimDue locked workerId limit leaseSeconds now =>
    exact find_claimed locked workerId limit leaseSeconds now hg
  | enqueue claims provider traceId now clock =>
    simp only [Machine.step, Machine.outcome, verificationStore, execVerification]
    cases h : enqueue codec claims provider traceId now clock db with
    | error e => exact hkept
    | ok p =>
      obtain ⟨row', hg', traceId', rfl⟩ := (enqueue_evolves h).1.old jobId row hg
      change (p.1.jobs.get jobId).map _ = _
      rw [hg']
      rfl
  | publish claims provider candidate policyVersion traceId =>
    simp only [Machine.step, Machine.outcome, verificationStore, execVerification]
    cases h : publishVerification codec claims provider candidate policyVersion traceId db with
    | error e => exact hkept
    | ok p =>
      obtain ⟨plan, hp, hs, _⟩ := publishVerification_ok.mp h
      obtain ⟨row', hg', rfl⟩ := (bundle_evolves hok.jobs hp hs).1.old jobId row hg
      change (p.1.jobs.get jobId).map _ = _
      rw [hg']
      rfl
  | mark job workerId m now =>
    simp only [Machine.step, Machine.outcome, verificationStore, execVerification]
    cases h : onJobs (applyMark job workerId m now) db with
    | error e => exact hkept
    | ok p =>
      obtain ⟨stored, hstored, hl, ha, hj⟩ := applyMark_ok.mp (onJobs_ok.mp h).1
      have hstep : JobStep Id stored p.2 := .mark m hl ha
      have hid : p.2.jobId = job := hstep.same.1.trans (Table.get_key hstored)
      change (p.1.jobs.get jobId).map _ = _
      rw [hj, leaseAfter_update _ hg hid]
      rfl
  | requeue job now =>
    simp only [Machine.step, Machine.outcome, verificationStore, execVerification]
    cases h : onJobs (requeue job now) db with
    | error e => exact hkept
    | ok p =>
      obtain ⟨stored, hstored, hrow, hj⟩ := requeue_ok.mp (onJobs_ok.mp h).1
      have hkey : stored.jobId = job := Table.get_key hstored
      have hid : p.2.jobId = job := hrow ▸ hkey
      change (p.1.jobs.get jobId).map _ = _
      rw [hj, leaseAfter_update _ hg hid, hrow]
      rfl
  | completeResult job workerId result now =>
    simp only [Machine.step, Machine.outcome, verificationStore, execVerification]
    cases h : completeResult codec job workerId result now db with
    | error e => exact hkept
    | ok p =>
      obtain ⟨stored, hstored, _, _, _, hj, _⟩ := completeResult_ok h
      have hid : stored.jobId = job := Table.get_key hstored
      change (p.1.jobs.get jobId).map _ = _
      rw [hj, leaseAfter_update (closed result.status stored) hg hid]
      rfl
  | refresh job workerId result prior publish now =>
    simp only [Machine.step, Machine.outcome, verificationStore, execVerification]
    cases h : refreshResult codec job workerId result prior publish now db with
    | error e => exact hkept
    | ok p =>
      obtain ⟨stored, hstored, _, hj, _⟩ := refreshResult_ok h
      have hid : stored.jobId = job := Table.get_key hstored
      change (p.1.jobs.get jobId).map _ = _
      rw [hj, leaseAfter_update (closed result.status stored) hg hid]
      rfl

end Leases

section Requests
variable {Id : Type} [DecidableEq Id] (codec : ResultCodec Id) (known : String → Bool)

/-- The lease of a job, as far as it was handed out after a request read the status. -/
def leaseSince (request jobId : String) (lease : Option Time) :
    RetryCall × Except (JobError Id) RetryReply → Option Time
  | (.read r _, _) => if r = request then none else lease
  | (.requeue _ now, .ok (.retried _ job)) => @leaseAfter Id jobId lease (.requeue job now) (.ok .stored)
  | (.work call, .ok (.worked reply)) => @leaseAfter Id jobId lease call (.ok reply)
  | _ => lease

/-- A held lease that has not expired keeps its owner and its expiry over a requeue. -/
def LeasesKept (db : RetryDb Id) (request : String) (now : Time) : Prop :=
  ∀ jobId row e, db.verification.jobs.get jobId = some row → row.leaseOwner.isSome = true →
    row.leaseExpiresAt = some e → now < e →
    ∃ row', ((retryStore codec known).step db (.requeue request now)).verification.jobs.get jobId = some row' ∧
      row'.leaseOwner = row.leaseOwner ∧ row'.leaseExpiresAt = row.leaseExpiresAt

/-- No lease that was handed out since the status was read is running still. -/
def NoLeaseSince (db : RetryDb Id) (past : List (RetryCall × Except (JobError Id) RetryReply)) (request : String)
    (now : Time) : Prop :=
  ∀ r, db.waiting request = some r → ∀ e, past.foldl (leaseSince request r.jobId) none = some e → e ≤ now

/-- Of the job of a waiting request the row shows the lease handed out since its read. -/
structure RetryOk (codec : ResultCodec Id) (db : RetryDb Id)
    (past : List (RetryCall × Except (JobError Id) RetryReply)) : Prop where
  store : StoreOk codec db.verification
  lease : ∀ request r, db.waiting request = some r →
    (db.verification.jobs.get r.jobId).map (·.leaseExpiresAt) = some (past.foldl (leaseSince request r.jobId) none)

theorem mayRequeue_iff {status : JobStatus} : mayRequeue status.text = true ↔ status ≠ .leased := by
  cases status with
  | leased => decide
  | retryable => decide
  | result status => cases status <;> decide

variable {codec known} {db : RetryDb Id} {past : List (RetryCall × Except (JobError Id) RetryReply)}

omit [DecidableEq Id] in
theorem persistentJob_stored {claimId : String} {jobs : JobTable} {job : ClaimVerificationJobRow}
    (h : persistentJob claimId jobs = some job) : jobs.get job.jobId = some job :=
  Table.get_of_mem (Table.mem_select (List.mem_of_mem_head? h)).1

theorem readStatus_waits {claimId : String} {jobs : JobTable} {r : RetryRequest}
    (h : (readStatus known claimId jobs).1 = some r) : ∃ job, jobs.get r.jobId = some job ∧ job.status ≠ .leased := by
  unfold readStatus at h
  split at h
  · cases h
  split at h
  · cases h
  rename_i job hjob
  split at h
  · rename_i hguard
    cases h
    exact ⟨job, persistentJob_stored hjob, mayRequeue_iff.mp hguard⟩
  · cases h

theorem RetryOk.read (h : RetryOk codec db past) (request claimId : String) :
    RetryOk codec ((retryStore codec known).step db (.read request claimId))
      (past ++ [(.read request claimId, (retryStore codec known).outcome db (.read request claimId))]) := by
  refine ⟨h.store, fun other r hr => ?_⟩
  rw [List.foldl_append]
  change Function.update db.waiting request _ other = some r at hr
  change (db.verification.jobs.get r.jobId).map _ = _
  by_cases hne : other = request
  · subst hne
    rw [Function.update_self] at hr
    -- A status other than LEASED was read, so the row carries no lease.
    obtain ⟨job, hjob, hfree⟩ := readStatus_waits hr
    rw [hjob, Option.map_some, ((h.store.jobs _ job hjob).unleased hfree).2]
    simp [leaseSince]
  · rw [Function.update_of_ne hne] at hr
    rw [h.lease other r hr]
    simp [leaseSince, Ne.symm hne]

/-- The requeue of a waiting request tests nothing. -/
theorem execRetry_requeue {request : String} {now : Time} {r : RetryRequest} {row : ClaimVerificationJobRow}
    (hw : db.waiting request = some r) (hrow : db.verification.jobs.get r.jobId = some row) :
    execRetry codec known db (.requeue request now) =
      (⟨⟨db.verification.jobs.update (reopened now row), db.verification.results⟩,
        Function.update db.waiting request none⟩, .ok (.retried r.claimId r.jobId)) := by
  have hreturned : (verificationStore codec).exec db.verification (.requeue r.jobId now) =
      (⟨db.verification.jobs.update (reopened now row), db.verification.results⟩, .ok (.job (reopened now row))) := by
    simp only [verificationStore, execVerification, onJobs, requeue, getJob, hrow]
    rfl
  simp only [execRetry, hw, hreturned]
  rfl

theorem execRetry_idle {request : String} {now : Time} (hw : db.waiting request = none) :
    execRetry codec known db (.requeue request now) = (db, .ok .idle) := by
  simp only [execRetry, hw]

theorem RetryOk.requeue (h : RetryOk codec db past) (request : String) (now : Time) :
    RetryOk codec ((retryStore codec known).step db (.requeue request now))
      (past ++ [(.requeue request now, (retryStore codec known).outcome db (.requeue request now))]) := by
  simp only [Machine.step, Machine.outcome, retryStore]
  cases hw : db.waiting request with
  | none =>
    rw [execRetry_idle hw]
    refine ⟨h.store, fun other r hr => ?_⟩
    rw [List.foldl_append, h.lease other r hr]
    rfl
  | some r =>
    obtain ⟨row, hrow, _⟩ := Option.map_eq_some_iff.mp (h.lease request r hw)
    have hstore : StoreOk codec (execRetry codec known db (.requeue request now)).1.verification := by
      simp only [execRetry, hw]
      exact h.store.step codec (.requeue r.jobId now)
    rw [execRetry_requeue hw hrow] at hstore ⊢
    refine ⟨hstore, fun other r' hr => ?_⟩
    dsimp only at hr ⊢
    by_cases hne : other = request
    · subst hne
      rw [Function.update_self] at hr
      cases hr
    · rw [Function.update_of_ne hne] at hr
      obtain ⟨row', hrow', hexpiry⟩ := Option.map_eq_some_iff.mp (h.lease other r' hr)
      have hid : row.jobId = r.jobId := Table.get_key hrow
      rw [leaseAfter_update (reopened now row) hrow' hid, List.foldl_append]
      simp only [List.foldl_cons, List.foldl_nil, leaseSince, leaseAfter, hexpiry]
      rfl

theorem RetryOk.work (h : RetryOk codec db past) (call : WorkerCall) :
    RetryOk codec ((retryStore codec known).step db (.work call))
      (past ++ [(.work call, (retryStore codec known).outcome db (.work call))]) := by
  refine ⟨h.store.step codec call, fun other r hr => ?_⟩
  obtain ⟨row, hrow, hexpiry⟩ := Option.map_eq_some_iff.mp (h.lease other r hr)
  refine (lease_seen codec h.store call hrow).trans ?_
  rw [List.foldl_append, hexpiry]
  cases hreply : (verificationStore codec).outcome db.verification call with
  | ok reply =>
    have hout : (retryStore codec known).outcome db (.work call) = .ok (.worked reply) :=
      congrArg (Except.map RetryReply.worked) hreply
    rw [hout]
    rfl
  | error e =>
    have hout : (retryStore codec known).outcome db (.work call) = .error e :=
      congrArg (Except.map RetryReply.worked) hreply
    rw [hout]
    cases h : call.1 <;> rfl

variable (codec known) in
theorem retry_ok (calls : List RetryCall) :
    RetryOk codec ((retryStore codec known).run .empty calls) ((retryStore codec known).history .empty calls) := by
  refine (retryStore codec known).history_invariant (J := RetryOk codec) (fun db past call h => ?_)
    ⟨.empty, fun _ _ hr => by cases hr⟩ calls
  cases call with
  | read request claimId => exact h.read request claimId
  | requeue request now => exact h.requeue request now
  | work call => exact h.work call

theorem leasesKept_iff (h : RetryOk codec db past) (request : String) (now : Time) :
    LeasesKept codec known db request now ↔ NoLeaseSince db past request now := by
  unfold LeasesKept NoLeaseSince
  simp only [Machine.step, retryStore]
  constructor
  · intro hkept r hw e he
    obtain ⟨row, hrow, hexpiry⟩ := Option.map_eq_some_iff.mp (h.lease request r hw)
    have hid : row.jobId = r.jobId := Table.get_key hrow
    rw [he] at hexpiry
    have hok := h.store.jobs _ row hrow
    by_contra hlt
    have howner : row.leaseOwner.isSome = true := by rw [← hok.expiry, hexpiry]; rfl
    obtain ⟨row', hrow', _, hsame⟩ := hkept r.jobId row e hrow howner hexpiry (not_le.mp hlt)
    rw [execRetry_requeue hw hrow, get_update _ hrow, if_pos (show (reopened now row).jobId = _ from hid)] at hrow'
    cases hrow'
    rw [hexpiry] at hsame
    cases hsame
  · intro hnone jobId row e hrow howner hexpiry hlt
    cases hw : db.waiting request with
    | none =>
      rw [execRetry_idle hw]
      exact ⟨row, hrow, rfl, rfl⟩
    | some r =>
      obtain ⟨stored, hstored, hlease⟩ := Option.map_eq_some_iff.mp (h.lease request r hw)
      have hid : stored.jobId = r.jobId := Table.get_key hstored
      rw [execRetry_requeue hw hstored]
      by_cases hjob : r.jobId = jobId
      · rw [hjob, hrow] at hstored
        cases hstored
        exact absurd (hnone r hw e (hlease ▸ hexpiry)) (not_le.mpr hlt)
      · refine ⟨row, ?_, rfl, rfl⟩
        change (db.verification.jobs.update (reopened now stored)).get jobId = some row
        rw [get_update _ hrow, if_neg (show ¬ (reopened now stored).jobId = jobId from hid ▸ hjob)]

end Requests

/-- In every state that requests and workers reach, a requeue keeps the running leases exactly
when no lease handed out on its job since its status read is running. -/
theorem manual_retry_keeps_leases_iff {Id : Type} [DecidableEq Id] (codec : ResultCodec Id) (known : String → Bool)
    (calls : List RetryCall) (request : String) (now : Time) :
    LeasesKept codec known ((retryStore codec known).run .empty calls) request now ↔
      NoLeaseSince ((retryStore codec known).run .empty calls) ((retryStore codec known).history .empty calls)
        request now :=
  leasesKept_iff (retry_ok codec known calls) request now

/-- A job waits for its first check, a request reads that, a worker claims the job. -/
def claimedBetween : List RetryCall :=
  [.work ⟨.enqueue [⟨"c1", .price, "FACT"⟩] "quant" none (seconds 0) (seconds 0), rfl⟩,
    .read "request-1" "c1",
    .work ⟨.claimDue [] "worker-b" 10 60 (seconds 10), rfl⟩]

theorem manual_retry_revokes_lease :
    ¬ ∀ (calls : List RetryCall) request now,
      LeasesKept transparent (fun _ => true) ((retryStore transparent fun _ => true).run .empty calls) request now := by
  intro h
  let store := retryStore transparent fun _ => true
  let db := store.run .empty claimedBetween
  have hbefore : (db.verification.jobs.get "verify-job-c1-quant").map
      (fun row => (row.leaseOwner, row.leaseExpiresAt)) = some (some "worker-b", some (seconds 70)) := by
    decide
  have hafter : ((store.step db (.requeue "request-1" (seconds 20))).verification.jobs.get "verify-job-c1-quant").map
      (·.leaseOwner) = some none := by
    decide
  obtain ⟨row, hrow, hlease⟩ := Option.map_eq_some_iff.mp hbefore
  have howner : row.leaseOwner = some "worker-b" := congrArg Prod.fst hlease
  obtain ⟨row', hrow', hsame, _⟩ := h claimedBetween "request-1" (seconds 20) _ row (seconds 70) hrow (by rw [howner]; rfl)
    (congrArg Prod.snd hlease) (by decide)
  rw [hrow', Option.map_some, hsame, howner] at hafter
  cases hafter

end StockContent.Verification
