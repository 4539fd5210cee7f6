import StockContent.Verification.PlanWrites

/-! Runs of the verification store: enqueueing, workers, refreshes and published
snapshots in any order, at any clock readings. -/
namespace StockContent.Verification
open Storage

inductive VerificationCall where
  | enqueue (claims : List FinancialClaim) (provider : String) (traceId : Option String) (now clock : Time)
  | claimDue (locked : List String) (workerId : String) (limit : Nat) (leaseSeconds : Int) (now : Time)
  | mark (jobId workerId : String) (mark : JobMark) (now : Time)
  | requeue (jobId : String) (now : Time)
  | completeResult (jobId workerId : String) (result : VerificationResult) (now : Time)
  | refresh (jobId workerId : String) (result : VerificationResult) (prior : Bool) (publish : Except String Unit)
      (now : Time)
  | publish (claims : List FinancialClaim) (provider : String) (candidate : Time) (policyVersion : String)
      (traceId : Option String)

inductive VerificationReply where
  | enqueued (jobIds : List String)
  | claimed (rows : List ClaimVerificationJobRow)
  | job (row : ClaimVerificationJobRow)
  | stored
  deriving DecidableEq

section Exec
variable {Id : Type}

def VerificationDb.empty : VerificationDb Id := ⟨.empty, .empty⟩

def onJobs {A : Type} (f : JobTable → Except (JobError Id) (JobTable × A)) (db : VerificationDb Id) :
    Except (JobError Id) (VerificationDb Id × A) := do
  let (jobs, a) ← f db.jobs
  return ({ db with jobs }, a)

variable [DecidableEq Id] (codec : ResultCodec Id)

def execVerification (db : VerificationDb Id) :
    VerificationCall → VerificationDb Id × Except (JobError Id) VerificationReply
  | .enqueue claims provider traceId now clock =>
    (settle db (enqueue codec claims provider traceId now clock db)).map id (Except.map .enqueued)
  | .claimDue locked workerId limit leaseSeconds now =>
    (claimDue locked workerId limit leaseSeconds now db.jobs).map (fun jobs => { db with jobs }) (.ok ∘ .claimed)
  | .mark jobId workerId mark now =>
    (settle db (onJobs (applyMark jobId workerId mark now) db)).map id (Except.map .job)
  | .requeue jobId now => (settle db (onJobs (requeue jobId now) db)).map id (Except.map .job)
  | .completeResult jobId workerId result now =>
    (settle db (completeResult codec jobId workerId result now db)).map id (Except.map fun _ => .stored)
  | .refresh jobId workerId result prior publish now =>
    (settle db (refreshResult codec jobId workerId result prior publish now db)).map id
      (Except.map fun _ => .stored)
  | .publish claims provider candidate policyVersion traceId =>
    (settle db (publishVerification codec claims provider candidate policyVersion traceId db)).map id
      (Except.map fun _ => .stored)

def verificationStore : Machine (VerificationDb Id) VerificationCall (Except (JobError Id) VerificationReply) :=
  ⟨execVerification codec⟩

end Exec

section Runs
variable {Id : Type}

variable (Id) in
/-- What one call may do to a stored job: only `requeue` reopens it. -/
def CallStep (call : VerificationCall) (row row' : ClaimVerificationJobRow) : Prop :=
  JobStep Id row row' ∨ ∃ now, call = .requeue row.jobId now ∧ row' = reopened now row

theorem CallStep.stay (call : VerificationCall) (row : ClaimVerificationJobRow) : CallStep Id call row row :=
  .inl (.stay row)

theorem CallStep.ok {call : VerificationCall} {row row' : ClaimVerificationJobRow} (hok : JobOk row)
    (h : CallStep Id call row row') : JobOk row' := by
  rcases h with h | ⟨now, _, rfl⟩
  · exact h.ok hok
  · refine ⟨hok.identity, by simp [reopened, unleased, JobStatus.pending], rfl, hok.limit, ?_⟩
    rintro ⟨s, hs, hne⟩
    cases hs
    exact absurd rfl hne

/-- What one call may do to the store: jobs take a step, results are only added. -/
structure Grows (codec : ResultCodec Id) [DecidableEq Id] (call : VerificationCall) (db db' : VerificationDb Id) :
    Prop where
  jobs : Table.Evolves FreshJob (CallStep Id call) db.jobs db'.jobs
  results : Table.Evolves (StoredResult codec) Eq db.results db'.results

variable [DecidableEq Id] {codec : ResultCodec Id} {call : VerificationCall} {db db' : VerificationDb Id}

theorem Grows.refl (db : VerificationDb Id) : Grows codec call db db :=
  ⟨.refl (CallStep.stay call) _, .refl (fun _ => rfl) _⟩

/-- A transaction either took effect or left everything alone. -/
theorem Grows.settle {A : Type} {x : Except (JobError Id) (VerificationDb Id × A)}
    (h : ∀ db' a, x = .ok (db', a) → Grows codec call db db') : Grows codec call db (settle db x).1 := by
  cases x with
  | error e => exact .refl db
  | ok p => exact h p.1 p.2 rfl

theorem Grows.of_retraced (hj : Table.Evolves FreshJob Retraced db.jobs db'.jobs)
    (hr : Table.Evolves (StoredResult codec) Eq db.results db'.results) : Grows codec call db db' := by
  refine ⟨hj.mono (fun _ h => h) fun row row' h => ?_, hr⟩
  obtain ⟨traceId, rfl⟩ := h
  exact .inl (.trace traceId)

theorem enqueueClaim_evolves {claim : FinancialClaim} {provider : String} {traceId : Option String} {now clock : Time}
    {created : List String} (h : enqueueClaim codec claim provider traceId now clock db = .ok (db', created)) :
    Table.Evolves FreshJob Retraced db.jobs db'.jobs ∧
      Table.Evolves (StoredResult codec) Eq db.results db'.results := by
  unfold enqueueClaim at h
  split at h
  · obtain ⟨⟨jobs, ids⟩, hj, h⟩ := bind_eq_ok.mp h
    cases h
    exact ⟨enqueueJob_evolves hj, .refl (fun _ => rfl) _⟩
  · obtain ⟨results, hr, h⟩ := bind_eq_ok.mp h
    cases h
    exact ⟨.refl Retraced.refl _, enqueueResult_evolves hr⟩

theorem enqueue_evolves {claims : List FinancialClaim} {provider : String} {traceId : Option String}
    {now clock : Time} {created : List String}
    (h : enqueue codec claims provider traceId now clock db = .ok (db', created)) :
    Table.Evolves FreshJob Retraced db.jobs db'.jobs ∧
      Table.Evolves (StoredResult codec) Eq db.results db'.results := by
  induction claims generalizing db created with
  | nil =>
    cases h
    exact ⟨.refl Retraced.refl _, .refl (fun _ => rfl) _⟩
  | cons claim claims ih =>
    obtain ⟨⟨mid, first⟩, hf, h⟩ := bind_eq_ok.mp h
    obtain ⟨⟨last, rest⟩, hr, h⟩ := bind_eq_ok.mp h
    cases h
    obtain ⟨hj, hres⟩ := enqueueClaim_evolves hf
    obtain ⟨hj', hres'⟩ := ih hr
    exact ⟨hj.trans hj' Retraced.trans FreshJob.retraced,
      hres.trans hres' (fun _ _ _ => Eq.trans) fun _ _ hs he => he ▸ hs⟩

omit [DecidableEq Id] in
theorem onJobs_ok {A : Type} {f : JobTable → Except (JobError Id) (JobTable × A)} {a : A} :
    onJobs f db = .ok (db', a) ↔ f db.jobs = .ok (db'.jobs, a) ∧ db'.results = db.results := by
  simp only [onJobs, bind_eq_ok]
  constructor
  · rintro ⟨⟨jobs, b⟩, hf, hr⟩
    cases hr
    exact ⟨hf, rfl⟩
  · rintro ⟨hf, hr⟩
    exact ⟨_, hf, by rw [← hr]; rfl⟩

/-- One stored job takes a step and the results stay. -/
theorem Grows.update {jobId : String} {row row' : ClaimVerificationJobRow} (hj : db'.jobs = db.jobs.update row')
    (hid : row'.jobId = jobId) (hg : db.jobs.get jobId = some row) (hstep : CallStep Id call row row')
    (hr : Table.Evolves (StoredResult codec) Eq db.results db'.results) : Grows codec call db db' := by
  refine ⟨?_, hr⟩
  rw [hj]
  refine .update db.jobs (CallStep.stay call) fun q hq => ?_
  rw [hid, hg] at hq
  cases hq
  exact hstep

omit [DecidableEq Id] in
theorem claimDue_evolves (locked : List String) (workerId : String) (limit : Nat) (leaseSeconds : Int) (now : Time)
    (jobs : JobTable) :
    Table.Evolves FreshJob (CallStep Id call) jobs (claimDue locked workerId limit leaseSeconds now jobs).1 := by
  refine .modifyEach jobs (leased_jobId workerId leaseSeconds now) (CallStep.stay call) fun row hm hk => ?_
  have hdue := (Table.select_of_key hm hk).2
  exact .inl (.claim workerId leaseSeconds (Bool.and_eq_true_iff.mp hdue).1)

variable (codec call) in
theorem verification_grows (hok : db.jobs.All JobOk) :
    Grows codec call db ((verificationStore codec).step db call) := by
  cases call with
  | enqueue claims provider traceId now clock =>
    change Grows codec _ db (settle db (enqueue codec claims provider traceId now clock db)).1
    refine .settle fun db' created h => ?_
    obtain ⟨hj, hr⟩ := enqueue_evolves h
    exact .of_retraced hj hr
  | claimDue locked workerId limit leaseSeconds now =>
    exact ⟨claimDue_evolves locked workerId limit leaseSeconds now db.jobs, .refl (fun _ => rfl) _⟩
  | mark jobId workerId m now =>
    change Grows codec _ db (settle db (onJobs (applyMark jobId workerId m now) db)).1
    refine .settle fun db' row' h => ?_
    obtain ⟨h, hr⟩ := onJobs_ok.mp h
    obtain ⟨row, hg, hl, ha, hj⟩ := applyMark_ok.mp h
    have hstep : JobStep Id row row' := .mark m hl ha
    exact .update hj (hstep.same.1.trans (Table.get_key hg)) hg (.inl hstep) (hr ▸ .refl (fun _ => rfl) _)
  | requeue jobId now =>
    change Grows codec _ db (settle db (onJobs (requeue jobId now) db)).1
    refine .settle fun db' row' h => ?_
    obtain ⟨h, hr⟩ := onJobs_ok.mp h
    obtain ⟨row, hg, rfl, hj⟩ := requeue_ok.mp h
    have hid : row.jobId = jobId := Table.get_key hg
    exact .update hj hid hg (.inr ⟨now, by rw [hid], rfl⟩) (hr ▸ .refl (fun _ => rfl) _)
  | completeResult jobId workerId result now =>
    change Grows codec _ db (settle db (completeResult codec jobId workerId result now db)).1
    refine .settle fun db' _ h => ?_
    obtain ⟨job, hg, hc, hp, _, hj, hres⟩ := completeResult_ok h
    have hid : job.jobId = jobId := Table.get_key hg
    refine .update hj hid hg (.inl (.close result.status hp)) ?_
    rcases hres with ⟨_, hr, _⟩ | ⟨_, hr⟩
    · exact hr ▸ .refl (fun _ => rfl) _
    · exact persist_evolves hr fun _ => completed_sound codec hc now
  | refresh jobId workerId result prior publish now =>
    change Grows codec _ db (settle db (refreshResult codec jobId workerId result prior publish now db)).1
    refine .settle fun db' _ h => ?_
    obtain ⟨job, hg, hp, hj, hr⟩ := refreshResult_ok h
    have hid : job.jobId = jobId := Table.get_key hg
    exact .update hj hid hg (.inl (.close result.status hp)) hr
  | publish claims provider candidate policyVersion traceId =>
    change Grows codec _ db
      (settle db (publishVerification codec claims provider candidate policyVersion traceId db)).1
    refine .settle fun db' _ h => ?_
    obtain ⟨plan, hp, hs, _⟩ := publishVerification_ok.mp h
    obtain ⟨hj, hr⟩ := bundle_evolves hok hp hs
    exact ⟨hj.mono (fun _ hf => hf) fun row _ he => he ▸ .stay _ row, hr⟩

/-- What holds of the rows of every reachable store. -/
structure StoreOk (codec : ResultCodec Id) (db : VerificationDb Id) : Prop where
  jobs : db.jobs.All JobOk
  results : db.results.All (StoredResult codec)

variable (codec call) in
theorem StoreOk.step (h : StoreOk codec db) : StoreOk codec ((verificationStore codec).step db call) := by
  have hgrows := verification_grows codec call h.jobs
  exact ⟨hgrows.jobs.all (fun _ hf => hf.1) (fun _ _ hok hs => hs.ok hok) h.jobs,
    hgrows.results.all (fun _ hf => hf) (fun _ _ hok he => he ▸ hok) h.results⟩

theorem StoreOk.empty : StoreOk codec .empty :=
  ⟨fun _ _ h => (by cases h), fun _ _ h => (by cases h)⟩

variable (codec) in
theorem verification_ok (calls : List VerificationCall) :
    StoreOk codec ((verificationStore codec).run .empty calls) :=
  (verificationStore codec).run_invariant (fun _ call h => h.step codec call) .empty calls

/-- The jobs that a call handed out. -/
def claimedIds : VerificationCall × Except (JobError Id) VerificationReply → List String
  | (.claimDue .., .ok (.claimed rows)) => rows.map (·.jobId)
  | _ => []

omit [DecidableEq Id] in
theorem claimDue_claimable {locked : List String} {workerId : String} {limit : Nat} {leaseSeconds : Int} {now : Time}
    {jobs : JobTable} {row : ClaimVerificationJobRow} (hg : jobs.get row.jobId = some row)
    (h : row.jobId ∈ ((claimDue locked workerId limit leaseSeconds now jobs).2).map (·.jobId)) :
    claimable now row = true := by
  have hids : ((claimDue locked workerId limit leaseSeconds now jobs).2).map (·.jobId) =
      (dueRows locked limit now jobs).map (·.jobId) := by
    simp only [claimDue, List.map_map]
    rfl
  rw [hids] at h
  exact (Bool.and_eq_true_iff.mp (Table.select_of_key (Table.mem_of_get hg) h).2).1

theorem finished_unclaimed {row : ClaimVerificationJobRow} (hf : finished row) (hg : db.jobs.get row.jobId = some row)
    (call : VerificationCall) : row.jobId ∉ claimedIds (call, (verificationStore codec).outcome db call) := by
  intro h
  cases call with
  | claimDue locked workerId limit leaseSeconds now =>
    have := claimDue_claimable hg h
    rw [finished_not_claimable hf] at this
    cases this
  | _ => cases h

theorem finished_stays {row : ClaimVerificationJobRow} (hok : StoreOk codec db) (hf : finished row)
    (hg : db.jobs.get row.jobId = some row) (hno : ∀ now, call ≠ .requeue row.jobId now) :
    ∃ row', row'.jobId = row.jobId ∧ finished row' ∧
      ((verificationStore codec).step db call).jobs.get row.jobId = some row' := by
  rcases (verification_grows codec call hok.jobs).jobs.old _ row hg with ⟨row', hg', hstep | ⟨now, he, _⟩⟩
  · exact ⟨row', Table.get_key hg', hstep.of_finished hf, hg'⟩
  · exact absurd he (hno now)

/-- A finished job is not handed out again before it is requeued. -/
theorem finished_run {row : ClaimVerificationJobRow} (hok : StoreOk codec db) (hf : finished row)
    (hg : db.jobs.get row.jobId = some row) {calls : List VerificationCall}
    (hno : ∀ now, .requeue row.jobId now ∉ calls) :
    ∀ entry ∈ (verificationStore codec).history db calls, row.jobId ∉ claimedIds entry := by
  induction calls generalizing db row with
  | nil => exact fun _ h => by cases h
  | cons call calls ih =>
    rw [Machine.history_cons, List.forall_mem_cons]
    have hcall : ∀ now, call ≠ .requeue row.jobId now := fun now he => hno now (he ▸ List.mem_cons_self)
    obtain ⟨row', hid, hf', hg'⟩ := finished_stays hok hf hg hcall
    refine ⟨finished_unclaimed hf hg call, ?_⟩
    rw [← hid] at hg' hno ⊢
    exact ih (hok.step codec call) hf' hg' fun now hm => hno now (List.mem_cons_of_mem call hm)

theorem mark_committed {jobId workerId : String} {m : JobMark} {now : Time} {row' : ClaimVerificationJobRow}
    (h : (verificationStore codec).exec db (.mark jobId workerId m now) = (db', .ok (.job row'))) :
    (applyMark jobId workerId m now db.jobs : Except (JobError Id) _) = .ok (db'.jobs, row') := by
  change (settle db (onJobs (applyMark jobId workerId m now) db)).map id (Except.map VerificationReply.job) = _ at h
  revert h
  generalize hx : onJobs (applyMark jobId workerId m now) db = x
  intro h
  cases x with
  | error e => cases h
  | ok p =>
    cases h
    exact (onJobs_ok.mp hx).1

theorem mark_failed {jobId workerId : String} {m : JobMark} {now : Time} {e : JobError Id}
    (h : (verificationStore codec).outcome db (.mark jobId workerId m now) = .error e) :
    (applyMark jobId workerId m now db.jobs : Except (JobError Id) _) = .error e := by
  change ((settle db (onJobs (applyMark jobId workerId m now) db)).map id
    (Except.map VerificationReply.job)).2 = _ at h
  revert h
  generalize hx : onJobs (applyMark jobId workerId m now) db = x
  intro h
  cases x with
  | error e =>
    cases h
    rcases bind_eq_error.mp hx with hx | ⟨_, _, hx⟩
    · exact hx
    · cases hx
  | ok p => cases h

end Runs

/-- Jobs over every run. Exactly the leased rows carry an owner and an expiry; a finished
job is not handed out before it is requeued; an accepted retry counts one more, goes to
manual review when the limit is passed and is otherwise due strictly later; and its
delay is always in the schedule. -/
theorem verification_job_lifecycle {Id : Type} [DecidableEq Id] (codec : ResultCodec Id)
    (calls : List VerificationCall) :
    let store := verificationStore codec
    let db := store.run .empty calls
    (∀ row ∈ db.jobs.rows,
      (row.status = .leased → row.leaseOwner.isSome = true ∧ row.leaseExpiresAt.isSome = true) ∧
      (row.status ≠ .leased → row.leaseOwner = none ∧ row.leaseExpiresAt = none) ∧
      (finished row → ∀ more, (∀ now, .requeue row.jobId now ∉ more) →
        ∀ entry ∈ store.history db more, row.jobId ∉ claimedIds entry) ∧
      (∀ workerId error now db' row',
        store.exec db (.mark row.jobId workerId (.retry error) now) = (db', .ok (.job row')) →
        db'.jobs.get row.jobId = some row' ∧ row'.retryCount = row.retryCount + 1 ∧
        (row'.status = .manualReview ↔ row.maxRetries < row'.retryCount) ∧
        (row'.retryCount ≤ row.maxRetries → row'.status = .pending ∧ ∃ t, row'.nextRetryAt = some t ∧ now < t))) ∧
    ∀ jobId workerId error now, store.outcome db (.mark jobId workerId (.retry error) now) ≠ .error .indexError := by
  intro store db
  have hok : StoreOk codec db := verification_ok codec calls
  refine ⟨fun row hm => ?_, fun jobId workerId error now hx => ?_⟩
  · have hrow : JobOk row := hok.jobs.of_mem hm
    have hg := Table.get_of_mem hm
    refine ⟨fun hs => ?_, hrow.unleased, fun hf more hno => finished_run hok hf hg hno,
      fun workerId error now db' row' hx => ?_⟩
    · have ho := hrow.owner.mpr hs
      exact ⟨ho, by rw [hrow.expiry, ho]⟩
    · obtain ⟨row'', hg'', _, ha, hj⟩ := applyMark_ok.mp (mark_committed hx)
      rw [hg] at hg''
      cases hg''
      obtain ⟨next, hn, hid, hrest⟩ := retry_apply hrow error now
      cases ha.symm.trans hn
      exact ⟨hj ▸ hid ▸ Table.get_update_self (hid ▸ hg), hrest⟩
  · exact markRetry_indexed hok.jobs jobId workerId error now (mark_failed hx)

end StockContent.Verification
