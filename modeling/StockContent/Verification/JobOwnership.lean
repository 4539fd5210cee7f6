import StockContent.Verification.JobRuns

/-! Who may end a job: the holder of its unexpired lease, and whoever submits a result
that is stored already. -/
namespace StockContent.Verification
open Storage

/-- Calls that act for the owner of a job: the job, the worker and the time. -/
def VerificationCall.submission : VerificationCall → Option (String × String × Time)
  | .mark jobId workerId _ now | .completeResult jobId workerId _ now => some (jobId, workerId, now)
  | _ => none

section Ownership
variable {Id : Type} [DecidableEq Id] (codec : ResultCodec Id)

/-- A worker that does not hold the lease changes neither the job nor a result. -/
def OwnershipKept (db : VerificationDb Id) (call : VerificationCall) : Prop :=
  ∀ jobId workerId now row, call.submission = some (jobId, workerId, now) → db.jobs.get jobId = some row →
    holdsLease workerId now row = false →
    ((verificationStore codec).step db call).jobs.get jobId = some row ∧
      ((verificationStore codec).step db call).results = db.results

/-- A completion from outside the lease, of a result that is stored already, while the
job has another status than that result. -/
def Resubmission (db : VerificationDb Id) : VerificationCall → Prop
  | .completeResult jobId workerId result now => ∃ job existing,
      db.jobs.get jobId = some job ∧ holdsLease workerId now job = false ∧
      result.status ≠ .verificationPending ∧ result.status ≠ .manualReview ∧ result.claimId = job.claimId ∧
      db.results.get (verificationIdOf codec job.claimId job.provider result.toResultFields) = some existing ∧
      agrees existing ((completed codec job result now).enveloped existing) = true ∧
      job.status ≠ .result result.status
  | _ => False

variable {codec} {db : VerificationDb Id}

theorem closed_again {job : ClaimVerificationJobRow} (hok : JobOk job) {status : ResultStatus}
    (hp : status ≠ .verificationPending) (hs : job.status = .result status) : closed status job = job := by
  have hf : finished job := ⟨status, hs, hp⟩
  obtain ⟨ho, he⟩ := hok.unleased (by simp [hs])
  have hd := hok.due hf
  cases job
  simp_all [closed, unleased]

theorem mark_outside {jobId workerId : String} (m : JobMark) {now : Time} {row : ClaimVerificationJobRow}
    (hg : db.jobs.get jobId = some row) (hl : holdsLease workerId now row = false) :
    (verificationStore codec).step db (.mark jobId workerId m now) = db := by
  change (settle db (onJobs (applyMark jobId workerId m now) db)).1 = db
  cases hx : onJobs (applyMark jobId workerId m now) db with
  | error e => rfl
  | ok p =>
    obtain ⟨row', hg', hl', _⟩ := applyMark_ok.mp (onJobs_ok.mp hx).1
    rw [hg] at hg'
    cases hg'
    rw [hl] at hl'
    cases hl'

theorem ownershipKept_iff (hok : StoreOk codec db) (call : VerificationCall) :
    OwnershipKept codec db call ↔ ¬ Resubmission codec db call := by
  cases call with
  | mark jobId workerId m now =>
    refine iff_of_true ?_ not_false
    rintro _ _ _ row ⟨⟩ hg hl
    rw [mark_outside m hg hl]
    exact ⟨hg, rfl⟩
  | completeResult jobId workerId result now =>
    constructor
    · rintro h ⟨job, existing, hg, hl, hp, hm, hc, he, ha, hs⟩
      have hkept := (h jobId workerId now job rfl hg hl).1
      have hid : job.jobId = jobId := Table.get_key hg
      have hclosed : ((verificationStore codec).step db (.completeResult jobId workerId result now)).jobs =
          db.jobs.update (closed result.status job) := by
        change (settle db (completeResult codec jobId workerId result now db)).1.jobs = _
        rw [completeResult_stored hp hm hg hc he ha]
        rfl
      have hnew : (db.jobs.update (closed result.status job)).get job.jobId = some (closed result.status job) :=
        Table.get_update_self (hid ▸ hg)
      rw [hclosed, ← hid, hnew] at hkept
      exact hs (congrArg ClaimVerificationJobRow.status (Option.some.inj hkept)).symm
    · rintro h _ _ _ row ⟨⟩ hg hl
      change (settle db (completeResult codec jobId workerId result now db)).1.jobs.get jobId = some row ∧
        (settle db (completeResult codec jobId workerId result now db)).1.results = db.results
      cases hx : completeResult codec jobId workerId result now db with
      | error e => exact ⟨hg, rfl⟩
      | ok p =>
        obtain ⟨job, hg', hc, hp, hm, hj, hres⟩ := completeResult_ok hx
        rw [hg] at hg'
        cases hg'
        rcases hres with ⟨existing, hr, he, ha⟩ | ⟨hl', _⟩
        · have hs : row.status = .result result.status := by
            by_contra hs
            exact h ⟨row, existing, hg, hl, hp, hm, hc, he, ha, hs⟩
          rw [closed_again (hok.jobs _ row hg) hp hs] at hj
          have hid : row.jobId = jobId := Table.get_key hg
          have hsame : (db.jobs.update row).get row.jobId = some row := Table.get_update_self (hid ▸ hg)
          exact ⟨hj ▸ hid ▸ hsame, hr⟩
        · rw [hl] at hl'
          cases hl'
  | _ => exact iff_of_true (fun _ _ _ _ h => by cases h) not_false

end Ownership

/-- Along every run, nobody but the owner of an unexpired lease changes a job by a mark
or a completion exactly when no stored result is submitted again from outside a lease
for a job that has another status. -/
theorem submissions_owned {Id : Type} [DecidableEq Id] (codec : ResultCodec Id) (calls : List VerificationCall) :
    (verificationStore codec).Along (OwnershipKept codec) .empty calls ↔
      (verificationStore codec).Along (fun db call => ¬ Resubmission codec db call) .empty calls :=
  (verificationStore codec).along_congr (I := StoreOk codec) (fun _ call hok _ => hok.step codec call)
    (fun _ call hok => ownershipKept_iff hok call) .empty calls

/-- Names that keep the whole identity, for concrete runs. -/
def transparent : ResultCodec VerificationIdentity where
  digest _ identity := identity
  precedes _ _ := true
  validate fields := if h : fields.Bound then .ok ⟨fields, h⟩ else .error "verification result is not bound"

def verifiedResult : VerificationResult where
  claimId := "c1"
  status := .verified
  marketSnapshotId := some "snapshot-1"
  marketDataVersion := some "v1"
  factDate := some (.day 20000)
  verificationTimestamp := some (.ofUtc (seconds 20))
  binding := fun _ => ⟨⟨_, rfl, by decide⟩, ⟨_, rfl, by decide⟩, rfl, rfl⟩

/-- A job is completed, requeued and leased to another worker; then the first worker
submits its result again. -/
def lateCompletion : List VerificationCall :=
  [.enqueue [⟨"c1", .price, "FACT"⟩] "quant" none (seconds 0) (seconds 0),
    .claimDue [] "worker-a" 10 60 (seconds 10),
    .completeResult "verify-job-c1-quant" "worker-a" verifiedResult (seconds 20),
    .requeue "verify-job-c1-quant" (seconds 30),
    .claimDue [] "worker-b" 10 60 (seconds 40),
    .completeResult "verify-job-c1-quant" "worker-a" verifiedResult (seconds 50)]

/-- The late completion ends the lease of the other worker. -/
theorem late_completion_ends_lease :
    ¬ (verificationStore transparent).Along (OwnershipKept transparent) .empty lateCompletion := by
  intro h
  let store := verificationStore transparent
  let db := store.run .empty (lateCompletion.take 5)
  let call := lateCompletion[5]
  have hkept : OwnershipKept transparent db call := h.2.2.2.2.2.1
  have hbefore : ((db.jobs.get "verify-job-c1-quant").map
      fun row => (row.leaseOwner, holdsLease "worker-a" (seconds 50) row)) = some (some "worker-b", false) := by
    decide
  have hafter : ((store.step db call).jobs.get "verify-job-c1-quant").map (·.leaseOwner) = some none := by
    decide
  obtain ⟨row, hg, hr⟩ := Option.map_eq_some_iff.mp hbefore
  rw [(hkept _ _ _ row rfl hg (congrArg Prod.snd hr)).1] at hafter
  have ho : row.leaseOwner = some "worker-b" := congrArg Prod.fst hr
  rw [Option.map_some, ho] at hafter
  cases hafter

end StockContent.Verification
