import StockContent.Verification.RefreshRuns

/-! Completions from outside a lease: when a refresh by a worker that does not hold the
unexpired lease of its job leaves everything as it was. -/
namespace StockContent.Verification
open Storage

section Leases
variable {Id H B : Type} [DecidableEq Id] [DecidableEq H] (services : RefreshServices Id H B) (codec : ResultCodec Id)

/-- A completion by a worker without the unexpired lease stores no result, snapshot, event or
signal and keeps the job's status, owner and expiry. -/
def LeaseRespected (db : RefreshDb Id H B) : RefreshCall → Prop
  | .store _ => True
  | .complete c => ∀ job, db.verification.jobs.get c.jobId = some job → holdsLease c.workerId c.now job = false →
      let db' := (refreshStore services codec).step db (.complete c)
      db'.verification.results = db.verification.results ∧ db'.snapshots = db.snapshots ∧ db'.other = db.other ∧
        ∃ job', db'.verification.jobs.get c.jobId = some job' ∧ job'.status = job.status ∧
          job'.leaseOwner = job.leaseOwner ∧ job'.leaseExpiresAt = job.leaseExpiresAt

/-- A result that is new, from a worker that the job does not name; or one that is stored,
shown by a snapshot, and the status of the job. -/
def StopsOutside (c : Completion) (job : ClaimVerificationJobRow) (db : RefreshDb Id H B) : Prop :=
  let verificationId := (completed codec job c.result c.now).verificationId
  match db.verification.results.get verificationId with
  | none => job.leaseOwner ≠ some c.workerId ∨ job.status ≠ .leased
  | some _ => job.status = .result c.result.status ∧
      ∃ prior, findSnapshotForResult services verificationId job.claimId db = .ok (some prior)

def OutsideStops (db : RefreshDb Id H B) : RefreshCall → Prop
  | .store _ => True
  | .complete c => ∀ job, db.verification.jobs.get c.jobId = some job → holdsLease c.workerId c.now job = false →
      StopsOutside services codec c job db

/-- A completion that returns to a worker outside the lease repeats what the job says. -/
def OutsideRepeats (db : RefreshDb Id H B) : RefreshCall → Prop
  | .store _ => True
  | .complete c => ∀ job db' out, db.verification.jobs.get c.jobId = some job →
      holdsLease c.workerId c.now job = false → complete services codec c db = .ok (db', out) →
      (db.verification.results.get (completed codec job c.result c.now).verificationId).isSome = true ∧
        job.status = .result c.result.status

variable {services codec} {db : RefreshDb Id H B}

theorem step_complete_error {c : Completion} {e : JobError Id} (h : complete services codec c db = .error e) :
    (refreshStore services codec).step db (.complete c) = db := by
  change (settle db (complete services codec c db)).1 = db
  rw [h]
  rfl

theorem step_complete_ok {c : Completion} {db' : RefreshDb Id H B} {out : RefreshOutcome Id}
    (h : complete services codec c db = .ok (db', out)) :
    (refreshStore services codec).step db (.complete c) = db' := by
  change (settle db (complete services codec c db)).1 = db'
  rw [h]
  rfl

theorem leaseRespected_of_error {c : Completion} {e : JobError Id} (h : complete services codec c db = .error e) :
    LeaseRespected services codec db (.complete c) := by
  intro job hjob _
  rw [step_complete_error h]
  exact ⟨rfl, rfl, rfl, job, hjob, rfl, rfl, rfl⟩

/-- The exits of a completion from outside that stops. -/
theorem leaseRespected_of_stops (hok : StoreOk codec db.verification) {c : Completion} {job : ClaimVerificationJobRow}
    (hjob : db.verification.jobs.get c.jobId = some job) (hstops : StopsOutside services codec c job db) :
    LeaseRespected services codec db (.complete c) := by
  cases h : complete services codec c db with
  | error e => exact leaseRespected_of_error h
  | ok result =>
    intro job' hjob' _
    rw [hjob] at hjob'
    cases hjob'
    rw [step_complete_ok h]
    obtain ⟨db', out⟩ := result
    obtain ⟨hstatus, stored, hstored, _, haccepted⟩ := complete_accepted h
    obtain rfl : job = stored := Option.some.inj (hjob.symm.trans hstored)
    unfold StopsOutside at hstops
    dsimp only at hstops
    split at hstops
    · -- A new result: the owner test refuses it.
      rename_i hnone
      cases haccepted with
      | repeated hrow => cases hnone.symm.trans hrow
      | merged hrow => cases hnone.symm.trans hrow
      | first _ howner => exact absurd hstops howner
    · rename_i existing hexisting
      obtain ⟨hsame, prior, hprior⟩ := hstops
      cases haccepted with
      | first hnone => cases hexisting.symm.trans hnone
      | merged _ _ hshown => cases hprior.symm.trans hshown
      | repeated =>
        have hpending : c.result.status ≠ .verificationPending := fun hp => hstatus (.inl hp)
        have hclosed : closed c.result.status job = job := closed_again (hok.jobs _ job hjob) hpending hsame
        have hid : job.jobId = c.jobId := Table.get_key hjob
        refine ⟨rfl, rfl, rfl, job, ?_, rfl, rfl, rfl⟩
        change (db.verification.jobs.update (closed c.result.status job)).get c.jobId = some job
        rw [hclosed, ← hid]
        exact Table.get_update_self (hid ▸ hjob)

/-- A returned completion closes the job with its status and leaves its result stored. -/
theorem complete_closes {c : Completion} {db' : RefreshDb Id H B} {out : RefreshOutcome Id}
    {job : ClaimVerificationJobRow} (hjob : db.verification.jobs.get c.jobId = some job)
    (h : complete services codec c db = .ok (db', out)) :
    db'.verification.jobs.get c.jobId = some (closed c.result.status job) ∧
      (db'.verification.results.get (completed codec job c.result c.now).verificationId).isSome = true := by
  have hid : job.jobId = c.jobId := Table.get_key hjob
  have hrefresh := complete_refreshResult h
  refine ⟨?_, refreshResult_present hjob hrefresh⟩
  obtain ⟨stored, hstored, _, hjobs, _⟩ := refreshResult_ok hrefresh
  rw [hjob] at hstored
  cases hstored
  rw [hjobs, ← hid]
  exact Table.get_update_self (r := closed c.result.status job) (hid ▸ hjob)

theorem outsideRepeats_of_respected {call : RefreshCall} (h : LeaseRespected services codec db call) :
    OutsideRepeats services codec db call := by
  cases call with
  | store call => trivial
  | complete c =>
    intro job db' out hjob houtside hcomplete
    obtain ⟨hresults, _, _, job', hjob', hstatus, _⟩ := h job hjob houtside
    obtain ⟨hclosed, hpresent⟩ := complete_closes hjob hcomplete
    rw [step_complete_ok hcomplete] at hresults hjob'
    rw [hclosed] at hjob'
    cases hjob'
    exact ⟨hresults ▸ hpresent, hstatus.symm⟩

variable (services codec) in
theorem storeOk_step (hok : StoreOk codec db.verification) (call : RefreshCall) :
    StoreOk codec ((refreshStore services codec).step db call).verification := by
  obtain ⟨calls, hcalls⟩ := run_simulated services codec db [call]
  rw [Machine.run_cons, Machine.run_nil] at hcalls
  rw [hcalls]
  exact (verificationStore codec).run_invariant (fun _ call h => h.step codec call) hok calls

/-- The state before any verification; the snapshots, artifacts and heads may be any. -/
def RefreshDb.unverified (db : RefreshDb Id H B) : RefreshDb Id H B := { db with verification := .empty }

variable (services codec) in
/-- In a run in which every completion from outside the lease stops, all leases are respected.
Where they are, a completion that returns to an outsider repeats the stored result of a job
that has its status. -/
theorem refreshes_respect_leases (base : RefreshDb Id H B) (calls : List RefreshCall) :
    ((refreshStore services codec).Along (OutsideStops services codec) base.unverified calls →
      (refreshStore services codec).Along (LeaseRespected services codec) base.unverified calls) ∧
    ((refreshStore services codec).Along (LeaseRespected services codec) base.unverified calls →
      (refreshStore services codec).Along (OutsideRepeats services codec) base.unverified calls) := by
  have hempty : StoreOk codec base.unverified.verification := .empty
  have hstep (db : RefreshDb Id H B) (call : RefreshCall) (hok : StoreOk codec db.verification) :=
    storeOk_step services codec hok call
  constructor
  · refine (refreshStore services codec).along_mono (I := fun db => StoreOk codec db.verification)
      (fun db call hok _ => hstep db call hok) (fun db call hok hstops => ?_) hempty
    cases call with
    | store call => trivial
    | complete c =>
      intro job hjob houtside
      exact leaseRespected_of_stops hok hjob (hstops job hjob houtside) job hjob houtside
  · exact (refreshStore services codec).along_mono (I := fun db => StoreOk codec db.verification)
      (fun db call hok _ => hstep db call hok) (fun _ _ _ h => outsideRepeats_of_respected h) hempty

end Leases

/-- A worker completes a job; the job is requeued and leased to another worker. -/
def leasedAgain : List RefreshCall :=
  [.store (.enqueue [⟨"c1", .price, "FACT"⟩] "quant" none (seconds 0) (seconds 0)),
    .store (.claimDue [] "worker-a" 10 60 (seconds 10)),
    .complete (completionFor "quant" verifiedResult (seconds 30)),
    .store (.requeue "verify-job-c1-quant" (seconds 40)),
    .store (.claimDue [] "worker-b" 10 60 (seconds 50))]

/-- The first worker completes the job once more. -/
theorem repeated_completion_ends_lease :
    ¬ ∀ (base : RefreshDb VerificationIdentity (VerificationArtifact VerificationIdentity) Unit) calls,
      (refreshStore plainServices transparent).Along (LeaseRespected plainServices transparent) base.unverified calls := by
  intro h
  let again : RefreshCall := .complete (completionFor "quant" verifiedResult (seconds 60))
  obtain ⟨db, hdb⟩ : ∃ db, db = (refreshStore plainServices transparent).run sharedHead.unverified leasedAgain := ⟨_, rfl⟩
  have hkept : LeaseRespected plainServices transparent db again := by
    rw [hdb]
    exact ((refreshStore plainServices transparent).along_append.mp (h sharedHead (leasedAgain ++ [again]))).2.1
  have hbefore : ((db.verification.jobs.get "verify-job-c1-quant").map
      fun row => (row.leaseOwner, holdsLease "worker-a" (seconds 60) row)) = some (some "worker-b", false) := by
    rw [hdb]
    decide
  have hafter : (((refreshStore plainServices transparent).step db again).verification.jobs.get
      "verify-job-c1-quant").map (·.leaseOwner) = some none := by
    rw [hdb]
    decide
  obtain ⟨row, hrow, hlease⟩ := Option.map_eq_some_iff.mp hbefore
  obtain ⟨_, _, _, row', hrow', _, howner, _⟩ := hkept row hrow (congrArg Prod.snd hlease)
  have hsame := congrArg (Option.map (·.leaseOwner)) hrow'
  rw [Option.map_some, howner, show row.leaseOwner = some "worker-b" from congrArg Prod.fst hlease] at hsame
  cases hsame.symm.trans hafter

/-- A worker that the job does not name submits a new result. -/
def leasedOnce : List RefreshCall :=
  [.store (.enqueue [⟨"c1", .price, "FACT"⟩] "quant" none (seconds 0) (seconds 0)),
    .store (.claimDue [] "worker-b" 10 60 (seconds 10))]

theorem strange_completion_respects_lease :
    (refreshStore plainServices transparent).Along (LeaseRespected plainServices transparent) sharedHead.unverified
      (leasedOnce ++ [.complete (completionFor "quant" verifiedResult (seconds 30))]) := by
  refine (refreshes_respect_leases plainServices transparent sharedHead _).1
    ((refreshStore plainServices transparent).along_append.mpr ⟨⟨trivial, trivial, trivial⟩, ?_, trivial⟩)
  let db := (refreshStore plainServices transparent).run sharedHead.unverified leasedOnce
  intro job hjob _
  have howner : (db.verification.jobs.get "verify-job-c1-quant").map (·.leaseOwner) = some (some "worker-b") := by
    decide
  have hresults : db.verification.results.rows = [] := by decide
  have hname := (congrArg (Option.map (·.leaseOwner)) hjob).symm.trans howner
  have hnone (verificationId : VerificationIdentity) : db.verification.results.get verificationId = none := by
    rw [Table.get, hresults]
    rfl
  unfold StopsOutside
  dsimp only
  rw [hnone]
  have hname : job.leaseOwner = some "worker-b" := Option.some.inj hname
  exact .inl (by rw [hname]; decide)

end StockContent.Verification
