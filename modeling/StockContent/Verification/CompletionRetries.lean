import StockContent.Verification.JobOwnership

/-! A completion that is submitted again: it is accepted, and the row of the first one stays. -/
namespace StockContent.Verification
open Storage

section Retry
variable {Id : Type} [DecidableEq Id] {codec : ResultCodec Id}

/-- Results that differ in their availability at most: it is an envelope and says nothing about the claim. -/
def SameResult (result result' : VerificationResult) : Prop :=
  ({ result.toResultFields with
      availableAt := none
      referenceValue := result.referenceValue.canonical } : ResultFields) =
    { result'.toResultFields with
      availableAt := none
      referenceValue := result'.referenceValue.canonical }

theorem SameResult.identity {result result' : VerificationResult} (h : SameResult result result')
    (claimId provider : String) :
    identityOf claimId provider result.toResultFields = identityOf claimId provider result'.toResultFields :=
  congrArg (VerificationIdentity.mk claimId provider) h

omit [DecidableEq Id] in
theorem SameResult.id {result result' : VerificationResult} (h : SameResult result result') (claimId provider : String) :
    verificationIdOf codec claimId provider result.toResultFields =
      verificationIdOf codec claimId provider result'.toResultFields :=
  congrArg (codec.digest true) (h.identity claimId provider)

/-- A write as its columns are compared, apart from its envelope. -/
structure SameColumns (values values' : ResultValues Id) : Prop where
  claim : values.claimId = values'.claimId
  provider : values.provider = values'.provider
  status : values.status = values'.status
  result : ({ values.result with availableAt := none, referenceValue := .null } : ResultFields) =
    { values'.result with availableAt := none, referenceValue := .null }

omit [DecidableEq Id] in
theorem SameResult.columns {job job' : ClaimVerificationJobRow} {result result' : VerificationResult}
    (h : SameResult result result') (hclaim : job.claimId = job'.claimId) (hprovider : job.provider = job'.provider)
    (now now' : Time) : SameColumns (completed codec job result now) (completed codec job' result' now') := by
  have hstatus := congrArg ResultFields.status h
  have hresult := congrArg (fun fields : ResultFields => { fields with referenceValue := .null }) h
  exact ⟨hclaim, hprovider, hstatus, hresult⟩

omit [DecidableEq Id] in
theorem SameColumns.enveloped {values values' : ResultValues Id} (h : SameColumns values values')
    (row : ClaimVerificationResultRow Id) : SameColumns (values.enveloped row) values' :=
  ⟨h.claim, h.provider, h.status, h.result⟩

omit [DecidableEq Id] in
/-- What a stored row agrees with, it agrees with in its own envelope. -/
theorem agrees_enveloped {row : ClaimVerificationResultRow Id} {values values' : ResultValues Id}
    (hsame : SameColumns values values') (h : agrees row values = true) :
    agrees row (values'.enveloped row) = true := by
  obtain ⟨hclaim, hprovider, hstatus, hresult⟩ := hsame
  have hsnapshot := congrArg ResultFields.marketSnapshotId hresult
  have hversion := congrArg ResultFields.marketDataVersion hresult
  have hfact := congrArg ResultFields.factDate hresult
  have hadjustment := congrArg ResultFields.adjustment hresult
  have htimestamp := congrArg ResultFields.verificationTimestamp hresult
  have hrule := congrArg ResultFields.verificationRuleVersion hresult
  simp only [agrees, Bool.and_eq_true, ResultValues.enveloped] at h ⊢
  rw [← hclaim, ← hprovider, ← hstatus, ← hsnapshot, ← hversion, ← hfact, ← hadjustment, ← htimestamp, ← hrule]
  obtain ⟨⟨⟨⟨⟨⟨⟨⟨⟨⟨⟨h₁, h₂⟩, h₃⟩, h₄⟩, h₅⟩, _⟩, h₆⟩, h₇⟩, h₈⟩, h₉⟩, h₁₀⟩, _⟩ := h
  exact ⟨⟨⟨⟨⟨⟨⟨⟨⟨⟨⟨h₁, h₂⟩, h₃⟩, h₄⟩, h₅⟩, ResultFields.same_self _⟩, h₆⟩, h₇⟩, h₈⟩, h₉⟩, h₁₀⟩, beq_self_eq_true _⟩

/-- What every call of the repository keeps: the results, and whose the jobs are. -/
structure Kept (db db' : VerificationDb Id) : Prop where
  results : ∀ id row, db.results.get id = some row → db'.results.get id = some row
  jobs : ∀ jobId job, db.jobs.get jobId = some job →
    ∃ job', db'.jobs.get jobId = some job' ∧ job'.claimId = job.claimId ∧ job'.provider = job.provider

theorem Grows.kept {call : VerificationCall} {db db' : VerificationDb Id} (h : Grows codec call db db') :
    Kept db db' where
  results id row hrow := by
    obtain ⟨row', hrow', rfl⟩ := h.results.old id row hrow
    exact hrow'
  jobs jobId job hjob := by
    obtain ⟨job', hjob', hstep | ⟨now, _, rfl⟩⟩ := h.jobs.old jobId job hjob
    · exact ⟨job', hjob', hstep.same.2.1, hstep.same.2.2.1⟩
    · exact ⟨_, hjob', rfl, rfl⟩

theorem kept_run {db : VerificationDb Id} (hok : StoreOk codec db) (calls : List VerificationCall) :
    Kept db ((verificationStore codec).run db calls) := by
  refine (verificationStore codec).run_related (fun _ => ⟨fun _ _ h => h, fun _ job h => ⟨job, h, rfl, rfl⟩⟩) ?_
    (fun _ call hok => hok.step codec call) (fun _ call hok => (verification_grows codec call hok.jobs).kept) hok calls
  intro db db' db'' h h'
  refine ⟨fun id row hrow => h'.results id row (h.results id row hrow), fun jobId job hjob => ?_⟩
  obtain ⟨job', hjob', hclaim, hprovider⟩ := h.jobs jobId job hjob
  obtain ⟨job'', hjob'', hclaim', hprovider'⟩ := h'.jobs jobId job' hjob'
  exact ⟨job'', hjob'', hclaim'.trans hclaim, hprovider'.trans hprovider⟩

variable {db db' : VerificationDb Id} {jobId workerId : String} {job : ClaimVerificationJobRow}
  {result result' : VerificationResult} {now : Time}

theorem persist_row {values : ResultValues Id} {results results' : ResultTable Id}
    (h : persistVerificationResult values results = .ok results') :
    ∃ row, results'.get values.verificationId = some row ∧ agrees row values = true ∧
      (results.get values.verificationId = none → row = values.row) := by
  rw [persist_eq] at h
  split at h <;> cases h
  rename_i hagrees
  refine ⟨_, ?_, hagrees, fun hnone => by rw [hnone]; rfl⟩
  rw [Table.get_insert_getD]
  cases results.get values.verificationId with
  | none => simp
  | some row => rfl

/-- An accepted completion leaves a row that it agrees with in the row's envelope; where there was none it is its own. -/
theorem completeResult_row {u : Unit} (hjob : db.jobs.get jobId = some job)
    (h : completeResult codec jobId workerId result now db = .ok (db', u)) :
    ∃ row, db'.results.get (verificationIdOf codec job.claimId job.provider result.toResultFields) = some row ∧
      (db.results.get (verificationIdOf codec job.claimId job.provider result.toResultFields) = none →
        row = (completed codec job result now).row) ∧
      agrees row ((completed codec job result now).enveloped row) = true := by
  obtain ⟨job', hjob', _, _, _, _, hresults⟩ := completeResult_ok h
  rw [hjob] at hjob'
  cases hjob'
  rcases hresults with ⟨existing, hkept, hexisting, hagrees⟩ | ⟨_, hpersist⟩
  · refine ⟨existing, hkept ▸ hexisting, fun hnone => ?_, hagrees⟩
    rw [hexisting] at hnone
    cases hnone
  · obtain ⟨row, hrow, hagrees, hfresh⟩ := persist_row hpersist
    exact ⟨row, hrow, hfresh, agrees_enveloped ⟨rfl, rfl, rfl, rfl⟩ hagrees⟩

theorem completion_accepted
    (h : (verificationStore codec).outcome db (.completeResult jobId workerId result now) = .ok .stored) :
    completeResult codec jobId workerId result now db =
      .ok ((verificationStore codec).step db (.completeResult jobId workerId result now), ()) := by
  change ((settle db (completeResult codec jobId workerId result now db)).map id
    (Except.map fun _ => VerificationReply.stored)).2 = _ at h
  change _ = Except.ok (((settle db (completeResult codec jobId workerId result now db)).map id
    (Except.map fun _ => VerificationReply.stored)).1, ())
  cases hcomplete : completeResult codec jobId workerId result now db with
  | error e =>
    rw [hcomplete] at h
    cases h
  | ok p => rfl

theorem completion_exec (h : completeResult codec jobId workerId result now db = .ok (db', ())) :
    (verificationStore codec).exec db (.completeResult jobId workerId result now) = (db', .ok .stored) := by
  change (settle db (completeResult codec jobId workerId result now db)).map id
    (Except.map fun _ => VerificationReply.stored) = _
  rw [h]
  rfl

end Retry

section Runs
variable {Id : Type} [DecidableEq Id]

/-- Once a completion was accepted, every later one of the same result is accepted too, by whomever,
whenever and whatever else happened in between, and the row stays as the first one left it. -/
theorem completion_idempotent (codec : ResultCodec Id) (before : List VerificationCall) {jobId workerId : String}
    {result : VerificationResult} {now : Time} {job : ClaimVerificationJobRow}
    (hjob : ((verificationStore codec).run .empty before).jobs.get jobId = some job)
    (hfirst : (verificationStore codec).outcome ((verificationStore codec).run .empty before)
      (.completeResult jobId workerId result now) = .ok .stored) :
    let store := verificationStore codec
    let first := store.step (store.run .empty before) (.completeResult jobId workerId result now)
    let id := verificationIdOf codec job.claimId job.provider result.toResultFields
    ∃ row, first.results.get id = some row ∧
      ((store.run .empty before).results.get id = none → row = (completed codec job result now).row) ∧
      ∀ (between : List VerificationCall) (workerId' : String) (result' : VerificationResult) (now' : Time),
        SameResult result result' →
          let call := VerificationCall.completeResult jobId workerId' result' now'
          verificationIdOf codec job.claimId job.provider result'.toResultFields = id ∧
            store.outcome (store.run first between) call = .ok .stored ∧
            (store.step (store.run first between) call).results.get id = some row := by
  intro store first id
  have hok : StoreOk codec (store.run .empty before) := verification_ok codec before
  have hcomplete := completion_accepted hfirst
  obtain ⟨row, hrow, hfresh, hagrees⟩ := completeResult_row hjob hcomplete
  refine ⟨row, hrow, hfresh, fun between workerId' result' now' hsame => ?_⟩
  have hid : verificationIdOf codec job.claimId job.provider result'.toResultFields = id := (hsame.id _ _).symm
  obtain ⟨stored, hstored, hclaim, hpending, hmanual, _, _⟩ := completeResult_ok hcomplete
  cases hjob.symm.trans hstored
  have hstatus : result'.status = result.status := (congrArg ResultFields.status hsame).symm
  have hsubject : result'.claimId = result.claimId := (congrArg ResultFields.claimId hsame).symm
  have hkept := kept_run (hok.step codec (.completeResult jobId workerId result now)) between
  obtain ⟨next, hnext, hnextClaim, hnextProvider⟩ := (verification_grows codec _ hok.jobs).kept.jobs jobId job hjob
  obtain ⟨last, hlast, hlastClaim, hlastProvider⟩ := hkept.jobs jobId next hnext
  have hownClaim : last.claimId = job.claimId := hlastClaim.trans hnextClaim
  have hownProvider : last.provider = job.provider := hlastProvider.trans hnextProvider
  have hexisting : (store.run first between).results.get
      (verificationIdOf codec last.claimId last.provider result'.toResultFields) = some row := by
    rw [hownClaim, hownProvider, hid]
    exact hkept.results id row hrow
  have hagrees' := agrees_enveloped ((hsame.columns hownClaim.symm hownProvider.symm now now').enveloped row) hagrees
  have hagain : store.exec (store.run first between) (.completeResult jobId workerId' result' now') = _ :=
    completion_exec (completeResult_stored (hstatus ▸ hpending) (hstatus ▸ hmanual) hlast
      (by rw [hsubject, hclaim, hownClaim]) hexisting hagrees')
  refine ⟨hid, congrArg Prod.snd hagain, ?_⟩
  change ((store.exec _ _).1).results.get id = some row
  rw [hagain]
  exact hkept.results id row hrow

/-- A worker leases a job. -/
def leasedRuns : List VerificationCall :=
  [.enqueue [⟨"c1", .price, "FACT"⟩] "quant" none (seconds 0) (seconds 0), .claimDue [] "worker-a" 10 60 (seconds 10)]

def heldJob : ClaimVerificationJobRow where
  jobId := "verify-job-c1-quant"
  claimId := "c1"
  provider := "quant"
  status := .leased
  nextRetryAt := some (seconds 0)
  leaseOwner := some "worker-a"
  leaseExpiresAt := some (seconds 70)
  createdAt := seconds 0

/-- The result of a completion, submitted by another worker on the next day. -/
theorem completion_repeated_next_day :
    let store := verificationStore transparent
    let first := store.step (store.run .empty leasedRuns)
      (.completeResult "verify-job-c1-quant" "worker-a" verifiedResult (seconds 20))
    let again := VerificationCall.completeResult "verify-job-c1-quant" "worker-b" verifiedResult (seconds 86400)
    ∃ row, row.availableAt = some (seconds 20) ∧ store.outcome first again = .ok .stored ∧
      (store.step first again).results.get row.verificationId = some row := by
  intro store first again
  have hjob : (store.run .empty leasedRuns).jobs.get "verify-job-c1-quant" = some heldJob := by decide
  have hfirst : store.outcome (store.run .empty leasedRuns)
      (.completeResult "verify-job-c1-quant" "worker-a" verifiedResult (seconds 20)) = .ok .stored := by decide
  have hnone : (store.run .empty leasedRuns).results.get
      (verificationIdOf transparent heldJob.claimId heldJob.provider verifiedResult.toResultFields) = none := by
    decide
  obtain ⟨row, hrow, hfresh, hagain⟩ := completion_idempotent transparent leasedRuns hjob hfirst
  obtain ⟨_, haccepted, hkept⟩ := hagain [] "worker-b" verifiedResult (seconds 86400) rfl
  refine ⟨row, ?_, haccepted, ?_⟩
  · rw [hfresh hnone]
    decide
  · rw [Table.get_key hrow]
    exact hkept

end Runs
end StockContent.Verification
