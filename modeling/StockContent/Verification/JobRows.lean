import StockContent.Verification.VerificationJobs

/-! Rows of verification jobs: what the calls of the repository may do to them and what
every row keeps satisfying. -/
namespace StockContent.Verification
open Storage

/-- The holder of an unexpired lease. -/
def holdsLease (workerId : String) (now : Time) (row : ClaimVerificationJobRow) : Bool :=
  row.status == .leased && row.leaseOwner == some workerId && row.leaseExpiresAt.all (now < ·)

theorem holdsLease_iff {workerId : String} {now : Time} {row : ClaimVerificationJobRow} :
    holdsLease workerId now row = true ↔
      row.status = .leased ∧ row.leaseOwner = some workerId ∧ ∀ e, row.leaseExpiresAt = some e → now < e := by
  simp [holdsLease, Option.all_eq_true, and_assoc]

/-- Terminal or under manual review. -/
def finished (row : ClaimVerificationJobRow) : Prop := ∃ s, row.status = .result s ∧ s ≠ .verificationPending

theorem finished_not_claimable {row : ClaimVerificationJobRow} (h : finished row) (now : Time) :
    claimable now row = false := by
  obtain ⟨s, hs, hne⟩ := h
  simp [claimable, hs, JobStatus.pending, hne]

theorem finished_not_held {row : ClaimVerificationJobRow} (h : finished row) (workerId : String) (now : Time) :
    holdsLease workerId now row = false := by
  obtain ⟨s, hs, _⟩ := h
  simp [holdsLease, hs]

section Rows
variable (Id : Type)

/-- Everything a call other than `requeue` may do to a stored job. -/
inductive JobStep (row : ClaimVerificationJobRow) : ClaimVerificationJobRow → Prop
  | trace (traceId : Option String) : JobStep row { row with traceId }
  | claim (workerId : String) (leaseSeconds : Int) {now : Time} (h : claimable now row = true) :
      JobStep row (leased workerId leaseSeconds now row)
  | mark {workerId : String} {now : Time} {row' : ClaimVerificationJobRow} (m : JobMark)
      (h : holdsLease workerId now row = true)
      (ha : (m.apply now row : Except (JobError Id) ClaimVerificationJobRow) = .ok row') : JobStep row row'
  | close (status : ResultStatus) (h : status ≠ .verificationPending) : JobStep row (closed status row)

variable {Id} {row row' : ClaimVerificationJobRow}

theorem JobStep.stay (row : ClaimVerificationJobRow) : JobStep Id row row := .trace row.traceId

/-- Jobs are named after their claim and provider, owner and expiry mark the leased
ones, the retry limit is the length of the schedule and finished jobs are not due. -/
structure JobOk (row : ClaimVerificationJobRow) : Prop where
  identity : row.jobId = jobIdOf row.claimId row.provider
  owner : row.leaseOwner.isSome = true ↔ row.status = .leased
  expiry : row.leaseExpiresAt.isSome = row.leaseOwner.isSome
  limit : row.maxRetries = retryScheduleSeconds.length
  due : finished row → row.nextRetryAt = none

/-- A row that is not leased carries no lease. -/
theorem JobOk.unleased (h : JobOk row) (hs : row.status ≠ .leased) :
    row.leaseOwner = none ∧ row.leaseExpiresAt = none := by
  have ho : row.leaseOwner.isSome = false := by simpa using fun hh => hs (h.owner.mp hh)
  exact ⟨by simpa using ho, by simpa [ho] using h.expiry⟩

theorem forClaim_iff {claimId provider : String} :
    forClaim claimId provider row = true ↔ row.claimId = claimId ∧ row.provider = provider := by
  simp [forClaim]

theorem JobOk.named (h : JobOk row) {claimId provider : String} (hf : forClaim claimId provider row = true) :
    row.jobId = jobIdOf claimId provider := by
  obtain ⟨rfl, rfl⟩ := forClaim_iff.mp hf
  exact h.identity

theorem JobStep.same (h : JobStep Id row row') :
    row'.jobId = row.jobId ∧ row'.claimId = row.claimId ∧ row'.provider = row.provider ∧
      row'.maxRetries = row.maxRetries := by
  cases h with
  | trace => exact ⟨rfl, rfl, rfl, rfl⟩
  | claim => exact ⟨rfl, rfl, rfl, rfl⟩
  | close => exact ⟨rfl, rfl, rfl, rfl⟩
  | mark m _ ha =>
    cases m with
    | renewLease => cases ha; exact ⟨rfl, rfl, rfl, rfl⟩
    | manualReview => cases ha; exact ⟨rfl, rfl, rfl, rfl⟩
    | retry =>
      simp only [JobMark.apply] at ha
      split at ha
      · cases ha; exact ⟨rfl, rfl, rfl, rfl⟩
      · split at ha <;> cases ha
        exact ⟨rfl, rfl, rfl, rfl⟩

theorem JobStep.ok (hok : JobOk row) (h : JobStep Id row row') : JobOk row' := by
  obtain ⟨hid, hc, hp, hm⟩ := h.same
  have hidentity : row'.jobId = jobIdOf row'.claimId row'.provider := by rw [hid, hc, hp, hok.identity]
  have hlimit : row'.maxRetries = retryScheduleSeconds.length := by rw [hm, hok.limit]
  cases h with
  | trace => exact ⟨hok.identity, hok.owner, hok.expiry, hok.limit, hok.due⟩
  | claim => exact ⟨hidentity, by simp [leased], rfl, hlimit, by rintro ⟨_, hs, _⟩; cases hs⟩
  | close => exact ⟨hidentity, by simp [closed, Verification.unleased], rfl, hlimit, fun _ => rfl⟩
  | mark m hl ha =>
    obtain ⟨hs, ho, _⟩ := holdsLease_iff.mp hl
    cases m with
    | renewLease =>
      cases ha
      exact ⟨hidentity, hok.owner, by simp [ho], hlimit, hok.due⟩
    | manualReview =>
      cases ha
      exact ⟨hidentity, by simp [Verification.unleased, JobStatus.manualReview], rfl, hlimit, fun _ => rfl⟩
    | retry =>
      simp only [JobMark.apply] at ha
      split at ha
      · cases ha
        exact ⟨hidentity, by simp [Verification.unleased, JobStatus.manualReview], rfl, hlimit, fun _ => rfl⟩
      · split at ha <;> cases ha
        refine ⟨hidentity, by simp [Verification.unleased, JobStatus.pending], rfl, hlimit, ?_⟩
        rintro ⟨s, hs, hne⟩
        cases hs
        exact absurd rfl hne

/-- Only `requeue` takes a finished job back. -/
theorem JobStep.of_finished (hf : finished row) (h : JobStep Id row row') : finished row' := by
  cases h with
  | trace => exact hf
  | claim _ _ hc => rw [finished_not_claimable hf] at hc; cases hc
  | mark _ hl _ => rw [finished_not_held hf] at hl; cases hl
  | close status h => exact ⟨status, rfl, h⟩

end Rows

section Jobs
variable {Id : Type} {jobs jobs' : JobTable}

theorem getJob_ok {jobId : String} {row : ClaimVerificationJobRow} :
    (getJob jobId jobs : Except (JobError Id) ClaimVerificationJobRow) = .ok row ↔ jobs.get jobId = some row := by
  rw [getJob]
  cases jobs.get jobId <;> simp

theorem assertOwner_ok {workerId : String} {now : Time} {row : ClaimVerificationJobRow} {u : Unit} :
    (assertOwner workerId now row : Except (JobError Id) Unit) = .ok u ↔ holdsLease workerId now row = true := by
  rw [assertOwner]
  rw [holdsLease_iff]
  by_cases hs : row.status ≠ .leased ∨ row.leaseOwner ≠ some workerId
  · rw [if_pos hs]
    refine ⟨fun h => (by cases h), fun h => ?_⟩
    rcases hs with hs | hs
    · exact absurd h.1 hs
    · exact absurd h.2.1 hs
  · rw [if_neg hs]
    push Not at hs
    cases he : row.leaseExpiresAt with
    | none => simp [hs]
    | some e =>
      by_cases hle : e ≤ now
      · simp [hs, hle, not_lt.mpr hle]
      · simp [hs, hle, not_le.mp hle]

theorem applyMark_ok {jobId workerId : String} {mark : JobMark} {now : Time} {row' : ClaimVerificationJobRow} :
    (applyMark jobId workerId mark now jobs : Except (JobError Id) _) = .ok (jobs', row') ↔
      ∃ row, jobs.get jobId = some row ∧ holdsLease workerId now row = true ∧
        (mark.apply now row : Except (JobError Id) _) = .ok row' ∧ jobs' = jobs.update row' := by
  simp only [applyMark, bind_eq_ok, getJob_ok, assertOwner_ok]
  constructor
  · rintro ⟨row, hg, _, hl, row'', ha, hr⟩
    cases hr
    exact ⟨row, hg, hl, ha, rfl⟩
  · rintro ⟨row, hg, hl, ha, rfl⟩
    exact ⟨row, hg, (), hl, row', ha, rfl⟩

theorem requeue_ok {jobId : String} {now : Time} {row' : ClaimVerificationJobRow} :
    (requeue jobId now jobs : Except (JobError Id) _) = .ok (jobs', row') ↔
      ∃ row, jobs.get jobId = some row ∧ row' = reopened now row ∧ jobs' = jobs.update row' := by
  simp only [requeue, bind_eq_ok, getJob_ok]
  constructor
  · rintro ⟨row, hg, hr⟩
    cases hr
    exact ⟨row, hg, rfl, rfl⟩
  · rintro ⟨row, hg, rfl, rfl⟩
    exact ⟨row, hg, rfl⟩

theorem insertIgnore_ok {row : ClaimVerificationJobRow} {inserted : Bool}
    (h : (insertIgnore row jobs : Except (JobError Id) _) = .ok (jobs', inserted)) :
    jobs' = jobs ∧ (∃ r ∈ jobs.rows, forClaim row.claimId row.provider r = true) ∨
      jobs.insert row = some jobs' := by
  unfold insertIgnore at h
  split at h
  · rename_i hany
    cases h
    exact .inl ⟨rfl, List.any_eq_true.mp hany⟩
  · split at h <;> cases h
    exact .inr ‹_›

/-- Rows that a call adds: pending jobs, well formed. -/
def FreshJob (row : ClaimVerificationJobRow) : Prop := JobOk row ∧ row.status = .pending

def Retraced (row row' : ClaimVerificationJobRow) : Prop := ∃ traceId, row' = { row with traceId }

theorem Retraced.refl (row : ClaimVerificationJobRow) : Retraced row row := ⟨row.traceId, rfl⟩

theorem traced_retraced (traceId : Option String) (row : ClaimVerificationJobRow) :
    Retraced row (traced traceId row) := by
  rw [traced]
  split
  · exact ⟨traceId, rfl⟩
  · exact .refl row

theorem Retraced.trans (a b c : ClaimVerificationJobRow) (h : Retraced a b) (h' : Retraced b c) : Retraced a c := by
  obtain ⟨_, rfl⟩ := h
  obtain ⟨traceId, rfl⟩ := h'
  exact ⟨traceId, rfl⟩

theorem FreshJob.retraced (a b : ClaimVerificationJobRow) (h : FreshJob a) (hr : Retraced a b) : FreshJob b := by
  obtain ⟨_, rfl⟩ := hr
  exact ⟨⟨h.1.identity, h.1.owner, h.1.expiry, h.1.limit, h.1.due⟩, h.2⟩

theorem pending_fresh {row : ClaimVerificationJobRow} (hid : row.jobId = jobIdOf row.claimId row.provider)
    (hs : row.status = .pending) (ho : row.leaseOwner = none) (he : row.leaseExpiresAt = none)
    (hm : row.maxRetries = retryScheduleSeconds.length) : FreshJob row := by
  refine ⟨⟨hid, by simp [ho, hs, JobStatus.pending], by simp [ho, he], hm, ?_⟩, hs⟩
  rintro ⟨s, hs', hne⟩
  rw [hs] at hs'
  cases hs'
  exact absurd rfl hne

theorem insertIgnore_evolves {row : ClaimVerificationJobRow} {inserted : Bool} (hf : FreshJob row)
    (h : (insertIgnore row jobs : Except (JobError Id) _) = .ok (jobs', inserted)) :
    Table.Evolves FreshJob Retraced jobs jobs' := by
  rcases insertIgnore_ok h with ⟨rfl, _⟩ | hi
  · exact .refl Retraced.refl _
  · exact .insert hi Retraced.refl hf

theorem enqueueJob_evolves {claim : FinancialClaim} {provider : String} {traceId : Option String} {now clock : Time}
    {created : List String}
    (h : (enqueueJob claim provider traceId now clock jobs : Except (JobError Id) _) = .ok (jobs', created)) :
    Table.Evolves FreshJob Retraced jobs jobs' := by
  obtain ⟨⟨stored, inserted⟩, hi, h⟩ := bind_eq_ok.mp h
  have hins : Table.Evolves FreshJob Retraced jobs stored :=
    insertIgnore_evolves (pending_fresh rfl rfl rfl rfl rfl) hi
  dsimp only at h
  split at h
  · cases h
  · rename_i row hrow
    cases h
    refine hins.trans (.update stored Retraced.refl fun q hq => ?_) Retraced.trans FreshJob.retraced
    rw [traced_jobId, Table.get_of_mem (List.mem_of_find?_eq_some hrow)] at hq
    cases hq
    exact traced_retraced traceId row

theorem retryScheduleSeconds_get {n : Nat} (h : n < retryScheduleSeconds.length) :
    ∃ delay, retryScheduleSeconds[n]? = some delay ∧ 0 < delay := by
  have hpos : ∀ delay ∈ retryScheduleSeconds, 0 < delay := by decide
  exact ⟨_, List.getElem?_eq_getElem h, hpos _ (List.getElem_mem h)⟩

/-- A retry always finds its delay: the limit of a row is the length of the schedule. -/
theorem retry_apply {row : ClaimVerificationJobRow} (hok : JobOk row) (error : String) (now : Time) :
    ∃ row', ((JobMark.retry error).apply now row : Except (JobError Id) _) = .ok row' ∧ row'.jobId = row.jobId ∧
      row'.retryCount = row.retryCount + 1 ∧
      (row'.status = .manualReview ↔ row.maxRetries < row'.retryCount) ∧
      (row'.retryCount ≤ row.maxRetries → row'.status = .pending ∧ ∃ t, row'.nextRetryAt = some t ∧ now < t) := by
  by_cases hm : row.maxRetries < row.retryCount + 1
  · refine ⟨_, if_pos hm, rfl, rfl, iff_of_true rfl hm, fun hle => ?_⟩
    change row.retryCount + 1 ≤ row.maxRetries at hle
    omega
  · have hlt : row.retryCount < retryScheduleSeconds.length := by
      have := hok.limit
      omega
    obtain ⟨delay, hd, hpos⟩ := retryScheduleSeconds_get hlt
    let next := unleased { row with retryCount := row.retryCount + 1, lastError := some error }
    have hne : ¬ next.maxRetries < next.retryCount := hm
    have hget : retryScheduleSeconds[next.retryCount - 1]? = some delay := hd
    refine ⟨{ next with status := .pending, nextRetryAt := some (now + seconds delay) }, ?_, rfl, rfl, ?_,
      fun _ => ⟨rfl, _, rfl, ?_⟩⟩
    · simp only [next] at hne hget
      simp only [JobMark.apply, if_neg hne, hget, next]
    · exact iff_of_false (by simp [JobStatus.pending, JobStatus.manualReview]) hm
    · exact Int.lt_add_of_pos_right now (seconds_pos hpos)

theorem markRetry_indexed (hok : jobs.All JobOk) (jobId workerId error : String) (now : Time) :
    (markRetry jobId workerId error now jobs : Except (JobError Id) _) ≠ .error .indexError := by
  intro h
  rcases bind_eq_error.mp h with h | ⟨row, hg, h⟩
  · unfold getJob at h
    split at h <;> cases h
  rcases bind_eq_error.mp h with h | ⟨_, _, h⟩
  · unfold assertOwner at h
    split at h
    · cases h
    · split at h <;> cases h
  obtain ⟨row', ha, _⟩ := retry_apply (hok _ row (getJob_ok.mp hg)) error now
  rcases bind_eq_error.mp h with h | ⟨_, _, h⟩
  · rw [ha] at h
    cases h
  · cases h

end Jobs
end StockContent.Verification
