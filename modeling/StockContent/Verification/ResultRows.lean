import Mathlib.Data.List.Find
import Mathlib.Data.Prod.Lex
import StockContent.Verification.JobRows

/-! Rows of verification results: they are written once, under a digest of what they
say, and never rewritten. -/
namespace StockContent.Verification
open Storage

/-- The envelope of a stored row around a later write of the same result. -/
def ResultValues.enveloped {Id : Type} (values : ResultValues Id) (existing : ClaimVerificationResultRow Id) :
    ResultValues Id :=
  { values with availableAt := existing.availableAt, resultPayload := existing.resultPayload }

section Results
variable {Id : Type} [DecidableEq Id] {codec : ResultCodec Id} {results results' : ResultTable Id}

/-- A write whose columns are those of its payload, under a digest of its identity.
Only a result that gives no reason may leave its payload without an envelope. -/
structure SoundWrite (codec : ResultCodec Id) (values : ResultValues Id) : Prop where
  payload : values.result = values.resultPayload
  claim : values.resultPayload.claimId = values.claimId
  status : values.resultPayload.status = values.status
  identity : ∃ escaped, values.verificationId =
    codec.digest escaped (identityOf values.claimId values.provider values.resultPayload)
  envelope : ∃ a, values.availableAt = some a ∧
    (values.resultPayload.availableAt = none ∧ values.resultPayload.reason = none ∨
      values.resultPayload.availableAt = some (.ofUtc a))

def StoredResult (codec : ResultCodec Id) (row : ClaimVerificationResultRow Id) : Prop :=
  ∃ values, SoundWrite codec values ∧ row = values.row

omit [DecidableEq Id] in
@[simp] theorem ResultValues.row_verificationId (values : ResultValues Id) :
    values.row.verificationId = values.verificationId := rfl

/-- A stored id is compared with the write, a free one takes it. -/
theorem persist_eq (values : ResultValues Id) (results : ResultTable Id) :
    persistVerificationResult values results =
      if agrees ((results.get values.verificationId).getD values.row) values then
        .ok ((results.insert values.row).getD results)
      else .error (.differentResult values.verificationId) := by
  unfold persistVerificationResult
  dsimp only
  rw [Table.get_insert_getD]
  cases results.get values.verificationId <;> simp

theorem insert_stored {values : ResultValues Id} {row : ClaimVerificationResultRow Id}
    (h : results.get values.verificationId = some row) : (results.insert values.row).getD results = results := by
  rw [Table.insert_eq_none.mpr (by simp [h])]
  rfl

theorem persist_stored {values : ResultValues Id} {row : ClaimVerificationResultRow Id}
    (h : results.get values.verificationId = some row) :
    persistVerificationResult values results =
      if agrees row values then .ok results else .error (.differentResult values.verificationId) := by
  rw [persist_eq, h, insert_stored h]
  rfl

theorem persist_kept {values : ResultValues Id} {row : ClaimVerificationResultRow Id}
    (hg : results.get values.verificationId = some row)
    (h : persistVerificationResult values results = .ok results') : results' = results := by
  rw [persist_stored hg] at h
  split at h <;> cases h
  rfl

theorem persist_present {values : ResultValues Id} (h : persistVerificationResult values results = .ok results') :
    (results'.get values.verificationId).isSome = true := by
  unfold persistVerificationResult at h
  dsimp only at h
  split at h
  · cases h
  · rename_i row hrow
    split at h <;> cases h
    rw [hrow]
    rfl

theorem persist_evolves {values : ResultValues Id} (h : persistVerificationResult values results = .ok results')
    (hw : results.get values.verificationId = none → SoundWrite codec values) :
    Table.Evolves (StoredResult codec) Eq results results' := by
  cases hg : results.get values.verificationId with
  | some row =>
    rw [persist_kept hg h]
    exact .refl (fun _ => rfl) _
  | none =>
    rw [persist_eq] at h
    split at h <;> cases h
    exact .insert_getD (fun _ => rfl) ⟨values, hw hg, rfl⟩

/-- Moving the envelope to where it is already changes nothing. -/
theorem resultAvailableAt_again (fields : ResultFields) (now : Time) :
    resultAvailableAt { fields with availableAt := some (.ofUtc (resultAvailableAt fields now)) } now =
      resultAvailableAt fields now := by
  simp only [resultAvailableAt]
  cases fields.verificationTimestamp <;> simp

omit [DecidableEq Id] in
variable (codec) in
theorem completed_sound {job : ClaimVerificationJobRow} {result : VerificationResult}
    (hc : result.claimId = job.claimId) (now : Time) : SoundWrite codec (completed codec job result now) :=
  ⟨rfl, hc, rfl, ⟨true, rfl⟩, _, rfl, .inr (by
    simp only [completed, VerificationResult.modelDump, VerificationResult.availableFrom_fields,
      resultAvailableAt_again])⟩

omit [DecidableEq Id] in
variable (codec) in
theorem completed_id (job : ClaimVerificationJobRow) (result : VerificationResult) (now : Time) :
    (completed codec job result now).verificationId =
      verificationIdOf codec job.claimId job.provider result.toResultFields := rfl

theorem enqueueResult_evolves {claim : FinancialClaim} {provider : String} {traceId : Option String} {now : Time}
    (h : enqueueResult codec claim provider traceId now results = .ok results') :
    Table.Evolves (StoredResult codec) Eq results results' := by
  unfold enqueueResult at h
  dsimp only at h
  split at h
  · cases h
  · split at h <;> cases h
    refine .insert_getD (fun _ => rfl) ⟨_, ⟨rfl, ?_, rfl, ⟨true, rfl⟩, now, rfl, .inl ⟨?_, ?_⟩⟩, rfl⟩ <;>
      · simp only [VerificationResult.modelDump, unverifiable]
        split <;> rfl

variable {db db' : VerificationDb Id} {jobId workerId : String} {result : VerificationResult} {now : Time}

/-- A completion that is not refused for what it says. -/
theorem completeResult_eq {job : ClaimVerificationJobRow} (hp : result.status ≠ .verificationPending)
    (hm : result.status ≠ .manualReview) (hg : db.jobs.get jobId = some job) (hc : result.claimId = job.claimId) :
    completeResult codec jobId workerId result now db =
      match db.results.get (verificationIdOf codec job.claimId job.provider result.toResultFields) with
      | some existing => do
        let results ← persistVerificationResult ((completed codec job result now).enveloped existing) db.results
        return ({ jobs := db.jobs.update (closed result.status job), results }, ())
      | none => do
        assertOwner workerId now job
        let results ← persistVerificationResult (completed codec job result now) db.results
        return ({ jobs := db.jobs.update (closed result.status job), results }, ()) := by
  rw [completeResult, if_neg (by simp [hp, hm]), getJob_ok.mpr hg]
  simp only [hc, ne_eq, not_true, if_false, completed_id, bind, Except.bind]
  rfl

/-- The branch for a stored result closes the job without looking at its lease. -/
theorem completeResult_stored {job : ClaimVerificationJobRow} {existing : ClaimVerificationResultRow Id}
    (hp : result.status ≠ .verificationPending) (hm : result.status ≠ .manualReview)
    (hg : db.jobs.get jobId = some job) (hc : result.claimId = job.claimId)
    (he : db.results.get (verificationIdOf codec job.claimId job.provider result.toResultFields) = some existing)
    (ha : agrees existing ((completed codec job result now).enveloped existing) = true) :
    completeResult codec jobId workerId result now db =
      .ok ({ db with jobs := db.jobs.update (closed result.status job) }, ()) := by
  have hpers : persistVerificationResult ((completed codec job result now).enveloped existing) db.results =
      .ok db.results := by rw [persist_stored he, if_pos ha]
  rw [completeResult_eq hp hm hg hc, he]
  simp only [hpers]
  rfl

theorem completeResult_ok {u : Unit} (h : completeResult codec jobId workerId result now db = .ok (db', u)) :
    ∃ job, db.jobs.get jobId = some job ∧ result.claimId = job.claimId ∧ result.status ≠ .verificationPending ∧
      result.status ≠ .manualReview ∧ db'.jobs = db.jobs.update (closed result.status job) ∧
      ((∃ existing, db'.results = db.results ∧
          db.results.get (verificationIdOf codec job.claimId job.provider result.toResultFields) = some existing ∧
          agrees existing ((completed codec job result now).enveloped existing) = true) ∨
        holdsLease workerId now job = true ∧
          persistVerificationResult (completed codec job result now) db.results = .ok db'.results) := by
  by_cases hs : result.status = .verificationPending ∨ result.status = .manualReview
  · rw [completeResult, if_pos hs] at h
    cases h
  push Not at hs
  cases hg : db.jobs.get jobId with
  | none =>
    rw [completeResult, if_neg (by simp [hs]), getJob, hg] at h
    cases h
  | some job =>
    by_cases hc : result.claimId = job.claimId
    · refine ⟨job, rfl, hc, hs.1, hs.2, ?_⟩
      rw [completeResult_eq hs.1 hs.2 hg hc] at h
      split at h
      · rename_i existing he
        obtain ⟨results, hr, h⟩ := bind_eq_ok.mp h
        rw [persist_stored he] at hr
        cases h
        split at hr <;> cases hr
        exact ⟨rfl, .inl ⟨existing, rfl, he, ‹_›⟩⟩
      · obtain ⟨_, ho, h⟩ := bind_eq_ok.mp h
        obtain ⟨results, hr, h⟩ := bind_eq_ok.mp h
        cases h
        exact ⟨rfl, .inr ⟨assertOwner_ok.mp ho, hr⟩⟩
    · rw [completeResult, if_neg (by simp [hs]), getJob_ok.mpr hg] at h
      simp only [bind, Except.bind, if_pos hc] at h
      cases h

/-- A refresh closes a job and stores no result but the one of the completion. -/
theorem refreshResult_ok {prior : Bool} {publish : Except String Unit} {u : Unit}
    (h : refreshResult codec jobId workerId result prior publish now db = .ok (db', u)) :
    ∃ job, db.jobs.get jobId = some job ∧ result.status ≠ .verificationPending ∧
      db'.jobs = db.jobs.update (closed result.status job) ∧
      Table.Evolves (StoredResult codec) Eq db.results db'.results := by
  unfold refreshResult at h
  split at h
  · cases h
  rename_i hs
  obtain ⟨job, hg, h⟩ := bind_eq_ok.mp h
  refine ⟨job, getJob_ok.mp hg, fun hp => hs (.inl hp), ?_⟩
  dsimp only at h
  split at h
  · cases h
  rename_i hc
  cases he : db.results.get (completed codec job result now).verificationId with
  | none =>
    rw [he] at h
    simp only [Option.isSome_none, Bool.false_eq_true, if_false, Option.bind_none] at h
    split at h
    · cases h
    · obtain ⟨results, hr, h⟩ := bind_eq_ok.mp h
      obtain ⟨_, _, h⟩ := bind_eq_ok.mp h
      cases h
      exact ⟨rfl, persist_evolves hr fun _ => completed_sound codec (not_not.mp hc) now⟩
  | some existing =>
    -- Whatever the envelope, the write has the id that is stored.
    rw [he] at h
    simp only [Option.isSome_some, if_true] at h
    obtain ⟨results, hr, h⟩ := bind_eq_ok.mp h
    have hkept : results = db.results := persist_kept (by split <;> exact he) hr
    subst hkept
    split at h
    · cases h
      exact ⟨rfl, .refl (fun _ => rfl) _⟩
    · obtain ⟨results', hr', h⟩ := bind_eq_ok.mp h
      have hkept : results' = db.results := persist_kept (by split <;> exact he) hr'
      obtain ⟨_, _, h⟩ := bind_eq_ok.mp h
      cases h
      exact ⟨rfl, hkept ▸ .refl (fun _ => rfl) _⟩

/-- The result of a refresh is stored afterwards. -/
theorem refreshResult_present {prior : Bool} {publish : Except String Unit} {u : Unit} {job : ClaimVerificationJobRow}
    (hjob : db.jobs.get jobId = some job)
    (h : refreshResult codec jobId workerId result prior publish now db = .ok (db', u)) :
    (db'.results.get (completed codec job result now).verificationId).isSome = true := by
  unfold refreshResult at h
  split at h
  · cases h
  obtain ⟨stored, hstored, h⟩ := bind_eq_ok.mp h
  rw [getJob_ok, hjob] at hstored
  cases hstored
  dsimp only at h
  split at h
  · cases h
  have hpresent {values : ResultValues Id} {kept results : ResultTable Id}
      (hid : values.verificationId = (completed codec job result now).verificationId)
      (hr : persistVerificationResult values kept = .ok results) :
      (results.get (completed codec job result now).verificationId).isSome = true := hid ▸ persist_present hr
  split at h
  · obtain ⟨results, hr, h⟩ := bind_eq_ok.mp h
    split at h
    · cases h
      exact hpresent (by split <;> rfl) hr
    · obtain ⟨results', hr', h⟩ := bind_eq_ok.mp h
      obtain ⟨_, _, h⟩ := bind_eq_ok.mp h
      cases h
      exact hpresent (by split <;> rfl) hr'
  · split at h
    · cases h
    · obtain ⟨results, hr, h⟩ := bind_eq_ok.mp h
      obtain ⟨_, _, h⟩ := bind_eq_ok.mp h
      cases h
      exact hpresent (by split <;> rfl) hr

end Results

/-! The newest terminal result of a claim, read as of a time from rows in any order. -/

section Reads
variable {Id : Type} [LinearOrder Id]

/-- `payload.get("verification_rule_version") or row.verification_rule_version`. -/
def ClaimVerificationResultRow.ruleVersion (row : ClaimVerificationResultRow Id) : Option String :=
  if row.resultPayload.verificationRuleVersion = "" then row.verificationRuleVersion
  else some row.resultPayload.verificationRuleVersion

/-- `(available_at, created_at, verification_id)`. -/
def ClaimVerificationResultRow.readKey (row : ClaimVerificationResultRow Id) : Int ×ₗ Int ×ₗ Id :=
  toLex (row.availableAt.getD 0, toLex (row.createdAt, row.verificationId))

def terminalAsOf (claimId provider : String) (candidate : Time) (row : ClaimVerificationResultRow Id) : Bool :=
  row.claimId == claimId && row.provider == provider && row.status.terminal && row.availableAt.any (· ≤ candidate)

/-- `latest_terminal_as_of`; a policy version that is absent or empty is not asked for. -/
def latestTerminal (claimId provider : String) (asOf : DateTime) (policyVersion : Option String)
    (results : ResultTable Id) : Option (ClaimVerificationResultRow Id) :=
  let rows := results.select (terminalAsOf claimId provider asOf.utc) (fun a b => b.readKey ≤ a.readKey)
    results.rows.length
  rows.find? fun row => (policyVersion.filter (· ≠ "")).all fun version => row.ruleVersion = some version

omit [LinearOrder Id] in
theorem readKey_id {a b : ClaimVerificationResultRow Id} (h : a.readKey = b.readKey) :
    a.verificationId = b.verificationId :=
  congrArg (fun key : Int ×ₗ Int ×ₗ Id => (ofLex (ofLex key).2).2) h

/-- Only the rows that can be seen decide. -/
theorem latestTerminal_congr {claimId provider : String} {asOf : DateTime} {policyVersion : Option String}
    {results results' : ResultTable Id}
    (h : (results'.rows.filter (terminalAsOf claimId provider asOf.utc)).Perm
      (results.rows.filter (terminalAsOf claimId provider asOf.utc))) :
    latestTerminal claimId provider asOf policyVersion results' =
      latestTerminal claimId provider asOf policyVersion results := by
  have hrows := Table.select_all_perm (fun a b => decide (b.readKey ≤ a.readKey)) h
    (fun a b => by simpa using le_total b.readKey a.readKey)
    (fun a b c hab hbc => by simpa using le_trans (of_decide_eq_true hbc) (of_decide_eq_true hab))
    (fun a b hab hba => readKey_id (le_antisymm (of_decide_eq_true hba) (of_decide_eq_true hab)))
  rw [latestTerminal, hrows]
  rfl

/-- A result that is stored under an id and can be seen from a time on. -/
def availableRow (verificationId : String) (available : Time) : ClaimVerificationResultRow String :=
  { verificationId
    claimId := "claim-1"
    provider := "quant"
    status := .notRequired
    marketSnapshotId := none
    marketDataVersion := none
    resultPayload := { claimId := "claim-1", status := .notRequired }
    traceId := none
    factDate := none
    adjustment := none
    verificationTimestamp := none
    verificationRuleVersion := some "verification_rule.v1"
    verifiedAt := none
    availableAt := some available
    createdAt := available }

/-- Results that are available only later change nothing, wherever they are stored, and the
order in which the others are stored does not either. -/
theorem latest_terminal_stable (claimId provider : String) (asOf : DateTime) (policyVersion : Option String)
    {results results' : ResultTable Id} {more : List (ClaimVerificationResultRow Id)}
    (hmore : ∀ row ∈ more, ∃ available, row.availableAt = some available ∧ asOf.utc < available)
    (hp : results'.rows.Perm (results.rows ++ more)) :
    latestTerminal claimId provider asOf policyVersion results' =
      latestTerminal claimId provider asOf policyVersion results := by
  have hlater : more.filter (terminalAsOf claimId provider asOf.utc) = [] := by
    refine List.filter_eq_nil_iff.mpr fun row hm => ?_
    obtain ⟨available, havailable, hlt⟩ := hmore row hm
    simp [terminalAsOf, havailable, hlt]
  have hseen := hp.filter (terminalAsOf claimId provider asOf.utc)
  rw [List.filter_append, hlater, List.append_nil] at hseen
  exact latestTerminal_congr hseen

/-- A result of the second hour does not show in a read of the first. -/
theorem latest_terminal_ignores_later_row :
    latestTerminal "claim-1" "quant" (.ofUtc (seconds 3600)) none
        ⟨[availableRow "verification-b" (seconds 7200), availableRow "verification-a" (seconds 60)], by decide⟩ =
      latestTerminal "claim-1" "quant" (.ofUtc (seconds 3600)) none
        ⟨[availableRow "verification-a" (seconds 60)], by decide⟩ := by
  have hlater : ∀ row ∈ [availableRow "verification-b" (seconds 7200)],
      ∃ available, row.availableAt = some available ∧ (DateTime.ofUtc (seconds 3600)).utc < available :=
    List.forall_mem_singleton.mpr ⟨seconds 7200, rfl, by decide⟩
  exact latest_terminal_stable "claim-1" "quant" (.ofUtc (seconds 3600)) none hlater (.swap _ _ [])

omit [LinearOrder Id] in
theorem ruleVersion_stored {codec : ResultCodec Id} {row : ClaimVerificationResultRow Id} (h : StoredResult codec row) :
    row.ruleVersion = some row.resultPayload.verificationRuleVersion := by
  obtain ⟨values, hsound, rfl⟩ := h
  have hversion : values.row.verificationRuleVersion = some values.row.resultPayload.verificationRuleVersion :=
    congrArg (fun fields : ResultFields => some fields.verificationRuleVersion) hsound.payload
  rw [ClaimVerificationResultRow.ruleVersion, hversion, ite_self]

/-- What a plan reads of stored results is this: their payload says what their columns say. -/
theorem latestTerminalAsOf_eq {codec : ResultCodec Id} (hprecedes : ∀ a b, codec.precedes a b = decide (a ≤ b))
    {results : ResultTable Id} (hstored : results.All (StoredResult codec)) (claimId provider policyVersion : String)
    (candidate : Time) :
    latestTerminalAsOf codec claimId provider candidate policyVersion results =
      latestTerminal claimId provider (.ofUtc candidate) (some policyVersion) results := by
  have horder (a b : ClaimVerificationResultRow Id) :
      decide (a.availableAt.getD 0 > b.availableAt.getD 0 ∨ (a.availableAt.getD 0 = b.availableAt.getD 0 ∧
        (a.createdAt > b.createdAt ∨ (a.createdAt = b.createdAt ∧ codec.precedes b.verificationId a.verificationId)))) =
      decide (b.readKey ≤ a.readKey) := by
    simp only [hprecedes, decide_eq_true_eq, ClaimVerificationResultRow.readKey, Prod.Lex.toLex_le_toLex, gt_iff_lt,
      @eq_comm _ (a.availableAt.getD 0), @eq_comm _ a.createdAt]
  unfold latestTerminalAsOf latestTerminal
  simp only [horder, DateTime.utc_ofUtc]
  refine List.find?_congr fun row hm => ?_
  rw [ruleVersion_stored (hstored.of_mem (Table.mem_select hm).1)]
  by_cases hpolicy : policyVersion = "" <;> simp [hpolicy]

end Reads
end StockContent.Verification
