import StockContent.Verification.RefreshLeases

/-! The phases of a completion: where it goes, what it prepares, how its snapshot is stored
and what it publishes. The closure check belongs to the third one only. -/
namespace StockContent.Verification
open Storage

section Phases
variable {Id H B : Type} [DecidableEq Id] [DecidableEq H] (services : RefreshServices Id H B)

/-- What is in hand when the refreshed snapshot is persisted. -/
structure PreparedRefresh (Id H B : Type) where
  db : RefreshDb Id H B
  claim : FinancialClaim
  sourceHash : String
  head : Option ContentSourceHeadRow
  parent : ContentSnapshotRow
  isLockedHead : Bool
  verification : VerificationArtifact Id
  refreshed : ContentSnapshotRow

def prepareRefresh (c : Completion) (job : ClaimVerificationJobRow) (effective : VerificationResult)
    (values : ResultValues Id) (db : RefreshDb Id H B) : Except (JobError Id) (PreparedRefresh Id H B) := do
  hook c.failAt "result"
  let results ← persistVerificationResult values db.verification.results
  let other ← services.recordEvent job effective values.verificationId db.other
  let db := { db with verification := { db.verification with results }, other }
  let claim ← services.loadClaim job.claimId db.other
  let requested ← loadParentSnapshot services db c.parentSnapshotId
  let sourceHash := services.sourceHash (requested.sourceType ++ ":" ++ requested.sourceRef)
  let head := db.heads.get sourceHash
  let (parent, isLockedHead) ← selectParent services db job.claimId requested head
  requireClaim db parent job.claimId
  let entry ← (VerificationArtifactEntry.fromResult effective job.provider (some values.verificationId) none).mapError
    .validationError
  let verification := refreshedArtifact services db parent job.claimId (.entry entry)
  let artifacts ← persistArtifact services verification db.artifacts
  hook c.failAt "verification_artifact"
  let refreshed := buildRefreshSnapshot services parent
    { parent.artifactIds with verification := artifactIdOf services verification }
    (externalSnapshots parent effective.marketSnapshotId) (max c.now parent.createdAt)
  hook c.failAt "snapshot"
  return { db := { db with artifacts }, claim, sourceHash, head, parent, isLockedHead, verification, refreshed }

def publishRefresh (c : Completion) (job : ClaimVerificationJobRow) (effective : VerificationResult)
    (values : ResultValues Id) (prepared : PreparedRefresh Id H B) (db : RefreshDb Id H B) :
    Except (JobError Id) (RefreshDb Id H B × RefreshOutcome Id) := do
  hook c.failAt "snapshot_mapping"
  let signal ← services.buildSignal job prepared.refreshed prepared.claim effective
    (artifactIdOf services prepared.verification)
  hook c.failAt "signal"
  let (other, signalId) ← services.publishSignal signal prepared.refreshed prepared.claim effective c.now db.other
  hook c.failAt "outbox"
  let heads ← advanceHead prepared.sourceHash effective.status prepared.parent prepared.refreshed
    prepared.isLockedHead prepared.head db.heads
  let jobs := db.verification.jobs.update (closed effective.status job)
  return ({ db with verification := { db.verification with jobs }, other, heads },
    ⟨false, values.verificationId, prepared.refreshed.contentSnapshotId, signalId⟩)

/-- Where a completion goes: to the snapshot that shows its result already, or on to a new one. -/
inductive RefreshRoute (Id H B : Type) where
  | repeated (db : RefreshDb Id H B) (out : RefreshOutcome Id)
  | fresh (job : ClaimVerificationJobRow) (effective : VerificationResult) (values : ResultValues Id)
      (db : RefreshDb Id H B)

variable (codec : ResultCodec Id)

def routeRefresh (c : Completion) (db : RefreshDb Id H B) : Except (JobError Id) (RefreshRoute Id H B) :=
  if c.result.status = .verificationPending ∨ c.result.status = .notRequired then
    .error (.verificationJobIntegrity "verification refresh requires a terminal external result")
  else do
    let job ← getJob c.jobId db.verification.jobs
    if c.result.claimId ≠ job.claimId then
      .error (.verificationJobIntegrity "result claim does not match leased job")
    let values := completed codec job c.result c.now
    let existing := db.verification.results.get values.verificationId
    let effective := c.result.availableFrom (effectiveAvailableAt c existing)
    let values := { values with
      availableAt := some (effectiveAvailableAt c existing)
      resultPayload := effective.modelDump }
    if existing.isSome then
      let results ← persistVerificationResult values db.verification.results
      let checked := { db with verification := { db.verification with results } }
      match ← findSnapshotForResult services values.verificationId job.claimId checked with
      | some (snapshotId, signalId) =>
        let jobs := db.verification.jobs.update (closed effective.status job)
        return .repeated { checked with verification := { checked.verification with jobs } }
          ⟨true, values.verificationId, snapshotId, signalId⟩
      | none => return .fresh job effective values checked
    else if job.leaseOwner ≠ some c.workerId ∨ job.status ≠ .leased then
      .error (.verificationJobIntegrity "verification job lease owner mismatch")
    else return .fresh job effective values db

/-- A completion whose snapshot is stored by `persist`. -/
def completeWith (persist : ContentSnapshotRow → RefreshDb Id H B → Except (JobError Id) (RefreshDb Id H B))
    (c : Completion) (db : RefreshDb Id H B) : Except (JobError Id) (RefreshDb Id H B × RefreshOutcome Id) := do
  match ← routeRefresh services codec c db with
  | .repeated db out => return (db, out)
  | .fresh job effective values db =>
    let prepared ← prepareRefresh services c job effective values db
    let db ← persist prepared.refreshed prepared.db
    publishRefresh services c job effective values prepared db

/-- `persistSnapshot` up to its closure check. -/
def persistUnchecked (snapshot : ContentSnapshotRow) (db : RefreshDb Id H B) :
    Except (JobError Id) (RefreshDb Id H B) := do
  services.validateCandidate db snapshot
  match db.snapshots.insert snapshot with
  | some snapshots => return { db with snapshots }
  | none =>
    match db.snapshots.get snapshot.contentSnapshotId with
    | none => .error .integrityError
    | some existing =>
      services.validateSnapshot db existing
      if sameSnapshot existing snapshot then return db
      else .error (.valueError "snapshot id already stores a different payload")

theorem materialize_phases (c : Completion) (job : ClaimVerificationJobRow) (effective : VerificationResult)
    (values : ResultValues Id) (db : RefreshDb Id H B) :
    materialize services c job effective values db = (do
      let prepared ← prepareRefresh services c job effective values db
      let db ← persistSnapshot services prepared.refreshed prepared.db
      publishRefresh services c job effective values prepared db) := by
  simp only [materialize, prepareRefresh, publishRefresh, bind_assoc, pure_bind]

theorem complete_phases (c : Completion) (db : RefreshDb Id H B) :
    complete services codec c db = completeWith services codec (persistSnapshot services) c db := by
  unfold complete completeWith routeRefresh
  split
  · rfl
  · simp only [bind_assoc]
    apply bind_congr
    intro job
    split
    · rfl
    · split
      · simp only [bind_assoc]
        apply bind_congr
        intro results
        apply bind_congr
        intro prior
        cases prior with
        | some prior => rfl
        | none => exact materialize_phases services c job _ _ _
      · split
        · rfl
        · exact materialize_phases services c job _ _ _

end Phases

section Facts
variable {Id H B : Type} [DecidableEq Id] [DecidableEq H] {services : RefreshServices Id H B} {codec : ResultCodec Id}
  {c : Completion} {db db' : RefreshDb Id H B}

/-- What stands stored under the id of a submitted result. -/
def storedResult (codec : ResultCodec Id) (c : Completion) (job : ClaimVerificationJobRow) (db : RefreshDb Id H B) :
    Option (ClaimVerificationResultRow Id) :=
  db.verification.results.get (completed codec job c.result c.now).verificationId

omit [DecidableEq H] in
theorem route_repeated {out : RefreshOutcome Id} (h : routeRefresh services codec c db = .ok (.repeated db' out)) :
    out.idempotent = true ∧ ∃ verification, db' = { db with verification } := by
  unfold routeRefresh at h
  split at h
  · cases h
  obtain ⟨job, _, h⟩ := bind_eq_ok.mp h
  dsimp only at h
  split at h
  · cases h
  split at h
  · obtain ⟨results, _, h⟩ := bind_eq_ok.mp h
    obtain ⟨prior, _, h⟩ := bind_eq_ok.mp h
    cases prior with
    | some prior =>
      cases h
      exact ⟨rfl, _, rfl⟩
    | none => cases h
  · split at h <;> cases h

omit [DecidableEq H] in
/-- On the way to a new snapshot nothing is written yet. -/
theorem route_fresh {job : ClaimVerificationJobRow} {effective : VerificationResult} {values : ResultValues Id}
    (h : routeRefresh services codec c db = .ok (.fresh job effective values db')) :
    db' = db ∧ c.result.status ≠ .verificationPending ∧ db.verification.jobs.get c.jobId = some job ∧
      c.result.claimId = job.claimId ∧
      effective = c.result.availableFrom (effectiveAvailableAt c (storedResult codec c job db)) ∧
      values = { completed codec job c.result c.now with
        availableAt := some (effectiveAvailableAt c (storedResult codec c job db))
        resultPayload := effective.modelDump } := by
  unfold routeRefresh at h
  split at h
  · cases h
  rename_i hstatus
  obtain ⟨job', hjob, h⟩ := bind_eq_ok.mp h
  have hget := getJob_ok.mp hjob
  have hpending : c.result.status ≠ .verificationPending := fun hp => hstatus (.inl hp)
  dsimp only at h
  split at h
  · cases h
  rename_i hclaim
  split at h
  · rename_i hexisting
    obtain ⟨row, hrow⟩ := Option.isSome_iff_exists.mp hexisting
    obtain ⟨results, hresults, h⟩ := bind_eq_ok.mp h
    obtain ⟨prior, _, h⟩ := bind_eq_ok.mp h
    have hkept : results = db.verification.results := persist_kept (by exact hrow) hresults
    subst hkept
    cases prior with
    | some prior => cases h
    | none =>
      cases h
      exact ⟨rfl, hpending, hget, not_not.mp hclaim, rfl, rfl⟩
  · split at h
    · cases h
    · cases h
      exact ⟨rfl, hpending, hget, not_not.mp hclaim, rfl, rfl⟩

omit [DecidableEq Id] [DecidableEq H] in
theorem selectParent_stored {claimId : String} {requested parent : ContentSnapshotRow} {isLockedHead : Bool}
    {head : Option ContentSourceHeadRow}
    (h : selectParent services db claimId requested head = .ok (parent, isLockedHead))
    (hrequested : requested ∈ db.snapshots.rows) : parent ∈ db.snapshots.rows := by
  cases head with
  | none =>
    cases h
    exact hrequested
  | some head =>
    rw [selectParent] at h
    split at h
    · split at h
      · cases h
      · rename_i row hrow
        obtain ⟨current, hcurrent, h⟩ := bind_eq_ok.mp h
        obtain ⟨_, _, hcurrent⟩ := bind_eq_ok.mp hcurrent
        cases hcurrent
        split at h
        · cases h
          exact Table.mem_of_get hrow
        · cases h
          exact hrequested
    · cases h
      exact hrequested

variable {job : ClaimVerificationJobRow} {effective : VerificationResult} {values : ResultValues Id}
  {prepared : PreparedRefresh Id H B}

/-- What is prepared: the stored result, and the parent's artifact with the new entry merged in. -/
theorem prepare_ok (h : prepareRefresh services c job effective values db = .ok prepared) :
    ∃ results entry, persistVerificationResult values db.verification.results = .ok results ∧
      prepared.parent ∈ db.snapshots.rows ∧
      VerificationArtifactEntry.fromResult effective job.provider (some values.verificationId) none = .ok entry ∧
      persistArtifact services (refreshedArtifact services db prepared.parent job.claimId (.entry entry)) db.artifacts =
        .ok prepared.db.artifacts ∧
      prepared.db.verification = { db.verification with results } ∧ prepared.db.snapshots = db.snapshots ∧
      prepared.refreshed.artifactIds.verification = artifactIdOf services
        (refreshedArtifact services db prepared.parent job.claimId (.entry entry)) ∧
      prepared.refreshed.createdAt = max c.now prepared.parent.createdAt := by
  unfold prepareRefresh at h
  obtain ⟨_, _, h⟩ := bind_eq_ok.mp h
  obtain ⟨results, hresults, h⟩ := bind_eq_ok.mp h
  obtain ⟨other, _, h⟩ := bind_eq_ok.mp h
  obtain ⟨claim, _, h⟩ := bind_eq_ok.mp h
  obtain ⟨requested, hrequested, h⟩ := bind_eq_ok.mp h
  obtain ⟨⟨parent, isLockedHead⟩, hparent, h⟩ := bind_eq_ok.mp h
  obtain ⟨requestedId, hid, hget⟩ := loadParentSnapshot_ok hrequested
  have hstored := selectParent_stored hparent (Table.mem_of_get hget)
  dsimp only at h
  obtain ⟨_, _, h⟩ := bind_eq_ok.mp h
  obtain ⟨entry, hentry, h⟩ := bind_eq_ok.mp h
  obtain ⟨artifacts, hartifacts, h⟩ := bind_eq_ok.mp h
  obtain ⟨_, _, h⟩ := bind_eq_ok.mp h
  obtain ⟨_, _, h⟩ := bind_eq_ok.mp h
  cases h
  exact ⟨results, entry, hresults, hstored, mapError_eq_ok.mp hentry,
    hartifacts, rfl, rfl, rfl, rfl⟩

omit [DecidableEq Id] [DecidableEq H] in
theorem publish_ok {out : RefreshOutcome Id} {published : RefreshDb Id H B}
    (h : publishRefresh services c job effective values prepared db = .ok (published, out)) :
    published.snapshots = db.snapshots ∧ published.artifacts = db.artifacts ∧
      published.verification = { db.verification with jobs := db.verification.jobs.update (closed effective.status job) } ∧
      out.idempotent = false ∧ out.snapshotId = prepared.refreshed.contentSnapshotId := by
  unfold publishRefresh at h
  obtain ⟨_, _, h⟩ := bind_eq_ok.mp h
  obtain ⟨signal, _, h⟩ := bind_eq_ok.mp h
  obtain ⟨_, _, h⟩ := bind_eq_ok.mp h
  obtain ⟨⟨other, signalId⟩, _, h⟩ := bind_eq_ok.mp h
  obtain ⟨_, _, h⟩ := bind_eq_ok.mp h
  obtain ⟨heads, _, h⟩ := bind_eq_ok.mp h
  cases h
  exact ⟨rfl, rfl, rfl, rfl, rfl⟩

variable {snapshot : ContentSnapshotRow}

omit [DecidableEq Id] [DecidableEq H] in
/-- A snapshot is new, or it stands stored as it is. -/
theorem unchecked_ok (h : persistUnchecked services snapshot db = .ok db') :
    (∃ snapshots, db.snapshots.insert snapshot = some snapshots ∧ db' = { db with snapshots }) ∨
      ∃ existing, db.snapshots.insert snapshot = none ∧
        db.snapshots.get snapshot.contentSnapshotId = some existing ∧ sameSnapshot existing snapshot = true ∧ db' = db := by
  unfold persistUnchecked at h
  obtain ⟨_, _, h⟩ := bind_eq_ok.mp h
  split at h
  · rename_i snapshots hinsert
    cases h
    exact .inl ⟨snapshots, hinsert, rfl⟩
  · rename_i hinsert
    split at h
    · cases h
    · rename_i existing hget
      obtain ⟨_, _, h⟩ := bind_eq_ok.mp h
      split at h
      · rename_i hsame
        cases h
        exact .inr ⟨existing, hinsert, hget, hsame, rfl⟩
      · cases h

omit [DecidableEq H] in
theorem persistSnapshot_eq (snapshot : ContentSnapshotRow) (db : RefreshDb Id H B) :
    persistSnapshot services snapshot db = (do
      let db' ← persistUnchecked services snapshot db
      if db.snapshots.insert snapshot = none then return db'
      validateRefreshClosure services db' snapshot
      return db') := by
  unfold persistSnapshot persistUnchecked
  rw [bind_assoc]
  apply bind_congr
  intro _
  cases hinsert : db.snapshots.insert snapshot with
  | some snapshots => simp
  | none =>
    cases db.snapshots.get snapshot.contentSnapshotId with
    | none => rfl
    | some existing =>
      dsimp only
      rw [bind_assoc]
      apply bind_congr
      intro _
      split <;> rfl

end Facts
end StockContent.Verification
