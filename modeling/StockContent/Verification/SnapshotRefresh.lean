import StockContent.Storage.StableMembership
import StockContent.Verification.InitialPlan

/-! Verification refresh: completing a job publishes a new snapshot of the same source,
with the result merged into the verification artifact of the source head. -/
namespace StockContent.Verification
open Storage

deriving instance DecidableEq for VerificationResult
deriving instance DecidableEq for VerificationArtifactEntry

/-- A member of a verification artifact. Legacy artifacts keep bare results. -/
inductive VerificationItem (Id : Type) where
  | bare (result : VerificationResult)
  | entry (entry : VerificationArtifactEntry Id)
  deriving DecidableEq

structure VerificationArtifact (Id : Type) where
  claimArtifactId : String
  results : List (VerificationItem Id)
  parentArtifactIds : List String
  deriving DecidableEq

section Items
variable {Id : Type}

def VerificationItem.claimId : VerificationItem Id → String
  | .bare result => result.claimId
  | .entry e => e.claimId

/-- The result fields of an item's payload. A pending entry has none. -/
def VerificationItem.payload : VerificationItem Id → Option ResultFields
  | .bare result => some result.modelDump
  | .entry e => e.result.map VerificationResult.modelDump

/-- A result as it reads after it was stored as text. -/
def VerificationResult.canonical (result : VerificationResult) : VerificationResult :=
  ⟨{ result.toResultFields with referenceValue := result.referenceValue.canonical }, result.binding⟩

def VerificationArtifactEntry.canonical (entry : VerificationArtifactEntry Id) : VerificationArtifactEntry Id :=
  { entry with
    result := entry.result.map VerificationResult.canonical
    enclosed := fun r hr => by
      obtain ⟨result, hresult, rfl⟩ := Option.map_eq_some_iff.mp hr
      exact entry.enclosed result hresult }

/-- Two items have one text exactly when they have one canonical form. -/
def VerificationItem.canonical : VerificationItem Id → VerificationItem Id
  | .bare result => .bare result.canonical
  | .entry e => .entry e.canonical

@[simp] theorem VerificationItem.canonical_claimId (item : VerificationItem Id) :
    item.canonical.claimId = item.claimId := by
  cases item <;> rfl

@[simp] theorem VerificationResult.canonical_canonical (result : VerificationResult) :
    result.canonical.canonical = result.canonical := by
  simp [VerificationResult.canonical]

@[simp] theorem VerificationItem.canonical_canonical (item : VerificationItem Id) :
    item.canonical.canonical = item.canonical := by
  cases item with
  | bare result => simp [VerificationItem.canonical]
  | entry e =>
    cases hresult : e.result <;> simp [VerificationItem.canonical, VerificationArtifactEntry.canonical, hresult]

def VerificationArtifact.canonical (artifact : VerificationArtifact Id) : VerificationArtifact Id :=
  { artifact with results := artifact.results.map VerificationItem.canonical }

end Items

/-- The slots of a snapshot's artifacts that a refresh reads; an empty id is no artifact. -/
structure ArtifactIds where
  claims : String
  verification : String
  others : List (String × String) := []
  deriving DecidableEq

/-- What a snapshot id is computed from. `provenance` are the versions, hashes and
manifests that a refresh carries over. -/
structure SnapshotIdentity where
  artifactIds : ArtifactIds
  quantMarketSnapshotIds : List String := []
  externalSnapshots : List String := []
  snapshotKind : String := "INITIAL"
  parentSnapshotId : Option String := none
  supersedesSnapshotId : Option String := none
  provenance : Json := .null
  deriving DecidableEq

structure ContentSnapshotRow extends SnapshotIdentity where
  contentSnapshotId : String
  sourceType : String
  sourceRef : String
  createdAt : Time
  deriving DecidableEq

structure ContentArtifactRow (Id H : Type) where
  artifactId : String
  contentHash : H
  artifact : VerificationArtifact Id

structure ContentSourceHeadRow where
  sourceIdentityHash : String
  latestSnapshotId : String
  latestVerifiedSnapshotId : Option String
  updatedAt : Time
  deriving DecidableEq

abbrev ArtifactTable (Id H : Type) := Table (@ContentArtifactRow.artifactId Id H)
abbrev SnapshotTable := Table ContentSnapshotRow.contentSnapshotId
abbrev HeadTable := Table ContentSourceHeadRow.sourceIdentityHash

/-- `members` are the claims of the claim artifacts; `other` are the tables that a refresh
writes for other readers, the claim ledger and the signal outbox. -/
structure RefreshDb (Id H B : Type) where
  verification : VerificationDb Id
  artifacts : ArtifactTable Id H
  snapshots : SnapshotTable
  members : List (String × String)
  heads : HeadTable
  other : B

/-- What a refresh takes from elsewhere: hashes (`prefix32` is the start of one), the order of
item texts, the integrity checks of stored and of new snapshots, and the ledger, claims and
signals. -/
structure RefreshServices (Id H B : Type) where
  contentHash : VerificationArtifact Id → H
  prefix32 : H → String
  snapshotHash : SnapshotIdentity → String
  sourceHash : String → String
  precedes : VerificationItem Id → VerificationItem Id → Bool
  validateSnapshot : RefreshDb Id H B → ContentSnapshotRow → Except (JobError Id) Unit
  validateCandidate : RefreshDb Id H B → ContentSnapshotRow → Except (JobError Id) Unit
  recordEvent : ClaimVerificationJobRow → VerificationResult → Id → B → Except (JobError Id) B
  loadClaim : String → B → Except (JobError Id) FinancialClaim
  buildSignal : ClaimVerificationJobRow → ContentSnapshotRow → FinancialClaim → VerificationResult → String →
    Except (JobError Id) Json
  publishSignal : Json → ContentSnapshotRow → FinancialClaim → VerificationResult → Time → B →
    Except (JobError Id) (B × Option String)
  signalOf : String → String → B → Option String

structure Completion where
  jobId : String
  workerId : String
  result : VerificationResult
  parentSnapshotId : Option String := none
  now : Time
  /-- Where an injected failure strikes. -/
  failAt : Option String := none

structure RefreshOutcome (Id : Type) where
  idempotent : Bool
  verificationId : Id
  snapshotId : String
  signalId : Option String
  deriving DecidableEq

section Artifacts
variable {Id H B : Type} [DecidableEq Id] [DecidableEq H] (services : RefreshServices Id H B)

/-- The constructor keeps each text once, in the order of the texts. -/
def verificationArtifact (claimArtifactId : String) (results : List (VerificationItem Id))
    (parentArtifactIds : List String) : VerificationArtifact Id :=
  ⟨claimArtifactId, stableMembership VerificationItem.canonical services.precedes results, parentArtifactIds⟩

def deserializeArtifact (stored : VerificationArtifact Id) : VerificationArtifact Id :=
  verificationArtifact services stored.claimArtifactId stored.results stored.parentArtifactIds

def artifactIdOf (artifact : VerificationArtifact Id) : String :=
  "verification-" ++ services.prefix32 (services.contentHash artifact.canonical)

def artifactRow (artifact : VerificationArtifact Id) : ContentArtifactRow Id H :=
  ⟨artifactIdOf services artifact, services.contentHash artifact.canonical, artifact.canonical⟩

def persistArtifact (artifact : VerificationArtifact Id) (artifacts : ArtifactTable Id H) :
    Except (JobError Id) (ArtifactTable Id H) :=
  match artifacts.insert (artifactRow services artifact) with
  | some artifacts => .ok artifacts
  | none =>
    match artifacts.get (artifactIdOf services artifact) with
    | some row =>
      if row.contentHash ≠ services.contentHash artifact.canonical then
        .error (.valueError "verification artifact id conflict")
      else .ok artifacts
    | none => .error .integrityError

/-- The first entry of the claim is replaced, further ones are dropped, and a claim without
an entry gets one at the end. -/
def mergeResult (item : VerificationItem Id) (claimId : String) (replaced : Bool) :
    List (VerificationItem Id) → List (VerificationItem Id)
  | [] => if replaced then [] else [item]
  | prior :: rest =>
    if prior.claimId = claimId then
      if replaced then mergeResult item claimId true rest else item :: mergeResult item claimId true rest
    else prior :: mergeResult item claimId replaced rest

end Artifacts

section Snapshots
variable {Id H B : Type} [DecidableEq Id] [DecidableEq H] (services : RefreshServices Id H B)

def snapshotContainsClaim (db : RefreshDb Id H B) (snapshot : ContentSnapshotRow) (claimId : String) : Bool :=
  snapshot.artifactIds.claims != "" && db.members.contains (snapshot.artifactIds.claims, claimId)

def rowToSnapshot (db : RefreshDb Id H B) (row : ContentSnapshotRow) : Except (JobError Id) ContentSnapshotRow := do
  services.validateSnapshot db row
  return row

def loadParentSnapshot (db : RefreshDb Id H B) (snapshotId : Option String) :
    Except (JobError Id) ContentSnapshotRow :=
  match snapshotId.filter (· ≠ "") with
  | none => .error (.valueError "parent_snapshot_id is required for verification refresh")
  | some snapshotId =>
    match db.snapshots.get snapshotId with
    | none => .error (.keyError "parent content snapshot not found")
    | some row => rowToSnapshot services db row

/-- The stored artifact in a snapshot's verification slot. -/
def snapshotArtifact (db : RefreshDb Id H B) (snapshot : ContentSnapshotRow) : Option (ContentArtifactRow Id H) :=
  if snapshot.artifactIds.verification = "" then none else db.artifacts.get snapshot.artifactIds.verification

def showsResult (expected : ResultFields) (claimId : String) (db : RefreshDb Id H B) (row : ContentSnapshotRow) :
    Bool :=
  snapshotContainsClaim db row claimId && (snapshotArtifact db row).any fun stored =>
    stored.artifact.results.any fun item =>
      item.claimId == claimId && item.payload.any (·.sameText expected)

/-- The snapshots are read until one shows the result, and each that is read is validated. -/
def firstShowing (expected : ResultFields) (claimId : String) (db : RefreshDb Id H B) :
    List ContentSnapshotRow → Except (JobError Id) (Option ContentSnapshotRow)
  | [] => .ok none
  | row :: rows => do
    let snapshot ← rowToSnapshot services db row
    if showsResult expected claimId db snapshot then return some snapshot
    firstShowing expected claimId db rows

def findSnapshotForResult (verificationId : Id) (claimId : String) (db : RefreshDb Id H B) :
    Except (JobError Id) (Option (String × Option String)) :=
  match db.verification.results.get verificationId with
  | none => .ok none
  | some result =>
    if result.claimId ≠ claimId then .ok none
    else do
      let prior ← firstShowing services result.resultPayload claimId db
        (db.snapshots.rows.insertionSort fun a b => b.createdAt ≤ a.createdAt)
      return prior.map fun snapshot =>
        (snapshot.contentSnapshotId, services.signalOf snapshot.contentSnapshotId claimId db.other)

/-- The requested parent, unless the locked head of its source moved on to a snapshot that
also contains the claim. The flag says that the parent is the locked head. -/
def selectParent (db : RefreshDb Id H B) (claimId : String) (requested : ContentSnapshotRow) :
    Option ContentSourceHeadRow → Except (JobError Id) (ContentSnapshotRow × Bool)
  | none => .ok (requested, false)
  | some head =>
    if head.latestSnapshotId ≠ requested.contentSnapshotId then
      match db.snapshots.get head.latestSnapshotId with
      | none => .error (.verificationJobIntegrity "source head points to missing snapshot")
      | some row => do
        let current ← rowToSnapshot services db row
        return if snapshotContainsClaim db current claimId then (current, true) else (requested, false)
    else .ok (requested, true)

/-- `build_content_snapshot` with the fields of the parent; `external` are the market snapshots. -/
def buildRefreshSnapshot (parent : ContentSnapshotRow) (artifactIds : ArtifactIds) (external : List String)
    (createdAt : Time) : ContentSnapshotRow :=
  let identity : SnapshotIdentity :=
    { artifactIds
      quantMarketSnapshotIds := sortedSet external
      externalSnapshots := sortedSet external
      snapshotKind := "VERIFICATION_REFRESH"
      parentSnapshotId := some parent.contentSnapshotId
      supersedesSnapshotId := some parent.contentSnapshotId
      provenance := parent.provenance }
  { identity with
    contentSnapshotId := "cs-" ++ services.snapshotHash identity
    sourceType := parent.sourceType
    sourceRef := parent.sourceRef
    createdAt }

def externalSnapshots (parent : ContentSnapshotRow) (marketSnapshotId : Option String) : List String :=
  let external :=
    if parent.externalSnapshots.isEmpty then parent.quantMarketSnapshotIds else parent.externalSnapshots
  match marketSnapshotId.filter (· ≠ "") with
  | none => external
  | some snapshotId => if external.contains snapshotId then external else external ++ [snapshotId]

/-- Equality of snapshots as text, apart from the time of creation. -/
def sameSnapshot (a b : ContentSnapshotRow) : Bool :=
  let text (row : ContentSnapshotRow) : ContentSnapshotRow :=
    { row with
      artifactIds := { row.artifactIds with others := row.artifactIds.others.insertionSort (·.1 ≤ ·.1) }
      provenance := row.provenance.canonical
      createdAt := 0 }
  text a == text b

/-- The entries of a new snapshot's artifact are checked against the rows they name. -/
def validateRefreshClosure (db : RefreshDb Id H B) (snapshot : ContentSnapshotRow) : Except (JobError Id) Unit :=
  match snapshotArtifact db snapshot with
  | none => .ok ()
  | some stored =>
    let entries := (deserializeArtifact services stored.artifact).results.filterMap fun
      | .entry entry => some entry
      | .bare _ => none
    (verifyInitialVerificationClosure entries snapshot.createdAt db.verification).mapError .valueError

def persistSnapshot (snapshot : ContentSnapshotRow) (db : RefreshDb Id H B) :
    Except (JobError Id) (RefreshDb Id H B) := do
  services.validateCandidate db snapshot
  match db.snapshots.insert snapshot with
  | some snapshots =>
    let db := { db with snapshots }
    validateRefreshClosure services db snapshot
    return db
  | none =>
    match db.snapshots.get snapshot.contentSnapshotId with
    | none => .error .integrityError
    | some existing =>
      services.validateSnapshot db existing
      if sameSnapshot existing snapshot then return db
      else .error (.valueError "snapshot id already stores a different payload")

/-- A head gives way to a later snapshot, and at equal times to a greater id. -/
def headIsNewer (new old : ContentSourceHeadRow) : Prop :=
  old.updatedAt < new.updatedAt ∨ (new.updatedAt = old.updatedAt ∧ old.latestSnapshotId < new.latestSnapshotId)

instance (new old : ContentSourceHeadRow) : Decidable (headIsNewer new old) := inferInstanceAs (Decidable (_ ∨ _))

def mergedHead (new old : ContentSourceHeadRow) : ContentSourceHeadRow :=
  { old with
    latestSnapshotId := if headIsNewer new old then new.latestSnapshotId else old.latestSnapshotId
    updatedAt := if headIsNewer new old then new.updatedAt else old.updatedAt
    latestVerifiedSnapshotId :=
      if new.latestVerifiedSnapshotId.isSome ∧ (old.latestVerifiedSnapshotId = none ∨ headIsNewer new old) then
        new.latestVerifiedSnapshotId
      else old.latestVerifiedSnapshotId }

def upsertSourceHead (row : ContentSourceHeadRow) (heads : HeadTable) : HeadTable :=
  match heads.insert row with
  | some heads => heads
  | none => heads.modify row.sourceIdentityHash (mergedHead row) fun _ => rfl

def showsVerified (status : ResultStatus) : Bool := status == .verified || status == .partiallyVerified

def advanced (status : ResultStatus) (refreshed : ContentSnapshotRow) (head : ContentSourceHeadRow) :
    ContentSourceHeadRow :=
  { head with
    latestSnapshotId := refreshed.contentSnapshotId
    updatedAt := refreshed.createdAt
    latestVerifiedSnapshotId :=
      if showsVerified status then some refreshed.contentSnapshotId else head.latestVerifiedSnapshotId }

@[simp] theorem advanced_sourceIdentityHash (status : ResultStatus) (refreshed : ContentSnapshotRow)
    (head : ContentSourceHeadRow) :
    (advanced status refreshed head).sourceIdentityHash = head.sourceIdentityHash := rfl

/-- A head that was not merged into stays where it is. -/
def advanceHead (sourceHash : String) (status : ResultStatus) (parent refreshed : ContentSnapshotRow)
    (isLockedHead : Bool) (head : Option ContentSourceHeadRow) (heads : HeadTable) :
    Except (JobError Id) HeadTable :=
  match head with
  | some head =>
    if isLockedHead then
      if head.latestSnapshotId ≠ parent.contentSnapshotId then
        .error (.verificationJobIntegrity "source head changed during locked refresh")
      else .ok (heads.modify sourceHash (advanced status refreshed) (advanced_sourceIdentityHash status refreshed))
    else .ok heads
  | none => .ok (upsertSourceHead
      { sourceIdentityHash := sourceHash
        latestSnapshotId := refreshed.contentSnapshotId
        latestVerifiedSnapshotId := if showsVerified status then some refreshed.contentSnapshotId else none
        updatedAt := refreshed.createdAt } heads)

end Snapshots

section Complete
variable {Id H B : Type} [DecidableEq Id] [DecidableEq H] (services : RefreshServices Id H B)

def hook (failAt : Option String) (name : String) : Except (JobError Id) Unit :=
  if failAt = some name then .error (.runtimeError name) else .ok ()

def requireClaim (db : RefreshDb Id H B) (parent : ContentSnapshotRow) (claimId : String) :
    Except (JobError Id) Unit :=
  if snapshotContainsClaim db parent claimId then .ok ()
  else .error (.verificationJobIntegrity "parent snapshot does not contain the leased claim")

/-- The artifact of a refresh: the whole batch of the parent with this result merged in. -/
def refreshedArtifact (db : RefreshDb Id H B) (parent : ContentSnapshotRow) (claimId : String)
    (item : VerificationItem Id) : VerificationArtifact Id :=
  let stored := (snapshotArtifact db parent).map fun row => deserializeArtifact services row.artifact
  verificationArtifact services (stored.elim "" (·.claimArtifactId))
    (mergeResult item claimId false (stored.elim [] (·.results)))
    (if parent.artifactIds.verification = "" then [] else [parent.artifactIds.verification])

/-- The part of a completion that writes a snapshot. -/
def materialize (c : Completion) (job : ClaimVerificationJobRow) (effective : VerificationResult)
    (values : ResultValues Id) (db : RefreshDb Id H B) :
    Except (JobError Id) (RefreshDb Id H B × RefreshOutcome Id) := do
  hook c.failAt "result"
  let results ← persistVerificationResult values db.verification.results
  let other ← services.recordEvent job effective values.verificationId db.other
  let db := { db with verification := { db.verification with results }, other }
  let claim ← services.loadClaim job.claimId db.other
  let requested ← loadParentSnapshot services db c.parentSnapshotId
  let sourceHash := services.sourceHash (requested.sourceType ++ ":" ++ requested.sourceRef)
  let head := db.heads.get sourceHash
  let (parent, isLockedHead) ← selectParent services db job.claimId requested head
  requireClaim db parent job.claimId
  let entry ← (VerificationArtifactEntry.fromResult effective job.provider (some values.verificationId) none).mapError
    .validationError
  let verification := refreshedArtifact services db parent job.claimId (.entry entry)
  let artifacts ← persistArtifact services verification db.artifacts
  let db := { db with artifacts }
  hook c.failAt "verification_artifact"
  let refreshed := buildRefreshSnapshot services parent
    { parent.artifactIds with verification := artifactIdOf services verification }
    (externalSnapshots parent effective.marketSnapshotId) (max c.now parent.createdAt)
  hook c.failAt "snapshot"
  let db ← persistSnapshot services refreshed db
  hook c.failAt "snapshot_mapping"
  let signal ← services.buildSignal job refreshed claim effective (artifactIdOf services verification)
  hook c.failAt "signal"
  let (other, signalId) ← services.publishSignal signal refreshed claim effective c.now db.other
  hook c.failAt "outbox"
  let heads ← advanceHead sourceHash effective.status parent refreshed isLockedHead head db.heads
  let jobs := db.verification.jobs.update (closed effective.status job)
  return ({ db with verification := { db.verification with jobs }, other, heads },
    ⟨false, values.verificationId, refreshed.contentSnapshotId, signalId⟩)

variable (codec : ResultCodec Id)

/-- A stored envelope is reused: the first completion owns the time of availability. -/
def effectiveAvailableAt (c : Completion) (existing : Option (ClaimVerificationResultRow Id)) : Time :=
  (existing.bind (·.availableAt)).getD (resultAvailableAt c.result.toResultFields c.now)

def complete (c : Completion) (db : RefreshDb Id H B) :
    Except (JobError Id) (RefreshDb Id H B × RefreshOutcome Id) :=
  if c.result.status = .verificationPending ∨ c.result.status = .notRequired then
    .error (.verificationJobIntegrity "verification refresh requires a terminal external result")
  else do
    let job ← getJob c.jobId db.verification.jobs
    if c.result.claimId ≠ job.claimId then
      .error (.verificationJobIntegrity "result claim does not match leased job")
    let values := completed codec job c.result c.now
    let existing := db.verification.results.get values.verificationId
    let effective := c.result.availableFrom (effectiveAvailableAt c existing)
    let values := { values with
      availableAt := some (effectiveAvailableAt c existing)
      resultPayload := effective.modelDump }
    if existing.isSome then
      let results ← persistVerificationResult values db.verification.results
      let checked := { db with verification := { db.verification with results } }
      match ← findSnapshotForResult services values.verificationId job.claimId checked with
      | some (snapshotId, signalId) =>
        -- A result that some snapshot shows is not merged again, whatever the head shows by now.
        let jobs := db.verification.jobs.update (closed effective.status job)
        return ({ checked with verification := { checked.verification with jobs } },
          ⟨true, values.verificationId, snapshotId, signalId⟩)
      | none => materialize services c job effective values checked
    else if job.leaseOwner ≠ some c.workerId ∨ job.status ≠ .leased then
      .error (.verificationJobIntegrity "verification job lease owner mismatch")
    else materialize services c job effective values db

end Complete
end StockContent.Verification
