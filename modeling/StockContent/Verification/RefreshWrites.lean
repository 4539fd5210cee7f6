import StockContent.Verification.PlanWrites
import StockContent.Verification.SnapshotRefresh

/-! What one completion writes: the merged artifact, the snapshot that shows it, and the head
of its source. -/
namespace StockContent.Verification
open Storage

section Results
variable {Id H B : Type} [DecidableEq Id] [DecidableEq H] {services : RefreshServices Id H B}

variable (services) in
/-- The source that a snapshot's head is stored under. -/
def sourceOf (snapshot : ContentSnapshotRow) : String :=
  services.sourceHash (snapshot.sourceType ++ ":" ++ snapshot.sourceRef)

variable (services) in
/-- The results that a snapshot shows, as they are read. -/
def shownResults (db : RefreshDb Id H B) (snapshot : ContentSnapshotRow) : List (VerificationItem Id) :=
  ((snapshotArtifact db snapshot).map fun row => deserializeArtifact services row.artifact).elim [] (·.results)

/-- The snapshot that a source head points to. -/
def headSnapshot (sourceHash : String) (db : RefreshDb Id H B) : Option ContentSnapshotRow :=
  (db.heads.get sourceHash).bind fun head => db.snapshots.get head.latestSnapshotId

variable (services) in
/-- What the head of a source shows about a claim, as texts. -/
def headEntries (sourceHash : String) (db : RefreshDb Id H B) (claimId : String) : Set (VerificationItem Id) :=
  { item | ∃ snapshot, headSnapshot sourceHash db = some snapshot ∧
    item ∈ (shownResults services db snapshot).map VerificationItem.canonical ∧ item.claimId = claimId }

omit [DecidableEq Id] in
theorem mem_mergeResult {item : VerificationItem Id} {claimId : String} {replaced : Bool}
    {priors : List (VerificationItem Id)} {x : VerificationItem Id} :
    x ∈ mergeResult item claimId replaced priors ↔
      (x ∈ priors ∧ x.claimId ≠ claimId) ∨ (x = item ∧ replaced = false) := by
  induction priors generalizing replaced with
  | nil => cases replaced <;> simp [mergeResult]
  | cons prior rest ih =>
    rw [mergeResult, List.mem_cons]
    split
    · rename_i hprior
      have hother : x.claimId ≠ claimId → x ≠ prior := fun hne heq => hne (heq ▸ hprior)
      cases replaced with
      | true =>
        rw [if_pos rfl, ih]
        grind
      | false =>
        rw [if_neg Bool.false_ne_true, List.mem_cons, ih]
        grind
    · rename_i hprior
      rw [List.mem_cons, ih]
      grind

omit [DecidableEq H] in
/-- Reading back a stored artifact keeps its texts. -/
theorem mem_deserialized {stored : VerificationArtifact Id} {item : VerificationItem Id} :
    item ∈ (deserializeArtifact services stored).results.map VerificationItem.canonical ↔
      item ∈ stored.canonical.results :=
  mem_keys_stableMembership

omit [DecidableEq H] in
theorem mem_refreshedArtifact {db : RefreshDb Id H B} {parent : ContentSnapshotRow} {claimId : String}
    {entry item : VerificationItem Id} (hentry : entry.claimId = claimId) :
    item ∈ (refreshedArtifact services db parent claimId entry).canonical.results ↔
      (item ∈ (shownResults services db parent).map VerificationItem.canonical ∧ item.claimId ≠ claimId) ∨
        item = entry.canonical := by
  change item ∈ (stableMembership VerificationItem.canonical services.precedes
    (mergeResult entry claimId false (shownResults services db parent))).map VerificationItem.canonical ↔ _
  rw [mem_keys_stableMembership]
  simp only [List.mem_map, mem_mergeResult]
  constructor
  · rintro ⟨x, ⟨hx, hne⟩ | ⟨rfl, -⟩, rfl⟩
    · exact .inl ⟨⟨x, hx, rfl⟩, by simpa using hne⟩
    · exact .inr rfl
  · rintro (⟨⟨x, hx, rfl⟩, hne⟩ | rfl)
    · exact ⟨x, .inl ⟨hx, by simpa using hne⟩, rfl⟩
    · exact ⟨entry, .inr ⟨rfl, trivial⟩, rfl⟩

end Results

section Writes
variable {Id H B : Type} [DecidableEq Id] [DecidableEq H] {services : RefreshServices Id H B}
  {db db' : RefreshDb Id H B}

variable (services) in
/-- Stored artifacts carry the hash of their text. -/
def Addressed (artifacts : ArtifactTable Id H) : Prop :=
  artifacts.All fun row => row.contentHash = services.contentHash row.artifact.canonical

omit [DecidableEq Id] in
theorem artifact_canonical_canonical (artifact : VerificationArtifact Id) :
    artifact.canonical.canonical = artifact.canonical := by
  have hitems : VerificationItem.canonical ∘ VerificationItem.canonical = @VerificationItem.canonical Id := by
    funext item
    exact item.canonical_canonical
  simp [VerificationArtifact.canonical, hitems]

omit [DecidableEq Id] in
/-- A persisted artifact is read back under its id, whether it was stored before or not. -/
theorem persistArtifact_ok {artifact : VerificationArtifact Id} {artifacts artifacts' : ArtifactTable Id H}
    (hinj : Function.Injective services.contentHash) (hok : Addressed services artifacts)
    (h : persistArtifact services artifact artifacts = .ok artifacts') :
    Addressed services artifacts' ∧ (∃ row, artifacts'.get (artifactIdOf services artifact) = some row ∧
      row.artifact.canonical = artifact.canonical) := by
  unfold persistArtifact at h
  split at h
  · rename_i inserted hinsert
    cases h
    have hget := Table.get_insert hinsert
    refine ⟨?_, _, (hget _).trans (if_pos rfl), artifact_canonical_canonical artifact⟩
    intro id row hrow
    rw [hget] at hrow
    split at hrow
    · cases hrow
      exact congrArg services.contentHash (artifact_canonical_canonical artifact).symm
    · exact hok id row hrow
  · split at h
    · rename_i row hrow
      split at h
      · cases h
      · rename_i hhash
        cases h
        refine ⟨hok, row, hrow, hinj ?_⟩
        rw [← hok _ row hrow]
        exact not_not.mp hhash
    · cases h

omit [DecidableEq H] in
/-- A persisted snapshot is stored with its source and its slots, and nothing else changes. -/
theorem persistSnapshot_ok {snapshot : ContentSnapshotRow} (h : persistSnapshot services snapshot db = .ok db') :
    (∃ snapshots, db' = { db with snapshots }) ∧
      ∃ row, db'.snapshots.get snapshot.contentSnapshotId = some row ∧ sourceOf services row = sourceOf services snapshot ∧
        row.artifactIds.claims = snapshot.artifactIds.claims ∧
        row.artifactIds.verification = snapshot.artifactIds.verification := by
  obtain ⟨_, _, h⟩ := bind_eq_ok.mp h
  split at h
  · rename_i snapshots hinsert
    obtain ⟨_, _, h⟩ := bind_eq_ok.mp h
    cases h
    exact ⟨⟨_, rfl⟩, snapshot, (Table.get_insert hinsert _).trans (if_pos rfl), rfl, rfl, rfl⟩
  · split at h
    · cases h
    · rename_i existing hget
      obtain ⟨_, _, h⟩ := bind_eq_ok.mp h
      split at h
      · rename_i hsame
        cases h
        simp only [sameSnapshot, beq_iff_eq, ContentSnapshotRow.mk.injEq, SnapshotIdentity.mk.injEq,
          ArtifactIds.mk.injEq] at hsame
        refine ⟨⟨_, rfl⟩, existing, hget, ?_, hsame.1.1.1, hsame.1.1.2.1⟩
        simp only [sourceOf, hsame]
      · cases h

variable (services) in
/-- A source head whose snapshot contains the claims, over artifacts stored by content. -/
structure HeadOk (sourceHash : String) (claims : List String) (db : RefreshDb Id H B) : Prop where
  addressed : Addressed services db.artifacts
  head : ∃ snapshot, headSnapshot sourceHash db = some snapshot ∧ sourceOf services snapshot = sourceHash ∧
    ∀ claimId ∈ claims, snapshotContainsClaim db snapshot claimId = true

variable {sourceHash : String} {claims : List String}

omit [DecidableEq Id] [DecidableEq H] in
theorem headSnapshot_eq_some {snapshot : ContentSnapshotRow} (h : headSnapshot sourceHash db = some snapshot) :
    ∃ head, db.heads.get sourceHash = some head ∧ db.snapshots.get head.latestSnapshotId = some snapshot :=
  Option.bind_eq_some_iff.mp h

omit [DecidableEq Id] [DecidableEq H] in
/-- The locked head is the parent of every refresh of a claim that it contains. -/
theorem selectParent_head {claimId : String} {requested snapshot parent : ContentSnapshotRow} {isLockedHead : Bool}
    {head : ContentSourceHeadRow}
    (h : selectParent services db claimId requested (some head) = .ok (parent, isLockedHead))
    (hget : db.snapshots.get head.latestSnapshotId = some snapshot)
    (hclaim : snapshotContainsClaim db snapshot claimId = true)
    (hrequested : db.snapshots.get requested.contentSnapshotId = some requested) :
    parent = snapshot ∧ isLockedHead = true := by
  rw [selectParent] at h
  split at h
  · rw [hget] at h
    obtain ⟨current, hcurrent, h⟩ := bind_eq_ok.mp h
    obtain ⟨_, _, hcurrent⟩ := bind_eq_ok.mp hcurrent
    cases hcurrent
    rw [if_pos hclaim] at h
    cases h
    exact ⟨rfl, rfl⟩
  · rename_i hsame
    cases h
    rw [not_not.mp hsame, hrequested] at hget
    cases hget
    exact ⟨rfl, rfl⟩

omit [DecidableEq Id] [DecidableEq H] in
theorem loadParentSnapshot_ok {snapshotId : Option String} {snapshot : ContentSnapshotRow}
    (h : loadParentSnapshot services db snapshotId = .ok snapshot) :
    ∃ id, snapshotId = some id ∧ db.snapshots.get id = some snapshot := by
  unfold loadParentSnapshot at h
  split at h
  · cases h
  · rename_i id hid
    split at h
    · cases h
    · rename_i row hrow
      obtain ⟨_, _, h⟩ := bind_eq_ok.mp h
      cases h
      exact ⟨id, (Option.filter_eq_some_iff.mp hid).1, hrow⟩

omit [DecidableEq Id] [DecidableEq H] in
theorem advanceHead_locked {status : ResultStatus} {parent refreshed : ContentSnapshotRow}
    {head : ContentSourceHeadRow} {heads heads' : HeadTable} (hget : heads.get sourceHash = some head)
    (h : @advanceHead Id sourceHash status parent refreshed true (some head) heads = .ok heads') :
    heads'.get sourceHash = some (advanced status refreshed head) := by
  rw [advanceHead, if_pos rfl] at h
  split at h
  · cases h
  · cases h
    rw [Table.get_modify_self, hget]
    rfl

/-- What a completion writes: the merged artifact, the snapshot that shows it, and the head. -/
theorem materialize_writes {c : Completion} {job : ClaimVerificationJobRow} {effective : VerificationResult}
    {values : ResultValues Id} {out : RefreshOutcome Id}
    (h : materialize services c job effective values db = .ok (db', out)) :
    ∃ requestedId requested parent isLockedHead entry refreshed,
      (c.parentSnapshotId = some requestedId ∧ db.snapshots.get requestedId = some requested) ∧
      (∃ verification other, selectParent services { db with verification, other } job.claimId requested
        (db.heads.get (sourceOf services requested)) = .ok (parent, isLockedHead)) ∧
      VerificationArtifactEntry.fromResult effective job.provider (some values.verificationId) none = .ok entry ∧
      persistArtifact services (refreshedArtifact services db parent job.claimId (.entry entry)) db.artifacts =
        .ok db'.artifacts ∧
      refreshed = buildRefreshSnapshot services parent
        { parent.artifactIds with
          verification := artifactIdOf services (refreshedArtifact services db parent job.claimId (.entry entry)) }
        (externalSnapshots parent effective.marketSnapshotId) (max c.now parent.createdAt) ∧
      (∃ row, db'.snapshots.get refreshed.contentSnapshotId = some row ∧
        sourceOf services row = sourceOf services refreshed ∧
        row.artifactIds.claims = refreshed.artifactIds.claims ∧
        row.artifactIds.verification = refreshed.artifactIds.verification) ∧
      @advanceHead Id (sourceOf services requested) effective.status parent refreshed isLockedHead
        (db.heads.get (sourceOf services requested)) db.heads = .ok db'.heads ∧
      db'.members = db.members ∧ (out.idempotent = false ∧ out.verificationId = values.verificationId) ∧
      ∃ results, persistVerificationResult values db.verification.results = .ok results ∧
        db'.verification = ⟨db.verification.jobs.update (closed effective.status job), results⟩ := by
  unfold materialize at h
  obtain ⟨_, _, h⟩ := bind_eq_ok.mp h
  obtain ⟨results, hresults, h⟩ := bind_eq_ok.mp h
  obtain ⟨other, _, h⟩ := bind_eq_ok.mp h
  obtain ⟨claim, _, h⟩ := bind_eq_ok.mp h
  obtain ⟨requested, hrequested, h⟩ := bind_eq_ok.mp h
  obtain ⟨⟨parent, isLockedHead⟩, hparent, h⟩ := bind_eq_ok.mp h
  obtain ⟨requestedId, hid, hget⟩ := loadParentSnapshot_ok hrequested
  dsimp only at h
  obtain ⟨_, _, h⟩ := bind_eq_ok.mp h
  obtain ⟨entry, hentry, h⟩ := bind_eq_ok.mp h
  obtain ⟨artifacts, hartifacts, h⟩ := bind_eq_ok.mp h
  obtain ⟨_, _, h⟩ := bind_eq_ok.mp h
  obtain ⟨_, _, h⟩ := bind_eq_ok.mp h
  obtain ⟨db₂, hsnapshot, h⟩ := bind_eq_ok.mp h
  obtain ⟨_, _, h⟩ := bind_eq_ok.mp h
  obtain ⟨signal, _, h⟩ := bind_eq_ok.mp h
  obtain ⟨_, _, h⟩ := bind_eq_ok.mp h
  obtain ⟨⟨other', signalId⟩, _, h⟩ := bind_eq_ok.mp h
  obtain ⟨_, _, h⟩ := bind_eq_ok.mp h
  obtain ⟨heads, hheads, h⟩ := bind_eq_ok.mp h
  cases h
  obtain ⟨⟨snapshots, rfl⟩, hrow⟩ := persistSnapshot_ok hsnapshot
  exact ⟨requestedId, requested, parent, isLockedHead, entry, _, ⟨hid, hget⟩, ⟨_, _, hparent⟩,
    mapError_eq_ok.mp hentry, hartifacts, rfl, hrow, hheads, rfl, ⟨rfl, rfl⟩, results, hresults, rfl⟩

omit [DecidableEq H] in
/-- A head that shows one entry in the place of what was shown of its claim. -/
theorem headEntries_merged {parent row : ContentSnapshotRow} {shown : VerificationItem Id} {changed : String}
    (hhead : headSnapshot sourceHash db = some parent) (hhead' : headSnapshot sourceHash db' = some row)
    (hclaim : shown.claimId = changed)
    (hshown : ∀ item, item ∈ (shownResults services db' row).map VerificationItem.canonical ↔
      (item ∈ (shownResults services db parent).map VerificationItem.canonical ∧ item.claimId ≠ changed) ∨
        item = shown) (claimId : String) :
    headEntries services sourceHash db' claimId =
      if claimId = changed then {shown} else headEntries services sourceHash db claimId := by
  ext item
  simp only [headEntries, hhead, hhead', Option.some.injEq, exists_eq_left', Set.mem_ofPred_eq, hshown]
  split
  · rename_i heq
    subst heq
    rw [Set.mem_singleton_iff]
    constructor
    · rintro ⟨⟨_, hne⟩ | hsame, hmem⟩
      · exact absurd hmem hne
      · exact hsame
    · rintro rfl
      exact ⟨.inr rfl, hclaim⟩
  · rename_i hne
    simp only [Set.mem_ofPred_eq]
    constructor
    · rintro ⟨⟨hmem, _⟩ | rfl, hclaimId⟩
      · exact ⟨hmem, hclaimId⟩
      · exact absurd (hclaimId.symm.trans hclaim) hne
    · rintro ⟨hmem, rfl⟩
      exact ⟨.inl ⟨hmem, hne⟩, rfl⟩

/-- A materialized completion replaces what the head shows about its claim and keeps what it
shows about the others. -/
theorem materialize_merges (hinj : Function.Injective services.contentHash)
    (hok : HeadOk services sourceHash claims db) {c : Completion} {job : ClaimVerificationJobRow}
    {effective : VerificationResult} {values : ResultValues Id} {out : RefreshOutcome Id}
    (hclaim : job.claimId ∈ claims) (heffective : effective.claimId = job.claimId)
    (hsource : ∀ id row, c.parentSnapshotId = some id → db.snapshots.get id = some row →
      sourceOf services row = sourceHash)
    (h : materialize services c job effective values db = .ok (db', out)) :
    HeadOk services sourceHash claims db' ∧ out.idempotent = false ∧
      ∃ entry, Records entry effective job.provider (some out.verificationId) none ∧
        ∀ claimId, headEntries services sourceHash db' claimId =
          if claimId = job.claimId then {.entry entry.canonical} else headEntries services sourceHash db claimId := by
  obtain ⟨requestedId, requested, parent, isLockedHead, entry, refreshed, ⟨hid, hget⟩, ⟨_, _, hparent⟩, hentry,
    hartifacts, rfl, ⟨row, hrow, hrowSource, hrowClaims, hrowArtifact⟩, hheads, hmembers, ⟨hout, hverification⟩, _⟩ :=
    materialize_writes h
  obtain ⟨snapshot, hsnapshot, hsnapshotSource, hcontains⟩ := hok.head
  obtain ⟨head, hhead, hlatest⟩ := headSnapshot_eq_some hsnapshot
  have hrecords := fromResult_ok hentry
  have hentryClaim := hrecords.claimId.trans heffective
  have hkey : sourceOf services requested = sourceHash := hsource _ _ hid hget
  rw [hkey] at hparent hheads
  rw [hhead] at hparent hheads
  -- The head contains every claim, so it is the parent, whatever was requested.
  have hrequested : db.snapshots.get requested.contentSnapshotId = some requested := by
    rw [Table.get_key hget]
    exact hget
  obtain ⟨rfl, rfl⟩ := selectParent_head hparent hlatest (hcontains _ hclaim) hrequested
  have hadvanced := advanceHead_locked hhead hheads
  obtain ⟨haddressed, stored, hstored, htext⟩ := persistArtifact_ok hinj hok.addressed hartifacts
  have hhead' : headSnapshot sourceHash db' = some row := by
    rw [headSnapshot, hadvanced]
    exact hrow
  have hcontains' (claimId : String) : snapshotContainsClaim db' row claimId = snapshotContainsClaim db parent claimId := by
    simp only [snapshotContainsClaim, hrowClaims, hmembers]
    rfl
  refine ⟨⟨haddressed, row, hhead', hrowSource.trans hsnapshotSource, ?_⟩, hout, entry, ?_, ?_⟩
  · intro claimId hmem
    rw [hcontains']
    exact hcontains claimId hmem
  · rw [hverification]
    exact hrecords
  · have hslot : row.artifactIds.verification =
        artifactIdOf services (refreshedArtifact services db parent job.claimId (.entry entry)) := hrowArtifact
    have hshown (item : VerificationItem Id) :
        item ∈ (shownResults services db' row).map VerificationItem.canonical ↔
          (item ∈ (shownResults services db parent).map VerificationItem.canonical ∧ item.claimId ≠ job.claimId) ∨
            item = .entry entry.canonical := by
      have hnonempty : row.artifactIds.verification ≠ "" := by
        rw [hslot, artifactIdOf]
        simp
      rw [shownResults, snapshotArtifact, if_neg hnonempty, hslot, hstored]
      refine mem_deserialized.trans ?_
      rw [htext]
      exact mem_refreshedArtifact hentryClaim
    exact headEntries_merged hsnapshot hhead' hentryClaim hshown

omit [DecidableEq Id] [DecidableEq H] in
/-- Whoever leaves artifacts, snapshots and heads alone leaves what the head shows alone. -/
theorem HeadOk.of_verification (hok : HeadOk services sourceHash claims db) (verification : VerificationDb Id) :
    HeadOk services sourceHash claims { db with verification } :=
  ⟨hok.addressed, hok.head⟩

/-- What a completion stores, in the envelope of the first one. -/
def completionValues (codec : ResultCodec Id) (c : Completion) (job : ClaimVerificationJobRow) (db : RefreshDb Id H B) :
    ResultValues Id :=
  let existing := db.verification.results.get (completed codec job c.result c.now).verificationId
  { completed codec job c.result c.now with
    availableAt := some (effectiveAvailableAt c existing)
    resultPayload := (c.result.availableFrom (effectiveAvailableAt c existing)).modelDump }

variable (services) in
/-- How an accepted completion of a job comes about. -/
inductive Accepted (codec : ResultCodec Id) (c : Completion) (job : ClaimVerificationJobRow) (db : RefreshDb Id H B) :
    RefreshDb Id H B → RefreshOutcome Id → Prop
  | repeated {row : ClaimVerificationResultRow Id} {shown : String × Option String}
      (hrow : db.verification.results.get (completed codec job c.result c.now).verificationId = some row)
      (hpersist : persistVerificationResult (completionValues codec c job db) db.verification.results =
        .ok db.verification.results)
      (hshown : findSnapshotForResult services (completed codec job c.result c.now).verificationId job.claimId db =
        .ok (some shown)) :
      Accepted codec c job db
        { db with verification :=
            ⟨db.verification.jobs.update (closed c.result.status job), db.verification.results⟩ }
        ⟨true, (completed codec job c.result c.now).verificationId, shown.1, shown.2⟩
  | merged {row : ClaimVerificationResultRow Id} {availableAt : Time} {db' : RefreshDb Id H B} {out : RefreshOutcome Id}
      (hrow : db.verification.results.get (completed codec job c.result c.now).verificationId = some row)
      (hpersist : persistVerificationResult (completionValues codec c job db) db.verification.results =
        .ok db.verification.results)
      (hshown : findSnapshotForResult services (completed codec job c.result c.now).verificationId job.claimId db =
        .ok none)
      (hmaterialize : materialize services c job (c.result.availableFrom availableAt) (completionValues codec c job db)
        db = .ok (db', out)) : Accepted codec c job db db' out
  | first {availableAt : Time} {db' : RefreshDb Id H B} {out : RefreshOutcome Id}
      (hnone : db.verification.results.get (completed codec job c.result c.now).verificationId = none)
      (howner : ¬ (job.leaseOwner ≠ some c.workerId ∨ job.status ≠ .leased))
      (hmaterialize : materialize services c job (c.result.availableFrom availableAt) (completionValues codec c job db)
        db = .ok (db', out)) : Accepted codec c job db db' out

theorem complete_accepted {codec : ResultCodec Id} {c : Completion} {out : RefreshOutcome Id}
    (h : complete services codec c db = .ok (db', out)) :
    ¬ (c.result.status = .verificationPending ∨ c.result.status = .notRequired) ∧
      ∃ job, db.verification.jobs.get c.jobId = some job ∧ c.result.claimId = job.claimId ∧
        Accepted services codec c job db db' out := by
  unfold complete at h
  split at h
  · cases h
  rename_i hstatus
  obtain ⟨job, hjob, h⟩ := bind_eq_ok.mp h
  dsimp only at h
  split at h
  · cases h
  rename_i hclaim
  refine ⟨hstatus, job, getJob_ok.mp hjob, not_not.mp hclaim, ?_⟩
  split at h
  · rename_i hexisting
    obtain ⟨row, hrow⟩ := Option.isSome_iff_exists.mp hexisting
    obtain ⟨results, hresults, h⟩ := bind_eq_ok.mp h
    obtain ⟨shown, hshown, h⟩ := bind_eq_ok.mp h
    have hkept : results = db.verification.results := persist_kept (by exact hrow) hresults
    subst hkept
    cases shown with
    | some shown =>
      cases h
      exact .repeated hrow hresults hshown
    | none => exact .merged hrow hresults hshown h
  · rename_i hexisting
    split at h
    · cases h
    · rename_i howner
      exact .first (Option.not_isSome_iff_eq_none.mp hexisting) howner h

theorem complete_cases {codec : ResultCodec Id} {c : Completion} {out : RefreshOutcome Id}
    (h : complete services codec c db = .ok (db', out)) :
    (out.idempotent = true ∧ ∃ verification, db' = { db with verification }) ∨
      ∃ verification job availableAt values,
        db.verification.jobs.get c.jobId = some job ∧ c.result.claimId = job.claimId ∧
        materialize services c job (c.result.availableFrom availableAt) values { db with verification } =
          .ok (db', out) := by
  obtain ⟨_, job, hget, hclaim, haccepted⟩ := complete_accepted h
  cases haccepted with
  | repeated => exact .inl ⟨rfl, _, rfl⟩
  | merged _ _ _ hmaterialize => exact .inr ⟨db.verification, job, _, _, hget, hclaim, hmaterialize⟩
  | first _ _ hmaterialize => exact .inr ⟨db.verification, job, _, _, hget, hclaim, hmaterialize⟩

omit [DecidableEq Id] in
/-- Without a stored envelope the result is available from its completion. -/
theorem completed_envelope (codec : ResultCodec Id) (job : ClaimVerificationJobRow) (result : VerificationResult)
    (now : Time) :
    (completed codec job result now).availableAt = some (resultAvailableAt result.toResultFields now) ∧
      (completed codec job result now).resultPayload =
        (result.availableFrom (resultAvailableAt result.toResultFields now)).modelDump :=
  ⟨congrArg some (resultAvailableAt_again _ _), rfl⟩

omit [DecidableEq Id] in
/-- The values that a completion stores have the envelope of the first one. -/
theorem completed_values (codec : ResultCodec Id) (job : ClaimVerificationJobRow) (c : Completion)
    (existing : Option (ClaimVerificationResultRow Id)) :
    (match existing.bind (·.availableAt) with
      | none => completed codec job c.result c.now
      | some availableAt =>
        { completed codec job c.result c.now with
          availableAt := some availableAt
          resultPayload := (c.result.availableFrom availableAt).modelDump }) =
      { completed codec job c.result c.now with
        availableAt := some (effectiveAvailableAt c existing)
        resultPayload := (c.result.availableFrom (effectiveAvailableAt c existing)).modelDump } := by
  obtain ⟨havailable, hpayload⟩ := completed_envelope codec job c.result c.now
  rw [effectiveAvailableAt]
  cases existing.bind (·.availableAt) with
  | none =>
    dsimp only [Option.getD_none]
    rw [← havailable, ← hpayload]
  | some availableAt => rfl

/-- On jobs and results a completion is the refresh of the job repository. -/
theorem complete_refreshResult {codec : ResultCodec Id} {c : Completion} {out : RefreshOutcome Id}
    (h : complete services codec c db = .ok (db', out)) :
    refreshResult codec c.jobId c.workerId c.result out.idempotent (.ok ()) c.now db.verification =
      .ok (db'.verification, ()) := by
  obtain ⟨hstatus, job, hget, hclaim, haccepted⟩ := complete_accepted h
  let existing := db.verification.results.get (completed codec job c.result c.now).verificationId
  have hpersist := congrArg (persistVerificationResult · db.verification.results) (completed_values codec job c existing)
  have hwritten {availableAt : Time} (hmaterialize : materialize services c job (c.result.availableFrom availableAt)
      (completionValues codec c job db) db = .ok (db', out)) : out.idempotent = false ∧ ∃ results,
      persistVerificationResult (completionValues codec c job db) db.verification.results = .ok results ∧
        db'.verification = ⟨db.verification.jobs.update (closed c.result.status job), results⟩ := by
    obtain ⟨_, _, _, _, _, _, _, _, _, _, _, _, _, _, ⟨hout, _⟩, hresults⟩ := materialize_writes hmaterialize
    exact ⟨hout, hresults⟩
  rw [refreshResult, if_neg hstatus, getJob_ok.mpr hget, ok_bind]
  dsimp only
  rw [if_neg (not_not.mpr hclaim)]
  cases haccepted with
  | repeated hrow hkept =>
    rw [if_pos (Option.isSome_of_eq_some hrow)]
    exact bind_eq_ok.mpr ⟨_, hpersist.trans hkept, rfl⟩
  | merged hrow hkept _ hmaterialize =>
    obtain ⟨hout, results, hresults, hverification⟩ := hwritten hmaterialize
    rw [if_pos (Option.isSome_of_eq_some hrow), hout, hverification]
    refine bind_eq_ok.mpr ⟨_, hpersist.trans hkept, ?_⟩
    rw [if_neg Bool.false_ne_true]
    exact bind_eq_ok.mpr ⟨results, hpersist.trans hresults, rfl⟩
  | first hnone howner hmaterialize =>
    obtain ⟨_, results, hresults, hverification⟩ := hwritten hmaterialize
    rw [if_neg (by rw [hnone]; exact Bool.false_ne_true), if_neg howner, hverification]
    exact bind_eq_ok.mpr ⟨results, hpersist.trans hresults, rfl⟩

/-- The result is stored already, and some snapshot that contains the claim shows it. -/
def Repeats (codec : ResultCodec Id) (c : Completion) (db : RefreshDb Id H B) : Prop :=
  ∃ job row snapshot, db.verification.jobs.get c.jobId = some job ∧
    db.verification.results.get (completed codec job c.result c.now).verificationId = some row ∧
    snapshot ∈ db.snapshots.rows ∧ showsResult row.resultPayload job.claimId db snapshot = true

omit [DecidableEq Id] [DecidableEq H] in
theorem firstShowing_isSome {expected : ResultFields} {claimId : String} {rows : List ContentSnapshotRow}
    {prior : Option ContentSnapshotRow} (h : firstShowing services expected claimId db rows = .ok prior) :
    prior.isSome = true ↔ ∃ snapshot ∈ rows, showsResult expected claimId db snapshot = true := by
  induction rows with
  | nil =>
    cases h
    simp
  | cons row rows ih =>
    obtain ⟨snapshot, hsnapshot, h⟩ := bind_eq_ok.mp h
    obtain ⟨_, _, hsnapshot⟩ := bind_eq_ok.mp hsnapshot
    cases hsnapshot
    split at h
    · rename_i hshows
      cases h
      simp [hshows]
    · rename_i hshows
      rw [ih h]
      simp [hshows]

omit [DecidableEq H] in
theorem findSnapshotForResult_isSome {verificationId : Id} {claimId : String}
    {row : ClaimVerificationResultRow Id} {prior : Option (String × Option String)}
    (hrow : db.verification.results.get verificationId = some row) (hclaim : row.claimId = claimId)
    (h : findSnapshotForResult services verificationId claimId db = .ok prior) :
    prior.isSome = true ↔
      ∃ snapshot ∈ db.snapshots.rows, showsResult row.resultPayload claimId db snapshot = true := by
  rw [findSnapshotForResult, hrow] at h
  dsimp only at h
  rw [if_neg (not_not.mpr hclaim)] at h
  obtain ⟨shown, hshown, h⟩ := bind_eq_ok.mp h
  cases h
  rw [Option.isSome_map, firstShowing_isSome hshown]
  simp [List.mem_insertionSort]

/-- What is persisted over a stored result is about its claim. -/
theorem persist_claimId {values : ResultValues Id} {results results' : ResultTable Id}
    {row : ClaimVerificationResultRow Id} (hg : results.get values.verificationId = some row)
    (h : persistVerificationResult values results = .ok results') : row.claimId = values.claimId := by
  rw [persist_stored hg] at h
  split at h
  · rename_i hagree
    simp only [agrees, Bool.and_eq_true, beq_iff_eq] at hagree
    exact hagree.1.1.1.1.1.1.1.1.1.1.1
  · cases h

/-- A completion returns as idempotent exactly when it repeats. -/
theorem idempotent_iff_repeats {codec : ResultCodec Id} {c : Completion} {out : RefreshOutcome Id}
    (h : complete services codec c db = .ok (db', out)) : out.idempotent = true ↔ Repeats codec c db := by
  obtain ⟨_, job, hget, _, haccepted⟩ := complete_accepted h
  have hrepeats : Repeats codec c db ↔
      ∃ row, db.verification.results.get (completed codec job c.result c.now).verificationId = some row ∧
        ∃ snapshot ∈ db.snapshots.rows, showsResult row.resultPayload job.claimId db snapshot = true := by
    constructor
    · rintro ⟨job', row, snapshot, hget', hrow, hmem, hshows⟩
      cases hget.symm.trans hget'
      exact ⟨row, hrow, snapshot, hmem, hshows⟩
    · rintro ⟨row, hrow, snapshot, hmem, hshows⟩
      exact ⟨job, row, snapshot, hget, hrow, hmem, hshows⟩
  have hstored {row : ClaimVerificationResultRow Id} {shown : Option (String × Option String)}
      (hrow : db.verification.results.get (completed codec job c.result c.now).verificationId = some row)
      (hkept : persistVerificationResult (completionValues codec c job db) db.verification.results =
        .ok db.verification.results)
      (hshown : findSnapshotForResult services (completed codec job c.result c.now).verificationId job.claimId db =
        .ok shown) : shown.isSome = true ↔ Repeats codec c db := by
    have hclaim : row.claimId = job.claimId := persist_claimId (by exact hrow) hkept
    rw [hrepeats, findSnapshotForResult_isSome hrow hclaim hshown]
    simp only [hrow, Option.some.injEq, exists_eq_left']
  cases haccepted with
  | repeated hrow hkept hshown => exact hstored hrow hkept hshown
  | merged hrow hkept hshown hmaterialize =>
    obtain ⟨_, _, _, _, _, _, _, _, _, _, _, _, _, _, ⟨hout, _⟩, _⟩ := materialize_writes hmaterialize
    rw [hout]
    exact hstored hrow hkept hshown
  | first hnone _ hmaterialize =>
    obtain ⟨_, _, _, _, _, _, _, _, _, _, _, _, _, _, ⟨hout, _⟩, _⟩ := materialize_writes hmaterialize
    simp [hrepeats, hout, hnone]

end Writes

end StockContent.Verification
