import StockContent.Verification.RefreshClosure

/-! Runs of publications and refreshes: which refreshes pass the closure check of their own
snapshot, and that snapshots which passed it pass it ever after. -/
namespace StockContent.Verification
open Storage

/-- Calls of the refresh service and the job repository, of the stages that publish a source,
and of whoever else writes claims, heads and the other tables. -/
inductive PublicationCall (Id B : Type) where
  | refresh (call : RefreshCall)
  | saveArtifact (artifact : VerificationArtifact Id)
  | saveBundle (snapshot : ContentSnapshotRow)
  | elsewhere (members : List (String × String)) (heads : HeadTable) (other : B)

section Calls
variable {Id H B : Type} [DecidableEq Id] [DecidableEq H] (services : RefreshServices Id H B) (codec : ResultCodec Id)

def requireArtifact (db : RefreshDb Id H B) (snapshot : ContentSnapshotRow) : Except (JobError Id) Unit :=
  if snapshot.artifactIds.verification ≠ "" ∧ snapshotArtifact db snapshot = none then
    .error (.runtimeError ("snapshot " ++ snapshot.contentSnapshotId ++ " references missing artifact " ++
      snapshot.artifactIds.verification))
  else .ok ()

/-- A bundle without the rows that go with it: those are calls of their own, before it. -/
def saveBundle (snapshot : ContentSnapshotRow) (db : RefreshDb Id H B) : Except (JobError Id) (RefreshDb Id H B) := do
  requireArtifact db snapshot
  let db ← persistUnchecked services snapshot db
  validateRefreshClosure services db snapshot
  return db

def execPublication (db : RefreshDb Id H B) : PublicationCall Id B → RefreshDb Id H B × RefreshReply Id
  | .refresh call => execRefresh services codec db call
  | .saveArtifact artifact =>
    settle db ((persistArtifact services artifact db.artifacts).map fun artifacts => ({ db with artifacts }, none))
  | .saveBundle snapshot => settle db ((saveBundle services snapshot db).map fun db => (db, none))
  | .elsewhere members heads other => ({ db with members, heads, other }, .ok none)

def publicationStore : Machine (RefreshDb Id H B) (PublicationCall Id B) (RefreshReply Id) :=
  ⟨execPublication services codec⟩

/-- The instant from which a submitted result can be seen, whenever it was submitted first. -/
def refreshAvailableAt (c : Completion) (db : RefreshDb Id H B) : Option Time :=
  (db.verification.jobs.get c.jobId).map fun job => effectiveAvailableAt c (storedResult codec c job db)

/-- The refreshed snapshot is late enough to show its own result. -/
def ShowsInTime (c : Completion) (db db' : RefreshDb Id H B) (out : RefreshOutcome Id) : Prop :=
  ∃ availableAt ∈ refreshAvailableAt codec c db, ∃ snapshot ∈ db'.snapshots.get out.snapshotId,
    availableAt ≤ snapshot.createdAt

end Calls

section Closure
variable {Id H B : Type} [DecidableEq Id] [DecidableEq H] {services : RefreshServices Id H B} {codec : ResultCodec Id}
  {db db' : RefreshDb Id H B}

variable (services codec) in
/-- What holds of every reachable state. -/
structure AllClosed (db : RefreshDb Id H B) : Prop where
  rows : StoreOk codec db.verification
  addressed : Addressed services db.artifacts
  closed : ∀ snapshot ∈ db.snapshots.rows, ClosedSnapshot db snapshot

/-- Artifacts stay as they are stored. -/
def KeepsArtifacts (artifacts artifacts' : ArtifactTable Id H) : Prop :=
  ∀ id row, artifacts.get id = some row → artifacts'.get id = some row

omit [DecidableEq Id] in
theorem persistArtifact_keeps {artifact : VerificationArtifact Id} {artifacts artifacts' : ArtifactTable Id H}
    (h : persistArtifact services artifact artifacts = .ok artifacts') : KeepsArtifacts artifacts artifacts' := by
  intro id row hrow
  unfold persistArtifact at h
  split at h
  · rename_i inserted hinsert
    cases h
    rw [Table.get_insert hinsert, if_neg, hrow]
    rintro rfl
    rw [(Table.insert_eq_some hinsert).1] at hrow
    cases hrow
  · split at h
    · split at h <;> cases h
      exact hrow
    · cases h

omit [DecidableEq Id] [DecidableEq H] in
theorem snapshotArtifact_kept {snapshot : ContentSnapshotRow} {stored : ContentArtifactRow Id H}
    (hkeeps : KeepsArtifacts db.artifacts db'.artifacts) (h : snapshotArtifact db snapshot = some stored) :
    snapshotArtifact db' snapshot = some stored := by
  unfold snapshotArtifact at h ⊢
  split
  · rename_i hslot
    rw [if_pos hslot] at h
    cases h
  · rename_i hslot
    rw [if_neg hslot] at h
    exact hkeeps _ _ h

omit [DecidableEq H] in
/-- A closed snapshot stays closed while rows and artifacts are only added. -/
theorem ClosedSnapshot.mono {snapshot : ContentSnapshotRow} (h : ClosedSnapshot db snapshot)
    (hartifacts : KeepsArtifacts db.artifacts db'.artifacts) (hrows : Keeps db.verification db'.verification) :
    ClosedSnapshot db' snapshot := by
  constructor
  · intro hslot
    obtain ⟨stored, hstored⟩ := Option.isSome_iff_exists.mp (h.stored hslot)
    rw [snapshotArtifact_kept hartifacts hstored]
    rfl
  · intro stored' hstored' entry hentry
    have hslot : snapshot.artifactIds.verification ≠ "" := by
      intro hempty
      rw [snapshotArtifact, if_pos hempty] at hstored'
      cases hstored'
    obtain ⟨stored, hstored⟩ := Option.isSome_iff_exists.mp (h.stored hslot)
    cases (snapshotArtifact_kept hartifacts hstored).symm.trans hstored'
    exact (h.supported stored' hstored entry hentry).mono hrows le_rfl

end Closure

section Entry
variable {Id : Type} [DecidableEq Id] {codec : ResultCodec Id} {results results' : ResultTable Id}

theorem persist_agrees {values : ResultValues Id} (h : persistVerificationResult values results = .ok results') :
    ∃ row, results'.get values.verificationId = some row ∧ agrees row values = true ∧
      (results.get values.verificationId = some row ∨ row = values.row) := by
  cases hold : results.get values.verificationId with
  | some row =>
    rw [persist_stored hold] at h
    split at h
    · rename_i hagree
      cases h
      exact ⟨row, hold, hagree, .inl rfl⟩
    · cases h
  | none =>
    have hpresent := persist_present h
    rw [persist_eq, hold] at h
    split at h
    · rename_i hagree
      cases h
      refine ⟨values.row, ?_, hagree, .inr rfl⟩
      have hget := Table.get_insert_getD results values.row values.verificationId
      rw [hget, hold]
      simp
    · cases h

/-- Payloads under one identity and with one envelope have one text. -/
theorem sameText_of_identity {claimId claimId' provider provider' : String} {a b : ResultFields}
    (h : identityOf claimId provider a = identityOf claimId' provider' b) (hav : a.availableAt = b.availableAt) :
    a.sameText b = true := by
  have hresult := congrArg VerificationIdentity.result h
  rw [ResultFields.sameText, beq_iff_eq]
  calc { a with referenceValue := a.referenceValue.canonical }
    _ = { (identityOf claimId provider a).result with availableAt := a.availableAt } := rfl
    _ = { (identityOf claimId' provider' b).result with availableAt := b.availableAt } := by rw [hresult, hav]
    _ = { b with referenceValue := b.referenceValue.canonical } := rfl

theorem same_availableAt {a b : ResultFields} (h : a.same b = true) : a.availableAt = b.availableAt := by
  rw [ResultFields.same, Bool.and_eq_true, beq_iff_eq] at h
  have havailable := congrArg ResultFields.availableAt h.1
  exact havailable

variable {c : Completion} {job : ClaimVerificationJobRow} {jobs : JobTable}
  {entry : VerificationArtifactEntry Id} {availableAt candidate : Time}

/-- The entry of a completed result is supported from the time on that its row is available. -/
theorem completed_supported (hcf : codec.CollisionFree) (hok : results.All (StoredResult codec))
    (hclaim : c.result.claimId = job.claimId) (hstatus : c.result.status ≠ .verificationPending)
    (hentry : Records entry (c.result.availableFrom availableAt) job.provider
      (some (completed codec job c.result c.now).verificationId) none)
    (h : persistVerificationResult
      { completed codec job c.result c.now with
        availableAt := some availableAt
        resultPayload := (c.result.availableFrom availableAt).modelDump } results = .ok results') :
    Supported entry candidate ⟨jobs, results'⟩ ↔ availableAt ≤ candidate := by
  obtain ⟨row, hrow, hagree, horigin⟩ := persist_agrees h
  simp only [agrees, Bool.and_eq_true, beq_iff_eq] at hagree
  obtain ⟨⟨⟨⟨⟨⟨⟨⟨⟨⟨⟨hrowClaim, hprovider⟩, hrowStatus⟩, _⟩, _⟩, hsame⟩, _⟩, _⟩, _⟩, _⟩, _⟩, havailable⟩ := hagree
  have htext : row.resultPayload.sameText (c.result.availableFrom availableAt).modelDump = true := by
    rcases horigin with hold | rfl
    · obtain ⟨values, hsound, rfl⟩ := hok _ row hold
      obtain ⟨escaped, hname⟩ := hsound.identity
      have hid : values.row.verificationId = (completed codec job c.result c.now).verificationId :=
        Table.get_key hold
      exact sameText_of_identity (hcf _ _ _ _ (hname.symm.trans hid)) (same_availableAt hsame)
    · exact ResultFields.sameText_self _
  rw [← verifyEntry_iff, verifyEntry_terminal hentry hstatus]
  constructor
  · rintro ⟨row', hrow', _, _, _, _, a, ha, hle⟩
    cases hrow.symm.trans hrow'
    cases havailable.symm.trans ha
    exact hle
  · intro hle
    exact ⟨row, hrow, hrowClaim.trans hclaim.symm, hprovider, hrowStatus, htext, availableAt, havailable, hle⟩

end Entry

section Refresh
variable {Id H B : Type} [DecidableEq Id] [DecidableEq H] {services : RefreshServices Id H B} {codec : ResultCodec Id}
  {c : Completion} {db db₁ : RefreshDb Id H B} {job : ClaimVerificationJobRow} {effective : VerificationResult}
  {values : ResultValues Id} {prepared : PreparedRefresh Id H B}

omit [DecidableEq H] in
theorem persistResult_keeps {results : ResultTable Id}
    (h : persistVerificationResult values db.verification.results = .ok results) :
    Keeps db.verification { db.verification with results } := by
  refine ⟨fun _ row hrow => ⟨row, hrow, rfl, rfl, rfl⟩, fun id row hrow => ?_⟩
  cases hold : db.verification.results.get values.verificationId with
  | some old =>
    rw [persist_kept hold h]
    exact hrow
  | none =>
    rw [persist_eq] at h
    split at h <;> cases h
    change ((db.verification.results.insert values.row).getD db.verification.results).get id = some row
    rw [Table.get_insert_getD, hrow]
    split <;> rfl

omit [DecidableEq H] in
/-- The merged artifact is supported from some time on that the parent was created by, exactly
when its new entry is: the entries it carries over were supported in the parent. -/
theorem merged_supported {entry : VerificationArtifactEntry Id} {stored : ContentArtifactRow Id H} {candidate : Time}
    {rows : VerificationDb Id} {parent : ContentSnapshotRow} (hparent : ClosedSnapshot db parent)
    (hkeeps : Keeps db.verification rows) (hlater : parent.createdAt ≤ candidate) (hclaim : entry.claimId = job.claimId)
    (htext : stored.artifact.canonical =
      (refreshedArtifact services db parent job.claimId (.entry entry)).canonical) :
    (∀ e, .entry e ∈ stored.artifact.canonical.results → Supported e candidate rows) ↔
      Supported entry candidate rows := by
  have hmem (e : VerificationArtifactEntry Id) : VerificationItem.entry e ∈
      (refreshedArtifact services db parent job.claimId (.entry entry)).canonical.results ↔
        (.entry e ∈ (shownResults services db parent).map VerificationItem.canonical ∧ e.claimId ≠ job.claimId) ∨
          VerificationItem.entry e = .entry entry.canonical :=
    mem_refreshedArtifact (show (VerificationItem.entry entry).claimId = job.claimId from hclaim)
  simp only [htext, hmem]
  constructor
  · exact fun h => supported_canonical.mp (h entry.canonical (.inr rfl))
  · rintro h e (⟨hcarried, _⟩ | hnew)
    · unfold shownResults at hcarried
      cases hslot : snapshotArtifact db parent with
      | none =>
        rw [hslot] at hcarried
        cases hcarried
      | some row =>
        rw [hslot] at hcarried
        exact (hparent.supported row hslot e (mem_deserialized.mp hcarried)).mono hkeeps hlater
    · cases hnew
      exact supported_canonical.mpr h

omit [DecidableEq H] in
theorem persistSnapshot_checked {snapshot : ContentSnapshotRow} {db₂ : RefreshDb Id H B}
    (h : persistUnchecked services snapshot db = .ok db₂) :
    persistSnapshot services snapshot db = .ok db₂ ↔
      (db.snapshots.insert snapshot = none ∨ validateRefreshClosure services db₂ snapshot = .ok ()) := by
  rw [persistSnapshot_eq, h, ok_bind]
  split
  · rename_i hold
    exact iff_of_true rfl (.inl hold)
  · rename_i hnew
    rw [then_eq_ok, or_iff_right hnew]
    exact and_iff_left rfl

omit [DecidableEq Id] [DecidableEq H] in
theorem same_slot {existing snapshot : ContentSnapshotRow} (h : sameSnapshot existing snapshot = true) :
    existing.artifactIds.verification = snapshot.artifactIds.verification := by
  simp only [sameSnapshot, beq_iff_eq, ContentSnapshotRow.mk.injEq, SnapshotIdentity.mk.injEq,
    ArtifactIds.mk.injEq] at h
  exact h.1.1.2.1

omit [DecidableEq H] in
theorem unchecked_of_persisted {snapshot : ContentSnapshotRow} {db₂ : RefreshDb Id H B}
    (h : persistSnapshot services snapshot db = .ok db₂) : persistUnchecked services snapshot db = .ok db₂ := by
  rw [persistSnapshot_eq] at h
  obtain ⟨db₃, hunchecked, h⟩ := bind_eq_ok.mp h
  split at h
  · cases h
    exact hunchecked
  · obtain ⟨_, _, h⟩ := bind_eq_ok.mp h
    cases h
    exact hunchecked

omit [DecidableEq Id] [DecidableEq H] in
theorem unchecked_verification {snapshot : ContentSnapshotRow} {db₂ : RefreshDb Id H B}
    (h : persistUnchecked services snapshot db = .ok db₂) : db₂.verification = db.verification := by
  rcases unchecked_ok h with ⟨_, _, rfl⟩ | ⟨_, _, _, _, rfl⟩ <;> rfl

/-- A refreshed snapshot is persisted exactly when it shows its result in time, and then all
stored snapshots are closed. -/
theorem refresh_persists (hinj : Function.Injective services.contentHash) (hcf : codec.CollisionFree)
    (hok : AllClosed services codec db) (hroute : routeRefresh services codec c db = .ok (.fresh job effective values db₁))
    (hprepared : prepareRefresh services c job effective values db₁ = .ok prepared) {db₂ : RefreshDb Id H B}
    (hstored : persistUnchecked services prepared.refreshed prepared.db = .ok db₂) :
    ∃ snapshot, db₂.snapshots.get prepared.refreshed.contentSnapshotId = some snapshot ∧
      (persistSnapshot services prepared.refreshed prepared.db = .ok db₂ ↔
        effectiveAvailableAt c (storedResult codec c job db) ≤ snapshot.createdAt) ∧
      (snapshot ∈ db.snapshots.rows ∨ ∃ parent ∈ db.snapshots.rows, snapshot.createdAt = max c.now parent.createdAt) ∧
      (effectiveAvailableAt c (storedResult codec c job db) ≤ c.now →
        effectiveAvailableAt c (storedResult codec c job db) ≤ snapshot.createdAt) ∧
      (persistSnapshot services prepared.refreshed prepared.db = .ok db₂ →
        Addressed services db₂.artifacts ∧ ∀ s ∈ db₂.snapshots.rows, ClosedSnapshot db₂ s) := by
  obtain ⟨rfl, hpending, hjob, hclaim, rfl, rfl⟩ := route_fresh hroute
  obtain ⟨results, entry, hresults, hparent, hentry, hartifacts, hverification, hsnapshots, hslot, hcreated⟩ :=
    prepare_ok hprepared
  have hrecords := fromResult_ok hentry
  have hentryClaim : entry.claimId = job.claimId := hrecords.claimId.trans hclaim
  obtain ⟨haddressed, stored, hartifact, htext⟩ := persistArtifact_ok hinj hok.addressed hartifacts
  have hkeeps : Keeps db₁.verification prepared.db.verification := by
    rw [hverification]
    exact persistResult_keeps hresults
  have hold (s : ContentSnapshotRow) (hs : s ∈ db₁.snapshots.rows) : ClosedSnapshot prepared.db s :=
    (hok.closed s hs).mono (persistArtifact_keeps hartifacts) hkeeps
  have hentryTime (t : Time) : Supported entry t prepared.db.verification ↔
      effectiveAvailableAt c (storedResult codec c job db₁) ≤ t := by
    rw [hverification]
    exact completed_supported hcf hok.rows.results hclaim hpending hrecords hresults
  have hmerged (t : Time) (ht : prepared.parent.createdAt ≤ t) :=
    (merged_supported (hok.closed _ hparent) hkeeps ht hentryClaim htext).trans (hentryTime t)
  -- Whatever snapshot has the new slot shows the merged artifact.
  have hresolve (s : ContentSnapshotRow)
      (hs : s.artifactIds.verification = prepared.refreshed.artifactIds.verification) :
      snapshotArtifact prepared.db s = some stored := by
    rw [snapshotArtifact, hs, hslot, if_neg (by simp [artifactIdOf])]
    exact hartifact
  rw [persistSnapshot_checked hstored]
  rcases unchecked_ok hstored with ⟨snapshots, hinsert, rfl⟩ | ⟨existing, hinsert, hget, hsame, rfl⟩
  · have hresolved : snapshotArtifact { prepared.db with snapshots } prepared.refreshed = some stored :=
      hresolve _ rfl
    have hvalid : validateRefreshClosure services { prepared.db with snapshots } prepared.refreshed = .ok () ↔
        effectiveAvailableAt c (storedResult codec c job db₁) ≤ prepared.refreshed.createdAt := by
      rw [validateRefreshClosure_iff]
      simp only [hresolved, Option.mem_def, Option.some.injEq, forall_eq']
      exact hmerged _ (hcreated ▸ le_max_right _ _)
    have hnew : prepared.db.snapshots.insert prepared.refreshed ≠ none := by
      rw [hinsert]
      simp
    rw [or_iff_right hnew]
    refine ⟨prepared.refreshed, (Table.get_insert hinsert _).trans (if_pos rfl), hvalid,
      .inr ⟨_, hparent, hcreated⟩, fun hle => hcreated ▸ hle.trans (le_max_left _ _), fun hvalidated => ⟨haddressed, fun s hs => ?_⟩⟩
    change s ∈ snapshots.rows at hs
    rw [(Table.insert_eq_some hinsert).2, List.mem_append, List.mem_singleton, hsnapshots] at hs
    rcases hs with hs | rfl
    · exact ⟨(hold s hs).stored, (hold s hs).supported⟩
    · refine ⟨fun _ => by rw [hresolved]; rfl, validateRefreshClosure_iff.mp hvalidated⟩
  · rw [hsnapshots] at hget
    have hexisting := hold existing (Table.mem_of_get hget)
    have hmem : VerificationItem.entry entry.canonical ∈ stored.artifact.canonical.results := by
      rw [htext]
      exact (mem_refreshedArtifact (show (VerificationItem.entry entry).claimId = job.claimId from hentryClaim)).mpr
        (.inr rfl)
    have hseen := supported_canonical.mp
      (hexisting.supported stored (hresolve existing (same_slot hsame)) _ hmem)
    have hintime := (hentryTime _).mp hseen
    exact ⟨existing, hsnapshots ▸ hget, iff_of_true (.inl hinsert) hintime, .inl (Table.mem_of_get hget),
      fun _ => hintime, fun _ => ⟨haddressed, fun s hs => hold s (hsnapshots ▸ hs)⟩⟩

/-- A completion that passes every other test returns exactly when it repeats or shows its
result in time. -/
theorem complete_returns_iff (hinj : Function.Injective services.contentHash) (hcf : codec.CollisionFree)
    (hok : AllClosed services codec db) {db' : RefreshDb Id H B} {out : RefreshOutcome Id}
    (h : completeWith services codec (persistUnchecked services) c db = .ok (db', out)) :
    (complete services codec c db = .ok (db', out) ↔ out.idempotent = true ∨ ShowsInTime codec c db db' out) ∧
      ((∀ a ∈ refreshAvailableAt codec c db, a ≤ c.now) → complete services codec c db = .ok (db', out)) := by
  rw [complete_phases]
  obtain ⟨route, hroute, h⟩ := bind_eq_ok.mp h
  cases route with
  | repeated db₁ out₁ =>
    cases h
    have hreturns : completeWith services codec (persistSnapshot services) c db = .ok (db', out) :=
      bind_eq_ok.mpr ⟨_, hroute, rfl⟩
    exact ⟨iff_of_true hreturns (.inl (route_repeated hroute).1), fun _ => hreturns⟩
  | fresh job effective values db₁ =>
    obtain ⟨prepared, hprepared, h⟩ := bind_eq_ok.mp h
    obtain ⟨db₂, hstored, hpublished⟩ := bind_eq_ok.mp h
    obtain ⟨snapshot, hget, hpersists, _, hnow, _⟩ := refresh_persists hinj hcf hok hroute hprepared hstored
    obtain ⟨hsnapshots, _, _, hout, hid⟩ := publish_ok hpublished
    obtain ⟨_, _, hjob, _, _, _⟩ := route_fresh hroute
    have havailable : refreshAvailableAt codec c db = some (effectiveAvailableAt c (storedResult codec c job db)) :=
      congrArg (Option.map _) hjob
    have hreturns : completeWith services codec (persistSnapshot services) c db = .ok (db', out) ↔
        persistSnapshot services prepared.refreshed prepared.db = .ok db₂ := by
      have hphases : completeWith services codec (persistSnapshot services) c db =
          persistSnapshot services prepared.refreshed prepared.db >>=
            publishRefresh services c job effective values prepared := by
        rw [completeWith, hroute, ok_bind]
        dsimp only
        rw [hprepared, ok_bind]
      rw [hphases]
      constructor
      · intro hboth
        obtain ⟨db₃, hpersisted, _⟩ := bind_eq_ok.mp hboth
        have hunchecked := unchecked_of_persisted hpersisted
        cases hstored.symm.trans hunchecked
        exact hpersisted
      · exact fun hpersisted => bind_eq_ok.mpr ⟨db₂, hpersisted, hpublished⟩
    rw [hreturns, hpersists]
    refine ⟨?_, fun hbefore => hnow (hbefore _ havailable)⟩
    simp [ShowsInTime, havailable, hout, hsnapshots, hid, hget]

end Refresh

section Runs
variable {Id H B : Type} [DecidableEq Id] [DecidableEq H] {services : RefreshServices Id H B} {codec : ResultCodec Id}
  {db db' : RefreshDb Id H B}

theorem Keeps.trans {a b d : VerificationDb Id} (h : Keeps a b) (h' : Keeps b d) : Keeps a d := by
  refine ⟨fun jobId row hrow => ?_, fun id row hrow => h'.results id row (h.results id row hrow)⟩
  obtain ⟨mid, hmid, hclaim, hprovider, hcreated⟩ := h.jobs jobId row hrow
  obtain ⟨last, hlast, hclaim', hprovider', hcreated'⟩ := h'.jobs jobId mid hmid
  exact ⟨last, hlast, hclaim'.trans hclaim, hprovider'.trans hprovider, hcreated'.trans hcreated⟩

theorem keeps_run {rows : VerificationDb Id} (hok : StoreOk codec rows) (calls : List VerificationCall) :
    Keeps rows ((verificationStore codec).run rows calls) :=
  (verificationStore codec).run_related (I := StoreOk codec) Keeps.refl (fun _ _ _ => Keeps.trans)
    (fun _ call h => h.step codec call) (fun _ call h => (verification_grows codec call h.jobs).keeps) hok calls

theorem keeps_closed {rows : VerificationDb Id} {job : ClaimVerificationJobRow} (status : ResultStatus)
    (hjob : rows.jobs.get job.jobId = some job) :
    Keeps rows { rows with jobs := rows.jobs.update (closed status job) } := by
  refine ⟨fun jobId row hrow => ?_, fun _ _ hrow => hrow⟩
  by_cases hid : job.jobId = jobId
  · subst hid
    cases hjob.symm.trans hrow
    exact ⟨_, Table.get_update_self (r := closed status job) hjob, rfl, rfl, rfl⟩
  · exact ⟨row, (Table.get_update_ne rows.jobs (r := closed status job) hid).trans hrow, rfl, rfl, rfl⟩

omit [DecidableEq H] in
/-- Whoever only adds rows and artifacts keeps every stored snapshot closed. -/
theorem AllClosed.mono (hok : AllClosed services codec db) (hrows : StoreOk codec db'.verification)
    (haddressed : Addressed services db'.artifacts) (hsnapshots : db'.snapshots = db.snapshots)
    (hartifacts : KeepsArtifacts db.artifacts db'.artifacts) (hkeeps : Keeps db.verification db'.verification) :
    AllClosed services codec db' :=
  ⟨hrows, haddressed, fun s hs => (hok.closed s (hsnapshots ▸ hs)).mono hartifacts hkeeps⟩

theorem refresh_allClosed (hinj : Function.Injective services.contentHash) (hcf : codec.CollisionFree)
    (hok : AllClosed services codec db) (call : RefreshCall) :
    AllClosed services codec ((refreshStore services codec).step db call) := by
  have hrows := storeOk_step services codec hok.rows call
  have hkeeps : Keeps db.verification ((refreshStore services codec).step db call).verification := by
    obtain ⟨calls, hcalls⟩ := run_simulated services codec db [call]
    rw [Machine.run_cons, Machine.run_nil] at hcalls
    rw [hcalls]
    exact keeps_run hok.rows calls
  cases call with
  | store call => exact hok.mono hrows hok.addressed rfl (fun _ _ h => h) hkeeps
  | complete c =>
    cases h : complete services codec c db with
    | error e =>
      rw [step_complete_error h]
      exact hok
    | ok result =>
      obtain ⟨db', out⟩ := result
      rw [step_complete_ok h] at hrows hkeeps ⊢
      rw [complete_phases] at h
      obtain ⟨route, hroute, h⟩ := bind_eq_ok.mp h
      cases route with
      | repeated db₁ out₁ =>
        cases h
        obtain ⟨verification, rfl⟩ := (route_repeated hroute).2
        exact hok.mono hrows hok.addressed rfl (fun _ _ h => h) hkeeps
      | fresh job effective values db₁ =>
        obtain ⟨prepared, hprepared, h⟩ := bind_eq_ok.mp h
        obtain ⟨db₂, hpersisted, hpublished⟩ := bind_eq_ok.mp h
        have hunchecked := unchecked_of_persisted hpersisted
        obtain ⟨_, _, _, _, _, hclosed⟩ := refresh_persists hinj hcf hok hroute hprepared hunchecked
        obtain ⟨haddressed, hclosed⟩ := hclosed hpersisted
        obtain ⟨hsnapshots, hartifacts, hverification, _, _⟩ := publish_ok hpublished
        obtain ⟨rfl, _, hjob, _, _, _⟩ := route_fresh hroute
        obtain ⟨results, _, _, _, _, _, hprepare, _⟩ := prepare_ok hprepared
        have hjobs : db₂.verification.jobs.get job.jobId = some job := by
          rw [unchecked_verification hunchecked, hprepare, Table.get_key hjob]
          exact hjob
        have hlast : Keeps db₂.verification db'.verification := hverification ▸ keeps_closed _ hjobs
        exact ⟨hrows, hartifacts ▸ haddressed, fun s hs =>
          (hclosed s (hsnapshots ▸ hs)).mono (fun _ _ h => hartifacts ▸ h) hlast⟩

theorem publication_allClosed (hinj : Function.Injective services.contentHash) (hcf : codec.CollisionFree)
    (hok : AllClosed services codec db) (call : PublicationCall Id B) :
    AllClosed services codec ((publicationStore services codec).step db call) := by
  cases call with
  | refresh call => exact refresh_allClosed hinj hcf hok call
  | elsewhere members heads other => exact hok.mono hok.rows hok.addressed rfl (fun _ _ h => h) (.refl _)
  | saveArtifact artifact =>
    change AllClosed services codec (settle db ((persistArtifact services artifact db.artifacts).map _)).1
    cases h : persistArtifact services artifact db.artifacts with
    | error e => exact hok
    | ok artifacts =>
      exact hok.mono hok.rows (persistArtifact_ok hinj hok.addressed h).1 rfl (persistArtifact_keeps h) (.refl _)
  | saveBundle snapshot =>
    change AllClosed services codec (settle db ((saveBundle services snapshot db).map _)).1
    cases h : saveBundle services snapshot db with
    | error e => exact hok
    | ok db' =>
      obtain ⟨_, hrequired, h⟩ := bind_eq_ok.mp h
      obtain ⟨db₂, hstored, h⟩ := bind_eq_ok.mp h
      obtain ⟨_, hvalid, h⟩ := bind_eq_ok.mp h
      cases h
      change AllClosed services codec db'
      rcases unchecked_ok hstored with ⟨snapshots, hinsert, rfl⟩ | ⟨_, _, _, _, rfl⟩
      · refine ⟨hok.rows, hok.addressed, fun s hs => ?_⟩
        change s ∈ snapshots.rows at hs
        rw [(Table.insert_eq_some hinsert).2, List.mem_append, List.mem_singleton] at hs
        rcases hs with hs | rfl
        · exact ⟨(hok.closed s hs).stored, (hok.closed s hs).supported⟩
        · refine ⟨fun hslot => ?_, validateRefreshClosure_iff.mp hvalid⟩
          unfold requireArtifact at hrequired
          split at hrequired
          · cases hrequired
          · rename_i hpresent
            push Not at hpresent
            exact Option.isSome_iff_ne_none.mpr (hpresent hslot)
      · exact hok

/-- No snapshot yet, no artifact and no verification. The other tables may be any. -/
def RefreshDb.unpublished (db : RefreshDb Id H B) : RefreshDb Id H B :=
  { db with verification := .empty, artifacts := .empty, snapshots := .empty }

variable (services) in
/-- In any run every stored snapshot passes the closure check and its replay, in every later state
too; and a refresh that passes all other tests commits exactly when it repeats or the refreshed
snapshot is no older than the availability of its result, which holds when none of the result's
clocks is ahead. -/
theorem refresh_passes_closure (hinj : Function.Injective services.contentHash) (hcf : codec.CollisionFree)
    (nameOf : Id → String) (base : RefreshDb Id H B) (calls : List (PublicationCall Id B)) :
    let db := (publicationStore services codec).run base.unpublished calls
    (∀ snapshot ∈ db.snapshots.rows, validateRefreshClosure services db snapshot = .ok () ∧
      replayClosure nameOf services db snapshot = .ok ()) ∧
    ∀ c db' out, completeWith services codec (persistUnchecked services) c db = .ok (db', out) →
      (complete services codec c db = .ok (db', out) ↔ out.idempotent = true ∨ ShowsInTime codec c db db' out) ∧
        ((∀ a ∈ refreshAvailableAt codec c db, a ≤ c.now) → complete services codec c db = .ok (db', out)) := by
  intro db
  have hempty : AllClosed services codec base.unpublished :=
    ⟨.empty, fun _ _ h => (by cases h), fun _ h => (by cases h)⟩
  have hok : AllClosed services codec db :=
    (publicationStore services codec).run_invariant (I := AllClosed services codec)
      (fun _ call h => publication_allClosed hinj hcf h call) hempty calls
  refine ⟨fun snapshot hsnapshot => ?_, fun c db' out h => complete_returns_iff hinj hcf hok h⟩
  have hvalid : validateRefreshClosure services db snapshot = .ok () :=
    validateRefreshClosure_iff.mpr (hok.closed snapshot hsnapshot).supported
  exact ⟨hvalid, replayClosure_of_validate nameOf hvalid⟩

end Runs

/-- A source is published with one claim, and its job is leased. -/
def publishedCalls : List (PublicationCall VerificationIdentity Unit) :=
  [.saveArtifact ⟨"claims-1",
      [.bare (unboundResult "c2" .notRequired ResultStatus.bound_notRequired none "verification_rule.v1" none)], []⟩,
    .saveBundle {
      artifactIds := ⟨"claims-1", "verification-of-", []⟩
      contentSnapshotId := "cs-1"
      sourceType := "video"
      sourceRef := "v1"
      createdAt := 0 },
    .refresh (.store (.enqueue [⟨"c1", .price, "FACT"⟩] "quant" none (seconds 0) (seconds 0))),
    .refresh (.store (.claimDue [] "worker-a" 10 60 (seconds 10)))]

/-- The provider's clock is ahead: the result is verified at 20 seconds and completed at 15. -/
theorem early_completion_refused :
    ¬ ∀ (base : RefreshDb VerificationIdentity (VerificationArtifact VerificationIdentity) Unit) calls c db' out,
      completeWith plainServices transparent (persistUnchecked plainServices) c
        ((publicationStore plainServices transparent).run base.unpublished calls) = .ok (db', out) →
      ∃ result, complete plainServices transparent c
        ((publicationStore plainServices transparent).run base.unpublished calls) = .ok result := by
  intro h
  let c := completionFor "quant" verifiedResult (seconds 15)
  obtain ⟨db, hdb⟩ : ∃ db, db = (publicationStore plainServices transparent).run sharedHead.unpublished publishedCalls :=
    ⟨_, rfl⟩
  have hunchecked :
      (completeWith plainServices transparent (persistUnchecked plainServices) c db).toBool = true := by
    rw [hdb]
    decide
  have hrefused : (complete plainServices transparent c db).toBool = false := by
    rw [hdb]
    decide
  obtain ⟨⟨db', out⟩, hreturned⟩ := toBool_eq_true.mp hunchecked
  rw [hdb] at hreturned
  obtain ⟨result, hresult⟩ := h sharedHead publishedCalls c db' out hreturned
  rw [← hdb] at hresult
  rw [hresult] at hrefused
  cases hrefused

/-- Completed after the time of the verification, the same result is shown. -/
theorem late_completion_commits :
    let db := (publicationStore plainServices transparent).run sharedHead.unpublished publishedCalls
    (∀ snapshot ∈ db.snapshots.rows, validateRefreshClosure plainServices db snapshot = .ok () ∧
      replayClosure (·.provider) plainServices db snapshot = .ok ()) ∧
    ∃ result, complete plainServices transparent (completionFor "quant" verifiedResult (seconds 30)) db = .ok result := by
  intro db
  obtain ⟨hclosed, hcompletes⟩ := refresh_passes_closure plainServices (fun _ _ h => h)
    transparent_collisionFree (·.provider) sharedHead publishedCalls
  refine ⟨hclosed, ?_⟩
  let c := completionFor "quant" verifiedResult (seconds 30)
  have hunchecked :
      (completeWith plainServices transparent (persistUnchecked plainServices) c db).toBool = true := by
    decide
  have hclock : (refreshAvailableAt transparent c db).all (· ≤ c.now) = true := by
    decide
  obtain ⟨⟨db', out⟩, hreturned⟩ := toBool_eq_true.mp hunchecked
  refine ⟨_, (hcompletes c db' out hreturned).2 fun a ha => ?_⟩
  rw [show refreshAvailableAt transparent c db = some a from ha] at hclock
  simpa using hclock

end StockContent.Verification
