import StockContent.Verification.PlanValidation
import StockContent.Verification.RefreshPhases

/-! The closure of verification snapshots: every entry of a stored snapshot names a job or a
result that could be seen when the snapshot was created, and so it stays. -/
namespace StockContent.Verification
open Storage

section Entries
variable {Id : Type} [DecidableEq Id]

/-- The job that supports a pending entry. -/
structure JobSeen (entry : VerificationArtifactEntry Id) (candidate : Time) (row : ClaimVerificationJobRow) :
    Prop where
  claim : row.claimId = entry.claimId
  provider : row.provider = entry.provider
  visible : row.createdAt ≤ candidate

/-- The result that supports a terminal entry. -/
structure ResultSeen (entry : VerificationArtifactEntry Id) (candidate : Time) (row : ClaimVerificationResultRow Id) :
    Prop where
  claim : row.claimId = entry.claimId
  provider : row.provider = entry.provider
  status : row.status = entry.status
  payload : ∀ result ∈ entry.result, row.resultPayload.sameText result.modelDump = true
  visible : ∃ a ∈ row.availableAt, a ≤ candidate

def Supported (entry : VerificationArtifactEntry Id) (candidate : Time) (db : VerificationDb Id) : Prop :=
  if entry.status = .verificationPending then
    ∃ row ∈ entry.verificationJobId.bind db.jobs.get, JobSeen entry candidate row
  else ∃ row ∈ entry.verificationId.bind db.results.get, ResultSeen entry candidate row

variable {entry : VerificationArtifactEntry Id} {candidate : Time} {db db' : VerificationDb Id}

theorem verifyEntry_iff : verifyEntry entry candidate db = .ok () ↔ Supported entry candidate db := by
  unfold verifyEntry Supported
  split
  · cases entry.verificationJobId.bind fun jobId => db.jobs.get jobId with
    | none => simp
    | some row =>
      simp only [Option.mem_def, Option.some.injEq, exists_eq_left']
      split
      · rename_i hother
        refine iff_of_false (by simp) fun h => ?_
        rcases hother with hother | hother
        · exact hother h.claim
        · exact hother h.provider
      · rename_i hsame
        push Not at hsame
        split
        · rename_i hlate
          exact iff_of_false (by simp) fun h => absurd h.visible (not_le.mpr hlate)
        · rename_i hseen
          exact iff_of_true rfl ⟨hsame.1, hsame.2, not_lt.mp hseen⟩
  · cases entry.verificationId.bind fun id => db.results.get id with
    | none => simp
    | some row =>
      simp only [Option.mem_def, Option.some.injEq, exists_eq_left']
      split
      · rename_i hother
        refine iff_of_false (by simp) fun h => ?_
        rcases hother with hother | hother | hother | hother
        · exact hother h.claim
        · exact hother h.provider
        · exact hother h.status
        · simp only [Option.any_eq_true, Bool.not_eq_true'] at hother
          obtain ⟨result, hresult, htext⟩ := hother
          rw [h.payload result hresult] at htext
          cases htext
      · rename_i hsame
        push Not at hsame
        have hpayload : ∀ result ∈ entry.result, row.resultPayload.sameText result.modelDump = true := by
          intro result hresult
          have hall := hsame.2.2.2
          rw [hresult] at hall
          simpa using hall
        cases havailable : row.availableAt with
        | none =>
          refine iff_of_false (by simp) fun h => ?_
          obtain ⟨a, ha, _⟩ := h.visible
          rw [havailable] at ha
          cases ha
        | some a =>
          simp only [Option.all_some, decide_eq_true_eq]
          split
          · rename_i hlate
            refine iff_of_false (by simp) fun h => ?_
            obtain ⟨a', ha, hle⟩ := h.visible
            cases havailable.symm.trans ha
            exact absurd hle (not_le.mpr hlate)
          · rename_i hseen
            exact iff_of_true rfl ⟨hsame.1, hsame.2.1, hsame.2.2.1, hpayload, a, havailable, not_lt.mp hseen⟩

/-- What a closure check reads of a job never changes. -/
def SameLineage (row row' : ClaimVerificationJobRow) : Prop :=
  row'.claimId = row.claimId ∧ row'.provider = row.provider ∧ row'.createdAt = row.createdAt

/-- The rows that support entries stay. -/
structure Keeps (db db' : VerificationDb Id) : Prop where
  jobs : ∀ jobId row, db.jobs.get jobId = some row → ∃ row', db'.jobs.get jobId = some row' ∧ SameLineage row row'
  results : ∀ id row, db.results.get id = some row → db'.results.get id = some row

omit [DecidableEq Id] in
theorem JobStep.sameLineage {row row' : ClaimVerificationJobRow} (h : JobStep Id row row') : SameLineage row row' := by
  obtain ⟨_, hclaim, hprovider, _⟩ := h.same
  refine ⟨hclaim, hprovider, ?_⟩
  cases h with
  | trace => rfl
  | claim => rfl
  | close => rfl
  | mark m _ ha =>
    cases m with
    | renewLease =>
      cases ha
      rfl
    | manualReview =>
      cases ha
      rfl
    | retry =>
      simp only [JobMark.apply] at ha
      split at ha
      · cases ha
        rfl
      · split at ha <;> cases ha
        rfl

theorem Keeps.refl (db : VerificationDb Id) : Keeps db db :=
  ⟨fun _ row h => ⟨row, h, rfl, rfl, rfl⟩, fun _ _ h => h⟩

theorem Grows.keeps {codec : ResultCodec Id} {call : VerificationCall} (h : Grows codec call db db') : Keeps db db' := by
  refine ⟨fun jobId row hrow => ?_, fun id row hrow => ?_⟩
  · obtain ⟨row', hrow', hstep | ⟨now, _, rfl⟩⟩ := h.jobs.old jobId row hrow
    · exact ⟨row', hrow', hstep.sameLineage⟩
    · exact ⟨_, hrow', rfl, rfl, rfl⟩
  · obtain ⟨_, hrow', rfl⟩ := h.results.old id row hrow
    exact hrow'

/-- Support is never lost, at the same time or later. -/
theorem Supported.mono {candidate' : Time} (h : Supported entry candidate db) (hkeeps : Keeps db db')
    (htime : candidate ≤ candidate') : Supported entry candidate' db' := by
  unfold Supported at h ⊢
  split
  · rename_i hstatus
    rw [if_pos hstatus] at h
    obtain ⟨row, hrow, hseen⟩ := h
    obtain ⟨jobId, hid, hget⟩ := Option.bind_eq_some_iff.mp hrow
    obtain ⟨row', hrow', hclaim, hprovider, hcreated⟩ := hkeeps.jobs jobId row hget
    exact ⟨row', Option.bind_eq_some_iff.mpr ⟨jobId, hid, hrow'⟩, hclaim.trans hseen.claim,
      hprovider.trans hseen.provider, hcreated ▸ hseen.visible.trans htime⟩
  · rename_i hstatus
    rw [if_neg hstatus] at h
    obtain ⟨row, hrow, hseen⟩ := h
    obtain ⟨id, hid, hget⟩ := Option.bind_eq_some_iff.mp hrow
    obtain ⟨a, ha, hle⟩ := hseen.visible
    exact ⟨row, Option.bind_eq_some_iff.mpr ⟨id, hid, hkeeps.results id row hget⟩,
      { hseen with visible := ⟨a, ha, hle.trans htime⟩ }⟩

/-- A stored entry is supported as the one that was written. -/
theorem supported_canonical : Supported entry.canonical candidate db ↔ Supported entry candidate db := by
  rw [← verifyEntry_iff, ← verifyEntry_iff]
  have hcanonical (row : ClaimVerificationResultRow Id) (result : VerificationResult) :
      row.resultPayload.sameText result.canonical.modelDump = row.resultPayload.sameText result.modelDump := by
    simp [ResultFields.sameText, VerificationResult.modelDump, VerificationResult.canonical]
  cases hresult : entry.result <;>
    simp [verifyEntry, VerificationArtifactEntry.canonical, hresult, hcanonical]

end Entries

section Snapshots
variable {Id H B : Type} [DecidableEq Id] [DecidableEq H] {services : RefreshServices Id H B}
  {db db' : RefreshDb Id H B} {snapshot : ContentSnapshotRow}

/-- The artifact of the snapshot is stored, and rows support each of its entries. -/
structure ClosedSnapshot (db : RefreshDb Id H B) (snapshot : ContentSnapshotRow) : Prop where
  stored : snapshot.artifactIds.verification ≠ "" → (snapshotArtifact db snapshot).isSome
  supported : ∀ stored ∈ snapshotArtifact db snapshot, ∀ entry,
    .entry entry ∈ stored.artifact.canonical.results → Supported entry snapshot.createdAt db.verification

/-- The entries of an artifact as a closure check reads it. -/
def artifactEntries (artifact : VerificationArtifact Id) : List (VerificationArtifactEntry Id) :=
  artifact.results.filterMap fun
    | .entry entry => some entry
    | .bare _ => none

omit [DecidableEq Id] in
theorem mem_artifactEntries {artifact : VerificationArtifact Id} {entry : VerificationArtifactEntry Id} :
    entry ∈ artifactEntries artifact ↔ .entry entry ∈ artifact.results := by
  rw [artifactEntries, List.mem_filterMap]
  constructor
  · rintro ⟨item, hitem, hentry⟩
    cases item with
    | bare result => cases hentry
    | entry e =>
      cases hentry
      exact hitem
  · exact fun h => ⟨_, h, rfl⟩

variable (services) in
omit [DecidableEq H] in
/-- Entries are supported as they are read exactly when they are as they are stored. -/
theorem supported_deserialized {stored : VerificationArtifact Id} {candidate : Time} {rows : VerificationDb Id} :
    (∀ entry ∈ artifactEntries (deserializeArtifact services stored), Supported entry candidate rows) ↔
      ∀ entry, .entry entry ∈ stored.canonical.results → Supported entry candidate rows := by
  have hread (item : VerificationItem Id) :
      item ∈ (deserializeArtifact services stored).results.map VerificationItem.canonical ↔
        item ∈ stored.canonical.results := mem_deserialized
  simp only [mem_artifactEntries, ← hread, List.mem_map]
  constructor
  · rintro h entry ⟨item, hitem, hcanonical⟩
    cases item with
    | bare result => cases hcanonical
    | entry e =>
      cases hcanonical
      exact supported_canonical.mpr (h e hitem)
  · intro h entry hentry
    exact supported_canonical.mp (h _ ⟨_, hentry, rfl⟩)

omit [DecidableEq H] in
theorem validateRefreshClosure_iff : validateRefreshClosure services db snapshot = .ok () ↔
    ∀ stored ∈ snapshotArtifact db snapshot, ∀ entry, .entry entry ∈ stored.artifact.canonical.results →
      Supported entry snapshot.createdAt db.verification := by
  unfold validateRefreshClosure
  cases snapshotArtifact db snapshot with
  | none => simp
  | some stored =>
    simp only [Option.mem_def, Option.some.injEq, forall_eq', ← supported_deserialized services]
    rw [mapError_eq_ok]
    refine closure_ok.trans (forall₂_congr fun entry _ => ?_)
    exact verifyEntry_iff

end Snapshots

section Replay
variable {Id H B : Type} [DecidableEq Id] [DecidableEq H] (nameOf : Id → String)

structure ReplayIntegrityError where
  code : String
  message : String
  deriving DecidableEq

/-- The tests that a replay makes of a snapshot's entry. They are written apart from those of
the writer: payloads are compared as documents, and the status has to be a terminal one. -/
def replayEntry (entry : VerificationArtifactEntry Id) (candidate : Time) (db : VerificationDb Id) :
    Except ReplayIntegrityError Unit :=
  if entry.status = .verificationPending then
    let jobId := entry.verificationJobId.getD ""
    match if jobId = "" then none else db.jobs.get jobId with
    | none => .error ⟨"REPLAY_LINEAGE_REFERENCE_MISSING", "verification job row " ++ jobId ++ " is missing"⟩
    | some job =>
      if job.claimId ≠ entry.claimId ∨ job.provider ≠ entry.provider then
        .error ⟨"REPLAY_LINEAGE_REFERENCE_INVALID", "job " ++ jobId ++ " lineage mismatch"⟩
      else if candidate < job.createdAt then
        .error ⟨"REPLAY_LINEAGE_REFERENCE_INVALID", "job " ++ jobId ++ " was created after snapshot"⟩
      else .ok ()
  else
    let name := (entry.verificationId.map nameOf).getD ""
    match entry.verificationId.bind db.results.get with
    | none => .error ⟨"REPLAY_LINEAGE_REFERENCE_MISSING", "verification result row " ++ name ++ " is missing"⟩
    | some row =>
      if row.claimId ≠ entry.claimId ∨ row.provider ≠ entry.provider ∨ row.status ≠ entry.status ∨
          row.status.terminal = false ∨ entry.result.any (fun result => !row.resultPayload.same result.modelDump) then
        .error ⟨"REPLAY_LINEAGE_REFERENCE_INVALID", "verification result " ++ name ++ " lineage mismatch"⟩
      else match row.availableAt with
        | none => .error ⟨"REPLAY_LINEAGE_REFERENCE_INVALID", "verification result " ++ name ++ " has no available_at"⟩
        | some availableAt =>
          if candidate < availableAt then
            .error ⟨"REPLAY_LINEAGE_REFERENCE_INVALID", "verification result " ++ name ++ " is future-dated"⟩
          else .ok ()

def replayEntries (candidate : Time) (db : VerificationDb Id) :
    List (VerificationArtifactEntry Id) → Except ReplayIntegrityError Unit
  | [] => .ok ()
  | entry :: entries => do
    replayEntry nameOf entry candidate db
    replayEntries candidate db entries

/-- A replay of a stored snapshot against the rows as they are by now. -/
def replayClosure (services : RefreshServices Id H B) (db : RefreshDb Id H B) (snapshot : ContentSnapshotRow) :
    Except ReplayIntegrityError Unit :=
  match snapshotArtifact db snapshot with
  | none => .ok ()
  | some stored =>
    replayEntries nameOf snapshot.createdAt db.verification
      (artifactEntries (deserializeArtifact services stored.artifact))

theorem sameText_same {a b : ResultFields} (h : a.sameText b = true) : a.same b = true := by
  have htext := eq_of_beq h
  have hvalue : a.referenceValue.canonical = b.referenceValue.canonical := congrArg ResultFields.referenceValue htext
  rw [ResultFields.same, Bool.and_eq_true]
  refine ⟨?_, Json.same_of_canonical hvalue⟩
  rw [beq_iff_eq]
  exact congrArg (fun fields => { fields with referenceValue := .null }) htext

theorem replayEntry_of_supported {entry : VerificationArtifactEntry Id} {candidate : Time} {db : VerificationDb Id}
    (h : Supported entry candidate db) : replayEntry nameOf entry candidate db = .ok () := by
  have hlineage := entry.lineage
  unfold Supported at h
  unfold replayEntry
  split
  · rename_i hstatus
    rw [if_pos hstatus] at h hlineage
    obtain ⟨row, hrow, hseen⟩ := h
    obtain ⟨jobId, hid, hget⟩ := Option.bind_eq_some_iff.mp hrow
    rw [hid, Option.any_some, decide_eq_true_eq] at hlineage
    simp only [hid, Option.getD_some, if_neg hlineage, hget]
    rw [if_neg (by simp [hseen.claim, hseen.provider]), if_neg (not_lt.mpr hseen.visible)]
  · rename_i hstatus
    rw [if_neg hstatus] at h
    obtain ⟨row, hrow, hseen⟩ := h
    obtain ⟨a, ha, hle⟩ := hseen.visible
    have hterminal : row.status.terminal = true := by
      rw [hseen.status]
      simpa [ResultStatus.terminal] using hstatus
    have hpayload : entry.result.any (fun result => !row.resultPayload.same result.modelDump) = false := by
      cases hresult : entry.result with
      | none => rfl
      | some result => simp [sameText_same (hseen.payload result hresult)]
    dsimp only
    rw [hrow]
    dsimp only
    rw [if_neg (by simp [hseen.claim, hseen.provider, hseen.status ▸ hterminal, hseen.status, hpayload]), ha]
    exact if_neg (not_lt.mpr hle)

theorem replayEntries_ok {candidate : Time} {db : VerificationDb Id} {entries : List (VerificationArtifactEntry Id)}
    (h : ∀ entry ∈ entries, replayEntry nameOf entry candidate db = .ok ()) :
    replayEntries nameOf candidate db entries = .ok () := by
  induction entries with
  | nil => rfl
  | cons entry entries ih =>
    rw [List.forall_mem_cons] at h
    exact bind_eq_ok.mpr ⟨(), h.1, ih h.2⟩

omit [DecidableEq H] in
/-- A replay accepts what the writer's closure check accepts. -/
theorem replayClosure_of_validate {services : RefreshServices Id H B} {db : RefreshDb Id H B}
    {snapshot : ContentSnapshotRow} (h : validateRefreshClosure services db snapshot = .ok ()) :
    replayClosure nameOf services db snapshot = .ok () := by
  rw [validateRefreshClosure_iff] at h
  unfold replayClosure
  cases hstored : snapshotArtifact db snapshot with
  | none => rfl
  | some stored =>
    exact replayEntries_ok nameOf fun entry hentry =>
      replayEntry_of_supported nameOf ((supported_deserialized services).mpr (h stored hstored) entry hentry)

end Replay
end StockContent.Verification
