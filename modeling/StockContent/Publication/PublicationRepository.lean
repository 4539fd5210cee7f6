import StockContent.Publication.PublicationRun
import StockContent.Signals.SignalOutbox
import StockContent.Storage.Ensure

/-! The rows of a publication: its run, the manifest it sealed and the signals it sealed.
Each repository method works on a session and raises without writing. -/
namespace StockContent.Publication
open Storage

structure ContentPublicationRunRow where
  publicationRunId : String
  identity : PublicationIdentity
  state : PublicationState
  manifestHash : Option String
  version : Int
  deriving DecidableEq

structure ContentPublicationManifestRow where
  publicationRunId : String
  identity : PublicationIdentity
  manifestHash : String
  manifest : List (String × Json)
  createdAt : Time
  deriving DecidableEq

structure ContentSealedSignalRow where
  sealedSignalId : String
  publicationRunId : String
  signalId : String
  contentSnapshotId : String
  claimId : Option Json
  schemaVersion : String
  payload : List (String × Json)
  createdAt : Time
  deriving DecidableEq

abbrev RunTable := Table ContentPublicationRunRow.publicationRunId
abbrev ManifestTable := Table ContentPublicationManifestRow.publicationRunId
abbrev SealedTable := Table ContentSealedSignalRow.sealedSignalId

section Runs
variable (hashes : PublicationHashes)

def toDomain (row : ContentPublicationRunRow) : Except PublicationError ContentPublicationRun :=
  ContentPublicationRun.create hashes row.identity row.state row.manifestHash row.version row.publicationRunId

def getByIdentity (identity : PublicationIdentity) (runs : RunTable) :
    Except PublicationError (Option ContentPublicationRun) :=
  match runs.rows.find? (·.identity = identity) with
  | none => .ok none
  | some row => (toDomain hashes row).map some

def isReady (contentSnapshotId : String) (runs : RunTable) : Bool :=
  runs.rows.any fun row => row.identity.contentSnapshotId = contentSnapshotId && readyStates.contains row.state

def rowOf (run : ContentPublicationRun) : ContentPublicationRunRow where
  publicationRunId := run.publicationRunId hashes
  identity := run.identity
  state := run.state
  manifestHash := run.manifestHash
  version := run.version

/-- Both hashes are there and differ. -/
def resealed (stored given : Option String) : Bool := stored.isSome && given.isSome && stored != given

def saveInSession (run : ContentPublicationRun) (runs : RunTable) : Except PublicationError RunTable :=
  match runs.get (run.publicationRunId hashes) with
  | none =>
    -- The identity is unique among the rows as well.
    if runs.rows.any (·.identity = run.identity) then .error .integrityError
    else (runs.insert (rowOf hashes run)).elim (.error .integrityError) .ok
  | some row =>
    if row.identity ≠ run.identity then
      .error (.valueError "publication run id conflicts with immutable publication identity")
    else if resealed row.manifestHash run.manifestHash then
      .error (.valueError "publication run already contains a different sealed manifest")
    else .ok (runs.update (rowOf hashes run))

variable {hashes} {run : ContentPublicationRun} {runs runs' : RunTable}

/-- A save puts the run under its id and leaves the other rows alone. -/
theorem get_saveInSession (h : saveInSession hashes run runs = .ok runs') (id : String) :
    runs'.get id = if run.publicationRunId hashes = id then some (rowOf hashes run) else runs.get id := by
  rw [saveInSession] at h
  cases hget : runs.get (run.publicationRunId hashes) with
  | none =>
    rw [hget] at h
    dsimp only at h
    split at h
    · cases h
    · exact Table.get_insert (elim_eq_ok.mp h) id
  | some row =>
    rw [hget] at h
    dsimp only at h
    split at h
    · cases h
    · split at h
      · cases h
      · cases h
        by_cases hid : run.publicationRunId hashes = id
        · subst hid
          rw [if_pos rfl]
          exact Table.get_update_self (r := rowOf hashes run) hget
        · rw [if_neg hid]
          exact Table.get_update_ne runs hid

theorem getByIdentity_some {identity : PublicationIdentity} (h : getByIdentity hashes identity runs = .ok (some run)) :
    run.identity = identity ∧ ∃ row, row ∈ runs.rows ∧ row.identity = identity ∧ toDomain hashes row = .ok run := by
  rw [getByIdentity] at h
  cases hfind : runs.rows.find? (·.identity = identity) with
  | none =>
    rw [hfind] at h
    cases h
  | some row =>
    rw [hfind] at h
    have hidentity : row.identity = identity := by simpa using List.find?_some hfind
    cases hrow : toDomain hashes row with
    | error e =>
      simp only [hrow] at h
      cases h
    | ok stored =>
      simp only [hrow] at h
      cases h
      exact ⟨(ContentPublicationRun.create_ok hrow).1.trans hidentity, row, List.mem_of_find?_eq_some hfind,
        hidentity, hrow⟩

end Runs

/-- The tables of a publication; `rest` is what the other writers of the transaction fill. -/
structure PublicationDb (R : Type) where
  runs : RunTable
  manifests : ManifestTable
  sealedSignals : SealedTable
  rest : R

abbrev Payload := List (String × Json)

section Sealed
variable (hashes : PublicationHashes) (texts : Signals.OutboxTexts)

def saveManifest (run : ContentPublicationRun) (manifest : Payload) (sealedHash : String) (now : Time)
    (manifests : ManifestTable) : Except PublicationError ManifestTable :=
  match manifests.get (run.publicationRunId hashes) with
  | none =>
    (manifests.insert ⟨run.publicationRunId hashes, run.identity, sealedHash, manifest, now⟩).elim
      (.error .integrityError) .ok
  | some row =>
    if row.manifestHash ≠ sealedHash ∨ (Json.obj row.manifest).same (.obj manifest) = false then
      .error (.valueError "publication manifest already contains different sealed content")
    else .ok manifests

def sealedSignalId (publicationRunId signalId : String) : String :=
  "sealed-" ++ hashes.signal (publicationRunId ++ ":" ++ signalId)

def sealedRow (publicationRunId contentSnapshotId : String) (payload : Payload) (now : Time) : ContentSealedSignalRow where
  sealedSignalId := sealedSignalId hashes publicationRunId (Signals.signalIdOf texts payload)
  publicationRunId
  signalId := Signals.signalIdOf texts payload
  contentSnapshotId
  claimId := Json.lookup payload "claim_id"
  schemaVersion := Signals.textOr texts payload "signal_schema_version" (Signals.textOr texts payload "schema_version" "")
  payload
  createdAt := now

def sealSignal (publicationRunId contentSnapshotId : String) (now : Time) (sealedSignals : SealedTable)
    (payload : Payload) :
    Except PublicationError SealedTable :=
  let row := sealedRow hashes texts publicationRunId contentSnapshotId payload now
  if row.signalId = "" then .error (.valueError "sealed signal requires signal_id")
  else match sealedSignals.get row.sealedSignalId with
    | none => (sealedSignals.insert row).elim (.error .integrityError) .ok
    | some stored =>
      if (Json.obj stored.payload).same (.obj payload) then .ok sealedSignals
      else .error (.valueError "sealed signal already contains different payload")

/-- The run is given by its id and read for the snapshot it belongs to. -/
def saveSealedSignals (publicationRunId : String) (signals : List Payload) (now : Time) (runs : RunTable)
    (sealedSignals : SealedTable) : Except PublicationError SealedTable :=
  match runs.get publicationRunId with
  | none => .error (.valueError "publication run is required before sealing signals")
  | some run => signals.foldlM (sealSignal hashes texts publicationRunId run.identity.contentSnapshotId now) sealedSignals

def listSealedSignals (publicationRunId : String) (sealedSignals : SealedTable) : List Payload :=
  (sealedSignals.select (·.publicationRunId = publicationRunId) (fun a b => a.signalId ≤ b.signalId)
    sealedSignals.rows.length).map (·.payload)

/-- Signals under their ids, however they were ordered; an id may occur once. -/
def signalKeyedSet (signals : List Payload) : Except PublicationError Payload :=
  signals.foldlM (fun keyed payload => do
    let signalId := Signals.signalIdOf texts payload
    require (.valueError "sealed signal requires signal_id") (signalId ≠ "")
    require (.valueError ("duplicate sealed signal_id: " ++ signalId)) (Json.lookup keyed signalId).isNone
    return keyed ++ [(signalId, .obj payload)]) []

def verifySealed {R : Type} (run : ContentPublicationRun) (manifest : Payload) (signals : List Payload)
    (sealedHash : String)
    (db : PublicationDb R) : Except PublicationError Unit :=
  match db.manifests.get (run.publicationRunId hashes) with
  | none => .error (.valueError "publication sealed manifest is unavailable for retry")
  | some stored => do
    let differs := PublicationError.valueError "publication sealed projection differs from retry payload"
    require differs ((Json.obj stored.manifest).same (.obj manifest))
    let storedSignals ← signalKeyedSet texts (listSealedSignals (run.publicationRunId hashes) db.sealedSignals)
    let retried ← signalKeyedSet texts signals
    require differs ((Json.obj storedSignals).same (.obj retried))
    require (.valueError "publication sealed hash differs from retry payload") (run.manifestHash = some sealedHash)

end Sealed
end StockContent.Publication
