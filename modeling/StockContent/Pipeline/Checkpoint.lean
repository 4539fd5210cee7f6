import StockContent.Storage.Clock
import StockContent.Storage.Dict
import StockContent.Storage.Json
import StockContent.Storage.Machine

/-! Checkpoints of pipeline stages: the facts a later run of a task may resume from. -/
namespace StockContent.Pipeline
open Storage

abbrev Payload := List (String × Json)

structure CheckpointRecord where
  stage : String
  stageVersion : String := "1.0.0"
  inputArtifactIds : List String := []
  outputArtifactIds : List String := []
  outputHashes : List String := []
  inputHashes : List String := []
  publicMaterializationHash : String := ""
  modelIdentity : Option (List (String × String)) := none
  promptIdentity : Option (List (String × String)) := none
  workerId : Option String := none
  fencingToken : Option Int := none
  stateChecksum : String := ""
  startedAt : Option Time := none
  finishedAt : Option Time := none
  status : String := "SUCCEEDED"
  retryCount : Int := 0
  schemaVersion : String := "checkpoint.v2"
  error : Option String := none
  deriving DecidableEq

namespace CheckpointRecord

def texts (items : List String) : Json := .arr (items.map .str)

def mapping (identity : List (String × String)) : Json := .obj (identity.map fun entry => (entry.1, .str entry.2))

def orNull {A : Type} (f : A → Json) (value : Option A) : Json := value.elim .null f

def toDict (isoformat : Time → String) (record : CheckpointRecord) : Payload :=
  [("stage", .str record.stage), ("stage_version", .str record.stageVersion),
    ("input_artifact_ids", texts record.inputArtifactIds), ("output_artifact_ids", texts record.outputArtifactIds),
    ("output_hashes", texts record.outputHashes), ("input_hashes", texts record.inputHashes),
    ("public_materialization_hash", .str record.publicMaterializationHash),
    ("model_identity", orNull mapping record.modelIdentity), ("prompt_identity", orNull mapping record.promptIdentity),
    ("worker_id", orNull .str record.workerId), ("fencing_token", orNull .int record.fencingToken),
    ("state_checksum", .str record.stateChecksum),
    ("started_at", orNull (fun time => .str (isoformat time)) record.startedAt),
    ("finished_at", orNull (fun time => .str (isoformat time)) record.finishedAt),
    ("status", .str record.status), ("retry_count", .int record.retryCount), ("schema_version", .str record.schemaVersion),
    ("error", orNull .str record.error)]

/-- The recovery facts, without clock and lease. -/
def stateDocument (record : CheckpointRecord) : Json := .obj
  [("stage", .str record.stage), ("stage_version", .str record.stageVersion),
    ("input_artifact_ids", texts record.inputArtifactIds), ("input_hashes", texts record.inputHashes),
    ("output_artifact_ids", texts record.outputArtifactIds), ("output_hashes", texts record.outputHashes),
    ("public_materialization_hash", .str record.publicMaterializationHash),
    ("model_identity", mapping (record.modelIdentity.getD [])),
    ("prompt_identity", mapping (record.promptIdentity.getD [])),
    ("status", .str record.status)]

end CheckpointRecord

def checkpointStateChecksum (digest : Json → String) (record : CheckpointRecord) : String :=
  digest record.stateDocument.canonical

/-- What resuming reads of an artifact. -/
structure Artifact where
  artifactId : String
  contentHash : String
  deriving DecidableEq

section Validation
variable (digest : Json → String) (artifactsById : Dict String Artifact)

/-- The artifact of every pair is there and has the hash of the pair. -/
def checkHashes (missing mismatch : String → String) (pairs : List (String × String)) : Except String Unit :=
  pairs.forM fun pair => match artifactsById.lookup pair.1 with
    | none => .error (missing pair.1)
    | some artifact => require (mismatch pair.1) (pair.2 = artifact.contentHash)

def checkOutputs (record : CheckpointRecord) : Except String Unit :=
  -- `zip` stops at the shorter of the two.
  checkHashes artifactsById (fun id => "missing artifact for stage " ++ record.stage ++ ": " ++ id)
    (fun id => "artifact hash mismatch for stage " ++ record.stage ++ ": " ++ id)
    (record.outputArtifactIds.zip record.outputHashes)

def checkInputs (record : CheckpointRecord) : Except String Unit :=
  if record.inputHashes.isEmpty then .ok ()
  else do
    require ("input hash count mismatch for stage " ++ record.stage)
      (record.inputArtifactIds.length = record.inputHashes.length)
    checkHashes artifactsById (fun id => "missing input artifact for stage " ++ record.stage ++ ": " ++ id)
      (fun id => "input artifact hash mismatch for stage " ++ record.stage ++ ": " ++ id)
      (record.inputArtifactIds.zip record.inputHashes)

/-- The stage version that is expected now, where one is given. -/
def expectedVersion (stageVersions : Dict String String) (record : CheckpointRecord) : String :=
  (stageVersions.lookup record.stage).getD ""

def validateRecord (stageVersions : Dict String String) (record : CheckpointRecord) : Except String Unit := do
  checkOutputs artifactsById record
  checkInputs artifactsById record
  require ("checkpoint state checksum mismatch for stage " ++ record.stage)
    (record.stateChecksum = "" || record.stateChecksum = checkpointStateChecksum digest record)
  let expected := expectedVersion stageVersions record
  require ("stage version incompatible for " ++ record.stage ++ ": checkpoint=" ++ record.stageVersion ++
      " current=" ++ expected)
    (expected = "" || record.stageVersion = "" || expected = record.stageVersion)

def validateResume (stageVersions : Dict String String) : List CheckpointRecord → Except String (List String)
  | [] => .ok []
  | record :: rest =>
    if record.status ≠ "SUCCEEDED" then .ok []
    else do
      validateRecord digest artifactsById stageVersions record
      (validateResume stageVersions rest).map (record.stage :: ·)

/-- The checkpoints up to the first that did not succeed. -/
def leading (checkpoints : List CheckpointRecord) : List CheckpointRecord :=
  checkpoints.takeWhile (·.status = "SUCCEEDED")

variable {digest artifactsById} {stageVersions : Dict String String} {checkpoints : List CheckpointRecord} {names : List String}

/-- Resuming names the stages of the leading checkpoints, all of which were validated. -/
theorem validateResume_ok : validateResume digest artifactsById stageVersions checkpoints = .ok names ↔
    names = (leading checkpoints).map (·.stage) ∧
      ∀ record ∈ leading checkpoints, validateRecord digest artifactsById stageVersions record = .ok () := by
  induction checkpoints generalizing names with
  | nil => exact ⟨fun h => ⟨(Except.ok.inj h).symm, List.forall_mem_nil _⟩, fun h => h.1 ▸ rfl⟩
  | cons record rest ih =>
    rw [validateResume, leading, List.takeWhile_cons]
    by_cases hstatus : record.status = "SUCCEEDED"
    · rw [if_neg (not_not_intro hstatus), if_pos (decide_eq_true hstatus), then_eq_ok, List.forall_mem_cons, List.map_cons]
      cases hrest : validateResume digest artifactsById stageVersions rest with
      | error e =>
        refine iff_of_false (fun h => by cases h.2) fun h => ?_
        cases hrest.symm.trans (ih.mpr ⟨rfl, h.2.2⟩)
      | ok others =>
        obtain ⟨hothers, hvalid⟩ := ih.mp hrest
        constructor
        · rintro ⟨hrecord, hnames⟩
          cases hnames
          exact ⟨congrArg _ hothers, hrecord, hvalid⟩
        · rintro ⟨rfl, hrecord, _⟩
          rw [hothers]
          exact ⟨hrecord, rfl⟩
    · rw [if_pos hstatus, if_neg (by rw [decide_eq_true_iff]; exact hstatus)]
      exact ⟨fun h => ⟨(Except.ok.inj h).symm, List.forall_mem_nil _⟩, fun h => h.1 ▸ rfl⟩

theorem checkHashes_ok {missing mismatch : String → String} {pairs : List (String × String)} :
    checkHashes artifactsById missing mismatch pairs = .ok () ↔
      ∀ pair ∈ pairs, (artifactsById.lookup pair.1).map (·.contentHash) = some pair.2 := by
  rw [checkHashes, forM_eq_ok]
  refine forall₂_congr fun pair _ => ?_
  cases artifactsById.lookup pair.1 with
  | none => exact iff_of_false nofun nofun
  | some artifact =>
    change require _ _ = _ ↔ _
    rw [require_eq_ok, decide_eq_true_iff, Option.map_some, Option.some_inj, eq_comm]

/-- A validated checkpoint has the artifact and the hash of every pair it was compared by. -/
theorem validateRecord_outputs {record : CheckpointRecord}
    (h : validateRecord digest artifactsById stageVersions record = .ok ()) :
    ∀ pair ∈ record.outputArtifactIds.zip record.outputHashes,
      (artifactsById.lookup pair.1).map (·.contentHash) = some pair.2 := by
  rw [validateRecord, then_eq_ok] at h
  exact checkHashes_ok.mp h.1

end Validation
end StockContent.Pipeline
