import StockContent.Effects.EffectRuns
import StockContent.Pipeline.Checkpoint
import StockContent.Storage.JsonObject
import StockContent.Storage.Machine

/-! The checkpoint writes of the artifact repository. A write for the holder of the task
lease also records a stage effect, by which its repetition is recognised. -/
namespace StockContent.Pipeline
open Storage Tasks Effects

inductive ReceiptError where
  | task (error : TaskError)
  | artifactIntegrity (message : String)
  | runtimeError (message : String)
  | integrityError
  deriving DecidableEq

structure ContentStageCheckpointRow where
  checkpointId : String
  taskId : String
  stage : String
  stageVersion : String
  status : String
  artifactIds : List String
  artifactHashes : List String
  payload : Payload
  createdAt : Time
  deriving DecidableEq

abbrev CheckpointTable := Table ContentStageCheckpointRow.checkpointId

/-- The tables of a checkpoint write; `artifacts` is what the artifacts are written to. -/
structure ReceiptDb (D S : Type) where
  tasks : TaskTable
  effects : EffectTable D
  checkpoints : CheckpointTable
  artifacts : S

/-- The artifacts of a stage: the content hash of one, and its write within a transaction. -/
structure ArtifactWriter (A S : Type) where
  contentHash : A → String
  putInSession : S → A → Except ReceiptError S

section Repository
variable {D A S : Type} (digests : Digests D) (checksum : Json → String) (isoformat : Time → String)
  (writer : ArtifactWriter A S)

def fencedCheckpointPayloadHash (checkpoint : CheckpointRecord) (artifacts : List A) : Except ReceiptError D := do
  let stable := checkpointStateChecksum checksum checkpoint
  require (.artifactIntegrity "fenced checkpoint state checksum is invalid")
    (checkpoint.stateChecksum = "" || checkpoint.stateChecksum = stable)
  return digests.document (Json.obj [("checkpoint_state_checksum", .str stable),
    ("schema_version", .str checkpoint.schemaVersion),
    ("output_artifact_ids", CheckpointRecord.texts checkpoint.outputArtifactIds),
    ("output_artifact_hashes", CheckpointRecord.texts checkpoint.outputHashes),
    ("artifacts", CheckpointRecord.texts (artifacts.map writer.contentHash))]).canonical

def checkpointIdOf (taskId : String) (checkpoint : CheckpointRecord) : String :=
  taskId ++ ":" ++ checkpoint.stage ++ ":" ++ checkpoint.stageVersion

def effectKeyOf (checkpoint : CheckpointRecord) : String :=
  "stage:" ++ checkpoint.stage ++ ":" ++ checkpoint.stageVersion

def stageEffectKind : String := "STAGE_ARTIFACT_CHECKPOINT"

/-- `list(payload.get("attempt_history") or [])` -/
def attemptHistory (payload : Payload) : List Json :=
  match Json.lookup payload "attempt_history" with
  | some (.arr items) => items
  | _ => []

def checkpointRow (taskId : String) (checkpoint : CheckpointRecord) (now : Time) : ContentStageCheckpointRow where
  checkpointId := checkpointIdOf taskId checkpoint
  taskId
  stage := checkpoint.stage
  stageVersion := checkpoint.stageVersion
  status := checkpoint.status
  artifactIds := checkpoint.outputArtifactIds
  artifactHashes := checkpoint.outputHashes
  payload := checkpoint.toDict isoformat
  createdAt := now

/-- A later attempt takes the row over; the earlier one goes to its history. -/
def reattempted (checkpoint : CheckpointRecord) (existing : ContentStageCheckpointRow) : ContentStageCheckpointRow :=
  { existing with
    status := checkpoint.status
    artifactIds := checkpoint.outputArtifactIds
    artifactHashes := checkpoint.outputHashes
    payload := checkpoint.toDict isoformat ++
      [("attempt_history", .arr (attemptHistory existing.payload ++ [.obj existing.payload]))] }

def putCheckpointInSession (artifacts : List A) (taskId : String) (checkpoint : CheckpointRecord) (now : Time)
    (db : ReceiptDb D S) : Except ReceiptError (ReceiptDb D S) := do
  let stored ← artifacts.foldlM writer.putInSession db.artifacts
  match db.checkpoints.get (checkpointIdOf taskId checkpoint) with
  | none =>
    -- The task is a foreign key of the row.
    require .integrityError (db.tasks.get taskId).isSome
    let checkpoints ← (db.checkpoints.insert (checkpointRow isoformat taskId checkpoint now)).elim (.error .integrityError) .ok
    return { db with checkpoints, artifacts := stored }
  | some existing =>
    return { db with checkpoints := db.checkpoints.update (reattempted isoformat checkpoint existing), artifacts := stored }

def putWithCheckpoint (artifacts : List A) (taskId : String) (checkpoint : CheckpointRecord) (now : Time)
    (db : ReceiptDb D S) : Except ReceiptError (ReceiptDb D S × Unit) :=
  (putCheckpointInSession isoformat writer artifacts taskId checkpoint now db).map fun db => (db, ())

def stageEffect (taskId : String) (checkpoint : CheckpointRecord) (payloadHash : D) (fencingToken : Nat) (now : Time) :
    EffectRow D where
  effectId := effectIdOf digests taskId (effectKeyOf checkpoint)
  taskId
  effectKey := effectKeyOf checkpoint
  effectKind := stageEffectKind
  payloadHash
  projectionPayload := []
  fencingToken
  state := .completed
  attemptCount := 1
  createdAt := now
  completedAt := some now

variable [DecidableEq D]

/-- A first success writes the checkpoint and records the effect; a repetition writes nothing. -/
def putReceipt (artifacts : List A) (taskId : String) (checkpoint : CheckpointRecord) (fencingToken : Nat) (now : Time)
    (db : ReceiptDb D S) : Except ReceiptError (ReceiptDb D S × Unit) := do
  let payloadHash ← fencedCheckpointPayloadHash digests checksum writer checkpoint artifacts
  match db.effects.rows.find? (boundTo taskId (effectKeyOf checkpoint)) with
  | some effect =>
    require (.artifactIntegrity "fenced stage effect identity already stores different payload")
      (effect.payloadHash = payloadHash && effect.effectKind = stageEffectKind)
    return (db, ())
  | none =>
    let db ← putCheckpointInSession isoformat writer artifacts taskId checkpoint now db
    let effects ← (db.effects.insert (stageEffect digests taskId checkpoint payloadHash fencingToken now)).elim
      (.error .integrityError) .ok
    return ({ db with effects }, ())

def putWithFencedCheckpoint (artifacts : List A) (taskId : String) (checkpoint : CheckpointRecord) (workerId : String)
    (fencingToken : Nat) (now : Time) (db : ReceiptDb D S) : Except ReceiptError (ReceiptDb D S × Unit) := do
  let _ ← (fencedRow taskId workerId fencingToken now db.tasks).mapError .task
  if checkpoint.status ≠ "SUCCEEDED" then putWithCheckpoint isoformat writer artifacts taskId checkpoint now db
  else putReceipt digests checksum isoformat writer artifacts taskId checkpoint fencingToken now db

/-- The calls on the repository; what else becomes of the tasks is arbitrary. -/
inductive ReceiptCall (A : Type) where
  | putFenced (artifacts : List A) (taskId : String) (checkpoint : CheckpointRecord) (workerId : String) (fencingToken : Nat)
      (now : Time)
  | put (artifacts : List A) (taskId : String) (checkpoint : CheckpointRecord) (now : Time)
  | setTasks (tasks : TaskTable)

def execReceipt (db : ReceiptDb D S) : ReceiptCall A → ReceiptDb D S × Except ReceiptError Unit
  | .putFenced artifacts taskId checkpoint workerId fencingToken now =>
    settle db (putWithFencedCheckpoint digests checksum isoformat writer artifacts taskId checkpoint workerId fencingToken now db)
  | .put artifacts taskId checkpoint now => settle db (putWithCheckpoint isoformat writer artifacts taskId checkpoint now db)
  | .setTasks tasks => ({ db with tasks }, .ok ())

def receiptStore : Machine (ReceiptDb D S) (ReceiptCall A) (Except ReceiptError Unit) :=
  ⟨execReceipt digests checksum isoformat writer⟩

end Repository

/-! Receipts over whole runs: what a checkpoint write returned for is what the row says, as
long as nothing takes over the row of a recorded success. -/

section Keys
variable {D A S : Type} {digests : Digests D} {checksum : Json → String} {writer : ArtifactWriter A S}

/-- What names an effect of a task names its checkpoint row. -/
theorem checkpointIdOf_of_effectKey {checkpoint other : CheckpointRecord} (taskId : String)
    (h : effectKeyOf checkpoint = effectKeyOf other) : checkpointIdOf taskId checkpoint = checkpointIdOf taskId other := by
  simp only [effectKeyOf, String.append_assoc] at h
  simp only [checkpointIdOf, String.append_assoc]
  rw [(String.append_right_inj _).mp h]

/-- One receipt hash stands for one list of outputs and their hashes. -/
theorem outputs_of_payloadHash (hashing : Function.Injective digests.document) {checkpoint other : CheckpointRecord}
    {artifacts others : List A} {payloadHash : D}
    (h : fencedCheckpointPayloadHash digests checksum writer checkpoint artifacts = .ok payloadHash)
    (hother : fencedCheckpointPayloadHash digests checksum writer other others = .ok payloadHash) :
    checkpoint.outputArtifactIds = other.outputArtifactIds ∧ checkpoint.outputHashes = other.outputHashes := by
  rw [fencedCheckpointPayloadHash, then_eq_ok] at h hother
  have hdocument := hashing ((Except.ok.inj h.2).trans (Except.ok.inj hother.2).symm)
  have hkeys : ["checkpoint_state_checksum", "schema_version", "output_artifact_ids", "output_artifact_hashes",
      "artifacts"].Nodup := by decide
  rw [Json.canonical_obj_iff] at hdocument
  · simp only [List.map_cons, List.map_nil, List.cons.injEq, CheckpointRecord.texts, Json.canonical_texts] at hdocument
    obtain ⟨_, _, hids, hhashes, _⟩ := hdocument
    exact ⟨Json.texts_injective hids, Json.texts_injective hhashes⟩
  · simp only [List.map_cons, List.map_nil]
  · exact hkeys

end Keys

section Runs
variable {D A S : Type} {digests : Digests D} {checksum : Json → String} {isoformat : Time → String}
  {writer : ArtifactWriter A S} {taskId : String} {checkpoint : CheckpointRecord} {now : Time} {db db' : ReceiptDb D S}

/-- The durable row of the task, stage and version says what the checkpoint says. -/
def Recorded (taskId : String) (checkpoint : CheckpointRecord) (db : ReceiptDb D S) : Prop :=
  ∃ row, db.checkpoints.get (checkpointIdOf taskId checkpoint) = some row ∧
    row.taskId = taskId ∧ row.stage = checkpoint.stage ∧ row.stageVersion = checkpoint.stageVersion ∧
      row.status = checkpoint.status ∧ row.artifactIds = checkpoint.outputArtifactIds ∧
        row.artifactHashes = checkpoint.outputHashes

/-- The id of a checkpoint stands for one task, stage and version. -/
def OwnsRow (taskId : String) (checkpoint : CheckpointRecord) (db : ReceiptDb D S) : Prop :=
  ∀ row, db.checkpoints.get (checkpointIdOf taskId checkpoint) = some row →
    row.taskId = taskId ∧ row.stage = checkpoint.stage ∧ row.stageVersion = checkpoint.stageVersion

/-- A write over the row of a recorded success says what the row says. -/
def SparesReceipt (taskId : String) (checkpoint : CheckpointRecord) (db : ReceiptDb D S) : Prop :=
  ∀ effect ∈ db.effects.rows, boundTo taskId (effectKeyOf checkpoint) effect = true →
    ∀ row, db.checkpoints.get (checkpointIdOf taskId checkpoint) = some row →
      row.status = checkpoint.status ∧ row.artifactIds = checkpoint.outputArtifactIds ∧
        row.artifactHashes = checkpoint.outputHashes

/-- The row a checkpoint write leaves. -/
theorem putCheckpoint_get {artifacts : List A}
    (h : putCheckpointInSession isoformat writer artifacts taskId checkpoint now db = .ok db')
    (id : String) : db'.effects = db.effects ∧ db'.checkpoints.get id =
      if checkpointIdOf taskId checkpoint = id then
        some ((db.checkpoints.get id).elim (checkpointRow isoformat taskId checkpoint now) (reattempted isoformat checkpoint))
      else db.checkpoints.get id := by
  rw [putCheckpointInSession] at h
  obtain ⟨stored, _, h⟩ := bind_eq_ok.mp h
  cases hget : db.checkpoints.get (checkpointIdOf taskId checkpoint) with
  | none =>
    simp only [hget] at h
    rw [then_eq_ok] at h
    obtain ⟨checkpoints, hinsert, h⟩ := bind_eq_ok.mp h.2
    cases h
    refine ⟨rfl, (Table.get_insert (elim_eq_ok.mp hinsert) id).trans ?_⟩
    by_cases hid : checkpointIdOf taskId checkpoint = id
    · subst hid
      rw [hget]
      rfl
    · exact (if_neg hid).trans (if_neg hid).symm
  | some existing =>
    simp only [hget] at h
    cases h
    have hexisting : existing.checkpointId = checkpointIdOf taskId checkpoint := Table.get_key hget
    have hkey : (reattempted isoformat checkpoint existing).checkpointId = checkpointIdOf taskId checkpoint := hexisting
    refine ⟨rfl, ?_⟩
    by_cases hid : checkpointIdOf taskId checkpoint = id
    · subst hid
      rw [if_pos rfl, hget]
      have hself : db.checkpoints.get (reattempted isoformat checkpoint existing).checkpointId = some existing :=
        hkey ▸ hget
      exact hkey ▸ Table.get_update_self hself
    · rw [if_neg hid]
      exact Table.get_update_ne _ (hkey ▸ hid)

/-- A checkpoint that was written is recorded. -/
theorem putCheckpoint_recorded {artifacts : List A} (hown : OwnsRow taskId checkpoint db)
    (h : putCheckpointInSession isoformat writer artifacts taskId checkpoint now db = .ok db') :
    Recorded taskId checkpoint db' := by
  have hget := (putCheckpoint_get h (checkpointIdOf taskId checkpoint)).2
  rw [if_pos rfl] at hget
  refine ⟨_, hget, ?_⟩
  cases hrow : db.checkpoints.get (checkpointIdOf taskId checkpoint) with
  | none => exact ⟨rfl, rfl, rfl, rfl, rfl, rfl⟩
  | some existing =>
    obtain ⟨htask, hstage, hversion⟩ := hown existing hrow
    exact ⟨htask, hstage, hversion, rfl, rfl, rfl⟩

/-- Every recorded effect is the receipt of a checkpoint that is still recorded. -/
def Receipts (digests : Digests D) (checksum : Json → String) (writer : ArtifactWriter A S) (db : ReceiptDb D S) : Prop :=
  ∀ effect ∈ db.effects.rows, ∃ artifacts checkpoint, effect.effectKey = effectKeyOf checkpoint ∧
    checkpoint.status = "SUCCEEDED" ∧
      fencedCheckpointPayloadHash digests checksum writer checkpoint artifacts = .ok effect.payloadHash ∧
      Recorded effect.taskId checkpoint db

/-- A write that spares the recorded successes keeps their receipts. -/
theorem putCheckpoint_keeps {artifacts : List A} (hown : OwnsRow taskId checkpoint db)
    (hspare : SparesReceipt taskId checkpoint db)
    (hdb : Receipts digests checksum writer db)
    (h : putCheckpointInSession isoformat writer artifacts taskId checkpoint now db = .ok db') :
    Receipts digests checksum writer db' := by
  intro effect heffect
  rw [(putCheckpoint_get h "").1] at heffect
  obtain ⟨outputs, recorded, hkey, hstatus, hhash, row, hrow, htask, hstage, hversion, hsame⟩ := hdb effect heffect
  refine ⟨outputs, recorded, hkey, hstatus, hhash, ?_⟩
  have hget := (putCheckpoint_get h (checkpointIdOf effect.taskId recorded)).2
  by_cases hid : checkpointIdOf taskId checkpoint = checkpointIdOf effect.taskId recorded
  · -- The row is the one of the receipt, so the write says what the receipt says.
    rw [if_pos hid, hrow, Option.elim_some] at hget
    rw [← hid] at hrow
    obtain ⟨htask', hstage', hversion'⟩ := hown row hrow
    have hkeys : effectKeyOf checkpoint = effectKeyOf recorded := by
      rw [effectKeyOf, effectKeyOf, ← hstage', ← hversion', hstage, hversion]
    have hbound : boundTo taskId (effectKeyOf checkpoint) effect = true := by
      rw [boundTo, hkeys, hkey, ← htask', htask, beq_self_eq_true, beq_self_eq_true, Bool.and_self]
    obtain ⟨hstatus', hids, hhashes⟩ := hspare effect heffect hbound row hrow
    exact ⟨_, hget, htask, hstage, hversion, hstatus'.symm.trans hsame.1, hids.symm.trans hsame.2.1,
      hhashes.symm.trans hsame.2.2⟩
  · rw [if_neg hid] at hget
    exact ⟨row, hget.trans hrow, htask, hstage, hversion, hsame⟩

variable [DecidableEq D]

/-- A success that returned is recorded: it was written now, or its receipt was found. -/
theorem putReceipt_ok (hashing : Function.Injective digests.document) {artifacts : List A} {fencingToken : Nat}
    (hown : OwnsRow taskId checkpoint db) (hstatus : checkpoint.status = "SUCCEEDED")
    (hdb : Receipts digests checksum writer db)
    {reply : Unit} (h : putReceipt digests checksum isoformat writer artifacts taskId checkpoint fencingToken now db = .ok (db', reply)) :
    Recorded taskId checkpoint db' ∧ Receipts digests checksum writer db' := by
  rw [putReceipt] at h
  obtain ⟨payloadHash, hhash, h⟩ := bind_eq_ok.mp h
  cases hfind : db.effects.rows.find? (boundTo taskId (effectKeyOf checkpoint)) with
  | some effect =>
    simp only [hfind] at h
    rw [then_eq_ok, require_eq_ok, Bool.and_eq_true, decide_eq_true_iff] at h
    obtain ⟨⟨hsame, _⟩, h⟩ := h
    cases h
    have hbound := List.find?_some hfind
    rw [boundTo, Bool.and_eq_true, beq_iff_eq, beq_iff_eq] at hbound
    obtain ⟨htask, hkey⟩ := hbound
    obtain ⟨outputs, recorded, hkey', hsucceeded, hhash', row, hrow, hrest⟩ := hdb effect (List.mem_of_find?_eq_some hfind)
    have hid := checkpointIdOf_of_effectKey taskId (hkey.symm.trans hkey')
    rw [htask, ← hid] at hrow
    obtain ⟨_, _, _, hrowStatus, hids, hhashes⟩ := hrest
    obtain ⟨houtputs, houtputHashes⟩ := outputs_of_payloadHash hashing hhash (hsame ▸ hhash')
    obtain ⟨htask', hstage, hversion⟩ := hown row hrow
    refine ⟨⟨row, hrow, htask', hstage, hversion, ?_, hids.trans houtputs.symm, hhashes.trans houtputHashes.symm⟩, hdb⟩
    rw [hrowStatus, hsucceeded, hstatus]
  | none =>
    simp only [hfind] at h
    obtain ⟨written, hwritten, h⟩ := bind_eq_ok.mp h
    have hspare : SparesReceipt taskId checkpoint db := fun effect heffect hbound =>
      absurd hbound (List.find?_eq_none.mp hfind effect heffect)
    have hrecorded := putCheckpoint_recorded hown hwritten
    have hreceipts := putCheckpoint_keeps hown hspare hdb hwritten
    obtain ⟨effects, heffects, h⟩ := bind_eq_ok.mp h
    cases h
    refine ⟨hrecorded, fun effect heffect => ?_⟩
    change effect ∈ effects.rows at heffect
    rw [(Table.insert_eq_some (elim_eq_ok.mp heffects)).2] at heffect
    rcases List.mem_append.mp heffect with hold | hnew
    · exact hreceipts effect hold
    · cases List.mem_singleton.mp hnew
      exact ⟨artifacts, checkpoint, rfl, hstatus, hhash, hrecorded⟩

/-- A write finds the row of its own stage, and spares the row of a recorded success unless
it is a success that checks the receipt itself. -/
def KeepsReceipts (db : ReceiptDb D S) : ReceiptCall A → Prop
  | .putFenced _ taskId checkpoint workerId fencingToken now => current taskId workerId fencingToken now db.tasks = true →
      OwnsRow taskId checkpoint db ∧ (checkpoint.status ≠ "SUCCEEDED" → SparesReceipt taskId checkpoint db)
  | .put _ taskId checkpoint _ => OwnsRow taskId checkpoint db ∧ SparesReceipt taskId checkpoint db
  | .setTasks _ => True

omit [DecidableEq D] in
theorem ownsRow_iff : OwnsRow taskId checkpoint db ↔ (db.checkpoints.get (checkpointIdOf taskId checkpoint)).all
    (fun row => row.taskId = taskId ∧ row.stage = checkpoint.stage ∧ row.stageVersion = checkpoint.stageVersion) =
      true := by
  simp only [OwnsRow, Option.all_eq_true, decide_eq_true_iff]

omit [DecidableEq D] in
theorem sparesReceipt_iff : SparesReceipt taskId checkpoint db ↔ ∀ effect ∈ db.effects.rows,
    boundTo taskId (effectKeyOf checkpoint) effect = true → (db.checkpoints.get (checkpointIdOf taskId checkpoint)).all
      (fun row => row.status = checkpoint.status ∧ row.artifactIds = checkpoint.outputArtifactIds ∧
        row.artifactHashes = checkpoint.outputHashes) = true := by
  simp only [SparesReceipt, Option.all_eq_true, decide_eq_true_iff]

instance : Decidable (OwnsRow taskId checkpoint db) := decidable_of_iff _ ownsRow_iff.symm

instance : Decidable (SparesReceipt taskId checkpoint db) := decidable_of_iff _ sparesReceipt_iff.symm

instance (db : ReceiptDb D S) (call : ReceiptCall A) : Decidable (KeepsReceipts db call) :=
  match call with
  | .putFenced _ taskId checkpoint workerId fencingToken now => inferInstanceAs (Decidable
      (current taskId workerId fencingToken now db.tasks = true → OwnsRow taskId checkpoint db ∧
        (checkpoint.status ≠ "SUCCEEDED" → SparesReceipt taskId checkpoint db)))
  | .put _ taskId checkpoint _ => inferInstanceAs (Decidable (OwnsRow taskId checkpoint db ∧
    SparesReceipt taskId checkpoint db))
  | .setTasks _ => isTrue trivial

omit [DecidableEq D] in
theorem putWithCheckpoint_ok {artifacts : List A} {reply : Unit}
    (h : putWithCheckpoint isoformat writer artifacts taskId checkpoint now db = .ok (db', reply)) :
    putCheckpointInSession isoformat writer artifacts taskId checkpoint now db = .ok db' := by
  rw [putWithCheckpoint] at h
  cases hput : putCheckpointInSession isoformat writer artifacts taskId checkpoint now db with
  | error e =>
    rw [hput] at h
    cases h
  | ok written =>
    rw [hput] at h
    cases h
    rfl

theorem fencedRow_current {workerId : String} {fencingToken : Nat} {tasks : TaskTable} {row : ContentTaskRow}
    (h : fencedRow taskId workerId fencingToken now tasks = .ok row) :
    current taskId workerId fencingToken now tasks = true := by
  rw [fencedRow] at h
  rw [current]
  cases hget : tasks.get taskId with
  | none =>
    rw [hget] at h
    cases h
  | some stored =>
    rw [hget] at h
    dsimp only at h
    split at h
    · rename_i hlease
      exact hlease
    · cases h

/-- A fenced write that returned. -/
theorem putFenced_ok (hashing : Function.Injective digests.document) {artifacts : List A} {workerId : String}
    {fencingToken : Nat}
    (hdb : Receipts digests checksum writer db)
    (hkeeps : KeepsReceipts db (.putFenced artifacts taskId checkpoint workerId fencingToken now)) {reply : Unit}
    (h : putWithFencedCheckpoint digests checksum isoformat writer artifacts taskId checkpoint workerId fencingToken now db =
      .ok (db', reply)) : Recorded taskId checkpoint db' ∧ Receipts digests checksum writer db' := by
  rw [putWithFencedCheckpoint] at h
  obtain ⟨task, htask, h⟩ := bind_eq_ok.mp h
  have hcurrent := fencedRow_current (mapError_eq_ok.mp htask)
  obtain ⟨hown, hspare⟩ := hkeeps hcurrent
  by_cases hstatus : checkpoint.status = "SUCCEEDED"
  · rw [if_neg (not_not_intro hstatus)] at h
    exact putReceipt_ok hashing hown hstatus hdb h
  · rw [if_pos hstatus] at h
    have hput := putWithCheckpoint_ok h
    exact ⟨putCheckpoint_recorded hown hput, putCheckpoint_keeps hown (hspare hstatus) hdb hput⟩

theorem receipts_step (hashing : Function.Injective digests.document) (hdb : Receipts digests checksum writer db)
    {call : ReceiptCall A} (hkeeps : KeepsReceipts db call) :
    Receipts digests checksum writer ((receiptStore digests checksum isoformat writer).step db call) := by
  cases call with
  | putFenced artifacts taskId checkpoint workerId fencingToken now =>
    change Receipts digests checksum writer (settle db (putWithFencedCheckpoint digests checksum isoformat writer artifacts taskId
      checkpoint workerId fencingToken now db)).1
    cases hput : putWithFencedCheckpoint digests checksum isoformat writer artifacts taskId checkpoint workerId fencingToken now db with
    | error e => exact hdb
    | ok result => exact (putFenced_ok hashing hdb hkeeps hput).2
  | put artifacts taskId checkpoint now =>
    change Receipts digests checksum writer (settle db (putWithCheckpoint isoformat writer artifacts taskId checkpoint now db)).1
    cases hput : putWithCheckpoint isoformat writer artifacts taskId checkpoint now db with
    | error e => exact hdb
    | ok result => exact putCheckpoint_keeps hkeeps.1 hkeeps.2 hdb (putWithCheckpoint_ok hput)
  | setTasks tasks => exact hdb

/-- Whenever a fenced write returned, the durable row says what its checkpoint says. -/
def TruthfulReceipts (store : Machine (ReceiptDb D S) (ReceiptCall A) (Except ReceiptError Unit)) (db : ReceiptDb D S)
    (calls : List (ReceiptCall A)) : Prop :=
  ∀ done artifacts taskId checkpoint workerId fencingToken now rest,
    calls = done ++ ReceiptCall.putFenced artifacts taskId checkpoint workerId fencingToken now :: rest →
      store.outcome (store.run db done) (.putFenced artifacts taskId checkpoint workerId fencingToken now) = .ok () →
        Recorded taskId checkpoint (store.run db (done ++ [.putFenced artifacts taskId checkpoint workerId fencingToken now]))

/-- Nothing is recorded yet. -/
def unrecorded (artifacts : S) : ReceiptDb D S := ⟨.empty, .empty, .empty, artifacts⟩

/-- Over every run whose writes spare the rows of recorded successes, receipts are truthful. -/
theorem receipts_truthful (digests : Digests D) (checksum : Json → String) (isoformat : Time → String)
    (writer : ArtifactWriter A S)
    (hashing : Function.Injective digests.document) (artifacts : S) {calls : List (ReceiptCall A)}
    (hcalls : (receiptStore digests checksum isoformat writer).Along KeepsReceipts (unrecorded artifacts) calls) :
    TruthfulReceipts (receiptStore digests checksum isoformat writer) (unrecorded artifacts) calls := by
  rintro done outputs taskId checkpoint workerId fencingToken now rest rfl houtcome
  obtain ⟨hdone, hcall⟩ := (receiptStore digests checksum isoformat writer).along_append.mp hcalls
  have hdb := (receiptStore digests checksum isoformat writer).run_of_along (I := Receipts digests checksum writer)
    (fun _ _ h hkeeps => receipts_step hashing h hkeeps) (fun _ h => by cases h) hdone
  rw [Machine.run_concat]
  exact (putFenced_ok hashing hdb hcall.1 (settle_committed houtcome)).1

end Runs

/-- A task that a worker holds for a minute. -/
def leasedTo (workerId : String) (fencingToken : Nat) : TaskTable :=
  ⟨[{ taskId := "task-1", sourceType := "bilibili", sourceRef := "BV1", status := .running, leaseOwner := some workerId,
      leaseExpiresAt := some (seconds 60), fencingToken, createdAt := 0 }], List.nodup_singleton _⟩

def resolved : CheckpointRecord := { stage := "resolve", outputArtifactIds := ["source-1"], outputHashes := ["h1"] }

def unresolved : CheckpointRecord := { stage := "resolve", status := "FAILED", error := some "TimeoutError" }

/-- The store of this task: receipts are told apart by their documents. -/
def resolveStore : Machine (ReceiptDb Json Unit) (ReceiptCall String) (Except ReceiptError Unit) :=
  receiptStore ⟨id, id⟩ (fun _ => "001bdbd9b0be0ac64bd189b267e38ca868f327646e24db23dc408f98ce688662") (fun _ => "")
    ⟨id, fun _ _ => .ok ()⟩

/-- A failure before the success, and the success again. -/
def failedFirst : List (ReceiptCall String) :=
  [.setTasks (leasedTo "worker-a" 1), .putFenced [] "task-1" unresolved "worker-a" 1 (seconds 10),
    .putFenced ["h1"] "task-1" resolved "worker-a" 1 (seconds 20),
    .putFenced ["h1"] "task-1" resolved "worker-a" 1 (seconds 30)]

theorem failed_first_truthful : TruthfulReceipts resolveStore (unrecorded ()) failedFirst :=
  receipts_truthful ⟨id, id⟩ _ _ _ Function.injective_id () (by decide)

/-- A failure under the next lease, and then the success again. -/
def failedLater : List (ReceiptCall String) :=
  [.setTasks (leasedTo "worker-a" 1), .putFenced ["h1"] "task-1" resolved "worker-a" 1 (seconds 10),
    .setTasks (leasedTo "worker-b" 2), .putFenced [] "task-1" unresolved "worker-b" 2 (seconds 20),
    .putFenced ["h1"] "task-1" resolved "worker-b" 2 (seconds 30)]

/-- The receipt of the success is found, and the row still says that the stage failed. -/
theorem failed_later_untruthful : ¬ TruthfulReceipts resolveStore (unrecorded ()) failedLater := by
  intro h
  obtain ⟨row, hget, _, _, _, hstatus, _⟩ :=
    h (failedLater.take 4) ["h1"] "task-1" resolved "worker-b" 2 (seconds 30) [] rfl
    (by decide)
  have hfailed : ((resolveStore.run (unrecorded ()) (failedLater.take 4 ++
      [.putFenced ["h1"] "task-1" resolved "worker-b" 2 (seconds 30)])).checkpoints.get (checkpointIdOf "task-1" resolved)).map
        (·.status) = some "FAILED" := by decide
  rw [hget, Option.map_some, hstatus] at hfailed
  exact absurd hfailed (by decide)

end StockContent.Pipeline
