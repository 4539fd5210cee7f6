import StockContent.Storage.Clock
import StockContent.Storage.Table

/-! Retention: an artifact that has expired gets one immutable tombstone, and its bytes are deleted under it. -/
namespace StockContent.Retention
open Storage

inductive RetentionClass where
  | rawMedia
  | subtitle
  | transcript
  | knowledge
  deriving DecidableEq

def RetentionClass.value : RetentionClass → String
  | rawMedia => "raw_media"
  | subtitle => "subtitle"
  | transcript => "transcript"
  | knowledge => "knowledge"

structure RetentionPolicy where
  days : RetentionClass → Int
  valid : ∀ artifactClass, 1 ≤ days artifactClass ∧ days artifactClass ≤ 36500

def RetentionPolicy.expiresAt (policy : RetentionPolicy) (artifactClass : RetentionClass) (createdAt : Time) : Time :=
  createdAt + seconds (86400 * policy.days artifactClass)

/-- What may be deleted, named by stable ids without secrets. -/
structure RetentionCandidate (containsSensitiveValue : String → Bool) where
  artifactId : String
  artifactClass : RetentionClass
  contentHash : String
  sourceIdentityHash : String
  auditLineageId : String
  createdAt : Time
  legalHold : Bool
  stable : ∀ value ∈ [artifactId, contentHash, sourceIdentityHash, auditLineageId],
    value ≠ "" ∧ containsSensitiveValue value = false

structure Tombstone where
  tombstoneId : String
  artifactId : String
  artifactClass : RetentionClass
  contentHash : String
  sourceIdentityHash : String
  auditLineageId : String
  reason : String
  expiredAt : Time
  recordedAt : Time
  deriving DecidableEq

inductive RetentionExecutionState where
  | deletePending
  | deleted
  | deleteFailed
  deriving DecidableEq

structure RetentionExecution where
  tombstone : Tombstone
  state : RetentionExecutionState
  attemptCount : Nat
  lastErrorCode : Option String
  deriving DecidableEq

structure RetentionExecutionRow where
  tombstoneId : String
  artifactId : String
  artifactClass : RetentionClass
  contentHash : String
  sourceIdentityHash : String
  auditLineageId : String
  reason : String
  expiredAt : Time
  state : RetentionExecutionState
  attemptCount : Nat
  lastErrorCode : Option String
  createdAt : Time
  finalizedAt : Option Time
  deriving DecidableEq

abbrev RetentionTable := Table RetentionExecutionRow.tombstoneId

inductive RetentionError where
  | valueError (message : String)
  | keyError (message : String)
  | interrupted
  deriving DecidableEq

section Repository

def executionOf (row : RetentionExecutionRow) : RetentionExecution where
  tombstone :=
    { tombstoneId := row.tombstoneId
      artifactId := row.artifactId
      artifactClass := row.artifactClass
      contentHash := row.contentHash
      sourceIdentityHash := row.sourceIdentityHash
      auditLineageId := row.auditLineageId
      reason := row.reason
      expiredAt := row.expiredAt
      recordedAt := row.createdAt }
  state := row.state
  attemptCount := row.attemptCount
  lastErrorCode := row.lastErrorCode

def newRow (tombstone : Tombstone) (createdAt : Time) : RetentionExecutionRow where
  tombstoneId := tombstone.tombstoneId
  artifactId := tombstone.artifactId
  artifactClass := tombstone.artifactClass
  contentHash := tombstone.contentHash
  sourceIdentityHash := tombstone.sourceIdentityHash
  auditLineageId := tombstone.auditLineageId
  reason := tombstone.reason
  expiredAt := tombstone.expiredAt
  state := .deletePending
  attemptCount := 0
  lastErrorCode := none
  createdAt := createdAt
  finalizedAt := none

def getTombstone (rows : RetentionTable) (tombstoneId : String) : Option Tombstone :=
  (rows.get tombstoneId).map fun row => (executionOf row).tombstone

/-- The row under the id of the tombstone, or a new one where the artifact has none. -/
def prepareExecution (rows : RetentionTable) (tombstone : Tombstone) (createdAt : Time) :
    Except RetentionError (RetentionTable × RetentionExecution) :=
  match rows.get tombstone.tombstoneId with
  | some row => .ok (rows, executionOf row)
  | none =>
    match rows.rows.find? (·.artifactId = tombstone.artifactId) with
    | some byArtifact =>
      if (executionOf byArtifact).tombstone ≠ tombstone then
        .error (.valueError "retention artifact already binds different immutable tombstone")
      else .ok (rows, executionOf byArtifact)
    | none =>
      match rows.insert (newRow tombstone createdAt) with
      | some rows => .ok (rows, executionOf (newRow tombstone createdAt))
      | none => .error (.valueError "UNIQUE constraint failed")

/-- A deletion that is recorded; of a row that is deleted nothing changes. -/
def deletedRow (finalizedAt : Time) (row : RetentionExecutionRow) : RetentionExecutionRow :=
  if row.state ≠ .deleted then
    { row with
      state := .deleted
      attemptCount := row.attemptCount + 1
      lastErrorCode := none
      finalizedAt := some finalizedAt }
  else row

def failedRow (errorCode : String) (row : RetentionExecutionRow) : RetentionExecutionRow :=
  if row.state ≠ .deleted then
    { row with
      state := .deleteFailed
      attemptCount := row.attemptCount + 1
      lastErrorCode := some errorCode }
  else row

@[simp] theorem deletedRow_id (finalizedAt : Time) (row : RetentionExecutionRow) :
    (deletedRow finalizedAt row).tombstoneId = row.tombstoneId := by
  rw [deletedRow]
  split <;> rfl

@[simp] theorem failedRow_id (errorCode : String) (row : RetentionExecutionRow) :
    (failedRow errorCode row).tombstoneId = row.tombstoneId := by
  rw [failedRow]
  split <;> rfl

def markDeleted (rows : RetentionTable) (tombstoneId : String) (finalizedAt : Time) :
    Except RetentionError RetentionTable :=
  match rows.get tombstoneId with
  | none => .error (.keyError "retention execution not found")
  | some _ => .ok (rows.modify tombstoneId (deletedRow finalizedAt) (deletedRow_id finalizedAt))

def markFailed (rows : RetentionTable) (tombstoneId errorCode : String) : Except RetentionError RetentionTable :=
  if errorCode = "" ∨ 64 < errorCode.length then
    .error (.valueError "retention error code must be a bounded non-secret code")
  else match rows.get tombstoneId with
  | none => .error (.keyError "retention execution not found")
  | some _ => .ok (rows.modify tombstoneId (failedRow errorCode) (failedRow_id errorCode))

end Repository

section Service
variable {sensitive : String → Bool} (digest : String → String)

def tombstoneIdOf (candidate : RetentionCandidate sensitive) : String :=
  "ts_" ++ digest (String.intercalate "|"
    [candidate.artifactId, candidate.artifactClass.value, candidate.contentHash, candidate.auditLineageId])

def Tombstone.forCandidate (candidate : RetentionCandidate sensitive) (expiredAt now : Time) : Tombstone where
  tombstoneId := tombstoneIdOf digest candidate
  artifactId := candidate.artifactId
  artifactClass := candidate.artifactClass
  contentHash := candidate.contentHash
  sourceIdentityHash := candidate.sourceIdentityHash
  auditLineageId := candidate.auditLineageId
  reason := "RETENTION_EXPIRED"
  expiredAt := expiredAt
  recordedAt := now

inductive RetentionAction where
  | legalHold
  | keep
  | auditTombstonePlanned
  | auditTombstoneRecorded
  | retentionDeleted
  | retentionDeleteFailed
  deriving DecidableEq

structure RetentionPlan where
  tombstone : Option Tombstone
  dryRun : Bool
  action : RetentionAction
  deriving DecidableEq

/-- Where a call may break off: before the tombstone is recorded, before the row is prepared again, in the
deletion, or before its outcome is recorded. -/
inductive BreakPoint where
  | insert
  | prepare
  | delete
  | mark
  deriving DecidableEq

/-- A call of `execute`, with the policy it runs under, what its clocks say and what its adapter does: succeed, or
raise an exception of a class. -/
structure Call (sensitive : String → Bool) where
  policy : RetentionPolicy
  candidate : RetentionCandidate sensitive
  now : Time
  dryRun : Bool
  recordedAt : Time
  finalizedAt : Time
  adapterError : Option String
  breakAt : Option BreakPoint

def expiresAt (call : Call sensitive) : Time :=
  call.policy.expiresAt call.candidate.artifactClass call.candidate.createdAt

def insertImmutable (call : Call sensitive) (rows : RetentionTable) (tombstone : Tombstone) :
    Except RetentionError (RetentionTable × Tombstone) :=
  if call.breakAt = some .insert then .error .interrupted
  else (prepareExecution rows tombstone call.recordedAt).map fun (rows, execution) => (rows, execution.tombstone)

def plan (call : Call sensitive) (rows : RetentionTable) : Except RetentionError (RetentionTable × RetentionPlan) :=
  if call.candidate.legalHold then .ok (rows, ⟨none, call.dryRun, .legalHold⟩)
  else if call.now < expiresAt call then .ok (rows, ⟨none, call.dryRun, .keep⟩)
  else
    let tombstone := Tombstone.forCandidate digest call.candidate (expiresAt call) call.now
    if call.dryRun then .ok (rows, ⟨some tombstone, true, .auditTombstonePlanned⟩)
    else match getTombstone rows tombstone.tombstoneId with
    | some existing => .ok (rows, ⟨some existing, false, .auditTombstoneRecorded⟩)
    | none => (insertImmutable call rows tombstone).map fun (rows, persisted) =>
        (rows, ⟨some persisted, false, .auditTombstoneRecorded⟩)

/-- The class of an exception is a safe diagnostic; its message is not stored. -/
def safeErrorCode (errorClass : String) : String :=
  String.ofList ((if errorClass = "" then "DELETE_FAILED" else errorClass).toList.take 64)

/-- A call of the byte deleter, with the row that is stored under its key. -/
structure Deletion (sensitive : String → Bool) where
  call : Call sensitive
  key : String
  durable : Option RetentionExecutionRow

/-- The execution table, with every call of the byte deleter and every outcome that was recorded. -/
structure World (sensitive : String → Bool) where
  rows : RetentionTable
  deletions : List (Deletion sensitive)
  outcomes : List (String × Bool)

def recordOutcome (call : Call sensitive) (tombstone : Tombstone) (w : World sensitive) :
    World sensitive × Except RetentionError RetentionPlan :=
  if call.breakAt = some .delete ∨ call.breakAt = some .mark then (w, .error .interrupted)
  else match call.adapterError with
  | some errorClass =>
    match markFailed w.rows tombstone.tombstoneId (safeErrorCode errorClass) with
    | .error error => (w, .error error)
    | .ok rows => ({ w with rows := rows, outcomes := w.outcomes ++ [(tombstone.tombstoneId, false)] },
        .ok ⟨some tombstone, false, .retentionDeleteFailed⟩)
  | none =>
    match markDeleted w.rows tombstone.tombstoneId call.finalizedAt with
    | .error error => (w, .error error)
    | .ok rows => ({ w with rows := rows, outcomes := w.outcomes ++ [(tombstone.tombstoneId, true)] },
        .ok ⟨some tombstone, false, .retentionDeleted⟩)

/-- A recorded tombstone: its row is prepared again, and unless it is deleted the bytes are. -/
def carryOut (call : Call sensitive) (tombstone : Tombstone) (w : World sensitive) :
    World sensitive × Except RetentionError RetentionPlan :=
  if call.breakAt = some .prepare then (w, .error .interrupted)
  else match prepareExecution w.rows tombstone call.recordedAt with
  | .error error => (w, .error error)
  | .ok (rows, execution) =>
    if execution.state = .deleted then ({ w with rows := rows }, .ok ⟨some tombstone, false, .retentionDeleted⟩)
    else recordOutcome call tombstone
      { w with
        rows := rows
        deletions := w.deletions ++ [⟨call, tombstone.tombstoneId, rows.get tombstone.tombstoneId⟩] }

def execute (call : Call sensitive) (w : World sensitive) : World sensitive × Except RetentionError RetentionPlan :=
  match plan digest call w.rows with
  | .error error => (w, .error error)
  | .ok (rows, planned) =>
    match planned.tombstone with
    | none => ({ w with rows := rows }, .ok planned)
    | some tombstone =>
      if call.dryRun then ({ w with rows := rows }, .ok planned)
      else carryOut call tombstone { w with rows := rows }

variable {digest} {call : Call sensitive} {rows rows' : RetentionTable}

/-- Every error code that the service records passes the check of the repository. -/
theorem safeErrorCode_bounded (errorClass : String) :
    ¬ (safeErrorCode errorClass = "" ∨ 64 < (safeErrorCode errorClass).length) := by
  have hne : (if errorClass = "" then "DELETE_FAILED" else errorClass).toList ≠ [] := by
    split
    · decide
    · rename_i h
      rwa [ne_eq, String.toList_eq_nil_iff]
  rw [safeErrorCode, String.length_ofList, not_or, not_lt]
  refine ⟨fun h => ?_, List.length_take_le _ _⟩
  have hnil := congrArg String.toList h
  rw [String.toList_ofList] at hnil
  rcases List.take_eq_nil_iff.mp hnil with h | h
  · cases h
  · exact hne h

/-- What a call may add to the table: the row of its own tombstone, for an artifact that has none. -/
inductive Recorded (digest : String → String) (call : Call sensitive) (rows : RetentionTable) : RetentionTable → Prop
  | same : Recorded digest call rows rows
  | added {rows' : RetentionTable}
      (hinsert : rows.insert (newRow (Tombstone.forCandidate digest call.candidate (expiresAt call) call.now)
        call.recordedAt) = some rows')
      (hartifact : ∀ other ∈ rows.rows, other.artifactId ≠ call.candidate.artifactId) : Recorded digest call rows rows'

theorem prepareExecution_ok {tombstone : Tombstone} {createdAt : Time} {execution : RetentionExecution}
    (h : prepareExecution rows tombstone createdAt = .ok (rows', execution)) :
    ∃ row, rows'.get tombstone.tombstoneId = some row ∧ execution = executionOf row ∧
      (rows' = rows ∨ rows.insert (newRow tombstone createdAt) = some rows' ∧
        ∀ other ∈ rows.rows, other.artifactId ≠ tombstone.artifactId) := by
  rw [prepareExecution] at h
  cases hget : rows.get tombstone.tombstoneId with
  | some row =>
    rw [hget] at h
    cases h
    exact ⟨row, hget, rfl, .inl rfl⟩
  | none =>
    rw [hget] at h
    cases hartifact : rows.rows.find? (·.artifactId = tombstone.artifactId) with
    | some other =>
      rw [hartifact] at h
      dsimp only at h
      by_cases hsame : (executionOf other).tombstone = tombstone
      · -- a row with this very tombstone would have been found under its id
        have hid : other.tombstoneId = tombstone.tombstoneId := congrArg Tombstone.tombstoneId hsame
        rw [← hid, Table.get_of_mem (List.mem_of_find?_eq_some hartifact)] at hget
        cases hget
      · rw [if_pos hsame] at h
        cases h
    | none =>
      rw [hartifact] at h
      cases hinsert : rows.insert (newRow tombstone createdAt) with
      | none =>
        rw [hinsert] at h
        cases h
      | some inserted =>
        rw [hinsert] at h
        cases h
        refine ⟨newRow tombstone createdAt, ?_, rfl, .inr ⟨rfl, fun other hother => ?_⟩⟩
        · rw [Table.get_insert hinsert]
          exact if_pos rfl
        · simpa using List.find?_eq_none.mp hartifact other hother

/-- A candidate whose bytes may go: not on hold, expired under the policy of the call, and not in a dry run. -/
structure Due (call : Call sensitive) : Prop where
  free : call.candidate.legalHold = false
  expired : expiresAt call ≤ call.now
  real : call.dryRun = false

/-- A plan goes on to the deletion only for what is due, with the tombstone of the row under its id. -/
theorem plan_ok {planned : RetentionPlan} (h : plan digest call rows = .ok (rows', planned)) :
    Recorded digest call rows rows' ∧ ∀ tombstone, planned.tombstone = some tombstone → call.dryRun = false →
      Due call ∧ ∃ row, rows'.get (tombstoneIdOf digest call.candidate) = some row ∧
        tombstone = (executionOf row).tombstone := by
  rw [plan] at h
  by_cases hhold : call.candidate.legalHold = true
  · rw [if_pos hhold] at h
    cases h
    exact ⟨.same, fun tombstone hnone => by cases hnone⟩
  rw [if_neg hhold] at h
  by_cases hlive : call.now < expiresAt call
  · rw [if_pos hlive] at h
    cases h
    exact ⟨.same, fun tombstone hnone => by cases hnone⟩
  rw [if_neg hlive] at h
  dsimp only at h
  by_cases hdry : call.dryRun = true
  · rw [if_pos hdry] at h
    cases h
    exact ⟨.same, fun tombstone _ hreal => by cases hdry.symm.trans hreal⟩
  rw [if_neg hdry] at h
  have hdue : Due call := ⟨Bool.eq_false_iff.mpr hhold, not_lt.mp hlive, Bool.eq_false_iff.mpr hdry⟩
  have hid : (Tombstone.forCandidate digest call.candidate (expiresAt call) call.now).tombstoneId =
      tombstoneIdOf digest call.candidate := rfl
  rw [getTombstone, hid] at h
  cases hget : rows.get (tombstoneIdOf digest call.candidate) with
  | some row =>
    rw [hget] at h
    cases h
    refine ⟨.same, fun tombstone hsome _ => ⟨hdue, row, hget, ?_⟩⟩
    exact (Option.some_inj.mp hsome).symm
  | none =>
    rw [hget] at h
    dsimp only [Option.map_none] at h
    rw [insertImmutable] at h
    by_cases hbreak : call.breakAt = some .insert
    · rw [if_pos hbreak] at h
      cases h
    rw [if_neg hbreak] at h
    cases hprepare : prepareExecution rows (Tombstone.forCandidate digest call.candidate (expiresAt call) call.now)
        call.recordedAt with
    | error error =>
      rw [hprepare] at h
      cases h
    | ok result =>
      obtain ⟨inserted, execution⟩ := result
      rw [hprepare] at h
      cases h
      obtain ⟨row, hrow, rfl, hrec⟩ := prepareExecution_ok hprepare
      refine ⟨?_, fun tombstone hsome _ => ⟨hdue, row, hrow, (Option.some_inj.mp hsome).symm⟩⟩
      rcases hrec with rfl | ⟨hinsert, hartifact⟩
      · exact .same
      · exact .added hinsert hartifact

/-- What a call of `execute` does: it records a tombstone at most; or it deletes, under a row that is not deleted, and
then an outcome is recorded for this row or none is. -/
inductive Executed (digest : String → String) (call : Call sensitive) (w : World sensitive) : World sensitive → Prop
  | planned {rows : RetentionTable} (hrows : Recorded digest call w.rows rows) :
      Executed digest call w { w with rows := rows }
  | deleted {rows : RetentionTable} {row : RetentionExecutionRow} (hrows : Recorded digest call w.rows rows)
      (hdue : Due call) (hget : rows.get (tombstoneIdOf digest call.candidate) = some row)
      (hstate : row.state ≠ .deleted) :
      Executed digest call w
        { rows := rows
          deletions := w.deletions ++ [⟨call, tombstoneIdOf digest call.candidate, some row⟩]
          outcomes := w.outcomes }
  | failed {rows : RetentionTable} {row : RetentionExecutionRow} {errorCode : String}
      (hrows : Recorded digest call w.rows rows) (hdue : Due call)
      (hget : rows.get (tombstoneIdOf digest call.candidate) = some row) (hstate : row.state ≠ .deleted) :
      Executed digest call w
        { rows := rows.modify (tombstoneIdOf digest call.candidate) (failedRow errorCode) (failedRow_id errorCode)
          deletions := w.deletions ++ [⟨call, tombstoneIdOf digest call.candidate, some row⟩]
          outcomes := w.outcomes ++ [(tombstoneIdOf digest call.candidate, false)] }
  | succeeded {rows : RetentionTable} {row : RetentionExecutionRow} (hrows : Recorded digest call w.rows rows)
      (hdue : Due call) (hget : rows.get (tombstoneIdOf digest call.candidate) = some row)
      (hstate : row.state ≠ .deleted) :
      Executed digest call w
        { rows := rows.modify (tombstoneIdOf digest call.candidate) (deletedRow call.finalizedAt)
            (deletedRow_id call.finalizedAt)
          deletions := w.deletions ++ [⟨call, tombstoneIdOf digest call.candidate, some row⟩]
          outcomes := w.outcomes ++ [(tombstoneIdOf digest call.candidate, true)] }

theorem execute_executed (digest : String → String) (call : Call sensitive) (w : World sensitive) :
    Executed digest call w (execute digest call w).1 := by
  rw [execute]
  cases hplan : plan digest call w.rows with
  | error error => exact .planned .same
  | ok result =>
    obtain ⟨rows, planned⟩ := result
    obtain ⟨hrows, hdelete⟩ := plan_ok hplan
    dsimp only
    cases htombstone : planned.tombstone with
    | none => exact .planned hrows
    | some tombstone =>
      dsimp only
      by_cases hdry : call.dryRun = true
      · rw [if_pos hdry]
        exact .planned hrows
      rw [if_neg hdry]
      obtain ⟨hdue, row, hget, rfl⟩ := hdelete tombstone htombstone (Bool.eq_false_iff.mpr hdry)
      have hid : row.tombstoneId = tombstoneIdOf digest call.candidate := Table.get_key hget
      have hidExecution : (executionOf row).tombstone.tombstoneId = tombstoneIdOf digest call.candidate := hid
      rw [carryOut]
      by_cases hbreak : call.breakAt = some .prepare
      · rw [if_pos hbreak]
        exact .planned hrows
      rw [if_neg hbreak, prepareExecution, hidExecution, hget]
      dsimp only
      by_cases hstate : (executionOf row).state = .deleted
      · rw [if_pos hstate]
        exact .planned hrows
      rw [if_neg hstate, recordOutcome]
      by_cases hstop : call.breakAt = some .delete ∨ call.breakAt = some .mark
      · rw [if_pos hstop, hget]
        exact .deleted hrows hdue hget hstate
      rw [if_neg hstop]
      cases call.adapterError with
      | some errorClass =>
        dsimp only
        rw [markFailed, if_neg (safeErrorCode_bounded errorClass), hidExecution, hget]
        exact .failed hrows hdue hget hstate
      | none =>
        dsimp only
        rw [markDeleted, hidExecution, hget]
        exact .succeeded hrows hdue hget hstate

end Service
end StockContent.Retention
