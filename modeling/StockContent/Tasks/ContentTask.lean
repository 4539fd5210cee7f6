import StockContent.Storage.Clock
import StockContent.Storage.Json
import StockContent.Storage.Machine
import StockContent.Storage.Table

/-! The content-task queue. Every repository method is one transaction on the task
table; the five worker writes share the lease test of `fencedRow`. -/
namespace StockContent.Tasks
open Storage

inductive TaskStatus where
  | pending | running | succeeded | failed
  deriving DecidableEq, Repr

def TaskStatus.terminal : TaskStatus → Bool
  | .succeeded | .failed => true
  | .pending | .running => false

structure ContentTask where
  taskId : String
  sourceType : String
  sourceRef : String
  status : TaskStatus := .pending
  stage : String := "queued"
  progress : Int := 0
  retryCount : Nat := 0
  maxRetries : Nat := 3
  error : Option String := none
  options : List (String × Json) := []
  result : List (String × Json) := []
  checkpoint : List (String × Json) := []
  idempotencyKey : Option String := none
  requestHash : Option String := none
  taskKind : String := "video_pipeline"
  leaseOwner : Option String := none
  leaseExpiresAt : Option Time := none
  fencingToken : Nat := 0
  deriving DecidableEq

structure ContentTaskRow extends ContentTask where
  createdAt : Time
  deriving DecidableEq

def ContentTaskRow.id (row : ContentTaskRow) : String := row.taskId

abbrev TaskTable := Table ContentTaskRow.id

inductive TaskError where
  | staleTaskLease (message : String)
  | idempotencyConflict (message : String)
  | integrityError
  deriving DecidableEq

/-- Creation, a claim and a renewal return the task, the other writes nothing. -/
abbrev Reply := Except TaskError (Option ContentTask)

def domain (row : ContentTaskRow) : ContentTask := row.toContentTask

def reserveExisting (existing : ContentTaskRow) (task : ContentTask) : Except TaskError ContentTask :=
  if existing.requestHash ≠ task.requestHash then
    .error (.idempotencyConflict "Idempotency-Key is already bound to a different request")
  else .ok (domain existing)

/-- The task is given as `to_dict` projects it for storage: redaction rewrites free
text and options, and leaves the queue columns alone. -/
def create (task : ContentTask) (now : Time) (tasks : TaskTable) :
    Except TaskError (TaskTable × Option ContentTask) :=
  let key := task.idempotencyKey.filter (· ≠ "")
  match key.bind fun k => tasks.rows.find? (·.idempotencyKey = some k) with
  | some existing => (reserveExisting existing task).map fun t => (tasks, some t)
  | none =>
    -- An empty key is not looked up, but the unique index still counts it as a value.
    if task.idempotencyKey.isSome ∧ ∃ row ∈ tasks.rows, row.idempotencyKey = task.idempotencyKey then
      .error .integrityError
    else match tasks.insert { task with createdAt := now } with
      | some tasks' => .ok (tasks', some task)
      | none => .error .integrityError

/-- The queue columns that `enqueue_ingestion` leaves at their defaults. -/
def queuedTask (taskId sourceType sourceRef : String) (options : List (String × Json))
    (idempotencyKey requestHash : Option String) : ContentTask :=
  { taskId, sourceType, sourceRef, options, idempotencyKey, requestHash }

/-- A replay record is created active and without a lease. -/
def replayTask (taskId sourceType sourceRef : String) (options : List (String × Json))
    (idempotencyKey requestHash : Option String) : ContentTask :=
  { taskId, sourceType, sourceRef, options, idempotencyKey, requestHash,
    status := .running, maxRetries := 1, taskKind := "replay" }

/-- A missing expiry compares as unknown, so the row is not selected. -/
def claimable (taskKind : String) (now : Time) (row : ContentTaskRow) : Bool :=
  row.retryCount < row.maxRetries && row.taskKind == taskKind &&
    (row.status == .pending || (row.status == .running && row.leaseExpiresAt.any (· < now)))

def claimed (workerId : String) (leaseSeconds : Int) (now : Time) (row : ContentTaskRow) : ContentTaskRow :=
  { row with
    status := .running
    leaseOwner := some workerId
    leaseExpiresAt := some (now + seconds leaseSeconds)
    fencingToken := row.fencingToken + 1 }

/-- `locked` are the rows that `SKIP LOCKED` passes over. -/
def claimPending (locked : List String) (workerId taskKind : String) (leaseSeconds : Int) (now : Time)
    (tasks : TaskTable) : TaskTable × Option ContentTask :=
  if taskKind = "legacy_unresolved" then (tasks, none) else
  match (tasks.select (fun row => claimable taskKind now row && !locked.contains row.taskId)
      (fun a b => a.createdAt ≤ b.createdAt) 1).head? with
  | none => (tasks, none)
  | some row =>
    (tasks.modify row.taskId (claimed workerId leaseSeconds now),
      some (domain (claimed workerId leaseSeconds now row)))

def holdsLease (workerId : String) (fencingToken : Nat) (now : Time) (row : ContentTaskRow) : Bool :=
  row.status == .running && row.leaseOwner == some workerId && row.fencingToken == fencingToken &&
    row.leaseExpiresAt.any (now < ·)

def staleLease (taskId : String) : TaskError :=
  .staleTaskLease ("content task lease is stale: " ++ taskId)

def fencedRow (taskId workerId : String) (fencingToken : Nat) (now : Time) (tasks : TaskTable) :
    Except TaskError ContentTaskRow :=
  match tasks.get taskId with
  | none => .error (staleLease taskId)
  | some row => if holdsLease workerId fencingToken now row then .ok row else .error (staleLease taskId)

def clampProgress (progress : Int) : Int := max 0 (min progress 100)

/-- The write of a worker that passed the lease test, with its own arguments. -/
inductive TaskWrite where
  | renewLease (leaseSeconds : Int)
  | updateProgress (stage : String) (progress : Int)
  | checkpoint (stage : String) (value : Json) (progress : Option Int)
  | commitEffect (result : List (String × Json))
  | fail (stage error : String)
  deriving DecidableEq

def TaskWrite.apply (now : Time) (row : ContentTaskRow) : TaskWrite → ContentTaskRow
  | .renewLease leaseSeconds => { row with leaseExpiresAt := some (now + seconds leaseSeconds) }
  | .updateProgress stage progress => { row with stage, progress := clampProgress progress }
  | .checkpoint stage value progress =>
    { row with
      stage
      checkpoint := Json.put row.checkpoint stage value
      progress := (progress.map clampProgress).getD row.progress }
  | .commitEffect result =>
    { row with
      status := .succeeded
      stage := "completed"
      progress := 100
      result
      checkpoint := Json.put row.checkpoint "completed" (.obj [("at", .str (isoformat now))])
      error := none
      leaseOwner := none
      leaseExpiresAt := none }
  | .fail stage error =>
    { row with
      retryCount := row.retryCount + 1
      status := if row.maxRetries ≤ row.retryCount + 1 then .failed else .pending
      stage
      error := some (String.ofList (error.toList.take 4000))
      leaseOwner := none
      leaseExpiresAt := none }

@[simp] theorem TaskWrite.apply_id (now : Time) (row : ContentTaskRow) (w : TaskWrite) :
    (w.apply now row).id = row.id := by cases w <;> rfl

def TaskWrite.returned (now : Time) (row : ContentTaskRow) : TaskWrite → Option ContentTask
  | .renewLease leaseSeconds => some (domain (TaskWrite.apply now row (.renewLease leaseSeconds)))
  | _ => none

def fencedWrite (taskId workerId : String) (fencingToken : Nat) (now : Time) (write : TaskWrite)
    (tasks : TaskTable) : Except TaskError (TaskTable × Option ContentTask) := do
  let row ← fencedRow taskId workerId fencingToken now tasks
  return (tasks.modify taskId (write.apply now) (fun row => write.apply_id now row), write.returned now row)

def renewLease (taskId workerId : String) (fencingToken : Nat) (leaseSeconds : Int) (now : Time) :=
  fencedWrite taskId workerId fencingToken now (.renewLease leaseSeconds)
def updateProgress (taskId stage : String) (progress : Int) (workerId : String) (fencingToken : Nat)
    (now : Time) :=
  fencedWrite taskId workerId fencingToken now (.updateProgress stage progress)
def checkpoint (taskId stage : String) (value : Json) (workerId : String) (fencingToken : Nat)
    (progress : Option Int) (now : Time) :=
  fencedWrite taskId workerId fencingToken now (.checkpoint stage value progress)
def commitEffect (taskId : String) (result : List (String × Json)) (workerId : String)
    (fencingToken : Nat) (now : Time) :=
  fencedWrite taskId workerId fencingToken now (.commitEffect result)
def fail (taskId stage error workerId : String) (fencingToken : Nat) (now : Time) :=
  fencedWrite taskId workerId fencingToken now (.fail stage error)

/-- How a replay ends: it was never queued, so no lease is asked for. -/
inductive ReplayEnd where
  | succeedUnleased (result : List (String × Json))
  | failUnleased (stage error : String)
  deriving DecidableEq

def ReplayEnd.apply (row : ContentTaskRow) : ReplayEnd → ContentTaskRow
  | .succeedUnleased result =>
    { row with status := .succeeded, stage := "completed", progress := 100, result, error := none }
  | .failUnleased stage error =>
    { row with status := .failed, stage, error := some (String.ofList (error.toList.take 4000)) }

@[simp] theorem ReplayEnd.apply_id (row : ContentTaskRow) (e : ReplayEnd) : (e.apply row).id = row.id := by
  cases e <;> rfl

def finishUnleased (taskId : String) (finish : ReplayEnd) (tasks : TaskTable) :
    Except TaskError (TaskTable × Option ContentTask) :=
  let inactive := TaskError.staleTaskLease ("unleased replay task is not active: " ++ taskId)
  match tasks.get taskId with
  | none => .error inactive
  | some row =>
    if row.taskKind ≠ "replay" ∨ row.status ≠ .running then .error inactive
    else .ok (tasks.modify taskId finish.apply (fun row => finish.apply_id row), none)

def succeedUnleased (taskId : String) (result : List (String × Json)) :=
  finishUnleased taskId (.succeedUnleased result)
def failUnleased (taskId stage error : String) := finishUnleased taskId (.failUnleased stage error)

end StockContent.Tasks
