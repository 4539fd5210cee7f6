import StockContent.Storage.Clock
import StockContent.Storage.Json
import StockContent.Storage.Machine
import StockContent.Storage.Table

/-! The signal outbox: a payload per signal, delivered under a lease by any number of
publishers. Every repository method is one transaction on the outbox table. -/
namespace StockContent.Signals
open Storage

inductive OutboxStatus where
  | pending | publishing | retry | published | deadLetter
  deriving DecidableEq, Repr

structure SignalOutboxRow where
  outboxId : String
  signalId : String
  contentSnapshotId : Option Json
  claimId : Option Json
  schemaVersion : String
  payload : List (String × Json)
  status : OutboxStatus := .pending
  attempts : Nat := 0
  nextAttemptAt : Option Time
  lastError : Option String := none
  leaseOwner : Option String := none
  leaseExpiresAt : Option Time := none
  createdAt : Time
  publishedAt : Option Time := none
  deriving DecidableEq

abbrev OutboxTable := Table SignalOutboxRow.outboxId

inductive OutboxError where
  | valueError (message : String)
  | runtimeError (message : String)
  | signalOutboxIntegrity (message : String)
  | keyError (message : String)
  | integrityError
  deriving DecidableEq

/-- The text functions the outbox relies on: a digest, and the text of a document value. -/
structure OutboxTexts where
  digest : String → String
  text : Json → String

section Outbox
variable (texts : OutboxTexts)

def outboxIdOf (signalId : String) : String :=
  "outbox-" ++ String.ofList ((texts.digest signalId).toList.take 32)

/-- `str(payload.get(key) or default)`: empty values count as absent. -/
def textOr (payload : List (String × Json)) (key default : String) : String :=
  match Json.lookup payload key with
  | none | some .null | some (.bool false) | some (.int 0) | some (.arr []) | some (.obj []) => default
  | some (.float q) => if q = 0 then default else texts.text (.float q)
  | some (.str s) => if s = "" then default else s
  | some v => texts.text v

def signalIdOf (payload : List (String × Json)) : String := textOr texts payload "signal_id" ""

def enqueued (payload : List (String × Json)) (now : Time) : SignalOutboxRow where
  outboxId := outboxIdOf texts (signalIdOf texts payload)
  signalId := signalIdOf texts payload
  contentSnapshotId := Json.lookup payload "content_snapshot_id"
  claimId := Json.lookup payload "claim_id"
  schemaVersion := textOr texts payload "signal_schema_version" "content-factor-signal.v4"
  payload
  nextAttemptAt := some now
  createdAt := now

/-- Only a taken signal id is passed over; a taken primary key under another signal
fails the insert. -/
def insertIgnore (row : SignalOutboxRow) (outbox : OutboxTable) : Except OutboxError OutboxTable :=
  if outbox.rows.any (·.signalId = row.signalId) then .ok outbox
  else match outbox.insert row with
    | some outbox' => .ok outbox'
    | none => .error .integrityError

def enqueue (payload : List (String × Json)) (now : Time) (outbox : OutboxTable) :
    Except OutboxError (OutboxTable × SignalOutboxRow) :=
  let signalId := signalIdOf texts payload
  if signalId = "" then .error (.valueError "outbox payload requires signal_id") else do
  let outbox ← insertIgnore (enqueued texts payload now) outbox
  match outbox.rows.find? (·.signalId = signalId) with
  | none => .error (.runtimeError "outbox row disappeared after a unique-key conflict")
  | some row =>
    if !(Json.obj row.payload).same (.obj payload) then
      .error (.signalOutboxIntegrity ("signal " ++ signalId ++ " already has a different payload"))
    else return (outbox, row)

/-- A missing due time or expiry does not hold a row back. -/
def claimable (now : Time) (row : SignalOutboxRow) : Bool :=
  (row.status == .pending || row.status == .retry || row.status == .publishing) &&
    row.nextAttemptAt.all (· ≤ now) && row.leaseExpiresAt.all (· ≤ now)

def publishing (workerId : String) (leaseSeconds : Int) (now : Time) (row : SignalOutboxRow) :
    SignalOutboxRow :=
  { row with
    status := .publishing
    leaseOwner := some workerId
    leaseExpiresAt := some (now + seconds leaseSeconds) }

@[simp] theorem publishing_outboxId (workerId : String) (leaseSeconds : Int) (now : Time)
    (row : SignalOutboxRow) : (publishing workerId leaseSeconds now row).outboxId = row.outboxId := rfl

/-- `locked` are the rows that `SKIP LOCKED` passes over. -/
def dueRows (locked : List String) (limit : Nat) (now : Time) (outbox : OutboxTable) : List SignalOutboxRow :=
  outbox.select (fun row => claimable now row && !locked.contains row.outboxId)
    (fun a b => a.createdAt < b.createdAt ∨ (a.createdAt = b.createdAt ∧ a.outboxId ≤ b.outboxId)) limit

def claimDue (locked : List String) (workerId : String) (limit : Nat) (leaseSeconds : Int) (now : Time)
    (outbox : OutboxTable) : OutboxTable × List SignalOutboxRow :=
  let rows := dueRows locked limit now outbox
  (outbox.modifyEach (rows.map (·.outboxId)) (publishing workerId leaseSeconds now)
      (publishing_outboxId workerId leaseSeconds now),
    rows.map (publishing workerId leaseSeconds now))

def assertOwner (outboxId workerId : String) (now : Time) (outbox : OutboxTable) :
    Except OutboxError SignalOutboxRow :=
  match outbox.get outboxId with
  | none => .error (.keyError "outbox row not found")
  | some row =>
    if row.status ≠ .publishing ∨ row.leaseOwner ≠ some workerId then
      .error (.signalOutboxIntegrity "outbox lease owner mismatch")
    else if row.leaseExpiresAt.any (· ≤ now) then .error (.signalOutboxIntegrity "outbox lease expired")
    else .ok row

def outboxRetrySeconds : List Int := [60, 300, 1800, 7200, 43200]

/-- How the holder of a row acknowledges its delivery. -/
inductive OutboxMark where
  | published
  | retry (error : String)
  deriving DecidableEq

def OutboxMark.apply (now : Time) (row : SignalOutboxRow) : OutboxMark → SignalOutboxRow
  | .published =>
    { row with
      status := .published
      publishedAt := some now
      leaseOwner := none
      leaseExpiresAt := none
      nextAttemptAt := none }
  | .retry error =>
    let failed : SignalOutboxRow := { row with
      attempts := row.attempts + 1
      lastError := some error
      leaseOwner := none
      leaseExpiresAt := none }
    if h : outboxRetrySeconds.length < row.attempts + 1 then
      { failed with status := .deadLetter, nextAttemptAt := none }
    else
      -- The schedule is indexed by the attempts made before this one.
      let delay := outboxRetrySeconds.get ⟨row.attempts, by omega⟩
      { failed with status := .retry, nextAttemptAt := some (now + seconds delay) }

@[simp] theorem OutboxMark.apply_outboxId (now : Time) (row : SignalOutboxRow) (mark : OutboxMark) :
    (mark.apply now row).outboxId = row.outboxId := by
  cases mark with
  | published => rfl
  | retry error =>
    simp only [apply]
    split <;> rfl

def applyMark (outboxId workerId : String) (mark : OutboxMark) (now : Time) (outbox : OutboxTable) :
    Except OutboxError (OutboxTable × SignalOutboxRow) := do
  let row ← assertOwner outboxId workerId now outbox
  return (outbox.modify outboxId (mark.apply now) (fun row => mark.apply_outboxId now row), mark.apply now row)

def markPublished (outboxId workerId : String) (now : Time) := applyMark outboxId workerId .published now
def markRetry (outboxId workerId error : String) (now : Time) := applyMark outboxId workerId (.retry error) now

end Outbox
end StockContent.Signals
