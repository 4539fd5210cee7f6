import StockContent.Tasks.ContentTask

/-! The fenced effect unit of work: an effect row is bound to one task and key, and
every write to it first asks for the current lease of that task. -/
namespace StockContent.Effects
open Storage Tasks

/-- The hash functions: of a text, and of a document written with sorted keys. -/
structure Digests (D : Type) where
  text : String → String
  document : Json → D

structure EffectIntent where
  effectKey : String
  effectKind : String
  payload : List (String × Json)

def EffectIntent.payloadHash {D : Type} (digests : Digests D) (intent : EffectIntent) : D :=
  digests.document (Json.obj intent.payload).canonical

inductive EffectState where
  | pending | dispatching | completed | deadLetter
  deriving DecidableEq, Repr

structure EffectRow (D : Type) where
  effectId : String
  taskId : String
  effectKey : String
  effectKind : String
  payloadHash : D
  projectionPayload : List (String × Json)
  fencingToken : Nat
  state : EffectState := .pending
  attemptCount : Nat := 0
  dispatchOwner : Option String := none
  dispatchExpiresAt : Option Time := none
  nextAttemptAt : Option Time := none
  lastErrorCode : Option String := none
  createdAt : Time
  completedAt : Option Time := none
  deriving DecidableEq

abbrev EffectTable (D : Type) := Table (EffectRow.effectId (D := D))

inductive EffectError where
  | task (error : TaskError)
  | valueError (message : String)
  | runtimeError (message : String)
  | callback (message : String)
  | integrityError
  deriving DecidableEq

/-- The tables an effect transaction reads and writes; `business` is what callbacks write. -/
structure EffectDb (D B : Type) where
  tasks : TaskTable
  effects : EffectTable D
  business : B

section UnitOfWork
variable {D B V : Type} (digests : Digests D)

/-- The lease test of a worker write, made inside the effect transaction. -/
def requireCurrent (taskId workerId : String) (fencingToken : Nat) (now : Time) (tasks : TaskTable) :
    Except EffectError ContentTaskRow :=
  (fencedRow taskId workerId fencingToken now tasks).mapError .task

def effectIdOf (taskId effectKey : String) : String := "eff_" ++ digests.text (taskId ++ "|" ++ effectKey)

def boundTo (taskId effectKey : String) (row : EffectRow D) : Bool :=
  row.taskId == taskId && row.effectKey == effectKey

def intended (taskId : String) (fencingToken : Nat) (intent : EffectIntent) (now : Time) : EffectRow D where
  effectId := effectIdOf digests taskId intent.effectKey
  taskId
  effectKey := intent.effectKey
  effectKind := intent.effectKind
  payloadHash := intent.payloadHash digests
  projectionPayload := intent.payload
  fencingToken
  createdAt := now

def restamped (fencingToken : Nat) (row : EffectRow D) : EffectRow D :=
  if row.state ≠ .completed then { row with fencingToken } else row

@[simp] theorem restamped_effectId (fencingToken : Nat) (row : EffectRow D) :
    (restamped fencingToken row).effectId = row.effectId := by
  unfold restamped; split <;> rfl

@[simp] theorem restamped_state (fencingToken : Nat) (row : EffectRow D) :
    (restamped fencingToken row).state = row.state := by
  unfold restamped; split <;> rfl

@[simp] theorem restamped_attemptCount (fencingToken : Nat) (row : EffectRow D) :
    (restamped fencingToken row).attemptCount = row.attemptCount := by
  unfold restamped; split <;> rfl

def completed (now : Time) (row : EffectRow D) : EffectRow D :=
  { row with state := .completed, completedAt := some now, attemptCount := row.attemptCount + 1 }

@[simp] theorem completed_effectId (now : Time) (row : EffectRow D) :
    (completed now row).effectId = row.effectId := rfl

variable [DecidableEq D]

def rebinds (intent : EffectIntent) (row : EffectRow D) : Bool :=
  row.effectKind != intent.effectKind || row.payloadHash != intent.payloadHash digests

/-- Find the row of this task and key or record it. -/
def intentRow (taskId : String) (fencingToken : Nat) (intent : EffectIntent) (now : Time)
    (effects : EffectTable D) : Except EffectError (EffectTable D × EffectRow D) :=
  match effects.rows.find? (boundTo taskId intent.effectKey) with
  | none =>
    let row := intended digests taskId fencingToken intent now
    match effects.insert row with
    | some effects' => .ok (effects', row)
    | none => .error .integrityError
  | some row =>
    if rebinds digests intent row then
      .error (.valueError "fenced effect key already binds different immutable payload")
    -- A recovered worker resumes an open intent under its own fence.
    else .ok (effects.modify row.effectId (restamped fencingToken) (restamped_effectId fencingToken),
      restamped fencingToken row)

/-- What `execute_sql` did: it returns the callback's value, or nothing when
the effect had been completed before and the callback was not called. -/
inductive Executed (V : Type) where
  | ran (value : V)
  | alreadyCompleted

def executeSql (taskId workerId : String) (fencingToken : Nat) (intent : EffectIntent)
    (callback : B → Except String (B × V)) (now : Time) (db : EffectDb D B) :
    Except EffectError (EffectDb D B × Executed V) := do
  let _ ← requireCurrent taskId workerId fencingToken now db.tasks
  let (effects, row) ← intentRow digests taskId fencingToken intent now db.effects
  if row.state = .completed then return ({ db with effects }, .alreadyCompleted)
  let (business, value) ← (callback db.business).mapError .callback
  return ({ db with effects := effects.modify row.effectId (completed now) (completed_effectId now), business },
    .ran value)

def prepareExternal (taskId workerId : String) (fencingToken : Nat) (intent : EffectIntent) (now : Time)
    (db : EffectDb D B) : Except EffectError (EffectDb D B × String) := do
  let _ ← requireCurrent taskId workerId fencingToken now db.tasks
  let (effects, row) ← intentRow digests taskId fencingToken intent now db.effects
  return ({ db with effects }, row.effectId)

/-- The fence check before an external call; the call is left out for a completed effect. -/
def checkExternal (taskId workerId : String) (fencingToken : Nat) (effectId : String) (now : Time)
    (db : EffectDb D B) : Except EffectError Bool := do
  let _ ← requireCurrent taskId workerId fencingToken now db.tasks
  return (db.effects.get effectId).any (·.state = .completed)

def acceptExternal (taskId workerId : String) (fencingToken : Nat) (effectId : String) (now : Time)
    (db : EffectDb D B) : Except EffectError (EffectDb D B × Unit) := do
  let _ ← requireCurrent taskId workerId fencingToken now db.tasks
  match db.effects.get effectId with
  | none => .error (.runtimeError "fenced effect intent disappeared")
  | some _ => return ({ db with effects := db.effects.modify effectId (completed now) (completed_effectId now) }, ())

/-- One external dispatch with nothing else running: three transactions and a call
between the second and the third, each at its own clock reading. -/
def dispatchExternal (taskId workerId : String) (fencingToken : Nat) (intent : EffectIntent)
    (callback : String → Except String V) (prepareAt checkAt acceptAt : Time) (db : EffectDb D B) :
    EffectDb D B × Except EffectError (Option V) :=
  match settle db (prepareExternal digests taskId workerId fencingToken intent prepareAt db) with
  | (db, .error e) => (db, .error e)
  | (db, .ok effectId) =>
    match checkExternal taskId workerId fencingToken effectId checkAt db with
    | .error e => (db, .error e)
    | .ok true => (db, .ok none)
    | .ok false =>
      match callback effectId with
      | .error e => (db, .error (.callback e))
      | .ok value =>
        let (db, reply) := settle db (acceptExternal taskId workerId fencingToken effectId acceptAt db)
        (db, reply.map fun _ => some value)

end UnitOfWork
end StockContent.Effects

/-! The knowledge projection dispatcher: it leases `KNOWLEDGE_INDEX` intents on its own,
after the task that recorded them, and counts deliveries. -/
namespace StockContent.Effects
open Storage

structure KnowledgeProjectionDispatcher where
  maxAttempts : Nat
  retryBaseSeconds : Nat
  maxAttempts_pos : 1 ≤ maxAttempts
  retryBaseSeconds_pos : 1 ≤ retryBaseSeconds

/-- Limits below one are raised to one. -/
def KnowledgeProjectionDispatcher.create (maxAttempts retryBaseSeconds : Int) :
    KnowledgeProjectionDispatcher where
  maxAttempts := (max 1 maxAttempts).toNat
  retryBaseSeconds := (max 1 retryBaseSeconds).toNat
  maxAttempts_pos := by omega
  retryBaseSeconds_pos := by omega

/-- A dispatch generation; the receipt seam names a row without its token. -/
structure DispatchClaim where
  effectId : String
  fencingToken : Option Nat
  deriving DecidableEq

inductive DispatchOutcome where
  | dispatched | retried | deadLettered | lost
  deriving DecidableEq, Repr

def knowledgeIndex : String := "KNOWLEDGE_INDEX"

section Dispatch
variable {D : Type}

/-- A missing expiry compares as unknown, so the row is not selected. -/
def due (now : Time) (row : EffectRow D) : Bool :=
  row.effectKind == knowledgeIndex &&
    ((row.state == .pending && row.nextAttemptAt.all (· ≤ now)) ||
      (row.state == .dispatching && row.dispatchExpiresAt.any (· ≤ now)))

def dueRows (locked : List String) (limit : Int) (now : Time) (effects : EffectTable D) : List (EffectRow D) :=
  effects.select (fun row => due now row && !locked.contains row.effectId)
    (fun a b => a.createdAt < b.createdAt ∨ (a.createdAt = b.createdAt ∧ a.effectId ≤ b.effectId))
    (max 1 limit).toNat

def dispatching (workerId : String) (leaseSeconds : Int) (now : Time) (row : EffectRow D) : EffectRow D :=
  { row with
    state := .dispatching
    dispatchOwner := some workerId
    dispatchExpiresAt := some (now + seconds (max 1 leaseSeconds))
    nextAttemptAt := none
    attemptCount := row.attemptCount + 1
    fencingToken := row.fencingToken + 1 }

@[simp] theorem dispatching_effectId (workerId : String) (leaseSeconds : Int) (now : Time) (row : EffectRow D) :
    (dispatching workerId leaseSeconds now row).effectId = row.effectId := rfl

def claimDue (locked : List String) (workerId : String) (limit leaseSeconds : Int) (now : Time)
    (effects : EffectTable D) : EffectTable D × List DispatchClaim :=
  let rows := dueRows locked limit now effects
  (effects.modifyEach (rows.map (·.effectId)) (dispatching workerId leaseSeconds now)
      (dispatching_effectId workerId leaseSeconds now),
    rows.map fun row => ⟨row.effectId, some (dispatching workerId leaseSeconds now row).fencingToken⟩)

def ownsDispatch (claim : DispatchClaim) (workerId : String) (now : Time) (row : EffectRow D) : Bool :=
  row.state == .dispatching && row.dispatchOwner == some workerId && row.dispatchExpiresAt.any (now < ·) &&
    claim.fencingToken.all (row.fencingToken = ·)

def owned (claim : DispatchClaim) (workerId : String) (now : Time) (effects : EffectTable D) :
    Option (EffectRow D) :=
  (effects.get claim.effectId).filter (ownsDispatch claim workerId now)

def delivered (now : Time) (row : EffectRow D) : EffectRow D :=
  { row with
    state := .completed
    completedAt := some now
    dispatchOwner := none
    dispatchExpiresAt := none
    lastErrorCode := none }

@[simp] theorem delivered_effectId (now : Time) (row : EffectRow D) :
    (delivered now row).effectId = row.effectId := rfl

/-- The delivery transaction. `index` stands for loading the units of the row and
writing them to the index: an error rolls the row back and is retried afterwards. -/
def deliver (claim : DispatchClaim) (workerId : String) (index : EffectRow D → Except String Unit) (now : Time)
    (effects : EffectTable D) : Except String (EffectTable D × DispatchOutcome) :=
  match owned claim workerId now effects with
  | none => .ok (effects, .lost)
  | some row => do
    index row
    return (effects.modify claim.effectId (delivered now) (delivered_effectId now), .dispatched)

namespace KnowledgeProjectionDispatcher
variable (dispatcher : KnowledgeProjectionDispatcher)

/-- Powers of two up to 256, within the hour. -/
def retryDelay (attemptCount : Nat) : Int :=
  min 3600 (dispatcher.retryBaseSeconds * 2 ^ min (attemptCount - 1) 8 : Nat)

def failed (error : String) (now : Time) (row : EffectRow D) : EffectRow D :=
  let row := { row with
    dispatchOwner := none
    dispatchExpiresAt := none
    lastErrorCode := some (String.ofList (error.toList.take 64)) }
  if dispatcher.maxAttempts ≤ row.attemptCount then { row with state := .deadLetter }
  else { row with
    state := .pending
    nextAttemptAt := some (now + seconds (dispatcher.retryDelay row.attemptCount)) }

@[simp] theorem failed_effectId (error : String) (now : Time) (row : EffectRow D) :
    (dispatcher.failed error now row).effectId = row.effectId := by
  unfold failed; dsimp only; split <;> rfl

def retry (claim : DispatchClaim) (workerId error : String) (now : Time) (effects : EffectTable D) :
    EffectTable D × DispatchOutcome :=
  match owned claim workerId now effects with
  | none => (effects, .lost)
  | some row =>
    (effects.modify claim.effectId (dispatcher.failed error now) (dispatcher.failed_effectId error now),
      if dispatcher.maxAttempts ≤ row.attemptCount then .deadLettered else .retried)

/-- A delivery that failed is retried in a transaction of its own, at a later clock reading. -/
def dispatchClaim (claim : DispatchClaim) (workerId : String) (index : EffectRow D → Except String Unit)
    (deliverAt retryAt : Time) (effects : EffectTable D) : EffectTable D × DispatchOutcome :=
  match deliver claim workerId index deliverAt effects with
  | .ok reply => reply
  | .error error => dispatcher.retry claim workerId error retryAt effects

end KnowledgeProjectionDispatcher
end Dispatch
end StockContent.Effects
