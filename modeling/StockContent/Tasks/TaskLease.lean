import StockContent.Storage.Clock
import StockContent.Storage.Json
import StockContent.Storage.Machine
import StockContent.Storage.Table

/-! Runs of background tasks: a state machine under a lease with a fencing token, and the
repository that keeps them. Every repository method is one transaction on one run. -/
namespace StockContent.Tasks
open Storage

inductive TaskRunState where
  | pending | running | paused | retrying | succeeded | failed | invalidated
  deriving DecidableEq

def TaskRunState.text : TaskRunState → String
  | .pending => "PENDING"
  | .running => "RUNNING"
  | .paused => "PAUSED"
  | .retrying => "RETRYING"
  | .succeeded => "SUCCEEDED"
  | .failed => "FAILED"
  | .invalidated => "INVALIDATED"

inductive OperatorAction where
  | pause | resume | retry | invalidate | rebuild
  deriving DecidableEq

structure TaskRun where
  taskRunId : String
  taskType : String
  state : TaskRunState := .pending
  owner : Option String := none
  leaseExpiresAt : Option Time := none
  fencingToken : Nat := 0
  checkpoints : List (String × Json) := []
  attempt : Nat := 0
  deriving DecidableEq

inductive TaskRunError where
  | leaseError (message : String)
  | valueError (message : String)
  | keyError (taskRunId : String)
  deriving DecidableEq

namespace TaskRun

def leasedTo (owner : String) (now ttl : Time) (run : TaskRun) : TaskRun :=
  { run with
    state := .running
    owner := some owner
    leaseExpiresAt := some (now + ttl)
    fencingToken := run.fencingToken + 1 }

/-- A run is leased again by its own owner, and by another one after the lease expired. -/
def acquireLease (run : TaskRun) (owner : String) (now ttl : Time) : Except TaskRunError TaskRun :=
  if run.state = .succeeded ∨ run.state = .invalidated then
    .error (.leaseError ("cannot lease terminal task: " ++ run.state.text))
  else if (run.owner.filter (· ≠ "")).isSome ∧ run.leaseExpiresAt.any (now < ·) ∧ run.owner ≠ some owner then
    .error (.leaseError "task lease is held by another worker")
  else .ok (run.leasedTo owner now ttl)

def requireLease (run : TaskRun) (owner : String) (fencingToken : Nat) (now : Time) : Except TaskRunError Unit :=
  if run.owner ≠ some owner ∨ run.fencingToken ≠ fencingToken then
    .error (.leaseError "stale fencing token or owner")
  else if run.leaseExpiresAt.any (now < ·) then .ok ()
  else .error (.leaseError "task lease has expired")

def renewLease (run : TaskRun) (owner : String) (fencingToken : Nat) (now ttl : Time) : Except TaskRunError TaskRun := do
  run.requireLease owner fencingToken now
  return { run with leaseExpiresAt := some (now + ttl) }

def saveCheckpoint (run : TaskRun) (owner : String) (fencingToken : Nat) (name : String) (payload : Json) (now : Time) :
    Except TaskRunError TaskRun := do
  run.requireLease owner fencingToken now
  return { run with checkpoints := Json.put run.checkpoints name payload }

/-- The targets of a transition by the holder of the lease. -/
def allowed : TaskRunState → List TaskRunState
  | .running => [.succeeded, .failed, .paused, .retrying]
  | .retrying => [.running, .failed]
  | .paused => [.running, .invalidated]
  | _ => []

/-- Success and failure release the lease and keep the fencing token. -/
def moved (target : TaskRunState) (run : TaskRun) : TaskRun :=
  let released := target == .succeeded || target == .failed
  { run with
    state := target
    owner := if released then none else run.owner
    leaseExpiresAt := if released then none else run.leaseExpiresAt
    attempt := run.attempt + if target = .retrying then 1 else 0 }

def transition (run : TaskRun) (target : TaskRunState) (owner : String) (fencingToken : Nat) (now : Time) :
    Except TaskRunError TaskRun := do
  run.requireLease owner fencingToken now
  if target ∉ allowed run.state then
    .error (.valueError ("invalid task transition " ++ run.state.text ++ " -> " ++ target.text))
  return run.moved target

/-- An operator asks for no lease. -/
def operatorAction (run : TaskRun) : OperatorAction → TaskRun
  | .invalidate => { run with state := .invalidated, owner := none, leaseExpiresAt := none }
  | .rebuild => { run with state := .retrying, owner := none, leaseExpiresAt := none, attempt := run.attempt + 1 }
  | .pause => { run with state := .paused }
  | .resume => { run with state := .running }
  | .retry => { run with state := .retrying }

end TaskRun

abbrev TaskRunTable := Table TaskRun.taskRunId

namespace TaskRunTable

def create (taskType taskRunId : String) (runs : TaskRunTable) : TaskRunTable :=
  (runs.insert { taskRunId, taskType }).getD runs

/-- A change of the locked row of a run. -/
def onRun (taskRunId : String) (change : TaskRun → Except TaskRunError TaskRun) (runs : TaskRunTable) :
    Except TaskRunError (TaskRunTable × TaskRun) :=
  match runs.get taskRunId with
  | none => .error (.keyError taskRunId)
  | some run => do
    let run ← change run
    return (runs.update run, run)

def acquire (taskRunId owner : String) (now ttl : Time) :=
  onRun taskRunId fun run => run.acquireLease owner now ttl
def renew (taskRunId owner : String) (fencingToken : Nat) (now ttl : Time) :=
  onRun taskRunId fun run => run.renewLease owner fencingToken now ttl
def saveCheckpoint (taskRunId owner : String) (fencingToken : Nat) (name : String) (payload : Json) (now : Time) :=
  onRun taskRunId fun run => run.saveCheckpoint owner fencingToken name payload now
def transition (taskRunId : String) (target : TaskRunState) (owner : String) (fencingToken : Nat) (now : Time) :=
  onRun taskRunId fun run => run.transition target owner fencingToken now
def operatorAction (taskRunId : String) (action : OperatorAction) :=
  onRun taskRunId fun run => .ok (run.operatorAction action)

end TaskRunTable

namespace TaskRun
variable {run run' : TaskRun} {owner : String} {fencingToken : Nat} {now ttl : Time}

/-- A run that is not over and that nobody else holds. -/
def leasable (owner : String) (now : Time) (run : TaskRun) : Bool :=
  run.state != .succeeded && run.state != .invalidated &&
    (run.owner.all (fun holder => holder == "" || holder == owner) || !run.leaseExpiresAt.any (now < ·))

theorem acquireLease_eq (run : TaskRun) (owner : String) (now ttl : Time) :
    (run.leasable owner now = true → run.acquireLease owner now ttl = .ok (run.leasedTo owner now ttl)) ∧
      (run.leasable owner now = false → ∃ e, run.acquireLease owner now ttl = .error e) := by
  unfold acquireLease
  by_cases hstate : run.state = .succeeded ∨ run.state = .invalidated
  · rw [if_pos hstate]
    refine ⟨fun h => ?_, fun _ => ⟨_, rfl⟩⟩
    rcases hstate with hstate | hstate <;> simp [leasable, hstate] at h
  rw [if_neg hstate]
  push Not at hstate
  by_cases hheld : (run.owner.filter (· ≠ "")).isSome ∧ run.leaseExpiresAt.any (now < ·) ∧ run.owner ≠ some owner
  · rw [if_pos hheld]
    refine ⟨fun h => ?_, fun _ => ⟨_, rfl⟩⟩
    obtain ⟨hsome, hexpiry, hother⟩ := hheld
    cases hholder : run.owner with
    | none => rw [hholder] at hsome; cases hsome
    | some holder =>
      have hne : holder ≠ "" := by
        intro he
        simp [hholder, he, Option.filter] at hsome
      have hne' : holder ≠ owner := fun he => hother (by rw [hholder, he])
      simp [leasable, hstate, hholder, hne, hne', hexpiry] at h
  · rw [if_neg hheld]
    refine ⟨fun _ => rfl, fun h => absurd ?_ hheld⟩
    simp only [leasable, Bool.and_eq_false_iff, Bool.or_eq_false_iff, bne_eq_false_iff_eq, Bool.not_eq_false'] at h
    rcases h with (h | h) | ⟨hall, hexpiry⟩
    · exact absurd h hstate.1
    · exact absurd h hstate.2
    · cases hholder : run.owner with
      | none => rw [hholder] at hall; cases hall
      | some holder =>
        rw [hholder, Option.all_some, Bool.or_eq_false_iff, beq_eq_false_iff_ne, beq_eq_false_iff_ne] at hall
        exact ⟨by simp [Option.filter, hall.1], hexpiry, by simpa using hall.2⟩

/-- The holder of the unexpired lease under a fencing token. -/
def heldBy (owner : String) (fencingToken : Nat) (now : Time) (run : TaskRun) : Bool :=
  run.owner == some owner && run.fencingToken == fencingToken && run.leaseExpiresAt.any (now < ·)

theorem requireLease_ok : run.requireLease owner fencingToken now = .ok () ↔
    run.heldBy owner fencingToken now = true := by
  unfold requireLease heldBy
  by_cases h : run.owner ≠ some owner ∨ run.fencingToken ≠ fencingToken
  · rw [if_pos h]
    rcases h with h | h <;> simp [h]
  · rw [if_neg h]
    push Not at h
    cases hexpiry : run.leaseExpiresAt.any (now < ·) <;> simp [h]

theorem transition_ok {target : TaskRunState} : run.transition target owner fencingToken now = .ok run' ↔
    run.heldBy owner fencingToken now = true ∧ target ∈ allowed run.state ∧ run' = run.moved target := by
  unfold transition
  rw [then_eq_ok, requireLease_ok]
  refine and_congr_right fun _ => ?_
  dsimp only
  by_cases h : target ∈ allowed run.state
  · rw [if_neg (not_not.mpr h)]
    exact ⟨fun hr => ⟨h, by cases hr; rfl⟩, fun hr => by rw [hr.2]; rfl⟩
  · rw [if_pos h]
    exact ⟨fun hr => (by cases hr), fun hr => absurd hr.1 h⟩

end TaskRun

namespace TaskRunTable
variable {runs runs' : TaskRunTable} {taskRunId : String} {run' : TaskRun}

theorem onRun_ok {change : TaskRun → Except TaskRunError TaskRun} :
    onRun taskRunId change runs = .ok (runs', run') ↔
      ∃ run, runs.get taskRunId = some run ∧ change run = .ok run' ∧ runs' = runs.update run' := by
  unfold onRun
  cases hg : runs.get taskRunId with
  | none => simp
  | some run =>
    dsimp only
    rw [bind_eq_ok]
    constructor
    · intro h
      obtain ⟨next, hc, hr⟩ := h
      cases hr
      exact ⟨run, rfl, hc, rfl⟩
    · intro h
      obtain ⟨stored, hs, hc, hr⟩ := h
      cases hs
      exact ⟨run', hc, by rw [hr]; rfl⟩

end TaskRunTable

inductive TaskRunCall where
  | create (taskType taskRunId : String)
  | acquire (taskRunId owner : String) (now ttl : Time)
  | renew (taskRunId owner : String) (fencingToken : Nat) (now ttl : Time)
  | saveCheckpoint (taskRunId owner : String) (fencingToken : Nat) (name : String) (payload : Json) (now : Time)
  | transition (taskRunId : String) (target : TaskRunState) (owner : String) (fencingToken : Nat) (now : Time)
  | operatorAction (taskRunId : String) (action : OperatorAction)
  deriving DecidableEq

def execTaskRun (runs : TaskRunTable) : TaskRunCall → TaskRunTable × Except TaskRunError (Option TaskRun)
  | .create taskType taskRunId => (TaskRunTable.create taskType taskRunId runs, .ok none)
  | .acquire taskRunId owner now ttl => (settle runs (TaskRunTable.acquire taskRunId owner now ttl runs)).map id (Except.map some)
  | .renew taskRunId owner fencingToken now ttl =>
    (settle runs (TaskRunTable.renew taskRunId owner fencingToken now ttl runs)).map id (Except.map some)
  | .saveCheckpoint taskRunId owner fencingToken name payload now =>
    (settle runs (TaskRunTable.saveCheckpoint taskRunId owner fencingToken name payload now runs)).map id (Except.map some)
  | .transition taskRunId target owner fencingToken now =>
    (settle runs (TaskRunTable.transition taskRunId target owner fencingToken now runs)).map id (Except.map some)
  | .operatorAction taskRunId action =>
    (settle runs (TaskRunTable.operatorAction taskRunId action runs)).map id (Except.map some)

def taskRunStore : Machine TaskRunTable TaskRunCall (Except TaskRunError (Option TaskRun)) := ⟨execTaskRun⟩

end StockContent.Tasks
