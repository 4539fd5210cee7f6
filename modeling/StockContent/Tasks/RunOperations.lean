import StockContent.Storage.Machine
import StockContent.Tasks.TaskLease

/-! The operations on one task run. A worker shows its lease with every write; an operator
shows none. A run that is over should be held by nobody. -/
namespace StockContent.Tasks
open Storage

/-- A write under a lease. -/
inductive LeasedWrite where
  | renew (ttl : Time)
  | release
  | checkpoint (name : String) (payload : Json)
  | transition (target : TaskRunState)
  deriving DecidableEq

inductive TaskRunOp where
  | acquire (owner : String) (now ttl : Time)
  | write (owner : String) (fencingToken : Nat) (now : Time) (write : LeasedWrite)
  | operate (action : OperatorAction)
  deriving DecidableEq

namespace TaskRun
variable {run run' : TaskRun} {owner : String} {fencingToken : Nat} {now ttl : Time}

def releaseLease (run : TaskRun) (owner : String) (fencingToken : Nat) (now : Time) : Except TaskRunError TaskRun := do
  run.requireLease owner fencingToken now
  return { run with owner := none, leaseExpiresAt := none }

def leasedWrite (run : TaskRun) (owner : String) (fencingToken : Nat) (now : Time) :
    LeasedWrite → Except TaskRunError TaskRun
  | .renew ttl => run.renewLease owner fencingToken now ttl
  | .release => run.releaseLease owner fencingToken now
  | .checkpoint name payload => run.saveCheckpoint owner fencingToken name payload now
  | .transition target => run.transition target owner fencingToken now

def apply (run : TaskRun) : TaskRunOp → Except TaskRunError TaskRun
  | .acquire owner now ttl => run.acquireLease owner now ttl
  | .write owner fencingToken now write => run.leasedWrite owner fencingToken now write
  | .operate action => .ok (run.operatorAction action)

theorem acquireLease_ok (h : run.acquireLease owner now ttl = .ok run') : run' = run.leasedTo owner now ttl := by
  unfold acquireLease at h
  split at h
  · cases h
  · split at h <;> cases h
    rfl

/-- A write asks for the lease and keeps the token; it ends the lease or moves the run
along an allowed edge, and otherwise leaves state and owner alone. -/
theorem leasedWrite_ok {write : LeasedWrite} (h : run.leasedWrite owner fencingToken now write = .ok run') :
    run.heldBy owner fencingToken now = true ∧ run'.fencingToken = run.fencingToken ∧
      ((run'.state = run.state ∧ (run'.owner = run.owner ∨ run'.owner = none)) ∨
        ∃ target, write = .transition target ∧ target ∈ allowed run.state ∧ run' = run.moved target) := by
  cases write with
  | renew ttl =>
    obtain ⟨hlease, h⟩ := then_eq_ok.mp h
    cases h
    exact ⟨requireLease_ok.mp hlease, rfl, .inl ⟨rfl, .inl rfl⟩⟩
  | release =>
    obtain ⟨hlease, h⟩ := then_eq_ok.mp h
    cases h
    exact ⟨requireLease_ok.mp hlease, rfl, .inl ⟨rfl, .inr rfl⟩⟩
  | checkpoint name payload =>
    obtain ⟨hlease, h⟩ := then_eq_ok.mp h
    cases h
    exact ⟨requireLease_ok.mp hlease, rfl, .inl ⟨rfl, .inl rfl⟩⟩
  | transition target =>
    obtain ⟨hlease, hallowed, rfl⟩ := transition_ok.mp h
    exact ⟨hlease, rfl, .inr ⟨target, rfl, hallowed, rfl⟩⟩

theorem heldBy_owner (h : run.heldBy owner fencingToken now = true) : run.owner = some owner := by
  simp only [heldBy, Bool.and_eq_true, beq_iff_eq] at h
  exact h.1.1

theorem heldBy_token (h : run.heldBy owner fencingToken now = true) : run.fencingToken = fencingToken := by
  simp only [heldBy, Bool.and_eq_true, beq_iff_eq] at h
  exact h.1.2

/-- A checkpoint asks for nothing but the lease. -/
theorem saveCheckpoint_accepted {name : String} {payload : Json} :
    (∃ run', run.saveCheckpoint owner fencingToken name payload now = .ok run') ↔
      run.heldBy owner fencingToken now = true := by
  rw [← requireLease_ok]
  constructor
  · rintro ⟨run', h⟩
    exact (then_eq_ok.mp h).1
  · intro h
    exact ⟨_, then_eq_ok.mpr ⟨h, rfl⟩⟩

/-- A target at which a run is over. -/
def isOver (state : TaskRunState) : Bool := state == .succeeded || state == .failed || state == .invalidated

end TaskRun

/-- One task run under its operations; a refused one leaves it as it was. -/
def taskRunMachine : Machine TaskRun TaskRunOp (Except TaskRunError TaskRun) :=
  ⟨fun run op => settle run ((run.apply op).map fun run' => (run', run'))⟩

/-- The operation is a worker's own move of the run it holds from a pause to invalidation. -/
def InvalidatesHeld (run : TaskRun) (op : TaskRunOp) : Prop :=
  ∃ owner fencingToken now, op = .write owner fencingToken now (.transition .invalidated) ∧
    run.state = .paused ∧ run.heldBy owner fencingToken now = true

/-- A run that is over has no lease and takes no checkpoint. -/
structure HoldsNoLease (run : TaskRun) : Prop where
  unowned : TaskRun.isOver run.state = true → run.owner = none
  unleased : TaskRun.isOver run.state = true → run.leaseExpiresAt = none
  closed : TaskRun.isOver run.state = true → ∀ owner fencingToken name payload now,
    ∃ e, run.saveCheckpoint owner fencingToken name payload now = .error e

section Steps
variable {run run' : TaskRun} {op : TaskRunOp}

theorem taskRunMachine_step (run : TaskRun) (op : TaskRunOp) :
    taskRunMachine.step run op = run ∨ run.apply op = .ok (taskRunMachine.step run op) := by
  change (settle run ((run.apply op).map fun run' => (run', run'))).1 = run ∨
    run.apply op = .ok (settle run ((run.apply op).map fun run' => (run', run'))).1
  cases h : run.apply op with
  | error e => exact .inl rfl
  | ok run' => exact .inr rfl

/-- Once owner and expiry are gone, no checkpoint passes the lease test. -/
theorem HoldsNoLease.of_free (howner : TaskRun.isOver run.state = true → run.owner = none ∧ run.leaseExpiresAt = none) :
    HoldsNoLease run := by
  refine ⟨fun h => (howner h).1, fun h => (howner h).2, fun hover owner fencingToken name payload now => ?_⟩
  cases hsave : run.saveCheckpoint owner fencingToken name payload now with
  | error e => exact ⟨e, rfl⟩
  | ok saved =>
    have hheld := TaskRun.saveCheckpoint_accepted.mp ⟨saved, hsave⟩
    have hnone := (howner hover).1
    rw [TaskRun.heldBy_owner hheld] at hnone
    cases hnone

theorem moved_free {target : TaskRunState} (htarget : target ≠ .invalidated) (hover : TaskRun.isOver target = true) :
    (run.moved target).owner = none ∧ (run.moved target).leaseExpiresAt = none := by
  cases target with
  | invalidated => exact absurd rfl htarget
  | succeeded | failed => exact ⟨rfl, rfl⟩
  | pending | running | paused | retrying => cases hover

theorem holdsNoLease_step (h : HoldsNoLease run) (hop : ¬ InvalidatesHeld run op) :
    HoldsNoLease (taskRunMachine.step run op) := by
  rcases taskRunMachine_step run op with hsame | hok
  · rw [hsame]
    exact h
  · generalize taskRunMachine.step run op = run' at hok ⊢
    refine .of_free fun hover => ?_
    cases op with
    | acquire owner now ttl =>
      obtain rfl := TaskRun.acquireLease_ok hok
      cases hover
    | operate action =>
      cases hok
      cases action with
      | invalidate => exact ⟨rfl, rfl⟩
      | pause | resume | retry | rebuild => cases hover
    | write owner fencingToken now write =>
      obtain ⟨hheld, _, ⟨hstate, _⟩ | ⟨target, rfl, hallowed, rfl⟩⟩ := TaskRun.leasedWrite_ok hok
      · -- A run that is over is not held, so it takes no such write.
        have hnone := h.unowned (hstate ▸ hover)
        rw [TaskRun.heldBy_owner hheld] at hnone
        cases hnone
      · refine moved_free (fun htarget => hop ?_) hover
        subst htarget
        refine ⟨owner, fencingToken, now, rfl, ?_, hheld⟩
        cases hstate : run.state <;> simp [hstate, TaskRun.allowed] at hallowed ⊢

theorem invalidatesHeld_breaks (hop : InvalidatesHeld run op) : ¬ HoldsNoLease (taskRunMachine.step run op) := by
  obtain ⟨owner, fencingToken, now, rfl, hpaused, hheld⟩ := hop
  have hmoved : run.transition .invalidated owner fencingToken now = .ok (run.moved .invalidated) :=
    TaskRun.transition_ok.mpr ⟨hheld, by rw [hpaused]; decide, rfl⟩
  have hstep : taskRunMachine.step run (.write owner fencingToken now (.transition .invalidated)) =
    run.moved .invalidated := by
    change (settle run ((run.transition .invalidated owner fencingToken now).map fun run' => (run', run'))).1 = _
    rw [hmoved]
    rfl
  rw [hstep]
  intro h
  have hnone : run.owner = none := h.unowned rfl
  rw [TaskRun.heldBy_owner hheld] at hnone
  cases hnone

end Steps

/-- From its creation on, a task run that is over holds no lease in every state it reaches
exactly when no worker invalidates a paused run that it still holds. -/
theorem terminal_runs_hold_no_lease_iff (taskType taskRunId : String) (ops : List TaskRunOp) :
    taskRunMachine.Throughout HoldsNoLease { taskRunId, taskType } ops ↔
      taskRunMachine.Along (fun run op => ¬ InvalidatesHeld run op) { taskRunId, taskType } ops := by
  have hfresh : HoldsNoLease { taskRunId, taskType } := .of_free nofun
  refine taskRunMachine.throughout_iff_along (fun run op h => ?_) hfresh
  constructor
  · exact fun hkept hop => invalidatesHeld_breaks hop hkept
  · exact holdsNoLease_step h

/-- A worker takes a run, pauses it and invalidates it: it still holds the lease, and its
next checkpoint is accepted. -/
def pausedThenInvalidated : List TaskRunOp :=
  [.acquire "worker" 0 300, .write "worker" 1 10 (.transition .paused), .write "worker" 1 20 (.transition .invalidated)]

theorem invalidated_run_holds_lease :
    ¬ taskRunMachine.Throughout HoldsNoLease { taskRunId := "run-1", taskType := "rebuild" } pausedThenInvalidated := by
  intro h
  have hnone := (h pausedThenInvalidated [] rfl).unowned (by decide)
  exact absurd hnone (by decide)

end StockContent.Tasks
