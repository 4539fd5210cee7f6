import StockContent.Tasks.RunOperations

/-! Fencing of task runs across workers and operators, in the repository that keeps them:
tokens never fall, and what ends a lease shuts out every pair shown before it. -/
namespace StockContent.Tasks
open Storage

/-- The run a call is about and the operation it asks for; a creation asks for none. -/
def TaskRunCall.op : TaskRunCall → Option (String × TaskRunOp)
  | .create .. => none
  | .acquire taskRunId owner now ttl => some (taskRunId, .acquire owner now ttl)
  | .renew taskRunId owner fencingToken now ttl => some (taskRunId, .write owner fencingToken now (.renew ttl))
  | .saveCheckpoint taskRunId owner fencingToken name payload now =>
    some (taskRunId, .write owner fencingToken now (.checkpoint name payload))
  | .transition taskRunId target owner fencingToken now =>
    some (taskRunId, .write owner fencingToken now (.transition target))
  | .operatorAction taskRunId action => some (taskRunId, .operate action)

/-- The call got through. -/
def Accepted (runs : TaskRunTable) (call : TaskRunCall) : Prop := ∃ reply, taskRunStore.outcome runs call = .ok reply

/-- The operations that end the lease of whoever held the run before: a new acquire, an
operator's invalidation or rebuild, and a worker's move to a terminal state. -/
def endsLease : TaskRunOp → Bool
  | .acquire .. => true
  | .operate action => action == .invalidate || action == .rebuild
  | .write _ _ _ (.transition target) => TaskRun.isOver target
  | .write .. => false

/-- No write on a run is accepted with a token that was out by the time its lease ended. -/
def FencedOff (runs : TaskRunTable) (taskRunId : String) (token : Nat) : Prop :=
  ∀ call owner fencingToken now write, call.op = some (taskRunId, .write owner fencingToken now write) →
    fencingToken ≤ token → ¬ Accepted runs call

/-- Tokens do not fall, and a lease that an accepted call ended stays fenced off. -/
structure RunsFenced (runs : TaskRunTable) (calls : List TaskRunCall) : Prop where
  grows : ∀ done rest, calls = done ++ rest → ∀ id run, (taskRunStore.run runs done).get id = some run →
    ∃ run', (taskRunStore.run runs calls).get id = some run' ∧ run.fencingToken ≤ run'.fencingToken
  fenced : ∀ done call later rest, calls = done ++ call :: (later ++ rest) → ∀ id op run,
    call.op = some (id, op) → endsLease op = true → Accepted (taskRunStore.run runs done) call →
    (taskRunStore.run runs done).get id = some run →
      FencedOff (taskRunStore.run runs (done ++ call :: later)) id run.fencingToken

section Steps
variable {runs runs' : TaskRunTable} {call : TaskRunCall} {id : String} {op : TaskRunOp} {run : TaskRun}

/-- A call about a run applies its operation to the stored run and keeps the result. -/
theorem exec_op (runs : TaskRunTable) (hop : call.op = some (id, op)) :
    taskRunStore.exec runs call =
      (settle runs (TaskRunTable.onRun id (·.apply op) runs)).map (fun stored => stored) (Except.map some) := by
  cases call <;> cases hop <;> rfl

theorem onRun_eq_ok {result : TaskRunTable × TaskRun} (h : TaskRunTable.onRun id (·.apply op) runs = .ok result) :
    ∃ run, runs.get id = some run ∧ run.apply op = .ok result.2 ∧ result.1 = runs.update result.2 := by
  obtain ⟨runs', run'⟩ := result
  exact TaskRunTable.onRun_ok.mp h

theorem accepted_iff (hop : call.op = some (id, op)) :
    Accepted runs call ↔ ∃ run run', runs.get id = some run ∧ run.apply op = .ok run' := by
  rw [Accepted, Machine.outcome, exec_op runs hop]
  cases hrun : TaskRunTable.onRun id (·.apply op) runs with
  | error e =>
    refine iff_of_false nofun ?_
    rintro ⟨run, run', hget, happly⟩
    have hok : TaskRunTable.onRun id (·.apply op) runs = .ok (runs.update run', run') :=
      TaskRunTable.onRun_ok.mpr ⟨run, hget, happly, rfl⟩
    rw [hrun] at hok
    cases hok
  | ok result =>
    obtain ⟨run, hget, happly, _⟩ := onRun_eq_ok hrun
    exact iff_of_true ⟨_, rfl⟩ ⟨run, result.2, hget, happly⟩

/-- Operations leave the identity of a run alone. -/
theorem apply_taskRunId {run' : TaskRun} (h : run.apply op = .ok run') : run'.taskRunId = run.taskRunId := by
  cases op with
  | acquire owner now ttl =>
    obtain rfl := TaskRun.acquireLease_ok h
    rfl
  | operate action =>
    cases h
    cases action <;> rfl
  | write owner fencingToken now write =>
    cases write with
    | transition target =>
      obtain ⟨_, _, rfl⟩ := TaskRun.transition_ok.mp h
      rfl
    | renew ttl | release | checkpoint name payload =>
      obtain ⟨_, h⟩ := then_eq_ok.mp h
      cases h
      rfl

theorem get_step_apply {run' : TaskRun} (hop : call.op = some (id, op)) (hget : runs.get id = some run)
    (happly : run.apply op = .ok run') : (taskRunStore.step runs call).get id = some run' := by
  have hkey : run'.taskRunId = id := (apply_taskRunId happly).trans (Table.get_key hget)
  have hrun : TaskRunTable.onRun id (·.apply op) runs = .ok (runs.update run', run') :=
    TaskRunTable.onRun_ok.mpr ⟨run, hget, happly, rfl⟩
  rw [Machine.step, exec_op runs hop, hrun]
  change (runs.update run').get id = some run'
  subst hkey
  exact Table.get_update_self hget

/-- What a call does to a stored run: nothing, or the operation it asks for. -/
theorem get_step (call : TaskRunCall) (hget : runs.get id = some run) :
    ∃ run', (taskRunStore.step runs call).get id = some run' ∧
    (run' = run ∨ ∃ op, call.op = some (id, op) ∧ run.apply op = .ok run') := by
  cases hop : call.op with
  | none =>
    cases call with
    | create taskType taskRunId =>
      refine ⟨run, ?_, .inl rfl⟩
      change ((runs.insert { taskRunId, taskType }).getD runs).get id = some run
      rw [Table.get_insert_getD, hget]
      rfl
    | _ => cases hop
  | some target =>
    obtain ⟨other, op⟩ := target
    cases hrun : TaskRunTable.onRun other (·.apply op) runs with
    | error e =>
      rw [Machine.step, exec_op runs hop, hrun]
      exact ⟨run, hget, .inl rfl⟩
    | ok result =>
      obtain ⟨stored, hstored, happly, hresult⟩ := onRun_eq_ok hrun
      by_cases hid : other = id
      · subst hid
        rw [hget] at hstored
        cases hstored
        exact ⟨result.2, get_step_apply hop hget happly, .inr ⟨op, rfl, happly⟩⟩
      · refine ⟨run, ?_, .inl rfl⟩
        rw [Machine.step, exec_op runs hop, hrun]
        change result.1.get id = some run
        have hkey : result.2.taskRunId = other := (apply_taskRunId happly).trans (Table.get_key hstored)
        rw [hresult, Table.get_update_ne runs (hkey ▸ hid), hget]

/-- An operation hands out the next token, or keeps the token with at most the same owner. -/
theorem apply_lease {run' : TaskRun} (h : run.apply op = .ok run') :
    run'.fencingToken = run.fencingToken + 1 ∨
      run'.fencingToken = run.fencingToken ∧ (run'.owner = run.owner ∨ run'.owner = none) := by
  cases op with
  | acquire owner now ttl =>
    obtain rfl := TaskRun.acquireLease_ok h
    exact .inl rfl
  | operate action =>
    cases h
    refine .inr ⟨?_, ?_⟩
    · cases action <;> rfl
    · cases action with
      | invalidate | rebuild => exact .inr rfl
      | pause | resume | retry => exact .inl rfl
  | write owner fencingToken now write =>
    obtain ⟨_, htoken, ⟨_, howner⟩ | ⟨target, _, _, rfl⟩⟩ := TaskRun.leasedWrite_ok h
    · exact .inr ⟨htoken, howner⟩
    · refine .inr ⟨rfl, ?_⟩
      rw [TaskRun.moved]
      dsimp only
      split
      · exact .inr rfl
      · exact .inl rfl

/-- A run that nobody holds with a token up to the given one. -/
structure Sealed (token : Nat) (run : TaskRun) : Prop where
  behind : token ≤ run.fencingToken
  newer : run.owner ≠ none → token < run.fencingToken

theorem Sealed.apply {token : Nat} {run' : TaskRun} (hs : Sealed token run) (h : run.apply op = .ok run') :
    Sealed token run' := by
  have hbehind := hs.behind
  rcases apply_lease h with htoken | ⟨htoken, howner | howner⟩
  · exact ⟨by omega, fun _ => by omega⟩
  · exact ⟨by omega, fun hne => htoken ▸ hs.newer (howner ▸ hne)⟩
  · exact ⟨by omega, fun hne => absurd howner hne⟩

/-- The end of a lease seals the run, unless its holder invalidated it. -/
theorem sealed_of_endsLease {run' : TaskRun} (hends : endsLease op = true) (h : run.apply op = .ok run')
    (hop : ¬ InvalidatesHeld run op) : Sealed run.fencingToken run' := by
  cases op with
  | acquire owner now ttl =>
    obtain rfl := TaskRun.acquireLease_ok h
    exact ⟨Nat.le_succ _, fun _ => Nat.lt_succ_self _⟩
  | operate action =>
    cases h
    cases action with
    | invalidate | rebuild => exact ⟨Nat.le_refl _, fun hne => absurd rfl hne⟩
    | pause | resume | retry => cases hends
  | write owner fencingToken now write =>
    cases write with
    | transition target =>
      obtain ⟨hheld, hallowed, rfl⟩ := TaskRun.transition_ok.mp h
      have htarget : target ≠ .invalidated := by
        rintro rfl
        refine hop ⟨owner, fencingToken, now, rfl, ?_, hheld⟩
        cases hstate : run.state <;> simp [hstate, TaskRun.allowed] at hallowed ⊢
      exact ⟨Nat.le_refl _, fun hne => absurd (moved_free htarget hends).1 hne⟩
    | renew ttl | release | checkpoint name payload => cases hends

theorem Sealed.fencedOff {token : Nat} (hget : runs.get id = some run) (hs : Sealed token run) :
    FencedOff runs id token := by
  intro call owner fencingToken now write hop hle haccepted
  obtain ⟨stored, run', hstored, happly⟩ := (accepted_iff hop).mp haccepted
  rw [hget] at hstored
  cases hstored
  obtain ⟨hheld, _⟩ := TaskRun.leasedWrite_ok happly
  have hnewer := hs.newer (by rw [TaskRun.heldBy_owner hheld]; nofun)
  have htoken := TaskRun.heldBy_token hheld
  omega

/-- A sealed run stays sealed, whatever is called. -/
theorem sealed_run {token : Nat} (calls : List TaskRunCall) (hget : runs.get id = some run) (hs : Sealed token run) :
    ∃ run', (taskRunStore.run runs calls).get id = some run' ∧ Sealed token run' := by
  induction calls generalizing runs run with
  | nil => exact ⟨run, hget, hs⟩
  | cons call calls ih =>
    obtain ⟨next, hnext, rfl | ⟨op, _, happly⟩⟩ := get_step call hget
    · exact ih hnext hs
    · exact ih hnext (hs.apply happly)

/-- The pair that invalidated a held run still passes for a checkpoint. -/
theorem not_fencedOff (hop : call.op = some (id, op)) (hget : runs.get id = some run) (h : InvalidatesHeld run op) :
    Accepted runs call ∧ ¬ FencedOff (taskRunStore.step runs call) id run.fencingToken := by
  obtain ⟨owner, fencingToken, now, rfl, hpaused, hheld⟩ := h
  have hmoved : run.apply (.write owner fencingToken now (.transition .invalidated)) = .ok (run.moved .invalidated) :=
    TaskRun.transition_ok.mpr ⟨hheld, by rw [hpaused]; decide, rfl⟩
  refine ⟨(accepted_iff hop).mpr ⟨run, _, hget, hmoved⟩, fun hfenced => ?_⟩
  -- The lease is as it was before, so the same pair passes at the same time.
  have hnext := get_step_apply hop hget hmoved
  have hstill : (run.moved .invalidated).heldBy owner fencingToken now = true := hheld
  have hsaved : ∃ run', (run.moved .invalidated).saveCheckpoint owner fencingToken "late" .null now = .ok run' :=
    TaskRun.saveCheckpoint_accepted.mpr hstill
  obtain ⟨run', hsave⟩ := hsaved
  have hwrite : (run.moved .invalidated).apply (.write owner fencingToken now (.checkpoint "late" .null)) = .ok run' :=
    hsave
  have haccepted : Accepted (taskRunStore.step runs call) (.saveCheckpoint id owner fencingToken "late" .null now) :=
    (accepted_iff rfl).mpr ⟨_, run', hnext, hwrite⟩
  exact hfenced _ owner fencingToken now _ rfl (TaskRun.heldBy_token hheld).ge haccepted

end Steps

/-- A call by which a worker invalidates a paused run that it holds. -/
def InvalidatesStored (runs : TaskRunTable) (call : TaskRunCall) : Prop :=
  ∃ id op run, call.op = some (id, op) ∧ runs.get id = some run ∧ InvalidatesHeld run op

theorem tokens_grow (calls : List TaskRunCall) {runs : TaskRunTable} {id : String} {run : TaskRun}
    (hget : runs.get id = some run) :
    ∃ run', (taskRunStore.run runs calls).get id = some run' ∧ run.fencingToken ≤ run'.fencingToken := by
  induction calls generalizing runs run with
  | nil => exact ⟨run, hget, Nat.le_refl _⟩
  | cons call calls ih =>
    obtain ⟨next, hnext, hsame⟩ := get_step call hget
    obtain ⟨run', hrun', hle⟩ := ih hnext
    refine ⟨run', hrun', Nat.le_trans ?_ hle⟩
    rcases hsame with rfl | ⟨op, _, happly⟩
    · exact Nat.le_refl _
    · rcases apply_lease happly with htoken | ⟨htoken, _⟩ <;> omega

/-- Whatever workers and operators call, in whatever order and at whatever times, task runs
are fenced exactly when no worker invalidates a paused run that it still holds. -/
theorem runs_fenced_iff (runs : TaskRunTable) (calls : List TaskRunCall) :
    RunsFenced runs calls ↔ taskRunStore.Along (fun runs call => ¬ InvalidatesStored runs call) runs calls := by
  rw [Machine.along_iff]
  constructor
  · rintro h done call rest rfl ⟨id, op, run, hop, hget, hinvalidates⟩
    obtain ⟨haccepted, hopen⟩ := not_fencedOff hop hget hinvalidates
    obtain ⟨owner, fencingToken, now, rfl, _⟩ := hinvalidates
    have hclosed := h.fenced done call [] rest rfl id _ run hop rfl haccepted hget
    rw [Machine.run_concat] at hclosed
    exact hopen hclosed
  · intro h
    refine ⟨?_, ?_⟩
    · rintro done rest rfl id run hget
      rw [Machine.run_append]
      exact tokens_grow rest hget
    · rintro done call later rest rfl id op run hop hends haccepted hget
      obtain ⟨stored, run', hstored, happly⟩ := (accepted_iff hop).mp haccepted
      rw [hget] at hstored
      cases hstored
      have hquiet := h done call (later ++ rest) rfl
      have hsealed := sealed_of_endsLease hends happly fun hinvalidates => hquiet ⟨id, op, run, hop, hget, hinvalidates⟩
      have hnext := get_step_apply hop hget happly
      obtain ⟨last, hlast, hsealed⟩ := sealed_run later hnext hsealed
      rw [Machine.run_append, Machine.run_cons]
      exact hsealed.fencedOff hlast

/-- The worker of run `run-1` pauses it and invalidates it under its own lease. -/
def invalidatedByWorker : List TaskRunCall :=
  [.create "rebuild" "run-1", .acquire "run-1" "worker" 0 300, .transition "run-1" .paused "worker" 1 10,
    .transition "run-1" .invalidated "worker" 1 20]

/-- The run as the invalidation finds it. -/
def pausedByWorker : TaskRun :=
  { taskRunId := "run-1", taskType := "rebuild", state := .paused, owner := some "worker", leaseExpiresAt := some 300,
    fencingToken := 1 }

theorem invalidation_keeps_pair : ¬ RunsFenced .empty invalidatedByWorker := by
  intro h
  have hclosed := h.fenced (invalidatedByWorker.take 3) (.transition "run-1" .invalidated "worker" 1 20) [] [] rfl
    "run-1" _ pausedByWorker rfl rfl ⟨_, rfl⟩ rfl
  exact hclosed (.saveCheckpoint "run-1" "worker" 1 "late" .null 30) "worker" 1 30 _ rfl (Nat.le_refl 1) ⟨_, rfl⟩

end StockContent.Tasks
