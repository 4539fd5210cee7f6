import StockContent.Tasks.ContentTask

/-! Runs of the task queue: any workers, any order of calls, any clock readings.
What a call may do to a row is said once, in `RowStep`; the row invariant follows. -/
namespace StockContent.Tasks
open Storage

inductive TaskCall where
  | enqueueIngestion (taskId sourceType sourceRef : String) (options : List (String × Json))
      (idempotencyKey requestHash : Option String) (now : Time)
  | startReplay (taskId sourceType sourceRef : String) (options : List (String × Json))
      (idempotencyKey requestHash : Option String) (now : Time)
  | claimPending (locked : List String) (workerId taskKind : String) (leaseSeconds : Int) (now : Time)
  | write (taskId workerId : String) (fencingToken : Nat) (now : Time) (write : TaskWrite)
  | finishReplay (taskId : String) (finish : ReplayEnd)

def execTask (tasks : TaskTable) : TaskCall → TaskTable × Reply
  | .enqueueIngestion taskId sourceType sourceRef options idempotencyKey requestHash now =>
    settle tasks
      (create (queuedTask taskId sourceType sourceRef options idempotencyKey requestHash) now tasks)
  | .startReplay taskId sourceType sourceRef options idempotencyKey requestHash now =>
    settle tasks
      (create (replayTask taskId sourceType sourceRef options idempotencyKey requestHash) now tasks)
  | .claimPending locked workerId taskKind leaseSeconds now =>
    (claimPending locked workerId taskKind leaseSeconds now tasks).map id .ok
  | .write taskId workerId fencingToken now w =>
    settle tasks (fencedWrite taskId workerId fencingToken now w tasks)
  | .finishReplay taskId finish => settle tasks (finishUnleased taskId finish tasks)

def taskQueue : Machine TaskTable TaskCall Reply := ⟨execTask⟩

/-- Everything a call may do to the row of one task. -/
inductive RowStep (row : ContentTaskRow) : ContentTaskRow → Prop
  | stay : RowStep row row
  | claim {taskKind : String} (workerId : String) (leaseSeconds : Int) {now : Time}
      (h : claimable taskKind now row = true) : RowStep row (claimed workerId leaseSeconds now row)
  | write {workerId : String} {fencingToken : Nat} {now : Time} (w : TaskWrite)
      (h : holdsLease workerId fencingToken now row = true) : RowStep row (w.apply now row)
  | finish (e : ReplayEnd) (hk : row.taskKind = "replay") (hs : row.status = .running) :
      RowStep row (e.apply row)

inductive Created : ContentTaskRow → Prop
  | queued (taskId sourceType sourceRef : String) (options : List (String × Json))
      (idempotencyKey requestHash : Option String) (createdAt : Time) :
      Created { queuedTask taskId sourceType sourceRef options idempotencyKey requestHash with createdAt }
  | replay (taskId sourceType sourceRef : String) (options : List (String × Json))
      (idempotencyKey requestHash : Option String) (createdAt : Time) :
      Created { replayTask taskId sourceType sourceRef options idempotencyKey requestHash with createdAt }

private theorem create_evolves (task : ContentTask) (now : Time) (tasks : TaskTable)
    (hc : Created { task with createdAt := now }) :
    Table.Evolves Created RowStep tasks (settle tasks (create task now tasks)).1 := by
  have hrefl : Table.Evolves Created RowStep tasks tasks := .refl (fun _ => .stay) tasks
  unfold create
  dsimp only
  split
  · rename_i existing _
    cases reserveExisting existing task <;> exact hrefl
  · split
    · exact hrefl
    · split
      · rename_i hi
        exact .insert hi (fun _ => .stay) hc
      · exact hrefl

theorem holdsLease_iff {workerId : String} {fencingToken : Nat} {now : Time} {row : ContentTaskRow} :
    holdsLease workerId fencingToken now row = true ↔
      row.status = .running ∧ row.leaseOwner = some workerId ∧ row.fencingToken = fencingToken ∧
        ∃ expiresAt, row.leaseExpiresAt = some expiresAt ∧ now < expiresAt := by
  simp [holdsLease, Option.any_eq_true, and_assoc]

theorem claimable_iff {taskKind : String} {now : Time} {row : ContentTaskRow} :
    claimable taskKind now row = true ↔
      row.retryCount < row.maxRetries ∧ row.taskKind = taskKind ∧
        (row.status = .pending ∨
          row.status = .running ∧ ∃ expiresAt, row.leaseExpiresAt = some expiresAt ∧ expiresAt < now) := by
  simp [claimable, Option.any_eq_true, and_assoc]

/-- A claim hands out one claimable row, with the next token, and touches no other. -/
theorem claimPending_some {locked : List String} {workerId taskKind : String} {leaseSeconds : Int}
    {now : Time} {tasks : TaskTable} {task : ContentTask}
    (h : (claimPending locked workerId taskKind leaseSeconds now tasks).2 = some task) :
    ∃ row, tasks.get task.taskId = some row ∧ claimable taskKind now row = true ∧
      task = domain (claimed workerId leaseSeconds now row) ∧
      (claimPending locked workerId taskKind leaseSeconds now tasks).1 =
        tasks.modify task.taskId (claimed workerId leaseSeconds now) := by
  rw [claimPending] at h ⊢
  split
  · rename_i hk
    simp [hk] at h
  · rename_i hk
    rw [if_neg hk] at h
    split at h
    · cases h
    · rename_i row hrow
      obtain ⟨hm, hp⟩ := Table.mem_select (List.mem_of_head? hrow)
      simp only [Bool.and_eq_true] at hp
      cases h
      exact ⟨row, Table.get_of_mem hm, hp.1, rfl, rfl⟩

theorem claimPending_none {locked : List String} {workerId taskKind : String} {leaseSeconds : Int}
    {now : Time} {tasks : TaskTable}
    (h : (claimPending locked workerId taskKind leaseSeconds now tasks).2 = none) :
    (claimPending locked workerId taskKind leaseSeconds now tasks).1 = tasks := by
  rw [claimPending] at h ⊢
  split
  · rfl
  · rename_i hk
    rw [if_neg hk] at h
    split <;> simp_all

/-- A fenced write is accepted exactly from the holder of an unexpired lease. -/
theorem fencedWrite_of_holds {taskId workerId : String} {fencingToken : Nat} {now : Time} {w : TaskWrite}
    {tasks : TaskTable} {row : ContentTaskRow} (hg : tasks.get taskId = some row)
    (h : holdsLease workerId fencingToken now row = true) :
    fencedWrite taskId workerId fencingToken now w tasks =
      .ok (tasks.modify taskId (w.apply now) (fun row => w.apply_id now row), w.returned now row) := by
  simp only [fencedWrite, fencedRow, hg, h, if_true]
  rfl

theorem fencedWrite_stale {taskId workerId : String} {fencingToken : Nat} {now : Time} (w : TaskWrite)
    {tasks : TaskTable} (h : ∀ row, tasks.get taskId = some row → holdsLease workerId fencingToken now row = false) :
    fencedWrite taskId workerId fencingToken now w tasks = .error (staleLease taskId) := by
  rw [fencedWrite, fencedRow]
  cases hg : tasks.get taskId with
  | none => rfl
  | some row => simp [h row hg]

theorem fencedWrite_accepted {taskId workerId : String} {fencingToken : Nat} {now : Time} {w : TaskWrite}
    {tasks tasks' : TaskTable} {reply : Option ContentTask}
    (h : fencedWrite taskId workerId fencingToken now w tasks = .ok (tasks', reply)) :
    ∃ row, tasks.get taskId = some row ∧ holdsLease workerId fencingToken now row = true ∧
      tasks' = tasks.modify taskId (w.apply now) (fun row => w.apply_id now row) := by
  by_cases hh : ∃ row, tasks.get taskId = some row ∧ holdsLease workerId fencingToken now row = true
  · obtain ⟨row, hg, hl⟩ := hh
    rw [fencedWrite_of_holds hg hl] at h
    cases h
    exact ⟨row, hg, hl, rfl⟩
  · rw [fencedWrite_stale w fun row hg => by simpa using fun hl => hh ⟨row, hg, hl⟩] at h
    cases h

/-- Every call creates fresh rows and moves stored rows along `RowStep`. -/
theorem taskQueue_evolves (tasks : TaskTable) (call : TaskCall) :
    Table.Evolves Created RowStep tasks (taskQueue.step tasks call) := by
  have hrefl : Table.Evolves Created RowStep tasks tasks := .refl (fun _ => .stay) tasks
  cases call with
  | enqueueIngestion taskId sourceType sourceRef options idempotencyKey requestHash now =>
    exact create_evolves _ now tasks (.queued ..)
  | startReplay taskId sourceType sourceRef options idempotencyKey requestHash now =>
    exact create_evolves _ now tasks (.replay ..)
  | claimPending locked workerId taskKind leaseSeconds now =>
    change Table.Evolves _ _ _ (claimPending locked workerId taskKind leaseSeconds now tasks).1
    cases h : (claimPending locked workerId taskKind leaseSeconds now tasks).2 with
    | none => rwa [claimPending_none h]
    | some task =>
      obtain ⟨row, hg, hc, _, he⟩ := claimPending_some h
      rw [he]
      refine .modify tasks _ (fun _ => .stay) fun r hr => ?_
      rw [hg] at hr
      cases hr
      exact .claim workerId leaseSeconds hc
  | write taskId workerId fencingToken now w =>
    change Table.Evolves _ _ _ (settle tasks (fencedWrite taskId workerId fencingToken now w tasks)).1
    cases h : fencedWrite taskId workerId fencingToken now w tasks with
    | error e => exact hrefl
    | ok p =>
      obtain ⟨row, hg, hl, he⟩ := fencedWrite_accepted h
      rw [settle_ok, he]
      refine .modify tasks _ (fun _ => .stay) fun r hr => ?_
      rw [hg] at hr
      cases hr
      exact .write w hl
  | finishReplay taskId finish =>
    change Table.Evolves _ _ _ (settle tasks (finishUnleased taskId finish tasks)).1
    unfold finishUnleased
    dsimp only
    split
    · exact hrefl
    · rename_i row hg
      split
      · exact hrefl
      · rename_i hk
        push Not at hk
        refine .modify tasks (fun row => finish.apply_id row) (fun _ => .stay) fun r hr => ?_
        rw [hg] at hr
        cases hr
        exact .finish finish hk.1 hk.2

/-- Owner and expiry come and go together, only a task with budget left is leased,
and a replay record never carries a lease. -/
structure RowOk (row : ContentTaskRow) : Prop where
  budget : row.retryCount ≤ row.maxRetries
  paired : row.leaseOwner.isSome = row.leaseExpiresAt.isSome
  leased : row.leaseOwner.isSome = true → row.status = .running ∧ row.retryCount < row.maxRetries
  replay : row.taskKind = "replay" → row.leaseOwner = none ∧ row.status ≠ .pending

theorem Created.rowOk {row : ContentTaskRow} (h : Created row) : RowOk row := by
  cases h <;> constructor <;> simp [queuedTask, replayTask]

theorem RowOk.owner_iff_expiry {row : ContentTaskRow} (h : RowOk row) :
    row.leaseOwner ≠ none ↔ row.leaseExpiresAt ≠ none := by
  rw [← Option.isSome_iff_ne_none, ← Option.isSome_iff_ne_none, h.paired]

theorem RowOk.unleased {row : ContentTaskRow} (h : RowOk row) (hs : row.status ≠ .running) :
    row.leaseOwner = none ∧ row.leaseExpiresAt = none := by
  have ho : row.leaseOwner = none := by
    by_contra hne
    exact hs (h.leased (Option.isSome_iff_ne_none.mpr hne)).1
  exact ⟨ho, by simpa [ho] using h.paired.symm⟩

theorem RowOk.not_claimable {row : ContentTaskRow} (h : RowOk row) (hs : row.status = .running)
    (ho : row.leaseOwner = none) (taskKind : String) (now : Time) : claimable taskKind now row = false := by
  have he : row.leaseExpiresAt = none := by simpa [ho] using h.paired.symm
  simp [claimable, hs, he]

theorem RowStep.rowOk {row row' : ContentTaskRow} (h : RowOk row) (hstep : RowStep row row') : RowOk row' := by
  cases hstep with
  | stay => exact h
  | claim workerId leaseSeconds hc =>
    obtain ⟨hbudget, _, hstate⟩ := claimable_iff.mp hc
    refine ⟨h.budget, rfl, fun _ => ⟨rfl, hbudget⟩, fun hk => ?_⟩
    -- A replay row is running without an expiry, so it was not claimable.
    obtain ⟨hnone, hpending⟩ := h.replay hk
    rcases hstate with hp | ⟨_, e, he, _⟩
    · exact absurd hp hpending
    · have hp := h.paired
      simp [hnone, he] at hp
  | write w hl =>
    obtain ⟨hs, ho, _, e, he, _⟩ := holdsLease_iff.mp hl
    have hlt := (h.leased (by simp [ho])).2
    have hreplay : row.taskKind ≠ "replay" := fun hk => by simp [(h.replay hk).1] at ho
    cases w <;> constructor <;> simp [TaskWrite.apply, ho, he, hs, hreplay] <;> omega
  | finish e hk hs =>
    obtain ⟨hnone, _⟩ := h.replay hk
    have he : row.leaseExpiresAt = none := by simpa [hnone] using h.paired.symm
    cases e <;> constructor <;> simp [ReplayEnd.apply, hnone, he, h.budget]

theorem taskQueue_rowOk (calls : List TaskCall) : (taskQueue.run .empty calls).All RowOk :=
  taskQueue.run_invariant (I := Table.All RowOk)
    (fun tasks call ht => (taskQueue_evolves tasks call).all (fun _ => Created.rowOk)
      (fun _ _ h hs => hs.rowOk h) ht)
    (fun _ _ h => by cases h) calls

theorem RowStep.of_terminal {row row' : ContentTaskRow} (ht : row.status.terminal = true)
    (h : RowStep row row') : row' = row := by
  cases h with
  | stay => rfl
  | claim _ _ hc =>
    rcases claimable_iff.mp hc with ⟨_, _, hs | ⟨hs, _⟩⟩ <;> rw [hs] at ht <;> cases ht
  | write _ hl => rw [(holdsLease_iff.mp hl).1] at ht; cases ht
  | finish _ _ hs => rw [hs] at ht; cases ht

/-- A finished task keeps its row through every later run. -/
theorem terminal_absorbing {tasks : TaskTable} {id : String} {row : ContentTaskRow}
    (hg : tasks.get id = some row) (ht : row.status.terminal = true) (more : List TaskCall) :
    (taskQueue.run tasks more).get id = some row := by
  refine taskQueue.run_invariant (I := fun t => t.get id = some row) (fun t call h => ?_) hg more
  obtain ⟨row', hg', hstep⟩ := (taskQueue_evolves t call).old id row h
  rw [hg', hstep.of_terminal ht]

/-- An accepted final acknowledgement of one task. -/
def committed (id : String) : TaskCall × Reply → Bool
  | (.write taskId _ _ _ (.commitEffect _), .ok _) => taskId == id
  | _ => false

private theorem committed_cases {id : String} {tasks : TaskTable} {call : TaskCall}
    (h : committed id (call, taskQueue.outcome tasks call) = true) :
    ∃ row, tasks.get id = some row ∧ row.status = .running ∧
      ∃ row', (taskQueue.step tasks call).get id = some row' ∧ row'.status = .succeeded := by
  cases call with
  | write taskId workerId fencingToken now w =>
    cases w with
    | commitEffect result =>
      cases hx : fencedWrite taskId workerId fencingToken now (.commitEffect result) tasks with
      | error e => simp [committed, taskQueue, Machine.outcome, execTask, hx] at h
      | ok p =>
        obtain ⟨tasks', reply⟩ := p
        obtain ⟨row, hg, hl, he⟩ := fencedWrite_accepted hx
        have hid : taskId = id := by simpa [committed, taskQueue, Machine.outcome, execTask, hx, settle] using h
        subst hid
        refine ⟨row, hg, (holdsLease_iff.mp hl).1, TaskWrite.apply now row (.commitEffect result), ?_, rfl⟩
        simp [taskQueue, Machine.step, execTask, hx, settle, he, hg]
    | _ => simp [committed] at h
  | _ => simp [committed] at h

/-- The final acknowledgement of a task is accepted at most once in a run. -/
theorem committed_once (id : String) (calls : List TaskCall) :
    (taskQueue.history .empty calls).countP (committed id) ≤ 1 := by
  refine taskQueue.history_countP_le_one (I := fun _ => True)
    (D := fun t => ∃ row, t.get id = some row ∧ row.status.terminal = true)
    (fun _ _ _ => trivial) ?_ ?_ ?_ trivial calls
  · rintro t call - ⟨row, hg, ht⟩
    exact ⟨row, terminal_absorbing hg ht [call], ht⟩
  · intro t call _ h
    obtain ⟨_, _, _, row', hg, hs⟩ := committed_cases h
    exact ⟨row', hg, by rw [hs]; rfl⟩
  · rintro t call - ⟨row, hg, ht⟩
    by_contra h
    obtain ⟨row', hg', hs, _⟩ := committed_cases (by simpa using h)
    rw [hg] at hg'
    cases hg'
    rw [hs] at ht
    cases ht

private theorem fail_accepted {tasks : TaskTable} (hok : tasks.All RowOk) {taskId workerId stage error : String}
    {fencingToken : Nat} {now : Time} {reply : Option ContentTask}
    (h : taskQueue.outcome tasks (.write taskId workerId fencingToken now (.fail stage error)) = .ok reply) :
    ∃ row row', tasks.get taskId = some row ∧
      (taskQueue.step tasks (.write taskId workerId fencingToken now (.fail stage error))).get taskId = some row' ∧
      row'.retryCount = row.retryCount + 1 ∧ row'.maxRetries = row.maxRetries ∧
      row'.status = if row'.retryCount = row'.maxRetries then .failed else .pending := by
  have hx := settle_committed h
  obtain ⟨row, hg, hl, he⟩ := fencedWrite_accepted hx
  refine ⟨row, TaskWrite.apply now row (.fail stage error), hg, ?_, rfl, rfl, ?_⟩
  · change (settle tasks _).1.get taskId = _
    rw [he, Table.get_modify_self, hg]
    rfl
  · have hlt := ((hok taskId row hg).leased (by simp [(holdsLease_iff.mp hl).2.1])).2
    have he : row.maxRetries ≤ row.retryCount + 1 ↔ row.retryCount + 1 = row.maxRetries := by omega
    simp only [TaskWrite.apply, he]

/-- The life of a task row. A finished row never changes, a commit is accepted at
most once, the retry counter stays within its budget and a failure ends the task
exactly when it is used up, owner and expiry are absent from a pending row and both
present on a leased one, and a running row without a lease is never handed out. -/
theorem task_row_lifecycle (calls : List TaskCall) :
    let tasks := taskQueue.run .empty calls
    (∀ id row more, tasks.get id = some row → row.status.terminal = true →
      (taskQueue.run tasks more).get id = some row) ∧
    (∀ id, (taskQueue.history .empty calls).countP (committed id) ≤ 1) ∧
    (∀ id row, tasks.get id = some row → row.retryCount ≤ row.maxRetries ∧
      (row.status = .pending → row.leaseOwner = none ∧ row.leaseExpiresAt = none) ∧
      (row.status = .running → (row.leaseOwner ≠ none ↔ row.leaseExpiresAt ≠ none))) ∧
    (∀ taskId workerId fencingToken now stage error reply,
      taskQueue.outcome tasks (.write taskId workerId fencingToken now (.fail stage error)) = .ok reply →
      ∃ row row', tasks.get taskId = some row ∧
        (taskQueue.step tasks (.write taskId workerId fencingToken now (.fail stage error))).get taskId =
          some row' ∧
        row'.retryCount = row.retryCount + 1 ∧ row'.maxRetries = row.maxRetries ∧
        row'.status = if row'.retryCount = row'.maxRetries then .failed else .pending) ∧
    (∀ locked workerId taskKind leaseSeconds now task,
      taskQueue.outcome tasks (.claimPending locked workerId taskKind leaseSeconds now) = .ok (some task) →
      ∃ row, tasks.get task.taskId = some row ∧
        (row.status = .running → row.leaseOwner ≠ none ∧ row.leaseExpiresAt ≠ none)) := by
  intro tasks
  have hok : tasks.All RowOk := taskQueue_rowOk calls
  refine ⟨fun id row more hg ht => terminal_absorbing hg ht more, fun id => committed_once id calls,
    fun id row hg => ?_, fun taskId workerId fencingToken now stage error reply => fail_accepted hok,
    fun locked workerId taskKind leaseSeconds now task h => ?_⟩
  · have hr := hok id row hg
    exact ⟨hr.budget, fun hp => hr.unleased (by simp [hp]), fun _ => hr.owner_iff_expiry⟩
  · have hs : (claimPending locked workerId taskKind leaseSeconds now tasks).2 = some task := by
      simpa [taskQueue, Machine.outcome, execTask, Prod.map] using h
    obtain ⟨row, hg, hc, _⟩ := claimPending_some hs
    refine ⟨row, hg, fun hr => ?_⟩
    have ho : row.leaseOwner ≠ none := fun ho => by simp [(hok _ row hg).not_claimable hr ho] at hc
    exact ⟨ho, (hok _ row hg).owner_iff_expiry.mp ho⟩

end StockContent.Tasks
