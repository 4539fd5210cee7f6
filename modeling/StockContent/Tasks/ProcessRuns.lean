import Mathlib.Data.List.Induction
import StockContent.Tasks.TaskLease
import StockContent.Tasks.TaskRuns

/-! One call of `process_next`, statement by statement, with anything of other workers in
between: the lease of the content task is renewed on the way, that of the task run is not. -/
namespace StockContent.Tasks
open Storage

inductive CallStatus where
  | succeeded
  | leaseLost
  | failed (stage error : String)
  deriving DecidableEq

/-- The statement that a call is about to execute, with its local variables: the claimed task
and the fencing token of its task run, where there is a service for them. -/
inductive Statement where
  | claim
  | readRun (task : ContentTask)
  | createRun (task : ContentTask)
  | acquireRun (task : ContentTask)
  /-- `stale` says that the repository refused a write or a check of the pipeline. -/
  | pipeline (task : ContentTask) (run : Option Nat) (stale : Bool)
  | commit (task : ContentTask) (run : Option Nat) (payload : List (String × Json))
  | succeedRun (task : ContentTask) (run : Nat)
  | fail (task : ContentTask) (run : Option Nat) (stage error : String)
  | failRun (task : ContentTask) (run : Nat) (stage error : String)
  | returned (taskId : String) (status : CallStatus)
  | nothingToDo
  | raised (error : TaskRunError)

/-- What a call that is over returned: the task and its status. -/
def Statement.reply : Statement → Option (String × CallStatus)
  | .returned taskId status => some (taskId, status)
  | _ => none

/-- What the pipeline does next: a write or a check under the fence of the content task, or
how it ends. `snapshotId` is empty for a result without a snapshot. -/
inductive PipelineStep where
  | heartbeat
  | progress (stage : String) (value : Int)
  | checkpoint (stage : String) (value : Json) (progress : Int)
  | check
  | result (payload : List (String × Json)) (snapshotId : String)
  | stale
  | raise (stage error : String)

structure ServiceDb where
  tasks : TaskTable
  runs : TaskRunTable
  next : Statement := .claim

/-- `taskLease` says whether the application was built with a task lease service. -/
structure ContentWorker where
  workerId : String
  taskKind : String := "video_pipeline"
  leaseSeconds : Int := 900
  taskLease : Bool := true
  errorText : TaskRunError → String

namespace ContentWorker
variable (w : ContentWorker)

/-- A write of the pipeline under the fence of its task. -/
def fenced (task : ContentTask) (run : Option Nat) (now : Time) (write : TaskWrite) (db : ServiceDb) : ServiceDb :=
  match fencedWrite task.taskId w.workerId task.fencingToken now write db.tasks with
  | .ok (tasks, _) => { db with tasks }
  | .error _ => { db with next := .pipeline task run true }

def runPipeline (task : ContentTask) (run : Option Nat) (stale : Bool) (now : Time) (db : ServiceDb) :
    PipelineStep → ServiceDb
  | .heartbeat => w.fenced task run now (.renewLease w.leaseSeconds) db
  | .progress stage value => w.fenced task run now (.updateProgress stage value) db
  | .checkpoint stage value progress => w.fenced task run now (.checkpoint stage value (some progress)) db
  | .check =>
    match fencedRow task.taskId w.workerId task.fencingToken now db.tasks with
    | .ok _ => db
    | .error _ => { db with next := .pipeline task run true }
  | .result payload snapshotId =>
    -- A result without a snapshot fails the task and leaves the task run as it is.
    if snapshotId = "" then
      { db with next := .fail task none "content_snapshot" "CONTENT_SNAPSHOT_PERSIST_FAILED: missing snapshot" }
    else { db with next := .commit task run (Json.put payload "content_snapshot_id" (.str snapshotId)) }
  | .stale => if stale then { db with next := .returned task.taskId .leaseLost } else db
  | .raise stage error => { db with next := .fail task run stage error }

/-- One statement of the call. `locked` are the rows that other workers lock during the claim. -/
def advance (now : Time) (locked : List String) (choice : PipelineStep) (db : ServiceDb) : ServiceDb :=
  match db.next with
  | .claim =>
    match claimPending locked w.workerId w.taskKind w.leaseSeconds now db.tasks with
    | (tasks, none) => { db with tasks, next := .nothingToDo }
    | (tasks, some task) => { db with tasks, next := if w.taskLease then .readRun task else .pipeline task none false }
  | .readRun task => { db with next := if (db.runs.get task.taskId).isNone then .createRun task else .acquireRun task }
  | .createRun task => { db with runs := db.runs.create "content" task.taskId, next := .acquireRun task }
  | .acquireRun task =>
    match TaskRunTable.acquire task.taskId w.workerId now (seconds w.leaseSeconds) db.runs with
    | .ok (runs, run) => { db with runs, next := .pipeline task (some run.fencingToken) false }
    | .error error => { db with next := .raised error }
  | .pipeline task run stale => w.runPipeline task run stale now db choice
  | .commit task run payload =>
    match commitEffect task.taskId payload w.workerId task.fencingToken now db.tasks with
    | .ok (tasks, _) =>
      { db with tasks, next := run.elim (.returned task.taskId .succeeded) (.succeedRun task) }
    | .error _ => { db with next := .returned task.taskId .leaseLost }
  | .succeedRun task run =>
    -- The handler around the pipeline also stands around this statement.
    match TaskRunTable.transition task.taskId .succeeded w.workerId run now db.runs with
    | .ok (runs, _) => { db with runs, next := .returned task.taskId .succeeded }
    | .error error => { db with next := .fail task (some run) "completed" (w.errorText error) }
  | .fail task run stage error =>
    match Tasks.fail task.taskId stage error w.workerId task.fencingToken now db.tasks with
    | .ok (tasks, _) =>
      { db with tasks, next := run.elim (.returned task.taskId (.failed stage error)) (.failRun task · stage error) }
    | .error _ => { db with next := .returned task.taskId .leaseLost }
  | .failRun task run stage error =>
    let next := .returned task.taskId (.failed stage error)
    match TaskRunTable.transition task.taskId .failed w.workerId run now db.runs with
    | .ok (runs, _) => { db with runs, next }
    | .error _ => { db with next }
  | .returned .. | .nothingToDo | .raised _ => db

end ContentWorker

/-- A statement of the call, or a call of anyone else on the tasks or the task runs. -/
inductive ServiceCall where
  | own (now : Time) (locked : List String) (choice : PipelineStep)
  | task (call : TaskCall)
  | taskRun (call : TaskRunCall)

def execService (w : ContentWorker) (db : ServiceDb) : ServiceCall → ServiceDb × Unit
  | .own now locked choice => (w.advance now locked choice db, ())
  | .task call => ({ db with tasks := taskQueue.step db.tasks call }, ())
  | .taskRun call => ({ db with runs := taskRunStore.step db.runs call }, ())

def serviceStore (w : ContentWorker) : Machine ServiceDb ServiceCall Unit := ⟨execService w⟩

end StockContent.Tasks

/-! What a call of `process_next` returns, against what it stored: exactly when they agree. -/
namespace StockContent.Tasks
open Storage

section Conditions
variable (w : ContentWorker)

/-- The statement records the terminal effect of the task. -/
def Commits (db : ServiceDb) : ServiceCall → Prop
  | .own now _ _ => ∃ task run payload result, db.next = .commit task run payload ∧
      commitEffect task.taskId payload w.workerId task.fencingToken now db.tasks = .ok result
  | _ => False

/-- Whether a statement of the call at a time is an accepted commit. -/
def accepts (now : Time) (db : ServiceDb) : Bool :=
  match db.next with
  | .commit task _ payload => (commitEffect task.taskId payload w.workerId task.fencingToken now db.tasks).isOk
  | _ => false

def Statement.task : Statement → Option ContentTask
  | .pipeline task _ _ | .commit task _ _ | .fail task _ _ _ => some task
  | _ => none

/-- The call finds that it does not hold the lease of its task any more. -/
def FenceLost (db : ServiceDb) : ServiceCall → Prop
  | .own now _ _ => ∃ task, db.next.task = some task ∧ ∀ row, db.tasks.get task.taskId = some row →
      holdsLease w.workerId task.fencingToken now row = false
  | _ => False

/-- After the commit, the task run is still running under the unexpired lease of the call. -/
def EndsHeld (db : ServiceDb) : ServiceCall → Prop
  | .own now _ _ => ∀ task token, db.next = .succeedRun task token → ∃ run, db.runs.get task.taskId = some run ∧
      run.state = .running ∧ run.heldBy w.workerId token now = true
  | _ => True

/-- What a returned status says of the rows, at the statement that returns it. -/
structure Agrees (start : ServiceDb) (calls : List ServiceCall) (taskId : String) (status : CallStatus) : Prop where
  succeeded : status = .succeeded ↔ (serviceStore w).Happens (Commits w) start calls
  leaseLost : status = .leaseLost → (serviceStore w).Happens (FenceLost w) start calls ∧
    ¬ (serviceStore w).Happens (Commits w) start calls
  taskRun : w.taskLease = true → (serviceStore w).Happens (Commits w) start calls →
    ∃ run, ((serviceStore w).run start calls).runs.get taskId = some run ∧ run.state = .succeeded

variable {w} {db : ServiceDb} {now : Time} {locked : List String} {choice : PipelineStep}

theorem commits_of_accepts (h : accepts w now db = true) : Commits w db (.own now locked choice) := by
  unfold accepts at h
  split at h
  · rename_i task run payload hnext
    cases hcommit : commitEffect task.taskId payload w.workerId task.fencingToken now db.tasks with
    | ok result => exact ⟨task, run, payload, result, hnext, hcommit⟩
    | error e =>
      rw [hcommit] at h
      cases h
  · cases h

/-- Whether a statement of the call at a time is no refused end of its task run. -/
def ends (w : ContentWorker) (now : Time) (db : ServiceDb) : Bool :=
  match db.next with
  | .succeedRun task run => (TaskRunTable.transition task.taskId .succeeded w.workerId run now db.runs).isOk
  | _ => true

theorem reply_some {statement : Statement} {taskId : String} {status : CallStatus}
    (h : statement.reply = some (taskId, status)) : statement = .returned taskId status := by
  cases statement <;> cases h
  rfl

theorem reply_none {statement : Statement} (h : statement.reply = none) (taskId : String) (status : CallStatus) :
    statement ≠ .returned taskId status := by
  intro hreturned
  rw [hreturned] at h
  cases h

theorem fencedRow_refused {task : ContentTask} {e : TaskError}
    (h : fencedRow task.taskId w.workerId task.fencingToken now db.tasks = .error e) {row : ContentTaskRow}
    (hrow : db.tasks.get task.taskId = some row) : holdsLease w.workerId task.fencingToken now row = false := by
  rw [fencedRow, hrow] at h
  dsimp only at h
  cases hheld : holdsLease w.workerId task.fencingToken now row with
  | false => rfl
  | true =>
    rw [hheld] at h
    cases h

theorem fenceLost_of_check {task : ContentTask} {e : TaskError} (hnext : db.next.task = some task)
    (h : fencedRow task.taskId w.workerId task.fencingToken now db.tasks = .error e) :
    FenceLost w db (.own now locked choice) :=
  ⟨task, hnext, fun _ hrow => fencedRow_refused h hrow⟩

theorem fenceLost_of_write {task : ContentTask} {e : TaskError} {write : TaskWrite} (hnext : db.next.task = some task)
    (h : fencedWrite task.taskId w.workerId task.fencingToken now write db.tasks = .error e) :
    FenceLost w db (.own now locked choice) := by
  rcases bind_eq_error.mp h with h | ⟨row, _, h⟩
  · exact fenceLost_of_check hnext h
  · cases h

variable (w now locked choice) in
theorem endsHeld_iff {task : ContentTask} {token : Nat} (hnext : db.next = .succeedRun task token) :
    EndsHeld w db (.own now locked choice) ↔
      ∃ result, TaskRunTable.transition task.taskId .succeeded w.workerId token now db.runs = .ok result := by
  have hallowed (state : TaskRunState) : TaskRunState.succeeded ∈ TaskRun.allowed state ↔ state = .running := by
    cases state <;> decide
  constructor
  · intro h
    obtain ⟨run, hrun, hrunning, hheld⟩ := h task token hnext
    exact ⟨_, TaskRunTable.onRun_ok.mpr
      ⟨run, hrun, TaskRun.transition_ok.mpr ⟨hheld, (hallowed _).mpr hrunning, rfl⟩, rfl⟩⟩
  · intro h task' token' hnext'
    obtain ⟨result, h⟩ := h
    cases hnext.symm.trans hnext'
    obtain ⟨run, hrun, hmoved, _⟩ := TaskRunTable.onRun_ok.mp h
    obtain ⟨hheld, hstate, _⟩ := TaskRun.transition_ok.mp hmoved
    exact ⟨run, hrun, (hallowed _).mp hstate, hheld⟩

theorem endsHeld_of_ends (h : ends w now db = true) : EndsHeld w db (.own now locked choice) := by
  unfold ends at h
  split at h
  · rename_i task token hnext
    rw [endsHeld_iff w now locked choice hnext]
    cases htransition : TaskRunTable.transition task.taskId .succeeded w.workerId token now db.runs with
    | ok result => exact ⟨result, rfl⟩
    | error e =>
      rw [htransition] at h
      cases h
  · rename_i hother
    exact fun task token hnext => absurd hnext (hother task token)

end Conditions

section Tracking

/-- Nothing was committed, and no end of a task run came too late. -/
def Clean (committed held : Prop) : Prop := ¬ committed ∧ held

/-- The commit was accepted and the end of the task run was not. -/
def Broken (committed held : Prop) : Prop := committed ∧ ¬ held

/-- What is known of a run of the call from the statement it stands at. -/
def Tracked (taskLease : Bool) (committed held lost : Prop) : Statement → Prop
  | .readRun _ | .createRun _ | .acquireRun _ => Clean committed held ∧ taskLease = true
  | .pipeline _ run stale => Clean committed held ∧ (stale = true → lost) ∧ run.isSome = taskLease
  | .commit _ run _ => Clean committed held ∧ run.isSome = taskLease
  | .succeedRun .. | .returned _ .succeeded => committed ∧ held
  | .returned _ .leaseLost => Clean committed held ∧ lost ∨ Broken committed held
  | .fail .. | .failRun .. | .returned .. => Clean committed held ∨ Broken committed held
  | _ => Clean committed held

variable {w : ContentWorker} {db : ServiceDb} {c : ServiceCall} {committed held lost : Prop}

theorem tracked_congr {statement : Statement} {committed' held' lost' : Prop} (hc : committed ↔ committed')
    (hh : held ↔ held') (hl : lost → lost') (h : Tracked w.taskLease committed held lost statement) :
    Tracked w.taskLease committed' held' lost' statement := by
  obtain rfl := propext hc
  obtain rfl := propext hh
  unfold Tracked at h ⊢
  split at h <;> first | exact h | exact ⟨h.1, fun hs => hl (h.2.1 hs), h.2.2⟩ | exact h.imp_left (And.imp_right hl)

variable (w) in
/-- A statement that neither commits nor ends the task run leaves both conditions as they were. -/
theorem quiet_own (now : Time) (locked : List String) (choice : PipelineStep)
    (hcommit : ∀ task run payload, db.next ≠ .commit task run payload)
    (hend : ∀ task run, db.next ≠ .succeedRun task run) :
    (committed ↔ committed ∨ Commits w db (.own now locked choice)) ∧
      (held ↔ held ∧ EndsHeld w db (.own now locked choice)) := by
  refine ⟨⟨.inl, fun h => h.elim id fun hc => ?_⟩, ⟨fun h => ⟨h, fun task run hnext => ?_⟩, And.left⟩⟩
  · obtain ⟨task, run, payload, _, hnext, _⟩ := hc
    exact absurd hnext (hcommit task run payload)
  · exact absurd hnext (hend task run)

/-- A write or a check of the pipeline is accepted, or the fence is lost. -/
theorem tracked_fenced {task : ContentTask} {run : Option Nat} {stale : Bool} {now : Time} (locked : List String)
    (choice : PipelineStep) (write : TaskWrite) (hnext : db.next = .pipeline task run stale)
    (h : Tracked w.taskLease committed held lost db.next) :
    Tracked w.taskLease committed held (lost ∨ FenceLost w db (.own now locked choice))
      (w.fenced task run now write db).next := by
  have htask : db.next.task = some task := by rw [hnext]; rfl
  unfold ContentWorker.fenced
  split
  · exact tracked_congr Iff.rfl Iff.rfl .inl h
  · rename_i e hrefused
    rw [hnext] at h
    exact ⟨h.1, fun _ => .inr (fenceLost_of_write htask hrefused), h.2.2⟩

theorem tracked_pipeline {task : ContentTask} {run : Option Nat} {stale : Bool} {now : Time} (locked : List String)
    (choice : PipelineStep) (hnext : db.next = .pipeline task run stale)
    (h : Tracked w.taskLease committed held lost db.next) :
    Tracked w.taskLease committed held (lost ∨ FenceLost w db (.own now locked choice))
      (w.runPipeline task run stale now db choice).next := by
  have htask : db.next.task = some task := by rw [hnext]; rfl
  have hkept : Tracked w.taskLease committed held (lost ∨ FenceLost w db (.own now locked choice)) db.next :=
    tracked_congr Iff.rfl Iff.rfl .inl h
  have hclean : Clean committed held := by
    rw [hnext] at h
    exact h.1
  cases choice with
  | heartbeat => exact tracked_fenced locked _ _ hnext h
  | progress stage value => exact tracked_fenced locked _ _ hnext h
  | checkpoint stage value progress => exact tracked_fenced locked _ _ hnext h
  | check =>
    rw [ContentWorker.runPipeline]
    split
    · exact hkept
    · rename_i e hrefused
      rw [hnext] at h
      exact ⟨hclean, fun _ => .inr (fenceLost_of_check htask hrefused), h.2.2⟩
  | result payload snapshotId =>
    rw [ContentWorker.runPipeline]
    split
    · exact .inl hclean
    · rw [hnext] at h
      exact ⟨hclean, h.2.2⟩
  | stale =>
    rw [ContentWorker.runPipeline]
    split
    · rename_i hstale
      rw [hnext] at hkept
      exact .inl ⟨hclean, hkept.2.1 hstale⟩
    · exact hkept
  | raise stage error => exact .inl hclean

theorem tracked_commit {task : ContentTask} {run : Option Nat} {payload : List (String × Json)} {now : Time}
    {locked : List String} {choice : PipelineStep} (hnext : db.next = .commit task run payload)
    (h : Clean committed held) (hrun : run.isSome = w.taskLease) :
    Tracked w.taskLease (committed ∨ Commits w db (.own now locked choice))
      (held ∧ EndsHeld w db (.own now locked choice)) (lost ∨ FenceLost w db (.own now locked choice))
      (w.advance now locked choice db).next := by
  have hends : EndsHeld w db (.own now locked choice) := by
    intro task' token hends
    rw [hnext] at hends
    cases hends
  simp only [ContentWorker.advance, hnext]
  cases hcommit : commitEffect task.taskId payload w.workerId task.fencingToken now db.tasks with
  | ok result =>
    have hcommits : Commits w db (.own now locked choice) := ⟨task, run, payload, result, hnext, hcommit⟩
    cases run with
    | none => exact ⟨.inr hcommits, h.2, hends⟩
    | some token => exact ⟨.inr hcommits, h.2, hends⟩
  | error e =>
    have hnot : ¬ Commits w db (.own now locked choice) := by
      intro hcommits
      obtain ⟨task', run', payload', result, hnext', hok⟩ := hcommits
      cases hnext.symm.trans hnext'
      cases hcommit.symm.trans hok
    exact .inl ⟨⟨fun hc => hc.elim h.1 hnot, h.2, hends⟩, .inr (fenceLost_of_write (by rw [hnext]; rfl) hcommit)⟩

theorem tracked_succeedRun {task : ContentTask} {token : Nat} {now : Time} {locked : List String}
    {choice : PipelineStep} (hnext : db.next = .succeedRun task token) (h : committed ∧ held) :
    Tracked w.taskLease (committed ∨ Commits w db (.own now locked choice))
      (held ∧ EndsHeld w db (.own now locked choice)) (lost ∨ FenceLost w db (.own now locked choice))
      (w.advance now locked choice db).next := by
  have hends := endsHeld_iff w now locked choice hnext
  simp only [ContentWorker.advance, hnext]
  cases htransition : TaskRunTable.transition task.taskId .succeeded w.workerId token now db.runs with
  | ok result => exact ⟨.inl h.1, h.2, hends.mpr ⟨result, htransition⟩⟩
  | error e =>
    refine .inr ⟨.inl h.1, fun hheld => ?_⟩
    obtain ⟨result, hok⟩ := hends.mp hheld.2
    cases htransition.symm.trans hok

/-- The statements that neither commit nor end the task run. -/
theorem tracked_quiet {now : Time} {locked : List String} {choice : PipelineStep}
    (hcommit : ∀ task run payload, db.next ≠ .commit task run payload)
    (hend : ∀ task run, db.next ≠ .succeedRun task run) (h : Tracked w.taskLease committed held lost db.next) :
    Tracked w.taskLease committed held (lost ∨ FenceLost w db (.own now locked choice))
      (w.advance now locked choice db).next := by
  have hends (hadvance : (w.advance now locked choice db).next = db.next) :
      Tracked w.taskLease committed held (lost ∨ FenceLost w db (.own now locked choice))
        (w.advance now locked choice db).next := by
    rw [hadvance]
    exact tracked_congr Iff.rfl Iff.rfl .inl h
  cases hnext : db.next with
  | commit task run payload => exact absurd hnext (hcommit task run payload)
  | succeedRun task token => exact absurd hnext (hend task token)
  | returned taskId status => exact hends (by simp only [ContentWorker.advance, hnext])
  | nothingToDo => exact hends (by simp only [ContentWorker.advance, hnext])
  | raised error => exact hends (by simp only [ContentWorker.advance, hnext])
  | pipeline task run stale =>
    simp only [ContentWorker.advance, hnext]
    exact tracked_pipeline locked choice hnext h
  | claim =>
    rw [hnext] at h
    simp only [ContentWorker.advance, hnext]
    split
    · exact h
    · cases hlease : w.taskLease with
      | true => exact ⟨h, rfl⟩
      | false => exact ⟨h, fun hs => (by cases hs), rfl⟩
  | readRun task =>
    rw [hnext] at h
    simp only [ContentWorker.advance, hnext]
    split <;> exact h
  | createRun task =>
    rw [hnext] at h
    simp only [ContentWorker.advance, hnext]
    exact h
  | acquireRun task =>
    rw [hnext] at h
    simp only [ContentWorker.advance, hnext]
    split
    · exact ⟨h.1, fun hs => (by cases hs), h.2.symm⟩
    · exact h.1
  | fail task run stage error =>
    rw [hnext] at h
    simp only [ContentWorker.advance, hnext]
    split
    · cases run <;> exact h
    · rename_i e hrefused
      have hlost : FenceLost w db (.own now locked choice) := fenceLost_of_write (by rw [hnext]; rfl) hrefused
      exact h.imp_left fun hclean => ⟨hclean, .inr hlost⟩
  | failRun task run stage error =>
    rw [hnext] at h
    simp only [ContentWorker.advance, hnext]
    split <;> exact h

/-- One statement of the call, or one call of anyone else. -/
theorem tracked_step (h : Tracked w.taskLease committed held lost db.next) (c : ServiceCall) :
    Tracked w.taskLease (committed ∨ Commits w db c) (held ∧ EndsHeld w db c) (lost ∨ FenceLost w db c)
      ((serviceStore w).step db c).next := by
  cases c with
  | task call => exact tracked_congr (or_iff_left id).symm (and_iff_left trivial).symm .inl h
  | taskRun call => exact tracked_congr (or_iff_left id).symm (and_iff_left trivial).symm .inl h
  | own now locked choice =>
    change Tracked _ _ _ _ (w.advance now locked choice db).next
    by_cases hcommit : ∃ task run payload, db.next = .commit task run payload
    · obtain ⟨task, run, payload, hnext⟩ := hcommit
      rw [hnext] at h
      exact tracked_commit hnext h.1 h.2
    · by_cases hend : ∃ task token, db.next = .succeedRun task token
      · obtain ⟨task, token, hnext⟩ := hend
        rw [hnext] at h
        exact tracked_succeedRun hnext h
      · push Not at hcommit hend
        obtain ⟨hcommitted, hheld⟩ := quiet_own w now locked choice hcommit hend
        exact tracked_congr hcommitted hheld id (tracked_quiet hcommit hend h)

variable (w) in
theorem tracked (tasks : TaskTable) (runs : TaskRunTable) (calls : List ServiceCall) :
    Tracked w.taskLease ((serviceStore w).Happens (Commits w) ⟨tasks, runs, .claim⟩ calls)
      ((serviceStore w).Along (EndsHeld w) ⟨tasks, runs, .claim⟩ calls)
      ((serviceStore w).Happens (FenceLost w) ⟨tasks, runs, .claim⟩ calls)
      ((serviceStore w).run ⟨tasks, runs, .claim⟩ calls).next := by
  induction calls using List.reverseRecOn with
  | nil => exact ⟨id, trivial⟩
  | append_singleton calls c ih =>
    rw [Machine.run_concat]
    refine tracked_congr (Machine.happens_concat _).symm (Machine.along_concat _).symm ?_ (tracked_step ih c)
    exact (Machine.happens_concat _).mpr

/-- A call that has not returned yet returns success only from its commit or from the end of its task run. -/
theorem succeeding_statement (h : Tracked w.taskLease committed held lost db.next) {now : Time} {locked : List String}
    {choice : PipelineStep} {taskId : String} (hopen : ∀ taskId status, db.next ≠ .returned taskId status)
    (hreturned : (w.advance now locked choice db).next = .returned taskId .succeeded) :
    (∃ task run payload, db.next = .commit task run payload) ∨ ∃ task run, db.next = .succeedRun task run := by
  by_contra hother
  push Not at hother
  have hboth := tracked_step h (.own now locked choice)
  change Tracked _ _ _ _ (w.advance now locked choice db).next at hboth
  rw [hreturned] at hboth
  obtain ⟨hcommitted, hheld⟩ := quiet_own w now locked choice
    hother.1 hother.2
  have hdone : committed ∧ held := ⟨hcommitted.mpr hboth.1, hheld.mpr hboth.2⟩
  have hnot : Clean committed held ∨ Broken committed held → False :=
    fun hends => hends.elim (fun hclean => hclean.1 hdone.1) fun hb => hb.2 hdone.2
  cases hnext : db.next with
  | commit task run payload => exact hother.1 _ _ _ hnext
  | succeedRun task run => exact hother.2 _ _ hnext
  | returned taskId status => exact hopen _ _ hnext
  | fail task run stage error =>
    rw [hnext] at h
    exact hnot h
  | failRun task run stage error =>
    rw [hnext] at h
    exact hnot h
  | readRun task =>
    rw [hnext] at h
    exact hnot (.inl h.1)
  | createRun task =>
    rw [hnext] at h
    exact hnot (.inl h.1)
  | acquireRun task =>
    rw [hnext] at h
    exact hnot (.inl h.1)
  | pipeline task run stale =>
    rw [hnext] at h
    exact hnot (.inl h.1)
  | claim =>
    rw [hnext] at h
    exact hnot (.inl h)
  | nothingToDo =>
    rw [hnext] at h
    exact hnot (.inl h)
  | raised error =>
    rw [hnext] at h
    exact hnot (.inl h)

/-- A call with a task run returns success when it has just ended that run. -/
theorem ended_run {taskId : String} (hlease : w.taskLease = true)
    (h : Tracked w.taskLease committed held lost db.next) (hopen : ∀ taskId status, db.next ≠ .returned taskId status)
    (hreturned : ((serviceStore w).step db c).next = .returned taskId .succeeded) :
    ∃ run, ((serviceStore w).step db c).runs.get taskId = some run ∧ run.state = .succeeded := by
  cases c with
  | task call => exact absurd hreturned (hopen _ _)
  | taskRun call => exact absurd hreturned (hopen _ _)
  | own now locked choice =>
    change (w.advance now locked choice db).next = _ at hreturned
    change ∃ run, (w.advance now locked choice db).runs.get taskId = _ ∧ _
    rcases succeeding_statement h hopen hreturned with ⟨task, run, payload, hnext⟩ | ⟨task, token, hnext⟩
    · -- With a task lease service the commit is not the last statement.
      rw [hnext] at h
      simp only [ContentWorker.advance, hnext] at hreturned
      split at hreturned
      · cases run with
        | none => cases h.2.trans hlease
        | some token => cases hreturned
      · cases hreturned
    · simp only [ContentWorker.advance, hnext] at hreturned ⊢
      cases htransition : TaskRunTable.transition task.taskId .succeeded w.workerId token now db.runs with
      | error e =>
        rw [htransition] at hreturned
        cases hreturned
      | ok result =>
        rw [htransition] at hreturned
        cases hreturned
        obtain ⟨run, hrun, hmoved, hruns⟩ := TaskRunTable.onRun_ok.mp htransition
        obtain ⟨_, _, hmoved⟩ := TaskRun.transition_ok.mp hmoved
        have hid : result.2.taskRunId = task.taskId := by
          have hstored : run.taskRunId = task.taskId := Table.get_key hrun
          rw [hmoved]
          exact hstored
        refine ⟨result.2, ?_, by rw [hmoved]; rfl⟩
        change result.1.get task.taskId = some result.2
        rw [hruns, ← hid]
        exact Table.get_update_self (hid ▸ hrun)

end Tracking

/-- A returned call of `process_next` agrees with the rows exactly when its commit was not
accepted, or its task run was still running under its unexpired lease after the commit. -/
theorem process_next_agrees_iff (w : ContentWorker) (tasks : TaskTable) (runs : TaskRunTable)
    (past : List ServiceCall) (c : ServiceCall) (taskId : String) (status : CallStatus)
    (hopen : ((serviceStore w).run ⟨tasks, runs, .claim⟩ past).next.reply = none)
    (hreturned : ((serviceStore w).run ⟨tasks, runs, .claim⟩ (past ++ [c])).next.reply = some (taskId, status)) :
    Agrees w ⟨tasks, runs, .claim⟩ (past ++ [c]) taskId status ↔
      (serviceStore w).Along (EndsHeld w) ⟨tasks, runs, .claim⟩ (past ++ [c]) := by
  have hopen := reply_none hopen
  have hreturned := reply_some hreturned
  have htracked := tracked w tasks runs (past ++ [c])
  rw [hreturned] at htracked
  constructor
  · intro h
    by_contra hbroken
    have hcommitted (hsuccess : status ≠ .succeeded)
        (hends : Clean ((serviceStore w).Happens (Commits w) ⟨tasks, runs, .claim⟩ (past ++ [c]))
          ((serviceStore w).Along (EndsHeld w) ⟨tasks, runs, .claim⟩ (past ++ [c])) ∨
          Broken ((serviceStore w).Happens (Commits w) ⟨tasks, runs, .claim⟩ (past ++ [c]))
          ((serviceStore w).Along (EndsHeld w) ⟨tasks, runs, .claim⟩ (past ++ [c]))) : False :=
      hends.elim (fun hclean => hbroken hclean.2) fun hb => hsuccess (h.succeeded.mpr hb.1)
    cases status with
    | succeeded => exact hbroken htracked.2
    | leaseLost => exact hcommitted (by simp) (htracked.imp_left And.left)
    | failed stage error => exact hcommitted (by simp) htracked
  · intro hheld
    cases status with
    | succeeded =>
      refine ⟨iff_of_true rfl htracked.1, fun h => (by cases h), fun hlease _ => ?_⟩
      rw [Machine.run_concat] at hreturned ⊢
      exact ended_run hlease (tracked w tasks runs past) hopen hreturned
    | leaseLost =>
      obtain ⟨hclean, hlost⟩ := htracked.resolve_right fun hb => hb.2 hheld
      exact ⟨iff_of_false (by simp) hclean.1, fun _ => ⟨hlost, hclean.1⟩, fun _ hc => absurd hc hclean.1⟩
    | failed stage error =>
      have hclean := htracked.resolve_right fun hb => hb.2 hheld
      exact ⟨iff_of_false (by simp) hclean.1, fun h => (by cases h), fun _ hc => absurd hc hclean.1⟩

section Examples

def coreWorker : ContentWorker := { workerId := "worker-a", errorText := fun _ => "LeaseError" }

/-- One task is enqueued and claimed at 0, with a task run beside it; both leases last 900 seconds. -/
def claimedTask : List ServiceCall :=
  [.task (.enqueueIngestion "task-1" "bilibili" "BV1" [] none none (seconds 0)),
    .own (seconds 0) [] .check, .own (seconds 0) [] .check, .own (seconds 0) [] .check, .own (seconds 0) [] .check]

/-- The pipeline extends the lease of the task and has its result after the run's lease is over. -/
def longPipeline : List ServiceCall :=
  claimedTask ++ [.own (seconds 800) [] .heartbeat, .own (seconds 1000) [] (.result [] "cs-1")]

/-- The commit is accepted, the end of the task run is refused, and the call says that it lost its lease. -/
theorem long_pipeline_disagrees :
    ¬ ∀ (w : ContentWorker) tasks runs past c taskId status,
      ((serviceStore w).run ⟨tasks, runs, .claim⟩ past).next.reply = none →
      ((serviceStore w).run ⟨tasks, runs, .claim⟩ (past ++ [c])).next.reply = some (taskId, status) →
      Agrees w ⟨tasks, runs, .claim⟩ (past ++ [c]) taskId status := by
  intro h
  let store := serviceStore coreWorker
  let start : ServiceDb := ⟨.empty, .empty, .claim⟩
  let ending : List ServiceCall := [.own (seconds 1000) [] .check, .own (seconds 1000) [] .check]
  have hagrees := h coreWorker .empty .empty (longPipeline ++ ending) (.own (seconds 1000) [] .check) "task-1" .leaseLost
    (by decide) (by decide)
  obtain ⟨db, hdb⟩ : ∃ db, db = store.run start longPipeline := ⟨_, rfl⟩
  have haccepts : accepts coreWorker (seconds 1000) db = true := by
    rw [hdb]
    decide
  have hcommits : store.Happens (Commits coreWorker) db (ending ++ [.own (seconds 1000) [] .check]) :=
    .inl (commits_of_accepts haccepts)
  have hcommitted : store.Happens (Commits coreWorker) start (longPipeline ++ ending ++ [.own (seconds 1000) [] .check]) := by
    rw [List.append_assoc, store.happens_append, ← hdb]
    exact .inr hcommits
  exact (hagrees.leaseLost rfl).2 hcommitted

/-- A pipeline that is done before the lease of the task run is over. -/
def shortPipeline : List ServiceCall :=
  claimedTask ++ [.own (seconds 600) [] .heartbeat, .own (seconds 800) [] (.result [] "cs-1"),
    .own (seconds 800) [] .check]

theorem short_pipeline_agrees :
    Agrees coreWorker ⟨.empty, .empty, .claim⟩ (shortPipeline ++ [.own (seconds 800) [] .check]) "task-1" .succeeded := by
  refine (process_next_agrees_iff coreWorker .empty .empty shortPipeline (.own (seconds 800) [] .check) "task-1"
    .succeeded (by decide) (by decide)).mpr ⟨trivial, ?_, ?_, ?_, ?_, ?_, ?_, ?_, ?_, trivial⟩
  all_goals exact endsHeld_of_ends (by decide)

end Examples
end StockContent.Tasks
