import StockContent.Storage.Lease
import StockContent.Tasks.TaskRuns

/-! Task leases against their history: the row of a task always agrees with the
leases that claims handed out for it and renewals extended. -/
namespace StockContent.Tasks
open Storage

/-- What one call and its answer tell about the lease of task `id`. -/
def leaseEvent (id : String) : TaskCall × Reply → Option (LeaseEvent String)
  | (.claimPending _ workerId _ leaseSeconds now, .ok (some task)) =>
    if task.taskId = id then some (.granted ⟨workerId, task.fencingToken, now + seconds leaseSeconds⟩)
    else none
  | (.write taskId _ _ now (.renewLease leaseSeconds), .ok _) =>
    if taskId = id then some (.extended (now + seconds leaseSeconds)) else none
  | _ => none

def leaseEvents (id : String) (history : List (TaskCall × Reply)) : List (LeaseEvent String) :=
  history.filterMap (leaseEvent id)

/-- The row of a task agrees with its leases; before creation there were none. -/
def LeaseHistory (tasks : TaskTable) (history : List (TaskCall × Reply)) : Prop :=
  ∀ id, match tasks.get id with
    | none => leaseEvents id history = []
    | some row => LeaseAgrees (leaseEvents id history) row.leaseOwner row.fencingToken row.leaseExpiresAt

/-- A write that shows nothing about the lease: it is kept as it is, or dropped. -/
def KeepsLease (row row' : ContentTaskRow) : Prop :=
  row'.fencingToken = row.fencingToken ∧
    (row'.leaseOwner = none ∨
      row'.leaseOwner = row.leaseOwner ∧ row'.leaseExpiresAt = row.leaseExpiresAt)

theorem KeepsLease.refl (row : ContentTaskRow) : KeepsLease row row := ⟨rfl, .inr ⟨rfl, rfl⟩⟩

theorem KeepsLease.write {w : TaskWrite} (hw : ∀ leaseSeconds, w ≠ .renewLease leaseSeconds) (now : Time)
    (row : ContentTaskRow) : KeepsLease row (w.apply now row) := by
  cases w with
  | renewLease leaseSeconds => exact absurd rfl (hw leaseSeconds)
  | _ => exact ⟨rfl, by simp [TaskWrite.apply]⟩

theorem KeepsLease.finish (e : ReplayEnd) (row : ContentTaskRow) : KeepsLease row (e.apply row) := by
  cases e <;> exact ⟨rfl, .inr ⟨rfl, rfl⟩⟩

private theorem LeaseHistory.quiet {tasks tasks' : TaskTable} {history : List (TaskCall × Reply)}
    {call : TaskCall × Reply} (h : LeaseHistory tasks history) (hq : ∀ id, leaseEvent id call = none)
    (hev : Table.Evolves (·.leaseOwner = none) KeepsLease tasks tasks') :
    LeaseHistory tasks' (history ++ [call]) := by
  intro id
  have he : leaseEvents id (history ++ [call]) = leaseEvents id history := by
    simp [leaseEvents, hq id]
  have hid := h id
  rw [he]
  cases hg : tasks.get id with
  | none =>
    simp only [hg] at hid
    cases hg' : tasks'.get id with
    | none => exact hid
    | some row' =>
      simp only [hid, hev.new id row' hg hg']
      exact .fresh _ _
  | some row =>
    simp only [hg] at hid
    rcases hev.old id row hg with ⟨row', hg', ht, ho | ⟨ho, hx⟩⟩
    · simp only [hg', ht, ho]
      exact hid.release _
    · simpa only [hg', ht, ho, hx] using hid

/-- One row is rewritten and its lease event recorded; the others are untouched. -/
private theorem LeaseHistory.modify {tasks : TaskTable} {history : List (TaskCall × Reply)}
    {call : TaskCall × Reply} (h : LeaseHistory tasks history) {taskId : String} {row : ContentTaskRow}
    (hg : tasks.get taskId = some row) {f : ContentTaskRow → ContentTaskRow} (hf : ∀ r, (f r).id = r.id)
    {e : LeaseEvent String} (he : leaseEvent taskId call = some e)
    (hother : ∀ id, id ≠ taskId → leaseEvent id call = none)
    (hrow : LeaseAgrees (leaseEvents taskId history) row.leaseOwner row.fencingToken row.leaseExpiresAt →
      LeaseAgrees (leaseEvents taskId history ++ [e]) (f row).leaseOwner (f row).fencingToken
        (f row).leaseExpiresAt) :
    LeaseHistory (tasks.modify taskId f hf) (history ++ [call]) := by
  intro id
  have hid := h id
  by_cases hi : id = taskId
  · subst hi
    simp only [hg] at hid
    simpa [hg, leaseEvents, he] using hrow hid
  · rw [Table.get_modify_ne _ _ _ hi]
    simpa [leaseEvents, hother id hi] using hid

private theorem create_keepsLease (tasks : TaskTable) (task : ContentTask) (now : Time)
    (ho : task.leaseOwner = none) :
    Table.Evolves (·.leaseOwner = none) KeepsLease tasks (settle tasks (create task now tasks)).1 := by
  have hrefl : Table.Evolves (·.leaseOwner = none) KeepsLease tasks tasks := .refl .refl tasks
  unfold create
  dsimp only
  split
  · rename_i existing _
    cases reserveExisting existing task <;> exact hrefl
  · split
    · exact hrefl
    · split
      · rename_i hi
        exact .insert hi .refl ho
      · exact hrefl

/-- Each call keeps rows and lease history in agreement. -/
theorem leaseHistory_step (tasks : TaskTable) (history : List (TaskCall × Reply)) (call : TaskCall)
    (h : LeaseHistory tasks history) :
    LeaseHistory (taskQueue.step tasks call) (history ++ [(call, taskQueue.outcome tasks call)]) := by
  have hrefl : Table.Evolves (·.leaseOwner = none) KeepsLease tasks tasks := .refl .refl tasks
  cases call with
  | enqueueIngestion taskId sourceType sourceRef options idempotencyKey requestHash now =>
    exact h.quiet (fun _ => rfl) (create_keepsLease tasks _ now rfl)
  | startReplay taskId sourceType sourceRef options idempotencyKey requestHash now =>
    exact h.quiet (fun _ => rfl) (create_keepsLease tasks _ now rfl)
  | claimPending locked workerId taskKind leaseSeconds now =>
    change LeaseHistory (claimPending locked workerId taskKind leaseSeconds now tasks).1
      (history ++ [(_, .ok (claimPending locked workerId taskKind leaseSeconds now tasks).2)])
    cases hc : (claimPending locked workerId taskKind leaseSeconds now tasks).2 with
    | none =>
      rw [claimPending_none hc]
      exact h.quiet (fun _ => rfl) hrefl
    | some task =>
      obtain ⟨row, hg, _, ht, he⟩ := claimPending_some hc
      rw [he]
      refine h.modify hg _ (by simp [leaseEvent]; rfl) (fun id hi => by simp [leaseEvent, Ne.symm hi]) ?_
      intro hrow
      simpa [ht, domain, claimed] using hrow.grant workerId (now + seconds leaseSeconds)
  | write taskId workerId fencingToken now w =>
    change LeaseHistory (settle tasks (fencedWrite taskId workerId fencingToken now w tasks)).1
      (history ++ [(_, (settle tasks (fencedWrite taskId workerId fencingToken now w tasks)).2)])
    cases hx : fencedWrite taskId workerId fencingToken now w tasks with
    | error e => exact h.quiet (fun _ => by cases w <;> rfl) hrefl
    | ok p =>
      obtain ⟨row, hg, hl, he⟩ := fencedWrite_accepted hx
      obtain ⟨_, ho, _⟩ := holdsLease_iff.mp hl
      rw [settle_ok, he]
      -- A renewal extends the lease; the other writes show nothing and keep it or drop it.
      by_cases hw : ∃ leaseSeconds, w = .renewLease leaseSeconds
      · obtain ⟨leaseSeconds, rfl⟩ := hw
        refine h.modify hg _ (by simp [leaseEvent]; rfl) (fun id hi => by simp [leaseEvent, Ne.symm hi]) ?_
        intro hrow
        rw [ho] at hrow
        simpa [TaskWrite.apply, ho] using hrow.extend (now + seconds leaseSeconds)
      · push Not at hw
        refine h.quiet (fun _ => ?_) (.modify tasks _ .refl fun r _ => .write hw now r)
        cases w with
        | renewLease leaseSeconds => exact absurd rfl (hw leaseSeconds)
        | _ => rfl
  | finishReplay taskId finish =>
    refine h.quiet (fun _ => rfl) ?_
    change Table.Evolves _ _ _ (settle tasks (finishUnleased taskId finish tasks)).1
    unfold finishUnleased
    dsimp only
    split
    · exact hrefl
    · split
      · exact hrefl
      · exact .modify tasks (fun row => finish.apply_id row) .refl fun r _ => .finish finish r

theorem taskQueue_leaseHistory (calls : List TaskCall) :
    LeaseHistory (taskQueue.run .empty calls) (taskQueue.history .empty calls) :=
  taskQueue.history_invariant leaseHistory_step (fun _ => rfl) calls

/-- Whoever passes the lease test of a row holds its latest lease. -/
theorem LeaseHistory.holder {tasks : TaskTable} {history : List (TaskCall × Reply)}
    (h : LeaseHistory tasks history) {taskId workerId : String} {fencingToken : Nat} {now : Time}
    {row : ContentTaskRow} (hg : tasks.get taskId = some row)
    (hl : holdsLease workerId fencingToken now row = true) :
    ∃ e, latestLease (leaseEvents taskId history) = some ⟨workerId, fencingToken, e⟩ ∧ now < e := by
  obtain ⟨_, ho, rfl, e, he, hlt⟩ := holdsLease_iff.mp hl
  have hid := h taskId
  simp only [hg] at hid
  obtain ⟨e', he', hlease⟩ := hid.held workerId ho
  rw [he] at he'
  cases he'
  exact ⟨e, hlease, hlt⟩

/-- Fencing over every run. A worker write is accepted only with the owner and token
of the latest claim, before that lease as last extended ends; any other write is
answered with a stale lease and changes nothing; every claim hands out a token above
the stored one and above every token that was handed out before. -/
theorem content_task_fencing (calls : List TaskCall) :
    let tasks := taskQueue.run .empty calls
    let events := fun id => leaseEvents id (taskQueue.history .empty calls)
    (∀ taskId workerId fencingToken now w,
      (∀ reply, taskQueue.outcome tasks (.write taskId workerId fencingToken now w) = .ok reply →
        ∃ e, latestLease (events taskId) = some ⟨workerId, fencingToken, e⟩ ∧ now < e) ∧
      ((∀ e, latestLease (events taskId) = some ⟨workerId, fencingToken, e⟩ → e ≤ now) →
        taskQueue.exec tasks (.write taskId workerId fencingToken now w) =
          (tasks, .error (staleLease taskId)))) ∧
    (∀ locked workerId taskKind leaseSeconds now task,
      taskQueue.outcome tasks (.claimPending locked workerId taskKind leaseSeconds now) = .ok (some task) →
      (∃ row, tasks.get task.taskId = some row ∧ row.fencingToken < task.fencingToken) ∧
      ∀ token ∈ grantedTokens (events task.taskId), token < task.fencingToken) := by
  intro tasks events
  have hist : LeaseHistory tasks (taskQueue.history .empty calls) := taskQueue_leaseHistory calls
  refine ⟨fun taskId workerId fencingToken now w => ⟨fun reply h => ?_, fun h => ?_⟩,
    fun locked workerId taskKind leaseSeconds now task h => ?_⟩
  · obtain ⟨row, hg, hl, _⟩ := fencedWrite_accepted (settle_committed h)
    exact hist.holder hg hl
  · have hstale : ∀ row, tasks.get taskId = some row → holdsLease workerId fencingToken now row = false := by
      intro row hg
      by_contra hl
      obtain ⟨e, he, hlt⟩ := hist.holder hg (by simpa using hl)
      exact absurd hlt (not_lt.mpr (h e he))
    change settle tasks (fencedWrite taskId workerId fencingToken now w tasks) = _
    rw [fencedWrite_stale w hstale, settle_error]
  · have hs : (claimPending locked workerId taskKind leaseSeconds now tasks).2 = some task := by
      simpa [taskQueue, Machine.outcome, execTask, Prod.map] using h
    obtain ⟨row, hg, _, ht, _⟩ := claimPending_some hs
    have htoken : task.fencingToken = row.fencingToken + 1 := by rw [ht]; rfl
    have hid := hist task.taskId
    simp only [hg] at hid
    refine ⟨⟨row, hg, by omega⟩, fun token hm => ?_⟩
    have := hid.behind token hm
    omega

end StockContent.Tasks
