import StockContent.Effects.FencedEffects
import StockContent.Tasks.TaskFencing

/-! Runs of the effect store: task calls, the unit of work and projection dispatchers
in any order. What a call does to a stored row is said once, in `rowAfter`. -/
namespace StockContent.Effects
open Storage Tasks

inductive EffectCall (D B V : Type) where
  | task (call : TaskCall)
  | executeSql (taskId workerId : String) (fencingToken : Nat) (intent : EffectIntent)
      (callback : B → Except String (B × V)) (now : Time)
  | prepareExternal (taskId workerId : String) (fencingToken : Nat) (intent : EffectIntent) (now : Time)
  | checkExternal (taskId workerId : String) (fencingToken : Nat) (effectId : String) (now : Time)
  | acceptExternal (taskId workerId : String) (fencingToken : Nat) (effectId : String) (now : Time)
  | claimDue (locked : List String) (workerId : String) (limit leaseSeconds : Int) (now : Time)
  | deliver (claim : DispatchClaim) (workerId : String) (index : EffectRow D → Except String Unit) (now : Time)
  | retry (claim : DispatchClaim) (workerId error : String) (now : Time)

inductive EffectReply (V : Type) where
  | task (reply : Reply)
  | executed (result : Executed V)
  | prepared (effectId : String)
  | checked (alreadyCompleted : Bool)
  | accepted
  | claims (claims : List DispatchClaim)
  | outcome (outcome : DispatchOutcome)

section Runs
variable {D B V : Type} (digests : Digests D) (dispatcher : KnowledgeProjectionDispatcher)

theorem boundTo_iff {taskId effectKey : String} {row : EffectRow D} :
    boundTo taskId effectKey row = true ↔ row.taskId = taskId ∧ row.effectKey = effectKey := by
  simp [boundTo]

theorem owned_some {claim : DispatchClaim} {workerId : String} {now : Time} {effects : EffectTable D}
    {row : EffectRow D} (h : owned claim workerId now effects = some row) :
    effects.get claim.effectId = some row ∧ ownsDispatch claim workerId now row = true :=
  Option.filter_eq_some_iff.mp h

theorem owned_none {claim : DispatchClaim} {workerId : String} {now : Time} {effects : EffectTable D}
    {row : EffectRow D} (h : owned claim workerId now effects = none) (hm : row ∈ effects.rows)
    (hid : row.effectId = claim.effectId) : ownsDispatch claim workerId now row = false := by
  have hg := Table.get_of_mem hm
  rw [hid] at hg
  simpa [owned, hg, Option.filter] using h

theorem owned_id {claim : DispatchClaim} {workerId : String} {now : Time} {effects : EffectTable D}
    {row : EffectRow D} (h : owned claim workerId now effects = some row) : row.effectId = claim.effectId :=
  Table.get_key (owned_some h).1

theorem owned_self {claim : DispatchClaim} {workerId : String} {now : Time} {effects : EffectTable D}
    {row r : EffectRow D} (h : owned claim workerId now effects = some row) (hm : r ∈ effects.rows)
    (hid : r.effectId = claim.effectId) : r = row := by
  have hg := (owned_some h).1
  rw [← hid, Table.get_of_mem hm] at hg
  exact Option.some.inj hg

/-- Rows are recorded under the identity of their task and key, with the hash of their payload. -/
structure EffectRowOk (row : EffectRow D) : Prop where
  identity : row.effectId = effectIdOf digests row.taskId row.effectKey
  payload : row.payloadHash = digests.document (Json.obj row.projectionPayload).canonical

/-- The row that a lookup by task and key finds is the only one bound to them. -/
theorem bound_unique {digests : Digests D} {effects : EffectTable D} (hok : effects.All (EffectRowOk digests))
    {taskId effectKey : String} {row row' : EffectRow D} (hm : row ∈ effects.rows) (hm' : row' ∈ effects.rows)
    (hb : boundTo taskId effectKey row = true) (hb' : boundTo taskId effectKey row' = true) : row = row' := by
  obtain ⟨ht, hk⟩ := boundTo_iff.mp hb
  obtain ⟨ht', hk'⟩ := boundTo_iff.mp hb'
  have hid : row.effectId = row'.effectId := by
    rw [(hok.of_mem hm).identity, (hok.of_mem hm').identity, ht, ht', hk, hk']
  exact List.inj_on_of_nodup_map effects.unique hm hm' hid

variable [DecidableEq D]

def execEffect (db : EffectDb D B) :
    EffectCall D B V → EffectDb D B × Except EffectError (EffectReply V)
  | .task call => ({ db with tasks := taskQueue.step db.tasks call }, .ok (.task (taskQueue.outcome db.tasks call)))
  | .executeSql taskId workerId fencingToken intent callback now =>
    (settle db (executeSql digests taskId workerId fencingToken intent callback now db)).map id
      (Except.map .executed)
  | .prepareExternal taskId workerId fencingToken intent now =>
    (settle db (prepareExternal digests taskId workerId fencingToken intent now db)).map id
      (Except.map .prepared)
  | .checkExternal taskId workerId fencingToken effectId now =>
    (db, (checkExternal taskId workerId fencingToken effectId now db).map .checked)
  | .acceptExternal taskId workerId fencingToken effectId now =>
    (settle db (acceptExternal taskId workerId fencingToken effectId now db)).map id
      (Except.map fun _ => .accepted)
  | .claimDue locked workerId limit leaseSeconds now =>
    let (effects, claims) := claimDue locked workerId limit leaseSeconds now db.effects
    ({ db with effects }, .ok (.claims claims))
  | .deliver claim workerId index now =>
    let (effects, reply) := settle db.effects (deliver claim workerId index now db.effects)
    ({ db with effects }, (reply.map .outcome).mapError .callback)
  | .retry claim workerId error now =>
    let (effects, outcome) := dispatcher.retry claim workerId error now db.effects
    ({ db with effects }, .ok (.outcome outcome))

def effectStore : Machine (EffectDb D B) (EffectCall D B V) (Except EffectError (EffectReply V)) :=
  ⟨execEffect digests dispatcher⟩

def EffectDb.initial (business : B) : EffectDb D B := ⟨.empty, .empty, business⟩

def current (taskId workerId : String) (fencingToken : Nat) (now : Time) (tasks : TaskTable) : Bool :=
  (tasks.get taskId).any (holdsLease workerId fencingToken now)

/-- The rows on which `execute_sql` or `prepare_external` acts. -/
def binds (taskId : String) (intent : EffectIntent) (row : EffectRow D) : Bool :=
  boundTo taskId intent.effectKey row && !rebinds digests intent row

/-- Everything a call does to one stored effect row. -/
def rowAfter (db : EffectDb D B) (call : EffectCall D B V) (row : EffectRow D) : EffectRow D :=
  match call with
  | .task _ | .checkExternal .. => row
  | .executeSql taskId workerId fencingToken intent callback now =>
    if current taskId workerId fencingToken now db.tasks ∧ binds digests taskId intent row ∧
        row.state ≠ .completed ∧ (callback db.business).isOk then
      completed now (restamped fencingToken row)
    else row
  | .prepareExternal taskId workerId fencingToken intent now =>
    if current taskId workerId fencingToken now db.tasks ∧ binds digests taskId intent row then
      restamped fencingToken row
    else row
  | .acceptExternal taskId workerId fencingToken effectId now =>
    if current taskId workerId fencingToken now db.tasks ∧ row.effectId = effectId then completed now row
    else row
  | .claimDue locked workerId limit leaseSeconds now =>
    if row.effectId ∈ (dueRows locked limit now db.effects).map (·.effectId) then
      dispatching workerId leaseSeconds now row
    else row
  | .deliver claim workerId index now =>
    if row.effectId = claim.effectId ∧ ownsDispatch claim workerId now row ∧ (index row).isOk then
      delivered now row
    else row
  | .retry claim workerId error now =>
    if row.effectId = claim.effectId ∧ ownsDispatch claim workerId now row then
      dispatcher.failed error now row
    else row

variable {digests dispatcher}

theorem requireCurrent_ok {taskId workerId : String} {fencingToken : Nat} {now : Time} {tasks : TaskTable}
    (h : current taskId workerId fencingToken now tasks = true) :
    ∃ row, requireCurrent taskId workerId fencingToken now tasks = .ok row := by
  simp only [current, Option.any_eq_true] at h
  obtain ⟨row, hg, hl⟩ := h
  exact ⟨row, by simp [requireCurrent, fencedRow, hg, hl, Except.mapError]⟩

theorem requireCurrent_stale {taskId workerId : String} {fencingToken : Nat} {now : Time} {tasks : TaskTable}
    (h : current taskId workerId fencingToken now tasks = false) :
    requireCurrent taskId workerId fencingToken now tasks = .error (.task (staleLease taskId)) := by
  rw [requireCurrent, fencedRow]
  unfold current at h
  cases hg : tasks.get taskId with
  | none => rfl
  | some row =>
    rw [hg] at h
    simp only [Option.any_some] at h
    simp [h, Except.mapError]

variable (digests) in
/-- The intent is bound already, to these or to other data, or it is recorded now. -/
theorem intentRow_cases (effects : EffectTable D) (taskId : String) (fencingToken : Nat)
    (intent : EffectIntent) (now : Time) :
    (∃ row ∈ effects.rows, boundTo taskId intent.effectKey row = true ∧
      intentRow digests taskId fencingToken intent now effects =
        if rebinds digests intent row then
          .error (.valueError "fenced effect key already binds different immutable payload")
        else .ok (effects.modify row.effectId (restamped fencingToken) (restamped_effectId fencingToken),
          restamped fencingToken row)) ∨
    (∀ row ∈ effects.rows, boundTo taskId intent.effectKey row = false) ∧
      (intentRow digests taskId fencingToken intent now effects = .error .integrityError ∨
        ∃ effects', effects.insert (intended digests taskId fencingToken intent now) = some effects' ∧
          intentRow digests taskId fencingToken intent now effects =
            .ok (effects', intended digests taskId fencingToken intent now)) := by
  rw [intentRow]
  cases hf : effects.rows.find? (boundTo taskId intent.effectKey) with
  | some row => exact .inl ⟨row, List.mem_of_find?_eq_some hf, List.find?_some hf, rfl⟩
  | none =>
    refine .inr ⟨fun row hm => by simpa using List.find?_eq_none.mp hf row hm, ?_⟩
    cases hi : effects.insert (intended digests taskId fencingToken intent now) with
    | none => exact .inl (by simp only [hi])
    | some effects' => exact .inr ⟨effects', rfl, by simp only [hi]⟩

/-- What a row looks like when it enters the table. -/
inductive Recorded (digests : Digests D) : EffectRow D → Prop
  | intended (taskId : String) (fencingToken : Nat) (intent : EffectIntent) (now : Time) :
      Recorded digests (intended digests taskId fencingToken intent now)
  | completed (taskId : String) (fencingToken : Nat) (intent : EffectIntent) (now : Time) :
      Recorded digests (completed now (intended digests taskId fencingToken intent now))

section Step
variable {effects : EffectTable D} {taskId : String} {intent : EffectIntent} {g : EffectRow D → EffectRow D}

omit [DecidableEq D] in
private theorem evolves_unchanged (h : ∀ row ∈ effects.rows, g row = row) :
    Table.Evolves (Recorded digests) (fun row row' => row' = g row) effects effects :=
  ⟨fun _ row hg => ⟨row, hg, (h row (Table.mem_of_get hg)).symm⟩, fun _ _ hn hs => by rw [hn] at hs; cases hs⟩

/-- Acting on the one row that the lookup found is acting on every row the intent binds. -/
private theorem evolves_bound (hok : effects.All (EffectRowOk digests)) {row : EffectRow D}
    (hm : row ∈ effects.rows) (hb : boundTo taskId intent.effectKey row = true)
    (f : EffectRow D → EffectRow D) (hf : ∀ r, (f r).effectId = r.effectId)
    (hg : g row = f row) (hn : ∀ r ∈ effects.rows, binds digests taskId intent r = false → g r = r) :
    Table.Evolves (Recorded digests) (fun row row' => row' = g row) effects
      (effects.modify row.effectId f hf) := by
  refine .rewrite effects _ fun r hmr => ?_
  by_cases hk : r.effectId = row.effectId
  · have he : r = row := List.inj_on_of_nodup_map effects.unique hmr hm hk
    simp [he, hg]
  · have hbr : binds digests taskId intent r = false := by
      by_contra hbr
      simp only [binds, Bool.not_eq_false, Bool.and_eq_true] at hbr
      exact hk (congrArg _ (bound_unique hok hmr hm hbr.1 hb))
    simp [hk, hn r hmr hbr]

private theorem binds_false (hok : effects.All (EffectRowOk digests)) {row : EffectRow D}
    (hm : row ∈ effects.rows) (hb : boundTo taskId intent.effectKey row = true)
    (hr : rebinds digests intent row = true) (r : EffectRow D) (hmr : r ∈ effects.rows) :
    binds digests taskId intent r = false := by
  by_contra hbr
  simp only [binds, Bool.not_eq_false, Bool.and_eq_true] at hbr
  rw [bound_unique hok hmr hm hbr.1 hb, hr] at hbr
  cases hbr.2

omit [DecidableEq D] in
private theorem evolves_recorded {effects' : EffectTable D} {row : EffectRow D}
    (hr : Recorded digests row) (hn : effects.get row.effectId = none) (h : ∀ r ∈ effects.rows, g r = r)
    (hself : effects'.get row.effectId = some row)
    (hother : ∀ k, k ≠ row.effectId → effects'.get k = effects.get k) :
    Table.Evolves (Recorded digests) (fun row row' => row' = g row) effects effects' := by
  refine ⟨fun k r hg => ⟨r, ?_, (h r (Table.mem_of_get hg)).symm⟩, fun k r hk hs => ?_⟩
  · rw [hother, hg]
    rintro rfl
    rw [hn] at hg
    cases hg
  · by_cases he : k = row.effectId
    · rw [he, hself] at hs
      cases hs
      exact hr
    · rw [hother k he, hk] at hs
      cases hs

end Step

section UnitOfWork
variable {db : EffectDb D B} {taskId workerId : String} {fencingToken : Nat} {intent : EffectIntent} {now : Time}
  {callback : B → Except String (B × V)} {effects : EffectTable D} {row : EffectRow D} {e : EffectError}

theorem executeSql_stale (h : current taskId workerId fencingToken now db.tasks = false) :
    executeSql digests taskId workerId fencingToken intent callback now db =
      .error (.task (staleLease taskId)) := by
  rw [executeSql]
  rw [requireCurrent_stale h]
  rfl

theorem executeSql_refused (h : current taskId workerId fencingToken now db.tasks = true)
    (he : intentRow digests taskId fencingToken intent now db.effects = .error e) :
    executeSql digests taskId workerId fencingToken intent callback now db = .error e := by
  obtain ⟨_, hcur⟩ := requireCurrent_ok h
  rw [executeSql]
  rw [hcur, he]
  rfl

theorem executeSql_bound (h : current taskId workerId fencingToken now db.tasks = true)
    (he : intentRow digests taskId fencingToken intent now db.effects = .ok (effects, row)) :
    executeSql digests taskId workerId fencingToken intent callback now db =
      if row.state = .completed then .ok ({ db with effects }, .alreadyCompleted)
      else match callback db.business with
        | .error e => .error (.callback e)
        | .ok (business, value) =>
          .ok ({ db with effects := effects.modify row.effectId (completed now) (completed_effectId now), business },
            .ran value) := by
  obtain ⟨_, hcur⟩ := requireCurrent_ok h
  rw [executeSql]
  rw [hcur, he]
  by_cases hs : row.state = .completed <;> cases hb : callback db.business <;>
    simp [bind, Except.bind, pure, Except.pure, Except.mapError, hs]

theorem prepareExternal_stale (h : current taskId workerId fencingToken now db.tasks = false) :
    prepareExternal digests taskId workerId fencingToken intent now db = .error (.task (staleLease taskId)) := by
  rw [prepareExternal]
  rw [requireCurrent_stale h]
  rfl

theorem prepareExternal_refused (h : current taskId workerId fencingToken now db.tasks = true)
    (he : intentRow digests taskId fencingToken intent now db.effects = .error e) :
    prepareExternal digests taskId workerId fencingToken intent now db = .error e := by
  obtain ⟨_, hcur⟩ := requireCurrent_ok h
  rw [prepareExternal]
  rw [hcur, he]
  rfl

theorem prepareExternal_bound (h : current taskId workerId fencingToken now db.tasks = true)
    (he : intentRow digests taskId fencingToken intent now db.effects = .ok (effects, row)) :
    prepareExternal digests taskId workerId fencingToken intent now db =
      .ok ({ db with effects }, row.effectId) := by
  obtain ⟨_, hcur⟩ := requireCurrent_ok h
  rw [prepareExternal]
  rw [hcur, he]
  rfl

theorem executeSql_tasks :
    (settle db (executeSql digests taskId workerId fencingToken intent callback now db)).1.tasks = db.tasks := by
  cases hc : current taskId workerId fencingToken now db.tasks with
  | false => rw [executeSql_stale hc, settle_error]
  | true =>
    cases he : intentRow digests taskId fencingToken intent now db.effects with
    | error e => rw [executeSql_refused hc he, settle_error]
    | ok p =>
      rw [executeSql_bound hc he]
      split
      · rfl
      · split <;> rfl

theorem prepareExternal_tasks :
    (settle db (prepareExternal digests taskId workerId fencingToken intent now db)).1.tasks = db.tasks := by
  cases hc : current taskId workerId fencingToken now db.tasks with
  | false => rw [prepareExternal_stale hc, settle_error]
  | true =>
    cases he : intentRow digests taskId fencingToken intent now db.effects with
    | error e => rw [prepareExternal_refused hc he, settle_error]
    | ok p => rw [prepareExternal_bound hc he, settle_ok]

omit [DecidableEq D] in
theorem acceptExternal_tasks (effectId : String) :
    (settle db (acceptExternal taskId workerId fencingToken effectId now db)).1.tasks = db.tasks := by
  rw [acceptExternal]
  cases requireCurrent taskId workerId fencingToken now db.tasks with
  | error e => rfl
  | ok row =>
    cases db.effects.get effectId <;> rfl

end UnitOfWork

variable {db : EffectDb D B}

private theorem executeSql_evolves (hok : db.effects.All (EffectRowOk digests)) (taskId workerId : String)
    (fencingToken : Nat) (intent : EffectIntent) (callback : B → Except String (B × V)) (now : Time) :
    let call : EffectCall D B V := .executeSql taskId workerId fencingToken intent callback now
    Table.Evolves (Recorded digests) (fun row row' => row' = rowAfter digests dispatcher db call row)
      db.effects ((effectStore digests dispatcher).step db call).effects := by
  intro call
  change Table.Evolves _ _ _
    (settle db (executeSql digests taskId workerId fencingToken intent callback now db)).1.effects
  cases hc : current taskId workerId fencingToken now db.tasks with
  | false =>
    rw [executeSql_stale hc]
    exact evolves_unchanged fun row _ => by simp [call, rowAfter, hc]
  | true =>
    obtain ⟨row, hm, hb, he⟩ | ⟨hfree, he | ⟨effects', hi, he⟩⟩ :=
      intentRow_cases digests db.effects taskId fencingToken intent now
    · cases hr : rebinds digests intent row with
      | true =>
        rw [hr, if_pos rfl] at he
        rw [executeSql_refused hc he]
        refine evolves_unchanged fun r hmr => ?_
        simp [call, rowAfter, binds_false hok hm hb hr r hmr]
      | false =>
        rw [hr, if_neg (by simp)] at he
        rw [executeSql_bound hc he, restamped_state]
        have hother (r : EffectRow D) (_ : r ∈ db.effects.rows) (hn : binds digests taskId intent r = false) :
            rowAfter digests dispatcher db call r = r := by simp [call, rowAfter, hn]
        have hbinds : binds digests taskId intent row = true := by simp [binds, hb, hr]
        by_cases hs : row.state = .completed
        · rw [if_pos hs]
          refine evolves_bound hok hm hb (restamped fencingToken) (restamped_effectId fencingToken) ?_ hother
          simp [call, rowAfter, hs, restamped]
        · rw [if_neg hs]
          cases hcb : callback db.business with
          | error e =>
            refine evolves_unchanged fun r _ => ?_
            simp [call, rowAfter, hcb, Except.isOk, Except.toBool]
          | ok p =>
            simp only [settle_ok, restamped_effectId]
            rw [Table.modify_modify]
            refine evolves_bound hok hm hb (fun r => completed now (restamped fencingToken r)) _ ?_ hother
            simp [call, rowAfter, hc, hbinds, hs, hcb, Except.isOk, Except.toBool]
    · rw [executeSql_refused hc he]
      refine evolves_unchanged fun r hmr => ?_
      simp [call, rowAfter, binds, hfree r hmr]
    · have hfresh : ∀ r ∈ db.effects.rows, rowAfter digests dispatcher db call r = r := by
        intro r hmr
        simp [call, rowAfter, binds, hfree r hmr]
      obtain ⟨hn, _⟩ := Table.insert_eq_some hi
      rw [executeSql_bound hc he, if_neg (by simp [intended])]
      cases hcb : callback db.business with
      | error e => exact evolves_unchanged hfresh
      | ok p =>
        have hself : effects'.get (intended digests taskId fencingToken intent now).effectId =
            some (intended digests taskId fencingToken intent now) := by rw [Table.get_insert hi, if_pos rfl]
        refine evolves_recorded (.completed taskId fencingToken intent now) hn hfresh ?_ fun k hk => ?_
        · exact (Table.get_modify_self _ _ _ (completed_effectId now)).trans (by rw [hself]; rfl)
        · rw [completed_effectId] at hk
          exact (Table.get_modify_ne _ _ (completed_effectId now) hk).trans
            (by rw [Table.get_insert hi, if_neg (Ne.symm hk)])

private theorem prepareExternal_evolves (hok : db.effects.All (EffectRowOk digests)) (taskId workerId : String)
    (fencingToken : Nat) (intent : EffectIntent) (now : Time) :
    let call : EffectCall D B V := .prepareExternal taskId workerId fencingToken intent now
    Table.Evolves (Recorded digests) (fun row row' => row' = rowAfter digests dispatcher db call row)
      db.effects ((effectStore digests dispatcher).step db call).effects := by
  intro call
  change Table.Evolves _ _ _
    (settle db (prepareExternal digests taskId workerId fencingToken intent now db)).1.effects
  cases hc : current taskId workerId fencingToken now db.tasks with
  | false =>
    rw [prepareExternal_stale hc]
    exact evolves_unchanged fun row _ => by simp [call, rowAfter, hc]
  | true =>
    obtain ⟨row, hm, hb, he⟩ | ⟨hfree, he⟩ :=
      intentRow_cases digests db.effects taskId fencingToken intent now
    · cases hr : rebinds digests intent row with
      | true =>
        rw [hr, if_pos rfl] at he
        rw [prepareExternal_refused hc he]
        refine evolves_unchanged fun r hmr => ?_
        simp [call, rowAfter, binds_false hok hm hb hr r hmr]
      | false =>
        rw [hr, if_neg (by simp)] at he
        rw [prepareExternal_bound hc he]
        refine evolves_bound hok hm hb (restamped fencingToken) (restamped_effectId fencingToken) ?_ fun r _ hn => ?_
        · simp [call, rowAfter, hc, binds, hb, hr]
        · simp [call, rowAfter, hn]
    · have hfresh : ∀ r ∈ db.effects.rows, rowAfter digests dispatcher db call r = r := by
        intro r hmr
        simp [call, rowAfter, binds, hfree r hmr]
      rcases he with he | ⟨effects', hi, he⟩
      · rw [prepareExternal_refused hc he]
        exact evolves_unchanged hfresh
      · rw [prepareExternal_bound hc he]
        refine evolves_recorded (.intended taskId fencingToken intent now) (Table.insert_eq_some hi).1 hfresh ?_
          fun k hk => ?_
        · rw [settle_ok, Table.get_insert hi, if_pos rfl]
        · rw [settle_ok, Table.get_insert hi, if_neg (Ne.symm hk)]

private theorem acceptExternal_evolves (taskId workerId : String) (fencingToken : Nat) (effectId : String)
    (now : Time) :
    let call : EffectCall D B V := .acceptExternal taskId workerId fencingToken effectId now
    Table.Evolves (Recorded digests) (fun row row' => row' = rowAfter digests dispatcher db call row)
      db.effects ((effectStore digests dispatcher).step db call).effects := by
  intro call
  change Table.Evolves _ _ _ (settle db (acceptExternal taskId workerId fencingToken effectId now db)).1.effects
  rw [acceptExternal]
  cases hc : current taskId workerId fencingToken now db.tasks with
  | false =>
    rw [requireCurrent_stale hc]
    exact evolves_unchanged fun row _ => by simp [call, rowAfter, hc]
  | true =>
    obtain ⟨_, hcur⟩ := requireCurrent_ok hc
    rw [hcur]
    cases hg : db.effects.get effectId with
    | none =>
      refine evolves_unchanged fun r hmr => ?_
      have hne : r.effectId ≠ effectId := fun he => by rw [← he, Table.get_of_mem hmr] at hg; cases hg
      simp [call, rowAfter, hne]
    | some row =>
      refine .modify_rows db.effects (completed_effectId now) fun r _ => ?_
      simp [call, rowAfter, hc]

private theorem deliver_evolves (claim : DispatchClaim) (workerId : String)
    (index : EffectRow D → Except String Unit) (now : Time) :
    let call : EffectCall D B V := .deliver claim workerId index now
    Table.Evolves (Recorded digests) (fun row row' => row' = rowAfter digests dispatcher db call row)
      db.effects ((effectStore digests dispatcher).step db call).effects := by
  intro call
  change Table.Evolves _ _ _ (settle db.effects (deliver claim workerId index now db.effects)).1
  rw [deliver]
  cases ho : owned claim workerId now db.effects with
  | none =>
    refine evolves_unchanged fun r hmr => ?_
    simpa [call, rowAfter] using fun he ho' => absurd ho' (by simp [owned_none ho hmr he])
  | some row =>
    have hown := (owned_some ho).2
    cases hi : index row with
    | error e =>
      simp only [hi]
      refine evolves_unchanged fun r hmr => if_neg fun h => ?_
      rw [owned_self ho hmr h.1, hi] at h
      cases h.2.2
    | ok u =>
      simp only [hi]
      refine .modify_rows db.effects (delivered_effectId now) fun r hmr => ?_
      by_cases he : r.effectId = claim.effectId
      · simp [call, rowAfter, owned_self ho hmr he, owned_id ho, hown, hi, Except.isOk, Except.toBool]
      · simp [call, rowAfter, he]

private theorem retry_evolves (claim : DispatchClaim) (workerId error : String) (now : Time) :
    let call : EffectCall D B V := .retry claim workerId error now
    Table.Evolves (Recorded digests) (fun row row' => row' = rowAfter digests dispatcher db call row)
      db.effects ((effectStore digests dispatcher).step db call).effects := by
  intro call
  change Table.Evolves _ _ _ (dispatcher.retry claim workerId error now db.effects).1
  rw [KnowledgeProjectionDispatcher.retry]
  cases ho : owned claim workerId now db.effects with
  | none =>
    refine evolves_unchanged fun r hmr => ?_
    simpa [call, rowAfter] using fun he ho' => absurd ho' (by simp [owned_none ho hmr he])
  | some row =>
    have hown := (owned_some ho).2
    refine .modify_rows db.effects (dispatcher.failed_effectId error now) fun r hmr => ?_
    by_cases he : r.effectId = claim.effectId
    · simp [call, rowAfter, owned_self ho hmr he, owned_id ho, hown]
    · simp [call, rowAfter, he]

variable (dispatcher) in
/-- Every call records new rows and takes each stored row to its `rowAfter`. -/
theorem effectStore_evolves (hok : db.effects.All (EffectRowOk digests)) (call : EffectCall D B V) :
    Table.Evolves (Recorded digests) (fun row row' => row' = rowAfter digests dispatcher db call row)
      db.effects ((effectStore digests dispatcher).step db call).effects := by
  cases call with
  | task call => exact evolves_unchanged fun _ _ => rfl
  | executeSql taskId workerId fencingToken intent callback now => exact executeSql_evolves hok ..
  | prepareExternal taskId workerId fencingToken intent now => exact prepareExternal_evolves hok ..
  | checkExternal taskId workerId fencingToken effectId now => exact evolves_unchanged fun _ _ => rfl
  | acceptExternal taskId workerId fencingToken effectId now => exact acceptExternal_evolves ..
  | claimDue locked workerId limit leaseSeconds now =>
    exact .modifyEach_rows db.effects (dispatching_effectId workerId leaseSeconds now) fun r _ => rfl
  | deliver claim workerId index now => exact deliver_evolves ..
  | retry claim workerId error now => exact retry_evolves ..

omit [DecidableEq D] in
/-- A row is claimed only when it is due and nobody else holds its lock. -/
theorem mem_dueRows {locked : List String} {limit : Int} {now : Time} {effects : EffectTable D}
    {row : EffectRow D} (hm : row ∈ effects.rows)
    (h : row.effectId ∈ (dueRows locked limit now effects).map (·.effectId)) :
    row ∈ dueRows locked limit now effects ∧ due now row = true := by
  obtain ⟨hr, hp⟩ := Table.select_of_key hm h
  exact ⟨hr, (Bool.and_eq_true_iff.mp hp).1⟩

/-- What a recorded intent keeps for good. -/
structure SameIntent (row row' : EffectRow D) : Prop where
  effectId : row'.effectId = row.effectId
  taskId : row'.taskId = row.taskId
  effectKey : row'.effectKey = row.effectKey
  effectKind : row'.effectKind = row.effectKind
  payloadHash : row'.payloadHash = row.payloadHash
  projectionPayload : row'.projectionPayload = row.projectionPayload

omit [DecidableEq D] in
theorem SameIntent.refl (row : EffectRow D) : SameIntent row row := ⟨rfl, rfl, rfl, rfl, rfl, rfl⟩

omit [DecidableEq D] in
theorem SameIntent.trans {row row' row'' : EffectRow D} (h : SameIntent row row') (h' : SameIntent row' row'') :
    SameIntent row row'' := by
  obtain ⟨ha, hb, hc, hd, he, hf⟩ := h
  obtain ⟨ha', hb', hc', hd', he', hf'⟩ := h'
  exact ⟨ha'.trans ha, hb'.trans hb, hc'.trans hc, hd'.trans hd, he'.trans he, hf'.trans hf⟩

omit [DecidableEq D] in
theorem SameIntent.restamped (fencingToken : Nat) (row : EffectRow D) :
    SameIntent row (Effects.restamped fencingToken row) := by
  rw [Effects.restamped]
  split <;> exact ⟨rfl, rfl, rfl, rfl, rfl, rfl⟩

omit [DecidableEq D] in
theorem SameIntent.failed (error : String) (now : Time) (row : EffectRow D) :
    SameIntent row (dispatcher.failed error now row) := by
  rw [KnowledgeProjectionDispatcher.failed]
  dsimp only
  split <;> exact ⟨rfl, rfl, rfl, rfl, rfl, rfl⟩

variable (digests dispatcher) in
theorem rowAfter_sameIntent (db : EffectDb D B) (call : EffectCall D B V) (row : EffectRow D) :
    SameIntent row (rowAfter digests dispatcher db call row) := by
  cases call with
  | task _ | checkExternal => exact .refl row
  | executeSql taskId workerId fencingToken intent callback now =>
    simp only [rowAfter]
    split
    · obtain ⟨ha, hb, hc, hd, he, hf⟩ := SameIntent.restamped fencingToken row
      exact ⟨ha, hb, hc, hd, he, hf⟩
    · exact .refl row
  | prepareExternal taskId workerId fencingToken intent now =>
    simp only [rowAfter]
    split
    · exact SameIntent.restamped fencingToken row
    · exact .refl row
  | acceptExternal | claimDue | deliver =>
    simp only [rowAfter]
    split
    · exact ⟨rfl, rfl, rfl, rfl, rfl, rfl⟩
    · exact .refl row
  | retry claim workerId error now =>
    simp only [rowAfter]
    split
    · exact SameIntent.failed error now row
    · exact .refl row

omit [DecidableEq D] in
theorem Recorded.rowOk {row : EffectRow D} (h : Recorded digests row) : EffectRowOk digests row := by
  cases h <;> exact ⟨rfl, rfl⟩

omit [DecidableEq D] in
theorem SameIntent.rowOk {row row' : EffectRow D} (h : SameIntent row row') (hr : EffectRowOk digests row) :
    EffectRowOk digests row' :=
  ⟨by rw [h.effectId, h.taskId, h.effectKey]; exact hr.identity,
    by rw [h.payloadHash, h.projectionPayload]; exact hr.payload⟩

theorem effectStore_rowOk_step (hok : db.effects.All (EffectRowOk digests)) (call : EffectCall D B V) :
    ((effectStore digests dispatcher).step db call).effects.All (EffectRowOk digests) := by
  refine (effectStore_evolves dispatcher hok call).all (fun _ => Recorded.rowOk) ?_ hok
  rintro row _ hr rfl
  exact (rowAfter_sameIntent digests dispatcher db call row).rowOk hr

theorem effectStore_rowOk (business : B) (calls : List (EffectCall D B V)) :
    ((effectStore digests dispatcher).run (.initial business) calls).effects.All (EffectRowOk digests) :=
  (effectStore digests dispatcher).run_invariant (I := fun db => db.effects.All (EffectRowOk digests))
    (fun _ call hok => effectStore_rowOk_step hok call) (fun _ _ h => by cases h) calls

/-- The task calls of a run, in order. -/
def taskCalls (calls : List (EffectCall D B V)) : List TaskCall :=
  calls.filterMap fun
    | .task call => some call
    | _ => none

theorem effectStore_step_tasks (db : EffectDb D B) (call : EffectCall D B V) :
    ((effectStore digests dispatcher).step db call).tasks = taskQueue.run db.tasks (taskCalls [call]) := by
  cases call with
  | task call => rfl
  | executeSql taskId workerId fencingToken intent callback now => exact executeSql_tasks
  | prepareExternal taskId workerId fencingToken intent now => exact prepareExternal_tasks
  | acceptExternal taskId workerId fencingToken effectId now => exact acceptExternal_tasks effectId
  | _ => rfl

/-- The task table of a run is the task table of its task calls. -/
theorem effectStore_tasks (business : B) (calls : List (EffectCall D B V)) :
    ((effectStore digests dispatcher).run (.initial business) calls).tasks =
      taskQueue.run .empty (taskCalls calls) := by
  have main (db : EffectDb D B) : ((effectStore digests dispatcher).run db calls).tasks =
      taskQueue.run db.tasks (taskCalls calls) := by
    induction calls generalizing db with
    | nil => rfl
    | cons call calls ih =>
      have happ : taskCalls (call :: calls) = taskCalls [call] ++ taskCalls calls := by
        rw [taskCalls, taskCalls, taskCalls, ← List.filterMap_append, List.singleton_append]
      rw [Machine.run_cons, ih, effectStore_step_tasks, happ, Machine.run_append]
  exact main _

variable (digests dispatcher) in
/-- An external dispatch changes the store as its transactions do, which other
callers may interleave. -/
theorem dispatchExternal_run (db : EffectDb D B) (taskId workerId : String) (fencingToken : Nat)
    (intent : EffectIntent) (callback : String → Except String V) (prepareAt checkAt acceptAt : Time) :
    let prepare : EffectCall D B V := .prepareExternal taskId workerId fencingToken intent prepareAt
    let after := (dispatchExternal digests taskId workerId fencingToken intent callback prepareAt checkAt
      acceptAt db).1
    after = (effectStore digests dispatcher).run db [prepare] ∨
      ∃ effectId, after = (effectStore digests dispatcher).run db
        [prepare, .acceptExternal taskId workerId fencingToken effectId acceptAt] := by
  intro prepare after
  have hprep : (effectStore digests dispatcher).run db [prepare] =
      (settle db (prepareExternal digests taskId workerId fencingToken intent prepareAt db)).1 := rfl
  simp only [after, dispatchExternal]
  split
  · rename_i db' e he
    exact .inl (by rw [hprep, he])
  · rename_i db' effectId he
    have hdb : db' = (effectStore digests dispatcher).run db [prepare] := by rw [hprep, he]
    split
    · exact .inl hdb
    · exact .inl hdb
    · split
      · exact .inl hdb
      · refine .inr ⟨effectId, ?_⟩
        rw [show [prepare, .acceptExternal taskId workerId fencingToken effectId acceptAt] =
          [prepare] ++ [.acceptExternal taskId workerId fencingToken effectId acceptAt] from rfl,
          Machine.run_append, ← hdb]
        rfl

variable (digests dispatcher) in
/-- A dispatcher's work on a claim is its delivery, and the retry of one that failed. -/
theorem dispatchClaim_run (db : EffectDb D B) (claim : DispatchClaim) (workerId : String)
    (index : EffectRow D → Except String Unit) (deliverAt retryAt : Time) :
    let deliver : EffectCall D B V := .deliver claim workerId index deliverAt
    let after : EffectDb D B :=
      { db with effects := (dispatcher.dispatchClaim claim workerId index deliverAt retryAt db.effects).1 }
    after = (effectStore digests dispatcher).run db [deliver] ∨
      ∃ error, after = (effectStore digests dispatcher).run db [deliver, .retry claim workerId error retryAt] := by
  intro call after
  have hdeliver : (effectStore digests dispatcher).step db call =
      { db with effects := (settle db.effects (deliver claim workerId index deliverAt db.effects)).1 } := rfl
  simp only [after, KnowledgeProjectionDispatcher.dispatchClaim, Machine.run_cons, Machine.run_nil, hdeliver]
  cases deliver claim workerId index deliverAt db.effects with
  | ok reply => exact .inl rfl
  | error error => exact .inr ⟨error, rfl⟩

end Runs
end StockContent.Effects
