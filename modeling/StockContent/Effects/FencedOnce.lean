import StockContent.Effects.EffectRuns

/-! Exactly-once effects: a key is bound once, completed once, and its SQL callback
commits once, whoever retries it after a takeover. -/
namespace StockContent.Effects
open Storage Tasks

variable {D B V : Type} [DecidableEq D] {digests : Digests D} {dispatcher : KnowledgeProjectionDispatcher}
variable {db : EffectDb D B}

/-- A completed row is not due, not owned by a dispatcher and not executed again. -/
theorem rowAfter_completed (call : EffectCall D B V) {row : EffectRow D} (hm : row ∈ db.effects.rows)
    (hs : row.state = .completed) : (rowAfter digests dispatcher db call row).state = .completed := by
  cases call with
  | task | checkExternal => exact hs
  | executeSql | acceptExternal =>
    simp only [rowAfter]
    split
    · rfl
    · exact hs
  | prepareExternal =>
    simp only [rowAfter]
    split <;> simp [hs]
  | claimDue locked workerId limit leaseSeconds now =>
    simp only [rowAfter]
    rw [if_neg]
    · exact hs
    · intro h
      have hd := (mem_dueRows hm h).2
      simp [due, hs] at hd
  | deliver claim workerId index now =>
    simp [rowAfter, ownsDispatch, hs]
  | retry claim workerId error now =>
    simp [rowAfter, ownsDispatch, hs]

variable (dispatcher) in
/-- Through any run a row keeps its intent, and stays completed once it is. -/
theorem run_keeps_intent (hok : db.effects.All (EffectRowOk digests)) (more : List (EffectCall D B V))
    {k : String} {row : EffectRow D} (hg : db.effects.get k = some row) :
    ∃ row', ((effectStore digests dispatcher).run db more).effects.get k = some row' ∧
      SameIntent row row' ∧ (row.state = .completed → row'.state = .completed) := by
  refine (effectStore digests dispatcher).run_related (I := fun db => db.effects.All (EffectRowOk digests))
    (T := fun db db' => ∀ k row, db.effects.get k = some row → ∃ row', db'.effects.get k = some row' ∧
      SameIntent row row' ∧ (row.state = .completed → row'.state = .completed))
    (fun _ _ row h => ⟨row, h, .refl row, id⟩) ?_ (fun _ call hok => effectStore_rowOk_step hok call) ?_ hok
    more k row hg
  · intro s t u hst htu k row h
    obtain ⟨row', h', hsame, hdone⟩ := hst k row h
    obtain ⟨row'', h'', hsame', hdone'⟩ := htu k row' h'
    exact ⟨row'', h'', hsame.trans hsame', fun hs => hdone' (hdone hs)⟩
  · intro s call hok k row h
    obtain ⟨row', h', rfl⟩ := (effectStore_evolves dispatcher hok call).old k row h
    exact ⟨_, h', rowAfter_sameIntent digests dispatcher s call row,
      fun hs => rowAfter_completed call (Table.mem_of_get h) hs⟩

section Intent
variable {taskId workerId : String} {fencingToken : Nat} {intent : EffectIntent} {now : Time}

/-- A bound intent is stored under its identity and agrees with whatever was bound before. -/
theorem intentRow_ok {effects effects' : EffectTable D} {row : EffectRow D}
    (hok : effects.All (EffectRowOk digests))
    (h : intentRow digests taskId fencingToken intent now effects = .ok (effects', row)) :
    boundTo taskId intent.effectKey row = true ∧ effects'.get row.effectId = some row ∧
      ∀ r ∈ effects.rows, boundTo taskId intent.effectKey r = true → row.state = r.state := by
  obtain ⟨r, hm, hb, he⟩ | ⟨hfree, he | ⟨u, hi, he⟩⟩ :=
    intentRow_cases digests effects taskId fencingToken intent now
  · rw [he] at h
    split at h
    · cases h
    · cases h
      have hsame := SameIntent.restamped fencingToken r
      refine ⟨?_, ?_, fun r' hm' hb' => ?_⟩
      · rw [boundTo_iff, hsame.taskId, hsame.effectKey]
        exact boundTo_iff.mp hb
      · rw [restamped_effectId, Table.get_modify_self, Table.get_of_mem hm, Option.map_some]
      · rw [bound_unique hok hm' hm hb' hb, restamped_state]
  · rw [he] at h
    cases h
  · rw [he] at h
    cases h
    refine ⟨by simp [boundTo, intended], by rw [Table.get_insert hi, if_pos rfl], fun r hm hb => ?_⟩
    rw [hfree r hm] at hb
    cases hb

/-- A different kind or payload under a bound key is refused before anything is written. -/
theorem intentRow_refused {effects : EffectTable D} (hok : effects.All (EffectRowOk digests)) {row : EffectRow D}
    (hm : row ∈ effects.rows) (hk : intent.effectKey = row.effectKey) (hr : rebinds digests intent row = true) :
    intentRow digests row.taskId fencingToken intent now effects =
      .error (.valueError "fenced effect key already binds different immutable payload") := by
  have hb : boundTo row.taskId intent.effectKey row = true := boundTo_iff.mpr ⟨rfl, hk.symm⟩
  obtain ⟨r, hm', hb', he⟩ | ⟨hfree, _⟩ :=
    intentRow_cases digests effects row.taskId fencingToken intent now
  · rw [he, bound_unique hok hm' hm hb' hb, if_pos hr]
  · rw [hfree row hm] at hb
    cases hb

variable {callback : B → Except String (B × V)}

/-- A committed callback had the lease, found the key open and left it completed. -/
theorem executeSql_ran {db' : EffectDb D B} {value : V} (hok : db.effects.All (EffectRowOk digests))
    (h : executeSql digests taskId workerId fencingToken intent callback now db = .ok (db', .ran value)) :
    current taskId workerId fencingToken now db.tasks = true ∧
      (∀ r ∈ db.effects.rows, boundTo taskId intent.effectKey r = true → r.state ≠ .completed) ∧
      ∃ r ∈ db'.effects.rows, boundTo taskId intent.effectKey r = true ∧ r.state = .completed := by
  cases hc : current taskId workerId fencingToken now db.tasks with
  | false =>
    rw [executeSql_stale hc] at h
    cases h
  | true =>
    refine ⟨rfl, ?_⟩
    cases he : intentRow digests taskId fencingToken intent now db.effects with
    | error e =>
      rw [executeSql_refused hc he] at h
      cases h
    | ok p =>
      obtain ⟨effects, row⟩ := p
      obtain ⟨hb, hg, hstate⟩ := intentRow_ok hok he
      rw [executeSql_bound hc he] at h
      split at h
      · cases h
      · rename_i hs
        split at h
        · cases h
        · cases h
          refine ⟨fun r hm hbr => hstate r hm hbr ▸ hs, completed now row, ?_, hb, rfl⟩
          have hg' : (effects.modify row.effectId (completed now) (completed_effectId now)).get row.effectId =
              some (completed now row) := by
            rw [Table.get_modify_self, hg, Option.map_some]
          exact Table.mem_of_get hg'

end Intent

/-- A committed SQL callback of one task and key. -/
def ranSql (taskId effectKey : String) : EffectCall D B V × Except EffectError (EffectReply V) → Bool
  | (.executeSql t _ _ intent _ _, .ok (.executed (.ran _))) => t == taskId && intent.effectKey == effectKey
  | _ => false

private theorem executeSql_committed {taskId workerId : String} {fencingToken : Nat} {intent : EffectIntent}
    {callback : B → Except String (B × V)} {now : Time} {result : Executed V}
    (h : (effectStore digests dispatcher).outcome db
      (.executeSql taskId workerId fencingToken intent callback now) = .ok (.executed result)) :
    executeSql digests taskId workerId fencingToken intent callback now db =
      .ok ((effectStore digests dispatcher).step db
        (.executeSql taskId workerId fencingToken intent callback now), result) := by
  simp only [effectStore, Machine.outcome, Machine.step, execEffect] at h ⊢
  cases hx : executeSql digests taskId workerId fencingToken intent callback now db with
  | error e => simp [hx, Except.map] at h
  | ok p =>
    obtain ⟨db', result'⟩ := p
    simp only [hx, settle_ok, Prod.map, Except.map] at h ⊢
    cases h
    rfl

private theorem ranSql_cases {taskId effectKey : String} {call : EffectCall D B V}
    (h : ranSql taskId effectKey (call, (effectStore digests dispatcher).outcome db call) = true) :
    ∃ workerId fencingToken intent callback now value, intent.effectKey = effectKey ∧
      call = .executeSql taskId workerId fencingToken intent callback now ∧
      executeSql digests taskId workerId fencingToken intent callback now db =
        .ok (((effectStore digests dispatcher).step db call), .ran value) := by
  unfold ranSql at h
  split at h
  · rename_i t workerId fencingToken intent callback now value hcall
    obtain ⟨rfl, ho⟩ := Prod.mk.inj hcall
    obtain ⟨rfl, hk⟩ := Bool.and_eq_true_iff.mp h |>.imp eq_of_beq eq_of_beq
    exact ⟨workerId, fencingToken, intent, callback, now, value, hk, rfl, executeSql_committed ho⟩
  · cases h

/-- The SQL callback of one task and key commits at most once in a run. -/
theorem executeSql_once (business : B) (calls : List (EffectCall D B V)) (taskId effectKey : String) :
    ((effectStore digests dispatcher).history (.initial business) calls).countP (ranSql taskId effectKey) ≤ 1 := by
  refine (effectStore digests dispatcher).history_countP_le_one
    (I := fun db => db.effects.All (EffectRowOk digests))
    (D := fun db => ∃ row ∈ db.effects.rows, boundTo taskId effectKey row = true ∧ row.state = .completed)
    (fun _ call hok => effectStore_rowOk_step hok call) ?_ ?_ ?_ (fun _ _ h => by cases h) calls
  · rintro db call hok ⟨row, hm, hb, hs⟩
    obtain ⟨row', hg, hsame, hdone⟩ :=
      run_keeps_intent dispatcher hok [call] (Table.get_of_mem hm)
    refine ⟨row', Table.mem_of_get hg, ?_, hdone hs⟩
    rw [boundTo_iff, hsame.taskId, hsame.effectKey]
    exact boundTo_iff.mp hb
  · intro db call hok h
    obtain ⟨_, _, _, _, _, _, rfl, rfl, hx⟩ := ranSql_cases h
    exact (executeSql_ran hok hx).2.2
  · rintro db call hok ⟨row, hm, hb, hs⟩
    by_contra h
    obtain ⟨_, _, _, _, _, _, rfl, rfl, hx⟩ := ranSql_cases (by simpa using h)
    exact (executeSql_ran hok hx).2.1 row hm hb hs

/-- Every entry point refuses other data under a recorded key and leaves the store alone. -/
private theorem rebind_refused (hok : db.effects.All (EffectRowOk digests)) {row : EffectRow D}
    (hm : row ∈ db.effects.rows) {intent : EffectIntent} (hk : intent.effectKey = row.effectKey)
    (hr : rebinds digests intent row = true) (workerId : String) (fencingToken : Nat) :
    (∀ (callback : B → Except String (B × V)) now, ∃ e,
      executeSql digests row.taskId workerId fencingToken intent callback now db = .error e) ∧
    (∀ now, ∃ e, prepareExternal digests row.taskId workerId fencingToken intent now db = .error e) := by
  refine ⟨fun callback now => ?_, fun now => ?_⟩
  · cases hc : current row.taskId workerId fencingToken now db.tasks with
    | false => exact ⟨_, executeSql_stale hc⟩
    | true => exact ⟨_, executeSql_refused hc (intentRow_refused hok hm hk hr)⟩
  · cases hc : current row.taskId workerId fencingToken now db.tasks with
    | false => exact ⟨_, prepareExternal_stale hc⟩
    | true => exact ⟨_, prepareExternal_refused hc (intentRow_refused hok hm hk hr)⟩

/-- Fenced effects over every run of task calls, unit-of-work calls and dispatchers.
A callback commits at most once per task and key, and only for the holder of the
task's latest lease before it ends; a recorded intent keeps its kind and payload and a
call with other ones changes nothing; a completed effect stays completed. -/
theorem fenced_effects_once (digests : Digests D) (dispatcher : KnowledgeProjectionDispatcher)
    (hashing : Function.Injective digests.document) (business : B) (calls : List (EffectCall D B V)) :
    let store := effectStore (B := B) (V := V) digests dispatcher
    let db := store.run (.initial business) calls
    (∀ taskId effectKey,
      (store.history (.initial business) calls).countP (ranSql taskId effectKey) ≤ 1) ∧
    (∀ taskId workerId fencingToken intent callback now value,
      store.outcome db (.executeSql taskId workerId fencingToken intent callback now) =
        .ok (.executed (.ran value)) →
      ∃ e, latestLease (leaseEvents taskId (taskQueue.history .empty (taskCalls calls))) =
        some ⟨workerId, fencingToken, e⟩ ∧ now < e) ∧
    (∀ row ∈ db.effects.rows, ∀ more, ∃ row' ∈ (store.run db more).effects.rows,
      SameIntent row row' ∧ (row.state = .completed → row'.state = .completed)) ∧
    (∀ row ∈ db.effects.rows, ∀ intent : EffectIntent, intent.effectKey = row.effectKey →
      intent.effectKind ≠ row.effectKind ∨
        (Json.obj intent.payload).canonical ≠ (Json.obj row.projectionPayload).canonical →
      ∀ workerId fencingToken,
        (∀ callback now, ∃ e, store.exec db
          (.executeSql row.taskId workerId fencingToken intent callback now) = (db, .error e)) ∧
        (∀ (callback : String → Except String V) prepareAt checkAt acceptAt, ∃ e,
          dispatchExternal digests row.taskId workerId fencingToken intent callback prepareAt checkAt
            acceptAt db = (db, .error e))) := by
  intro store db
  have hok : db.effects.All (EffectRowOk digests) := effectStore_rowOk business calls
  refine ⟨executeSql_once business calls, fun taskId workerId fencingToken intent callback now value h => ?_,
    fun row hm more => ?_, fun row hm intent hk hne workerId fencingToken => ?_⟩
  · have hc := (executeSql_ran hok (executeSql_committed h)).1
    simp only [current, Option.any_eq_true] at hc
    obtain ⟨row, hg, hl⟩ := hc
    rw [show db.tasks = taskQueue.run .empty (taskCalls calls) from effectStore_tasks business calls] at hg
    exact (taskQueue_leaseHistory (taskCalls calls)).holder hg hl
  · obtain ⟨row', hg, hsame, hdone⟩ :=
      run_keeps_intent dispatcher hok more (Table.get_of_mem hm)
    exact ⟨row', Table.mem_of_get hg, hsame, hdone⟩
  · have hr : rebinds digests intent row = true := by
      have hhash : intent.payloadHash digests = row.payloadHash ↔
          (Json.obj intent.payload).canonical = (Json.obj row.projectionPayload).canonical := by
        rw [(hok.of_mem hm).payload, EffectIntent.payloadHash, hashing.eq_iff]
      rcases hne with hkind | hpay
      · simp [rebinds, Ne.symm hkind]
      · have := mt hhash.mp hpay
        simp [rebinds, Ne.symm this]
    obtain ⟨hsql, hprep⟩ := rebind_refused (V := V) hok hm hk hr workerId fencingToken
    refine ⟨fun callback now => ?_, fun callback prepareAt checkAt acceptAt => ?_⟩
    · obtain ⟨e, he⟩ := hsql callback now
      exact ⟨e, by simp [store, effectStore, execEffect, he, Except.map]⟩
    · obtain ⟨e, he⟩ := hprep prepareAt
      exact ⟨e, by simp [dispatchExternal, he]⟩

/-- A worker that repeats its own write: the second call finds the effect completed. -/
def repeatedWrite : List (EffectCall Json Nat Unit) :=
  let intent : EffectIntent := ⟨"persist:video-1", "PERSIST_PROJECTION", [("video_id", .str "video-1")]⟩
  let write := EffectCall.executeSql "task-1" "worker-a" 1 intent (fun n => .ok (n + 1, ())) (seconds 20)
  [.task (.enqueueIngestion "task-1" "bilibili" "BV1fence" [] none none 0),
    .task (.claimPending [] "worker-a" "video_pipeline" 60 (seconds 10)), write, write]

theorem fenced_effects_once_repeated :
    ((effectStore ⟨id, id⟩ (.create 10 5)).history (.initial 0) repeatedWrite).countP
      (ranSql "task-1" "persist:video-1") = 1 :=
  le_antisymm ((fenced_effects_once ⟨id, id⟩ (.create 10 5) Function.injective_id 0 repeatedWrite).1 _ _)
    (by decide)

end StockContent.Effects
