import StockContent.Effects.FencedOnce

/-! External effects: the call between the transactions is let through for the holder of the lease only, and for nobody
once the effect is completed, whatever else runs in between. -/
namespace StockContent.Effects
open Storage Tasks

variable {D B V : Type} [DecidableEq D] {digests : Digests D} {dispatcher : KnowledgeProjectionDispatcher}
variable {db db' : EffectDb D B} {taskId workerId effectId : String} {fencingToken : Nat} {intent : EffectIntent}
variable {now prepareAt checkAt acceptAt : Time} {callback : String → Except String V}

def Completed (effectId : String) (db : EffectDb D B) : Prop :=
  ∃ row, db.effects.get effectId = some row ∧ row.state = .completed

omit [DecidableEq D] in
theorem current_of_ok {row : ContentTaskRow} (h : requireCurrent taskId workerId fencingToken now db.tasks = .ok row) :
    current taskId workerId fencingToken now db.tasks = true := by
  by_contra hstale
  rw [requireCurrent_stale (Bool.eq_false_of_not_eq_true hstale)] at h
  cases h

omit [DecidableEq D] in
theorem checkExternal_open (h : checkExternal taskId workerId fencingToken effectId now db = .ok false) :
    current taskId workerId fencingToken now db.tasks = true ∧ ¬ Completed effectId db := by
  obtain ⟨_, hcurrent, h⟩ := bind_eq_ok.mp h
  refine ⟨current_of_ok hcurrent, ?_⟩
  rintro ⟨row, hg, hs⟩
  rw [hg, Option.any_some, hs] at h
  cases h

omit [DecidableEq D] in
theorem acceptExternal_ok {reply : Unit}
    (h : acceptExternal taskId workerId fencingToken effectId now db = .ok (db', reply)) :
    current taskId workerId fencingToken now db.tasks = true ∧ Completed effectId db' := by
  obtain ⟨_, hcurrent, h⟩ := bind_eq_ok.mp h
  refine ⟨current_of_ok hcurrent, ?_⟩
  cases hg : db.effects.get effectId with
  | none =>
    rw [hg] at h
    cases h
  | some row =>
    rw [hg] at h
    cases h
    exact ⟨completed now row, by rw [Table.get_modify_self, hg, Option.map_some], rfl⟩

variable (dispatcher) in
/-- An intent is prepared under the identity of its task and key. -/
theorem prepareExternal_ok (hok : db.effects.All (EffectRowOk digests))
    (h : prepareExternal digests taskId workerId fencingToken intent now db = .ok (db', effectId)) :
    effectId = effectIdOf digests taskId intent.effectKey ∧
      db' = (effectStore (B := B) (V := V) digests dispatcher).step db
        (.prepareExternal taskId workerId fencingToken intent now) := by
  have hstep : (effectStore (B := B) (V := V) digests dispatcher).step db
      (.prepareExternal taskId workerId fencingToken intent now) = db' := by
    change (settle db (prepareExternal digests taskId workerId fencingToken intent now db)).1 = db'
    rw [h, settle_ok]
  refine ⟨?_, hstep.symm⟩
  have hok' : db'.effects.All (EffectRowOk digests) := hstep ▸ effectStore_rowOk_step hok _
  obtain ⟨_, -, h⟩ := bind_eq_ok.mp h
  obtain ⟨⟨effects, row⟩, hrow, h⟩ := bind_eq_ok.mp h
  cases h
  obtain ⟨hbound, hg, -⟩ := intentRow_ok hok hrow
  obtain ⟨htask, hkey⟩ := boundTo_iff.mp hbound
  rw [(hok'.of_mem (Table.mem_of_get hg)).identity, htask, hkey]

/-- A dispatch that has a value to return was let through, and its call was accepted. -/
theorem dispatchExternal_value {value : V} (h : dispatchExternal digests taskId workerId fencingToken intent callback
    prepareAt checkAt acceptAt db = (db', .ok (some value))) :
    ∃ prepared effectId,
      prepareExternal digests taskId workerId fencingToken intent prepareAt db = .ok (prepared, effectId) ∧
      checkExternal taskId workerId fencingToken effectId checkAt prepared = .ok false ∧
      acceptExternal taskId workerId fencingToken effectId acceptAt prepared = .ok (db', ()) := by
  rw [dispatchExternal] at h
  cases hprepare : prepareExternal digests taskId workerId fencingToken intent prepareAt db with
  | error e =>
    rw [hprepare, settle_error] at h
    cases h
  | ok result =>
    obtain ⟨prepared, effectId⟩ := result
    rw [hprepare, settle_ok] at h
    dsimp only at h
    refine ⟨prepared, effectId, rfl, ?_⟩
    cases hcheck : checkExternal taskId workerId fencingToken effectId checkAt prepared with
    | error e =>
      rw [hcheck] at h
      cases h
    | ok done =>
      rw [hcheck] at h
      cases done with
      | true => cases h
      | false =>
        refine ⟨rfl, ?_⟩
        dsimp only at h
        cases hcall : callback effectId with
        | error e =>
          rw [hcall] at h
          cases h
        | ok called =>
          rw [hcall] at h
          dsimp only at h
          cases haccept : acceptExternal taskId workerId fencingToken effectId acceptAt prepared with
          | error e =>
            rw [haccept, settle_error] at h
            cases h
          | ok accepted =>
            rw [haccept, settle_ok] at h
            cases h
            rfl

section Runs

theorem Completed.run (h : Completed effectId db) (hok : db.effects.All (EffectRowOk digests))
    (more : List (EffectCall D B V)) : Completed effectId ((effectStore digests dispatcher).run db more) := by
  obtain ⟨row, hg, hs⟩ := h
  obtain ⟨row', hg', -, hdone⟩ := run_keeps_intent dispatcher hok more hg
  exact ⟨row', hg', hdone hs⟩

/-- The worker has the lease of the task that was given out last, and it has not ended. -/
def Holds (calls : List (EffectCall D B V)) (taskId workerId : String) (fencingToken : Nat) (now : Time) : Prop :=
  ∃ expiresAt, latestLease (leaseEvents taskId (taskQueue.history .empty (taskCalls calls))) =
    some ⟨workerId, fencingToken, expiresAt⟩ ∧ now < expiresAt

theorem holds_of_current {business : B} {calls : List (EffectCall D B V)} (h : current taskId workerId fencingToken now
    ((effectStore digests dispatcher).run (.initial business) calls).tasks = true) :
    Holds calls taskId workerId fencingToken now := by
  rw [effectStore_tasks, current, Option.any_eq_true] at h
  obtain ⟨row, hg, hl⟩ := h
  exact (taskQueue_leaseHistory (taskCalls calls)).holder hg hl

/-- External effects after the calls of a run. -/
structure ExternalOnce (digests : Digests D) (dispatcher : KnowledgeProjectionDispatcher) (business : B)
    (calls : List (EffectCall D B V)) (db : EffectDb D B) : Prop where
  /-- A call is let through for the holder of the lease, as long as the effect is not completed. -/
  called : ∀ taskId workerId fencingToken effectId now, (effectStore digests dispatcher).outcome db
    (.checkExternal taskId workerId fencingToken effectId now : EffectCall D B V) = .ok (.checked false) →
      Holds calls taskId workerId fencingToken now ∧ ¬ Completed effectId db
  /-- It is accepted from the holder of the lease, and completes the effect. -/
  accepted : ∀ taskId workerId fencingToken effectId now, (effectStore digests dispatcher).outcome db
    (.acceptExternal taskId workerId fencingToken effectId now : EffectCall D B V) = .ok .accepted →
      Holds calls taskId workerId fencingToken now ∧ Completed effectId ((effectStore digests dispatcher).step db
        (.acceptExternal taskId workerId fencingToken effectId now : EffectCall D B V))
  /-- A completed effect stays completed. -/
  completed : ∀ effectId, Completed effectId db → ∀ more : List (EffectCall D B V),
    Completed effectId ((effectStore digests dispatcher).run db more)
  /-- Once a dispatch of a task's key returned a value, no other one calls for a value. -/
  dispatched : ∀ taskId workerId fencingToken intent (callback : String → Except String V) prepareAt checkAt acceptAt
    db' value, dispatchExternal digests taskId workerId fencingToken intent callback prepareAt checkAt acceptAt db =
      (db', .ok (some value)) →
    Holds calls taskId workerId fencingToken checkAt ∧ Holds calls taskId workerId fencingToken acceptAt ∧
    ∀ (more : List (EffectCall D B V)) workerId' fencingToken' (intent' : EffectIntent)
      (callback' : String → Except String V) prepareAt' checkAt' acceptAt' value',
      intent'.effectKey = intent.effectKey →
      (dispatchExternal digests taskId workerId' fencingToken' intent' callback' prepareAt' checkAt' acceptAt'
        ((effectStore digests dispatcher).run db' more)).2 ≠ .ok (some value')

end Runs

end StockContent.Effects
