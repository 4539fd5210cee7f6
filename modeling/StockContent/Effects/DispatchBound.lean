import StockContent.Effects.EffectRuns

/-! How often an intent is delivered. The counter grows with every claim and is tested
when a failed attempt is given back, so an attempt that is never given back escapes it. -/
namespace StockContent.Effects
open Storage Tasks

/-- The calls a projection intent goes through: recorded under its task, then dispatched. -/
inductive ProjectionCall (D : Type) where
  | task (call : TaskCall)
  | prepareExternal (taskId workerId : String) (fencingToken : Nat) (intent : EffectIntent) (now : Time)
  | claimDue (locked : List String) (workerId : String) (limit leaseSeconds : Int) (now : Time)
  | deliver (claim : DispatchClaim) (workerId : String) (index : EffectRow D → Except String Unit) (now : Time)
  | retry (claim : DispatchClaim) (workerId error : String) (now : Time)

variable {D B : Type}

def ProjectionCall.toEffectCall : ProjectionCall D → EffectCall D B Unit
  | .task call => .task call
  | .prepareExternal taskId workerId fencingToken intent now =>
    .prepareExternal taskId workerId fencingToken intent now
  | .claimDue locked workerId limit leaseSeconds now => .claimDue locked workerId limit leaseSeconds now
  | .deliver claim workerId index now => .deliver claim workerId index now
  | .retry claim workerId error now => .retry claim workerId error now

variable (digests : Digests D) (dispatcher : KnowledgeProjectionDispatcher) [DecidableEq D]

def projectionStore : Machine (EffectDb D B) (ProjectionCall D) (Except EffectError (EffectReply Unit)) :=
  ⟨fun db call => (effectStore digests dispatcher).exec db call.toEffectCall⟩

/-- Delivery stays within its budget: no counter passes the maximum, no row is claimed
that has no attempt left, and the last attempt that fails is dead-lettered. -/
structure DeliveryBounded (db : EffectDb D B) (call : ProjectionCall D) : Prop where
  bounded : ((projectionStore digests dispatcher).step db call).effects.All
    (·.attemptCount ≤ dispatcher.maxAttempts)
  unclaimed : ∀ claims, (projectionStore digests dispatcher).outcome db call = .ok (.claims claims) →
    ∀ claim ∈ claims, ∀ row, db.effects.get claim.effectId = some row → row.attemptCount < dispatcher.maxAttempts
  deadLettered : ∀ claim workerId error now, call = .retry claim workerId error now →
    ∀ row, db.effects.get claim.effectId = some row → ownsDispatch claim workerId now row = true →
      dispatcher.maxAttempts ≤ row.attemptCount →
      ∃ row', ((projectionStore digests dispatcher).step db call).effects.get claim.effectId = some row' ∧
        row'.state = .deadLetter

/-- No claim picks up an expired dispatch whose worker had the last attempt. -/
def LastAttemptReturned (db : EffectDb D B) : ProjectionCall D → Prop
  | .claimDue locked _ limit _ now => ∀ row ∈ dueRows locked limit now db.effects,
    row.state = .dispatching → row.attemptCount < dispatcher.maxAttempts
  | _ => True

/-- Rows waiting for delivery have an attempt left, whatever became of the others. -/
structure ProjectionOk (row : EffectRow D) : Prop extends EffectRowOk digests row where
  waiting : row.state = .pending → row.attemptCount < dispatcher.maxAttempts
  bounded : row.attemptCount ≤ dispatcher.maxAttempts

variable {digests dispatcher}

omit [DecidableEq D] in
/-- A row that is picked up is waiting or an expired dispatch, so it has an attempt left. -/
private theorem picked_attempt_left {db : EffectDb D B} {locked : List String} {limit : Int} {now : Time}
    {row : EffectRow D} (hm : row ∈ db.effects.rows) (h : ProjectionOk digests dispatcher row)
    (hc : ∀ row ∈ dueRows locked limit now db.effects,
      row.state = .dispatching → row.attemptCount < dispatcher.maxAttempts)
    (hid : row.effectId ∈ (dueRows locked limit now db.effects).map (·.effectId)) :
    row.attemptCount < dispatcher.maxAttempts := by
  obtain ⟨hr, hd⟩ := mem_dueRows hm hid
  simp only [due, Bool.and_eq_true, Bool.or_eq_true, beq_iff_eq] at hd
  rcases hd with ⟨_, hp | hx⟩
  · exact h.waiting hp.1
  · exact hc row hr hx.1

theorem rowAfter_projectionOk {db : EffectDb D B} {call : ProjectionCall D} {row : EffectRow D}
    (hm : row ∈ db.effects.rows) (h : ProjectionOk digests dispatcher row)
    (hc : LastAttemptReturned dispatcher db call) :
    ProjectionOk digests dispatcher (rowAfter digests dispatcher db (call.toEffectCall (B := B)) row) := by
  have hrow := (rowAfter_sameIntent digests dispatcher db (call.toEffectCall (B := B)) row).rowOk h.toEffectRowOk
  suffices hcount : let row' := rowAfter digests dispatcher db (call.toEffectCall (B := B)) row
      (row'.state = .pending → row'.attemptCount < dispatcher.maxAttempts) ∧
        row'.attemptCount ≤ dispatcher.maxAttempts from ⟨hrow, hcount.1, hcount.2⟩
  cases call with
  | task => exact ⟨h.waiting, h.bounded⟩
  | prepareExternal =>
    simp only [ProjectionCall.toEffectCall, rowAfter]
    split
    · simpa using ⟨h.waiting, h.bounded⟩
    · exact ⟨h.waiting, h.bounded⟩
  | claimDue locked workerId limit leaseSeconds now =>
    simp only [ProjectionCall.toEffectCall, rowAfter]
    split
    · rename_i hid
      exact ⟨by simp [dispatching], picked_attempt_left hm h hc hid⟩
    · exact ⟨h.waiting, h.bounded⟩
  | deliver =>
    simp only [ProjectionCall.toEffectCall, rowAfter]
    split
    · exact ⟨by simp [delivered], h.bounded⟩
    · exact ⟨h.waiting, h.bounded⟩
  | retry =>
    simp only [ProjectionCall.toEffectCall, rowAfter]
    split
    · rw [KnowledgeProjectionDispatcher.failed]
      dsimp only
      split
      · exact ⟨by simp, h.bounded⟩
      · rename_i hlt
        exact ⟨fun _ => not_le.mp hlt, h.bounded⟩
    · exact ⟨h.waiting, h.bounded⟩

/-- Intents enter with no attempt made. -/
private theorem projectionStore_fresh {db : EffectDb D B} (hok : db.effects.All (EffectRowOk digests))
    (call : ProjectionCall D) {k : String} {row' : EffectRow D} (hn : db.effects.get k = none)
    (hg : ((projectionStore digests dispatcher).step db call).effects.get k = some row') :
    ProjectionOk digests dispatcher row' := by
  have hev := effectStore_evolves dispatcher hok (call.toEffectCall (B := B))
  have hpos := dispatcher.maxAttempts_pos
  have hrec := hev.new k row' hn hg
  refine ⟨hrec.rowOk, ?_, ?_⟩ <;> cases hrec <;> simp [intended, completed] <;> omega

theorem projectionStore_ok {db : EffectDb D B} (hok : db.effects.All (ProjectionOk digests dispatcher))
    {call : ProjectionCall D} (hc : LastAttemptReturned dispatcher db call) :
    ((projectionStore digests dispatcher).step db call).effects.All (ProjectionOk digests dispatcher) := by
  have hrows : db.effects.All (EffectRowOk digests) := fun k row hg => (hok k row hg).toEffectRowOk
  have hev := effectStore_evolves dispatcher hrows (call.toEffectCall (B := B))
  intro k row' hg'
  cases hg : db.effects.get k with
  | none => exact projectionStore_fresh hrows call hg hg'
  | some row =>
    obtain ⟨_, hs, rfl⟩ := hev.old k row hg
    rw [show (projectionStore digests dispatcher).step db call =
      (effectStore digests dispatcher).step db call.toEffectCall from rfl, hs] at hg'
    cases hg'
    exact rowAfter_projectionOk (Table.mem_of_get hg) (hok k row hg) hc

theorem deliveryBounded_iff {db : EffectDb D B} (hok : db.effects.All (ProjectionOk digests dispatcher))
    (call : ProjectionCall D) :
    DeliveryBounded digests dispatcher db call ↔ LastAttemptReturned dispatcher db call := by
  constructor
  · intro h
    cases call with
    | claimDue locked workerId limit leaseSeconds now =>
      intro row hr _
      obtain ⟨hm, _⟩ := Table.mem_select hr
      refine h.unclaimed _ rfl ⟨row.effectId, some (row.fencingToken + 1)⟩ ?_ row (Table.get_of_mem hm)
      exact List.mem_map_of_mem hr
    | _ => trivial
  · intro hc
    refine ⟨fun k row' hg => (projectionStore_ok hok hc k row' hg).bounded, fun claims ho claim hm row hg => ?_,
      fun claim workerId error now he row hg hown hmax => ?_⟩
    · simp only [projectionStore, effectStore, Machine.outcome] at ho
      cases call with
      | task => cases ho
      | prepareExternal taskId workerId fencingToken intent now =>
        cases hx : prepareExternal digests taskId workerId fencingToken intent now db <;>
          simp [ProjectionCall.toEffectCall, execEffect, hx, Except.map] at ho
      | claimDue locked workerId limit leaseSeconds now =>
        cases ho
        obtain ⟨picked, hr, rfl⟩ := List.mem_map.mp hm
        have hself := Table.get_of_mem (Table.mem_select hr).1
        rw [hg] at hself
        cases hself
        have hid : row.effectId ∈ (dueRows locked limit now db.effects).map (·.effectId) :=
          List.mem_map_of_mem hr
        exact picked_attempt_left (Table.mem_of_get hg) (hok _ _ hg) hc hid
      | deliver claim workerId index now =>
        cases hx : deliver claim workerId index now db.effects <;>
          simp [ProjectionCall.toEffectCall, execEffect, hx, Except.map, Except.mapError] at ho
      | retry => cases ho
    · subst he
      have hev := effectStore_evolves dispatcher (fun k row hg => (hok k row hg).toEffectRowOk)
        ((ProjectionCall.retry claim workerId error now).toEffectCall (B := B))
      obtain ⟨_, hg', rfl⟩ := hev.old _ row hg
      refine ⟨_, hg', ?_⟩
      simp only [ProjectionCall.toEffectCall, rowAfter]
      rw [if_pos ⟨Table.get_key hg, hown⟩]
      simp [KnowledgeProjectionDispatcher.failed, hmax]

/-- Along every run, delivery stays within its budget exactly when no claim picks up an
expired dispatch that had used its last attempt. -/
theorem delivery_bounded (digests : Digests D) (dispatcher : KnowledgeProjectionDispatcher) (business : B)
    (calls : List (ProjectionCall D)) :
    (projectionStore digests dispatcher).Along (DeliveryBounded digests dispatcher) (.initial business) calls ↔
      (projectionStore digests dispatcher).Along (LastAttemptReturned dispatcher) (.initial business) calls :=
  (projectionStore digests dispatcher).along_congr
    (I := fun db => db.effects.All (ProjectionOk digests dispatcher))
    (fun _ call hok hb => projectionStore_ok hok ((deliveryBounded_iff hok call).mp hb))
    (fun _ call hok => deliveryBounded_iff hok call) (fun _ _ h => by cases h) calls

/-- One attempt is allowed; its worker crashes and the lease runs out. -/
def crashedDispatch : List (ProjectionCall Json) :=
  let intent : EffectIntent := ⟨"index:knowledge-1", knowledgeIndex, [("snapshot_id", .str "snapshot-1")]⟩
  [.task (.enqueueIngestion "task-1" "bilibili" "BV1fence" [] none none 0),
    .task (.claimPending [] "worker-a" "video_pipeline" 60 (seconds 10)),
    .prepareExternal "task-1" "worker-a" 1 intent (seconds 20),
    .claimDue [] "dispatcher-1" 20 30 (seconds 30),
    .claimDue [] "dispatcher-2" 20 30 (seconds 100)]

/-- After the crash the used-up intent is claimed again, for a second attempt. -/
theorem crashed_dispatch_claimed_again :
    ¬ (projectionStore ⟨id, id⟩ (.create 1 5)).Along (DeliveryBounded ⟨id, id⟩ (.create 1 5)) (.initial ())
      crashedDispatch := by
  intro h
  have hstep := h.2.2.2.2.1.bounded
  have hcount : (((projectionStore ⟨id, id⟩ (.create 1 5)).run (.initial ()) crashedDispatch).effects.get
      "eff_task-1|index:knowledge-1").map (·.attemptCount) = some 2 := by decide
  obtain ⟨row, hg, hc⟩ := Option.map_eq_some_iff.mp hcount
  have hle : row.attemptCount ≤ 1 := hstep _ row hg
  omega

end StockContent.Effects
