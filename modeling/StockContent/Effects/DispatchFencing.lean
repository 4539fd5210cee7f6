import StockContent.Effects.EffectRuns

/-! One column, two meanings: the unit of work stamps effect rows with task tokens,
the dispatcher counts claims in the same column. When the two do not collide. -/
namespace StockContent.Effects
open Storage Tasks

variable {D B V : Type}

def EffectCall.now? : EffectCall D B V → Option Time
  | .task _ => none
  | .executeSql _ _ _ _ _ now | .prepareExternal _ _ _ _ now | .checkExternal _ _ _ _ now
  | .acceptExternal _ _ _ _ now | .claimDue _ _ _ _ now | .deliver _ _ _ now | .retry _ _ _ now => some now

/-- Calls that may end the claim of `workerId` on an effect: a newer claim, or its own
completion or retry. -/
def EffectCall.dispatches (effectId workerId : String) : EffectCall D B V → Prop
  | .claimDue .. => True
  | .deliver claim w _ _ | .retry claim w _ _ => claim.effectId = effectId ∧ w = workerId
  | _ => False

def claimOn (row : EffectRow D) : DispatchClaim := ⟨row.effectId, some row.fencingToken⟩

/-- What a call may do to a row: the token does not fall, and a claim that is live at
the time of the call survives unless the call is a dispatcher's own. -/
structure RowFenced (call : EffectCall D B V) (row row' : EffectRow D) : Prop where
  token : row.fencingToken ≤ row'.fencingToken
  claim : ∀ workerId now, call.now? = some now → ownsDispatch (claimOn row) workerId now row = true →
    ¬ call.dispatches row.effectId workerId → ownsDispatch (claimOn row) workerId now row' = true

theorem RowFenced.refl (call : EffectCall D B V) (row : EffectRow D) : RowFenced call row row :=
  ⟨le_rfl, fun _ _ _ h _ => h⟩

def TokenFenced (store : Machine (EffectDb D B) (EffectCall D B V) (Except EffectError (EffectReply V)))
    (db : EffectDb D B) (call : EffectCall D B V) : Prop :=
  ∀ k row row', db.effects.get k = some row → (store.step db call).effects.get k = some row' →
    RowFenced call row row'

/-- Some dispatcher holds the row at this time. -/
def live (now : Time) (row : EffectRow D) : Bool :=
  row.state == .dispatching && row.dispatchOwner.isSome && row.dispatchExpiresAt.any (now < ·)

theorem live_iff {now : Time} {row : EffectRow D} :
    live now row = true ↔ ∃ workerId, ownsDispatch (claimOn row) workerId now row = true := by
  simp [live, ownsDispatch, claimOn, Option.isSome_iff_exists, and_assoc]

/-- A row that ends up completed lost whatever claim was live on it. -/
private theorem rowFenced_completed {call : EffectCall D B V} {row row' : EffectRow D} {now : Time}
    (hn : call.now? = some now) (hd : ∀ workerId, ¬ call.dispatches row.effectId workerId)
    (hs : row'.state = .completed) :
    RowFenced call row row' ↔ row.fencingToken ≤ row'.fencingToken ∧ ¬ live now row := by
  constructor
  · rintro ⟨htoken, hclaim⟩
    refine ⟨htoken, fun hl => ?_⟩
    obtain ⟨workerId, ho⟩ := live_iff.mp hl
    have := hclaim workerId now hn ho (hd workerId)
    simp [ownsDispatch, hs] at this
  · rintro ⟨htoken, hl⟩
    refine ⟨htoken, fun workerId now' hn' ho _ => ?_⟩
    rw [hn] at hn'
    cases hn'
    exact absurd (live_iff.mpr ⟨workerId, ho⟩) hl

private theorem rowFenced_stamped {call : EffectCall D B V} {row : EffectRow D} {now : Time}
    (hn : call.now? = some now) (hd : ∀ workerId, ¬ call.dispatches row.effectId workerId) (fencingToken : Nat) :
    RowFenced call row { row with fencingToken } ↔
      row.fencingToken ≤ fencingToken ∧ (live now row → fencingToken = row.fencingToken) := by
  constructor
  · rintro ⟨htoken, hclaim⟩
    refine ⟨htoken, fun hl => ?_⟩
    obtain ⟨workerId, ho⟩ := live_iff.mp hl
    have hkept := hclaim workerId now hn ho (hd workerId)
    simp only [ownsDispatch, claimOn, Option.all_some, Bool.and_eq_true, decide_eq_true_eq] at hkept
    exact hkept.2
  · rintro ⟨htoken, hl⟩
    refine ⟨htoken, fun workerId now' hn' ho _ => ?_⟩
    rw [hn] at hn'
    cases hn'
    have he := hl (live_iff.mpr ⟨workerId, ho⟩)
    subst he
    exact ho

private theorem owner_unique {claim claim' : DispatchClaim} {workerId workerId' : String} {now now' : Time}
    {row : EffectRow D} (h : ownsDispatch claim workerId now row = true)
    (h' : ownsDispatch claim' workerId' now' row = true) : workerId = workerId' := by
  simp only [ownsDispatch, Bool.and_eq_true, beq_iff_eq] at h h'
  have he := h.1.1.2
  rw [h'.1.1.2] at he
  exact (Option.some.inj he).symm

variable [DecidableEq D] (digests : Digests D)

/-- The condition on one row: whoever reaches an open row brings a token that is not
behind, and does not touch a row under a live claim except to stamp the same token. -/
def YieldsToDispatch (db : EffectDb D B) (row : EffectRow D) : EffectCall D B V → Prop
  | .executeSql taskId workerId fencingToken intent callback now =>
    current taskId workerId fencingToken now db.tasks ∧ binds digests taskId intent row ∧
        row.state ≠ .completed ∧ (callback db.business).isOk →
      row.fencingToken ≤ fencingToken ∧ ¬ live now row
  | .prepareExternal taskId workerId fencingToken intent now =>
    current taskId workerId fencingToken now db.tasks ∧ binds digests taskId intent row ∧
        row.state ≠ .completed →
      row.fencingToken ≤ fencingToken ∧ (live now row → fencingToken = row.fencingToken)
  | .acceptExternal taskId workerId fencingToken effectId now =>
    current taskId workerId fencingToken now db.tasks ∧ row.effectId = effectId → ¬ live now row
  | _ => True

variable {digests} {dispatcher : KnowledgeProjectionDispatcher}

/-- A row is fenced against a call exactly when the call yields to the dispatcher. -/
theorem rowFenced_iff (db : EffectDb D B) (call : EffectCall D B V) (row : EffectRow D) :
    RowFenced call row (rowAfter digests dispatcher db call row) ↔ YieldsToDispatch digests db row call := by
  cases call with
  | task | checkExternal => exact iff_of_true (.refl _ row) trivial
  | executeSql taskId workerId fencingToken intent callback now =>
    simp only [rowAfter, YieldsToDispatch]
    split
    · rename_i hc
      refine (rowFenced_completed rfl (by simp [EffectCall.dispatches]) rfl).trans ?_
      simp [hc, completed, restamped]
    · rename_i hc
      exact iff_of_true (.refl _ row) fun h => absurd h hc
  | prepareExternal taskId workerId fencingToken intent now =>
    simp only [rowAfter, YieldsToDispatch]
    split
    · rename_i hc
      by_cases hs : row.state = .completed
      · simp only [restamped, hs]
        exact iff_of_true (.refl _ row) fun h => absurd rfl h.2.2
      · simp only [restamped, if_pos (show row.state ≠ .completed from hs)]
        refine (rowFenced_stamped rfl (by simp [EffectCall.dispatches]) fencingToken).trans ?_
        simp [hc, hs]
    · rename_i hc
      exact iff_of_true (.refl _ row) fun h => absurd ⟨h.1, h.2.1⟩ hc
  | acceptExternal taskId workerId fencingToken effectId now =>
    simp only [rowAfter, YieldsToDispatch]
    split
    · rename_i hc
      refine (rowFenced_completed rfl (by simp [EffectCall.dispatches]) rfl).trans ?_
      simp [hc, completed]
    · rename_i hc
      exact iff_of_true (.refl _ row) fun h => absurd h hc
  | claimDue locked workerId limit leaseSeconds now =>
    refine iff_of_true ?_ trivial
    simp only [rowAfter]
    split
    · exact ⟨Nat.le_succ _, fun _ _ _ _ hd => absurd trivial hd⟩
    · exact .refl _ row
  | deliver claim workerId index now =>
    refine iff_of_true ?_ trivial
    simp only [rowAfter]
    split
    · rename_i hc
      exact ⟨le_rfl, fun _ _ _ ho hd => absurd ⟨hc.1.symm, owner_unique hc.2.1 ho⟩ hd⟩
    · exact .refl _ row
  | retry claim workerId error now =>
    refine iff_of_true ?_ trivial
    simp only [rowAfter]
    split
    · rename_i hc
      refine ⟨?_, fun _ _ _ ho hd => absurd ⟨hc.1.symm, owner_unique hc.2 ho⟩ hd⟩
      rw [KnowledgeProjectionDispatcher.failed]
      dsimp only
      split <;> exact le_rfl
    · exact .refl _ row

theorem tokenFenced_iff {db : EffectDb D B} (hok : db.effects.All (EffectRowOk digests))
    (call : EffectCall D B V) :
    TokenFenced (effectStore digests dispatcher) db call ↔
      ∀ row ∈ db.effects.rows, YieldsToDispatch digests db row call := by
  have hstep := effectStore_evolves dispatcher hok call
  constructor
  · intro h row hm
    obtain ⟨row', hg', rfl⟩ := hstep.old _ row (Table.get_of_mem hm)
    exact (rowFenced_iff db call row).mp (h _ row _ (Table.get_of_mem hm) hg')
  · intro h k row row' hg hg'
    obtain ⟨_, hs, rfl⟩ := hstep.old k row hg
    rw [hg'] at hs
    cases hs
    exact (rowFenced_iff db call row).mpr (h row (Table.mem_of_get hg))

/-- Along every run, tokens never fall and live claims end only by a newer claim or by
their holder exactly when every call yields to the dispatcher. -/
theorem dispatch_claims_fenced (digests : Digests D) (dispatcher : KnowledgeProjectionDispatcher) (business : B)
    (calls : List (EffectCall D B V)) :
    let store := effectStore (B := B) (V := V) digests dispatcher
    store.Along (TokenFenced store) (.initial business) calls ↔
      store.Along (fun db call => ∀ row ∈ db.effects.rows, YieldsToDispatch digests db row call)
        (.initial business) calls :=
  (effectStore digests dispatcher).along_congr (I := fun db => db.effects.All (EffectRowOk digests))
    (fun _ call hok _ => effectStore_rowOk_step hok call) (fun _ call hok => tokenFenced_iff hok call)
    (fun _ _ h => by cases h) calls

/-- The producing task is taken over while a second dispatch is in flight, and the new
worker prepares the same intent again. -/
def takeover : List (EffectCall Json Unit Unit) :=
  let intent : EffectIntent := ⟨"index:knowledge-1", knowledgeIndex, [("snapshot_id", .str "snapshot-1")]⟩
  [.task (.enqueueIngestion "task-1" "bilibili" "BV1fence" [] none none 0),
    .task (.claimPending [] "worker-a" "video_pipeline" 60 (seconds 10)),
    .prepareExternal "task-1" "worker-a" 1 intent (seconds 20),
    .claimDue [] "dispatcher-1" 20 30 (seconds 30),
    .claimDue [] "dispatcher-2" 20 60 (seconds 100),
    .task (.claimPending [] "worker-b" "video_pipeline" 60 (seconds 110)),
    .prepareExternal "task-1" "worker-b" 2 intent (seconds 120)]

/-- The takeover moves the token of the second dispatch back to the first one's. -/
theorem takeover_rewinds_token :
    let store := effectStore (B := Unit) (V := Unit) ⟨id, id⟩ (.create 10 5)
    ¬ store.Along (TokenFenced store) (.initial ()) takeover := by
  intro store h
  let db := store.run (.initial ()) (takeover.take 6)
  let call := takeover[6]
  have hstep : TokenFenced store db call := h.2.2.2.2.2.2.1
  have hbefore : (db.effects.get "eff_task-1|index:knowledge-1").map (·.fencingToken) = some 3 := by
    decide
  have hafter : ((store.step db call).effects.get "eff_task-1|index:knowledge-1").map (·.fencingToken) =
      some 2 := by decide
  obtain ⟨row, hg, ht⟩ := Option.map_eq_some_iff.mp hbefore
  obtain ⟨row', hg', ht'⟩ := Option.map_eq_some_iff.mp hafter
  have hle := (hstep _ row row' hg hg').token
  omega

end StockContent.Effects
