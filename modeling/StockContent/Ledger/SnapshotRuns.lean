import StockContent.Ledger.EventRuns
import StockContent.Ledger.SystemEvents
import StockContent.Lifecycle.LifecycleEvents

/-! The claim events of a snapshot: built when the snapshot is recorded, and appended claim
by claim behind what the ledger already holds. -/
namespace StockContent.Ledger
open Storage Verification Occurrence Lifecycle

/-- What the recording stage of a run reads. -/
structure RecordingState where
  claims : List LedgerClaim
  occurrences : List ClaimOccurrence
  /-- The verification entries of the plan, with the status of the result they enclose. -/
  entries : List (String × Option ResultStatus)
  lifecycleTimestamp : DateTime
  snapshotId : String
  codeSha : String
  manifestCodeSha : String
  createdAt : DateTime

namespace RecordingState

def claimIds (state : RecordingState) : List String := state.claims.map (·.claimId)

/-- Of several occurrences of a claim the last one counts, of its entries as well. -/
def occurrenceOf (state : RecordingState) (claimId : String) : Option ClaimOccurrence :=
  state.occurrences.reverse.find? (·.claimId = claimId)

def resultOf (state : RecordingState) (claimId : String) : Option ResultStatus :=
  (state.entries.reverse.find? (·.1 = claimId)).bind (·.2)

def producerCommit (state : RecordingState) : String :=
  if state.codeSha ≠ "" then state.codeSha else state.manifestCodeSha

/-- The lifecycle events that the run projected for its claims and occurrences. -/
def lifecycleEvents (names : LifecycleNames) (state : RecordingState) : List KnowledgeLifecycleEvent :=
  lifecycleProjection names state.claimIds state.occurrences state.lifecycleTimestamp

end RecordingState

section Pending
variable {D : Type} [DecidableEq D] (names : LifecycleNames) (schema : LedgerSchema D)

/-- A claim without an occurrence has no commit time and gets no event. -/
def pendingInitial (state : RecordingState) (claim : LedgerClaim) :
    Except (LedgerError D) (Option (ClaimStateEvent D)) :=
  match state.occurrenceOf claim.claimId with
  | none => .ok none
  | some occurrence =>
    if state.producerCommit = "" then
      .error (.valueError "CONTENT_SNAPSHOT_PERSIST_FAILED: snapshot producer commit is missing")
    else
      let event := SystemEvent.initial
        { claim
          occurrence
          result := state.resultOf claim.claimId
          snapshotId := state.snapshotId
          producerCommit := state.producerCommit }
      return some (← schema.construct (event.fields none) none none)

def pendingLifecycle (event : KnowledgeLifecycleEvent) : Except (LedgerError D) (Option (ClaimStateEvent D)) :=
  if event.targetType ≠ .claim then .ok none
  else
    let mirrored := SystemEvent.lifecycle event.targetId event.toStatus event.lifecycleEventId event.recordedAt
      event.effectiveAt
    return some (← schema.construct (mirrored.fields none) none none)

def pendingEvents (state : RecordingState) : Except (LedgerError D) (List (ClaimStateEvent D)) := do
  let initial ← state.claims.mapM (pendingInitial schema state)
  let lifecycle ← (state.lifecycleEvents names).mapM (pendingLifecycle schema)
  return initial.reduceOption ++ lifecycle.reduceOption

/-- The order of `(claim_id, known_from or created_at, event_id)`. -/
def projectionOrder (createdAt : DateTime) (a b : ClaimStateEvent D) : Bool :=
  let known (event : ClaimStateEvent D) : Time := (event.knownFrom.getD createdAt).utc
  a.claimId < b.claimId ∨ (a.claimId = b.claimId ∧
    (known a < known b ∨ (known a = known b ∧ schema.precedes a.eventId b.eventId)))

def sortedPending (state : RecordingState) (pending : List (ClaimStateEvent D)) : List (ClaimStateEvent D) :=
  pending.insertionSort fun a b => projectionOrder schema state.createdAt a b

end Pending

section Projection
variable {D : Type} [DecidableEq D] (names : LifecycleNames) (schema : LedgerSchema D)

/-- The stored events of a claim, whose initial projections have to be distinct. -/
def existingEvents (t : EventTable D) (claimId : String) :
    Except (LedgerError D) (String × List (ClaimStateEvent D)) := do
  let events ← listForClaim schema claimId t
  if ((events.filter isInitial).map (·.logicalIdentity)).Nodup then return (claimId, events)
  else .error (.valueError "CONTENT_SNAPSHOT_PERSIST_FAILED: ambiguous verification initial projection")

/-- What was stored for a claim before the projection; nothing for a claim the run does not have. -/
def storedFor (existing : List (String × List (ClaimStateEvent D))) (claimId : String) : List (ClaimStateEvent D) :=
  ((existing.find? (·.1 = claimId)).map (·.2)).getD []

/-- An unchanged projection is passed over: by its id, which tells the place in the chain,
or, for an initial event, by its logical identity. -/
def skips (stored : List (ClaimStateEvent D)) (event : ClaimStateEvent D) : Bool :=
  stored.any (·.eventId = event.eventId) ||
    isInitial event && (stored.filter isInitial).any (·.logicalIdentity = event.logicalIdentity)

/-- The ledger and, for every claim, the hash that its next event will name. -/
structure Tails (D : Type) where
  ledger : EventTable D
  tail : String → Option D

/-- An event behind a tail is constructed again, with that predecessor. -/
def place (tail : Option D) (event : ClaimStateEvent D) : Except (LedgerError D) (ClaimStateEvent D) :=
  match tail with
  | none => .ok event
  | some prior => schema.construct { event.toEventFields with previousEventHash := some prior } none none

def projectEvent (existing : List (String × List (ClaimStateEvent D))) (s : Tails D) (event : ClaimStateEvent D) :
    Except (LedgerError D) (Tails D) :=
  if skips (storedFor existing event.claimId) event then .ok s
  else do
    let event ← place schema (s.tail event.claimId) event
    let (ledger, committed) ← appendInSession schema event s.ledger
    return { ledger, tail := fun id => if id = event.claimId then some committed.eventHash else s.tail id }

def projectEvents (existing : List (String × List (ClaimStateEvent D))) :
    Tails D → List (ClaimStateEvent D) → Except (LedgerError D) (Tails D)
  | s, [] => .ok s
  | s, event :: events => do
    let s ← projectEvent schema existing s event
    projectEvents existing s events

def projectSnapshot (state : RecordingState) (t : EventTable D) : Except (LedgerError D) (EventTable D × Unit) := do
  let existing ← state.claimIds.mapM (existingEvents schema t)
  let pending ← pendingEvents names schema state
  let tail (claimId : String) := (storedFor existing claimId).getLast?.map (·.eventHash)
  let s ← projectEvents schema existing { ledger := t, tail } (sortedPending schema state pending)
  return (s.ledger, ())

end Projection
end StockContent.Ledger

/-! The projection of a snapshot on a sound ledger: when its loop goes through, and what the
ledger holds afterwards. -/
namespace StockContent.Ledger
open Storage Verification Occurrence Lifecycle

section Keys
variable {K : Type} [DecidableEq K]

/-- A key that is not there yet is added at the end. -/
def extend (keys : List K) (key : K) : List K := if key ∈ keys then keys else keys ++ [key]

/-- Keys are visited one after the other, `current` is the one visited last: a new key is
added only while the last key of the list is the current one. -/
def Tracks : List K → Option K → List K → Prop
  | _, _, [] => True
  | keys, current, key :: visited =>
    (key ∉ keys → current = keys.getLast?) ∧ Tracks (extend keys key) (some key) visited

theorem mem_extend {keys : List K} {key k : K} : k ∈ extend keys key ↔ k ∈ keys ∨ k = key := by
  unfold extend
  split
  · rename_i h
    constructor
    · exact .inl
    · rintro (hk | rfl)
      · exact hk
      · exact h
  · simp

theorem extend_of_mem {keys : List K} {key : K} (h : key ∈ keys) : extend keys key = keys := if_pos h

/-- Leaving out what was there from the start makes no difference. -/
theorem foldl_extend_filter {A : Type} (f : A → K) (p : A → Bool) {keys : List K} {items : List A}
    (h : ∀ item ∈ items, p item = false → f item ∈ keys) :
    ((items.filter p).map f).foldl extend keys = (items.map f).foldl extend keys := by
  induction items generalizing keys with
  | nil => rfl
  | cons item items ih =>
    obtain ⟨hitem, hrest⟩ := List.forall_mem_cons.mp h
    cases hp : p item with
    | true =>
      rw [List.filter_cons_of_pos hp, List.map_cons, List.map_cons, List.foldl_cons, List.foldl_cons]
      exact ih fun i hi hpi => mem_extend.mpr (.inl (hrest i hi hpi))
    | false =>
      rw [List.filter_cons_of_neg (by simp [hp]), List.map_cons, List.foldl_cons, extend_of_mem (hitem hp)]
      exact ih hrest

theorem mem_foldl_extend {keys more : List K} {k : K} : k ∈ more.foldl extend keys ↔ k ∈ keys ∨ k ∈ more := by
  induction more generalizing keys with
  | nil => simp
  | cons key more ih => rw [List.foldl_cons, ih, mem_extend, List.mem_cons, or_assoc]

end Keys

section Visit
variable {D : Type} [DecidableEq D] {schema : LedgerSchema D} {t : EventTable D} {event : ClaimStateEvent D}

/-- A pending event: authentic, not placed in a chain yet, with open intervals. -/
structure Pending (schema : LedgerSchema D) (event : ClaimStateEvent D) : Prop where
  authentic : schema.Authentic event
  unplaced : event.previousEventHash = none
  unbounded : event.knownTo = none ∧ event.businessValidTo = none

/-- The event at the place that a tail hash gives it. -/
def placed (schema : LedgerSchema D) (tail : Option D) (event : ClaimStateEvent D) : ClaimStateEvent D :=
  schema.sign { event.toEventFields with previousEventHash := tail }

/-- The table has room for the row of an event, wherever it is placed. -/
def Fits (schema : LedgerSchema D) (event : ClaimStateEvent D) : Prop :=
  ∀ tail, schema.fits (placed schema tail event).row = true

theorem Pending.place (hp : Pending schema event) (tail : Option D) :
    place schema tail event = .ok (placed schema tail event) ∧ schema.Authentic (placed schema tail event) := by
  have hv : ({ event.toEventFields with previousEventHash := tail } : EventFields DateTime D).Valid :=
    ⟨hp.authentic.valid.named, hp.authentic.valid.known, hp.authentic.valid.utc, hp.authentic.valid.knownOrder,
      hp.authentic.valid.businessOrder⟩
  refine ⟨?_, hv, rfl⟩
  cases tail with
  | none =>
    have hsame : ({ event.toEventFields with previousEventHash := none } : EventFields DateTime D) =
        event.toEventFields := by rw [← hp.unplaced]
    rw [placed, hsame, hp.authentic.signed]
    rfl
  | some prior => exact schema.construct_eq_ok.mpr ⟨hv, rfl⟩

/-- The stored event a claim's tail hash stands for, by its logical identity. -/
def Points (t : EventTable D) (claimId : String) (current : Option (EventFields Time D)) (tail : Option D) : Prop :=
  ∃ stored : Option (ClaimStateEvent D), (∀ e, stored = some e → e ∈ chain claimId t) ∧
    stored.map (·.logicalIdentity) = current ∧ stored.map (·.eventHash) = tail

/-- The loop's state is in step: its ledger is sound, the tails of the run's claims point at
stored events. -/
structure InStep (schema : LedgerSchema D) (claimIds : List String) (s : Tails D)
    (current : String → Option (EventFields Time D)) : Prop where
  sound : Sound schema s.ledger
  points : ∀ claimId ∈ claimIds, Points s.ledger claimId (current claimId) (s.tail claimId)

variable {s : Tails D} {current : String → Option (EventFields Time D)} {claimIds : List String}
  {existing : List (String × List (ClaimStateEvent D))}

def moved (current : String → Option (EventFields Time D)) (event : ClaimStateEvent D) :
    String → Option (EventFields Time D) :=
  fun claimId => if claimId = event.claimId then some event.logicalIdentity else current claimId

theorem projectEvent_unskipped (hp : Pending schema event)
    (hskip : skips (storedFor existing event.claimId) event = false) :
    projectEvent schema existing s event =
      (appendInSession schema (placed schema (s.tail event.claimId) event) s.ledger).map fun p =>
        { ledger := p.1, tail := fun id => if id = event.claimId then some p.2.eventHash else s.tail id } := by
  simp only [projectEvent, hskip, Bool.false_eq_true, if_false, (hp.place _).1]
  change (appendInSession schema (placed schema (s.tail event.claimId) event) s.ledger >>= _) = _
  cases appendInSession schema (placed schema (s.tail event.claimId) event) s.ledger <;> rfl

/-- A visit that goes through leaves the loop in step: it moved the tail to a stored event,
or it put a new one at the end of its claim's chain. -/
theorem visit_ok (h : InStep schema claimIds s current) (hfree : schema.CollisionFree) (hp : Pending schema event)
    (hskip : skips (storedFor existing event.claimId) event = false) (hc : event.claimId ∈ claimIds) {s' : Tails D}
    (hx : projectEvent schema existing s event = .ok s') :
    InStep schema claimIds s' (moved current event) ∧
      ((event.logicalIdentity ∈ keys event.claimId s.ledger ∧ s'.ledger = s.ledger) ∨
        (event.logicalIdentity ∉ keys event.claimId s.ledger ∧ ∀ claimId, chain claimId s'.ledger =
          chain claimId s.ledger ++ if event.claimId = claimId then [placed schema (s.tail event.claimId) event] else [])) := by
  have ha := (hp.place (s.tail event.claimId)).2
  rw [projectEvent_unskipped hp hskip] at hx
  cases happend : appendInSession schema (placed schema (s.tail event.claimId) event) s.ledger with
  | error e =>
    rw [happend] at hx
    cases hx
  | ok p =>
    obtain ⟨u, committed⟩ := p
    rw [happend] at hx
    cases hx
    have hother {claimId : String} (hclaim : claimId ≠ event.claimId) (hm : claimId ∈ claimIds)
        (hkeep : ∀ e ∈ chain claimId s.ledger, e ∈ chain claimId u) :
        Points u claimId (moved current event claimId)
          (if claimId = event.claimId then some committed.eventHash else s.tail claimId) := by
      obtain ⟨stored, hstored, hk, hh⟩ := h.points claimId hm
      exact ⟨stored, fun e he => hkeep e (hstored e he), by simpa [moved, hclaim] using hk, by simpa [hclaim] using hh⟩
    rcases (append_cases h.sound hfree happend).2 with ⟨rfl, e, he, hl, hhash⟩ | ⟨rfl, hu, hnew, htail⟩
    · refine ⟨⟨h.sound, fun claimId hm => ?_⟩, .inl ⟨List.mem_map.mpr ⟨e, he, hl⟩, rfl⟩⟩
      by_cases hclaim : claimId = event.claimId
      · subst hclaim
        refine ⟨some e, fun e' he' => ?_, ?_, ?_⟩
        · cases he'
          exact he
        · rw [moved, if_pos rfl]
          exact congrArg some hl
        · simp [hhash]
      · exact hother hclaim hm fun _ he => he
    · have hprev : (placed schema (s.tail event.claimId) event).previousEventHash =
          (chain event.claimId s.ledger).getLast?.map (·.eventHash) := by
        cases hlast : (chain event.claimId s.ledger).getLast? with
        | some last => exact htail last hlast
        | none =>
          obtain ⟨stored, hstored, _, hh⟩ := h.points event.claimId hc
          cases stored with
          | none => exact hh.symm
          | some e => exact absurd (hstored e rfl) (by simp [List.getLast?_eq_none_iff.mp hlast])
      have hchain (claimId : String) := chain_append (store_eq_some hu).2.2 claimId
      simp only [row_event ha, ClaimStateEvent.row_claimId] at hchain
      refine ⟨⟨h.sound.of_store ha hnew hprev hu, fun claimId hm => ?_⟩, .inr ⟨fun hl => ?_, hchain⟩⟩
      · by_cases hclaim : claimId = event.claimId
        · subst hclaim
          refine ⟨some (placed schema (s.tail event.claimId) event), fun e he => ?_, ?_, ?_⟩
          · cases he
            rw [hchain]
            simp [placed]
          · rw [moved, if_pos rfl]
            rfl
          · simp
        · refine hother hclaim hm fun e he => ?_
          rw [hchain]
          exact List.mem_append_left _ he
      · obtain ⟨e, he, hl⟩ := List.mem_map.mp hl
        exact hnew e he hl

theorem visit_stored (h : InStep schema claimIds s current) (hfree : schema.CollisionFree) (hp : Pending schema event)
    (hskip : skips (storedFor existing event.claimId) event = false)
    (hl : event.logicalIdentity ∈ keys event.claimId s.ledger) :
    ∃ s', projectEvent schema existing s event = .ok s' := by
  obtain ⟨stored, hm, hkey⟩ := List.mem_map.mp hl
  obtain ⟨returned, hret, _⟩ := append_retry h.sound hfree (hp.place (s.tail event.claimId)).2 hm hkey
  rw [projectEvent_unskipped hp hskip, hret]
  exact ⟨_, rfl⟩

/-- A new event goes through when the tail is the end of its claim's chain. -/
theorem visit_new (h : InStep schema claimIds s current) (hfree : schema.CollisionFree) (hp : Pending schema event)
    (hfits : Fits schema event) (hskip : skips (storedFor existing event.claimId) event = false)
    (hc : event.claimId ∈ claimIds) (hl : event.logicalIdentity ∉ keys event.claimId s.ledger)
    (htail : current event.claimId = (keys event.claimId s.ledger).getLast?) :
    ∃ s', projectEvent schema existing s event = .ok s' := by
  have ha := (hp.place (s.tail event.claimId)).2
  obtain ⟨stored, hmem, hkey, hhash⟩ := h.points event.claimId hc
  have hlast : stored = (chain event.claimId s.ledger).getLast? := by
    rw [htail, keys, List.getLast?_map] at hkey
    cases stored with
    | none => exact (List.getLast?_eq_none_iff.mpr (by simpa using hkey.symm)).symm
    | some e =>
      obtain ⟨last, hlast, hsame⟩ := Option.map_eq_some_iff.mp hkey.symm
      rw [hlast]
      have hmlast := List.mem_of_getLast? hlast
      exact congrArg some (List.inj_on_of_nodup_map (h.sound.distinct _) (hmem e rfl) hmlast hsame.symm)
  have hprev : (placed schema (s.tail event.claimId) event).previousEventHash =
      (chain event.claimId s.ledger).getLast?.map (·.eventHash) := by
    rw [← hlast]
    exact hhash.symm
  have hnew : ∀ e ∈ chain event.claimId s.ledger, e.logicalIdentity ≠ event.logicalIdentity :=
    fun e he heq => hl (List.mem_map.mpr ⟨e, he, heq⟩)
  obtain ⟨u, hu⟩ := h.sound.store_succeeds hfree ha hl hprev hp.unbounded (hfits _)
  rw [projectEvent_unskipped hp hskip, append_new h.sound hfree ha hnew, if_neg, hu]
  · exact ⟨_, rfl⟩
  · rw [hprev]
    change ¬ (chain event.claimId s.ledger).getLast?.any _ = true
    generalize (chain event.claimId s.ledger).getLast? = last
    cases last <;> simp

/-- A visited event that is new is refused when the tail is not the end of its claim's chain. -/
theorem visit_refused (h : InStep schema claimIds s current) (hfree : schema.CollisionFree) (hp : Pending schema event)
    (hskip : skips (storedFor existing event.claimId) event = false) (hc : event.claimId ∈ claimIds)
    (hl : event.logicalIdentity ∉ keys event.claimId s.ledger)
    (htail : current event.claimId ≠ (keys event.claimId s.ledger).getLast?) :
    ∃ e, projectEvent schema existing s event = .error e := by
  have ha := (hp.place (s.tail event.claimId)).2
  have hnew : ∀ e ∈ chain event.claimId s.ledger, e.logicalIdentity ≠ event.logicalIdentity :=
    fun e he heq => hl (List.mem_map.mpr ⟨e, he, heq⟩)
  obtain ⟨stored, hmem, hkey, hhash⟩ := h.points event.claimId hc
  have hstep := projectEvent_unskipped (s := s) hp hskip
  rw [append_new h.sound hfree ha hnew, if_pos] at hstep
  · exact ⟨_, hstep⟩
  change (chain event.claimId s.ledger).getLast?.any (fun tail => s.tail event.claimId ≠ some tail.eventHash) = true
  cases hlast : (chain event.claimId s.ledger).getLast? with
  | none =>
    -- Without events there is nothing to point at.
    have hnil := List.getLast?_eq_none_iff.mp hlast
    cases stored with
    | none => exact absurd hkey.symm (by simpa [keys, hnil] using htail)
    | some e => exact absurd (hmem e rfl) (by simp [hnil])
  | some last =>
    refine decide_eq_true fun heq => htail ?_
    obtain ⟨e, rfl, he⟩ : ∃ e, stored = some e ∧ e.eventHash = last.eventHash := by
      rw [← hhash] at heq
      simpa [Option.map_eq_some_iff] using heq
    have hsame := List.inj_on_of_nodup_map (h.sound.hashes hfree _) (hmem e rfl) (List.mem_of_getLast? hlast) he
    rw [← hkey, hsame, keys, List.getLast?_map, hlast]

/-- The events of a claim that the loop does not pass over, by their logical identities. -/
def visited (stored : List (ClaimStateEvent D)) (claimId : String) (events : List (ClaimStateEvent D)) :
    List (EventFields Time D) :=
  ((events.filter (·.claimId = claimId)).filter (!skips stored ·)).map (·.logicalIdentity)

theorem visited_cons (stored : List (ClaimStateEvent D)) (claimId : String) (event : ClaimStateEvent D)
    (events : List (ClaimStateEvent D)) :
    visited stored claimId (event :: events) =
      if event.claimId = claimId ∧ skips stored event = false then
        event.logicalIdentity :: visited stored claimId events
      else visited stored claimId events := by
  unfold visited
  by_cases hc : event.claimId = claimId
  · by_cases hskip : skips stored event = true <;> simp [hc, hskip]
  · simp [hc]

/-- Every claim's visited events find the tail at the end of the chain when they are new. -/
def AllTrack (existing : List (String × List (ClaimStateEvent D))) (claimIds : List String) (t : EventTable D)
    (current : String → Option (EventFields Time D)) (events : List (ClaimStateEvent D)) : Prop :=
  ∀ claimId ∈ claimIds, Tracks (keys claimId t) (current claimId) (visited (storedFor existing claimId) claimId events)

/-- What the loop leaves behind: a sound ledger in which every chain was continued, by the
new ones of the visited events. -/
structure Projected (schema : LedgerSchema D) (existing : List (String × List (ClaimStateEvent D)))
    (events : List (ClaimStateEvent D)) (t u : EventTable D) : Prop where
  sound : Sound schema u
  continued : ∀ claimId, chain claimId t <+: chain claimId u
  extended : ∀ claimId, keys claimId u = (visited (storedFor existing claimId) claimId events).foldl extend (keys claimId t)

/-- The chains after a visit that went through. -/
theorem visit_keys (h : InStep schema claimIds s current) (hfree : schema.CollisionFree) (hp : Pending schema event)
    (hskip : skips (storedFor existing event.claimId) event = false) (hc : event.claimId ∈ claimIds) {s' : Tails D}
    (hx : projectEvent schema existing s event = .ok s') (claimId : String) :
    chain claimId s.ledger <+: chain claimId s'.ledger ∧ keys claimId s'.ledger =
      if event.claimId = claimId then extend (keys claimId s.ledger) event.logicalIdentity
      else keys claimId s.ledger := by
  rcases (visit_ok h hfree hp hskip hc hx).2 with ⟨hl, hsame⟩ | ⟨hl, hchain⟩
  · rw [hsame]
    refine ⟨List.prefix_rfl, ?_⟩
    split
    · rename_i hclaim
      subst hclaim
      rw [extend_of_mem hl]
    · rfl
  · rw [keys, hchain, List.map_append]
    refine ⟨List.prefix_append _ _, ?_⟩
    split
    · rename_i hclaim
      subst hclaim
      rw [extend, if_neg hl]
      rfl
    · simp [keys]

/-- A visit goes through exactly when a new event finds the tail in place. -/
theorem visit_iff (h : InStep schema claimIds s current) (hfree : schema.CollisionFree) (hp : Pending schema event)
    (hfits : Fits schema event) (hskip : skips (storedFor existing event.claimId) event = false)
    (hc : event.claimId ∈ claimIds) :
    (∃ s', projectEvent schema existing s event = .ok s') ↔
      (event.logicalIdentity ∉ keys event.claimId s.ledger →
        current event.claimId = (keys event.claimId s.ledger).getLast?) := by
  constructor
  · rintro ⟨s', hs'⟩ hl
    by_contra htail
    obtain ⟨e, he⟩ := visit_refused h hfree hp hskip hc hl htail
    rw [hs'] at he
    cases he
  · intro htail
    by_cases hl : event.logicalIdentity ∈ keys event.claimId s.ledger
    · exact visit_stored h hfree hp hskip hl
    · exact visit_new h hfree hp hfits hskip hc hl (htail hl)

theorem visited_skip {claimId : String} {events : List (ClaimStateEvent D)}
    (hskip : skips (storedFor existing event.claimId) event = true) :
    visited (storedFor existing claimId) claimId (event :: events) = visited (storedFor existing claimId) claimId events := by
  rw [visited_cons, if_neg]
  rintro ⟨rfl, hno⟩
  rw [hskip] at hno
  cases hno

theorem visited_visit {claimId : String} {events : List (ClaimStateEvent D)}
    (hskip : skips (storedFor existing event.claimId) event = false) :
    visited (storedFor existing claimId) claimId (event :: events) =
      if event.claimId = claimId then event.logicalIdentity :: visited (storedFor existing claimId) claimId events
      else visited (storedFor existing claimId) claimId events := by
  rw [visited_cons]
  by_cases hclaim : event.claimId = claimId
  · subst hclaim
    simp [hskip]
  · simp [hclaim]

theorem projectEvents_skip {events : List (ClaimStateEvent D)}
    (hskip : skips (storedFor existing event.claimId) event = true) :
    projectEvents schema existing s (event :: events) = projectEvents schema existing s events := by
  rw [projectEvents, projectEvent, hskip]
  rfl

/-- A loop that goes through continues every chain, by the new ones of its visited events. -/
theorem projectEvents_ok {events : List (ClaimStateEvent D)} (h : InStep schema claimIds s current)
    (hfree : schema.CollisionFree) (hp : ∀ event ∈ events, Pending schema event ∧ event.claimId ∈ claimIds)
    {s' : Tails D} (hx : projectEvents schema existing s events = .ok s') :
    Projected schema existing events s.ledger s'.ledger := by
  induction events generalizing s current with
  | nil =>
    cases hx
    exact ⟨h.sound, fun _ => List.prefix_rfl, fun _ => rfl⟩
  | cons event events ih =>
    obtain ⟨⟨hpe, hc⟩, hrest⟩ := List.forall_mem_cons.mp hp
    cases hskip : skips (storedFor existing event.claimId) event with
    | true =>
      rw [projectEvents_skip hskip] at hx
      obtain ⟨hsound, hcont, hext⟩ := ih h hrest hx
      exact ⟨hsound, hcont, fun claimId => by rw [visited_skip hskip, hext]⟩
    | false =>
      obtain ⟨s₁, hs₁, hx⟩ := bind_eq_ok.mp hx
      obtain ⟨hsound, hcont, hext⟩ := ih (visit_ok h hfree hpe hskip hc hs₁).1 hrest hx
      have hkeys := visit_keys h hfree hpe hskip hc hs₁
      refine ⟨hsound, fun claimId => (hkeys claimId).1.trans (hcont claimId), fun claimId => ?_⟩
      rw [hext, (hkeys claimId).2, visited_visit hskip]
      by_cases hclaim : event.claimId = claimId <;> simp [hclaim]

/-- The loop goes through exactly when every claim's visited events track the chain's end. -/
theorem projectEvents_iff {events : List (ClaimStateEvent D)} (h : InStep schema claimIds s current)
    (hfree : schema.CollisionFree)
    (hp : ∀ event ∈ events, (Pending schema event ∧ event.claimId ∈ claimIds) ∧ Fits schema event) :
    (∃ s', projectEvents schema existing s events = .ok s') ↔ AllTrack existing claimIds s.ledger current events := by
  induction events generalizing s current with
  | nil => exact iff_of_true ⟨s, rfl⟩ fun _ _ => trivial
  | cons event events ih =>
    obtain ⟨⟨⟨hpe, hc⟩, hfits⟩, hrest⟩ := List.forall_mem_cons.mp hp
    cases hskip : skips (storedFor existing event.claimId) event with
    | true =>
      rw [projectEvents_skip hskip, ih h hrest]
      simp only [AllTrack, visited_skip hskip]
    | false =>
      have htracks : AllTrack existing claimIds s.ledger current (event :: events) →
          (event.logicalIdentity ∉ keys event.claimId s.ledger →
            current event.claimId = (keys event.claimId s.ledger).getLast?) := by
        intro hall
        have hclaim := hall event.claimId hc
        rw [visited_visit hskip, if_pos rfl] at hclaim
        exact hclaim.1
      have hgo {s₁ : Tails D} (hs₁ : projectEvent schema existing s event = .ok s₁) :
          AllTrack existing claimIds s.ledger current (event :: events) ↔
            AllTrack existing claimIds s₁.ledger (moved current event) events := by
        refine forall₂_congr fun claimId hm => ?_
        rw [(visit_keys h hfree hpe hskip hc hs₁ claimId).2, visited_visit hskip, moved]
        by_cases hclaim : event.claimId = claimId
        · subst hclaim
          simp only [if_true, Tracks]
          exact ⟨fun ht => ht.2, fun ht => ⟨(visit_iff h hfree hpe hfits hskip hc).mp ⟨s₁, hs₁⟩, ht⟩⟩
        · simp [hclaim, Ne.symm hclaim]
      constructor
      · rintro ⟨s', hs'⟩
        obtain ⟨s₁, hs₁, hs'⟩ := bind_eq_ok.mp hs'
        exact (hgo hs₁).mpr ((ih (visit_ok h hfree hpe hskip hc hs₁).1 hrest).mp ⟨s', hs'⟩)
      · intro hall
        obtain ⟨s₁, hs₁⟩ := (visit_iff h hfree hpe hfits hskip hc).mpr (htracks hall)
        obtain ⟨s', hs'⟩ := (ih (visit_ok h hfree hpe hskip hc hs₁).1 hrest).mpr ((hgo hs₁).mp hall)
        exact ⟨s', bind_eq_ok.mpr ⟨s₁, hs₁, hs'⟩⟩

/-- Events that are all stored pass through the loop without a trace. -/
theorem projectEvents_stored {events : List (ClaimStateEvent D)} (h : InStep schema claimIds s current)
    (hfree : schema.CollisionFree) (hp : ∀ event ∈ events, Pending schema event ∧ event.claimId ∈ claimIds)
    (hl : ∀ event ∈ events, event.logicalIdentity ∈ keys event.claimId s.ledger) :
    ∃ s', projectEvents schema existing s events = .ok s' ∧ s'.ledger = s.ledger := by
  induction events generalizing s current with
  | nil => exact ⟨s, rfl, rfl⟩
  | cons event events ih =>
    obtain ⟨⟨hpe, hc⟩, hrest⟩ := List.forall_mem_cons.mp hp
    obtain ⟨hle, hlrest⟩ := List.forall_mem_cons.mp hl
    cases hskip : skips (storedFor existing event.claimId) event with
    | true =>
      rw [projectEvents_skip hskip]
      exact ih h hrest hlrest
    | false =>
      obtain ⟨s₁, hs₁⟩ := visit_stored h hfree hpe hskip hle
      obtain ⟨hin, hcases⟩ := visit_ok h hfree hpe hskip hc hs₁
      have hsame : s₁.ledger = s.ledger := by
        rcases hcases with ⟨_, hsame⟩ | ⟨hn, _⟩
        · exact hsame
        · exact absurd hle hn
      obtain ⟨s', hs', hledger⟩ := ih hin hrest (by rwa [hsame])
      exact ⟨s', bind_eq_ok.mpr ⟨s₁, hs₁, hs'⟩, hledger.trans hsame⟩

end Visit
end StockContent.Ledger
