import Mathlib.Data.List.ReduceOption
import StockContent.Ledger.SnapshotRuns
import StockContent.Ledger.SystemWrites

/-! Snapshot commits on every ledger the system can reach: when the projection of a
snapshot goes through, and what a second run over the same inputs does. -/
namespace StockContent.Ledger
open Storage Verification Occurrence Lifecycle

section Commit
variable {D : Type} [DecidableEq D] {names : LifecycleNames} {schema : LedgerSchema D} {t : EventTable D}
  {state : RecordingState}

theorem pending_of_fields {writer : SystemEvent} {event : ClaimStateEvent D}
    (h : schema.construct (writer.fields none) none none = .ok event) :
    Pending schema event ∧ event.claimId = writer.claimId := by
  obtain ⟨hv, rfl⟩ := schema.construct_eq_ok.mp h
  refine ⟨⟨⟨hv, rfl⟩, by simp, ?_⟩, by simp⟩
  cases writer <;> exact ⟨rfl, rfl⟩

theorem pendingInitial_ok {claim : LedgerClaim} {event : ClaimStateEvent D}
    (h : pendingInitial schema state claim = .ok (some event)) : Pending schema event ∧ event.claimId = claim.claimId := by
  unfold pendingInitial at h
  split at h
  · cases h
  · split at h
    · cases h
    · obtain ⟨e, he, h⟩ := bind_eq_ok.mp h
      cases h
      exact pending_of_fields he

theorem pendingLifecycle_ok {lifecycle : KnowledgeLifecycleEvent} {event : ClaimStateEvent D}
    (h : pendingLifecycle schema lifecycle = .ok (some event)) :
    Pending schema event ∧ lifecycle.targetType = .claim ∧ event.claimId = lifecycle.targetId := by
  unfold pendingLifecycle at h
  split at h
  · cases h
  · rename_i htype
    obtain ⟨e, he, h⟩ := bind_eq_ok.mp h
    cases h
    obtain ⟨hp, hc⟩ := pending_of_fields he
    exact ⟨hp, not_not.mp htype, hc⟩

/-- Lifecycle events of a run about claims are about the run's own claims. -/
theorem lifecycleEvents_target {lifecycle : KnowledgeLifecycleEvent} (h : lifecycle ∈ state.lifecycleEvents names)
    (ht : lifecycle.targetType = .claim) : lifecycle.targetId ∈ state.claimIds := by
  rw [RecordingState.lifecycleEvents, lifecycleProjection, List.mem_append] at h
  rcases h with h | h
  · obtain ⟨id, hid, rfl⟩ := List.mem_map.mp h
    exact hid
  · obtain ⟨occurrence, _, rfl⟩ := List.mem_map.mp h
    cases ht

theorem pendingEvents_ok {pending : List (ClaimStateEvent D)} (h : pendingEvents names schema state = .ok pending) :
    ∀ event ∈ pending, Pending schema event ∧ event.claimId ∈ state.claimIds := by
  obtain ⟨initial, hinitial, h⟩ := bind_eq_ok.mp h
  obtain ⟨lifecycle, hlifecycle, h⟩ := bind_eq_ok.mp h
  cases h
  intro event he
  rcases List.mem_append.mp he with he | he
  · obtain ⟨claim, hm, hclaim⟩ := mem_of_mapM hinitial (List.reduceOption_mem_iff.mp he)
    obtain ⟨hp, hc⟩ := pendingInitial_ok hclaim
    exact ⟨hp, hc ▸ List.mem_map_of_mem hm⟩
  · obtain ⟨event', hm, hevent⟩ := mem_of_mapM hlifecycle (List.reduceOption_mem_iff.mp he)
    obtain ⟨hp, ht, hc⟩ := pendingLifecycle_ok hevent
    exact ⟨hp, hc ▸ lifecycleEvents_target hm ht⟩

/-- The chains of the run's claims, as they are read before the loop. -/
def existingChains (state : RecordingState) (t : EventTable D) : List (String × List (ClaimStateEvent D)) :=
  state.claimIds.map fun claimId => (claimId, chain claimId t)

omit [DecidableEq D] in
theorem storedFor_existing {claimId : String} (h : claimId ∈ state.claimIds) :
    storedFor (existingChains state t) claimId = chain claimId t := by
  rw [storedFor, existingChains]
  cases hfind : (state.claimIds.map fun id => (id, chain id t)).find? (·.1 = claimId) with
  | none =>
    have hnone := List.find?_eq_none.mp hfind (claimId, chain claimId t) (List.mem_map_of_mem h)
    simp at hnone
  | some p =>
    obtain ⟨id, _, rfl⟩ := List.mem_map.mp (List.mem_of_find?_eq_some hfind)
    obtain rfl : id = claimId := by simpa using List.find?_some hfind
    rfl

theorem existing_of_sound (hs : Sound schema t) :
    state.claimIds.mapM (existingEvents schema t) = .ok (existingChains state t) := by
  refine mapM_eq_map fun claimId _ => ?_
  have hdistinct : (((chain claimId t).filter isInitial).map (·.logicalIdentity)).Nodup :=
    (List.filter_sublist.map _).nodup (hs.distinct claimId)
  simp only [existingEvents, hs.listForClaim]
  exact if_pos hdistinct

def startTails (state : RecordingState) (t : EventTable D) : Tails D :=
  { ledger := t, tail := fun claimId => (storedFor (existingChains state t) claimId).getLast?.map (·.eventHash) }

theorem projectSnapshot_eq (hs : Sound schema t) {pending : List (ClaimStateEvent D)}
    (hpending : pendingEvents names schema state = .ok pending) :
    projectSnapshot names schema state t =
      (projectEvents schema (existingChains state t) (startTails state t) (sortedPending schema state pending)).map
        fun s => (s.ledger, ()) := by
  simp only [projectSnapshot, existing_of_sound hs, hpending]
  change (projectEvents schema (existingChains state t) (startTails state t) (sortedPending schema state pending) >>= _) = _
  cases projectEvents schema (existingChains state t) (startTails state t) (sortedPending schema state pending) <;> rfl

omit [DecidableEq D] in
theorem startTails_inStep (state : RecordingState) (hs : Sound schema t) :
    InStep schema state.claimIds (startTails state t) fun claimId => (keys claimId t).getLast? := by
  refine ⟨hs, fun claimId hc => ⟨(chain claimId t).getLast?, fun e he => List.mem_of_getLast? he, ?_, ?_⟩⟩
  · rw [keys, List.getLast?_map]
  · simp only [startTails, storedFor_existing hc]

theorem sortedPending_ok {pending : List (ClaimStateEvent D)} (h : pendingEvents names schema state = .ok pending) :
    ∀ event ∈ sortedPending schema state pending, Pending schema event ∧ event.claimId ∈ state.claimIds :=
  fun event he => pendingEvents_ok h event ((List.mem_insertionSort _).mp he)

/-- The pending events of a snapshot that are not stored yet are appended, each at the end of
its claim's chain and in the loop's order, and a second run appends nothing. -/
def Projects (names : LifecycleNames) (schema : LedgerSchema D) (state : RecordingState) (t : EventTable D) : Prop :=
  ∀ pending, pendingEvents names schema state = .ok pending →
    ∃ u, projectSnapshot names schema state t = .ok (u, ()) ∧
      (∀ claimId, listForClaim schema claimId u = .ok (chain claimId u) ∧ chain claimId t <+: chain claimId u ∧
        keys claimId u = (((sortedPending schema state pending).filter (·.claimId = claimId)).map
          (·.logicalIdentity)).foldl extend (keys claimId t)) ∧
      projectSnapshot names schema state u = .ok (u, ())

/-- In the loop's order, a pending event that is new comes right after the last event of its
claim's chain: an older event of the claim, repeated just before it, would move the tail back. -/
def TailsInPlace (names : LifecycleNames) (schema : LedgerSchema D) (state : RecordingState) (t : EventTable D) : Prop :=
  ∀ pending, pendingEvents names schema state = .ok pending → ∀ claimId ∈ state.claimIds,
    Tracks (keys claimId t) (keys claimId t).getLast?
      (visited (chain claimId t) claimId (sortedPending schema state pending))

/-- What the loop passes over is stored. -/
theorem stored_of_skips (hs : Sound schema t) (hfree : schema.CollisionFree) {event : ClaimStateEvent D}
    (ha : schema.Authentic event) (h : skips (chain event.claimId t) event = true) :
    event.logicalIdentity ∈ keys event.claimId t := by
  rw [skips, Bool.or_eq_true, Bool.and_eq_true] at h
  rcases h with h | ⟨_, h⟩
  · obtain ⟨stored, hm, hid⟩ := List.any_eq_true.mp h
    have hstored := (hs.chained event.claimId).authentic stored hm
    have hsid := congrArg ClaimStateEvent.eventId hstored.signed
    have heid := congrArg ClaimStateEvent.eventId ha.signed
    have hidentity := hfree.eventId _ _ (hsid.trans ((of_decide_eq_true hid).trans heid.symm))
    exact List.mem_map.mpr ⟨stored, hm, logicalIdentity_of_identity hidentity⟩
  · obtain ⟨stored, hm, hl⟩ := List.any_eq_true.mp h
    exact List.mem_map.mpr ⟨stored, List.mem_of_mem_filter hm, of_decide_eq_true hl⟩

theorem projects_iff (hs : Sound schema t) (hfree : schema.CollisionFree)
    (hfits : ∀ pending, pendingEvents names schema state = .ok pending → ∀ event ∈ pending, Fits schema event) :
    Projects names schema state t ↔ TailsInPlace names schema state t := by
  refine forall₂_congr fun pending hpending => ?_
  have hok := sortedPending_ok hpending
  have hall : ∀ event ∈ sortedPending schema state pending,
      (Pending schema event ∧ event.claimId ∈ state.claimIds) ∧ Fits schema event :=
    fun event he => ⟨hok event he, hfits pending hpending event ((List.mem_insertionSort _).mp he)⟩
  have hin := startTails_inStep state hs
  have htracks : AllTrack (existingChains state t) state.claimIds t (fun claimId => (keys claimId t).getLast?)
      (sortedPending schema state pending) ↔ ∀ claimId ∈ state.claimIds, Tracks (keys claimId t)
        (keys claimId t).getLast? (visited (chain claimId t) claimId (sortedPending schema state pending)) :=
    forall₂_congr fun claimId hc => by rw [storedFor_existing hc]
  rw [projectSnapshot_eq hs hpending, ← htracks]
  have hiff : (∃ s, projectEvents schema (existingChains state t) (startTails state t)
      (sortedPending schema state pending) = .ok s) ↔ _ := projectEvents_iff hin hfree hall
  constructor
  · rintro ⟨u, hu, _⟩
    refine hiff.mp ?_
    cases hx : projectEvents schema (existingChains state t) (startTails state t) (sortedPending schema state pending) with
    | error e =>
      rw [hx] at hu
      cases hu
    | ok s => exact ⟨s, rfl⟩
  · intro hplace
    obtain ⟨s, hx⟩ := hiff.mpr hplace
    obtain ⟨hsound, hcont, hext⟩ := projectEvents_ok hin hfree hok hx
    have hkeys (claimId : String) : keys claimId s.ledger =
        (((sortedPending schema state pending).filter (·.claimId = claimId)).map (·.logicalIdentity)).foldl extend
          (keys claimId t) := by
      rw [hext, visited]
      refine foldl_extend_filter _ _ fun event he hskip => ?_
      obtain ⟨hm, hclaim⟩ := List.mem_filter.mp he
      obtain rfl : event.claimId = claimId := of_decide_eq_true hclaim
      obtain ⟨hp, hc⟩ := hok event hm
      rw [Bool.not_eq_false', storedFor_existing hc] at hskip
      exact stored_of_skips hs hfree hp.authentic hskip
    refine ⟨s.ledger, by rw [hx]; rfl, fun claimId => ⟨hsound.listForClaim claimId, hcont claimId, hkeys claimId⟩, ?_⟩
    have hstored : ∀ event ∈ sortedPending schema state pending, event.logicalIdentity ∈ keys event.claimId s.ledger := by
      intro event he
      rw [hkeys, mem_foldl_extend]
      exact .inr (List.mem_map_of_mem (List.mem_filter.mpr ⟨he, decide_eq_true rfl⟩))
    obtain ⟨s', hs', hledger⟩ : ∃ s', projectEvents schema (existingChains state s.ledger)
        (startTails state s.ledger) (sortedPending schema state pending) = .ok s' ∧ s'.ledger = s.ledger :=
      projectEvents_stored (startTails_inStep state hsound) hfree hok hstored
    rw [projectSnapshot_eq hsound hpending, hs']
    exact congrArg (fun u => Except.ok (u, ())) hledger

end Commit

section Reachable
variable {D : Type} [DecidableEq D] (names : LifecycleNames) (schema : LedgerSchema D)

/-- The transactions that write to the ledger. -/
inductive LedgerCall where
  | record (state : RecordingState)
  | refresh (claimId : String) (status : ResultStatus) (verificationId provider : String) (availableAt : DateTime)
  | review (event : KnowledgeLifecycleEvent)

def LedgerCall.exec (t : EventTable D) : LedgerCall → Except (LedgerError D) (EventTable D × Unit)
  | record state => projectSnapshot names schema state t
  | refresh claimId status verificationId provider availableAt =>
    appendRefresh schema claimId status verificationId provider availableAt t
  | review event => appendClaimState schema event t

def writers : Machine (EventTable D) LedgerCall (Except (LedgerError D) Unit) :=
  ⟨fun t call => settle t (call.exec names schema t)⟩

variable {names schema}

theorem LedgerCall.sound (hfree : schema.CollisionFree) {t u : EventTable D} (hs : Sound schema t) (call : LedgerCall)
    (h : call.exec names schema t = .ok (u, ())) : Sound schema u := by
  cases call with
  | record state =>
    obtain ⟨existing, _, hrest⟩ := bind_eq_ok.mp h
    obtain ⟨pending, hpending, _⟩ := bind_eq_ok.mp hrest
    rw [LedgerCall.exec, projectSnapshot_eq hs hpending] at h
    cases hx : projectEvents schema (existingChains state t) (startTails state t) (sortedPending schema state pending) with
    | error e =>
      rw [hx] at h
      cases h
    | ok s =>
      rw [hx] at h
      cases h
      exact (projectEvents_ok (startTails_inStep state hs) hfree (sortedPending_ok hpending) hx).sound
  | refresh claimId status verificationId provider availableAt =>
    obtain ⟨prior, hprior, hx⟩ := bind_eq_ok.mp h
    rw [hs.listForClaim] at hprior
    cases hprior
    obtain ⟨_, _, _, hsound, _⟩ := appendBehind_cases hs hfree hx
    exact hsound
  | review event =>
    obtain ⟨prior, hprior, hx⟩ := bind_eq_ok.mp h
    rw [hs.listForClaim] at hprior
    cases hprior
    split at hx
    · cases hx
      exact hs
    · obtain ⟨_, _, _, hsound, _⟩ := appendBehind_cases hs hfree hx
      exact hsound

theorem writers_sound (hfree : schema.CollisionFree) (calls : List LedgerCall) :
    Sound schema ((writers names schema).run Table.empty calls) := by
  refine (writers names schema).run_invariant (fun t call hs => ?_) sound_empty calls
  change Sound schema (settle t (call.exec names schema t)).1
  cases hx : call.exec names schema t with
  | error e => exact hs
  | ok p => exact call.sound hfree hs hx

/-- On every reachable ledger a snapshot's events are projected once and for all exactly when
none of its new events comes right after the repetition of an older one. -/
theorem snapshot_projects_iff (hfree : schema.CollisionFree) (calls : List LedgerCall) (state : RecordingState)
    (hfits : ∀ pending, pendingEvents names schema state = .ok pending → ∀ event ∈ pending, Fits schema event) :
    Projects names schema state ((writers names schema).run Table.empty calls) ↔
      TailsInPlace names schema state ((writers names schema).run Table.empty calls) :=
  projects_iff (writers_sound hfree calls) hfree hfits

end Reachable

section Plain

def plainNames : LifecycleNames := ⟨fun identity => "le_" ++ identity.targetId, fun _ => by simp⟩

/-- One more run over the same source: the lifecycle clock is fixed by its query, the commit
time is not. -/
def rerunAt (minute : Int) (snapshotId : String) : RecordingState where
  claims := [{ claimId := "claim-1", subjectId := "600519", sourceSupportStatus := .supported }]
  occurrences :=
    [{ occurrenceId := "co_1"
       claimId := "claim-1"
       sourceArtifactId := "source-1"
       transcriptArtifactId := "transcript-1"
       semanticSegmentId := "segment-1"
       assertionLocatorHash := "locator-1"
       evidenceRefs := ["evidence-1"]
       times :=
        { ingestedAt := .ofUtc (seconds (60 * minute))
          extractionCompletedAt := .ofUtc (seconds (60 * minute))
          snapshotCommittedAt := .ofUtc (seconds (60 * minute))
          availableFrom := .ofUtc (seconds (60 * minute))
          dependencies := ⟨Int.le_refl _, Int.le_refl _⟩
          committed := by simp [sameMoment] } }]
  entries := []
  lifecycleTimestamp := .ofUtc (seconds 120)
  snapshotId
  codeSha := "c0ffee"
  manifestCodeSha := ""
  createdAt := .ofUtc (seconds (60 * minute))

/-- Two snapshots of the source: the first one puts its lifecycle event second. -/
def twoSnapshots : List LedgerCall := [.record (rerunAt 1 "snapshot-1"), .record (rerunAt 3 "snapshot-2")]

theorem third_snapshot_is_refused :
    ¬ Projects plainNames plainSchema (rerunAt 5 "snapshot-3") ((writers plainNames plainSchema).run Table.empty twoSnapshots) := by
  intro h
  have hok : (pendingEvents plainNames plainSchema (rerunAt 5 "snapshot-3")).toBool = true := by decide
  obtain ⟨pending, hpending⟩ := toBool_eq_true.mp hok
  obtain ⟨u, hu, _⟩ := h pending hpending
  have herror : projectSnapshot plainNames plainSchema (rerunAt 5 "snapshot-3")
      ((writers plainNames plainSchema).run Table.empty twoSnapshots) =
        .error (.valueError "claim state event previous_event_hash does not match chain tail") := by decide
  rw [herror] at hu
  cases hu

theorem snapshot_projects_after_two :
    Projects plainNames plainSchema (rerunAt 5 "snapshot-3") ((writers plainNames plainSchema).run Table.empty twoSnapshots) ↔
      TailsInPlace plainNames plainSchema (rerunAt 5 "snapshot-3")
        ((writers plainNames plainSchema).run Table.empty twoSnapshots) :=
  snapshot_projects_iff plainSchema_collisionFree twoSnapshots _ fun _ _ _ _ _ => rfl

end Plain
end StockContent.Ledger
