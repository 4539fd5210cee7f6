import StockContent.Lifecycle.LifecycleReaders
import StockContent.Lifecycle.OutcomeReview

/-! Runs of outcome reviews: the event of a review and its mirror are two writes, and the
second one asks for UTC where the first one does not. -/
namespace StockContent.Lifecycle
open Storage Verification Occurrence Ledger

section Reviewed
variable {D : Type}

def reviewEvent (event : KnowledgeLifecycleEvent) : Bool := event.toStatus = "OUTCOME_REVIEW"

/-- The mirror of a review in a claim's state stream. -/
def reviewMirror (item : ClaimStateEvent D) : Bool :=
  item.eventType = "LIFECYCLE" && Json.lookup item.payload "status" = some (.str "OUTCOME_REVIEW")

/-- The lifecycle ledger holds a review of a claim exactly when the claim's state stream holds its mirror. -/
def ReviewsMirrored (s : Stores D) : Prop :=
  ∀ claimId lifecycleEventId,
    (∃ event ∈ eventsOf .claim claimId s.lifecycle,
        reviewEvent event = true ∧ event.lifecycleEventId = lifecycleEventId) ↔
      ∃ item ∈ chain claimId s.ledger, reviewMirror item = true ∧
        Json.lookup item.payload "artifact_id" = some (.str lifecycleEventId)

/-- A run from `s` to `s'` has added one review of a claim at most. -/
def OneReviewAtMost (s s' : Stores D) : Prop :=
  ∀ claimId,
    (eventsOf .claim claimId s'.lifecycle).countP reviewEvent ≤
        (eventsOf .claim claimId s.lifecycle).countP reviewEvent + 1 ∧
      (chain claimId s'.ledger).countP reviewMirror ≤ (chain claimId s.ledger).countP reviewMirror + 1

/-- A review mirror as a predicate on what the event says. -/
def saysReview (fields : EventFields DateTime D) : Bool :=
  fields.eventType = "LIFECYCLE" && Json.lookup fields.payload "status" = some (.str "OUTCOME_REVIEW")

theorem saysReview_mirror (event : KnowledgeLifecycleEvent) :
    saysReview ((mirrorOf event).fields (none : Option D)) = reviewEvent event := by
  simp [saysReview, mirrorOf, SystemEvent.fields, Json.lookup, reviewEvent]

theorem lifecycleType_of_reviewMirror {item : ClaimStateEvent D} (h : reviewMirror item = true) :
    lifecycleType item.eventType = true := by
  have htype : item.eventType = "LIFECYCLE" := of_decide_eq_true (Bool.and_eq_true_iff.mp h).1
  rw [htype]
  exact (by decide : lifecycleType "LIFECYCLE" = true)

variable {schema : LedgerSchema D} {s : Stores D}

/-- Mirrored stores hold as many reviews as mirrors of reviews. -/
theorem Mirrored.countP_reviews (hm : Mirrored schema s) (claimId : String) :
    (chain claimId s.ledger).countP reviewMirror = (eventsOf .claim claimId s.lifecycle).countP reviewEvent := by
  have hlife : (chain claimId s.ledger).countP reviewMirror = (lifecycleOf claimId s.ledger).countP reviewMirror := by
    rw [lifecycleOf, List.countP_filter]
    refine List.countP_congr fun item _ => ?_
    simp only [Bool.and_eq_true]
    exact ⟨fun h => ⟨h, lifecycleType_of_reviewMirror h⟩, fun h => h.1⟩
  have hmap := congrArg (List.countP saysReview) (hm.mirrored claimId)
  rw [List.countP_map, List.countP_map] at hmap
  rw [hlife]
  refine (hmap.trans ?_)
  exact List.countP_congr fun event _ => by simp [saysReview_mirror]

theorem Mirrored.reviewsMirrored (hm : Mirrored schema s) : ReviewsMirrored s := by
  intro claimId lifecycleEventId
  constructor
  · rintro ⟨event, hevent, hreview, hid⟩
    have hfields : (mirrorOf event).fields none ∈
        (lifecycleOf claimId s.ledger).map (fun item => unplaced item.toEventFields) := by
      rw [hm.mirrored]
      exact List.mem_map_of_mem hevent
    obtain ⟨item, hitem, hsame⟩ := List.mem_map.mp hfields
    refine ⟨item, List.mem_of_mem_filter hitem, ?_, ?_⟩
    · rw [← hreview, ← saysReview_mirror (D := D), ← hsame]
      rfl
    · have hpayload : item.payload = [("status", .str event.toStatus), ("artifact_id", .str event.lifecycleEventId)] :=
        congrArg EventFields.payload hsame
      rw [hpayload]
      simp [Json.lookup, hid]
  · rintro ⟨item, hitem, hreview, hid⟩
    have hlife : item ∈ lifecycleOf claimId s.ledger :=
      List.mem_filter.mpr ⟨hitem, lifecycleType_of_reviewMirror hreview⟩
    have hfields : unplaced item.toEventFields ∈
        (eventsOf .claim claimId s.lifecycle).map (fun event => (mirrorOf event).fields (none : Option D)) := by
      rw [← hm.mirrored]
      exact List.mem_map_of_mem hlife
    obtain ⟨event, hevent, hsame⟩ := List.mem_map.mp hfields
    refine ⟨event, hevent, ?_, ?_⟩
    · rw [← saysReview_mirror (D := D), hsame]
      exact hreview
    · have hpayload : [("status", .str event.toStatus), ("artifact_id", .str event.lifecycleEventId)] = item.payload :=
        congrArg EventFields.payload hsame
      rw [← hpayload] at hid
      simpa [Json.lookup] using hid

end Reviewed

section Calls
variable {D : Type} [DecidableEq D] {schema : LedgerSchema D} {service : ForecastOutcomeReview} {s : Stores D}

omit [DecidableEq D] in
/-- A review that is due is named by the claim and its target, whenever it is asked for. -/
theorem dueReview_due {call : ReviewCall} {t : LifecycleTable} {event : KnowledgeLifecycleEvent}
    (h : service.dueReview (D := D) call t = .ok (.inr event)) :
    ∃ claim targetEnd, service.claims call.claimId = some claim ∧
      service.selectTargetEnd (D := D) (forecastTargetBindings claim) = .ok (some targetEnd) ∧
      event = service.names.event (service.reviewIdentity claim targetEnd)
        (call.recordedAt.getD call.evaluationTime) := by
  unfold ForecastOutcomeReview.dueReview at h
  split at h
  · cases h
  rename_i claim hclaim
  split at h
  · cases h
  obtain ⟨target, htarget, h⟩ := bind_eq_ok.mp h
  cases target with
  | none => cases h
  | some targetEnd =>
    simp only at h
    split at h
    · cases h
    obtain ⟨current, _, h⟩ := bind_eq_ok.mp h
    cases current with
    | none => cases h
    | some current =>
      simp only at h
      split at h
      · cases h
      split at h
      · cases h
      cases h
      exact ⟨claim, targetEnd, hclaim, htarget, rfl⟩

omit [DecidableEq D] in
theorem dueReview_target {call : ReviewCall} {t : LifecycleTable} {event : KnowledgeLifecycleEvent}
    (h : service.dueReview (D := D) call t = .ok (.inr event)) :
    event.targetType = .claim ∧ event.targetId = call.claimId ∧ event.targetId ≠ "" ∧ event.lifecycleEventId ≠ "" ∧
      event.toStatus = "OUTCOME_REVIEW" := by
  obtain ⟨claim, targetEnd, hclaim, _, rfl⟩ := dueReview_due h
  exact ⟨rfl, service.keyed _ _ hclaim, claim.named, service.names.nonempty _, rfl⟩

omit [DecidableEq D] in
/-- Two reviews of a claim are the same event. -/
theorem dueReview_id {call call' : ReviewCall} {t t' : LifecycleTable} {event event' : KnowledgeLifecycleEvent}
    (h : service.dueReview (D := D) call t = .ok (.inr event)) (h' : service.dueReview (D := D) call' t' = .ok (.inr event'))
    (hsame : call'.claimId = call.claimId) : event'.lifecycleEventId = event.lifecycleEventId := by
  obtain ⟨claim, targetEnd, hclaim, htarget, rfl⟩ := dueReview_due h
  obtain ⟨claim', targetEnd', hclaim', htarget', rfl⟩ := dueReview_due h'
  rw [hsame, hclaim] at hclaim'
  cases hclaim'
  rw [htarget] at htarget'
  cases htarget'
  rfl

omit [DecidableEq D] in
/-- A mirror is a valid event when both instants of the lifecycle event are UTC. -/
theorem mirror_valid_iff {event : KnowledgeLifecycleEvent} (htarget : event.targetId ≠ "") (previous : Option D) :
    ((mirrorOf event).fields previous).Valid ↔ event.effectiveAt.offset = some 0 ∧ event.recordedAt.offset = some 0 := by
  have htimes : (∀ time ∈ ((mirrorOf event).fields previous).times, time.2.all (·.offset = some 0) = true) ↔
      event.effectiveAt.offset = some 0 ∧ event.recordedAt.offset = some 0 := by
    simp [mirrorOf, SystemEvent.fields, EventFields.times, and_comm]
  rw [← htimes]
  constructor
  · exact fun h => h.utc
  · intro h
    refine ⟨?_, ?_, h, ?_, ?_⟩
    · simp [mirrorOf, SystemEvent.fields, htarget]
    · simp [mirrorOf, SystemEvent.fields]
    · rfl
    · rfl

/-- A new event of the lifecycle ledger can be mirrored exactly when its instants are UTC. -/
theorem Mirrored.mirror_succeeds_iff (hm : Mirrored schema s) (hfree : schema.CollisionFree)
    {event : KnowledgeLifecycleEvent} (htarget : event.targetId ≠ "") (hfits : Accommodates schema (mirrorOf event))
    (hget : s.lifecycle.get event.lifecycleEventId = none) :
    (∃ u, appendClaimState schema event s.ledger = .ok (u, ())) ↔
      event.effectiveAt.offset = some 0 ∧ event.recordedAt.offset = some 0 := by
  have hnone : (chain event.targetId s.ledger).any (mirrors event) = false := by
    rw [Bool.eq_false_iff]
    intro hany
    obtain ⟨item, hitem, hmirrors⟩ := List.any_eq_true.mp hany
    simp only [mirrors, Bool.and_eq_true, decide_eq_true_eq] at hmirrors
    exact hm.recorded hitem hmirrors.1.1 hmirrors.1.2 hget
  have hread : appendClaimState schema event s.ledger =
      appendBehind schema (mirrorOf event) (chain (mirrorOf event).claimId s.ledger) s.ledger := by
    rw [appendClaimState, hm.sound.listForClaim]
    change (if (chain event.targetId s.ledger).any (mirrors event) = true then _ else _) = _
    rw [hnone]
    rfl
  rw [hread, appendBehind_succeeds_iff hm.sound hfree hfits]
  exact ⟨fun h => (mirror_valid_iff htarget none).mp (h none), fun h previous => (mirror_valid_iff htarget previous).mpr h⟩

omit [DecidableEq D] in
@[simp] theorem row_event_row (row : LifecycleEventLedgerRow) : row.event.row = row := by
  simp [LifecycleEventLedgerRow.event, KnowledgeLifecycleEvent.row]

/-- A stored event is mirrored already: reading it back and mirroring it again writes nothing. -/
theorem Mirrored.mirror_stored (hm : Mirrored schema s) {lifecycleEventId : String} {stored : KnowledgeLifecycleEvent}
    (hget : get lifecycleEventId s.lifecycle = some stored) (result : ForecastOutcomeReviewResult) :
    ForecastOutcomeReview.mirrorReview schema stored result s = (s, .ok result) := by
  obtain ⟨row, hrow, rfl⟩ := Option.map_eq_some_iff.mp hget
  have hmem := Table.mem_of_get hrow
  have hrow : row.event.row ∈ s.lifecycle.rows := by simpa using hmem
  have hany := hm.any_mirrors (hm.claims row hmem).1 hrow rfl
  have hsame : appendClaimState schema row.event s.ledger = .ok (s.ledger, ()) := by
    rw [appendClaimState, hm.sound.listForClaim]
    exact if_pos hany
  rw [ForecastOutcomeReview.mirrorReview, hsame]

theorem append_new_row {event : KnowledgeLifecycleEvent} {t : LifecycleTable}
    (hget : t.get event.lifecycleEventId = none) :
    ∃ u, append event t = .ok (u, event) ∧ u.rows = t.rows ++ [event.row] := by
  obtain ⟨u, hu⟩ : ∃ u, t.insert event.row = some u :=
    Option.ne_none_iff_exists'.mp fun h => Table.insert_eq_none.mp h hget
  refine ⟨u, ?_, (Table.insert_eq_some hu).2⟩
  unfold append
  rw [hget]
  simp only [hu]

/-- What a call records: the event that is due, unless it is stored. -/
def Records (service : ForecastOutcomeReview) (s : Stores D) (call : ReviewCall) (event : KnowledgeLifecycleEvent) : Prop :=
  service.dueReview (D := D) call s.lifecycle = .ok (.inr event) ∧ s.lifecycle.get event.lifecycleEventId = none

/-- A call that records nothing ends where it is, or reads a stored event and mirrors it. -/
theorem step_cases (call : ReviewCall) :
    ((∀ event, ¬ Records service s call event) ∧
        ((service.reviews schema).step s call = s ∨ ∃ lifecycleEventId stored result,
          get lifecycleEventId s.lifecycle = some stored ∧ (service.reviews schema).step s call =
            (ForecastOutcomeReview.mirrorReview schema stored result s).1)) ∨
      ∃ event lifecycle result, Records service s call event ∧ append event s.lifecycle = .ok (lifecycle, event) ∧
        lifecycle.rows = s.lifecycle.rows ++ [event.row] ∧ (service.reviews schema).step s call =
          (ForecastOutcomeReview.mirrorReview schema event result { s with lifecycle }).1 := by
  have hstep : (service.reviews schema).step s call = (service.reviewClaim schema call s).1 := rfl
  rw [hstep, ForecastOutcomeReview.reviewClaim]
  cases hdue : service.dueReview (D := D) call s.lifecycle with
  | error e => exact .inl ⟨fun event h => by simp [Records, hdue] at h, .inl rfl⟩
  | ok due =>
    cases due with
    | inl result => exact .inl ⟨fun event h => by simp [Records, hdue] at h, .inl rfl⟩
    | inr event =>
      cases hrow : s.lifecycle.get event.lifecycleEventId with
      | some row =>
        have hget : get event.lifecycleEventId s.lifecycle = some row.event := by rw [get, hrow]; rfl
        refine .inl ⟨fun event' hrecords => ?_, .inr ⟨event.lifecycleEventId, row.event,
          ⟨call.claimId, true, some row.event, "ALREADY_OUTCOME_REVIEW"⟩, hget, ?_⟩⟩
        · obtain ⟨hdue', hnone⟩ := hrecords
          rw [hdue] at hdue'
          cases hdue'
          rw [hrow] at hnone
          cases hnone
        · simp only [hget]
      | none =>
        have hget : get event.lifecycleEventId s.lifecycle = none := by rw [get, hrow]; rfl
        obtain ⟨lifecycle, happend, hrows⟩ := append_new_row hrow
        refine .inr ⟨event, lifecycle, ⟨call.claimId, true, some event, event.reasonCode⟩, ⟨hdue, hrow⟩, happend,
          hrows, ?_⟩
        simp only [hget, happend]

theorem mirrorReview_lifecycle (event : KnowledgeLifecycleEvent) (result : ForecastOutcomeReviewResult) (s : Stores D) :
    (ForecastOutcomeReview.mirrorReview schema event result s).1.lifecycle = s.lifecycle := by
  unfold ForecastOutcomeReview.mirrorReview
  split <;> rfl

/-- Whatever becomes of the mirror, the lifecycle ledger keeps what a call records. -/
theorem step_lifecycle (call : ReviewCall) :
    ((service.reviews schema).step s call).lifecycle = s.lifecycle ∨ ∃ event, Records service s call event ∧
      ((service.reviews schema).step s call).lifecycle.rows = s.lifecycle.rows ++ [event.row] := by
  rcases @step_cases D _ schema service s call with
    ⟨_, hsame | ⟨_, stored, result, _, hsame⟩⟩ | ⟨event, lifecycle, result, hrecords, _, hrows, hsame⟩
  · exact .inl (congrArg Stores.lifecycle hsame)
  · rw [hsame]
    exact .inl (mirrorReview_lifecycle _ _ _)
  · rw [hsame, mirrorReview_lifecycle]
    exact .inr ⟨event, hrecords, hrows⟩

/-- The event that a call records has UTC instants. -/
def RecordsInUtc (service : ForecastOutcomeReview) (s : Stores D) (call : ReviewCall) : Prop :=
  ∀ event, Records service s call event → event.effectiveAt.offset = some 0 ∧ event.recordedAt.offset = some 0

/-- The state stream has room for the mirrors of the claims' reviews. -/
def AccommodatesReviews (schema : LedgerSchema D) (service : ForecastOutcomeReview) : Prop :=
  ∀ event : KnowledgeLifecycleEvent, service.claims event.targetId ≠ none → Accommodates schema (mirrorOf event)

theorem Mirrored.step (hm : Mirrored schema s) (hfree : schema.CollisionFree) (hfits : AccommodatesReviews schema service)
    {call : ReviewCall} (hutc : RecordsInUtc service s call) :
    Mirrored schema ((service.reviews schema).step s call) := by
  rcases @step_cases D _ schema service s call with
    ⟨_, hsame | ⟨_, stored, result, hget, hsame⟩⟩ | ⟨event, lifecycle, result, hrecords, happend, _, hsame⟩
  · rw [hsame]
    exact hm
  · rw [hsame, hm.mirror_stored hget]
    exact hm
  · obtain ⟨htype, hid, htarget, hnamed, _⟩ := dueReview_target hrecords.1
    have hclaim : service.claims event.targetId ≠ none := by
      obtain ⟨claim, _, hclaim, _⟩ := dueReview_due hrecords.1
      rw [hid, hclaim]
      exact nofun
    obtain ⟨u, hu⟩ := (hm.mirror_succeeds_iff hfree htarget (hfits event hclaim) hrecords.2).mpr (hutc event hrecords)
    rw [hsame, ForecastOutcomeReview.mirrorReview, hu]
    refine hm.record_lifecycle hfree htype hnamed ?_
    refine bind_eq_ok.mpr ⟨(lifecycle, event), mapError_eq_ok.mpr happend, bind_eq_ok.mpr ⟨(u, ()), ?_, rfl⟩⟩
    exact mapError_eq_ok.mpr hu

/-- A review whose instants are not UTC is recorded, and its mirror is not. -/
theorem Mirrored.reviewsMirrored_step_iff (hm : Mirrored schema s) (hfree : schema.CollisionFree)
    (hfits : AccommodatesReviews schema service) (call : ReviewCall) :
    ReviewsMirrored ((service.reviews schema).step s call) ↔ RecordsInUtc service s call := by
  constructor
  · intro hmirrored event hrecords
    obtain ⟨htype, hid, htarget, _, hstatus⟩ := dueReview_target hrecords.1
    have hclaim : service.claims event.targetId ≠ none := by
      obtain ⟨claim, _, hclaim, _⟩ := dueReview_due hrecords.1
      rw [hid, hclaim]
      exact nofun
    refine (hm.mirror_succeeds_iff hfree htarget (hfits event hclaim) hrecords.2).mp ?_
    cases hu : appendClaimState schema event s.ledger with
    | ok p => exact ⟨p.1, rfl⟩
    | error e =>
      obtain ⟨lifecycle, hrows, hstep⟩ : ∃ lifecycle : LifecycleTable, lifecycle.rows = s.lifecycle.rows ++ [event.row] ∧
          (service.reviews schema).step s call = { s with lifecycle } := by
        rcases @step_cases D _ schema service s call with
          ⟨hnone, _⟩ | ⟨event', lifecycle, result, hrecords', _, hrows, hsame⟩
        · exact absurd hrecords (hnone event)
        · have hevent := hrecords'.1.symm.trans hrecords.1
          cases hevent
          refine ⟨lifecycle, hrows, ?_⟩
          rw [hsame, ForecastOutcomeReview.mirrorReview, hu]
      have hstored : event.row.event ∈ eventsOf .claim event.targetId lifecycle := by
        have hrow : event.row.targetType = .claim ∧ event.row.targetId = event.targetId := ⟨htype, rfl⟩
        rw [eventsOf_append hrows, if_pos hrow]
        exact List.mem_append_right _ List.mem_cons_self
      rw [hstep] at hmirrored
      obtain ⟨item, hitem, hreview, hartifact⟩ :=
        (hmirrored event.targetId event.lifecycleEventId).mp ⟨_, hstored, decide_eq_true hstatus, rfl⟩
      have hitemtype : item.eventType = "LIFECYCLE" := of_decide_eq_true (Bool.and_eq_true_iff.mp hreview).1
      exact absurd hrecords.2 (hm.recorded hitem hitemtype hartifact)
  · exact fun hutc => (hm.step hfree hfits hutc).reviewsMirrored

end Calls

section Runs
variable {D : Type} [DecidableEq D] {schema : LedgerSchema D} {service : ForecastOutcomeReview} {s : Stores D}

/-- Reviews of a claim in the lifecycle ledger, compared with the start of a run: none was
added, or one, and that one is stored. -/
def AddedOnce (service : ForecastOutcomeReview) (claimId : String) (s s' : Stores D) : Prop :=
  (eventsOf .claim claimId s'.lifecycle).countP reviewEvent = (eventsOf .claim claimId s.lifecycle).countP reviewEvent ∨
    ((eventsOf .claim claimId s'.lifecycle).countP reviewEvent =
        (eventsOf .claim claimId s.lifecycle).countP reviewEvent + 1 ∧
      ∀ call t event, service.dueReview (D := D) call t = .ok (.inr event) → call.claimId = claimId →
        s'.lifecycle.get event.lifecycleEventId ≠ none)

theorem AddedOnce.step {claimId : String} {s' : Stores D} (h : AddedOnce service claimId s s') (call : ReviewCall) :
    AddedOnce service claimId s ((service.reviews schema).step s' call) := by
  rcases @step_lifecycle D _ schema service s' call with hsame | ⟨event, hrecords, hrows⟩
  · simpa only [AddedOnce, hsame] using h
  · obtain ⟨htype, hid, _, _, hstatus⟩ := dueReview_target hrecords.1
    have hreview : reviewEvent event.row.event = true := decide_eq_true hstatus
    have hget (lifecycleEventId : String) :
        ((service.reviews schema).step s' call).lifecycle.get lifecycleEventId = none ↔
          s'.lifecycle.get lifecycleEventId = none ∧ lifecycleEventId ≠ event.lifecycleEventId := by
      rw [Table.get_eq_none, Table.get_eq_none, hrows]
      simp [KnowledgeLifecycleEvent.row]
    have hevents : eventsOf .claim claimId ((service.reviews schema).step s' call).lifecycle =
        eventsOf .claim claimId s'.lifecycle ++ if call.claimId = claimId then [event.row.event] else [] := by
      have hrow : (event.row.targetType = .claim ∧ event.row.targetId = claimId) ↔ call.claimId = claimId := by
        rw [← hid]
        exact and_iff_right htype
      rw [eventsOf_append hrows]
      simp only [hrow]
    by_cases hc : call.claimId = claimId
    · rcases h with h | ⟨_, hstored⟩
      · refine .inr ⟨by simp [hevents, hc, hreview, h], fun call' t event' hdue hclaim hnone => ?_⟩
        exact ((hget _).mp hnone).2 (dueReview_id hrecords.1 hdue (hclaim.trans hc.symm))
      · exact absurd hrecords.2 (hstored call _ event hrecords.1 hc)
    · rcases h with h | ⟨hcount, hstored⟩
      · exact .inl (by simp [hevents, hc, h])
      · refine .inr ⟨by simp [hevents, hc, hcount], fun call' t event' hdue hclaim hnone => ?_⟩
        exact hstored call' t event' hdue hclaim ((hget _).mp hnone).1

/-- In a run of reviews the two stores agree on every claim's reviews, and no claim gets a second
one, exactly when every review that the run records has UTC instants. -/
theorem outcome_reviews_atomic_iff (hfree : schema.CollisionFree) (hfits : AccommodatesReviews schema service)
    {entries : List Entry} (h : recordAll schema ⟨Table.empty, Table.empty⟩ entries = .ok s) (calls : List ReviewCall) :
    ((service.reviews schema).Along (fun s call => ReviewsMirrored ((service.reviews schema).step s call)) s calls ∧
        OneReviewAtMost s ((service.reviews schema).run s calls)) ↔
      (service.reviews schema).Along (RecordsInUtc service) s calls := by
  have hm : Mirrored schema s := mirrored_empty.of_recordAll hfree h
  have halong := (service.reviews schema).along_congr (I := Mirrored schema)
    (fun _ call hs hmirrored => hs.step hfree hfits ((hs.reviewsMirrored_step_iff hfree hfits call).mp hmirrored))
    (fun _ call hs => hs.reviewsMirrored_step_iff hfree hfits call) hm calls
  constructor
  · exact fun h => halong.mp h.1
  · intro hutc
    refine ⟨halong.mpr hutc, fun claimId => ?_⟩
    have hend : Mirrored schema ((service.reviews schema).run s calls) :=
      (service.reviews schema).run_of_along (fun _ _ hs hp => hs.step hfree hfits hp) hm hutc
    have honce : AddedOnce service claimId s ((service.reviews schema).run s calls) :=
      (service.reviews schema).run_invariant (fun _ call hs => hs.step call) (.inl rfl) calls
    have hle : (eventsOf .claim claimId ((service.reviews schema).run s calls).lifecycle).countP reviewEvent ≤
        (eventsOf .claim claimId s.lifecycle).countP reviewEvent + 1 := by
      rcases honce with h | ⟨h, _⟩ <;> omega
    refine ⟨hle, ?_⟩
    rw [hend.countP_reviews, hm.countP_reviews]
    exact hle

end Runs

section Plain

/-- A forecast that is due at the end of the first day in Shanghai. -/
def shanghaiForecast : FinancialClaim where
  claimId := "claim-1"
  claimType := "FORECAST"
  temporalBindings :=
    [{ role := .forecastTarget, normalizationStatus := "NORMALIZED", endDate := some 0, timezone := some "Asia/Shanghai" }]
  named := by decide

def shanghaiReview : ForecastOutcomeReview where
  claims claimId := if claimId = "claim-1" then some shanghaiForecast else none
  zones name := if name = "Asia/Shanghai" then .found fun _ => seconds 28800 else .notFound
  names := ⟨fun identity => "le_" ++ identity.toStatus, fun identity => by simp⟩
  keyed claimId claim h := by
    split at h
    · rename_i hid
      cases h
      exact hid.symm
    · cases h

def activation : List Entry := [.lifecycle (lifecycleEntry "ACTIVE" "le_ACTIVE" 0 0) rfl (by decide)]

def secondDay : ReviewCall := { claimId := "claim-1", evaluationTime := .ofUtc (seconds 172800) }

theorem shanghai_review_is_not_mirrored : ¬ ∀ s, recordAll plainSchema ⟨Table.empty, Table.empty⟩ activation = .ok s →
    ReviewsMirrored ((shanghaiReview.reviews plainSchema).step s secondDay) := by
  intro h
  have hread : (recordAll plainSchema ⟨Table.empty, Table.empty⟩ activation).toOption.map (fun s =>
      let s := (shanghaiReview.reviews plainSchema).step s secondDay
      ((eventsOf .claim "claim-1" s.lifecycle).any reviewEvent, (chain "claim-1" s.ledger).any reviewMirror)) =
        some (true, false) := by decide
  obtain ⟨s, hs, hshown⟩ := Option.map_eq_some_iff.mp hread
  obtain ⟨hreviewed, hmirrored⟩ := Prod.mk.inj hshown
  obtain ⟨event, hevent, hreview⟩ := List.any_eq_true.mp hreviewed
  obtain ⟨item, hitem, hmirror, _⟩ :=
    (h s (toOption_eq_some.mp hs) "claim-1" event.lifecycleEventId).mp ⟨event, hevent, hreview, rfl⟩
  exact absurd (List.any_eq_true.mpr ⟨item, hitem, hmirror⟩) (ne_true_of_eq_false hmirrored)

theorem shanghai_reviews_atomic : ∃ s, recordAll plainSchema ⟨Table.empty, Table.empty⟩ activation = .ok s ∧
    (((shanghaiReview.reviews plainSchema).Along
          (fun s call => ReviewsMirrored ((shanghaiReview.reviews plainSchema).step s call)) s [secondDay, secondDay] ∧
        OneReviewAtMost s ((shanghaiReview.reviews plainSchema).run s [secondDay, secondDay])) ↔
      (shanghaiReview.reviews plainSchema).Along (RecordsInUtc shanghaiReview) s [secondDay, secondDay]) := by
  have hok : (recordAll plainSchema ⟨Table.empty, Table.empty⟩ activation).toBool = true := by decide
  obtain ⟨s, hs⟩ := toBool_eq_true.mp hok
  exact ⟨s, hs, outcome_reviews_atomic_iff plainSchema_collisionFree (fun _ _ _ => rfl) hs _⟩

end Plain
end StockContent.Lifecycle
