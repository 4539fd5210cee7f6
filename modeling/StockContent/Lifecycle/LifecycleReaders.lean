import StockContent.Lifecycle.ClaimMirror

/-! The lifecycle that a projection shows and the lifecycle that the ledger selects: the one
goes by the order of recording, the other by effective time. -/
namespace StockContent.Lifecycle
open Storage Verification Occurrence Ledger

/-- The status and the artifact of the lifecycle that a projection reports. -/
def shownLifecycle (projected : Option Fields) : Option (String × String) := do
  let state ← projected
  match Json.lookup state "lifecycle_as_of" with
  | some (.obj asOf) => match Json.lookup asOf "status", Json.lookup asOf "artifact_id" with
    | some (.str status), some (.str artifactId) => some (status, artifactId)
    | _, _ => none
  | _ => none

def reported (event : KnowledgeLifecycleEvent) : String × String := (event.toStatus, event.lifecycleEventId)

/-- What a projection makes of a lifecycle event: one without a status is a gap. -/
def reportable (event : KnowledgeLifecycleEvent) : Option (String × String) :=
  if event.toStatus = "" then none else some (reported event)

/-- The candidate that was recorded last names a status and is greatest in the order of selection. -/
def LastSelected (candidates : List KnowledgeLifecycleEvent) : Prop :=
  ∀ last, candidates.getLast? = some last → last.toStatus ≠ "" ∧ ∀ other ∈ candidates, sortKey other ≤ sortKey last

section Shown
variable {D : Type} (texts : ProjectionTexts D)

/-- No event of the system has a lifecycle in its payload. -/
theorem lookup_lifecycle_as_of (writer : SystemEvent) (previous : Option D) :
    Json.lookup (writer.fields previous).payload.reverse "lifecycle_as_of" = none := by
  cases writer with
  | initial state => rfl
  | refresh claimId status verificationId provider availableAt => rfl
  | lifecycle claimId toStatus lifecycleEventId recordedAt effectiveAt => rfl

theorem folded_lifecycle_as_of {visible : List (ClaimStateEvent D)} (claimId : String) (contentSnapshotId : Option String)
    (hw : ∀ event ∈ visible, ∃ writer : SystemEvent, writer.Writes event) :
    Json.lookup (folded texts claimId contentSnapshotId visible) "lifecycle_as_of" = none := by
  have hnone : (visible.reverse.findSome? fun event => Json.lookup event.payload.reverse "lifecycle_as_of") = none := by
    refine List.findSome?_eq_none_iff.mpr fun event he => ?_
    obtain ⟨writer, hwrites⟩ := hw event (List.mem_reverse.mp he)
    rw [congrArg EventFields.payload hwrites]
    exact lookup_lifecycle_as_of writer _
  rw [folded, lookup_merge_fold texts _ _ (by decide), hnone]
  cases contentSnapshotId <;> simp [initialState, Json.lookup_cons]

/-- A projection reports the last lifecycle event it sees, if there is one without a gap. -/
theorem shownLifecycle_projectVisible {visible : List (ClaimStateEvent D)} (claimId : String)
    (contentSnapshotId : Option String) (hw : ∀ event ∈ visible, ∃ writer : SystemEvent, writer.Writes event) :
    shownLifecycle (projectVisible texts claimId contentSnapshotId visible) =
      (lifecycleEvent visible).bind fun event =>
        (lifecycleAsOf texts event).bind fun (_, asOf) => shownLifecycle (some [("lifecycle_as_of", .obj asOf)]) := by
  have hfold := folded_lifecycle_as_of texts claimId contentSnapshotId hw
  unfold projectVisible
  split
  · rename_i hempty
    rw [List.isEmpty_iff.mp hempty]
    rfl
  · cases hl : lifecycleEvent visible with
    | none => simp [shownLifecycle, sealed, Json.lookup_put, hfold]
    | some event =>
      cases ha : lifecycleAsOf texts event with
      | none => simp [ha, shownLifecycle, sealed, Json.lookup_put, hfold]
      | some asOf =>
        simp [ha, shownLifecycle, sealed, Json.lookup_put, Json.lookup_cons]

/-- What is shown of the mirror of an event. -/
theorem shown_mirror {item : ClaimStateEvent D} {event : KnowledgeLifecycleEvent} (named : event.lifecycleEventId ≠ "")
    (h : unplaced item.toEventFields = (mirrorOf event).fields none) :
    ((lifecycleAsOf texts item).bind fun (_, asOf) => shownLifecycle (some [("lifecycle_as_of", .obj asOf)])) =
      reportable event := by
  have hpayload : item.payload = [("status", .str event.toStatus), ("artifact_id", .str event.lifecycleEventId)] :=
    congrArg EventFields.payload h
  have hknown : item.knownFrom = some event.recordedAt := congrArg EventFields.knownFrom h
  have hstatus : firstOf item.payload "status" "to_status" =
      if event.toStatus = "" then none else some (.str event.toStatus) := by
    rw [hpayload]
    by_cases hs : event.toStatus = "" <;> simp [firstOf, Json.lookup_cons, truthy, hs]
  have hartifact : firstOf item.payload "artifact_id" "lifecycle_artifact_id" = some (.str event.lifecycleEventId) := by
    simp [hpayload, firstOf, Json.lookup_cons, truthy, named]
  unfold lifecycleAsOf reportable
  rw [hstatus, hartifact, hknown]
  by_cases hs : event.toStatus = ""
  · simp [hs]
  · simp [hs, shownLifecycle, Json.lookup_cons, ProjectionTexts.str, reported]

end Shown

section Readers
variable {D : Type}

/-- The mirror of a stored event is visible when the event is a candidate. -/
theorem visibleAt_mirror (row : LifecycleEventLedgerRow) {instants : QueryClocks Time}
    (hclocks : instants.knowledgeAsOf ≤ instants.availabilityAsOf) :
    ((mirrorOf row.event).fields (none : Option D)).visibleAt instants =
      (decide (row.effectiveAt ≤ instants.businessAsOf) && decide (row.recordedAt ≤ instants.knowledgeAsOf)) := by
  have hvisible : ((mirrorOf row.event).fields (none : Option D)).visibleAt instants =
      (decide (row.recordedAt ≤ instants.knowledgeAsOf) && decide (row.recordedAt ≤ instants.availabilityAsOf) &&
        decide (row.effectiveAt ≤ instants.businessAsOf)) := by
    simp [mirrorOf, SystemEvent.fields, EventFields.visibleAt, LifecycleEventLedgerRow.event]
  rw [hvisible, Bool.eq_iff_iff]
  simp only [Bool.and_eq_true, decide_eq_true_eq]
  constructor
  · rintro ⟨⟨hknown, _⟩, heffective⟩
    exact ⟨heffective, hknown⟩
  · rintro ⟨heffective, hknown⟩
    exact ⟨⟨hknown, hknown.trans hclocks⟩, heffective⟩

/-- The mirrors that a query sees are those of the candidates of the ledger. -/
theorem Mirrored.visible {schema : LedgerSchema D} {s : Stores D} (hm : Mirrored schema s) (claimId : String)
    {instants : QueryClocks Time} (hclocks : instants.knowledgeAsOf ≤ instants.availabilityAsOf) :
    ((lifecycleOf claimId s.ledger).filter (·.visibleAt instants)).map (fun item => unplaced item.toEventFields) =
      (candidatesAsOf .claim claimId instants.businessAsOf instants.knowledgeAsOf
        (eventsOf .claim claimId s.lifecycle)).map fun event => (mirrorOf event).fields none := by
  have hleft := List.filter_map (p := fun fields : EventFields DateTime D => fields.visibleAt instants)
    (f := fun item : ClaimStateEvent D => unplaced item.toEventFields) (l := lifecycleOf claimId s.ledger)
  refine hleft.symm.trans ?_
  rw [hm.mirrored, List.filter_map, candidatesAsOf]
  congr 1
  refine List.filter_congr fun event he => ?_
  obtain ⟨row, hrow, rfl⟩ := List.mem_map.mp he
  have htarget : row.targetType = .claim ∧ row.targetId = claimId := by simpa using (List.mem_filter.mp hrow).2
  rw [Function.comp_apply, visibleAt_mirror row hclocks]
  simp [LifecycleEventLedgerRow.event, htarget]

/-- The last lifecycle event a query sees is the mirror of the candidate recorded last. -/
theorem Mirrored.shown {schema : LedgerSchema D} {s : Stores D} (hm : Mirrored schema s) (texts : ProjectionTexts D)
    (claimId : String) (contentSnapshotId : Option String) {instants : QueryClocks Time}
    (hclocks : instants.knowledgeAsOf ≤ instants.availabilityAsOf) :
    shownLifecycle (projectVisible texts claimId contentSnapshotId
        ((chain claimId s.ledger).filter (·.visibleAt instants))) =
      (candidatesAsOf .claim claimId instants.businessAsOf instants.knowledgeAsOf
        (eventsOf .claim claimId s.lifecycle)).getLast?.bind reportable := by
  have hw : ∀ event ∈ (chain claimId s.ledger).filter (·.visibleAt instants),
      ∃ writer : SystemEvent, writer.Writes event := fun event he => hm.written claimId event (List.mem_of_mem_filter he)
  have hlast := congrArg List.getLast? (hm.visible claimId hclocks)
  rw [List.getLast?_map, List.getLast?_map] at hlast
  have hevent : lifecycleEvent ((chain claimId s.ledger).filter (·.visibleAt instants)) =
      ((lifecycleOf claimId s.ledger).filter (·.visibleAt instants)).getLast? := by
    rw [lifecycleEvent, lifecycleOf, List.filter_comm]
  rw [shownLifecycle_projectVisible texts claimId contentSnapshotId hw, hevent]
  cases hitem : ((lifecycleOf claimId s.ledger).filter (·.visibleAt instants)).getLast? with
  | none =>
    rw [hitem, Option.map_none] at hlast
    rw [Option.map_eq_none_iff.mp hlast.symm]
    rfl
  | some item =>
    rw [hitem, Option.map_some] at hlast
    obtain ⟨event, hcandidate, hsame⟩ := Option.map_eq_some_iff.mp hlast.symm
    have hstored := List.mem_of_mem_filter (List.mem_of_getLast? hcandidate)
    obtain ⟨row, hrow, rfl⟩ := List.mem_map.mp hstored
    rw [hcandidate]
    exact shown_mirror texts (hm.claims row (List.mem_of_mem_filter hrow)).2 hsame.symm

/-- What the candidate recorded last reports is what is selected exactly when it is the
greatest: an event that took effect earlier can be recorded later. -/
theorem reportable_last_iff {candidates : List KnowledgeLifecycleEvent}
    (hn : (candidates.map (·.lifecycleEventId)).Nodup) :
    candidates.getLast?.bind reportable = (candidates.argmax sortKey).map reported ↔ LastSelected candidates := by
  cases hlast : candidates.getLast? with
  | none =>
    rw [List.getLast?_eq_none_iff.mp hlast]
    simp [LastSelected]
  | some last =>
    have hmem := List.mem_of_getLast? hlast
    have hiff := argmax_sortKey_iff hn hmem
    unfold LastSelected
    simp only [hlast, Option.some.injEq, forall_eq', Option.bind_some, reportable]
    constructor
    · intro h
      obtain ⟨best, hbest⟩ : ∃ best, candidates.argmax sortKey = some best := by
        refine Option.ne_none_iff_exists'.mp fun hnone => ?_
        exact List.ne_nil_of_mem hmem (List.argmax_eq_none.mp hnone)
      rw [hbest, Option.map_some] at h
      split at h
      · cases h
      · rename_i hs
        have hid : last.lifecycleEventId = best.lifecycleEventId := congrArg Prod.snd (Option.some.inj h)
        rw [← List.inj_on_of_nodup_map hn hmem (List.argmax_mem hbest) hid] at hbest
        exact ⟨hs, hiff.mp hbest⟩
    · rintro ⟨hs, hgreatest⟩
      rw [if_neg hs, hiff.mpr hgreatest, Option.map_some]

theorem nodup_eventsOf (targetType : LifecycleTargetType) (targetId : String) (t : LifecycleTable) :
    ((eventsOf targetType targetId t).map (·.lifecycleEventId)).Nodup := by
  rw [eventsOf, List.map_map]
  exact t.unique.sublist (List.filter_sublist.map _)

variable [DecidableEq D] {schema : LedgerSchema D} {texts : ProjectionTexts D} {s : Stores D}

/-- A projection reports the lifecycle event that the ledger selects for the same clocks. -/
def ReadersAgree (schema : LedgerSchema D) (texts : ProjectionTexts D) (projector : HistoricalClaimProjector D)
    (claimId : String) (clocks : QueryClocks DateTime) (contentSnapshotId : Option String) (t : LifecycleTable) : Prop :=
  ∃ projected selected, projector.project schema.toEventDigests texts claimId clocks contentSnapshotId = .ok projected ∧
    selectAsOf .claim claimId clocks.businessAsOf clocks.knowledgeAsOf t = .ok selected ∧
    shownLifecycle projected = selected.map reported

omit [DecidableEq D] in
theorem selectAsOf_admitted {projector : HistoricalClaimProjector D} {claimId : String} {clocks : QueryClocks DateTime}
    {contentSnapshotId : Option String} {instants : QueryClocks Time}
    (h : projector.Admits claimId clocks contentSnapshotId instants) (t : LifecycleTable) :
    selectAsOf .claim claimId clocks.businessAsOf clocks.knowledgeAsOf t =
      .ok ((candidatesAsOf .claim claimId instants.businessAsOf instants.knowledgeAsOf
        (eventsOf .claim claimId t)).argmax sortKey) := by
  obtain ⟨rfl, hbusiness, hknowledge, _⟩ := requireUtcClocks_eq_ok h.clocks
  simp [selectAsOf, selectLifecycleEvent, hbusiness, hknowledge]

/-- The two readers of a claim's lifecycle agree exactly when the candidate that was recorded
last is also the one that took effect last. -/
theorem lifecycle_readers_agree_iff (hfree : schema.CollisionFree) {entries : List Entry}
    (h : recordAll schema ⟨Table.empty, Table.empty⟩ entries = .ok s) {projector : HistoricalClaimProjector D}
    {claimId : String} {clocks : QueryClocks DateTime} {contentSnapshotId : Option String} {instants : QueryClocks Time}
    (hadmits : projector.Admits claimId clocks contentSnapshotId instants)
    (hsupply : projector.supply claimId = listForClaim schema claimId s.ledger)
    (hclocks : instants.knowledgeAsOf ≤ instants.availabilityAsOf) :
    ReadersAgree schema texts projector claimId clocks contentSnapshotId s.lifecycle ↔
      LastSelected (candidatesAsOf .claim claimId instants.businessAsOf instants.knowledgeAsOf
        (eventsOf .claim claimId s.lifecycle)) := by
  have hm : Mirrored schema s := mirrored_empty.of_recordAll hfree h
  have hevents : projector.eventsFor schema.toEventDigests claimId = .ok (chain claimId s.ledger) := by
    refine (HistoricalClaimProjector.eventsFor_eq_ok _).mpr
      ⟨_, hsupply.trans (hm.sound.listForClaim claimId), .refl _, hm.sound.chained claimId⟩
  have hlegacy : ∀ event ∈ chain claimId s.ledger, event.legacyHistoryIncomplete = false := by
    intro event he
    obtain ⟨writer, hwrites⟩ := hm.written claimId event he
    exact (congrArg EventFields.legacyHistoryIncomplete hwrites).trans (writer.fields_legacy _)
  have hn : ((candidatesAsOf .claim claimId instants.businessAsOf instants.knowledgeAsOf
      (eventsOf .claim claimId s.lifecycle)).map (·.lifecycleEventId)).Nodup :=
    (nodup_eventsOf .claim claimId s.lifecycle).sublist (List.filter_sublist.map _)
  rw [← reportable_last_iff hn, ← hm.shown texts claimId contentSnapshotId hclocks]
  unfold ReadersAgree
  rw [HistoricalClaimProjector.project_admitted _ texts hadmits hevents hlegacy, selectAsOf_admitted hadmits]
  simp

end Readers

section Plain

def lifecycleEntry (toStatus lifecycleEventId : String) (effectiveAt recordedAt : Int) : KnowledgeLifecycleEvent where
  targetType := .claim
  targetId := "claim-1"
  toStatus
  effectiveAt := .ofUtc (seconds effectiveAt)
  recordedAt := .ofUtc (seconds recordedAt)
  reasonCode := "CORRECTION"
  policyVersion := "lifecycle.v1"
  lifecycleEventId

/-- A claim is active from the second hour on; later it turns out that it was withdrawn in
the first. -/
def lateWithdrawal : List Entry :=
  [.lifecycle (lifecycleEntry "ACTIVE" "le_1" 7200 7200) rfl (by decide),
    .lifecycle (lifecycleEntry "WITHDRAWN" "le_2" 3600 10800) rfl (by decide)]

def afterwards : QueryClocks DateTime := ⟨.ofUtc (seconds 14400), .ofUtc (seconds 14400), .ofUtc (seconds 14400)⟩

def afterwardsInstants : QueryClocks Time := ⟨seconds 14400, seconds 14400, seconds 14400⟩

def ledgerReader (t : EventTable Json) : HistoricalClaimProjector Json :=
  { eventLoader := some fun claimId => listForClaim plainSchema claimId t }

/-- What the two readers say. -/
def readings (s : Stores Json) : Option (String × String) × Option (String × String) :=
  (((ledgerReader s.ledger).project plainSchema.toEventDigests plainTexts "claim-1" afterwards none).toOption.bind
      shownLifecycle,
    (selectAsOf .claim "claim-1" afterwards.businessAsOf afterwards.knowledgeAsOf s.lifecycle).toOption.bind
      (Option.map reported))

theorem late_withdrawal_splits_readers :
    ¬ ∀ s, recordAll plainSchema ⟨Table.empty, Table.empty⟩ lateWithdrawal = .ok s →
      ReadersAgree plainSchema plainTexts (ledgerReader s.ledger) "claim-1" afterwards none s.lifecycle := by
  intro h
  have hread : (recordAll plainSchema ⟨Table.empty, Table.empty⟩ lateWithdrawal).toOption.map readings =
      some (some ("WITHDRAWN", "le_2"), some ("ACTIVE", "le_1")) := by decide
  obtain ⟨s, hs, hreadings⟩ := Option.map_eq_some_iff.mp hread
  obtain ⟨projected, selected, hprojected, hselected, hsame⟩ := h s (toOption_eq_some.mp hs)
  have hpair : readings s = (selected.map reported, selected.map reported) := by
    simp only [readings, hprojected, hselected, Except.toOption, Option.bind_some, hsame]
  have hparts := hpair.symm.trans hreadings
  have hboth := (congrArg Prod.fst hparts).symm.trans (congrArg Prod.snd hparts)
  exact absurd hboth (by decide)

theorem readers_agree_after_activation :
    ∃ s, recordAll plainSchema ⟨Table.empty, Table.empty⟩ (lateWithdrawal.take 1) = .ok s ∧
      (ReadersAgree plainSchema plainTexts (ledgerReader s.ledger) "claim-1" afterwards none s.lifecycle ↔
        LastSelected (candidatesAsOf .claim "claim-1" afterwardsInstants.businessAsOf afterwardsInstants.knowledgeAsOf
          (eventsOf .claim "claim-1" s.lifecycle))) := by
  have hok : (recordAll plainSchema ⟨Table.empty, Table.empty⟩ (lateWithdrawal.take 1)).toBool = true := by decide
  obtain ⟨s, hs⟩ := toBool_eq_true.mp hok
  exact ⟨s, hs, lifecycle_readers_agree_iff plainSchema_collisionFree hs ⟨rfl, rfl, rfl⟩ rfl (Int.le_refl _)⟩

end Plain
end StockContent.Lifecycle
