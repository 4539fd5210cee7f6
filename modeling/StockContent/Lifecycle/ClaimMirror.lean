import StockContent.Ledger.SystemWrites

/-! Two readers of a claim's lifecycle: the lifecycle ledger itself, and the mirror of its
events in the claim's state stream. -/
namespace StockContent.Lifecycle
open Storage Verification Occurrence Ledger

/-- The lifecycle ledger and the claim state ledger. -/
structure Stores (D : Type) where
  lifecycle : LifecycleTable
  ledger : EventTable D

inductive Entry where
  | lifecycle (event : KnowledgeLifecycleEvent) (target : event.targetType = .claim)
    (named : event.lifecycleEventId ≠ "")
  | verification (writer : SystemEvent) (kind : writer.verificationStatus ≠ none)

section Recording
variable {D : Type} [DecidableEq D] (schema : LedgerSchema D)

/-- Record a lifecycle event and mirror it, or write a verification event of the system. -/
def record (s : Stores D) : Entry → Except (LifecycleError ⊕ LedgerError D) (Stores D)
  | .lifecycle event _ _ => do
    let (lifecycle, _) ← (append event s.lifecycle).mapError .inl
    let (ledger, _) ← (appendClaimState schema event s.ledger).mapError .inr
    return { lifecycle, ledger }
  | .verification writer _ => do
    let prior ← (listForClaim schema writer.claimId s.ledger).mapError .inr
    let (ledger, _) ← (appendBehind schema writer prior s.ledger).mapError .inr
    return { s with ledger }

def recordAll : Stores D → List Entry → Except (LifecycleError ⊕ LedgerError D) (Stores D)
  | s, [] => .ok s
  | s, entry :: entries => do
    let s ← record schema s entry
    recordAll s entries

end Recording

section Mirrored
variable {D : Type}

def unplaced (fields : EventFields DateTime D) : EventFields DateTime D := { fields with previousEventHash := none }

/-- The lifecycle part of a claim's chain. -/
def lifecycleOf (claimId : String) (t : EventTable D) : List (ClaimStateEvent D) :=
  (chain claimId t).filter (lifecycleType ·.eventType)

/-- The state stream holds one lifecycle event for each recorded one, in the order of recording. -/
structure Mirrored (schema : LedgerSchema D) (s : Stores D) : Prop where
  sound : Sound schema s.ledger
  written : ∀ claimId, ∀ event ∈ chain claimId s.ledger, ∃ writer : SystemEvent, writer.Writes event
  mirrored : ∀ claimId, (lifecycleOf claimId s.ledger).map (fun event => unplaced event.toEventFields) =
    (eventsOf .claim claimId s.lifecycle).map fun event => (mirrorOf event).fields none
  claims : ∀ row ∈ s.lifecycle.rows, row.targetType = .claim ∧ row.lifecycleEventId ≠ ""

theorem mirrored_empty {schema : LedgerSchema D} : Mirrored schema ⟨Table.empty, Table.empty⟩ :=
  { sound := sound_empty, written := fun _ _ h => (nomatch h), mirrored := fun _ => rfl, claims := fun _ h => (nomatch h) }

theorem unplaced_fields (writer : SystemEvent) (previous : Option D) :
    unplaced (writer.fields previous) = writer.fields none := by cases writer <;> rfl

/-- Lifecycle events are told apart by their type. -/
theorem lifecycleType_fields (writer : SystemEvent) (previous : Option D) :
    lifecycleType (writer.fields previous).eventType = writer.verificationStatus.isNone := by
  cases writer with
  | initial state => exact (by decide : lifecycleType "VERIFICATION_INITIAL" = false)
  | refresh => exact (by decide : lifecycleType "VERIFICATION_REFRESH" = false)
  | lifecycle => exact (by decide : lifecycleType "LIFECYCLE" = true)

theorem canonical_mirror (toStatus lifecycleEventId : String) :
    Json.sortFields (Json.canonicalFields [("status", .str toStatus), ("artifact_id", .str lifecycleEventId)]) =
      [("artifact_id", .str lifecycleEventId), ("status", .str toStatus)] := by
  have horder : ¬ ("status" : String) ≤ "artifact_id" := by decide
  simp [Json.canonicalFields, Json.canonical, Json.sortFields, horder]

/-- A system event with the logical identity of a mirror is a mirror of the same event. -/
theorem mirrors_of_logicalIdentity {writer : SystemEvent} {item event : ClaimStateEvent D}
    {lifecycle : KnowledgeLifecycleEvent} (hw : writer.Writes item) (he : (mirrorOf lifecycle).Writes event)
    (hl : item.logicalIdentity = event.logicalIdentity) :
    item.eventType = "LIFECYCLE" ∧ Json.lookup item.payload "artifact_id" = some (.str lifecycle.lifecycleEventId) := by
  have htype : item.eventType = "LIFECYCLE" :=
    (congrArg EventFields.eventType hl).trans (congrArg EventFields.eventType he)
  refine ⟨htype, ?_⟩
  have hitem : item.payload = (writer.fields item.previousEventHash).payload := congrArg EventFields.payload hw
  have hevent : event.payload = [("status", .str lifecycle.toStatus), ("artifact_id", .str lifecycle.lifecycleEventId)] :=
    congrArg EventFields.payload he
  have hwtype : (writer.fields item.previousEventHash).eventType = "LIFECYCLE" :=
    (congrArg EventFields.eventType hw).symm.trans htype
  have hpayload : Json.sortFields (Json.canonicalFields item.payload) =
      Json.sortFields (Json.canonicalFields event.payload) := congrArg EventFields.payload hl
  rw [hevent, canonical_mirror] at hpayload
  cases writer with
  | initial state => exact absurd hwtype (by simp [SystemEvent.fields])
  | refresh => exact absurd hwtype (by simp [SystemEvent.fields])
  | lifecycle claimId toStatus lifecycleEventId recordedAt effectiveAt =>
    have hown : item.payload = [("status", .str toStatus), ("artifact_id", .str lifecycleEventId)] := hitem
    rw [hown, canonical_mirror] at hpayload
    simp only [List.cons.injEq, Prod.mk.injEq, Json.str.injEq, true_and] at hpayload
    rw [hown, hpayload.1]
    rfl

theorem append_eq_ok {event stored : KnowledgeLifecycleEvent} {t u : LifecycleTable}
    (h : append event t = .ok (u, stored)) :
    (u = t ∧ event.row ∈ t.rows) ∨ (t.get event.lifecycleEventId = none ∧ u.rows = t.rows ++ [event.row]) := by
  unfold append at h
  split at h
  · rename_i row hrow
    split at h
    · rename_i hsame
      cases h
      exact .inl ⟨rfl, hsame ▸ Table.mem_of_get hrow⟩
    · cases h
  · split at h
    · rename_i v hv
      cases h
      exact .inr (Table.insert_eq_some hv)
    · cases h

/-- The stored events of a target after one more row. -/
theorem eventsOf_append {t u : LifecycleTable} {row : LifecycleEventLedgerRow} (h : u.rows = t.rows ++ [row])
    (targetType : LifecycleTargetType) (targetId : String) :
    eventsOf targetType targetId u = eventsOf targetType targetId t ++
      if row.targetType = targetType ∧ row.targetId = targetId then [row.event] else [] := by
  simp only [eventsOf, h, List.filter_append, List.map_append]
  by_cases hc : row.targetType = targetType ∧ row.targetId = targetId <;> simp [hc]

theorem lifecycleOf_append {t u : EventTable D} {claimId : String} {event : ClaimStateEvent D}
    (h : ∀ id, chain id u = chain id t ++ if claimId = id then [event] else []) (id : String) :
    lifecycleOf id u = lifecycleOf id t ++
      if claimId = id ∧ lifecycleType event.eventType = true then [event] else [] := by
  rw [lifecycleOf, h, List.filter_append, lifecycleOf]
  by_cases hc : claimId = id <;> by_cases ht : lifecycleType event.eventType = true <;> simp [hc, ht]

/-- A UTC event is what is read back of it, as far as its mirror goes. -/
theorem mirrorOf_row {event : KnowledgeLifecycleEvent} (heff : event.effectiveAt.offset = some 0)
    (hrec : event.recordedAt.offset = some 0) : mirrorOf event.row.event = mirrorOf event := by
  have hback {d : DateTime} (h : d.offset = some 0) : DateTime.ofUtc d.utc = d := by
    obtain ⟨wall, offset⟩ := d
    simp only at h
    simp [DateTime.ofUtc, DateTime.utc, h]
  simp [mirrorOf, KnowledgeLifecycleEvent.row, LifecycleEventLedgerRow.event, hback heff, hback hrec]

variable [DecidableEq D] {schema : LedgerSchema D} {s s' : Stores D}

omit [DecidableEq D] in
/-- A mirrored event is in the stream under its artifact id. -/
theorem Mirrored.any_mirrors (hm : Mirrored schema s) {event : KnowledgeLifecycleEvent}
    (ht : event.targetType = .claim) (hrow : event.row ∈ s.lifecycle.rows) (haware : event.recordedAt.offset.isSome) :
    (chain event.targetId s.ledger).any (mirrors event) = true := by
  have hevent : event.row.event ∈ eventsOf .claim event.targetId s.lifecycle := by
    refine List.mem_map.mpr ⟨event.row, List.mem_filter.mpr ⟨hrow, ?_⟩, rfl⟩
    simp [KnowledgeLifecycleEvent.row, ht]
  have hfields : (mirrorOf event.row.event).fields none ∈
      (lifecycleOf event.targetId s.ledger).map (fun item => unplaced item.toEventFields) := by
    rw [hm.mirrored]
    exact List.mem_map.mpr ⟨_, hevent, rfl⟩
  obtain ⟨item, hitem, hsame⟩ := List.mem_map.mp hfields
  refine List.any_eq_true.mpr ⟨item, List.mem_of_mem_filter hitem, ?_⟩
  have htype : item.eventType = "LIFECYCLE" := congrArg EventFields.eventType hsame
  have hpayload : item.payload = [("status", .str event.toStatus), ("artifact_id", .str event.lifecycleEventId)] :=
    congrArg EventFields.payload hsame
  have hknown : item.knownFrom = some (.ofUtc event.recordedAt.utc) := congrArg EventFields.knownFrom hsame
  simp only [mirrors, htype, hpayload, hknown, Option.any_some, sameMoment, DateTime.utc_ofUtc]
  simp [Json.lookup, DateTime.ofUtc, haware]

omit [DecidableEq D] in
/-- An event of the stream under an artifact id was recorded with that id. -/
theorem Mirrored.recorded (hm : Mirrored schema s) {claimId lifecycleEventId : String} {item : ClaimStateEvent D}
    (hitem : item ∈ chain claimId s.ledger) (htype : item.eventType = "LIFECYCLE")
    (hid : Json.lookup item.payload "artifact_id" = some (.str lifecycleEventId)) :
    s.lifecycle.get lifecycleEventId ≠ none := by
  have hlife : item ∈ lifecycleOf claimId s.ledger :=
    List.mem_filter.mpr ⟨hitem, by rw [htype]; exact (by decide : lifecycleType "LIFECYCLE" = true)⟩
  have hfields : unplaced item.toEventFields ∈
      (eventsOf .claim claimId s.lifecycle).map (fun event => (mirrorOf event).fields (none : Option D)) := by
    rw [← hm.mirrored]
    exact List.mem_map.mpr ⟨item, hlife, rfl⟩
  obtain ⟨event, hevent, hsame⟩ := List.mem_map.mp hfields
  have hpayload : [("status", .str event.toStatus), ("artifact_id", .str event.lifecycleEventId)] = item.payload :=
    congrArg EventFields.payload hsame
  rw [← hpayload] at hid
  have heq : event.lifecycleEventId = lifecycleEventId := by simpa [Json.lookup] using hid
  obtain ⟨row, hrow, rfl⟩ := List.mem_map.mp hevent
  have hget := Table.get_of_mem (List.mem_of_mem_filter hrow)
  rw [← heq]
  exact fun hnone => by rw [show s.lifecycle.get row.lifecycleEventId = none from hnone] at hget; cases hget

theorem Mirrored.record_verification (hm : Mirrored schema s) (hfree : schema.CollisionFree) {writer : SystemEvent}
    (kind : writer.verificationStatus ≠ none) (h : record schema s (.verification writer kind) = .ok s') :
    Mirrored schema s' := by
  obtain ⟨prior, hprior, h⟩ := bind_eq_ok.mp h
  obtain ⟨⟨u, ⟨⟩⟩, hbehind, h⟩ := bind_eq_ok.mp h
  cases h
  rw [mapError_eq_ok, hm.sound.listForClaim] at hprior
  cases hprior
  obtain ⟨event, _, hw, hsound, hcases⟩ := appendBehind_cases hm.sound hfree (mapError_eq_ok.mp hbehind)
  rcases hcases with ⟨rfl, _⟩ | hchain
  · exact hm
  · have htype : lifecycleType event.eventType = false := by
      rw [congrArg EventFields.eventType hw, lifecycleType_fields]
      cases hv : writer.verificationStatus with
      | none => exact absurd hv kind
      | some status => rfl
    refine { sound := hsound, written := fun claimId e he => ?_, mirrored := fun claimId => ?_, claims := hm.claims }
    · rw [hchain] at he
      rcases List.mem_append.mp he with he | he
      · exact hm.written claimId e he
      · split at he
        · rw [List.mem_singleton.mp he]
          exact ⟨writer, hw⟩
        · cases he
    · rw [lifecycleOf_append hchain]
      simpa [htype] using hm.mirrored claimId

omit [DecidableEq D] in
/-- Only an event with UTC times has a mirror. -/
theorem mirror_offsets {event : KnowledgeLifecycleEvent} {mirror : ClaimStateEvent D} (ha : schema.Authentic mirror)
    (hw : (mirrorOf event).Writes mirror) :
    event.effectiveAt.offset = some 0 ∧ event.recordedAt.offset = some 0 := by
  constructor
  · have hutc := ha.valid.utc ("business_valid_from", mirror.businessValidFrom) (by simp [EventFields.times])
    rw [congrArg EventFields.businessValidFrom hw] at hutc
    simpa [mirrorOf, SystemEvent.fields] using hutc
  · have hutc := ha.valid.utc ("known_from", mirror.knownFrom) (by simp [EventFields.times])
    rw [congrArg EventFields.knownFrom hw] at hutc
    simpa [mirrorOf, SystemEvent.fields] using hutc

theorem Mirrored.record_lifecycle (hm : Mirrored schema s) (hfree : schema.CollisionFree)
    {event : KnowledgeLifecycleEvent} (target : event.targetType = .claim) (named : event.lifecycleEventId ≠ "")
    (h : record schema s (.lifecycle event target named) = .ok s') : Mirrored schema s' := by
  obtain ⟨⟨lifecycle, stored⟩, hrepo, h⟩ := bind_eq_ok.mp h
  obtain ⟨⟨u, ⟨⟩⟩, hmirror, h⟩ := bind_eq_ok.mp h
  cases h
  obtain ⟨prior, hprior, hmirror⟩ := bind_eq_ok.mp (mapError_eq_ok.mp hmirror)
  rw [hm.sound.listForClaim] at hprior
  cases hprior
  rcases append_eq_ok (mapError_eq_ok.mp hrepo) with ⟨rfl, hrow⟩ | ⟨hget, hrows⟩
  · -- A repeated event is mirrored already: a new mirror of it could not be told apart.
    split at hmirror
    · cases hmirror
      exact hm
    · rename_i hnone
      obtain ⟨mirror, ha, hw, _⟩ := appendBehind_cases hm.sound hfree hmirror
      have haware : event.recordedAt.offset.isSome := Option.isSome_of_eq_some (mirror_offsets ha hw).2
      exact absurd (hm.any_mirrors target hrow haware) hnone
  · have hnone : (chain event.targetId s.ledger).any (mirrors event) = false := by
      rw [Bool.eq_false_iff]
      intro hany
      obtain ⟨item, hitem, hmirrors⟩ := List.any_eq_true.mp hany
      simp only [mirrors, Bool.and_eq_true, decide_eq_true_eq] at hmirrors
      exact hm.recorded hitem hmirrors.1.1 hmirrors.1.2 hget
    rw [hnone] at hmirror
    obtain ⟨mirror, ha, hw, hsound, hcases⟩ := appendBehind_cases hm.sound hfree hmirror
    rcases hcases with ⟨rfl, item, hitem, hl⟩ | hchain
    · obtain ⟨writer, hwriter⟩ := hm.written _ item hitem
      obtain ⟨htype, hid⟩ := mirrors_of_logicalIdentity hwriter hw hl
      exact absurd hget (hm.recorded hitem htype hid)
    · obtain ⟨heff, hrec⟩ := mirror_offsets ha hw
      have htype : lifecycleType mirror.eventType = true := by
        rw [congrArg EventFields.eventType hw, lifecycleType_fields]
        rfl
      have hunplaced : unplaced mirror.toEventFields = (mirrorOf event.row.event).fields none := by
        rw [mirrorOf_row heff hrec, hw, unplaced_fields]
      refine { sound := hsound, written := fun claimId e he => ?_, mirrored := fun claimId => ?_, claims := ?_ }
      · rw [hchain] at he
        rcases List.mem_append.mp he with he | he
        · exact hm.written claimId e he
        · split at he
          · rw [List.mem_singleton.mp he]
            exact ⟨_, hw⟩
          · cases he
      · rw [lifecycleOf_append hchain, eventsOf_append hrows, List.map_append, List.map_append, hm.mirrored]
        have hrowtype : event.row.targetType = .claim := target
        simp only [htype, hrowtype, and_true, true_and]
        change _ ++ (if event.targetId = claimId then _ else _ : List (ClaimStateEvent D)).map _ =
          _ ++ (if event.targetId = claimId then _ else _ : List KnowledgeLifecycleEvent).map _
        split <;> simp [hunplaced]
      · rw [hrows]
        intro row hr
        rcases List.mem_append.mp hr with hr | hr
        · exact hm.claims row hr
        · rw [List.mem_singleton.mp hr]
          exact ⟨target, named⟩

theorem Mirrored.of_recordAll (hm : Mirrored schema s) (hfree : schema.CollisionFree) {entries : List Entry}
    (h : recordAll schema s entries = .ok s') : Mirrored schema s' := by
  induction entries generalizing s with
  | nil =>
    cases h
    exact hm
  | cons entry entries ih =>
    obtain ⟨s₁, hs₁, hrest⟩ := bind_eq_ok.mp h
    cases entry with
    | lifecycle event target named => exact ih (hm.record_lifecycle hfree target named hs₁) hrest
    | verification writer kind => exact ih (hm.record_verification hfree kind hs₁) hrest

end Mirrored
end StockContent.Lifecycle
