import Mathlib.Data.Prod.Lex
import StockContent.Ledger.SystemWrites

/-! Which occurrences of a snapshot a bundle can be built from: rows of the snapshot's claims,
as the claims' state at the request's clocks lets them in. -/
namespace StockContent.Bundle
open Storage Verification Occurrence Ledger

inductive BundleContract where
  | v1 | v2
  deriving DecidableEq, Repr

/-- A request names one concrete snapshot and reads it at aware clocks. -/
structure KnowledgeBundleRequest where
  contentSnapshotId : String
  contractVersion : BundleContract
  symbol : String
  clocks : QueryClocks DateTime
  concrete : contentSnapshotId ≠ "" ∧ contentSnapshotId.toLower ∉ ["latest", "current", "default"]
  aware : ∀ clock ∈ [clocks.businessAsOf, clocks.knowledgeAsOf, clocks.availabilityAsOf], clock.offset.isSome

def KnowledgeBundleRequest.instants (request : KnowledgeBundleRequest) : QueryClocks Time :=
  ⟨request.clocks.businessAsOf.utc, request.clocks.knowledgeAsOf.utc, request.clocks.availabilityAsOf.utc⟩

structure ClaimArtifactMemberRow where
  artifactId : String
  claimId : String

structure FinancialClaimRow where
  claimId : String
  claimSchemaVersion : String
  groundingStatus : String
  legacyGroundingIncomplete : Bool
  legacyHistoryIncomplete : Bool
  subjectType : String
  subjectId : String
  predicate : String

structure ClaimOccurrenceRow where
  occurrenceId : String
  claimId : String
  claimSchemaVersion : String
  groundingStatus : String
  legacyGroundingIncomplete : Bool
  availableFrom : Time
  snapshotCommittedAt : Time

structure BundleTables where
  members : List ClaimArtifactMemberRow
  claims : List FinancialClaimRow
  occurrences : List ClaimOccurrenceRow

def unspecified (symbol : String) : Bool := upper symbol = "UNSPECIFIED".toList

/-- An unspecified symbol asks for every subject. -/
def FinancialClaimRow.selected (claim : FinancialClaimRow) (request : KnowledgeBundleRequest) : Bool :=
  claim.claimSchemaVersion = "claim.atomic.v1" && claim.groundingStatus = "GROUNDED" &&
    !claim.legacyGroundingIncomplete && (unspecified request.symbol || claim.subjectId = request.symbol)

def ClaimOccurrenceRow.selected (occurrence : ClaimOccurrenceRow) (request : KnowledgeBundleRequest) : Bool :=
  occurrence.claimSchemaVersion = "claim.atomic.v1" && occurrence.groundingStatus = "GROUNDED" &&
    !occurrence.legacyGroundingIncomplete && occurrence.availableFrom ≤ request.clocks.availabilityAsOf.utc &&
    occurrence.snapshotCommittedAt ≤ request.clocks.knowledgeAsOf.utc

def orderKey (row : FinancialClaimRow × ClaimOccurrenceRow) : String ×ₗ String ×ₗ String ×ₗ String ×ₗ String :=
  toLex (row.1.subjectType, toLex (row.1.subjectId, toLex (row.1.predicate,
    toLex (row.2.occurrenceId, row.1.claimId))))

/-- The claims of a snapshot's claims artifact with all their occurrences, in a fixed order. -/
def selectedRows (tables : BundleTables) (claimArtifactId : String) (request : KnowledgeBundleRequest) :
    List (FinancialClaimRow × ClaimOccurrenceRow) :=
  let rows := (tables.members.filter (·.artifactId = claimArtifactId)).flatMap fun member =>
    (tables.claims.filter fun claim => claim.claimId = member.claimId && claim.selected request).flatMap fun claim =>
      (tables.occurrences.filter fun occurrence => occurrence.claimId = claim.claimId && occurrence.selected request).map
        fun occurrence => (claim, occurrence)
  rows.mergeSort fun a b => orderKey a ≤ orderKey b

inductive BundleError (D : Type) where
  | valueError (message : String)
  | ledger (error : LedgerError D)

/-- An occurrence that a bundle's items are chosen from, with its state at the request's clocks. -/
structure ItemCandidate where
  claimId : String
  occurrenceId : String
  lifecycleStatus : Json
  knownFrom : Option Json
  supportStatus : String
  verificationStatus : String
  availableFrom : Option Json

def statusNamed (projection : Fields) (key : String) : Option String :=
  match Json.lookup projection key with
  | some (.str s) => if s = "" then none else some s
  | _ => none

section Read
variable {D : Type} [DecidableEq D] (schema : LedgerSchema D) (texts : ProjectionTexts D)

/-- The projector of one snapshot member. -/
def memberProjector (claim : FinancialClaimRow) (request : KnowledgeBundleRequest) (events : List (ClaimStateEvent D)) :
    HistoricalClaimProjector D where
  events
  membership := some fun snapshotId claimId => snapshotId = request.contentSnapshotId && claimId = claim.claimId
  historyIncomplete := some fun claimId => claimId = claim.claimId && claim.legacyHistoryIncomplete

/-- A marker of a gap in the history, which makes a projection unusable. -/
def incomplete (projection : Option Fields) : Bool :=
  projection.any fun state => (Json.lookup state "legacy_history_incomplete").any truthy

/-- A snapshot member through its claim's chain; there is no reading of current rows instead. -/
def historicalProjection (claim : FinancialClaimRow) (request : KnowledgeBundleRequest) (t : EventTable D) :
    Except (BundleError D) (Option Fields) :=
  if claim.legacyHistoryIncomplete then .error (.valueError "HISTORICAL_CLAIM_LINEAGE_INCOMPLETE")
  else if (rowsFor claim.claimId t).isEmpty then .error (.valueError "HISTORICAL_CLAIM_AUTHORITY_MISSING")
  else do
    let events ← (eventsFromRows schema (rowsFor claim.claimId t)).mapError .ledger
    let projection ← ((memberProjector claim request events).project schema.toEventDigests texts claim.claimId
      request.clocks (some request.contentSnapshotId)).mapError .ledger
    if incomplete projection then .error (.valueError "HISTORICAL_CLAIM_LINEAGE_INCOMPLETE")
    else return projection

/-- The snapshot and the occurrence that the claim's state names are the requested ones. -/
def boundTo (request : KnowledgeBundleRequest) (occurrence : ClaimOccurrenceRow) (projection : Fields) : Bool :=
  Json.lookup projection "snapshot_id" = some (.str request.contentSnapshotId) &&
    Json.lookup projection "occurrence_id" = some (.str occurrence.occurrenceId)

/-- Occurrences that wait for a review are candidates of the second contract only. -/
def publishable (request : KnowledgeBundleRequest) (lifecycle : Fields) : Bool :=
  Json.lookup lifecycle "status" = some (.str "ACTIVE") ||
    (request.contractVersion = .v2 && Json.lookup lifecycle "status" = some (.str "EXTRACTED"))

/-- What a claim's state makes of one of its occurrences. -/
def candidateOf (request : KnowledgeBundleRequest) (row : FinancialClaimRow × ClaimOccurrenceRow) (projection : Fields) :
    Except (BundleError D) (Option ItemCandidate) :=
  if boundTo request row.2 projection then
    match Json.lookup projection "lifecycle_as_of" with
    | some (.obj lifecycle) =>
      if publishable request lifecycle then
        match statusNamed projection "support_status", statusNamed projection "verification_status" with
        | none, _ => .error (.valueError "HISTORICAL_SUPPORT_AUTHORITY_MISSING")
        | some _, none => .error (.valueError "HISTORICAL_VERIFICATION_AUTHORITY_MISSING")
        | some supportStatus, some verificationStatus => .ok (some
            { claimId := row.1.claimId
              occurrenceId := row.2.occurrenceId
              lifecycleStatus := (Json.lookup lifecycle "status").getD .null
              knownFrom := Json.lookup lifecycle "known_from"
              supportStatus
              verificationStatus
              availableFrom := Json.lookup projection "available_from" })
      else .ok none
    | _ => .error (.valueError "HISTORICAL_LIFECYCLE_AUTHORITY_MISSING")
  else .ok none

/-- A claim that did not exist at the request's clocks has no candidates. -/
def candidacy (request : KnowledgeBundleRequest) (row : FinancialClaimRow × ClaimOccurrenceRow) (t : EventTable D) :
    Except (BundleError D) (Option ItemCandidate) := do
  match ← historicalProjection schema texts row.1 request t with
  | none => return none
  | some projection => candidateOf request row projection

def itemCandidates (request : KnowledgeBundleRequest) (t : EventTable D) :
    List (FinancialClaimRow × ClaimOccurrenceRow) → Except (BundleError D) (List ItemCandidate)
  | [] => .ok []
  | row :: rows => do
    let candidate ← candidacy schema texts request row t
    let candidates ← itemCandidates request t rows
    return candidate.toList ++ candidates

def bundleCandidates (tables : BundleTables) (claimArtifactId : String) (request : KnowledgeBundleRequest)
    (t : EventTable D) : Except (BundleError D) (List ItemCandidate) :=
  itemCandidates schema texts request t (selectedRows tables claimArtifactId request)

end Read

/-! Claims are shared: what other snapshots write about a claim is in the same chain, and the
candidates of a snapshot are read off that chain. -/

section Extended
variable {D : Type}

/-- Later initial events of the claims, written by other snapshots. -/
structure ExtendedByOthers (digests : EventDigests D) (snapshotId : String) (t t' : EventTable D)
    (more : String → List (ClaimStateEvent D)) : Prop where
  chain : ∀ claimId, chain claimId t' = chain claimId t ++ more claimId
  chained : ∀ claimId, Chained digests (Ledger.chain claimId t')
  written : ∀ claimId, ∀ event ∈ more claimId, ∃ state : InitialState,
    (SystemEvent.initial state).Writes event ∧ state.snapshotId ≠ snapshotId

theorem lookup_snapshot_id (state : InitialState) (previous : Option D) :
    Json.lookup ((SystemEvent.initial state).fields previous).payload.reverse "snapshot_id" =
      some (.str state.snapshotId) := rfl

/-- The snapshot that a fold names is that of the last initial event. -/
theorem folded_snapshot_id (texts : ProjectionTexts D) {seen more : List (ClaimStateEvent D)} {snapshotId : String}
    (claimId : String) (contentSnapshotId : Option String) (hne : more ≠ [])
    (hwritten : ∀ event ∈ more, ∃ state : InitialState,
      (SystemEvent.initial state).Writes event ∧ state.snapshotId ≠ snapshotId) :
    Json.lookup (folded texts claimId contentSnapshotId (seen ++ more)) "snapshot_id" ≠ some (.str snapshotId) := by
  obtain ⟨state, hwrites, hother⟩ := hwritten _ (List.getLast_mem hne)
  rw [folded, lookup_merge_fold texts _ _ (by decide), List.reverse_append, ← List.dropLast_append_getLast hne,
    List.reverse_append, List.reverse_singleton, List.singleton_append, List.cons_append, List.findSome?_cons,
    congrArg EventFields.payload hwrites, lookup_snapshot_id]
  simpa using hother

/-- Initial events leave the last lifecycle event in its place. -/
theorem lifecycleEvent_append_initial {seen more : List (ClaimStateEvent D)}
    (hwritten : ∀ event ∈ more, ∃ state : InitialState, (SystemEvent.initial state).Writes event) :
    lifecycleEvent (seen ++ more) = lifecycleEvent seen := by
  have hnone : more.filter (lifecycleType ·.eventType) = [] := by
    refine List.filter_eq_nil_iff.mpr fun event he => ?_
    obtain ⟨state, hwrites⟩ := hwritten event he
    rw [congrArg EventFields.eventType hwrites, Bool.not_eq_true]
    exact (by decide : lifecycleType "VERIFICATION_INITIAL" = false)
  rw [lifecycleEvent, List.filter_append, hnone, List.append_nil, lifecycleEvent]

end Extended

section Projection
variable {D : Type} [DecidableEq D] {schema : LedgerSchema D} {texts : ProjectionTexts D}
  {claim : FinancialClaimRow} {request : KnowledgeBundleRequest} {t t' : EventTable D}

theorem historicalProjection_eq_ok {projection : Option Fields} :
    historicalProjection schema texts claim request t = .ok projection ↔
      claim.legacyHistoryIncomplete = false ∧ chain claim.claimId t ≠ [] ∧
        (∀ event ∈ chain claim.claimId t, schema.Authentic event) ∧
        (memberProjector claim request (chain claim.claimId t)).project schema.toEventDigests texts claim.claimId
          request.clocks (some request.contentSnapshotId) = .ok projection ∧ incomplete projection = false := by
  have hempty : (rowsFor claim.claimId t).isEmpty = true ↔ chain claim.claimId t = [] := by simp [chain]
  unfold historicalProjection
  constructor
  · intro h
    split at h
    · cases h
    rename_i hlegacy
    split at h
    · cases h
    rename_i hrows
    obtain ⟨events, hevents, h⟩ := bind_eq_ok.mp h
    obtain ⟨rfl, ha⟩ := eventsFromRows_eq_ok.mp (mapError_eq_ok.mp hevents)
    obtain ⟨state, hproject, h⟩ := bind_eq_ok.mp h
    split at h
    · cases h
    rename_i hincomplete
    cases h
    exact ⟨by simpa using hlegacy, hempty.not.mp hrows, ha, mapError_eq_ok.mp hproject, eq_false_of_ne_true hincomplete⟩
  · rintro ⟨hlegacy, hrows, ha, hproject, hincomplete⟩
    rw [if_neg (by simp [hlegacy]), if_neg (hempty.not.mpr hrows)]
    refine bind_eq_ok.mpr ⟨_, mapError_eq_ok.mpr (eventsFromRows_eq_ok.mpr ⟨rfl, ha⟩),
      bind_eq_ok.mpr ⟨projection, mapError_eq_ok.mpr hproject, ?_⟩⟩
    rw [if_neg (ne_true_of_eq_false hincomplete)]
    rfl

omit [DecidableEq D] in
/-- A projection is incomplete when the last lifecycle event it sees names no status or artifact. -/
theorem incomplete_projectVisible {visible : List (ClaimStateEvent D)} (claimId : String)
    (contentSnapshotId : Option String) (hlegacy : ∀ event ∈ visible, event.legacyHistoryIncomplete = false) :
    incomplete (projectVisible texts claimId contentSnapshotId visible) =
      (lifecycleEvent visible).any fun event => (lifecycleAsOf texts event).isNone := by
  have hsealed (state : Fields) (b : Bool) : incomplete (some (sealed state b)) = b := by
    cases b <;> simp [incomplete, sealed, Json.lookup_put, truthy]
  have hnone : visible.any (·.legacyHistoryIncomplete) = false := by simpa using hlegacy
  unfold projectVisible
  split
  · rename_i hempty
    rw [List.isEmpty_iff.mp hempty]
    rfl
  · cases hl : lifecycleEvent visible with
    | none => simp [hsealed]
    | some event => cases ha : lifecycleAsOf texts event <;> simp [ha, hsealed, hnone]

/-- What the projector of a snapshot member answers over a chain of its claim. -/
theorem memberProjector_project {events : List (ClaimStateEvent D)} (hc : Chained schema.toEventDigests events)
    (hclaim : ∀ event ∈ events, event.claimId = claim.claimId) (hown : claim.legacyHistoryIncomplete = false)
    {projection : Option Fields} (hcomplete : incomplete projection = false) :
    (memberProjector claim request events).project schema.toEventDigests texts claim.claimId request.clocks
        (some request.contentSnapshotId) = .ok projection ↔
      (requireUtcClocks request.clocks : Except (LedgerError D) _) = .ok request.instants ∧
        (∀ event ∈ events, event.legacyHistoryIncomplete = false) ∧
        projection = projectVisible texts claim.claimId (some request.contentSnapshotId)
          (events.filter (·.visibleAt request.instants)) := by
  have hsupply : (memberProjector claim request events).eventsFor schema.toEventDigests claim.claimId = .ok events := by
    have hown : events.filter (·.claimId = claim.claimId) = events := by simpa using hclaim
    refine (HistoricalClaimProjector.eventsFor_eq_ok _).mpr ⟨events, ?_, .refl _, hc⟩
    exact congrArg Except.ok hown
  have hadmits {instants : QueryClocks Time} (hu : (requireUtcClocks request.clocks : Except (LedgerError D) _) = .ok instants) :
      (memberProjector claim request events).Admits claim.claimId request.clocks (some request.contentSnapshotId)
        instants := by
    refine ⟨hu, ?_, ?_⟩
    · by_cases hid : request.contentSnapshotId = "" <;> simp [memberProjector, Option.filter, hid]
    · simp [memberProjector, hown]
  constructor
  · intro h
    obtain ⟨instants, hu, _⟩ := bind_eq_ok.mp h
    obtain ⟨hinstants, _⟩ := requireUtcClocks_eq_ok hu
    obtain rfl : instants = request.instants := hinstants
    cases hany : events.any (·.legacyHistoryIncomplete) with
    | false =>
      have hlegacy : ∀ event ∈ events, event.legacyHistoryIncomplete = false := by simpa using hany
      rw [HistoricalClaimProjector.project_admitted _ texts (hadmits hu) hsupply hlegacy] at h
      exact ⟨hu, hlegacy, (Except.ok.inj h).symm⟩
    | true =>
      rw [HistoricalClaimProjector.project_gap _ texts (hadmits hu) hsupply hany] at h
      rw [← Except.ok.inj h] at hcomplete
      simp [incomplete, initialState, Json.lookup_cons, truthy] at hcomplete
  · rintro ⟨hu, hlegacy, hprojection⟩
    rw [HistoricalClaimProjector.project_admitted _ texts (hadmits hu) hsupply hlegacy, hprojection]

/-- A claim's state at the request's clocks, read off a chain. -/
theorem historicalProjection_visible (hc : Chained schema.toEventDigests (chain claim.claimId t))
    {projection : Option Fields} :
    historicalProjection schema texts claim request t = .ok projection ↔
      claim.legacyHistoryIncomplete = false ∧ chain claim.claimId t ≠ [] ∧
        (requireUtcClocks request.clocks : Except (LedgerError D) _) = .ok request.instants ∧
        (∀ event ∈ chain claim.claimId t, event.legacyHistoryIncomplete = false) ∧
        projection = projectVisible texts claim.claimId (some request.contentSnapshotId)
          ((chain claim.claimId t).filter (·.visibleAt request.instants)) ∧
        incomplete projection = false := by
  have hclaim : ∀ event ∈ chain claim.claimId t, event.claimId = claim.claimId := by
    intro event he
    obtain ⟨row, hrow, rfl⟩ := List.mem_map.mp he
    simpa using (List.mem_filter.mp hrow).2
  rw [historicalProjection_eq_ok]
  constructor
  · rintro ⟨hown, hne, _, hproject, hcomplete⟩
    obtain ⟨hu, hlegacy, hprojection⟩ := (memberProjector_project hc hclaim hown hcomplete).mp hproject
    exact ⟨hown, hne, hu, hlegacy, hprojection, hcomplete⟩
  · rintro ⟨hown, hne, hu, hlegacy, hprojection, hcomplete⟩
    exact ⟨hown, hne, hc.authentic, (memberProjector_project hc hclaim hown hcomplete).mpr ⟨hu, hlegacy, hprojection⟩,
      hcomplete⟩

variable {more : String → List (ClaimStateEvent D)}

/-- The state of a claim after the extension is folded from both parts of its chain. -/
theorem historicalProjection_extended
    (he : ExtendedByOthers schema.toEventDigests request.contentSnapshotId t t' more) {projection : Option Fields}
    (h : historicalProjection schema texts claim request t = .ok projection) :
    let seen := (chain claim.claimId t).filter (·.visibleAt request.instants)
    let later := (more claim.claimId).filter (·.visibleAt request.instants)
    projection = projectVisible texts claim.claimId (some request.contentSnapshotId) seen ∧
      historicalProjection schema texts claim request t' =
        .ok (projectVisible texts claim.claimId (some request.contentSnapshotId) (seen ++ later)) := by
  intro seen later
  have hchained := he.chained claim.claimId
  have hchain := he.chain claim.claimId
  rw [hchain] at hchained
  obtain ⟨hown, hne, hu, hlegacy, hprojection, hcomplete⟩ := (historicalProjection_visible hchained.of_append).mp h
  have hlater : ∀ event ∈ later, ∃ state : InitialState, (SystemEvent.initial state).Writes event := by
    intro event hevent
    obtain ⟨state, hwrites, _⟩ := he.written claim.claimId event (List.mem_of_mem_filter hevent)
    exact ⟨state, hwrites⟩
  have hlegacy' : ∀ event ∈ chain claim.claimId t', event.legacyHistoryIncomplete = false := by
    intro event hevent
    rw [hchain] at hevent
    rcases List.mem_append.mp hevent with hevent | hevent
    · exact hlegacy event hevent
    · obtain ⟨state, hwrites, _⟩ := he.written claim.claimId event hevent
      exact congrArg EventFields.legacyHistoryIncomplete hwrites
  have hvisible : (chain claim.claimId t').filter (·.visibleAt request.instants) = seen ++ later := by
    rw [hchain, List.filter_append]
  have hshown {visible : List (ClaimStateEvent D)} (hs : visible ⊆ chain claim.claimId t') :=
    @incomplete_projectVisible D texts visible claim.claimId (some request.contentSnapshotId)
      fun event hevent => hlegacy' event (hs hevent)
  have hseen : seen ⊆ chain claim.claimId t' := by
    rw [hchain]
    exact fun event hevent => List.mem_append_left _ (List.mem_of_mem_filter hevent)
  refine ⟨hprojection, (historicalProjection_visible (he.chained claim.claimId)).mpr
    ⟨hown, by simp [hchain, hne], hu, hlegacy', by rw [hvisible], ?_⟩⟩
  rw [hshown (hvisible ▸ List.filter_sublist.subset), lifecycleEvent_append_initial hlater, ← hshown hseen, ← hprojection]
  exact hcomplete

omit [DecidableEq D] in
/-- Where another snapshot's event is visible, the state names that snapshot. -/
theorem projectVisible_unbound (he : ExtendedByOthers schema.toEventDigests request.contentSnapshotId t t' more)
    {claimId : String} (seen : List (ClaimStateEvent D)) (occurrence : ClaimOccurrenceRow)
    (hany : (more claimId).any (·.visibleAt request.instants) = true) :
    ∃ state, projectVisible texts claimId (some request.contentSnapshotId)
        (seen ++ (more claimId).filter (·.visibleAt request.instants)) = some state ∧
      boundTo request occurrence state = false := by
  obtain ⟨event, hevent, hvisible⟩ := List.any_eq_true.mp hany
  have hne : (more claimId).filter (·.visibleAt request.instants) ≠ [] :=
    List.ne_nil_of_mem (List.mem_filter.mpr ⟨hevent, hvisible⟩)
  obtain ⟨state, hstate⟩ : ∃ state, projectVisible texts claimId (some request.contentSnapshotId)
      (seen ++ (more claimId).filter (·.visibleAt request.instants)) = some state := by
    rw [projectVisible, if_neg (by simp [hne])]
    split
    · exact ⟨_, rfl⟩
    · split <;> exact ⟨_, rfl⟩
  refine ⟨state, hstate, ?_⟩
  have hsnapshot : Json.lookup state "snapshot_id" ≠ some (.str request.contentSnapshotId) := by
    rw [lookup_projectVisible texts (by decide) hstate]
    exact folded_snapshot_id texts claimId _ hne fun event h => he.written claimId event (List.mem_of_mem_filter h)
  simp [boundTo, hsnapshot]

theorem candidacy_extended (he : ExtendedByOthers schema.toEventDigests request.contentSnapshotId t t' more)
    {row : FinancialClaimRow × ClaimOccurrenceRow} {candidate : Option ItemCandidate}
    (h : candidacy schema texts request row t = .ok candidate) :
    candidacy schema texts request row t' =
      .ok (if (more row.1.claimId).any (·.visibleAt request.instants) then none else candidate) := by
  obtain ⟨projection, hprojection, h⟩ := bind_eq_ok.mp h
  obtain ⟨hseen, hextended⟩ := historicalProjection_extended he hprojection
  refine bind_eq_ok.mpr ⟨_, hextended, ?_⟩
  cases hany : (more row.1.claimId).any (·.visibleAt request.instants) with
  | false =>
    have hlater : (more row.1.claimId).filter (·.visibleAt request.instants) = [] := by
      simpa [List.filter_eq_nil_iff] using hany
    rw [hlater, List.append_nil, ← hseen]
    exact h
  | true =>
    obtain ⟨state, hstate, hunbound⟩ :=
      projectVisible_unbound he ((chain row.1.claimId t).filter (·.visibleAt request.instants)) row.2 hany
    rw [hstate]
    exact if_neg (ne_true_of_eq_false hunbound)

theorem candidacy_claimId {row : FinancialClaimRow × ClaimOccurrenceRow} {candidate : ItemCandidate}
    (h : candidacy schema texts request row t = .ok (some candidate)) : candidate.claimId = row.1.claimId := by
  obtain ⟨projection, _, h⟩ := bind_eq_ok.mp h
  cases projection with
  | none => cases h
  | some state =>
    simp only [candidateOf] at h
    repeat' split at h
    all_goals cases h
    rfl

/-- After the extension there are left those candidates whose claims show no event of it. -/
theorem itemCandidates_extended (he : ExtendedByOthers schema.toEventDigests request.contentSnapshotId t t' more)
    {rows : List (FinancialClaimRow × ClaimOccurrenceRow)} {before : List ItemCandidate}
    (h : itemCandidates schema texts request t rows = .ok before) :
    itemCandidates schema texts request t' rows =
      .ok (before.filter fun candidate => !(more candidate.claimId).any (·.visibleAt request.instants)) := by
  induction rows generalizing before with
  | nil =>
    cases h
    rfl
  | cons row rows ih =>
    obtain ⟨candidate, hcandidate, h⟩ := bind_eq_ok.mp h
    obtain ⟨candidates, hcandidates, h⟩ := bind_eq_ok.mp h
    cases h
    refine bind_eq_ok.mpr ⟨_, candidacy_extended he hcandidate, bind_eq_ok.mpr ⟨_, ih hcandidates, ?_⟩⟩
    refine congrArg Except.ok ?_
    rw [List.filter_append]
    congr 1
    cases candidate with
    | none => simp
    | some candidate =>
      rw [← candidacy_claimId hcandidate]
      cases hany : (more candidate.claimId).any (·.visibleAt request.instants) <;> simp [hany]

end Projection

section Kept
variable {D : Type} [DecidableEq D] {schema : LedgerSchema D} {texts : ProjectionTexts D}

/-- The candidates of a request are still candidates after the ledger has changed. -/
def CandidatesKept (schema : LedgerSchema D) (texts : ProjectionTexts D) (tables : BundleTables)
    (claimArtifactId : String) (request : KnowledgeBundleRequest) (before : List ItemCandidate) (t' : EventTable D) : Prop :=
  ∃ after, bundleCandidates schema texts tables claimArtifactId request t' = .ok after ∧
    ∀ candidate ∈ before, ∃ candidate' ∈ after,
      candidate'.occurrenceId = candidate.occurrenceId ∧ candidate'.claimId = candidate.claimId

/-- Other snapshots' events about shared claims take candidates away exactly when the request sees them. -/
theorem candidates_kept_iff {tables : BundleTables} {claimArtifactId : String} {request : KnowledgeBundleRequest}
    {t t' : EventTable D} {more : String → List (ClaimStateEvent D)} {before : List ItemCandidate}
    (he : ExtendedByOthers schema.toEventDigests request.contentSnapshotId t t' more)
    (h : bundleCandidates schema texts tables claimArtifactId request t = .ok before) :
    CandidatesKept schema texts tables claimArtifactId request before t' ↔
      ∀ candidate ∈ before, ∀ event ∈ more candidate.claimId, event.visibleAt request.instants = false := by
  have hafter : bundleCandidates schema texts tables claimArtifactId request t' = _ := itemCandidates_extended he h
  have hunseen (candidate : ItemCandidate) :
      (!(more candidate.claimId).any (·.visibleAt request.instants)) = true ↔
        ∀ event ∈ more candidate.claimId, event.visibleAt request.instants = false := by simp
  constructor
  · rintro ⟨after, hread, hkept⟩ candidate hcandidate
    rw [hafter] at hread
    obtain ⟨candidate', hmem, _, hclaim⟩ := hkept candidate hcandidate
    rw [← Except.ok.inj hread] at hmem
    have hunseen' := (hunseen candidate').mp (List.mem_filter.mp hmem).2
    rwa [hclaim] at hunseen'
  · intro hnone
    exact ⟨_, hafter, fun candidate hcandidate =>
      ⟨candidate, List.mem_filter.mpr ⟨hcandidate, (hunseen candidate).mpr (hnone candidate hcandidate)⟩, rfl, rfl⟩⟩

/-- Initial events of snapshots, each behind the chain of its claim. -/
def writeInitials (schema : LedgerSchema D) : EventTable D → List InitialState → Except (LedgerError D) (EventTable D)
  | t, [] => .ok t
  | t, state :: states => do
    let prior ← listForClaim schema state.claim.claimId t
    let (t, _) ← appendBehind schema (.initial state) prior t
    writeInitials schema t states

/-- What other snapshots write to a sound ledger extends it. -/
theorem ExtendedByOthers.of_writes {snapshotId : String} {states : List InitialState} {t t' : EventTable D}
    (hs : Sound schema t) (hfree : schema.CollisionFree) (hother : ∀ state ∈ states, state.snapshotId ≠ snapshotId)
    (h : writeInitials schema t states = .ok t') :
    Sound schema t' ∧ ∃ more, ExtendedByOthers schema.toEventDigests snapshotId t t' more := by
  induction states generalizing t with
  | nil =>
    cases h
    exact ⟨hs, fun _ => [], fun _ => (List.append_nil _).symm, hs.chained, fun _ _ he => nomatch he⟩
  | cons state states ih =>
    obtain ⟨prior, hprior, h⟩ := bind_eq_ok.mp h
    rw [hs.listForClaim] at hprior
    cases hprior
    obtain ⟨⟨u, ⟨⟩⟩, hwrite, hrest⟩ := bind_eq_ok.mp h
    obtain ⟨event, _, hwrites, hsound, hcases⟩ := appendBehind_cases hs hfree hwrite
    obtain ⟨hsound', more, hmore⟩ := ih hsound (fun s h => hother s (List.mem_cons_of_mem _ h)) hrest
    refine ⟨hsound', ?_⟩
    rcases hcases with ⟨rfl, _⟩ | hchain
    · exact ⟨more, hmore⟩
    · refine ⟨fun claimId => (if (SystemEvent.initial state).claimId = claimId then [event] else []) ++ more claimId,
        fun claimId => ?_, hmore.chained, fun claimId e he => ?_⟩
      · rw [hmore.chain, hchain, List.append_assoc]
      · rcases List.mem_append.mp he with he | he
        · split at he
          · rw [List.mem_singleton.mp he]
            exact ⟨state, hwrites, hother state List.mem_cons_self⟩
          · cases he
        · exact hmore.written claimId e he

end Kept

section Plain

def sharedRequest : KnowledgeBundleRequest where
  contentSnapshotId := "snapshot-1"
  contractVersion := .v2
  symbol := "UNSPECIFIED"
  clocks := eveningClocks
  concrete := by decide +kernel
  aware := by decide

def sharedTables : BundleTables where
  members := [{ artifactId := "claims-1", claimId := "claim-1" }]
  claims :=
    [{ claimId := "claim-1", claimSchemaVersion := "claim.atomic.v1", groundingStatus := "GROUNDED"
       legacyGroundingIncomplete := false, legacyHistoryIncomplete := false
       subjectType := "STOCK", subjectId := "600519", predicate := "revenue" }]
  occurrences :=
    [{ occurrenceId := "co_1", claimId := "claim-1", claimSchemaVersion := "claim.atomic.v1"
       groundingStatus := "GROUNDED", legacyGroundingIncomplete := false
       availableFrom := seconds 60, snapshotCommittedAt := seconds 60 }]

/-- The first snapshot's claim, verified and active. -/
def firstState : InitialState := { pendingState with result := some .verified }

/-- A second source asserts the same claim. -/
def secondState : InitialState :=
  { pendingState with
    snapshotId := "snapshot-2"
    occurrence := { pendingState.occurrence with occurrenceId := "co_2", sourceArtifactId := "source-2" } }

def firstLedger : Except (LedgerError Json) (EventTable Json) := do
  let t ← writeInitials plainSchema Table.empty [firstState]
  let prior ← listForClaim plainSchema "claim-1" t
  let (t, _) ← appendBehind plainSchema (.lifecycle "claim-1" "ACTIVE" "le_1" (.ofUtc (seconds 60)) (.ofUtc 0)) prior t
  return t

def occurrenceIds (t : EventTable Json) : Option (List String) :=
  (bundleCandidates plainSchema plainTexts sharedTables "claims-1" sharedRequest t).toOption.map
    (·.map (·.occurrenceId))

theorem firstLedger_sound {t : EventTable Json} (h : firstLedger = .ok t) : Sound plainSchema t := by
  obtain ⟨u, hu, h⟩ := bind_eq_ok.mp h
  obtain ⟨prior, hprior, h⟩ := bind_eq_ok.mp h
  obtain ⟨⟨v, ⟨⟩⟩, hv, h⟩ := bind_eq_ok.mp h
  cases h
  have hother : ∀ state ∈ [firstState], state.snapshotId ≠ "" := by decide
  have hsound := (ExtendedByOthers.of_writes sound_empty plainSchema_collisionFree hother hu).1
  rw [hsound.listForClaim] at hprior
  cases hprior
  exact (appendBehind_cases hsound plainSchema_collisionFree hv).choose_spec.2.2.1

/-- The candidate is there before the second snapshot is written, and gone after. -/
theorem sharedOccurrences : firstLedger.toOption.bind occurrenceIds = some ["co_1"] ∧
    (firstLedger.bind (writeInitials plainSchema · [secondState])).toOption.bind occurrenceIds = some [] := by
  decide +kernel

/-- Both ledgers can be read, and the second snapshot's event extends the first one. -/
theorem shared_claim_reads : ∃ t t' more before, firstLedger = .ok t ∧
    writeInitials plainSchema t [secondState] = .ok t' ∧
    ExtendedByOthers plainSchema.toEventDigests sharedRequest.contentSnapshotId t t' more ∧
    bundleCandidates plainSchema plainTexts sharedTables "claims-1" sharedRequest t = .ok before := by
  obtain ⟨hfirst, hsecond⟩ := sharedOccurrences
  obtain ⟨t, ht, hids⟩ := Option.bind_eq_some_iff.mp hfirst
  obtain ⟨before, hbefore, _⟩ := Option.map_eq_some_iff.mp hids
  obtain ⟨t', ht', _⟩ := Option.bind_eq_some_iff.mp hsecond
  rw [toOption_eq_some] at ht ht' hbefore
  have hw : writeInitials plainSchema t [secondState] = .ok t' := by rwa [ht] at ht'
  have hother : ∀ state ∈ [secondState], state.snapshotId ≠ sharedRequest.contentSnapshotId := by decide
  obtain ⟨_, more, hmore⟩ := ExtendedByOthers.of_writes (firstLedger_sound ht) plainSchema_collisionFree hother hw
  exact ⟨t, t', more, before, ht, hw, hmore, hbefore⟩

theorem second_source_hides_candidate : ∃ t t' more before, firstLedger = .ok t ∧
    ExtendedByOthers plainSchema.toEventDigests sharedRequest.contentSnapshotId t t' more ∧
    bundleCandidates plainSchema plainTexts sharedTables "claims-1" sharedRequest t = .ok before ∧
    ¬ CandidatesKept plainSchema plainTexts sharedTables "claims-1" sharedRequest before t' := by
  obtain ⟨t, t', more, before, ht, hw, hmore, hbefore⟩ := shared_claim_reads
  refine ⟨t, t', more, before, ht, hmore, hbefore, ?_⟩
  rintro ⟨after, hafter, hkept⟩
  obtain ⟨hfirst, hsecond⟩ := sharedOccurrences
  simp only [ht, Except.bind, hw, Except.toOption, Option.bind_some, occurrenceIds, hbefore, hafter,
    Option.map_some, Option.some.injEq, List.map_eq_nil_iff] at hfirst hsecond
  cases before with
  | nil => cases hfirst
  | cons candidate rest =>
    obtain ⟨candidate', hmem, _⟩ := hkept candidate List.mem_cons_self
    rw [hsecond] at hmem
    cases hmem

theorem candidates_kept_shared : ∃ (t t' : EventTable Json) (more : String → List (ClaimStateEvent Json))
    (before : List ItemCandidate), firstLedger = .ok t ∧
    (CandidatesKept plainSchema plainTexts sharedTables "claims-1" sharedRequest before t' ↔
      ∀ candidate ∈ before, ∀ event ∈ more candidate.claimId, event.visibleAt sharedRequest.instants = false) := by
  obtain ⟨t, t', more, before, ht, _, hmore, hbefore⟩ := shared_claim_reads
  exact ⟨t, t', more, before, ht, candidates_kept_iff hmore hbefore⟩

end Plain
end StockContent.Bundle
