import Mathlib.Data.List.Induction
import StockContent.Ledger.Projector
import StockContent.Occurrence.OccurrenceRepository

/-! The events the system writes: the initial state of a claim at a snapshot's commit, a
refreshed verification, a lifecycle event. Each of the three has payload keys of its own. -/
namespace StockContent.Ledger
open Storage Verification Occurrence

def statusText : ResultStatus → String
  | .verified => "VERIFIED"
  | .contradicted => "CONTRADICTED"
  | .partiallyVerified => "PARTIALLY_VERIFIED"
  | .notVerifiable => "NOT_VERIFIABLE"
  | .notRequired => "NOT_REQUIRED"
  | .manualReview => "MANUAL_REVIEW"
  | .expired => "EXPIRED"
  | .verificationPending => "VERIFICATION_PENDING"

inductive SourceSupport where
  | supported | partiallySupported | unsupported | ambiguous
  deriving DecidableEq, Repr

/-- The levels a query's `min_support` compares with. -/
def SourceSupport.count : SourceSupport → Int
  | .supported => 2
  | .partiallySupported => 1
  | .unsupported | .ambiguous => 0

/-- The support vocabulary of the public ledger. -/
def SourceSupport.publicText : SourceSupport → String
  | .supported => "SOURCE_SUPPORTED"
  | .partiallySupported => "SOURCE_LOCATED"
  | .unsupported => "UNSUPPORTED"
  | .ambiguous => "AMBIGUOUS"

/-- What the ledger reads of a claim. -/
structure LedgerClaim where
  claimId : String
  subjectId : String
  sourceSupportStatus : SourceSupport
  temporalBindings : List Json := []
  deriving DecidableEq

/-- `isoformat()` of an offset from UTC. -/
def offsetText (offset : Int) : String :=
  let size := offset.natAbs
  let fraction := size % 1000000
  (if offset < 0 then "-" else "+") ++ padded 2 (size / 3600000000) ++ ":" ++ padded 2 (size / 60000000 % 60) ++
    (if size % 60000000 = 0 then "" else ":" ++ padded 2 (size / 1000000 % 60)) ++
    (if fraction = 0 then "" else "." ++ padded 6 fraction)

/-- `isoformat()`: the wall clock, followed by the offset of an aware value. -/
def dateTimeText (value : DateTime) : String :=
  String.ofList ((isoformat value.wall).toList.takeWhile (· ≠ '+')) ++ (value.offset.map offsetText).getD ""

def timeValue (value : Option DateTime) : Json := (value.map fun d => Json.str (dateTimeText d)).getD .null

/-- What a snapshot knows about a claim when its events are written. -/
structure InitialState where
  claim : LedgerClaim
  occurrence : ClaimOccurrence
  /-- The status of the claim's verification entry, when the entry encloses a result. -/
  result : Option ResultStatus
  snapshotId : String
  producerCommit : String
  deriving DecidableEq

def claimStatePayload (state : InitialState) : Fields :=
  let times := state.occurrence.times
  let review := occurrenceReview state.occurrence
  -- Evidence with an unresolved conflict is located in the source, not supported by it.
  let blocked := review.status = .humanReviewRequired
  let support := state.claim.sourceSupportStatus
  [("snapshot_id", .str state.snapshotId),
    ("claim_id", .str state.claim.claimId),
    ("occurrence_id", .str state.occurrence.occurrenceId),
    ("semantic_segment_id", .str state.occurrence.semanticSegmentId),
    ("asserted_at", timeValue times.assertedAt),
    ("source_available_at", timeValue times.sourceAvailableAt),
    ("available_from", timeValue (some times.availableFrom)),
    ("source_availability_quality", .str times.sourceAvailabilityQuality.text),
    ("temporal_bindings", .arr state.claim.temporalBindings),
    ("evidence_refs", .arr (state.occurrence.evidenceRefs.map .str)),
    ("symbol", .str state.claim.subjectId),
    ("support_status", .str (if blocked then "SOURCE_LOCATED" else support.publicText)),
    ("support_count", .int (if blocked then min support.count 1 else support.count)),
    ("occurrence_review", review.json),
    ("producer_commit", .str state.producerCommit),
    ("signal_policy_version", .str "signal-policy.v1"),
    ("verification_status", .str ((state.result.map statusText).getD ""))]

/-- Writers of the ledger and what each of them records. -/
inductive SystemEvent where
  | initial (state : InitialState)
  | refresh (claimId : String) (status : ResultStatus) (verificationId provider : String) (availableAt : DateTime)
  | lifecycle (claimId toStatus lifecycleEventId : String) (recordedAt effectiveAt : DateTime)

namespace SystemEvent
variable {D : Type}

def fields (event : SystemEvent) (previousEventHash : Option D) : EventFields DateTime D :=
  match event with
  | initial state =>
    { claimId := state.claim.claimId
      eventType := "VERIFICATION_INITIAL"
      payload := Json.put (claimStatePayload state) "status"
        (.str ((state.result.map statusText).getD "VERIFICATION_PENDING"))
      knownFrom := some state.occurrence.times.snapshotCommittedAt
      sourceAvailableFrom := some state.occurrence.times.availableFrom
      previousEventHash }
  | refresh claimId status verificationId provider availableAt =>
    { claimId
      eventType := "VERIFICATION_REFRESH"
      payload := [("status", .str (statusText status)), ("verification_id", .str verificationId),
        ("provider", .str provider)]
      knownFrom := some availableAt
      sourceAvailableFrom := some availableAt
      previousEventHash }
  | lifecycle claimId toStatus lifecycleEventId recordedAt effectiveAt =>
    { claimId
      eventType := "LIFECYCLE"
      payload := [("status", .str toStatus), ("artifact_id", .str lifecycleEventId)]
      knownFrom := some recordedAt
      businessValidFrom := some effectiveAt
      sourceAvailableFrom := some recordedAt
      previousEventHash }

/-- The status a verification event records. -/
def verificationStatus : SystemEvent → Option String
  | initial state => some ((state.result.map statusText).getD "VERIFICATION_PENDING")
  | refresh _ status _ _ _ => some (statusText status)
  | lifecycle .. => none

/-- The verification status that an event's payload hands on to a projection. -/
def exposedStatus : SystemEvent → Option String
  | initial state => some ((state.result.map statusText).getD "")
  | _ => none

@[simp] theorem fields_previous (event : SystemEvent) (previous : Option D) :
    (event.fields previous).previousEventHash = previous := by cases event <;> rfl

@[simp] theorem fields_legacy (event : SystemEvent) (previous : Option D) :
    (event.fields previous).legacyHistoryIncomplete = false := by cases event <;> rfl

/-- Only initial events hand a verification status on. -/
theorem lookup_verification_status (event : SystemEvent) (previous : Option D) :
    Json.lookup (event.fields previous).payload.reverse "verification_status" = event.exposedStatus.map .str := by
  cases event with
  | initial state => rfl
  | refresh claimId status verificationId provider availableAt => rfl
  | lifecycle claimId toStatus lifecycleEventId recordedAt effectiveAt => rfl

/-- The writer of a stored event. -/
def Writes (event : SystemEvent) (stored : ClaimStateEvent D) : Prop :=
  stored.toEventFields = event.fields stored.previousEventHash

end SystemEvent

section Status
variable {D : Type}

def isInitial (event : ClaimStateEvent D) : Bool := event.eventType = "VERIFICATION_INITIAL"
def isVerification (event : ClaimStateEvent D) : Bool := isInitial event || event.eventType = "VERIFICATION_REFRESH"

def lastWhere (p : ClaimStateEvent D → Bool) (visible : List (ClaimStateEvent D)) : Option (ClaimStateEvent D) :=
  (visible.filter p).getLast?

/-- The projected verification status is the status of the last visible verification event. -/
def StatusCurrent (state : Fields) (visible : List (ClaimStateEvent D)) : Prop :=
  ∀ event, lastWhere isVerification visible = some event →
    Json.lookup state "verification_status" = Json.lookup event.payload "status"

/-- The last visible initial event hands on the status of the last visible verification
event: either that event is the initial one and encloses a result, or it repeats its status. -/
def StatusHandedOn (visible : List (ClaimStateEvent D)) : Prop :=
  ∀ event, lastWhere isVerification visible = some event →
    ∃ initial, lastWhere isInitial visible = some initial ∧
      Json.lookup initial.payload "verification_status" = Json.lookup event.payload "status"

@[simp] theorem lastWhere_append (p : ClaimStateEvent D → Bool) (visible : List (ClaimStateEvent D))
    (event : ClaimStateEvent D) :
    lastWhere p (visible ++ [event]) = if p event then some event else lastWhere p visible := by
  by_cases h : p event <;> simp [lastWhere, h]

theorem exposed_of_writes {writer : SystemEvent} {event : ClaimStateEvent D} (h : writer.Writes event) :
    Json.lookup event.payload.reverse "verification_status" =
      if isInitial event then Json.lookup event.payload "verification_status" else none := by
  have hpayload : event.payload = (writer.fields event.previousEventHash).payload := congrArg EventFields.payload h
  have htype : event.eventType = (writer.fields event.previousEventHash).eventType := congrArg EventFields.eventType h
  rw [isInitial, hpayload, htype, SystemEvent.lookup_verification_status]
  cases writer with
  | initial state => rfl
  | refresh claimId status verificationId provider availableAt => rfl
  | lifecycle claimId toStatus lifecycleEventId recordedAt effectiveAt => rfl

/-- A projection takes the verification status from the last initial event it can see. -/
theorem exposed_status {visible : List (ClaimStateEvent D)} (hw : ∀ event ∈ visible, ∃ writer : SystemEvent, writer.Writes event) :
    (visible.reverse.findSome? fun event => Json.lookup event.payload.reverse "verification_status") =
      (lastWhere isInitial visible).bind fun event => Json.lookup event.payload "verification_status" := by
  induction visible using List.reverseRecOn with
  | nil => rfl
  | append_singleton visible event ih =>
    obtain ⟨writer, hwrites⟩ := hw event (by simp)
    have hrest := ih fun e he => hw e (List.mem_append_left _ he)
    rw [List.reverse_append, List.reverse_singleton, List.singleton_append, List.findSome?_cons,
      exposed_of_writes hwrites, lastWhere_append, hrest]
    by_cases hi : isInitial event = true
    · obtain ⟨state, rfl⟩ : ∃ state, writer = .initial state := by
        have htype : event.eventType = (writer.fields event.previousEventHash).eventType :=
          congrArg EventFields.eventType hwrites
        cases writer with
        | initial state => exact ⟨state, rfl⟩
        | refresh => simp [isInitial, htype, SystemEvent.fields] at hi
        | lifecycle => simp [isInitial, htype, SystemEvent.fields] at hi
      have hpayload := congrArg EventFields.payload hwrites
      have hvalue : Json.lookup event.payload "verification_status" =
          some (.str ((state.result.map statusText).getD "")) := by
        rw [hpayload]
        rfl
      simp [hi, hvalue]
    · simp [hi]

variable [DecidableEq D] {digests : EventDigests D} {texts : ProjectionTexts D}

/-- A query on a chain of the system's events is shown the current verification status
exactly when the last initial event it sees hands that status on. -/
theorem projected_status_current_iff {projector : HistoricalClaimProjector D} {claimId : String}
    {clocks : QueryClocks DateTime} {contentSnapshotId : Option String} {instants : QueryClocks Time}
    {events : List (ClaimStateEvent D)} (h : projector.Admits claimId clocks contentSnapshotId instants)
    (hevents : projector.eventsFor digests claimId = .ok events)
    (hw : ∀ event ∈ events, ∃ writer : SystemEvent, writer.Writes event) :
    (∀ state, projector.project digests texts claimId clocks contentSnapshotId = .ok (some state) →
        StatusCurrent state (events.filter (·.visibleAt instants))) ↔
      StatusHandedOn (events.filter (·.visibleAt instants)) := by
  have hlegacy : ∀ event ∈ events, event.legacyHistoryIncomplete = false := by
    intro event he
    obtain ⟨writer, hwrites⟩ := hw event he
    exact (congrArg EventFields.legacyHistoryIncomplete hwrites).trans (writer.fields_legacy _)
  rw [HistoricalClaimProjector.project_admitted digests texts h hevents hlegacy]
  generalize hv : events.filter (·.visibleAt instants) = visible
  have hwv : ∀ event ∈ visible, ∃ writer : SystemEvent, writer.Writes event := by
    intro event he
    rw [← hv] at he
    exact hw event (List.mem_of_mem_filter he)
  have hstatus (state : Fields) (hs : projectVisible texts claimId contentSnapshotId visible = some state) :
      Json.lookup state "verification_status" =
        (lastWhere isInitial visible).bind fun event => Json.lookup event.payload "verification_status" := by
    rw [lookup_projectVisible texts (by decide) hs, folded, lookup_merge_fold texts _ _ (by decide), exposed_status hwv]
    cases contentSnapshotId <;> simp [initialState, Json.lookup_cons]
  constructor
  · intro hcurrent event hlast
    have hne : visible ≠ [] := by
      rintro rfl
      cases hlast
    obtain ⟨state, hs⟩ : ∃ state, projectVisible texts claimId contentSnapshotId visible = some state := by
      rw [projectVisible, if_neg (by simpa using hne)]
      split
      · exact ⟨_, rfl⟩
      · split <;> exact ⟨_, rfl⟩
    have hshown := hcurrent state (congrArg Except.ok hs) event hlast
    rw [hstatus state hs] at hshown
    cases hi : lastWhere isInitial visible with
    | some initial => exact ⟨initial, rfl, by rw [← hshown, hi]; rfl⟩
    | none =>
      -- A verification event always records a status.
      obtain ⟨writer, hwrites⟩ := hwv event (List.mem_of_mem_filter (List.mem_of_getLast? hlast))
      have hpayload := congrArg EventFields.payload hwrites
      rw [hi, hpayload] at hshown
      cases writer <;> simp [SystemEvent.fields, claimStatePayload, Json.lookup, Json.put] at hshown
  · intro hon state hs event hlast
    obtain ⟨initial, hi, heq⟩ := hon event hlast
    rw [hstatus state (Except.ok.inj hs), hi, Option.bind_some, heq]

end Status

section Plain

/-- A claim of a snapshot whose verification is still pending. -/
def pendingState : InitialState where
  claim := { claimId := "claim-1", subjectId := "600519", sourceSupportStatus := .supported }
  occurrence :=
    { occurrenceId := "co_1"
      claimId := "claim-1"
      sourceArtifactId := "source-1"
      transcriptArtifactId := "transcript-1"
      semanticSegmentId := "segment-1"
      assertionLocatorHash := "locator-1"
      evidenceRefs := ["evidence-1"]
      times :=
        { ingestedAt := .ofUtc 0
          extractionCompletedAt := .ofUtc 0
          snapshotCommittedAt := .ofUtc (seconds 60)
          availableFrom := .ofUtc (seconds 60)
          dependencies := by decide
          committed := by decide } }
  result := some .verificationPending
  snapshotId := "snapshot-1"
  producerCommit := "c0ffee"

def pendingEvent : ClaimStateEvent Json := plainDigests.sign ((SystemEvent.initial pendingState).fields none)

/-- The provider's answer, an hour later. -/
def verifiedEvent : ClaimStateEvent Json := plainDigests.sign
  ((SystemEvent.refresh "claim-1" .verified "vr_1" "akshare" (.ofUtc (seconds 3600))).fields (some pendingEvent.eventHash))

def eveningClocks : QueryClocks DateTime := ⟨.ofUtc (seconds 7200), .ofUtc (seconds 7200), .ofUtc (seconds 7200)⟩
def eveningInstants : QueryClocks Time := ⟨seconds 7200, seconds 7200, seconds 7200⟩

def refreshedProjector : HistoricalClaimProjector Json := { events := [pendingEvent, verifiedEvent] }

theorem refreshed_events : refreshedProjector.eventsFor plainDigests "claim-1" = .ok [pendingEvent, verifiedEvent] := by
  decide

theorem refresh_is_not_projected :
    ¬ ∀ state, refreshedProjector.project plainDigests plainTexts "claim-1" eveningClocks none = .ok (some state) →
      StatusCurrent state ([pendingEvent, verifiedEvent].filter (·.visibleAt eveningInstants)) := by
  intro h
  have hshown : (refreshedProjector.project plainDigests plainTexts "claim-1" eveningClocks none).toOption.bind
      (·.bind fun state => Json.lookup state "verification_status") = some (.str "VERIFICATION_PENDING") := by
    decide
  obtain ⟨projected, hp, hstatus⟩ := Option.bind_eq_some_iff.mp hshown
  obtain ⟨state, rfl, hpending⟩ := Option.bind_eq_some_iff.mp hstatus
  have hcurrent := h state (toOption_eq_some.mp hp) verifiedEvent (by decide)
  rw [hpending] at hcurrent
  revert hcurrent
  decide

theorem projected_status_refreshed :
    (∀ state, refreshedProjector.project plainDigests plainTexts "claim-1" eveningClocks none = .ok (some state) →
        StatusCurrent state ([pendingEvent, verifiedEvent].filter (·.visibleAt eveningInstants))) ↔
      StatusHandedOn ([pendingEvent, verifiedEvent].filter (·.visibleAt eveningInstants)) :=
  projected_status_current_iff ⟨rfl, rfl, rfl⟩ refreshed_events fun event he => by
    rcases List.mem_pair.mp he with rfl | rfl
    · exact ⟨.initial pendingState, rfl⟩
    · exact ⟨.refresh "claim-1" .verified "vr_1" "akshare" (.ofUtc (seconds 3600)), rfl⟩

end Plain
end StockContent.Ledger
