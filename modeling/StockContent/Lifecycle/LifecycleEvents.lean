import Mathlib.Data.List.MinMax
import Mathlib.Data.Prod.Lex
import StockContent.Occurrence.OccurrenceRepository
import StockContent.Storage.Machine
import StockContent.Storage.Table

/-! Lifecycle events of claims and occurrences: an append-only ledger of its own, read by
business and record time. -/
namespace StockContent.Lifecycle
open Storage Verification Occurrence

inductive LifecycleTargetType where
  | claim | occurrence
  deriving DecidableEq, Repr

/-- What an event is named by: when it was recorded is left out. -/
structure LifecycleIdentity where
  targetType : LifecycleTargetType
  targetId : String
  fromStatus : Option String := none
  toStatus : String
  effectiveAt : DateTime
  reasonCode : String
  policyVersion : String
  deriving DecidableEq

structure KnowledgeLifecycleEvent extends LifecycleIdentity where
  lifecycleEventId : String
  recordedAt : DateTime
  supersedesEventId : Option String := none
  deriving DecidableEq

/-- The digest that names lifecycle events. -/
structure LifecycleNames where
  nameOf : LifecycleIdentity → String
  nonempty : ∀ identity, nameOf identity ≠ ""

def LifecycleNames.event (names : LifecycleNames) (identity : LifecycleIdentity) (recordedAt : DateTime) :
    KnowledgeLifecycleEvent :=
  { identity with lifecycleEventId := names.nameOf identity, recordedAt }

structure LifecycleEventLedgerRow where
  lifecycleEventId : String
  targetType : LifecycleTargetType
  targetId : String
  fromStatus : Option String
  toStatus : String
  effectiveAt : Time
  recordedAt : Time
  reasonCode : String
  policyVersion : String
  supersedesEventId : Option String
  deriving DecidableEq

abbrev LifecycleTable := Table LifecycleEventLedgerRow.lifecycleEventId

inductive LifecycleError where
  | valueError (message : String)
  | typeError
  | integrityError
  deriving DecidableEq

def KnowledgeLifecycleEvent.row (event : KnowledgeLifecycleEvent) : LifecycleEventLedgerRow where
  lifecycleEventId := event.lifecycleEventId
  targetType := event.targetType
  targetId := event.targetId
  fromStatus := event.fromStatus
  toStatus := event.toStatus
  effectiveAt := event.effectiveAt.utc
  recordedAt := event.recordedAt.utc
  reasonCode := event.reasonCode
  policyVersion := event.policyVersion
  supersedesEventId := event.supersedesEventId

/-- Instants are read back as UTC. -/
def LifecycleEventLedgerRow.event (row : LifecycleEventLedgerRow) : KnowledgeLifecycleEvent where
  lifecycleEventId := row.lifecycleEventId
  targetType := row.targetType
  targetId := row.targetId
  fromStatus := row.fromStatus
  toStatus := row.toStatus
  effectiveAt := .ofUtc row.effectiveAt
  recordedAt := .ofUtc row.recordedAt
  reasonCode := row.reasonCode
  policyVersion := row.policyVersion
  supersedesEventId := row.supersedesEventId

/-- An id that is taken has to store this very event, by instants. -/
def append (event : KnowledgeLifecycleEvent) (t : LifecycleTable) :
    Except LifecycleError (LifecycleTable × KnowledgeLifecycleEvent) :=
  match t.get event.lifecycleEventId with
  | some row =>
    if row = event.row then .ok (t, event)
    else .error (.valueError ("lifecycle event id " ++ event.lifecycleEventId ++ " already stores different payload"))
  | none => match t.insert event.row with
    | some t => .ok (t, event)
    | none => .error .integrityError

def get (lifecycleEventId : String) (t : LifecycleTable) : Option KnowledgeLifecycleEvent :=
  (t.get lifecycleEventId).map (·.event)

section Select

/-- Events in force at a business time, as far as they were recorded by a knowledge time. -/
def candidatesAsOf (targetType : LifecycleTargetType) (targetId : String) (businessAsOf knowledgeAsOf : Time)
    (events : List KnowledgeLifecycleEvent) : List KnowledgeLifecycleEvent :=
  events.filter fun event => event.targetType = targetType && event.targetId = targetId &&
    event.effectiveAt.utc ≤ businessAsOf && event.recordedAt.utc ≤ knowledgeAsOf

instance : Preorder Time := Int.instLinearOrder.toPreorder

/-- `(effective_at, recorded_at, lifecycle_event_id)`. -/
def sortKey (event : KnowledgeLifecycleEvent) : Time ×ₗ Time ×ₗ String :=
  toLex (event.effectiveAt.utc, toLex (event.recordedAt.utc, event.lifecycleEventId))

def selectLifecycleEvent (targetType : LifecycleTargetType) (targetId : String) (businessAsOf knowledgeAsOf : Time)
    (events : List KnowledgeLifecycleEvent) : Option KnowledgeLifecycleEvent :=
  (candidatesAsOf targetType targetId businessAsOf knowledgeAsOf events).argmax sortKey

theorem sortKey_id {a b : KnowledgeLifecycleEvent} (h : sortKey a = sortKey b) :
    a.lifecycleEventId = b.lifecycleEventId :=
  congrArg (fun key : Time ×ₗ Time ×ₗ String => (ofLex (ofLex key).2).2) h

/-- Among events with ids of their own the selected one is the only greatest. -/
theorem argmax_sortKey_iff {events : List KnowledgeLifecycleEvent} (hn : (events.map (·.lifecycleEventId)).Nodup)
    {event : KnowledgeLifecycleEvent} (hm : event ∈ events) :
    events.argmax sortKey = some event ↔ ∀ other ∈ events, sortKey other ≤ sortKey event := by
  constructor
  · exact fun h other ho => List.le_of_mem_argmax ho h
  · intro h
    obtain ⟨best, hbest⟩ : ∃ best, events.argmax sortKey = some best := by
      refine Option.ne_none_iff_exists'.mp fun hnone => ?_
      exact List.ne_nil_of_mem hm (List.argmax_eq_none.mp hnone)
    have hmb := List.argmax_mem hbest
    have hsame := le_antisymm (h best hmb) (List.le_of_mem_argmax hm hbest)
    rw [hbest, List.inj_on_of_nodup_map hn hmb hm (sortKey_id hsame)]

/-- The stored events of a target. -/
def eventsOf (targetType : LifecycleTargetType) (targetId : String) (t : LifecycleTable) :
    List KnowledgeLifecycleEvent :=
  (t.rows.filter fun row => row.targetType = targetType && row.targetId = targetId).map (·.event)

/-- Stored instants are aware: a naive clock cannot be compared with them. -/
def selectAsOf (targetType : LifecycleTargetType) (targetId : String) (businessAsOf knowledgeAsOf : DateTime)
    (t : LifecycleTable) : Except LifecycleError (Option KnowledgeLifecycleEvent) :=
  let events := eventsOf targetType targetId t
  if events.any fun event => businessAsOf.offset = none ||
      (event.effectiveAt.utc ≤ businessAsOf.utc && knowledgeAsOf.offset = none) then .error .typeError
  else .ok (selectLifecycleEvent targetType targetId businessAsOf.utc knowledgeAsOf.utc events)

end Select

/-- The events a run projects for its claims and occurrences, all at one timestamp; what a
person has to review first is not active yet. -/
def lifecycleProjection (names : LifecycleNames) (claimIds : List String) (occurrences : List ClaimOccurrence)
    (timestamp : DateTime) : List KnowledgeLifecycleEvent :=
  let reviewed := occurrences.filter fun occurrence =>
    (occurrenceReview occurrence).status = .humanReviewRequired
  let initial (targetType : LifecycleTargetType) (targetId : String) (reviewRequired : Bool) :=
    names.event
      { targetType
        targetId
        toStatus := if reviewRequired then "EXTRACTED" else "ACTIVE"
        effectiveAt := timestamp
        reasonCode := if reviewRequired then "INITIAL_EXTRACTION_HUMAN_REVIEW_REQUIRED" else "INITIAL_EXTRACTION"
        policyVersion := "lifecycle.v1" } timestamp
  claimIds.map (fun id => initial .claim id (reviewed.any (·.claimId = id))) ++
    occurrences.map fun occurrence => initial .occurrence occurrence.occurrenceId
      (reviewed.any (·.occurrenceId = occurrence.occurrenceId))

end StockContent.Lifecycle
