import StockContent.Lifecycle.ClaimMirror

/-! The review of forecasts whose target has passed: an event in the lifecycle ledger, and
then its mirror in the claim's state stream. Each store commits on its own. -/
namespace StockContent.Lifecycle
open Storage Verification Ledger

inductive TemporalRole where
  | validAt | observedAt | eventAt | announcedAt | effectiveAt | reportingPeriod | reportedAt | forecastTarget
  | conditionPeriod | invalidationPeriod | recordDate | exDate | paymentDate | executionPeriod
  deriving DecidableEq, Repr

structure ClaimTemporalBinding where
  role : TemporalRole
  normalizationStatus : String := "UNRESOLVED"
  endTime : Option DateTime := none
  endDate : Option Int := none
  timezone : Option String := none
  deriving DecidableEq

structure FinancialClaim where
  claimId : String
  claimType : String
  temporalBindings : List ClaimTemporalBinding
  named : claimId ≠ ""

/-- What a timezone database knows of a name: the offset at each wall clock time, nothing, or
an entry that cannot be read. -/
inductive ZoneInfo where
  | found (utcOffset : Time → Int)
  | notFound
  | unreadable

inductive ReviewError (D : Type) where
  | zoneUnreadable
  | lifecycle (error : LifecycleError)
  | ledger (error : LedgerError D)

structure LifecycleEvaluation where
  currentStatus : String
  action : String
  reasonCode : String

/-- The lifecycle policy; whether a target has passed is its caller's finding. -/
def evaluate (claimType currentStatus : String) (targetExpired : Bool) : LifecycleEvaluation :=
  if currentStatus ∈ ["REJECTED", "RETIRED", "RETRACTED", "INVALID", "SUPERSEDED"] then
    ⟨currentStatus, "KEEP", "TERMINAL"⟩
  else if targetExpired && claimType = "FORECAST" && currentStatus = "ACTIVE" then
    ⟨currentStatus, "OUTCOME_REVIEW", "FORECAST_TARGET_DATE_REACHED"⟩
  else ⟨currentStatus, "KEEP", "WITHIN_POLICY"⟩

structure ForecastOutcomeReviewResult where
  claimId : String
  transitioned : Bool
  lifecycleEvent : Option KnowledgeLifecycleEvent
  reasonCode : String

def skipped (claimId reasonCode : String) : ForecastOutcomeReviewResult := ⟨claimId, false, none, reasonCode⟩

structure ForecastOutcomeReview where
  claims : String → Option FinancialClaim
  zones : String → ZoneInfo
  names : LifecycleNames
  policyVersion : String := "lifecycle.v1"
  keyed : ∀ claimId claim, claims claimId = some claim → claim.claimId = claimId

/-- Targets that were normalized to an end. -/
def forecastTargetBindings (claim : FinancialClaim) : List ClaimTemporalBinding :=
  claim.temporalBindings.filter fun binding => binding.role = .forecastTarget &&
    upper binding.normalizationStatus ∉ ["PARTIAL".toList, "UNRESOLVED".toList] &&
    (binding.endDate.isSome || binding.endTime.isSome)

structure ReviewCall where
  claimId : String
  evaluationTime : DateTime
  recordedAt : Option DateTime := none

namespace ForecastOutcomeReview
variable {D : Type} (service : ForecastOutcomeReview)

/-- UTC is known under its names even without a database. -/
def declaredTimezone (timezone : Option String) : Except (ReviewError D) (Option (Time → Int)) :=
  match timezone.filter (· ≠ "") with
  | none => .ok (some fun _ => 0)
  | some name => match service.zones name with
    | .found utcOffset => .ok (some utcOffset)
    | .notFound => .ok (if name ∈ ["UTC", "Etc/UTC", "GMT"] then some fun _ => 0 else none)
    | .unreadable => .error .zoneUnreadable

/-- A target of a day ends with that day, in the declared timezone. -/
def resolvedTargetEnd (binding : ClaimTemporalBinding) : Except (ReviewError D) (Option DateTime) :=
  match binding.endTime, binding.endDate with
  | some endTime, _ => .ok (some endTime)
  | none, some endDate => do
    let timezone ← service.declaredTimezone binding.timezone
    let wall := endDate * dayLength + (dayLength - 1)
    return timezone.map fun utcOffset => ⟨wall, some (utcOffset wall)⟩
  | none, none => .ok none

def targetKey (value : DateTime) : Time ×ₗ String := toLex (value.utc, dateTimeText value)

/-- The earliest target, whatever the order of the bindings. -/
def selectTargetEnd (bindings : List ClaimTemporalBinding) : Except (ReviewError D) (Option DateTime) := do
  let candidates ← bindings.mapM service.resolvedTargetEnd
  return (candidates.filterMap id).argmin targetKey

/-- What the event of a review is named by. -/
def reviewIdentity (claim : FinancialClaim) (targetEnd : DateTime) : LifecycleIdentity where
  targetType := .claim
  targetId := claim.claimId
  fromStatus := some "ACTIVE"
  toStatus := "OUTCOME_REVIEW"
  effectiveAt := targetEnd
  reasonCode := "FORECAST_TARGET_DATE_REACHED"
  policyVersion := service.policyVersion

/-- The checks before anything is written: a reason to leave the claim alone, or its event. -/
def dueReview (call : ReviewCall) (t : LifecycleTable) :
    Except (ReviewError D) (ForecastOutcomeReviewResult ⊕ KnowledgeLifecycleEvent) :=
  match service.claims call.claimId with
  | none => .ok (.inl (skipped call.claimId "CLAIM_NOT_FOUND"))
  | some claim =>
    if claim.claimType ≠ "FORECAST" then .ok (.inl (skipped call.claimId "NOT_FORECAST"))
    else do
      match ← service.selectTargetEnd (forecastTargetBindings claim) with
      | none => return .inl (skipped call.claimId "FORECAST_TARGET_UNRESOLVED")
      | some targetEnd =>
        if ¬ targetEnd.utc < call.evaluationTime.utc then
          return .inl (skipped call.claimId "FORECAST_TARGET_NOT_REACHED")
        else match ← (selectAsOf .claim claim.claimId call.evaluationTime call.evaluationTime t).mapError .lifecycle with
          | none => return .inl (skipped call.claimId "CLAIM_LIFECYCLE_NOT_FOUND")
          | some current =>
            let decision := evaluate claim.claimType current.toStatus true
            if current.toStatus ≠ "ACTIVE" then return .inl (skipped call.claimId "CLAIM_NOT_ACTIVE")
            else if decision.action ≠ "OUTCOME_REVIEW" then return .inl (skipped call.claimId decision.reasonCode)
            else return .inr (service.names.event (service.reviewIdentity claim targetEnd)
              (call.recordedAt.getD call.evaluationTime))

variable [DecidableEq D] (schema : LedgerSchema D)

/-- The second write: what was committed before it stays. -/
def mirrorReview (event : KnowledgeLifecycleEvent) (result : ForecastOutcomeReviewResult) (s : Stores D) :
    Stores D × Except (ReviewError D) ForecastOutcomeReviewResult :=
  match appendClaimState schema event s.ledger with
  | .error e => (s, .error (.ledger e))
  | .ok (ledger, _) => ({ s with ledger }, .ok result)

def reviewClaim (call : ReviewCall) (s : Stores D) : Stores D × Except (ReviewError D) ForecastOutcomeReviewResult :=
  match service.dueReview call s.lifecycle with
  | .error e => (s, .error e)
  | .ok (.inl result) => (s, .ok result)
  | .ok (.inr event) => match get event.lifecycleEventId s.lifecycle with
    | some stored => mirrorReview schema stored ⟨call.claimId, true, some stored, "ALREADY_OUTCOME_REVIEW"⟩ s
    | none => match append event s.lifecycle with
      | .error e => (s, .error (.lifecycle e))
      | .ok (lifecycle, _) =>
        mirrorReview schema event ⟨call.claimId, true, some event, event.reasonCode⟩ { s with lifecycle }

def reviews : Machine (Stores D) ReviewCall (Except (ReviewError D) ForecastOutcomeReviewResult) :=
  ⟨fun s call => service.reviewClaim schema call s⟩

end ForecastOutcomeReview
end StockContent.Lifecycle
