import StockContent.Storage.Clock
import StockContent.Storage.Json

/-! Verification results: what a provider found about a claim, the identity a result is
stored under, and the entries that snapshots keep of it. -/
namespace StockContent.Verification
open Storage

inductive ResultStatus where
  | verified | contradicted | partiallyVerified | notVerifiable | notRequired | manualReview | expired
  | verificationPending
  deriving DecidableEq, Repr

/-- Statuses that say something about a market snapshot. -/
def ResultStatus.bound : ResultStatus → Bool
  | .verified | .contradicted | .partiallyVerified => true
  | _ => false

def ResultStatus.terminal (status : ResultStatus) : Bool := status != .verificationPending

/-- A datetime as it was written: the wall clock and, unless it is naive, its offset. -/
structure DateTime where
  wall : Time
  offset : Option Int
  deriving DecidableEq

/-- A naive datetime is read as UTC. -/
def DateTime.utc (d : DateTime) : Time := d.wall - d.offset.getD 0

def DateTime.ofUtc (t : Time) : DateTime := ⟨t, some 0⟩

@[simp] theorem DateTime.utc_ofUtc (t : Time) : (DateTime.ofUtc t).utc = t := by
  simp [DateTime.utc, DateTime.ofUtc]

def dayLength : Int := 86400000000

inductive FactDate where
  | day (day : Int)
  | moment (value : DateTime)
  deriving DecidableEq

/-- The instant a timestamp column keeps: a bare day is its midnight. -/
def FactDate.column : FactDate → Time
  | .day d => d * dayLength
  | .moment d => d.utc

/-- The day that is compared: the one on the value's own wall clock. -/
def FactDate.isoDay : FactDate → Int
  | .day d => d
  | .moment d => d.wall / dayLength

/-- The fields of a result, as a payload stores them. -/
structure ResultFields where
  claimId : String
  status : ResultStatus
  marketSnapshotId : Option String := none
  marketDataVersion : Option String := none
  factDate : Option FactDate := none
  adjustment : Option String := none
  verificationTimestamp : Option DateTime := none
  verificationRuleVersion : String := "verification_rule.v1"
  availableAt : Option DateTime := none
  referenceValue : Json := .null
  deviation : Option Rat := none
  reason : Option String := none
  deriving DecidableEq

def blank (s : String) : Bool := s.toList.all Char.isWhitespace

/-- A result about the market names the market data it was checked against. -/
def ResultFields.Bound (fields : ResultFields) : Prop :=
  fields.status.bound = true →
    (∃ s, fields.marketSnapshotId = some s ∧ blank s = false) ∧
    (∃ s, fields.marketDataVersion = some s ∧ blank s = false) ∧
    fields.factDate.isSome ∧ fields.verificationTimestamp.isSome

instance (fields : ResultFields) : Decidable fields.Bound :=
  decidable_of_iff (fields.status.bound = true → fields.marketSnapshotId.any (!blank ·) = true ∧
    fields.marketDataVersion.any (!blank ·) = true ∧ fields.factDate.isSome ∧ fields.verificationTimestamp.isSome)
    (by simp [ResultFields.Bound, Option.any_eq_true])

structure VerificationResult extends ResultFields where
  binding : toResultFields.Bound

/-- The payload that is written for a result. -/
def VerificationResult.modelDump (result : VerificationResult) : ResultFields := result.toResultFields

/-- `model_copy(update={"available_at": ...})`. -/
def VerificationResult.availableFrom (result : VerificationResult) (time : Time) : VerificationResult :=
  ⟨{ result.toResultFields with availableAt := some (.ofUtc time) }, result.binding⟩

@[simp] theorem VerificationResult.availableFrom_fields (result : VerificationResult) (time : Time) :
    (result.availableFrom time).toResultFields =
      { result.toResultFields with availableAt := some (.ofUtc time) } := rfl

/-- A result that binds nothing: its status does not ask for it. -/
def unboundResult (claimId : String) (status : ResultStatus) (h : status.bound = false)
    (reason : Option String) (ruleVersion : String) (availableAt : Option DateTime) : VerificationResult :=
  ⟨{ claimId, status, reason, verificationRuleVersion := ruleVersion, availableAt },
    fun hb => by rw [h] at hb; cases hb⟩

theorem ResultStatus.bound_notVerifiable : ResultStatus.notVerifiable.bound = false := rfl
theorem ResultStatus.bound_notRequired : ResultStatus.notRequired.bound = false := rfl

/-- Equality of stored payloads as decoded documents. -/
def ResultFields.same (a b : ResultFields) : Bool :=
  { a with referenceValue := .null } == { b with referenceValue := .null } &&
    a.referenceValue.same b.referenceValue

/-- Equality of payloads as text with sorted keys. -/
def ResultFields.sameText (a b : ResultFields) : Bool :=
  { a with referenceValue := a.referenceValue.canonical } ==
    { b with referenceValue := b.referenceValue.canonical }

@[simp] theorem ResultFields.same_self (a : ResultFields) : a.same a = true := by simp [same]
@[simp] theorem ResultFields.sameText_self (a : ResultFields) : a.sameText a = true := by simp [sameText]

/-- What identifies a result: availability is an envelope around it and is left out. -/
structure VerificationIdentity where
  claimId : String
  provider : String
  result : ResultFields
  deriving DecidableEq

def identityOf (claimId provider : String) (fields : ResultFields) : VerificationIdentity :=
  ⟨claimId, provider,
    { fields with availableAt := none, referenceValue := fields.referenceValue.canonical }⟩

/-- How results are named and read back. The digest is taken of the identity's text, once
with other than ASCII characters escaped and once with them kept; `validate` is the
reading of a stored payload by the model's own validation. -/
structure ResultCodec (Id : Type) where
  digest : Bool → VerificationIdentity → Id
  precedes : Id → Id → Bool
  validate : ResultFields → Except String VerificationResult

/-- Two names agree only for one identity. -/
def ResultCodec.CollisionFree {Id : Type} (codec : ResultCodec Id) : Prop :=
  ∀ escaped escaped' identity identity',
    codec.digest escaped identity = codec.digest escaped' identity' → identity = identity'

inductive ClaimType where
  | price | return_ | valuation | financialMetric | corporateEvent | industryRelation | forecast | opinion
  | inference
  deriving DecidableEq, Repr

structure FinancialClaim where
  claimId : String
  claimType : ClaimType
  factCategory : String
  deriving DecidableEq

def isQuantVerifiable (claim : FinancialClaim) : Bool :=
  match claim.claimType with
  | .price | .return_ | .valuation | .financialMetric => true
  | _ => false

/-- What a snapshot keeps of a verification: a pending entry names its job, any other
entry its result, and an enclosed result is about the same claim and status. -/
structure VerificationArtifactEntry (Id : Type) where
  claimId : String
  provider : String
  status : ResultStatus
  verificationId : Option Id
  verificationJobId : Option String
  result : Option VerificationResult
  lineage : if status = .verificationPending then verificationJobId.any (· ≠ "") = true
    else verificationId.isSome = true
  enclosed : ∀ r, result = some r → r.claimId = claimId ∧ r.status = status

def VerificationArtifactEntry.fromResult {Id : Type} (result : VerificationResult) (provider : String)
    (verificationId : Option Id) (verificationJobId : Option String) :
    Except String (VerificationArtifactEntry Id) :=
  if h : if result.status = .verificationPending then verificationJobId.any (· ≠ "") = true
      else verificationId.isSome = true then
    .ok ⟨result.claimId, provider, result.status, verificationId, verificationJobId, some result, h,
      fun r hr => by cases hr; exact ⟨rfl, rfl⟩⟩
  else if result.status = .verificationPending then
    .error "pending verification artifact entry requires verification_job_id"
  else .error "terminal verification artifact entry requires verification_id"

end StockContent.Verification
