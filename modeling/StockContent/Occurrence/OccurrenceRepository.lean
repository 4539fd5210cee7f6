import StockContent.Storage.CanonicalText
import StockContent.Storage.Ensure
import StockContent.Storage.Machine
import StockContent.Storage.StableMembership
import StockContent.Verification.VerificationResult

/-! Claim occurrences: where a source asserts a claim, on which evidence, and when each
step that led to it happened. Their rows are immutable: the id of an occurrence is made of what it asserts and where,
and the first row under an id stays. -/
namespace StockContent.Occurrence
open Storage Verification

inductive AvailabilityQuality where
  | exact | publishedTimeProxy | ingestTimeUpperBound | unknown
  deriving DecidableEq, Repr

def AvailabilityQuality.text : AvailabilityQuality → String
  | .exact => "EXACT"
  | .publishedTimeProxy => "PUBLISHED_TIME_PROXY"
  | .ingestTimeUpperBound => "INGEST_TIME_UPPER_BOUND"
  | .unknown => "UNKNOWN"

/-- `==` of datetimes: a naive and an aware value differ. -/
def sameMoment (a b : DateTime) : Bool := a.offset.isSome = b.offset.isSome ∧ a.utc = b.utc

/-- An occurrence is available from the commit of its snapshot, after all it depends on. -/
structure OccurrenceTimes where
  assertedAt : Option DateTime := none
  sourcePublishedAt : Option DateTime := none
  sourceAvailableAt : Option DateTime := none
  sourceAvailabilityQuality : AvailabilityQuality := .unknown
  ingestedAt : DateTime
  extractionCompletedAt : DateTime
  snapshotCommittedAt : DateTime
  availableFrom : DateTime
  dependencies : ingestedAt.utc ≤ availableFrom.utc ∧ extractionCompletedAt.utc ≤ availableFrom.utc
  committed : sameMoment availableFrom snapshotCommittedAt = true
  deriving DecidableEq

structure ClaimOccurrence where
  occurrenceId : String
  claimId : String
  sourceArtifactId : String
  transcriptArtifactId : String
  semanticSegmentId : String
  assertionLocatorHash : String
  evidenceRefs : List String
  secondaryEvidenceRefs : List String := []
  conditionEvidenceRefs : List String := []
  invalidationEvidenceRefs : List String := []
  temporalEvidenceRefs : List String := []
  times : OccurrenceTimes
  provenance : List (String × Json) := []
  deriving DecidableEq

/-- `dict(value or {})`. -/
def fieldsOf : Option Json → List (String × Json)
  | some (.obj fields) => fields
  | _ => []

inductive ReviewState where
  | humanReviewRequired | notRequired
  deriving DecidableEq, Repr

def ReviewState.text : ReviewState → String
  | .humanReviewRequired => "HUMAN_REVIEW_REQUIRED"
  | .notRequired => "NOT_REQUIRED"

structure OccurrenceReview where
  status : ReviewState
  reasonCodes : List String
  deriving DecidableEq

def OccurrenceReview.json (review : OccurrenceReview) : Json :=
  .obj [("status", .str review.status.text), ("reason_codes", .arr (review.reasonCodes.map .str))]

def reasonCodes : Option Json → List String
  | some (.arr items) => items.filterMap fun
    | .str s => if s = "" then none else some s
    | _ => none
  | _ => []

/-- The review that an occurrence's provenance asks for; none is never read as an approval. -/
def occurrenceReview (occurrence : ClaimOccurrence) : OccurrenceReview :=
  let review := fieldsOf (Json.lookup (fieldsOf (Json.lookup occurrence.provenance "bundle_v2")) "occurrence_review")
  { status := if Json.lookup review "status" = some (.str "HUMAN_REVIEW_REQUIRED") then .humanReviewRequired
      else .notRequired
    reasonCodes := (reasonCodes (Json.lookup review "reason_codes")).dedup.insertionSort (· ≤ ·) }

/-- How documents are hashed: their text, and the hexadecimal digest of a text. -/
structure Hashes where
  floatText : Rat → String
  hexdigest : String → String
  length : ∀ text, (hexdigest text).length = 64
  digits : ∀ text, ∀ c ∈ (hexdigest text).toList, c ∈ "0123456789abcdef".toList

namespace Hashes
variable (hashes : Hashes)

def text (v : Json) : String := Json.canonicalText hashes.floatText v
def contentHash (v : Json) : String := hashes.hexdigest (hashes.text v)

/-- Temporal references are references to the same evidence, in another role. -/
def assertionLocatorHashOf (sourceArtifactId transcriptArtifactId semanticSegmentId : String)
    (evidenceRefs temporalEvidenceRefs : List String) : String :=
  hashes.contentHash (.obj
    [("source_artifact_id", .str sourceArtifactId), ("transcript_artifact_id", .str transcriptArtifactId),
      ("semantic_segment_id", .str semanticSegmentId),
      ("evidence_refs", .arr ((sortedSet (evidenceRefs ++ temporalEvidenceRefs)).map .str))])

def occurrenceIdOf (claimId sourceArtifactId assertionLocatorHash : String) : String :=
  let digest := hashes.contentHash (.obj
    [("claim_id", .str claimId), ("source_artifact_id", .str sourceArtifactId),
      ("assertion_locator_hash", .str assertionLocatorHash)])
  "co_" ++ String.ofList (digest.toList.take 61)

end Hashes

section Repository
variable (hashes : Hashes)

def ClaimOccurrence.allRefs (occurrence : ClaimOccurrence) : List String :=
  occurrence.evidenceRefs ++ occurrence.secondaryEvidenceRefs ++ occurrence.conditionEvidenceRefs ++
    occurrence.invalidationEvidenceRefs

def validateOccurrenceIdentity (occurrence : ClaimOccurrence) : Except String Unit := do
  let expectedLocator := hashes.assertionLocatorHashOf occurrence.sourceArtifactId occurrence.transcriptArtifactId
    occurrence.semanticSegmentId occurrence.allRefs occurrence.temporalEvidenceRefs
  require ("occurrence " ++ occurrence.occurrenceId ++ " assertion locator does not match evidence coordinates")
    (occurrence.assertionLocatorHash = expectedLocator)
  require ("occurrence id " ++ occurrence.occurrenceId ++ " does not match immutable identity")
    (occurrence.occurrenceId =
      hashes.occurrenceIdOf occurrence.claimId occurrence.sourceArtifactId expectedLocator)

/-- What an occurrence is told apart by; the roles of its evidence are not part of it. -/
def occurrenceIdentity (occurrence : ClaimOccurrence) : Json :=
  .obj
    [("claim_id", .str occurrence.claimId), ("source_artifact_id", .str occurrence.sourceArtifactId),
      ("transcript_artifact_id", .str occurrence.transcriptArtifactId),
      ("semantic_segment_id", .str occurrence.semanticSegmentId),
      ("assertion_locator_hash", .str occurrence.assertionLocatorHash),
      ("evidence_coordinate_refs",
        .arr ((sortedSet (occurrence.allRefs ++ occurrence.temporalEvidenceRefs)).map .str))]

/-- A row as it is read again: each role has its references once. -/
def ClaimOccurrence.stored (occurrence : ClaimOccurrence) : ClaimOccurrence :=
  { occurrence with
    evidenceRefs := sortedSet occurrence.evidenceRefs
    secondaryEvidenceRefs := sortedSet occurrence.secondaryEvidenceRefs
    conditionEvidenceRefs := sortedSet occurrence.conditionEvidenceRefs
    invalidationEvidenceRefs := sortedSet occurrence.invalidationEvidenceRefs
    temporalEvidenceRefs := sortedSet occurrence.temporalEvidenceRefs }

abbrev OccurrenceTable := Table ClaimOccurrence.occurrenceId

def compareOccurrenceIdentity (existing candidate : ClaimOccurrence) : Except String Unit :=
  require ("occurrence id " ++ candidate.occurrenceId ++ " already stores a different identity")
    (hashes.text (occurrenceIdentity existing) = hashes.text (occurrenceIdentity candidate))

/-- The loser of a race for an id reads the winner's row, and writes nothing. -/
def saveInSession (occurrence : ClaimOccurrence) (rows : OccurrenceTable) :
    Except String (OccurrenceTable × ClaimOccurrence) := do
  validateOccurrenceIdentity hashes occurrence
  match rows.insert occurrence.stored with
  | some rows => return (rows, occurrence)
  | none =>
    match rows.get occurrence.occurrenceId with
    | none => .error "occurrence disappeared after a unique-key conflict"
    | some existing => do
      compareOccurrenceIdentity hashes existing occurrence
      return (rows, existing)

def saveAll (rows : OccurrenceTable) : List ClaimOccurrence → Except String OccurrenceTable
  | [] => .ok rows
  | occurrence :: occurrences => do
    let (rows, _) ← saveInSession hashes occurrence rows
    saveAll rows occurrences

end Repository

section Facts
variable {hashes : Hashes} {rows rows' : OccurrenceTable}

theorem saveInSession_rows {occurrence existing : ClaimOccurrence}
    (h : saveInSession hashes occurrence rows = .ok (rows', existing)) :
    rows' = (rows.insert occurrence.stored).getD rows := by
  obtain ⟨-, h⟩ := then_eq_ok.mp h
  cases hi : rows.insert occurrence.stored with
  | some inserted =>
    rw [hi] at h
    cases h
    rfl
  | none =>
    rw [hi] at h
    dsimp only at h
    split at h
    · cases h
    · obtain ⟨-, h⟩ := then_eq_ok.mp h
      cases h
      rfl

/-- Rows that were there stay, and a free id gets the first occurrence that has it. -/
theorem saveAll_get {occurrences : List ClaimOccurrence} (h : saveAll hashes rows occurrences = .ok rows')
    (id : String) :
    rows'.get id = (rows.get id).or ((occurrences.find? (·.occurrenceId = id)).map (·.stored)) := by
  induction occurrences generalizing rows with
  | nil =>
    cases h
    simp
  | cons occurrence occurrences ih =>
    obtain ⟨⟨next, existing⟩, hfirst, h⟩ := bind_eq_ok.mp h
    rw [ih h, saveInSession_rows hfirst, Table.get_insert_getD, Option.or_assoc, List.find?_cons]
    congr 1
    by_cases hid : occurrence.occurrenceId = id
    · have hkey : occurrence.stored.occurrenceId = id := hid
      simp [hid, hkey]
    · have hkey : occurrence.stored.occurrenceId ≠ id := hid
      simp [hid, hkey]

/-- Every id of a run that was saved has a row. -/
theorem saveAll_stored {occurrences : List ClaimOccurrence} (h : saveAll hashes rows occurrences = .ok rows')
    {occurrence : ClaimOccurrence} (hin : occurrence ∈ occurrences) :
    ∃ row, rows'.get occurrence.occurrenceId = some row ∧ (rows.get occurrence.occurrenceId = some row ∨
      rows.get occurrence.occurrenceId = none ∧ ∃ first ∈ occurrences,
        first.occurrenceId = occurrence.occurrenceId ∧ row = first.stored) := by
  have hget := saveAll_get h occurrence.occurrenceId
  cases hrow : rows.get occurrence.occurrenceId with
  | some row =>
    rw [hrow, Option.some_or] at hget
    exact ⟨row, hget, .inl rfl⟩
  | none =>
    rw [hrow, Option.none_or] at hget
    cases hfirst : occurrences.find? (·.occurrenceId = occurrence.occurrenceId) with
    | none =>
      have hnone := List.find?_eq_none.mp hfirst occurrence hin
      simp at hnone
    | some first =>
      rw [hfirst] at hget
      exact ⟨first.stored, hget, .inr ⟨rfl, first, List.mem_of_find?_eq_some hfirst,
        by simpa using List.find?_some hfirst, rfl⟩⟩

/-- A row has the identity of the occurrence it was made from. -/
@[simp] theorem occurrenceIdentity_stored (occurrence : ClaimOccurrence) :
    occurrenceIdentity occurrence.stored = occurrenceIdentity occurrence := by
  have hrefs : sortedSet (occurrence.stored.allRefs ++ occurrence.stored.temporalEvidenceRefs) =
      sortedSet (occurrence.allRefs ++ occurrence.temporalEvidenceRefs) := by
    apply sortedSet_congr
    simp [ClaimOccurrence.stored, ClaimOccurrence.allRefs]
  rw [occurrenceIdentity, hrefs]
  rfl

theorem saveInSession_ok {occurrence : ClaimOccurrence} (hvalid : validateOccurrenceIdentity hashes occurrence = .ok ())
    (h : ∀ row, rows.get occurrence.occurrenceId = some row → occurrenceIdentity row = occurrenceIdentity occurrence) :
    ∃ existing, saveInSession hashes occurrence rows = .ok ((rows.insert occurrence.stored).getD rows, existing) := by
  cases hi : rows.insert occurrence.stored with
  | some inserted =>
    refine ⟨occurrence, ?_⟩
    rw [saveInSession, hvalid, ok_bind, hi]
    rfl
  | none =>
    obtain ⟨row, hrow⟩ := Option.ne_none_iff_exists'.mp (Table.insert_eq_none.mp hi)
    have hsame : compareOccurrenceIdentity hashes row occurrence = .ok () := by
      rw [compareOccurrenceIdentity, require_eq_ok, h row hrow]
      exact decide_eq_true rfl
    refine ⟨row, ?_⟩
    rw [saveInSession, hvalid, ok_bind, hi]
    dsimp only
    rw [show rows.get occurrence.occurrenceId = some row from hrow]
    dsimp only
    rw [hsame]
    rfl

/-- Occurrences are saved where those that have one id, stored or not, have one identity. -/
theorem saveAll_ok {occurrences : List ClaimOccurrence}
    (hvalid : ∀ occurrence ∈ occurrences, validateOccurrenceIdentity hashes occurrence = .ok ())
    (hstored : ∀ occurrence ∈ occurrences, ∀ row, rows.get occurrence.occurrenceId = some row →
      occurrenceIdentity row = occurrenceIdentity occurrence)
    (hown : ∀ occurrence ∈ occurrences, ∀ other ∈ occurrences, other.occurrenceId = occurrence.occurrenceId →
      occurrenceIdentity other = occurrenceIdentity occurrence) :
    ∃ rows', saveAll hashes rows occurrences = .ok rows' := by
  induction occurrences generalizing rows with
  | nil => exact ⟨rows, rfl⟩
  | cons first occurrences ih =>
    obtain ⟨hvalid, hvalids⟩ := List.forall_mem_cons.mp hvalid
    obtain ⟨existing, hfirst⟩ := saveInSession_ok hvalid (hstored first List.mem_cons_self)
    rw [saveAll, hfirst, ok_bind]
    refine ih hvalids ?_ fun occurrence hin other hother =>
      hown occurrence (List.mem_cons_of_mem first hin) other (List.mem_cons_of_mem first hother)
    intro occurrence hin row hrow
    rw [Table.get_insert_getD] at hrow
    cases hget : rows.get occurrence.occurrenceId with
    | some stored =>
      rw [hget, Option.some_or] at hrow
      cases hrow
      exact hstored occurrence (List.mem_cons_of_mem first hin) row hget
    | none =>
      rw [hget, Option.none_or, Option.ite_none_right_eq_some] at hrow
      obtain ⟨hid, ⟨⟩⟩ := hrow
      rw [occurrenceIdentity_stored]
      exact hown occurrence (List.mem_cons_of_mem first hin) first List.mem_cons_self hid

/-- Ids are of one length, and stand for themselves in a document's text. -/
theorem Hashes.occurrenceIdOf_length (claimId source locator : String) :
    (hashes.occurrenceIdOf claimId source locator).length = 64 := by
  simp only [occurrenceIdOf, String.length_append, String.length_ofList, List.length_take, String.length_toList,
    contentHash, hashes.length]
  rfl

theorem Hashes.occurrenceIdOf_plain (claimId source locator : String) :
    Json.Plain (hashes.occurrenceIdOf claimId source locator) := by
  have hplain : ∀ c ∈ "co_0123456789abcdef".toList, Json.escaped c = [c] := by simp [Json.escaped]
  intro c hc
  simp only [occurrenceIdOf, String.toList_append, String.toList_ofList] at hc
  refine hplain c ?_
  rcases List.mem_append.mp hc with hc | hc
  · exact List.mem_append_left _ hc
  · have hdigit := hashes.digits _ c (List.mem_of_mem_take hc)
    exact List.mem_append_right "co_".toList hdigit

end Facts
end StockContent.Occurrence
