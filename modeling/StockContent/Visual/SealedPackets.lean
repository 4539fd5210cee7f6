import StockContent.Occurrence.OccurrenceRepository
import StockContent.Visual.ReplayReader

/-! The packets of a snapshot: sealed in an artifact, kept in the provenance of the occurrences, and compared by a
replay. -/
namespace StockContent.Visual
open Storage Occurrence

/-- A claim of a run, with its draft and the evidence that grounds it. -/
structure GroundedClaim where
  claimId : String
  primaryEvidenceRefs : List String
  secondaryEvidenceRefs : List String := []
  conditionEvidenceRefs : List String := []
  invalidationEvidenceRefs : List String := []
  temporalEvidenceRefs : List String := []
  draft : ClaimOccurrenceDraft
  extractionModelId : String
  extractionPromptVersion : String
  semanticEnvelope : Json
  evidenceWindowIds : List String

/-- What a run knows when its occurrences are made. -/
structure OccurrenceContext where
  sourceArtifactId : String
  transcriptArtifactId : String
  times : OccurrenceTimes
  artifacts : VisualArtifacts
  checks : List Crosscheck
  str : Json → String
  claims : List GroundedClaim
  packetArtifactId : String

structure SealedSnapshot where
  occurrenceIds : List String
  occurrencePackets : List Json
  packetArtifactId : String
  deriving DecidableEq

section Stage
variable (hashes : Hashes) (context : OccurrenceContext)

def claimOccurrence (grounded : GroundedClaim) : ClaimOccurrence :=
  let evidenceRefs := sortedSet grounded.primaryEvidenceRefs
  let locator := hashes.assertionLocatorHashOf context.sourceArtifactId context.transcriptArtifactId
    grounded.draft.semanticSegmentId
    (evidenceRefs ++ grounded.secondaryEvidenceRefs ++ grounded.conditionEvidenceRefs ++
      grounded.invalidationEvidenceRefs) grounded.temporalEvidenceRefs
  let occurrenceId := hashes.occurrenceIdOf grounded.claimId context.sourceArtifactId locator
  let scope : PacketScope := ⟨context.checks, grounded.evidenceWindowIds, grounded.draft, context.str⟩
  { occurrenceId
    claimId := grounded.claimId
    sourceArtifactId := context.sourceArtifactId
    transcriptArtifactId := context.transcriptArtifactId
    semanticSegmentId := grounded.draft.semanticSegmentId
    assertionLocatorHash := locator
    evidenceRefs
    secondaryEvidenceRefs := grounded.secondaryEvidenceRefs
    conditionEvidenceRefs := grounded.conditionEvidenceRefs
    invalidationEvidenceRefs := grounded.invalidationEvidenceRefs
    temporalEvidenceRefs := grounded.temporalEvidenceRefs
    times := context.times
    provenance :=
      [("model_id", .str grounded.extractionModelId), ("prompt_version", .str grounded.extractionPromptVersion),
        ("bundle_v2", grounded.semanticEnvelope),
        ("visual_evidence", (occurrenceVisualEvidencePacket context.artifacts scope occurrenceId).json)] }

def claimOccurrences : List ClaimOccurrence := context.claims.map (claimOccurrence hashes context)

/-- The packet in an occurrence's provenance. -/
def visualEvidence (occurrence : ClaimOccurrence) : Json :=
  .obj (fieldsOf (Json.lookup occurrence.provenance "visual_evidence"))

/-- The members of the artifacts that hold the ids and the packets of a run. -/
def sealedSnapshot : SealedSnapshot where
  occurrenceIds := stableMembership (fun id => hashes.text (.str id))
    (fun a b => hashes.text (.str a) ≤ hashes.text (.str b)) ((claimOccurrences hashes context).map (·.occurrenceId))
  occurrencePackets := stableMembership hashes.text (fun a b => hashes.text a ≤ hashes.text b)
    ((claimOccurrences hashes context).map visualEvidence)
  packetArtifactId := context.packetArtifactId

end Stage

section Publication
variable (hashes : Hashes)

structure PublicationDb where
  occurrences : OccurrenceTable
  snapshots : List SealedSnapshot

def PublicationDb.empty : PublicationDb := ⟨Table.empty, []⟩

/-- A snapshot and the rows of its occurrences are committed together, or not at all. -/
def publish (db : PublicationDb) (context : OccurrenceContext) : Except String PublicationDb := do
  let rows ← saveAll hashes db.occurrences (claimOccurrences hashes context)
  return ⟨rows, db.snapshots ++ [sealedSnapshot hashes context]⟩

def publicationStore : Machine PublicationDb OccurrenceContext (Except String Unit) where
  exec db context :=
    match publish hashes db context with
    | .ok db' => (db', .ok ())
    | .error e => (db, .error e)

end Publication

section Comparison

def occurrenceRow (rows : OccurrenceTable) (id : String) : Except ReplayFailure ClaimOccurrence :=
  match rows.get id with
  | none => .error (.integrity "REPLAY_LINEAGE_REFERENCE_MISSING" ("occurrence row " ++ id ++ " is missing") [])
  | some row => do
    require (.integrity "REPLAY_LINEAGE_REFERENCE_INVALID" ("occurrence row id does not match artifact: " ++ id) [])
      (row.occurrenceId = id)
    return row

/-- The packets of a snapshot have to be those of the rows of its occurrences, one by one. -/
def validateSealedPackets (rows : OccurrenceTable) (snapshot : SealedSnapshot) : Except ReplayFailure Unit := do
  let occurrences ← snapshot.occurrenceIds.mapM (occurrenceRow rows)
  let expected := (firstOfEach ClaimOccurrence.occurrenceId [] occurrences).map visualEvidence
  require (.integrity "REPLAY_LINEAGE_REFERENCE_INVALID"
    "sealed knowledge visual evidence differs from occurrence projection" [("artifact_id", snapshot.packetArtifactId)])
    ((Json.arr snapshot.occurrencePackets).same (.arr expected))

end Comparison

section Order
variable {hashes : Hashes}

/-- Ids of occurrences are of one length, and their texts are plain. -/
def IsOccurrenceId (id : String) : Prop := Json.Plain id ∧ id.length = 64

theorem isOccurrenceId_claimOccurrence (context : OccurrenceContext) (grounded : GroundedClaim) :
    IsOccurrenceId (claimOccurrence hashes context grounded).occurrenceId :=
  ⟨Hashes.occurrenceIdOf_plain _ _ _, Hashes.occurrenceIdOf_length _ _ _⟩

theorem text_str (s : String) : hashes.text (.str s) = String.ofList (Json.quoted s) := rfl

theorem text_str_inj {a b : String} (ha : IsOccurrenceId a) (hb : IsOccurrenceId b) :
    hashes.text (.str a) = hashes.text (.str b) ↔ a = b := by
  rw [text_str, text_str, String.ofList_inj, ha.1.quoted_inj hb.1]

theorem packet_canonical (packet : VisualEvidencePacket) : packet.json.canonical = .obj
    [("knowledge_id", .str packet.knowledgeId), ("occurrence_id", .str packet.occurrenceId),
      ("reason", (reasonJson packet.reason).canonical), ("status", .str packet.status.text),
      ("windows", (Json.arr (packet.windows.map WindowEntry.json)).canonical)] := by
  simp only [VisualEvidencePacket.json, Json.canonical, Json.canonicalFields, Json.sortFields]
  simp [List.insertionSort, List.orderedInsert]

def packetStart : List Char := '\x7b' :: Json.quoted "knowledge_id" ++ [':']

/-- The text of a packet starts with the id of its occurrence. -/
theorem packet_chars (packet : VisualEvidencePacket) : ∃ rest, Json.chars hashes.floatText packet.json.canonical =
    packetStart ++ (Json.quoted packet.knowledgeId ++ rest) := by
  rw [packet_canonical]
  simp only [packetStart, Json.chars, Json.fieldChars, List.intercalate, List.intersperse, List.flatten_cons,
    List.append_assoc, List.cons_append, List.nil_append]
  exact ⟨_, rfl⟩

/-- Packets that are equal as documents give one reason. -/
theorem reason_of_same {p q : VisualEvidencePacket} (h : p.json.same q.json = true) : p.reason = q.reason := by
  rw [Json.same, Json.canonical_numeric, Json.canonical_numeric, packet_canonical, packet_canonical, beq_iff_eq] at h
  simp only [Json.numeric, Json.numericFields, Json.obj.injEq, List.cons.injEq, Prod.mk.injEq] at h
  have hreason : (reasonJson p.reason).canonical.numeric = (reasonJson q.reason).canonical.numeric := h.2.2.1.2
  cases hp : p.reason with
  | none =>
    cases hq : q.reason with
    | none => rfl
    | some r' => simp [hp, hq, reasonJson, Json.canonical, Json.numeric, Json.number?] at hreason
  | some r =>
    cases hq : q.reason with
    | none => simp [hp, hq, reasonJson, Json.canonical, Json.numeric, Json.number?] at hreason
    | some r' =>
      simp only [hp, hq, reasonJson, Json.canonical, Json.numeric, Json.number?, Json.str.injEq] at hreason
      rw [PacketReason.text_injective hreason]

section Pair
variable {p q : VisualEvidencePacket} (hp : IsOccurrenceId p.knowledgeId) (hq : IsOccurrenceId q.knowledgeId)
include hp hq

private theorem quoted_length : (Json.quoted p.knowledgeId).length = (Json.quoted q.knowledgeId).length := by
  rw [hp.1.quoted_length, hq.1.quoted_length, hp.2, hq.2]

/-- Packets of different occurrences are in the order of their ids. -/
theorem text_lt_of_packets (hne : p.knowledgeId ≠ q.knowledgeId) (h : hashes.text p.json < hashes.text q.json) :
    hashes.text (.str p.knowledgeId) < hashes.text (.str q.knowledgeId) := by
  obtain ⟨rest, hpchars⟩ := @packet_chars hashes p
  obtain ⟨rest', hqchars⟩ := @packet_chars hashes q
  rw [Hashes.text, Hashes.text, Json.canonicalText, Json.canonicalText, hpchars, hqchars, String.lt_iff_toList_lt,
    String.toList_ofList, String.toList_ofList] at h
  rw [text_str, text_str, String.lt_iff_toList_lt, String.toList_ofList, String.toList_ofList]
  have hquoted : Json.quoted p.knowledgeId ≠ Json.quoted q.knowledgeId := fun he => hne ((hp.1.quoted_inj hq.1).mp he)
  exact Json.lt_of_append_lt packetStart (quoted_length hp hq) hquoted h

/-- Packets of one text belong to one occurrence. -/
theorem knowledgeId_of_text (h : hashes.text p.json = hashes.text q.json) : p.knowledgeId = q.knowledgeId := by
  obtain ⟨rest, hpchars⟩ := @packet_chars hashes p
  obtain ⟨rest', hqchars⟩ := @packet_chars hashes q
  rw [Hashes.text, Hashes.text, Json.canonicalText, Json.canonicalText, String.ofList_inj, hpchars, hqchars] at h
  have hquoted := (List.append_inj (List.append_cancel_left h) (quoted_length hp hq)).1
  exact (hp.1.quoted_inj hq.1).mp hquoted

end Pair
end Order
end StockContent.Visual
