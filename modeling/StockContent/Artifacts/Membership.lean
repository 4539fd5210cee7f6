import Mathlib.Data.Prod.Lex
import StockContent.Storage.CanonicalText
import StockContent.Storage.StableMembership

/-! Artifacts whose lists stand for sets: what is kept of a list, and the hash and the id that are taken of it. -/
namespace StockContent.Artifacts
open Storage

/-- What the language adds: the text of a number, `str` of what is no text, and the digest of a text. -/
structure ArtifactRuntime where
  floatText : Rat → String
  str : Json → String
  sha256 : String → String

/-- A member is an id, a dict or another document, or a model with its attributes and its dump. -/
inductive Member where
  | document (value : Json)
  | model (attributes dump : List (String × Json))

namespace Member

/-- `getattr(value, name, None)`, and for a dict `value.get(name)`. -/
def candidate : Member → String → Option Json
  | .document (.obj fields), name => (Json.lookup fields name).filter (· ≠ .null)
  | .document _, _ => none
  | .model attributes _, name => (Json.lookup attributes name).filter (· ≠ .null)

def toJson : Member → Json
  | .document value => value
  | .model _ dump => .obj dump

end Member

variable (rt : ArtifactRuntime)

def canonicalJson (value : Json) : String := Json.canonicalText rt.floatText value

def identityNames : List String := ["claim_id", "occurrence_id", "lifecycle_event_id", "knowledge_uid"]

def membershipKey (value : Member) : String :=
  (identityNames.findSome? fun name => (value.candidate name).map fun candidate =>
    name ++ ":" ++ candidate.strOf rt.str).getD (canonicalJson rt value.toJson)

/-- What members are sorted by: their key, then their text. -/
def sortKey (key : Member → String) (value : Member) : Lex (String × String) :=
  toLex (key value, canonicalJson rt value.toJson)

/-- `field_identity` is whether members with one id are one. -/
def keyOf (fieldIdentity : Bool) (value : Member) : String :=
  if fieldIdentity then membershipKey rt value else canonicalJson rt value.toJson

def stableMembership (values : List Member) (fieldIdentity : Bool) : List Member :=
  Storage.stableMembership (keyOf rt fieldIdentity)
    (fun a b => sortKey rt (keyOf rt fieldIdentity) a ≤ sortKey rt (keyOf rt fieldIdentity) b) values

def contentHashOf (payload : Json) : String := rt.sha256 (canonicalJson rt payload)

def makeArtifactId (artifactType : String) (payload : Json) : String :=
  artifactType ++ "-" ++ String.ofList ((contentHashOf rt payload).toList.take 32)

/-- The fields that all artifacts have. `created_at` is held as `str` writes it. -/
structure ArtifactBase where
  artifactId : String
  artifactType : String
  schemaVersion : String := "artifact.v1"
  createdAt : String := ""
  producerStage : String := ""
  producerVersion : String := "1.0.0"
  parentArtifactIds : List String := []
  contentHash : String := ""

namespace ArtifactBase

/-- `to_dict`, with the fields that the class adds. -/
def toDict (base : ArtifactBase) (added : List (String × Json)) : List (String × Json) :=
  [("artifact_id", .str base.artifactId), ("artifact_type", .str base.artifactType),
    ("schema_version", .str base.schemaVersion), ("created_at", .str base.createdAt),
    ("producer_stage", .str base.producerStage), ("producer_version", .str base.producerVersion),
    ("parent_artifact_ids", .arr (base.parentArtifactIds.map .str)), ("content_hash", .str base.contentHash)] ++ added

def artifactIdentityPayload (base : ArtifactBase) (added : List (String × Json)) : Json :=
  .obj ((base.toDict added).filter fun f => !(["artifact_id", "created_at", "content_hash"].contains f.1))

/-- An artifact without a hash is given its own. -/
def postInit (base : ArtifactBase) (added : List (String × Json)) : ArtifactBase :=
  if base.contentHash = "" then
    { base with contentHash := contentHashOf rt (base.artifactIdentityPayload added) }
  else base

def artifactIdOf (base : ArtifactBase) (added : List (String × Json)) : String :=
  makeArtifactId rt base.artifactType (base.artifactIdentityPayload added)

end ArtifactBase

def members (values : List Member) : Json := .arr (values.map Member.toJson)

/-- A kind of artifact that is built from a list of members: how it is built, and what it holds, is hashed to and is
called afterwards. -/
structure MemberArtifact (C : Type) where
  build : List Member → C
  held : C → List Member
  base : C → ArtifactBase
  added : C → List (String × Json)

structure ClaimArtifact extends ArtifactBase where
  evidenceArtifactId : String := ""
  claims : List Member := []

namespace ClaimArtifact

def added (artifact : ClaimArtifact) : List (String × Json) :=
  [("evidence_artifact_id", .str artifact.evidenceArtifactId), ("claims", members artifact.claims)]

def postInit (artifact : ClaimArtifact) : ClaimArtifact :=
  let kept := { artifact with claims := stableMembership rt artifact.claims true }
  { kept with toArtifactBase := kept.toArtifactBase.postInit rt kept.added }

def kind (artifact : ClaimArtifact) : MemberArtifact ClaimArtifact where
  build values := { artifact with claims := values }.postInit rt
  held built := built.claims
  base built := built.toArtifactBase
  added built := built.added

end ClaimArtifact

structure ClaimOccurrenceArtifact extends ArtifactBase where
  semanticSegmentArtifactId : String := ""
  evidenceArtifactId : String := ""
  occurrenceIds : List Member := []

namespace ClaimOccurrenceArtifact

def added (artifact : ClaimOccurrenceArtifact) : List (String × Json) :=
  [("semantic_segment_artifact_id", .str artifact.semanticSegmentArtifactId),
    ("evidence_artifact_id", .str artifact.evidenceArtifactId), ("occurrence_ids", members artifact.occurrenceIds)]

def postInit (artifact : ClaimOccurrenceArtifact) : ClaimOccurrenceArtifact :=
  let kept := { artifact with occurrenceIds := stableMembership rt artifact.occurrenceIds true }
  { kept with toArtifactBase := kept.toArtifactBase.postInit rt kept.added }

def kind (artifact : ClaimOccurrenceArtifact) : MemberArtifact ClaimOccurrenceArtifact where
  build values := { artifact with occurrenceIds := values }.postInit rt
  held built := built.occurrenceIds
  base built := built.toArtifactBase
  added built := built.added

end ClaimOccurrenceArtifact

/-- The two dates are held as `str` writes them. -/
structure LifecycleArtifact extends ArtifactBase where
  claimLifecycleEventIds : List Member := []
  occurrenceLifecycleEventIds : List Member := []
  lifecycleBusinessAsOf : Option String := none
  lifecycleKnowledgeAsOf : Option String := none
  policyVersion : String := ""

namespace LifecycleArtifact

def added (artifact : LifecycleArtifact) : List (String × Json) :=
  [("claim_lifecycle_event_ids", members artifact.claimLifecycleEventIds),
    ("occurrence_lifecycle_event_ids", members artifact.occurrenceLifecycleEventIds),
    ("lifecycle_business_as_of", artifact.lifecycleBusinessAsOf.elim .null .str),
    ("lifecycle_knowledge_as_of", artifact.lifecycleKnowledgeAsOf.elim .null .str),
    ("policy_version", .str artifact.policyVersion)]

def postInit (artifact : LifecycleArtifact) : LifecycleArtifact :=
  let kept := { artifact with
    claimLifecycleEventIds := stableMembership rt artifact.claimLifecycleEventIds true
    occurrenceLifecycleEventIds := stableMembership rt artifact.occurrenceLifecycleEventIds true }
  { kept with toArtifactBase := kept.toArtifactBase.postInit rt kept.added }

def claimKind (artifact : LifecycleArtifact) : MemberArtifact LifecycleArtifact where
  build values := { artifact with claimLifecycleEventIds := values }.postInit rt
  held built := built.claimLifecycleEventIds
  base built := built.toArtifactBase
  added built := built.added

def occurrenceKind (artifact : LifecycleArtifact) : MemberArtifact LifecycleArtifact where
  build values := { artifact with occurrenceLifecycleEventIds := values }.postInit rt
  held built := built.occurrenceLifecycleEventIds
  base built := built.toArtifactBase
  added built := built.added

end LifecycleArtifact

/-- Two results for one claim are two members. -/
structure VerificationArtifact extends ArtifactBase where
  claimArtifactId : String := ""
  results : List Member := []

namespace VerificationArtifact

def added (artifact : VerificationArtifact) : List (String × Json) :=
  [("claim_artifact_id", .str artifact.claimArtifactId), ("results", members artifact.results)]

def postInit (artifact : VerificationArtifact) : VerificationArtifact :=
  let kept := { artifact with results := stableMembership rt artifact.results false }
  { kept with toArtifactBase := kept.toArtifactBase.postInit rt kept.added }

def kind (artifact : VerificationArtifact) : MemberArtifact VerificationArtifact where
  build values := { artifact with results := values }.postInit rt
  held built := built.results
  base built := built.toArtifactBase
  added built := built.added

end VerificationArtifact

structure KnowledgeArtifact extends ArtifactBase where
  verificationArtifactId : String := ""
  knowledgeUnits : List Member := []

namespace KnowledgeArtifact

def added (artifact : KnowledgeArtifact) : List (String × Json) :=
  [("verification_artifact_id", .str artifact.verificationArtifactId),
    ("knowledge_units", members artifact.knowledgeUnits)]

def postInit (artifact : KnowledgeArtifact) : KnowledgeArtifact :=
  let kept := { artifact with knowledgeUnits := stableMembership rt artifact.knowledgeUnits true }
  { kept with toArtifactBase := kept.toArtifactBase.postInit rt kept.added }

def kind (artifact : KnowledgeArtifact) : MemberArtifact KnowledgeArtifact where
  build values := { artifact with knowledgeUnits := values }.postInit rt
  held built := built.knowledgeUnits
  base built := built.toArtifactBase
  added built := built.added

end KnowledgeArtifact

structure KnowledgeVisualEvidenceArtifact extends ArtifactBase where
  occurrencePackets : List Member := []

namespace KnowledgeVisualEvidenceArtifact

def added (artifact : KnowledgeVisualEvidenceArtifact) : List (String × Json) :=
  [("occurrence_packets", members artifact.occurrencePackets)]

def postInit (artifact : KnowledgeVisualEvidenceArtifact) : KnowledgeVisualEvidenceArtifact :=
  let kept := { artifact with occurrencePackets := stableMembership rt artifact.occurrencePackets false }
  { kept with toArtifactBase := kept.toArtifactBase.postInit rt kept.added }

def kind (artifact : KnowledgeVisualEvidenceArtifact) :
    MemberArtifact KnowledgeVisualEvidenceArtifact where
  build values := { artifact with occurrencePackets := values }.postInit rt
  held built := built.occurrencePackets
  base built := built.toArtifactBase
  added built := built.added

end KnowledgeVisualEvidenceArtifact

/-- The text that a member has in a document. -/
def memberText (value : Member) : String := canonicalJson rt value.toJson

section Kept
variable {rt} {fieldIdentity : Bool} {values values' : List Member}

/-- Lists of the same members are kept as lists of the same keys and texts. -/
theorem sortKeys_stableMembership (fieldIdentity : Bool) (h : ∀ x, x ∈ values ↔ x ∈ values') :
    (stableMembership rt values fieldIdentity).map (sortKey rt (keyOf rt fieldIdentity)) =
      (stableMembership rt values' fieldIdentity).map (sortKey rt (keyOf rt fieldIdentity)) := by
  have hmap := @map_stableMembership (Lex (String × String)) String _ _ (fun k => (ofLex k).1) Member
    (sortKey rt (keyOf rt fieldIdentity))
  refine (hmap values).trans (Eq.trans ?_ (hmap values').symm)
  refine stableMembership_congr fun k => ?_
  simp only [List.mem_map, h]

theorem texts_stableMembership (fieldIdentity : Bool) (h : ∀ x, x ∈ values ↔ x ∈ values') :
    (stableMembership rt values fieldIdentity).map (memberText rt) =
      (stableMembership rt values' fieldIdentity).map (memberText rt) := by
  have hkeys := congrArg (List.map fun k => (ofLex k).2) (@sortKeys_stableMembership rt _ _ fieldIdentity h)
  rw [List.map_map, List.map_map] at hkeys
  exact hkeys

theorem stableMembership_stableMembership (fieldIdentity : Bool) (values : List Member) :
    stableMembership rt (stableMembership rt values fieldIdentity) fieldIdentity =
      stableMembership rt values fieldIdentity :=
  @stableMembership_again (Lex (String × String)) String _ _ (fun k => (ofLex k).1) Member
    (sortKey rt (keyOf rt fieldIdentity)) values

theorem stableMembership_lossless {x : Member} (hx : x ∈ values) :
    ∃ y ∈ stableMembership rt values fieldIdentity,
      keyOf rt fieldIdentity y = keyOf rt fieldIdentity x ∧ y ∈ values := by
  have hkey : keyOf rt fieldIdentity x ∈ (stableMembership rt values fieldIdentity).map (keyOf rt fieldIdentity) :=
    mem_keys_stableMembership.mpr (List.mem_map_of_mem hx)
  obtain ⟨y, hy, hsame⟩ := List.mem_map.mp hkey
  exact ⟨y, hy, hsame, mem_of_stableMembership hy⟩

theorem canonicalJson_members (h : values.map (memberText rt) = values'.map (memberText rt)) :
    canonicalJson rt (members values) = canonicalJson rt (members values') := by
  refine Json.canonicalText_arr ?_
  rw [List.map_map, List.map_map]
  exact h

end Kept

/-- The texts of the fields that a class adds. -/
def fieldTexts (fields : List (String × Json)) : List (String × String) :=
  fields.map fun f => (f.1, canonicalJson rt f.2)

section Identity
variable {rt} {base : ArtifactBase} {added added' : List (String × Json)}

theorem identityText_congr (base : ArtifactBase) (h : fieldTexts rt added = fieldTexts rt added') :
    canonicalJson rt (base.artifactIdentityPayload added) = canonicalJson rt (base.artifactIdentityPayload added') := by
  have hfilter (fields : List (String × Json)) :
      (fields.filter fun f => !(["artifact_id", "created_at", "content_hash"].contains f.1)).map
          (fun f => (f.1, canonicalJson rt f.2)) =
        (fieldTexts rt fields).filter fun f => !(["artifact_id", "created_at", "content_hash"].contains f.1) := by
    rw [fieldTexts, List.filter_map]
    rfl
  have hfields : fieldTexts rt (base.toDict added) = fieldTexts rt (base.toDict added') := by
    rw [fieldTexts, fieldTexts, ArtifactBase.toDict, ArtifactBase.toDict, List.map_append, List.map_append]
    exact congrArg _ h
  refine Json.canonicalText_obj ?_
  exact (hfilter _).trans ((congrArg _ hfields).trans (hfilter _).symm)

/-- The hash takes no part in the identity. -/
@[simp] theorem identityPayload_postInit (more : List (String × Json)) :
    (base.postInit rt added).artifactIdentityPayload more = base.artifactIdentityPayload more := by
  rw [ArtifactBase.postInit]
  split
  · simp [ArtifactBase.artifactIdentityPayload, ArtifactBase.toDict]
  · rfl

theorem contentHash_congr (base : ArtifactBase) (h : fieldTexts rt added = fieldTexts rt added') :
    (base.postInit rt added).contentHash = (base.postInit rt added').contentHash := by
  rw [ArtifactBase.postInit, ArtifactBase.postInit, contentHashOf, contentHashOf, identityText_congr base h]

theorem artifactIdOf_congr (base : ArtifactBase) (h : fieldTexts rt added = fieldTexts rt added') :
    base.artifactIdOf rt added = base.artifactIdOf rt added' := by
  rw [ArtifactBase.artifactIdOf, ArtifactBase.artifactIdOf, makeArtifactId, makeArtifactId, contentHashOf,
    contentHashOf, identityText_congr base h]

@[simp] theorem artifactIdOf_postInit (more : List (String × Json)) :
    (base.postInit rt added).artifactIdOf rt more = base.artifactIdOf rt more := by
  have htype : (base.postInit rt added).artifactType = base.artifactType := by
    rw [ArtifactBase.postInit]
    split <;> rfl
  rw [ArtifactBase.artifactIdOf, ArtifactBase.artifactIdOf, identityPayload_postInit, htype]

end Identity

/-- The list stands for a set: its order and its repetitions make no difference, it can be read back, and of every
membership key a member is held. -/
structure SetOfMembers {C : Type} (key : Member → String) (kind : MemberArtifact C) : Prop where
  contentHash : ∀ values values', (∀ x, x ∈ values ↔ x ∈ values') →
    (kind.base (kind.build values)).contentHash = (kind.base (kind.build values')).contentHash
  artifactId : ∀ values values', (∀ x, x ∈ values ↔ x ∈ values') →
    (kind.base (kind.build values)).artifactIdOf rt (kind.added (kind.build values)) =
      (kind.base (kind.build values')).artifactIdOf rt (kind.added (kind.build values'))
  reread : ∀ values, kind.build (kind.held (kind.build values)) = kind.build values
  lossless : ∀ values, ∀ x ∈ values, ∃ y ∈ kind.held (kind.build values), key y = key x ∧ y ∈ values

section Kinds
variable {rt}

theorem setOfMembers {C : Type} (fieldIdentity : Bool) {kind : MemberArtifact C} {base : ArtifactBase}
    {added : List Member → List (String × Json)}
    (hheld : ∀ values, kind.held (kind.build values) = stableMembership rt values fieldIdentity)
    (hbase : ∀ values, kind.base (kind.build values) =
      base.postInit rt (added (stableMembership rt values fieldIdentity)))
    (hadded : ∀ values, kind.added (kind.build values) = added (stableMembership rt values fieldIdentity))
    (htexts : ∀ values values', values.map (memberText rt) = values'.map (memberText rt) →
      fieldTexts rt (added values) = fieldTexts rt (added values'))
    (hbuild : ∀ values, kind.build (stableMembership rt values fieldIdentity) = kind.build values) :
    SetOfMembers rt (keyOf rt fieldIdentity) kind where
  contentHash values values' h := by
    rw [hbase, hbase]
    exact contentHash_congr base (htexts _ _ (texts_stableMembership fieldIdentity h))
  artifactId values values' h := by
    rw [hbase, hbase, hadded, hadded, artifactIdOf_postInit, artifactIdOf_postInit]
    exact artifactIdOf_congr base (htexts _ _ (texts_stableMembership fieldIdentity h))
  reread values := by rw [hheld, hbuild]
  lossless values x hx := by
    rw [hheld]
    exact stableMembership_lossless hx

theorem ClaimArtifact.kind_setOfMembers (artifact : ClaimArtifact) :
    SetOfMembers rt (membershipKey rt) (artifact.kind rt) := by
  refine @setOfMembers rt _ true _ artifact.toArtifactBase
    (fun kept => { artifact with claims := kept }.added) (fun _ => rfl) ?_ ?_ ?_ ?_
  · intro values
    simp only [kind, postInit]
  · intro values
    simp only [kind, postInit, added]
  · intro values values' h
    simp only [fieldTexts, added, List.map_cons, canonicalJson_members h]
  · intro values
    simp only [kind, postInit, stableMembership_stableMembership]

theorem ClaimOccurrenceArtifact.kind_setOfMembers (artifact : ClaimOccurrenceArtifact) :
    SetOfMembers rt (membershipKey rt) (artifact.kind rt) := by
  refine @setOfMembers rt _ true _ artifact.toArtifactBase
    (fun kept => { artifact with occurrenceIds := kept }.added) (fun _ => rfl) ?_ ?_ ?_ ?_
  · intro values
    simp only [kind, postInit]
  · intro values
    simp only [kind, postInit, added]
  · intro values values' h
    simp only [fieldTexts, added, List.map_cons, canonicalJson_members h]
  · intro values
    simp only [kind, postInit, stableMembership_stableMembership]

theorem LifecycleArtifact.claimKind_setOfMembers (artifact : LifecycleArtifact) :
    SetOfMembers rt (membershipKey rt) (artifact.claimKind rt) := by
  refine @setOfMembers rt _ true _ artifact.toArtifactBase
    (fun kept => { artifact with
      claimLifecycleEventIds := kept
      occurrenceLifecycleEventIds := stableMembership rt artifact.occurrenceLifecycleEventIds true }.added)
    (fun _ => rfl) ?_ ?_ ?_ ?_
  · intro values
    simp only [claimKind, postInit]
  · intro values
    simp only [claimKind, postInit, added]
  · intro values values' h
    simp only [fieldTexts, added, List.map_cons, canonicalJson_members h]
  · intro values
    simp only [claimKind, postInit, stableMembership_stableMembership]

theorem LifecycleArtifact.occurrenceKind_setOfMembers (artifact : LifecycleArtifact) :
    SetOfMembers rt (membershipKey rt) (artifact.occurrenceKind rt) := by
  refine @setOfMembers rt _ true _ artifact.toArtifactBase
    (fun kept => { artifact with
      claimLifecycleEventIds := stableMembership rt artifact.claimLifecycleEventIds true
      occurrenceLifecycleEventIds := kept }.added)
    (fun _ => rfl) ?_ ?_ ?_ ?_
  · intro values
    simp only [occurrenceKind, postInit]
  · intro values
    simp only [occurrenceKind, postInit, added]
  · intro values values' h
    simp only [fieldTexts, added, List.map_cons, canonicalJson_members h]
  · intro values
    simp only [occurrenceKind, postInit, stableMembership_stableMembership]

theorem VerificationArtifact.kind_setOfMembers (artifact : VerificationArtifact) :
    SetOfMembers rt (memberText rt) (artifact.kind rt) := by
  refine @setOfMembers rt _ false _ artifact.toArtifactBase
    (fun kept => { artifact with results := kept }.added) (fun _ => rfl) ?_ ?_ ?_ ?_
  · intro values
    simp only [kind, postInit]
  · intro values
    simp only [kind, postInit, added]
  · intro values values' h
    simp only [fieldTexts, added, List.map_cons, canonicalJson_members h]
  · intro values
    simp only [kind, postInit, stableMembership_stableMembership]

theorem KnowledgeArtifact.kind_setOfMembers (artifact : KnowledgeArtifact) :
    SetOfMembers rt (membershipKey rt) (artifact.kind rt) := by
  refine @setOfMembers rt _ true _ artifact.toArtifactBase
    (fun kept => { artifact with knowledgeUnits := kept }.added) (fun _ => rfl) ?_ ?_ ?_ ?_
  · intro values
    simp only [kind, postInit]
  · intro values
    simp only [kind, postInit, added]
  · intro values values' h
    simp only [fieldTexts, added, List.map_cons, canonicalJson_members h]
  · intro values
    simp only [kind, postInit, stableMembership_stableMembership]

theorem KnowledgeVisualEvidenceArtifact.kind_setOfMembers (artifact : KnowledgeVisualEvidenceArtifact) :
    SetOfMembers rt (memberText rt) (artifact.kind rt) := by
  refine @setOfMembers rt _ false _ artifact.toArtifactBase
    (fun kept => { artifact with occurrencePackets := kept }.added) (fun _ => rfl) ?_ ?_ ?_ ?_
  · intro values
    simp only [kind, postInit]
  · intro values
    simp only [kind, postInit, added]
  · intro values values' h
    simp only [fieldTexts, added, List.map_cons, canonicalJson_members h]
  · intro values
    simp only [kind, postInit, stableMembership_stableMembership]

/-- Claims, occurrences, lifecycle events and knowledge are told apart by their ids, verification results and visual
evidence by all they say. -/
theorem artifacts_setOfMembers (claims : ClaimArtifact) (occurrences : ClaimOccurrenceArtifact)
    (lifecycle : LifecycleArtifact) (verification : VerificationArtifact) (knowledge : KnowledgeArtifact)
    (evidence : KnowledgeVisualEvidenceArtifact) :
    SetOfMembers rt (membershipKey rt) (claims.kind rt) ∧ SetOfMembers rt (membershipKey rt) (occurrences.kind rt) ∧
      SetOfMembers rt (membershipKey rt) (lifecycle.claimKind rt) ∧
      SetOfMembers rt (membershipKey rt) (lifecycle.occurrenceKind rt) ∧
      SetOfMembers rt (membershipKey rt) (knowledge.kind rt) ∧
      SetOfMembers rt (memberText rt) (verification.kind rt) ∧ SetOfMembers rt (memberText rt) (evidence.kind rt) := by
  refine ⟨claims.kind_setOfMembers, occurrences.kind_setOfMembers, lifecycle.claimKind_setOfMembers,
    lifecycle.occurrenceKind_setOfMembers, knowledge.kind_setOfMembers, verification.kind_setOfMembers,
    evidence.kind_setOfMembers⟩

end Kinds

private def plainRuntime : ArtifactRuntime where
  floatText _ := "0.0"
  str _ := ""
  sha256 text := text

private def decision (status : String) : Member :=
  .document (.obj [("claim_id", .str "c1"), ("status", .str status)])

-- Two decisions on one claim are two results.
example :
    (stableMembership plainRuntime [decision "VERIFIED", decision "EXPIRED", decision "VERIFIED"] false).length =
      2 := by
  decide

end StockContent.Artifacts
