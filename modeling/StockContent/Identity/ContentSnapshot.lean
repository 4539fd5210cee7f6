import StockContent.Identity.Redaction
import StockContent.Storage.Clock
import StockContent.Storage.StableMembership

/-! Snapshots of content, and the identity that their id is a digest of. -/
namespace StockContent.Identity
open Storage

def contentSnapshotSchemaVersion : String := "content.snapshot.v2"

/-- A snapshot, with values as it was built with or as they were read back. -/
structure ContentSnapshot (V : Type) where
  contentSnapshotId : String
  sourceType : String
  sourceRef : String
  sourceContentHash : String
  sourceArtifactId : String := ""
  artifactRootHash : String := ""
  parserVersion : Option String := none
  asrModel : Option String := none
  asrModelVersion : Option String := none
  visionModel : Option String := none
  llmModel : Option String := none
  promptBundleVersion : String := "prompt_bundle.v1"
  entityAliasVersion : String := "entity_alias.v1"
  verificationPolicyVersion : String := "verification_policy.v1"
  quantMarketSnapshotIds : List String := []
  codeSha : String := ""
  configHash : String := ""
  pipelineVersion : String := "pipeline.v3"
  schemaVersion : String := contentSnapshotSchemaVersion
  artifactIds : List (String × String) := []
  snapshotKind : String := "INITIAL"
  parentSnapshotId : Option String := none
  supersedesSnapshotId : Option String := none
  producerManifest : List (String × V) := []
  modelVersions : List (String × V) := []
  promptVersions : List (String × V) := []
  configuration : List (String × V) := []
  externalSnapshots : List String := []
  policyVersions : List (String × V) := []
  createdAt : Time

/-- The digests of documents whose keys are in order, the one of an identity being cut short, and what the language and
the deployment add. -/
structure SnapshotRuntime where
  document : Json → String
  document_ne : ∀ v, document v ≠ ""
  short : Json → String
  str : Value → String
  str_text : ∀ s, str (.str s) = s
  defaultCodeSha : Except String String

section Digests
variable (rt : SnapshotRuntime)

def jsonText : Option String → Json
  | none => .null
  | some s => .str s

def jsonTexts (xs : List String) : Json := .arr (xs.map .str)

def jsonTextFields (fields : List (String × String)) : Json := .obj (fields.map fun f => (f.1, .str f.2))

def computeArtifactRootHash (artifactIds : List (String × String)) : String :=
  rt.document (jsonTextFields artifactIds).canonical

def computeConfigHash (config : List (String × Value)) : String :=
  if config = [] then "" else rt.document (Json.obj (Value.shownFields config)).canonical

/-- What takes part in the identity, by `fields` as the digest is shown them. -/
def snapshotIdentityPayload {V : Type} (fields : List (String × V) → List (String × Json)) (s : ContentSnapshot V) :
    List (String × Json) :=
  [("source_content_hash", .str s.sourceContentHash),
    ("source_artifact_id", .str s.sourceArtifactId),
    ("artifact_root_hash", .str s.artifactRootHash),
    ("pipeline_version", .str s.pipelineVersion),
    ("parser_version", jsonText s.parserVersion),
    ("asr_model", jsonText s.asrModel),
    ("asr_model_version", jsonText s.asrModelVersion),
    ("vision_model", jsonText s.visionModel),
    ("llm_model", jsonText s.llmModel),
    ("prompt_bundle_version", .str s.promptBundleVersion),
    ("entity_alias_version", .str s.entityAliasVersion),
    ("verification_policy_version", .str s.verificationPolicyVersion),
    ("quant_market_snapshot_ids", jsonTexts (sortedSet s.quantMarketSnapshotIds)),
    ("code_sha", .str s.codeSha),
    ("config_hash", .str s.configHash),
    ("producer_manifest", .obj (fields s.producerManifest)),
    ("policy_versions", .obj (fields s.policyVersions)),
    ("model_versions", .obj (fields s.modelVersions)),
    ("prompt_versions", .obj (fields s.promptVersions)),
    ("configuration", .obj (fields s.configuration)),
    ("external_snapshots", jsonTexts (sortedSet s.externalSnapshots)),
    ("snapshot_kind", .str s.snapshotKind),
    ("parent_snapshot_id", jsonText s.parentSnapshotId),
    ("supersedes_snapshot_id", jsonText s.supersedesSnapshotId)]

def computeContentSnapshotId (identity : List (String × Json)) : String :=
  "cs-" ++ rt.short (Json.obj identity).canonical

/-- No other document has the digest of this one. -/
def SnapshotRuntime.Distinguishes (v : Json) : Prop := ∀ other, rt.short other = rt.short v → other = v

theorem computeContentSnapshotId_iff {identity identity' : List (String × Json)}
    (h : rt.Distinguishes (Json.obj identity').canonical) :
    computeContentSnapshotId rt identity = computeContentSnapshotId rt identity' ↔
      (Json.obj identity).canonical = (Json.obj identity').canonical := by
  constructor
  · exact fun heq => h _ ((String.append_right_inj _).mp heq)
  · exact fun heq => by rw [computeContentSnapshotId, heq, computeContentSnapshotId]

end Digests

section Build
variable (rt : SnapshotRuntime)

def Value.lookup (fields : List (String × Value)) (key : String) : Option Value :=
  (fields.find? fun f => f.1 = key).map Prod.snd

/-- `{**fields, key: value}`. -/
def Value.put (fields : List (String × Value)) (key : String) (value : Value) : List (String × Value) :=
  match fields with
  | [] => [(key, value)]
  | (k, v) :: rest => if k = key then (key, value) :: rest else (k, v) :: put rest key value

/-- The text of a value that is present: neither `None` nor an empty text. -/
def presentText : Option Value → Option String
  | none | some .null | some (.str "") => none
  | some v => some (rt.str v)

structure SnapshotInput where
  sourceType : String
  sourceRef : String
  sourceContentHash : String
  sourceArtifactId : String := ""
  artifactRootHash : Option String := none
  artifactIds : List (String × String) := []
  parserVersion : Option String := none
  asrModel : Option String := none
  asrModelVersion : Option String := none
  visionModel : Option String := none
  llmModel : Option String := none
  promptBundleVersion : String := "prompt_bundle.v1"
  entityAliasVersion : String := "entity_alias.v1"
  verificationPolicyVersion : String := "verification_policy.v1"
  quantMarketSnapshotIds : List String := []
  codeSha : Option String := none
  configHash : String := ""
  pipelineVersion : String := "pipeline.v3"
  kind : String := "INITIAL"
  snapshotKind : Option String := none
  parentSnapshotId : Option String := none
  supersedesSnapshotId : Option String := none
  producerManifest : List (String × Value) := []
  policyVersions : List (String × Value) := []
  modelVersions : List (String × Value) := []
  promptVersions : List (String × Value) := []
  configuration : List (String × Value) := []
  externalSnapshots : List String := []
  createdAt : Time

/-- `value or other`. -/
def orElse (value other : String) : String := if value = "" then other else value

def manifestConfigs (manifest : List (String × Value)) : Except String (List (String × Value)) :=
  match Value.lookup manifest "configs" with
  | none | some .null => .ok []
  | some (.obj configs) => .ok configs
  | some _ => .error "producer_manifest.configs must be an object"

def effectiveCodeSha (codeSha : Option String) (manifest : List (String × Value)) : Except String String :=
  match presentText rt (codeSha.map .str), presentText rt (Value.lookup manifest "code_sha") with
  | some present, _ => .ok present
  | none, some present => .ok present
  | none, none => rt.defaultCodeSha

/-- One code SHA and one configuration hash, at the top level and in the manifest. -/
def normalizeProducerManifest (manifest : List (String × Value)) (codeSha : Option String) (configHash : String)
    (configuration : List (String × Value)) : Except String (String × String × List (String × Value)) := do
  let code ← effectiveCodeSha rt codeSha manifest
  let configs ← manifestConfigs manifest
  let config := ((presentText rt (some (.str configHash))).or (presentText rt (Value.lookup configs "config_hash"))).getD
    (computeConfigHash rt configuration)
  return (code, config, Value.put (Value.put manifest "code_sha" (.str code)) "configs"
    (.obj (Value.put configs "config_hash" (.str config))))

/-- The root hash that was given, if it is that of the artifacts. -/
def effectiveRootHash (given : Option String) (artifactIds : List (String × String)) : Except String String :=
  let computed := computeArtifactRootHash rt artifactIds
  if given.getD "" ≠ "" ∧ artifactIds ≠ [] ∧ given.getD "" ≠ computed then
    .error "artifact_root_hash does not match artifact_ids"
  else .ok (orElse (given.getD "") computed)

def buildContentSnapshot (input : SnapshotInput) : Except String (ContentSnapshot Value) := do
  let rootHash ← effectiveRootHash rt input.artifactRootHash input.artifactIds
  let normalized ← normalizeProducerManifest rt input.producerManifest input.codeSha input.configHash input.configuration
  let unnamed : ContentSnapshot Value :=
    { contentSnapshotId := ""
      sourceType := input.sourceType
      sourceRef := input.sourceRef
      sourceContentHash := input.sourceContentHash
      sourceArtifactId := orElse input.sourceArtifactId ((input.artifactIds.lookup "source").getD "")
      artifactRootHash := rootHash
      parserVersion := input.parserVersion
      asrModel := input.asrModel
      asrModelVersion := input.asrModelVersion
      visionModel := input.visionModel
      llmModel := input.llmModel
      promptBundleVersion := input.promptBundleVersion
      entityAliasVersion := input.entityAliasVersion
      verificationPolicyVersion := input.verificationPolicyVersion
      quantMarketSnapshotIds := sortedSet input.quantMarketSnapshotIds
      codeSha := normalized.1
      configHash := normalized.2.1
      pipelineVersion := input.pipelineVersion
      artifactIds := input.artifactIds
      snapshotKind := orElse (input.snapshotKind.getD "") input.kind
      parentSnapshotId := input.parentSnapshotId
      supersedesSnapshotId := input.supersedesSnapshotId
      producerManifest := normalized.2.2
      modelVersions := input.modelVersions
      promptVersions := input.promptVersions
      configuration := input.configuration
      externalSnapshots := sortedSet input.externalSnapshots
      policyVersions := input.policyVersions
      createdAt := input.createdAt }
  let identity := snapshotIdentityPayload Value.shownFields { unnamed with
    quantMarketSnapshotIds := input.quantMarketSnapshotIds, externalSnapshots := input.externalSnapshots }
  return { unnamed with contentSnapshotId := computeContentSnapshotId rt identity }

/-- What later proofs use of a snapshot that was built. -/
structure Built (s : ContentSnapshot Value) : Prop where
  identity : s.contentSnapshotId = computeContentSnapshotId rt (snapshotIdentityPayload Value.shownFields s)
  schema : s.schemaVersion = contentSnapshotSchemaVersion
  rooted : s.artifactRootHash ≠ ""

theorem effectiveRootHash_ne {given : Option String} {artifactIds : List (String × String)} {rootHash : String}
    (h : effectiveRootHash rt given artifactIds = .ok rootHash) : rootHash ≠ "" := by
  rw [effectiveRootHash] at h
  split at h
  · cases h
  · cases h
    rw [orElse]
    split
    · exact rt.document_ne _
    · assumption

theorem built {input : SnapshotInput} {s : ContentSnapshot Value} (h : buildContentSnapshot rt input = .ok s) : Built rt s := by
  obtain ⟨rootHash, hroot, h⟩ := bind_eq_ok.mp h
  obtain ⟨normalized, _, h⟩ := bind_eq_ok.mp h
  cases h
  refine ⟨?_, rfl, effectiveRootHash_ne rt hroot⟩
  simp only [snapshotIdentityPayload, sortedSet_sortedSet]

end Build
end StockContent.Identity
