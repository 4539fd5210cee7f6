import StockContent.Identity.ContentSnapshot
import StockContent.Storage.Table

/-! Snapshots as the database keeps them: columns, and a document with all their fields, from which they are read. -/
namespace StockContent.Identity
open Storage

inductive StoreError where
  | integrity (message : String)
  | valueError (message : String)
  /-- A JSON column refuses what is no JSON. -/
  | notJson
  deriving DecidableEq

/-- The columns that the document of a snapshot repeats. -/
structure RedundantValues where
  sourceType : String
  sourceRef : String
  sourceContentHash : String
  artifactIds : List (String × String)
  quantMarketSnapshotIds : List String
  pipelineVersion : String
  schemaVersion : String
  codeSha : Option String
  configHash : Option String
  sourceArtifactId : Option String
  artifactRootHash : Option String
  snapshotKind : String
  parentSnapshotId : Option String
  supersedesSnapshotId : Option String
  producerManifest : List (String × Json)

structure ContentSnapshotRow extends RedundantValues where
  contentSnapshotId : String
  identity : List (String × Json)
  createdAt : Time

abbrev SnapshotTable := Table ContentSnapshotRow.contentSnapshotId

/-- `_ROW_IDENTITY_FIELDS`, with their values. -/
def RedundantValues.fields (values : RedundantValues) : List (String × Json) :=
  [("source_type", .str values.sourceType),
    ("source_ref", .str values.sourceRef),
    ("source_content_hash", .str values.sourceContentHash),
    ("artifact_ids", jsonTextFields values.artifactIds),
    ("quant_market_snapshot_ids", jsonTexts values.quantMarketSnapshotIds),
    ("pipeline_version", .str values.pipelineVersion),
    ("schema_version", .str values.schemaVersion),
    ("code_sha", jsonText values.codeSha),
    ("config_hash", jsonText values.configHash),
    ("source_artifact_id", jsonText values.sourceArtifactId),
    ("artifact_root_hash", jsonText values.artifactRootHash),
    ("snapshot_kind", .str values.snapshotKind),
    ("parent_snapshot_id", jsonText values.parentSnapshotId),
    ("supersedes_snapshot_id", jsonText values.supersedesSnapshotId),
    ("producer_manifest", .obj values.producerManifest)]

def additiveIdentityFields : List String :=
  ["source_artifact_id", "artifact_root_hash", "snapshot_kind", "parent_snapshot_id", "supersedes_snapshot_id",
    "producer_manifest", "model_versions", "prompt_versions", "configuration", "external_snapshots", "policy_versions"]

def coreIdentityFields : List String :=
  ["content_snapshot_id", "source_type", "source_ref", "source_content_hash", "artifact_ids",
    "quant_market_snapshot_ids", "pipeline_version", "schema_version", "code_sha", "config_hash", "parser_version",
    "asr_model", "asr_model_version", "vision_model", "llm_model", "prompt_bundle_version", "entity_alias_version",
    "verification_policy_version"]

def v1SchemaVersion : String := "content.snapshot.v1"
def v2SchemaVersion : String := "content.snapshot.v2"

def requiredFields (schemaVersion : String) : Option (List String) :=
  if schemaVersion = v1SchemaVersion then some coreIdentityFields
  else if schemaVersion = v2SchemaVersion then some (coreIdentityFields ++ additiveIdentityFields)
  else none

section Validation
variable (rt : SnapshotRuntime) (jsonStr : Json → String)

def integrity (snapshotId message : String) : StoreError := .integrity ("snapshot " ++ snapshotId ++ " " ++ message)

/-- `"" if value is None else str(value)`. -/
def textOrEmpty : Option Json → String
  | none | some .null => ""
  | some v => v.strOf jsonStr

def rowConfigs (manifest : List (String × Json)) (snapshotId : String) : Except StoreError (List (String × Json)) :=
  match Json.lookup manifest "configs" with
  | none | some .null => .ok []
  | some (.obj configs) => .ok configs
  | some _ => .error (integrity snapshotId "producer_manifest.configs must be an object")

/-- Where one of two texts is there, both are, and they are equal. -/
def aligned (top nested : String) : Bool := (top = "" && nested = "") || (top ≠ "" && nested ≠ "" && top = nested)

def validateProvenanceAlignment (values : RedundantValues) (snapshotId : String) : Except StoreError Unit := do
  let configs ← rowConfigs values.producerManifest snapshotId
  if values.schemaVersion = v1SchemaVersion ∧ values.producerManifest = [] then return ()
  require (integrity snapshotId "code_sha disagrees with producer_manifest")
    (aligned (values.codeSha.getD "") (textOrEmpty jsonStr (Json.lookup values.producerManifest "code_sha")))
  require (integrity snapshotId "config_hash disagrees with producer_manifest")
    (aligned (values.configHash.getD "") (textOrEmpty jsonStr (Json.lookup configs "config_hash")))

/-- A field that the document leaves out is not compared. -/
def agreesWith (identity : List (String × Json)) (field : String × Json) : Bool :=
  (Json.lookup identity field.1).all fun kept => kept.canonical = field.2.canonical

def disagreement (snapshotId key : String) : StoreError :=
  integrity snapshotId ("identity field '" ++ key ++ "' disagrees with its redundant column")

def missingFields (required : List String) (identity : List (String × Json)) : List String :=
  required.filter fun key => (Json.lookup identity key).isNone

def listText (xs : List String) : String := "[" ++ ", ".intercalate (xs.map fun x => "'" ++ x ++ "'") ++ "]"

def validateRequired (identity : List (String × Json)) (schemaVersion snapshotId : String) : Except StoreError Unit :=
  match requiredFields schemaVersion with
  | none => .error (integrity snapshotId ("has unsupported schema '" ++ schemaVersion ++ "'"))
  | some required => require (integrity snapshotId ("identity is missing required fields: " ++
      listText ((missingFields required identity).insertionSort (· ≤ ·)))) ((missingFields required identity).isEmpty)

def validateIdentityAgainstValues (identity : List (String × Json)) (values : RedundantValues) (snapshotId : String) :
    Except StoreError Unit := do
  require (integrity snapshotId "identity schema does not match the row")
    (Json.lookup identity "schema_version" = some (.str values.schemaVersion))
  validateRequired identity values.schemaVersion snapshotId
  require (integrity snapshotId "identity id does not match the row id")
    ((Json.lookup identity "content_snapshot_id").all fun id => id = .null || id.strOf jsonStr = snapshotId)
  values.fields.forM fun field => require (disagreement snapshotId field.1) (agreesWith identity field)
  require (integrity snapshotId "source artifact does not match artifact_ids")
    (values.sourceArtifactId.getD "" = "" || ((values.artifactIds.lookup "source").getD "") = "" ||
      values.sourceArtifactId.getD "" = (values.artifactIds.lookup "source").getD "")
  require (integrity snapshotId "artifact root does not match artifact_ids")
    (values.artifactRootHash.getD "" = "" ||
      values.artifactRootHash.getD "" = computeArtifactRootHash rt values.artifactIds)
  validateProvenanceAlignment jsonStr values snapshotId

end Validation

/-- What the store takes from outside: the texts of values, times, and what the tables of artifacts say of the artifacts
and the members of a snapshot. -/
structure StoreRuntime extends SnapshotRuntime where
  tables : RedactionTables
  jsonStr : Json → String
  fromisoformat : String → Except StoreError Time
  checkArtifacts : ContentSnapshotRow → Except StoreError Unit
  checkMembers : ContentSnapshotRow → Except StoreError Unit

section Store
variable (rt : StoreRuntime)

def toFields (s : ContentSnapshot Value) : List (String × Value) :=
  [("content_snapshot_id", .str s.contentSnapshotId),
    ("source_type", .str s.sourceType),
    ("source_ref", .str s.sourceRef),
    ("source_content_hash", .str s.sourceContentHash),
    ("source_artifact_id", .str s.sourceArtifactId),
    ("artifact_root_hash", .str s.artifactRootHash),
    ("parser_version", .text s.parserVersion),
    ("asr_model", .text s.asrModel),
    ("asr_model_version", .text s.asrModelVersion),
    ("vision_model", .text s.visionModel),
    ("llm_model", .text s.llmModel),
    ("prompt_bundle_version", .str s.promptBundleVersion),
    ("entity_alias_version", .str s.entityAliasVersion),
    ("verification_policy_version", .str s.verificationPolicyVersion),
    ("quant_market_snapshot_ids", .texts s.quantMarketSnapshotIds),
    ("code_sha", .str s.codeSha),
    ("config_hash", .str s.configHash),
    ("pipeline_version", .str s.pipelineVersion),
    ("schema_version", .str s.schemaVersion),
    ("artifact_ids", .textFields s.artifactIds),
    ("snapshot_kind", .str s.snapshotKind),
    ("parent_snapshot_id", .text s.parentSnapshotId),
    ("supersedes_snapshot_id", .text s.supersedesSnapshotId),
    ("producer_manifest", .obj s.producerManifest),
    ("model_versions", .obj s.modelVersions),
    ("prompt_versions", .obj s.promptVersions),
    ("configuration", .obj s.configuration),
    ("external_snapshots", .texts s.externalSnapshots),
    ("policy_versions", .obj s.policyVersions)]

/-- `to_dict`, with the time as it is written: the redaction leaves it alone. -/
def toDict (s : ContentSnapshot Value) : Except RedactionError (List (String × Value)) :=
  (redactFields rt.tables (toFields s)).map (· ++ [("created_at", .str (isoformat s.createdAt))])

def candidateValues (s : ContentSnapshot Value) : RedundantValues where
  sourceType := s.sourceType
  sourceRef := s.sourceRef
  sourceContentHash := s.sourceContentHash
  artifactIds := s.artifactIds
  quantMarketSnapshotIds := s.quantMarketSnapshotIds
  pipelineVersion := s.pipelineVersion
  schemaVersion := s.schemaVersion
  codeSha := some s.codeSha
  configHash := some s.configHash
  sourceArtifactId := some s.sourceArtifactId
  artifactRootHash := some s.artifactRootHash
  snapshotKind := s.snapshotKind
  parentSnapshotId := s.parentSnapshotId
  supersedesSnapshotId := s.supersedesSnapshotId
  producerManifest := Value.shownFields s.producerManifest

def validateSnapshotCandidate (s : ContentSnapshot Value) : Except StoreError (List (String × Value)) := do
  let payload ← (toDict rt s).mapError fun | .valueError message => .valueError message
  validateIdentityAgainstValues rt.toSnapshotRuntime rt.jsonStr (Value.shownFields payload) (candidateValues s)
    s.contentSnapshotId
  return payload

def validateSnapshotRow (row : ContentSnapshotRow) : Except StoreError Unit := do
  validateIdentityAgainstValues rt.toSnapshotRuntime rt.jsonStr row.identity row.toRedundantValues row.contentSnapshotId
  rt.checkMembers row
  rt.checkArtifacts row

def differentPayload (snapshotId : String) : StoreError :=
  .integrity ("snapshot id " ++ snapshotId ++ " already stores a different payload")

def isLegacy (identity : List (String × Json)) : Bool := Json.lookup identity "schema_version" = some (.str v1SchemaVersion)

/-- Every field that was kept is immutable, the time apart. -/
def compareExistingIdentity (existing candidate : List (String × Json)) (snapshotId : String) : Except StoreError Unit :=
  (existing.filter (·.1 ≠ "created_at")).forM fun field =>
    require (differentPayload snapshotId)
      (match Json.lookup (candidate.filter (·.1 ≠ "created_at")) field.1 with
        | none => isLegacy existing && additiveIdentityFields.contains field.1
        | some other => field.2.canonical = other.canonical)

def compareCandidateToExistingRow (s : ContentSnapshot Value) (row : ContentSnapshotRow) : Except StoreError Unit :=
  ((candidateValues s).fields.zip row.fields).forM fun pair =>
    match Json.lookup row.identity pair.1.1 with
    | none => require (.integrity ("snapshot id " ++ s.contentSnapshotId ++ " identity omitted redundant column '" ++
        pair.1.1 ++ "'")) (isLegacy row.identity && additiveIdentityFields.contains pair.1.1)
    | some _ => require (.integrity ("snapshot id " ++ s.contentSnapshotId ++ " redundant column '" ++ pair.1.1 ++
        "' changed")) (pair.1.2.canonical = pair.2.2.canonical)

def columns (fields : List (String × Value)) : Except StoreError (List (String × Json)) :=
  match Value.columnFields fields with
  | some kept => .ok kept
  | none => .error .notJson

/-- The row of a snapshot, with what its JSON columns keep. -/
def snapshotRow (s : ContentSnapshot Value) (identity manifest : List (String × Json)) : ContentSnapshotRow :=
  { candidateValues s with
    producerManifest := manifest
    contentSnapshotId := s.contentSnapshotId
    identity := identity
    createdAt := s.createdAt }

/-- A row is never overwritten: a snapshot that is there already has to be the same one. -/
def saveRow (snapshots : SnapshotTable) (s : ContentSnapshot Value) (row : ContentSnapshotRow) :
    Except StoreError SnapshotTable :=
  match snapshots.get s.contentSnapshotId with
  | some existing => do
    validateSnapshotRow rt existing
    compareExistingIdentity existing.identity row.identity s.contentSnapshotId
    compareCandidateToExistingRow s existing
    return snapshots
  | none => do
    validateSnapshotRow rt row
    return (snapshots.insert row).getD snapshots

def save (snapshots : SnapshotTable) (s : ContentSnapshot Value) : Except StoreError SnapshotTable := do
  let payload ← validateSnapshotCandidate rt s
  rt.checkArtifacts (snapshotRow s (Value.shownFields payload) (Value.shownFields s.producerManifest))
  let identity ← columns payload
  let manifest ← columns s.producerManifest
  saveRow rt snapshots s (snapshotRow s identity manifest)

end Store

section Reading
variable (rt : StoreRuntime)

/-- A field that is a text; any other one counts as absent. -/
def readText (identity : List (String × Json)) (key : String) : Option String :=
  match Json.lookup identity key with
  | some (.str s) => some s
  | _ => none

def readFields (identity : List (String × Json)) (key : String) : List (String × Json) :=
  match Json.lookup identity key with
  | some (.obj fields) => fields
  | _ => []

def readTexts (identity : List (String × Json)) (key : String) : List String :=
  match Json.lookup identity key with
  | some (.arr items) => items.map (Json.strOf rt.jsonStr)
  | _ => []

/-- `identity.get(key) or other`. -/
def readOr (identity : List (String × Json)) (key : String) (other : Option String) : Option String :=
  match readText identity key with
  | none | some "" => other
  | some s => some s

def readCreatedAt (row : ContentSnapshotRow) : Except StoreError Time :=
  match readText row.identity "created_at" with
  | none => .ok row.createdAt
  | some s => rt.fromisoformat s

def rowToSnapshot (row : ContentSnapshotRow) : Except StoreError (ContentSnapshot Json) := do
  validateSnapshotRow rt row
  let createdAt ← readCreatedAt rt row
  let identity := row.identity
  return {
    contentSnapshotId := row.contentSnapshotId
    sourceType := row.sourceType
    sourceRef := row.sourceRef
    sourceContentHash := row.sourceContentHash
    parserVersion := readText identity "parser_version"
    asrModel := readText identity "asr_model"
    asrModelVersion := readText identity "asr_model_version"
    visionModel := readText identity "vision_model"
    llmModel := readText identity "llm_model"
    promptBundleVersion := (readOr identity "prompt_bundle_version" none).getD "prompt_bundle.v1"
    entityAliasVersion := (readOr identity "entity_alias_version" none).getD "entity_alias.v1"
    verificationPolicyVersion := (readOr identity "verification_policy_version" none).getD "verification_policy.v1"
    quantMarketSnapshotIds := readTexts rt identity "quant_market_snapshot_ids"
    codeSha := (readText identity "code_sha").getD ""
    configHash := (readText identity "config_hash").getD ""
    pipelineVersion := (readOr identity "pipeline_version" none).getD row.pipelineVersion
    schemaVersion := (readOr identity "schema_version" none).getD row.schemaVersion
    artifactIds := (readFields identity "artifact_ids").map fun f => (f.1, f.2.strOf rt.jsonStr)
    sourceArtifactId := (readOr identity "source_artifact_id" row.sourceArtifactId).getD ""
    artifactRootHash := (readOr identity "artifact_root_hash" row.artifactRootHash).getD ""
    snapshotKind := orElse ((readOr identity "snapshot_kind" none).getD row.snapshotKind) "INITIAL"
    parentSnapshotId := readOr identity "parent_snapshot_id" row.parentSnapshotId
    supersedesSnapshotId := readOr identity "supersedes_snapshot_id" row.supersedesSnapshotId
    producerManifest := if readFields identity "producer_manifest" = [] then row.producerManifest
      else readFields identity "producer_manifest"
    modelVersions := readFields identity "model_versions"
    promptVersions := readFields identity "prompt_versions"
    configuration := readFields identity "configuration"
    externalSnapshots := readTexts rt identity "external_snapshots"
    policyVersions := readFields identity "policy_versions"
    createdAt := createdAt }

end Reading

/-! The identity of a snapshot is computed again before anything formal is said of it. -/

inductive FormalError where
  | incomplete (message : String)
  | governance (message : String)
  | rootInvalid
  | identityStale
  deriving DecidableEq

def FormalError.text : FormalError → String
  | .incomplete message => message
  | .governance message => "formal snapshot governance evidence is invalid: " ++ message
  | .rootInvalid => "formal snapshot artifact root identity is invalid"
  | .identityStale => "formal snapshot identity is stale or mismatched"

structure FormalQuery where
  contentSnapshotId : String
  availabilityAsOf : Time

section Formal
variable (rt : StoreRuntime)

def recomputedId (read : ContentSnapshot Json) : String :=
  computeContentSnapshotId rt.toSnapshotRuntime (snapshotIdentityPayload id read)

/-- The evidence is that of the source artifact, where there is a repository of artifacts. -/
def validateFormalSnapshot (evidence : ContentSnapshot Json → Except String Unit) (read : ContentSnapshot Json)
    (query : FormalQuery) : Except FormalError Unit := do
  require (.incomplete "formal snapshot identity does not match requested content_snapshot_id")
    (read.contentSnapshotId = query.contentSnapshotId)
  [("source_type", read.sourceType), ("source_ref", read.sourceRef), ("source_content_hash", read.sourceContentHash),
    ("source_artifact_id", read.sourceArtifactId)].forM fun field =>
      require (.incomplete ("formal snapshot requires " ++ field.1 ++ " identity"))
        (!field.2.toList.all rt.tables.isSpace)
  require (.incomplete "formal snapshot is not available at availability_as_of")
    (read.createdAt ≤ query.availabilityAsOf)
  require (.incomplete "formal snapshot source artifact identity does not match artifact_ids")
    ((read.artifactIds.lookup "source").getD "" = read.sourceArtifactId)
  (evidence read).mapError .governance
  require .rootInvalid (read.artifactRootHash ≠ "" &&
    read.artifactRootHash = computeArtifactRootHash rt.toSnapshotRuntime read.artifactIds)
  require .identityStale (recomputedId rt read = query.contentSnapshotId)

/-- The root hash is there, and is that of the artifacts. -/
def Rooted (read : ContentSnapshot Json) : Prop :=
  read.artifactRootHash ≠ "" ∧ read.artifactRootHash = computeArtifactRootHash rt.toSnapshotRuntime read.artifactIds

/-- The identity of a snapshot that was read back is the one it was stored under, and no query is turned away for it. -/
structure IdentitySurvives (read : ContentSnapshot Json) : Prop where
  recomputed : recomputedId rt read = read.contentSnapshotId
  released : ∀ evidence query e, validateFormalSnapshot rt evidence read query = .error e →
    e ≠ .rootInvalid ∧ e ≠ .identityStale

variable {rt}

theorem require_error {E : Type} {error e : E} {condition : Bool} (h : require error condition = .error e) :
    e = error ∧ condition = false := by
  cases condition with
  | false => exact ⟨(Except.error.inj h).symm, rfl⟩
  | true => cases h

theorem forM_error {E A : Type} {f : A → Except E Unit} {xs : List A} {e : E} (h : xs.forM f = .error e) :
    ∃ x ∈ xs, f x = .error e := by
  induction xs with
  | nil => cases h
  | cons x xs ih =>
    rcases bind_eq_error.mp h with h | ⟨_, _, h⟩
    · exact ⟨x, List.mem_cons_self, h⟩
    · obtain ⟨y, hy, h⟩ := ih h
      exact ⟨y, List.mem_cons_of_mem x hy, h⟩

/-- All that a query is turned away for. -/
theorem validateFormalSnapshot_error {evidence : ContentSnapshot Json → Except String Unit} {read : ContentSnapshot Json}
    {query : FormalQuery} {e : FormalError} (h : validateFormalSnapshot rt evidence read query = .error e) :
    (∃ message, e = .incomplete message) ∨ (∃ message, e = .governance message) ∨
      (e = .rootInvalid ∧ ¬ Rooted rt read) ∨
      (e = .identityStale ∧ read.contentSnapshotId = query.contentSnapshotId ∧
        recomputedId rt read ≠ query.contentSnapshotId) := by
  rw [validateFormalSnapshot] at h
  rcases bind_eq_error.mp h with h | ⟨_, hid, h⟩
  · exact .inl ⟨_, (require_error h).1⟩
  rcases bind_eq_error.mp h with h | ⟨_, _, h⟩
  · obtain ⟨field, _, h⟩ := forM_error h
    exact .inl ⟨_, (require_error h).1⟩
  rcases bind_eq_error.mp h with h | ⟨_, _, h⟩
  · exact .inl ⟨_, (require_error h).1⟩
  rcases bind_eq_error.mp h with h | ⟨_, _, h⟩
  · exact .inl ⟨_, (require_error h).1⟩
  rcases bind_eq_error.mp h with h | ⟨_, _, h⟩
  · cases hevidence : evidence read with
    | ok _ =>
      rw [hevidence] at h
      cases h
    | error message =>
      rw [hevidence] at h
      exact .inr (.inl ⟨message, (Except.error.inj h).symm⟩)
  rcases bind_eq_error.mp h with h | ⟨_, _, h⟩
  · obtain ⟨he, hroot⟩ := require_error h
    refine .inr (.inr (.inl ⟨he, fun hrooted => ?_⟩))
    rw [decide_eq_true hrooted.1, decide_eq_true hrooted.2] at hroot
    cases hroot
  · obtain ⟨he, hstale⟩ := require_error h
    exact .inr (.inr (.inr ⟨he, of_decide_eq_true (require_eq_ok.mp hid), of_decide_eq_false hstale⟩))

theorem identitySurvives_iff {read : ContentSnapshot Json} (hrooted : Rooted rt read) :
    IdentitySurvives rt read ↔ recomputedId rt read = read.contentSnapshotId := by
  refine ⟨IdentitySurvives.recomputed, fun hrecomputed => ⟨hrecomputed, fun evidence query e h => ?_⟩⟩
  rcases validateFormalSnapshot_error h with ⟨_, rfl⟩ | ⟨_, rfl⟩ | ⟨rfl, hroot⟩ | ⟨rfl, hid, hstale⟩
  · exact ⟨nofun, nofun⟩
  · exact ⟨nofun, nofun⟩
  · exact absurd hrooted hroot
  · exact absurd (hrecomputed.trans hid) hstale

end Formal
end StockContent.Identity
