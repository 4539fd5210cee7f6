import StockContent.Identity.StoredIdentity

/-! When the identity of a snapshot survives that it is stored: what the store does not compare with its columns has to
pass the redaction unaltered, and no version may be an empty text. -/
namespace StockContent.Identity
open Storage

section Documents

theorem canonical_jsonText (text : Option String) : (jsonText text).canonical = jsonText text := by
  cases text <;> rfl

theorem canonical_eq_jsonText {v : Json} {text : Option String} (h : v.canonical = jsonText text) : v = jsonText text := by
  cases text with
  | none => exact Json.canonical_eq_null h
  | some text => exact Json.canonical_eq_str h

theorem jsonText_injective : Function.Injective jsonText := by
  intro a b h
  cases a <;> cases b <;> cases h <;> rfl

theorem strOf_texts (text : Json → String) (texts : List String) :
    (texts.map Json.str).map (Json.strOf text) = texts := by
  rw [List.map_map]
  exact List.map_id texts

/-- An object of texts, whatever the order of its keys, is read as one. -/
theorem textFields_of_canonical {fields : List (String × Json)} {ids : List (String × String)} (text : Json → String)
    (h : (Json.obj fields).canonical = (jsonTextFields ids).canonical) :
    jsonTextFields (fields.map fun f => (f.1, f.2.strOf text)) = .obj fields := by
  rw [jsonTextFields, Json.canonical_obj, Json.canonical_obj, Json.obj.injEq] at h
  have hperm := (List.perm_insertionSort _ _).symm.trans ((List.Perm.of_eq h).trans (List.perm_insertionSort _ _))
  rw [jsonTextFields, Json.obj.injEq, List.map_map]
  have hsame : ∀ f ∈ fields, (f.1, Json.str (f.2.strOf text)) = f := by
    intro f hf
    have hmem : (f.1, f.2.canonical) ∈ fields.map fun f => (f.1, f.2.canonical) := List.mem_map.mpr ⟨f, hf, rfl⟩
    obtain ⟨g, hg, hfg⟩ := List.mem_map.mp (hperm.subset hmem)
    obtain ⟨entry, _, rfl⟩ := List.mem_map.mp hg
    have hstr := Json.canonical_eq_str (Prod.mk.inj hfg).2.symm
    obtain ⟨key, v⟩ := f
    rw [show v = .str entry.2 from hstr]
    rfl
  exact (List.map_congr_left hsame).trans (List.map_id _)

end Documents

section Read
variable {rt : StoreRuntime} {s : ContentSnapshot Value} {row : ContentSnapshotRow} {read : ContentSnapshot Json}

/-- What is read of a column that the document repeats. -/
theorem Stored.checked (h : Stored rt s row) {key : String} {v : Json} (hmem : (key, v) ∈ row.fields) :
    ∃ kept, Json.lookup row.identity key = some kept ∧ kept.canonical = v.canonical := by
  have hname : key ∈ snapshotFieldNames := by
    have hall : (row.fields.map Prod.fst).all snapshotFieldNames.contains = true := rfl
    exact List.contains_iff_mem.mp (List.all_eq_true.mp hall key (List.mem_map.mpr ⟨(key, v), hmem, rfl⟩))
  rw [← toFields_names s] at hname
  obtain ⟨field, hfield, rfl⟩ := List.mem_map.mp hname
  obtain ⟨_, kept, _, hlookup, _⟩ := h.field field.1 field.2 hfield
  exact ⟨kept, hlookup, h.agrees.fields _ hmem kept hlookup⟩

theorem Stored.text (h : Stored rt s row) {key : String} {text : Option String} (hmem : (key, .text text) ∈ toFields s) :
    redactOption rt.tables text = .ok (readText row.identity key) := by
  obtain ⟨w, kept, hw, hlookup, hkept⟩ := h.field key _ hmem
  rw [redact_text] at hw
  cases hredact : redactOption rt.tables text with
  | error e =>
    rw [hredact] at hw
    cases hw
  | ok other =>
    rw [hredact] at hw
    cases hw
    have hshown : (Value.text other).shown = jsonText other := by cases other <;> rfl
    rw [hshown, canonical_jsonText] at hkept
    rw [readText, hlookup, canonical_eq_jsonText hkept]
    cases other <;> rfl

theorem Stored.object (h : Stored rt s row) {key : String} {fields : List (String × Value)}
    (hmem : (key, .obj fields) ∈ toFields s) : ∃ w, redact rt.tables (.obj fields) = .ok w ∧
      (Json.obj (readFields row.identity key)).canonical = w.shown.canonical := by
  obtain ⟨w, kept, hw, hlookup, hkept⟩ := h.field key _ hmem
  refine ⟨w, hw, ?_⟩
  rw [redact] at hw
  cases hredact : redactFields rt.tables fields with
  | error e =>
    rw [hredact] at hw
    cases hw
  | ok others =>
    rw [hredact] at hw
    cases hw
    obtain ⟨fields', rfl⟩ := Json.canonical_eq_obj hkept
    rw [readFields, hlookup]
    exact hkept

theorem Stored.texts (h : Stored rt s row) {key : String} {texts : List String} (hmem : (key, .texts texts) ∈ toFields s) :
    texts.mapM (redactText rt.tables) = .ok (readTexts rt row.identity key) := by
  obtain ⟨w, kept, hw, hlookup, hkept⟩ := h.field key _ hmem
  rw [redact_texts] at hw
  cases hredact : texts.mapM (redactText rt.tables) with
  | error e =>
    rw [hredact] at hw
    cases hw
  | ok others =>
    rw [hredact] at hw
    cases hw
    have hshown : (Value.texts others).shown = jsonTexts others := by
      rw [Value.texts, Value.shown, Value.shownItems_eq_map, List.map_map]
      rfl
    rw [hshown, jsonTexts, Json.canonical_texts] at hkept
    rw [readTexts, hlookup, Json.canonical_eq_texts hkept]
    exact congrArg Except.ok (strOf_texts rt.jsonStr others).symm

theorem Stored.checkedText (h : Stored rt s row) {key text : String} (hmem : (key, .str text) ∈ row.fields) :
    readText row.identity key = some text := by
  obtain ⟨kept, hlookup, hkept⟩ := h.checked hmem
  rw [readText, hlookup, Json.canonical_eq_str hkept]

theorem Stored.checkedOption (h : Stored rt s row) {key : String} {text : Option String}
    (hmem : (key, jsonText text) ∈ row.fields) : readText row.identity key = text := by
  obtain ⟨kept, hlookup, hkept⟩ := h.checked hmem
  rw [canonical_jsonText] at hkept
  rw [readText, hlookup, canonical_eq_jsonText hkept]
  cases text <;> rfl

theorem Stored.checkedTexts (h : Stored rt s row) {key : String} {texts : List String}
    (hmem : (key, jsonTexts texts) ∈ row.fields) : readTexts rt row.identity key = texts := by
  obtain ⟨kept, hlookup, hkept⟩ := h.checked hmem
  rw [jsonTexts, Json.canonical_texts] at hkept
  rw [readTexts, hlookup, Json.canonical_eq_texts hkept]
  exact strOf_texts rt.jsonStr texts

theorem Stored.checkedObject (h : Stored rt s row) {key : String} {fields : List (String × Json)}
    (hmem : (key, .obj fields) ∈ row.fields) :
    (Json.obj (readFields row.identity key)).canonical = (Json.obj fields).canonical := by
  obtain ⟨kept, hlookup, hkept⟩ := h.checked hmem
  obtain ⟨fields', rfl⟩ := Json.canonical_eq_obj hkept
  rw [readFields, hlookup]
  exact hkept

/-- The columns are those of the snapshot. -/
structure SameColumns (s : ContentSnapshot Value) (row : ContentSnapshotRow) : Prop where
  sourceType : row.sourceType = s.sourceType
  sourceRef : row.sourceRef = s.sourceRef
  sourceContentHash : row.sourceContentHash = s.sourceContentHash
  artifactIds : (jsonTextFields row.artifactIds).canonical = (jsonTextFields s.artifactIds).canonical
  quantMarketSnapshotIds : row.quantMarketSnapshotIds = s.quantMarketSnapshotIds
  pipelineVersion : row.pipelineVersion = s.pipelineVersion
  schemaVersion : row.schemaVersion = s.schemaVersion
  codeSha : row.codeSha = some s.codeSha
  configHash : row.configHash = some s.configHash
  sourceArtifactId : row.sourceArtifactId = some s.sourceArtifactId
  artifactRootHash : row.artifactRootHash = some s.artifactRootHash
  snapshotKind : row.snapshotKind = s.snapshotKind
  parentSnapshotId : row.parentSnapshotId = s.parentSnapshotId
  supersedesSnapshotId : row.supersedesSnapshotId = s.supersedesSnapshotId
  producerManifest : (Json.obj row.producerManifest).canonical = (Json.obj (Value.shownFields s.producerManifest)).canonical

theorem Stored.columns (h : Stored rt s row) : SameColumns s row := by
  have hcolumn := h.column
  simp only [RedundantValues.fields, candidateValues, List.map_cons, List.map_nil, List.cons.injEq, Json.canonical_str,
    canonical_jsonText, jsonTexts, Json.canonical_texts, Json.str.injEq, and_true] at hcolumn
  obtain ⟨h1, h2, h3, h4, h5, h6, h7, h8, h9, h10, h11, h12, h13, h14, h15⟩ := hcolumn
  exact ⟨h1, h2, h3, h4, Json.texts_injective h5, h6, h7, jsonText_injective h8, jsonText_injective h9,
    jsonText_injective h10, jsonText_injective h11, h12, jsonText_injective h13, jsonText_injective h14, h15⟩

/-- `value or other` of a text that is there. -/
theorem readOr_text {identity : List (String × Json)} {key text : String} (h : readText identity key = some text)
    (other : Option String) : readOr identity key other = if text = "" then other else some text := by
  rw [readOr, h]
  by_cases hempty : text = ""
  · subst hempty
    rfl
  · rw [if_neg hempty]
    split
    · rename_i hnone
      cases hnone
    · rename_i hsome
      exact absurd (Option.some.inj hsome) hempty
    · rename_i hsome
      exact hsome.symm

theorem readOr_self {identity : List (String × Json)} {key : String} {text : Option String}
    (h : readText identity key = text) : readOr identity key text = text := by
  cases text with
  | none => rw [readOr, h]
  | some text =>
    rw [readOr_text h]
    split <;> rfl

/-- A text that the identity has and its column repeats is read back. -/
theorem readOr_stored {identity : List (String × Json)} {key text default : String} {other : Option String}
    (h : readText identity key = some text) (hother : other.getD default = text) :
    (readOr identity key other).getD default = text := by
  rw [readOr_text h]
  split
  · exact hother
  · rfl

/-- What is read back of a snapshot: the fields that the columns repeat, and the others as the redaction left them. -/
structure ReadBack (rt : StoreRuntime) (s : ContentSnapshot Value) (read : ContentSnapshot Json) : Prop where
  id : read.contentSnapshotId = s.contentSnapshotId
  sourceContentHash : read.sourceContentHash = s.sourceContentHash
  sourceArtifactId : read.sourceArtifactId = s.sourceArtifactId
  artifactRootHash : read.artifactRootHash = s.artifactRootHash
  pipelineVersion : read.pipelineVersion = s.pipelineVersion
  quantMarketSnapshotIds : read.quantMarketSnapshotIds = s.quantMarketSnapshotIds
  artifactIds : (jsonTextFields read.artifactIds).canonical = (jsonTextFields s.artifactIds).canonical
  codeSha : read.codeSha = s.codeSha
  configHash : read.configHash = s.configHash
  producerManifest : (Json.obj read.producerManifest).canonical = (Json.obj (Value.shownFields s.producerManifest)).canonical
  snapshotKind : read.snapshotKind = orElse s.snapshotKind "INITIAL"
  parentSnapshotId : read.parentSnapshotId = s.parentSnapshotId
  supersedesSnapshotId : read.supersedesSnapshotId = s.supersedesSnapshotId
  parserVersion : redactOption rt.tables s.parserVersion = .ok read.parserVersion
  asrModel : redactOption rt.tables s.asrModel = .ok read.asrModel
  asrModelVersion : redactOption rt.tables s.asrModelVersion = .ok read.asrModelVersion
  visionModel : redactOption rt.tables s.visionModel = .ok read.visionModel
  llmModel : redactOption rt.tables s.llmModel = .ok read.llmModel
  promptBundleVersion : ∃ kept, redactText rt.tables s.promptBundleVersion = .ok kept ∧
    read.promptBundleVersion = orElse kept "prompt_bundle.v1"
  entityAliasVersion : ∃ kept, redactText rt.tables s.entityAliasVersion = .ok kept ∧
    read.entityAliasVersion = orElse kept "entity_alias.v1"
  verificationPolicyVersion : ∃ kept, redactText rt.tables s.verificationPolicyVersion = .ok kept ∧
    read.verificationPolicyVersion = orElse kept "verification_policy.v1"
  policyVersions : ∃ w, redact rt.tables (.obj s.policyVersions) = .ok w ∧
    (Json.obj read.policyVersions).canonical = w.shown.canonical
  modelVersions : ∃ w, redact rt.tables (.obj s.modelVersions) = .ok w ∧
    (Json.obj read.modelVersions).canonical = w.shown.canonical
  promptVersions : ∃ w, redact rt.tables (.obj s.promptVersions) = .ok w ∧
    (Json.obj read.promptVersions).canonical = w.shown.canonical
  configuration : ∃ w, redact rt.tables (.obj s.configuration) = .ok w ∧
    (Json.obj read.configuration).canonical = w.shown.canonical
  externalSnapshots : s.externalSnapshots.mapM (redactText rt.tables) = .ok read.externalSnapshots

/-- A version that is left out is read back as its default. -/
theorem Stored.version (h : Stored rt s row) {key text : String} (hmem : (key, .str text) ∈ toFields s) (default : String) :
    ∃ kept, redactText rt.tables text = .ok kept ∧ (readOr row.identity key none).getD default = orElse kept default := by
  have hread : redactOption rt.tables (some text) = .ok (readText row.identity key) := h.text hmem
  rw [redactOption] at hread
  cases hredact : redactText rt.tables text with
  | error e =>
    rw [hredact] at hread
    cases hread
  | ok kept =>
    rw [hredact] at hread
    refine ⟨kept, rfl, ?_⟩
    rw [readOr_text (Except.ok.inj hread).symm, orElse]
    split <;> rfl

theorem readBack (h : Stored rt s row) (hread : rowToSnapshot rt row = .ok read) : ReadBack rt s read := by
  obtain ⟨_, _, hread⟩ := bind_eq_ok.mp hread
  obtain ⟨createdAt, _, hread⟩ := bind_eq_ok.mp hread
  cases hread
  have hcolumns := h.columns
  exact {
    id := h.id
    sourceContentHash := hcolumns.sourceContentHash
    sourceArtifactId := by
      have hfield : ("source_artifact_id", Json.str s.sourceArtifactId) ∈ row.fields := by
        simp [RedundantValues.fields, hcolumns.sourceArtifactId, jsonText]
      exact readOr_stored (h.checkedText hfield) (congrArg (Option.getD · "") hcolumns.sourceArtifactId)
    artifactRootHash := by
      have hfield : ("artifact_root_hash", Json.str s.artifactRootHash) ∈ row.fields := by
        simp [RedundantValues.fields, hcolumns.artifactRootHash, jsonText]
      exact readOr_stored (h.checkedText hfield) (congrArg (Option.getD · "") hcolumns.artifactRootHash)
    pipelineVersion := by
      have hfield : ("pipeline_version", Json.str s.pipelineVersion) ∈ row.fields := by
        simp [RedundantValues.fields, hcolumns.pipelineVersion]
      exact readOr_stored (h.checkedText hfield) hcolumns.pipelineVersion
    quantMarketSnapshotIds := by
      have hfield : ("quant_market_snapshot_ids", jsonTexts s.quantMarketSnapshotIds) ∈ row.fields := by
        simp [RedundantValues.fields, hcolumns.quantMarketSnapshotIds]
      exact h.checkedTexts hfield
    artifactIds := by
      have hfield : ("artifact_ids", jsonTextFields row.artifactIds) ∈ row.fields := by simp [RedundantValues.fields]
      have hkept := h.checkedObject hfield
      rw [textFields_of_canonical rt.jsonStr hkept]
      exact hkept.trans hcolumns.artifactIds
    codeSha := by
      have hfield : ("code_sha", Json.str s.codeSha) ∈ row.fields := by
        simp [RedundantValues.fields, hcolumns.codeSha, jsonText]
      exact congrArg (Option.getD · "") (h.checkedText hfield)
    configHash := by
      have hfield : ("config_hash", Json.str s.configHash) ∈ row.fields := by
        simp [RedundantValues.fields, hcolumns.configHash, jsonText]
      exact congrArg (Option.getD · "") (h.checkedText hfield)
    producerManifest := by
      have hfield : ("producer_manifest", Json.obj row.producerManifest) ∈ row.fields := by simp [RedundantValues.fields]
      have hkept := h.checkedObject hfield
      dsimp only
      split
      · exact hcolumns.producerManifest
      · exact hkept.trans hcolumns.producerManifest
    snapshotKind := by
      have hfield : ("snapshot_kind", Json.str s.snapshotKind) ∈ row.fields := by
        simp [RedundantValues.fields, hcolumns.snapshotKind]
      exact congrArg (orElse · "INITIAL") (readOr_stored (h.checkedText hfield) hcolumns.snapshotKind)
    parentSnapshotId := by
      have hfield : ("parent_snapshot_id", jsonText row.parentSnapshotId) ∈ row.fields := by simp [RedundantValues.fields]
      exact (readOr_self (h.checkedOption hfield)).trans hcolumns.parentSnapshotId
    supersedesSnapshotId := by
      have hfield : ("supersedes_snapshot_id", jsonText row.supersedesSnapshotId) ∈ row.fields := by
        simp [RedundantValues.fields]
      exact (readOr_self (h.checkedOption hfield)).trans hcolumns.supersedesSnapshotId
    parserVersion := h.text (by simp [toFields])
    asrModel := h.text (by simp [toFields])
    asrModelVersion := h.text (by simp [toFields])
    visionModel := h.text (by simp [toFields])
    llmModel := h.text (by simp [toFields])
    promptBundleVersion := h.version (by simp [toFields]) _
    entityAliasVersion := h.version (by simp [toFields]) _
    verificationPolicyVersion := h.version (by simp [toFields]) _
    policyVersions := h.object (by simp [toFields])
    modelVersions := h.object (by simp [toFields])
    promptVersions := h.object (by simp [toFields])
    configuration := h.object (by simp [toFields])
    externalSnapshots := h.texts (by simp [toFields]) }

/-- The artifacts that are read back are those of the root hash. -/
theorem rooted (hbuilt : Built rt.toSnapshotRuntime s) (h : Stored rt s row) (hback : ReadBack rt s read) :
    Rooted rt read := by
  have hcolumns := h.columns
  have hagrees := h.agrees.root
  rw [hcolumns.artifactRootHash, Option.getD_some] at hagrees
  have hroot := hagrees.resolve_left hbuilt.rooted
  rw [computeArtifactRootHash, hcolumns.artifactIds, ← hback.artifactIds] at hroot
  exact ⟨hback.artifactRootHash ▸ hbuilt.rooted, hback.artifactRootHash.trans hroot⟩

end Read

section Identity
variable {rt : StoreRuntime} {s : ContentSnapshot Value} {read : ContentSnapshot Json}

/-- The redaction changes nothing that a digest is shown. -/
def Kept (tables : RedactionTables) (v : Value) : Prop :=
  ∃ w, redact tables v = .ok w ∧ w.shown.canonical = v.shown.canonical

/-- The fields that no column repeats pass the redaction unaltered, and no version is an empty text. -/
structure Unaltered (tables : RedactionTables) (s : ContentSnapshot Value) : Prop where
  models : ∀ text ∈ [s.parserVersion, s.asrModel, s.asrModelVersion, s.visionModel, s.llmModel], Kept tables (.text text)
  versions : ∀ text ∈ [s.promptBundleVersion, s.entityAliasVersion, s.verificationPolicyVersion],
    text ≠ "" ∧ Kept tables (.str text)
  kind : s.snapshotKind ≠ ""
  objects : ∀ fields ∈ [s.policyVersions, s.modelVersions, s.promptVersions, s.configuration], Kept tables (.obj fields)
  externalSnapshots : ∃ kept, s.externalSnapshots.mapM (redactText tables) = .ok kept ∧
    sortedSet kept = sortedSet s.externalSnapshots

theorem kept_iff {tables : RedactionTables} {v w : Value} (hw : redact tables v = .ok w) :
    Kept tables v ↔ w.shown.canonical = v.shown.canonical := by
  constructor
  · intro h
    obtain ⟨w', hw', h⟩ := h
    cases hw.symm.trans hw'
    exact h
  · exact fun h => ⟨w, hw, h⟩

theorem shown_text (text : Option String) : (Value.text text).shown = jsonText text := by cases text <;> rfl

theorem text_kept_iff {tables : RedactionTables} {text other : Option String} (h : redactOption tables text = .ok other) :
    jsonText other = jsonText text ↔ Kept tables (.text text) := by
  have hw : redact tables (.text text) = .ok (.text other) := by
    rw [redact_text, h]
    rfl
  rw [kept_iff hw, shown_text, shown_text, canonical_jsonText, canonical_jsonText]

/-- A default is read back for an empty text only. -/
theorem version_kept_iff {tables : RedactionTables} {text other default : String} (hdefault : default ≠ "")
    (h : ∃ kept, redactText tables text = .ok kept ∧ other = orElse kept default) :
    Json.str other = .str text ↔ text ≠ "" ∧ Kept tables (.str text) := by
  obtain ⟨kept, hkept, rfl⟩ := h
  have hw : redact tables (.str text) = .ok (.str kept) := by
    rw [redact, hkept]
    rfl
  rw [kept_iff hw, Json.str.injEq, orElse]
  change _ ↔ _ ∧ Json.str kept = Json.str text
  rw [Json.str.injEq]
  by_cases htext : text = ""
  · refine iff_of_false (fun heq => ?_) fun h => h.1 htext
    split at heq
    · exact hdefault (heq.trans htext)
    · rename_i hne
      exact hne (heq.trans htext)
  · rw [if_neg (redactText_ne_empty tables htext hkept), and_iff_right htext]

theorem kind_kept_iff {kind : String} : orElse kind "INITIAL" = kind ↔ kind ≠ "" := by
  rw [orElse]
  split
  · rename_i hempty
    subst hempty
    decide
  · rename_i hne
    exact iff_of_true rfl hne

theorem object_kept_iff {tables : RedactionTables} {fields : List (String × Value)} {other : List (String × Json)}
    (h : ∃ w, redact tables (.obj fields) = .ok w ∧ (Json.obj other).canonical = w.shown.canonical) :
    (Json.obj other).canonical = (Json.obj (Value.shownFields fields)).canonical ↔ Kept tables (.obj fields) := by
  obtain ⟨w, hw, hother⟩ := h
  rw [kept_iff hw, hother]
  rfl

theorem external_kept_iff {tables : RedactionTables} {texts other : List String}
    (h : texts.mapM (redactText tables) = .ok other) : jsonTexts (sortedSet other) = jsonTexts (sortedSet texts) ↔
      ∃ kept, texts.mapM (redactText tables) = .ok kept ∧ sortedSet kept = sortedSet texts := by
  constructor
  · exact fun heq => ⟨other, h, Json.texts_injective heq⟩
  · intro hkept
    obtain ⟨kept, hkept, heq⟩ := hkept
    cases h.symm.trans hkept
    rw [heq]

def snapshotIdentityNames : List String :=
  ["source_content_hash", "source_artifact_id", "artifact_root_hash", "pipeline_version", "parser_version", "asr_model",
    "asr_model_version", "vision_model", "llm_model", "prompt_bundle_version", "entity_alias_version",
    "verification_policy_version", "quant_market_snapshot_ids", "code_sha", "config_hash", "producer_manifest",
    "policy_versions", "model_versions", "prompt_versions", "configuration", "external_snapshots", "snapshot_kind",
    "parent_snapshot_id", "supersedes_snapshot_id"]

/-- Payloads are compared field by field. -/
theorem identityPayload_iff {V W : Type} {fields : List (String × V) → List (String × Json)}
    {others : List (String × W) → List (String × Json)} {s : ContentSnapshot V} {t : ContentSnapshot W} :
    (Json.obj (snapshotIdentityPayload fields s)).canonical = (Json.obj (snapshotIdentityPayload others t)).canonical ↔
      (snapshotIdentityPayload fields s).map (·.2.canonical) = (snapshotIdentityPayload others t).map (·.2.canonical) := by
  have hnames {V : Type} (fields : List (String × V) → List (String × Json)) (s : ContentSnapshot V) :
      (snapshotIdentityPayload fields s).map Prod.fst = snapshotIdentityNames := rfl
  refine Json.canonical_obj_iff ((hnames fields s).trans (hnames others t).symm) ?_
  rw [hnames]
  decide

theorem recomputed_iff (hdigest : rt.Distinguishes (Json.obj (snapshotIdentityPayload Value.shownFields s)).canonical)
    (hbuilt : Built rt.toSnapshotRuntime s) (h : ReadBack rt s read) : recomputedId rt read = read.contentSnapshotId ↔ Unaltered rt.tables s := by
  rw [recomputedId, h.id, hbuilt.identity, computeContentSnapshotId_iff _ hdigest, identityPayload_iff]
  simp only [snapshotIdentityPayload, List.map_cons, List.map_nil, List.cons.injEq, Json.canonical_str, canonical_jsonText,
    jsonTexts, Json.canonical_texts, id, h.sourceContentHash, h.sourceArtifactId, h.artifactRootHash, h.pipelineVersion,
    h.quantMarketSnapshotIds, h.codeSha, h.configHash, h.producerManifest, h.parentSnapshotId, h.supersedesSnapshotId,
    true_and, and_true]
  rw [text_kept_iff h.parserVersion, text_kept_iff h.asrModel, text_kept_iff h.asrModelVersion, text_kept_iff h.visionModel,
    text_kept_iff h.llmModel, version_kept_iff (by decide) h.promptBundleVersion,
    version_kept_iff (by decide) h.entityAliasVersion, version_kept_iff (by decide) h.verificationPolicyVersion,
    object_kept_iff h.policyVersions, object_kept_iff h.modelVersions, object_kept_iff h.promptVersions,
    object_kept_iff h.configuration, ← jsonTexts, ← jsonTexts, external_kept_iff h.externalSnapshots, h.snapshotKind,
    Json.str.injEq, kind_kept_iff]
  constructor
  · intro hkept
    obtain ⟨h1, h2, h3, h4, h5, h6, h7, h8, h9, h10, h11, h12, h13, h14⟩ := hkept
    refine ⟨?_, ?_, h14, ?_, h13⟩
    · simp only [List.forall_mem_cons]
      exact ⟨h1, h2, h3, h4, h5, fun _ hmem => by cases hmem⟩
    · simp only [List.forall_mem_cons]
      exact ⟨h6, h7, h8, fun _ hmem => by cases hmem⟩
    · simp only [List.forall_mem_cons]
      exact ⟨h9, h10, h11, h12, fun _ hmem => by cases hmem⟩
  · intro hkept
    obtain ⟨hmodels, hversions, hkind, hobjects, hexternal⟩ := hkept
    simp only [List.forall_mem_cons] at hmodels hversions hobjects
    obtain ⟨h1, h2, h3, h4, h5, _⟩ := hmodels
    obtain ⟨h6, h7, h8, _⟩ := hversions
    obtain ⟨h9, h10, h11, h12, _⟩ := hobjects
    exact ⟨h1, h2, h3, h4, h5, h6, h7, h8, h9, h10, h11, h12, hexternal, hkind⟩

/-- The identity of a snapshot that the store accepted survives exactly when it is unaltered. -/
theorem snapshot_identity_survives_iff {input : SnapshotInput}
    (hbuild : buildContentSnapshot rt.toSnapshotRuntime input = .ok s)
    (hdigest : rt.Distinguishes (Json.obj (snapshotIdentityPayload Value.shownFields s)).canonical)
    {snapshots snapshots' : SnapshotTable} (hsave : save rt snapshots s = .ok snapshots') {row : ContentSnapshotRow}
    (hrow : snapshots'.get s.contentSnapshotId = some row) (hread : rowToSnapshot rt row = .ok read) :
    IdentitySurvives rt read ↔ Unaltered rt.tables s := by
  have hbuilt := built rt.toSnapshotRuntime hbuild
  have hstored := save_stored hbuilt hsave hrow
  have hback := readBack hstored hread
  rw [identitySurvives_iff (rooted hbuilt hstored hback)]
  exact recomputed_iff hdigest hbuilt hback

end Identity

section Inputs

def plainTables : RedactionTables where
  isDecimal := Char.isDigit
  isSpace := fun c => c = ' ' || c = '\n'
  upper := fun c => [c.toUpper]
  letters := by
    intro c hc
    refine Bool.eq_false_iff.mpr fun hspace => ?_
    rcases Bool.or_eq_true _ _ ▸ hspace with h | h <;> rw [of_decide_eq_true h] at hc <;> cases hc
  isWord := fun c => c.isAlphanum || c = '_'
  lower := fun text => String.ofList (text.toList.map Char.toLower)
  urlsplit := fun text => .ok ⟨[], [], text.toList⟩

/-- A digest that tells one document from all others, for texts without addresses. -/
def plainRuntime (known : Json) : StoreRuntime where
  document := fun _ => "root"
  document_ne := fun _ => by decide
  short := fun v => if v = known then "known" else "other"
  str := fun | .str s => s | _ => ""
  str_text := fun _ => rfl
  defaultCodeSha := .ok "unknown"
  tables := plainTables
  jsonStr := fun _ => ""
  fromisoformat := fun _ => .ok 0
  checkArtifacts := fun _ => .ok ()
  checkMembers := fun _ => .ok ()

theorem plainRuntime_distinguishes (known : Json) : (plainRuntime known).Distinguishes known := by
  intro other h
  by_contra hne
  have hshort : (if other = known then "known" else "other") = if known = known then "known" else "other" := h
  rw [if_neg hne, if_pos rfl] at hshort
  exact absurd hshort (by decide)

def plainInput (configuration : List (String × Value)) : SnapshotInput :=
  { sourceType := "bilibili", sourceRef := "BV1", sourceContentHash := "hash", artifactIds := [("source", "source-1")]
    codeSha := some "sha", configuration := configuration, createdAt := 0 }

/-- What a snapshot is built from, whatever its id. -/
def plainIdentity (configuration : List (String × Value)) : Json :=
  match buildContentSnapshot (plainRuntime .null).toSnapshotRuntime (plainInput configuration) with
  | .ok s => (Json.obj (snapshotIdentityPayload Value.shownFields s)).canonical
  | .error _ => .null

/-- A snapshot that is saved in an empty table and read back. -/
def persisted (rt : StoreRuntime) (s : ContentSnapshot Value) : Except StoreError (ContentSnapshot Json) := do
  let snapshots ← save rt Table.empty s
  match snapshots.get s.contentSnapshotId with
  | some row => rowToSnapshot rt row
  | none => .error .notJson

theorem persisted_ok {rt : StoreRuntime} {s : ContentSnapshot Value} {read : ContentSnapshot Json}
    (h : persisted rt s = .ok read) : ∃ snapshots row, save rt Table.empty s = .ok snapshots ∧
      snapshots.get s.contentSnapshotId = some row ∧ rowToSnapshot rt row = .ok read := by
  obtain ⟨snapshots, hsave, h⟩ := bind_eq_ok.mp h
  cases hrow : snapshots.get s.contentSnapshotId with
  | some row =>
    rw [hrow] at h
    exact ⟨snapshots, row, hsave, hrow, h⟩
  | none =>
    rw [hrow] at h
    cases h

/-- Whether the identity of what is read back is computed again. -/
def recomputes (rt : StoreRuntime) (s : ContentSnapshot Value) : Option Bool :=
  (persisted rt s).toOption.map fun read => recomputedId rt read = read.contentSnapshotId

theorem recomputes_some {rt : StoreRuntime} {s : ContentSnapshot Value} {b : Bool} (h : recomputes rt s = some b) :
    ∃ snapshots row read, save rt Table.empty s = .ok snapshots ∧ snapshots.get s.contentSnapshotId = some row ∧
      rowToSnapshot rt row = .ok read ∧ decide (recomputedId rt read = read.contentSnapshotId) = b := by
  obtain ⟨read, hread, hb⟩ := Option.map_eq_some_iff.mp h
  obtain ⟨snapshots, row, hsave, hrow, hrow'⟩ := persisted_ok (toOption_eq_some.mp hread)
  exact ⟨snapshots, row, read, hsave, hrow, hrow', hb⟩

def tokenLimit : List (String × Value) := [("max_tokens", .int 4096)]

/-- The name of a limit is taken for that of a credential. The store accepts the snapshot, and no query is answered from
it. -/
theorem redacted_limit_is_stale : ∃ s snapshots row read,
    buildContentSnapshot (plainRuntime (plainIdentity tokenLimit)).toSnapshotRuntime (plainInput tokenLimit) = .ok s ∧
      save (plainRuntime (plainIdentity tokenLimit)) Table.empty s = .ok snapshots ∧
      snapshots.get s.contentSnapshotId = some row ∧
      rowToSnapshot (plainRuntime (plainIdentity tokenLimit)) row = .ok read ∧
      ¬ IdentitySurvives (plainRuntime (plainIdentity tokenLimit)) read := by
  cases hbuild : buildContentSnapshot (plainRuntime (plainIdentity tokenLimit)).toSnapshotRuntime (plainInput tokenLimit) with
  | error e => cases hbuild
  | ok s =>
    have hstale : recomputes (plainRuntime (plainIdentity tokenLimit)) s = some false := by
      rw [← Except.ok.inj hbuild]
      decide +kernel
    obtain ⟨snapshots, row, read, hsave, hrow, hread, hid⟩ := recomputes_some hstale
    exact ⟨s, snapshots, row, read, rfl, hsave, hrow, hread, fun h => of_decide_eq_false hid h.recomputed⟩

def language : List (String × Value) := [("language", .str "zh")]

theorem plain_kept {fields : List (String × Value)} (h : redactFields plainTables fields = .ok fields) :
    Kept plainTables (.obj fields) := by
  refine ⟨.obj fields, ?_, rfl⟩
  rw [redact, h]
  rfl

theorem plain_text_kept {text : String} (h : redactText plainTables text = .ok text) : Kept plainTables (.str text) := by
  refine ⟨.str text, ?_, rfl⟩
  rw [redact, h]
  rfl

theorem language_public : redactFields plainTables language = .ok language := by
  have hkey : isSensitive plainTables "language" = false := by decide
  have htext : redactText plainTables "zh" = .ok "zh" := by decide
  rw [language, redactFields, hkey, if_neg Bool.false_ne_true, redact, htext]
  rfl

/-- A configuration without credentials and addresses. -/
theorem language_survives : ∃ s snapshots row read,
    buildContentSnapshot (plainRuntime (plainIdentity language)).toSnapshotRuntime (plainInput language) = .ok s ∧
      save (plainRuntime (plainIdentity language)) Table.empty s = .ok snapshots ∧
      snapshots.get s.contentSnapshotId = some row ∧
      rowToSnapshot (plainRuntime (plainIdentity language)) row = .ok read ∧
      IdentitySurvives (plainRuntime (plainIdentity language)) read := by
  cases hbuild : buildContentSnapshot (plainRuntime (plainIdentity language)).toSnapshotRuntime (plainInput language) with
  | error e => cases hbuild
  | ok s =>
    have hs := Except.ok.inj hbuild
    have hsaved : (recomputes (plainRuntime (plainIdentity language)) s).isSome = true := by
      rw [← hs]
      decide +kernel
    have hknown : (Json.obj (snapshotIdentityPayload Value.shownFields s)).canonical = plainIdentity language := by
      rw [← hs]
      decide +kernel
    obtain ⟨b, hb⟩ := Option.isSome_iff_exists.mp hsaved
    obtain ⟨snapshots, row, read, hsave, hrow, hread, _⟩ := recomputes_some hb
    refine ⟨s, snapshots, row, read, rfl, hsave, hrow, hread, ?_⟩
    refine (snapshot_identity_survives_iff hbuild ?_ hsave hrow hread).mpr ?_
    · rw [hknown]
      exact plainRuntime_distinguishes _
    · rw [← hs]
      refine ⟨?_, ?_, by decide, ?_, [], rfl, rfl⟩
      · simp only [List.forall_mem_cons]
        exact ⟨⟨.null, rfl, rfl⟩, ⟨.null, rfl, rfl⟩, ⟨.null, rfl, rfl⟩, ⟨.null, rfl, rfl⟩, ⟨.null, rfl, rfl⟩,
          fun _ h => by cases h⟩
      · simp only [List.forall_mem_cons]
        exact ⟨⟨by decide, plain_text_kept (by decide)⟩, ⟨by decide, plain_text_kept (by decide)⟩,
          ⟨by decide, plain_text_kept (by decide)⟩, fun _ h => by cases h⟩
      · simp only [List.forall_mem_cons]
        exact ⟨plain_kept rfl, plain_kept rfl, plain_kept rfl, plain_kept language_public, fun _ h => by cases h⟩

end Inputs
end StockContent.Identity
