import StockContent.Identity.SnapshotStore

/-! What a row keeps of the snapshot that was saved: its columns, and its fields as the redaction leaves them. -/
namespace StockContent.Identity
open Storage

section Lookup

theorem Json.mem_of_lookup {fields : List (String × Json)} {key : String} {v : Json}
    (h : Json.lookup fields key = some v) : (key, v) ∈ fields := by
  obtain ⟨f, hf, rfl⟩ := Option.map_eq_some_iff.mp h
  have hkey := List.find?_some hf
  rw [← of_decide_eq_true hkey]
  exact List.mem_of_find?_eq_some hf

theorem Json.lookup_filter_ne (fields : List (String × Json)) {key other : String} (h : key ≠ other) :
    Json.lookup (fields.filter (·.1 ≠ other)) key = Json.lookup fields key := by
  induction fields with
  | nil => rfl
  | cons f fields ih =>
    obtain ⟨k, v⟩ := f
    rw [List.filter_cons, Json.lookup_cons]
    split
    · rw [Json.lookup_cons, ih]
    · rename_i hk
      have hk : k = other := by simpa using hk
      have hne : k ≠ key := fun hkey => h (hkey.symm.trans hk)
      rw [ih, if_neg hne]

theorem Value.shownFields_eq_map (fields : List (String × Value)) :
    Value.shownFields fields = fields.map fun f => (f.1, f.2.shown) := by
  induction fields with
  | nil => rfl
  | cons f fields ih => rw [Value.shownFields, ih, List.map_cons]

theorem Value.shownItems_eq_map (items : List Value) : Value.shownItems items = items.map Value.shown := by
  induction items with
  | nil => rfl
  | cons v items ih => rw [Value.shownItems, ih, List.map_cons]

end Lookup

section Redacted
variable (tables : RedactionTables)

def redactOption : Option String → Except RedactionError (Option String)
  | none => .ok none
  | some s => (redactText tables s).map some

theorem redact_text (text : Option String) : redact tables (.text text) = (redactOption tables text).map .text := by
  cases text with
  | none => rfl
  | some s =>
    rw [Value.text, redact, redactOption]
    cases redactText tables s <;> rfl

theorem redact_texts (texts : List String) :
    redact tables (.texts texts) = (texts.mapM (redactText tables)).map .texts := by
  have hitems : redactItems tables (texts.map .str) = (texts.mapM (redactText tables)).map (List.map .str) := by
    induction texts with
    | nil => rfl
    | cons s texts ih =>
      rw [List.map_cons, redactItems, redact, ih, List.mapM_cons]
      cases redactText tables s with
      | error e => rfl
      | ok kept => cases texts.mapM (redactText tables) <;> rfl
  rw [Value.texts, redact, hitems]
  cases texts.mapM (redactText tables) <;> rfl

variable {tables}

/-- Fields whose keys are public keep them. -/
theorem redactFields_kept {fields kept : List (String × Value)} (h : redactFields tables fields = .ok kept)
    (hpublic : ∀ f ∈ fields, isSensitive tables f.1 = false) :
    List.Forall₂ (fun f g => g.1 = f.1 ∧ redact tables f.2 = .ok g.2) fields kept := by
  induction fields generalizing kept with
  | nil =>
    cases h
    exact .nil
  | cons f fields ih =>
    obtain ⟨hfirst, hpublic⟩ := List.forall_mem_cons.mp hpublic
    rw [redactFields, hfirst, if_neg Bool.false_ne_true] at h
    obtain ⟨v, hv, h⟩ := bind_eq_ok.mp h
    obtain ⟨rest, hrest, h⟩ := bind_eq_ok.mp h
    cases h
    exact .cons ⟨rfl, hv⟩ (ih hrest hpublic)

theorem lookup_kept {fields kept : List (String × Value)}
    (h : List.Forall₂ (fun f g => g.1 = f.1 ∧ redact tables f.2 = .ok g.2) fields kept)
    (hnodup : (fields.map Prod.fst).Nodup) {key : String} {v : Value} (hmem : (key, v) ∈ fields) :
    ∃ w, redact tables v = .ok w ∧ Json.lookup (Value.shownFields kept) key = some w.shown := by
  induction h with
  | nil => cases hmem
  | @cons f g fields kept hfg _ ih =>
    obtain ⟨hfresh, hnodup⟩ := List.nodup_cons.mp hnodup
    obtain ⟨hkey, hredact⟩ := hfg
    obtain ⟨k, w⟩ := g
    rw [Value.shownFields, Json.lookup_cons]
    rcases List.mem_cons.mp hmem with rfl | hmem
    · exact ⟨w, hredact, if_pos hkey⟩
    · rw [if_neg]
      · exact ih hnodup hmem
      · intro hk
        refine hfresh ?_
        rw [← hkey, show k = key from hk]
        exact List.mem_map.mpr ⟨(key, v), hmem, rfl⟩

end Redacted

section Names
variable (s : ContentSnapshot Value)

def snapshotFieldNames : List String :=
  ["content_snapshot_id", "source_type", "source_ref", "source_content_hash", "source_artifact_id",
    "artifact_root_hash", "parser_version", "asr_model", "asr_model_version", "vision_model", "llm_model",
    "prompt_bundle_version", "entity_alias_version", "verification_policy_version", "quant_market_snapshot_ids",
    "code_sha", "config_hash", "pipeline_version", "schema_version", "artifact_ids", "snapshot_kind",
    "parent_snapshot_id", "supersedes_snapshot_id", "producer_manifest", "model_versions", "prompt_versions",
    "configuration", "external_snapshots", "policy_versions"]

theorem toFields_names : (toFields s).map Prod.fst = snapshotFieldNames := rfl

/-- No field of a snapshot is named like a credential. -/
theorem toFields_public (tables : RedactionTables) : ∀ f ∈ toFields s, isSensitive tables f.1 = false := by
  have hall : snapshotFieldNames.all (fun key => (sensitiveKey.findAll key).isEmpty) = true := by decide
  intro f hf
  have hname : f.1 ∈ snapshotFieldNames := toFields_names s ▸ List.mem_map_of_mem hf
  rw [isSensitive, List.all_eq_true.mp hall f.1 hname]
  exact Bool.and_false _

theorem toFields_nodup : ((toFields s).map Prod.fst).Nodup := by
  rw [toFields_names]
  decide

theorem requiredFields_names {key : String} (h : key ∈ snapshotFieldNames) :
    key ∈ coreIdentityFields ++ additiveIdentityFields := by
  have hall : snapshotFieldNames.all (coreIdentityFields ++ additiveIdentityFields).contains = true := by decide
  exact List.contains_iff_mem.mp (List.all_eq_true.mp hall key h)

theorem candidate_names {field : String × Json} (h : field ∈ (candidateValues s).fields) :
    field.1 ∈ snapshotFieldNames := by
  have hall : ((candidateValues s).fields.map Prod.fst).all snapshotFieldNames.contains = true := rfl
  exact List.contains_iff_mem.mp (List.all_eq_true.mp hall field.1 (List.mem_map_of_mem h))

end Names

section Validated
variable {rt : StoreRuntime} {identity : List (String × Json)} {values : RedundantValues} {snapshotId : String}

/-- What a document and its columns have to agree on. -/
structure Agrees (rt : StoreRuntime) (identity : List (String × Json)) (values : RedundantValues) : Prop where
  schema : Json.lookup identity "schema_version" = some (.str values.schemaVersion)
  required : values.schemaVersion = v2SchemaVersion →
    ∀ key ∈ coreIdentityFields ++ additiveIdentityFields, ∃ v, Json.lookup identity key = some v
  fields : ∀ field ∈ values.fields, ∀ v, Json.lookup identity field.1 = some v → v.canonical = field.2.canonical
  root : values.artifactRootHash.getD "" = "" ∨
    values.artifactRootHash.getD "" = computeArtifactRootHash rt.toSnapshotRuntime values.artifactIds

theorem validateRequired_ok {schemaVersion : String} (h : validateRequired identity schemaVersion snapshotId = .ok ())
    (hschema : schemaVersion = v2SchemaVersion) :
    ∀ key ∈ coreIdentityFields ++ additiveIdentityFields, ∃ v, Json.lookup identity key = some v := by
  have hrequired : requiredFields v2SchemaVersion = some (coreIdentityFields ++ additiveIdentityFields) := by decide
  rw [validateRequired, hschema, hrequired] at h
  have hmissing := List.isEmpty_iff.mp (require_eq_ok.mp h)
  intro key hkey
  cases hlookup : Json.lookup identity key with
  | some v => exact ⟨v, rfl⟩
  | none =>
    have hmem : key ∈ missingFields (coreIdentityFields ++ additiveIdentityFields) identity := by
      rw [missingFields, List.mem_filter, hlookup]
      exact ⟨hkey, rfl⟩
    rw [hmissing] at hmem
    cases hmem

theorem validate_agrees
    (h : validateIdentityAgainstValues rt.toSnapshotRuntime rt.jsonStr identity values snapshotId = .ok ()) :
    Agrees rt identity values := by
  rw [validateIdentityAgainstValues] at h
  obtain ⟨_, hschema, h⟩ := bind_eq_ok.mp h
  obtain ⟨_, hrequired, h⟩ := bind_eq_ok.mp h
  obtain ⟨_, _, h⟩ := bind_eq_ok.mp h
  obtain ⟨_, hfields, h⟩ := bind_eq_ok.mp h
  obtain ⟨_, _, h⟩ := bind_eq_ok.mp h
  obtain ⟨_, hroot, _⟩ := bind_eq_ok.mp h
  refine ⟨of_decide_eq_true (require_eq_ok.mp hschema), validateRequired_ok hrequired, ?_, ?_⟩
  · intro field hfield v hlookup
    have hagrees := require_eq_ok.mp (forM_eq_ok.mp hfields field hfield)
    rw [agreesWith, hlookup] at hagrees
    exact of_decide_eq_true hagrees
  · rcases Bool.or_eq_true _ _ ▸ require_eq_ok.mp hroot with hempty | hequal
    · exact .inl (of_decide_eq_true hempty)
    · exact .inr (of_decide_eq_true hequal)

end Validated

theorem map_eq_of_zip {A B : Type} {f : A → B} {xs ys : List A} (hlength : xs.length = ys.length)
    (h : ∀ pair ∈ xs.zip ys, f pair.1 = f pair.2) : xs.map f = ys.map f := by
  induction xs generalizing ys with
  | nil => rw [List.length_eq_zero_iff.mp hlength.symm]
  | cons x xs ih =>
    cases ys with
    | nil => cases hlength
    | cons y ys =>
      obtain ⟨hfirst, hrest⟩ := List.forall_mem_cons.mp h
      rw [List.map_cons, List.map_cons, ih (Nat.succ.inj hlength) hrest, hfirst]

section Saved
variable {rt : StoreRuntime} {s : ContentSnapshot Value} {row existing : ContentSnapshotRow}

/-- A row that stands for a snapshot: each field is in its document as the redaction leaves it, and the columns are those
of the snapshot. -/
structure Stored (rt : StoreRuntime) (s : ContentSnapshot Value) (row : ContentSnapshotRow) : Prop where
  id : row.contentSnapshotId = s.contentSnapshotId
  field : ∀ key v, (key, v) ∈ toFields s → ∃ w kept, redact rt.tables v = .ok w ∧
    Json.lookup row.identity key = some kept ∧ kept.canonical = w.shown.canonical
  column : row.fields.map (·.2.canonical) = (candidateValues s).fields.map (·.2.canonical)
  agrees : Agrees rt row.identity row.toRedundantValues

theorem candidate_fields {payload : List (String × Value)} (h : validateSnapshotCandidate rt s = .ok payload) :
    Agrees rt (Value.shownFields payload) (candidateValues s) ∧ ∀ key v, (key, v) ∈ toFields s →
      ∃ w, redact rt.tables v = .ok w ∧ Json.lookup (Value.shownFields payload) key = some w.shown := by
  obtain ⟨fields, hfields, h⟩ := bind_eq_ok.mp h
  obtain ⟨_, hvalid, h⟩ := bind_eq_ok.mp h
  cases h
  refine ⟨validate_agrees hvalid, fun key v hmem => ?_⟩
  rw [mapError_eq_ok, toDict] at hfields
  cases hredact : redactFields rt.tables (toFields s) with
  | error e =>
    rw [hredact] at hfields
    cases hfields
  | ok kept =>
    rw [hredact] at hfields
    cases hfields
    obtain ⟨w, hw, hlookup⟩ :=
      lookup_kept (redactFields_kept hredact (toFields_public s rt.tables)) (toFields_nodup s) hmem
    refine ⟨w, hw, ?_⟩
    rw [Value.shownFields_eq_map, List.map_append, Json.lookup_append, ← Value.shownFields_eq_map, hlookup]
    rfl

/-- The snapshot was there: what was kept of it agrees with all that would be kept now. -/
theorem existing_stored {candidate : List (String × Json)} (hschema : s.schemaVersion = v2SchemaVersion)
    (hcandidate : Agrees rt candidate (candidateValues s))
    (hfields : ∀ key v, (key, v) ∈ toFields s → ∃ w, redact rt.tables v = .ok w ∧ Json.lookup candidate key = some w.shown)
    (hid : existing.contentSnapshotId = s.contentSnapshotId) (hvalid : validateSnapshotRow rt existing = .ok ())
    (hidentity : compareExistingIdentity existing.identity candidate s.contentSnapshotId = .ok ())
    (hcolumns : compareCandidateToExistingRow s existing = .ok ()) : Stored rt s existing := by
  obtain ⟨_, hvalid, _⟩ := bind_eq_ok.mp hvalid
  have hagrees := validate_agrees hvalid
  -- A field that was kept is compared unless it is the time.
  have hcompared (key : String) (hkey : key ≠ "created_at") (v : Json) (hlookup : Json.lookup existing.identity key = some v)
      (other : Json) (hother : Json.lookup candidate key = some other) : v.canonical = other.canonical := by
    have hmem : (key, v) ∈ existing.identity.filter (·.1 ≠ "created_at") :=
      List.mem_filter.mpr ⟨Json.mem_of_lookup hlookup, decide_eq_true hkey⟩
    have h := require_eq_ok.mp (forM_eq_ok.mp hidentity (key, v) hmem)
    rw [Json.lookup_filter_ne candidate hkey, hother] at h
    exact of_decide_eq_true h
  have hversion : existing.schemaVersion = v2SchemaVersion := by
    have h := hcompared "schema_version" (by decide) _ hagrees.schema _ hcandidate.schema
    rw [← hschema]
    exact Json.str.inj h
  have hpresent (key : String) (hkey : key ∈ snapshotFieldNames) :
      ∃ v, Json.lookup existing.identity key = some v :=
    hagrees.required hversion key (requiredFields_names hkey)
  refine ⟨hid, fun key v hmem => ?_, ?_, hagrees⟩
  · have hkey : key ∈ snapshotFieldNames := toFields_names s ▸ List.mem_map_of_mem hmem
    obtain ⟨w, hw, hlookup⟩ := hfields key v hmem
    obtain ⟨kept, hkept⟩ := hpresent key hkey
    have hcreated : key ≠ "created_at" := by
      rintro rfl
      exact absurd hkey (by decide)
    exact ⟨w, kept, hw, hkept, hcompared key hcreated kept hkept _ hlookup⟩
  · have hpairs : ∀ pair ∈ (candidateValues s).fields.zip existing.fields, pair.1.2.canonical = pair.2.2.canonical := by
      intro pair hpair
      have h := forM_eq_ok.mp hcolumns pair hpair
      obtain ⟨v, hv⟩ := hpresent pair.1.1 (candidate_names s (List.of_mem_zip hpair).1)
      rw [hv] at h
      exact of_decide_eq_true (require_eq_ok.mp h)
    have hlength : (candidateValues s).fields.length = existing.fields.length := rfl
    exact (map_eq_of_zip hlength hpairs).symm

/-- A snapshot that was not there is kept as it is. -/
theorem inserted_stored {candidate manifest : List (String × Json)} (hcandidate : Agrees rt candidate (candidateValues s))
    (hfields : ∀ key v, (key, v) ∈ toFields s → ∃ w, redact rt.tables v = .ok w ∧ Json.lookup candidate key = some w.shown)
    (hmanifest : Value.shownFields s.producerManifest = manifest) : Stored rt s (snapshotRow s candidate manifest) := by
  subst hmanifest
  refine ⟨rfl, fun key v hmem => ?_, rfl, hcandidate⟩
  obtain ⟨w, hw, hlookup⟩ := hfields key v hmem
  exact ⟨w, w.shown, hw, hlookup, rfl⟩

theorem columns_ok {fields : List (String × Value)} {kept : List (String × Json)} (h : columns fields = .ok kept) :
    Value.shownFields fields = kept := by
  rw [columns] at h
  split at h
  · rename_i hkept
    cases h
    exact Value.columnFields_shown hkept
  · cases h

/-- Whatever was in the table, a snapshot that is accepted has a row that stands for it. -/
theorem save_stored {snapshots snapshots' : SnapshotTable} (hbuilt : Built rt.toSnapshotRuntime s)
    (hsave : save rt snapshots s = .ok snapshots') (hrow : snapshots'.get s.contentSnapshotId = some row) :
    Stored rt s row := by
  obtain ⟨payload, hpayload, h⟩ := bind_eq_ok.mp hsave
  obtain ⟨_, _, h⟩ := bind_eq_ok.mp h
  obtain ⟨identity, hidentity, h⟩ := bind_eq_ok.mp h
  obtain ⟨manifest, hmanifest, h⟩ := bind_eq_ok.mp h
  obtain ⟨hagrees, hfields⟩ := candidate_fields hpayload
  rw [columns_ok hidentity] at hagrees hfields
  rw [saveRow] at h
  cases hget : snapshots.get s.contentSnapshotId with
  | some existing =>
    rw [hget] at h
    obtain ⟨_, hvalid, h⟩ := bind_eq_ok.mp h
    obtain ⟨_, hcompare, h⟩ := bind_eq_ok.mp h
    obtain ⟨_, hcolumns, h⟩ := bind_eq_ok.mp h
    cases h
    cases hget.symm.trans hrow
    exact existing_stored hbuilt.schema hagrees hfields (Table.get_key hget) hvalid hcompare hcolumns
  | none =>
    rw [hget] at h
    obtain ⟨_, _, h⟩ := bind_eq_ok.mp h
    cases h
    rw [Table.get_insert_getD, hget] at hrow
    have hid : (snapshotRow s identity manifest).contentSnapshotId = s.contentSnapshotId := rfl
    rw [Option.none_or, if_pos hid] at hrow
    cases hrow
    exact inserted_stored hagrees hfields (columns_ok hmanifest)

end Saved
end StockContent.Identity
