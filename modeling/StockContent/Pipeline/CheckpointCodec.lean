import StockContent.Ledger.Projector
import StockContent.Pipeline.Checkpoint
import StockContent.Storage.IsoReader
import StockContent.Storage.JsonObject

/-! Checkpoints as documents: how they are built, written and read back, and what their checksum seals. -/
namespace StockContent.Pipeline
open Storage

/-- A checkpoint with its clocks as they were given. -/
structure DatedCheckpoint where
  stage : String
  stageVersion : String := "1.0.0"
  inputArtifactIds : List String := []
  outputArtifactIds : List String := []
  outputHashes : List String := []
  inputHashes : List String := []
  publicMaterializationHash : String := ""
  modelIdentity : Option (List (String × String)) := none
  promptIdentity : Option (List (String × String)) := none
  workerId : Option String := none
  fencingToken : Option Int := none
  stateChecksum : String := ""
  startedAt : Option Datetime := none
  finishedAt : Option Datetime := none
  status : String := "SUCCEEDED"
  retryCount : Int := 0
  schemaVersion : String := "checkpoint.v2"
  error : Option String := none
  deriving DecidableEq

inductive CheckpointError where
  | valueError (message : String)
  | typeError (message : String)
  deriving DecidableEq

/-- What the language adds: `str` of what is no text, and the whole number a text names. -/
structure CheckpointRuntime where
  str : Json → String
  int : String → Option Int

namespace DatedCheckpoint
open CheckpointRecord

/-- The checkpoint with the instants of its clocks. -/
def toRecord (record : DatedCheckpoint) : CheckpointRecord where
  stage := record.stage
  stageVersion := record.stageVersion
  inputArtifactIds := record.inputArtifactIds
  outputArtifactIds := record.outputArtifactIds
  outputHashes := record.outputHashes
  inputHashes := record.inputHashes
  publicMaterializationHash := record.publicMaterializationHash
  modelIdentity := record.modelIdentity
  promptIdentity := record.promptIdentity
  workerId := record.workerId
  fencingToken := record.fencingToken
  stateChecksum := record.stateChecksum
  startedAt := record.startedAt.map Datetime.utc
  finishedAt := record.finishedAt.map Datetime.utc
  status := record.status
  retryCount := record.retryCount
  schemaVersion := record.schemaVersion
  error := record.error

def toDict (record : DatedCheckpoint) : Payload :=
  [("stage", .str record.stage), ("stage_version", .str record.stageVersion),
    ("input_artifact_ids", texts record.inputArtifactIds), ("output_artifact_ids", texts record.outputArtifactIds),
    ("output_hashes", texts record.outputHashes), ("input_hashes", texts record.inputHashes),
    ("public_materialization_hash", .str record.publicMaterializationHash),
    ("model_identity", orNull mapping record.modelIdentity), ("prompt_identity", orNull mapping record.promptIdentity),
    ("worker_id", orNull .str record.workerId), ("fencing_token", orNull .int record.fencingToken),
    ("state_checksum", .str record.stateChecksum),
    ("started_at", orNull (fun time => .str time.text) record.startedAt),
    ("finished_at", orNull (fun time => .str time.text) record.finishedAt),
    ("status", .str record.status), ("retry_count", .int record.retryCount), ("schema_version", .str record.schemaVersion),
    ("error", orNull .str record.error)]

section Read
variable (rt : CheckpointRuntime)

/-- `value or other`. -/
def counted (payload : Payload) (key : String) : Option Json := (Json.lookup payload key).filter Ledger.truthy

/-- `str(payload.get(key) or default)`. -/
def textOf (payload : Payload) (key default : String) : String := (counted payload key).elim default (Json.strOf rt.str)

/-- A value that is not null. -/
def present (payload : Payload) (key : String) : Option Json := (Json.lookup payload key).filter (· ≠ .null)

/-- An element that is no text does not fit the record: the language keeps it, here it is refused. -/
def textItem : Json → Except CheckpointError String
  | .str s => .ok s
  | _ => .error (.typeError "not a text")

/-- `tuple(payload.get(key) or ())`: the items of a list, the characters of a text, the keys of an object. -/
def tupleOf (payload : Payload) (key : String) : Except CheckpointError (List String) :=
  match counted payload key with
  | none => .ok []
  | some (.arr items) => items.mapM textItem
  | some (.str s) => .ok (s.toList.map String.singleton)
  | some (.obj fields) => .ok (fields.map Prod.fst)
  | some (.int _) => .error (.typeError "'int' object is not iterable")
  | some (.float _) => .error (.typeError "'float' object is not iterable")
  | some (.bool _) => .error (.typeError "'bool' object is not iterable")
  | some .null => .error (.typeError "'NoneType' object is not iterable")

/-- `int(value)`. -/
def intOf : Json → Except CheckpointError Int
  | .int n => .ok n
  | .bool b => .ok (if b then 1 else 0)
  | .float q => .ok (q.num.tdiv q.den)
  | .str s => (rt.int s).elim (.error (.valueError "invalid literal for int() with base 10")) .ok
  | .arr _ => .error (.typeError "int() argument must be a string or a number, not 'list'")
  | .obj _ => .error (.typeError "int() argument must be a string or a number, not 'dict'")
  | .null => .error (.typeError "int() argument must be a string or a number, not 'NoneType'")

/-- The entries of an identity in the order of their keys; one without entries is none. -/
def identityMapping (value : Option Json) : Except CheckpointError (Option (List (String × String))) :=
  match value.filter Ledger.truthy with
  | none => .ok none
  | some (.obj fields) => .ok (some ((Json.sortFields fields).map fun field => (field.1, Json.strOf rt.str field.2)))
  | some _ => .error (.valueError "checkpoint identity must be a mapping")

/-- A naive text is a time in UTC; what is no text is no time. -/
def parseTime : Option Json → Except CheckpointError (Option Datetime)
  | some (.str s) =>
    (Datetime.ofText s).elim (.error (.valueError "Invalid isoformat string")) fun time => .ok (some time.aware)
  | _ => .ok none

def errorOf : Option Json → Except CheckpointError (Option String)
  | none | some .null => .ok none
  | some value => (textItem value).map some

def fromDict (payload : Payload) : Except CheckpointError DatedCheckpoint := do
  let inputArtifactIds ← tupleOf payload "input_artifact_ids"
  let outputArtifactIds ← tupleOf payload "output_artifact_ids"
  let outputHashes ← tupleOf payload "output_hashes"
  let inputHashes ← tupleOf payload "input_hashes"
  let modelIdentity ← identityMapping rt (Json.lookup payload "model_identity")
  let promptIdentity ← identityMapping rt (Json.lookup payload "prompt_identity")
  let fencingToken ← ((present payload "fencing_token").map (intOf rt)).elim (.ok none) (·.map some)
  let startedAt ← parseTime (Json.lookup payload "started_at")
  let finishedAt ← parseTime (Json.lookup payload "finished_at")
  let retryCount ← (counted payload "retry_count").elim (.ok 0) (intOf rt)
  let error ← errorOf (Json.lookup payload "error")
  return { stage := textOf rt payload "stage" ""
           stageVersion := textOf rt payload "stage_version" "1.0.0"
           inputArtifactIds, outputArtifactIds, outputHashes, inputHashes
           publicMaterializationHash := textOf rt payload "public_materialization_hash" ""
           modelIdentity, promptIdentity
           workerId := (present payload "worker_id").map (Json.strOf rt.str)
           fencingToken
           stateChecksum := textOf rt payload "state_checksum" ""
           startedAt, finishedAt
           status := textOf rt payload "status" "SUCCEEDED"
           retryCount
           schemaVersion := textOf rt payload "schema_version" "checkpoint.v2"
           error }

end Read
end DatedCheckpoint

section Build
variable (rt : CheckpointRuntime) (digest : Json → String)

def checkpointStatuses : List String := ["SUCCEEDED", "FAILED", "SKIPPED"]

/-- What a checkpoint is built of. -/
structure CheckpointArguments where
  stage : String
  stageVersion : String := "1.0.0"
  inputArtifactIds : List String := []
  inputHashes : List String := []
  outputArtifacts : List Artifact := []
  publicMaterializationHash : String := ""
  modelIdentity : Option (Dict String String) := none
  promptIdentity : Option (Dict String String) := none
  workerId : Option String := none
  fencingToken : Option Int := none
  startedAt : Option Datetime := none
  finishedAt : Option Datetime := none
  status : String := "SUCCEEDED"
  retryCount : Int := 0
  error : Option String := none

/-- An identity as the caller has it. -/
def identityArgument (identity : Option (Dict String String)) : Option Json :=
  identity.map fun identity => CheckpointRecord.mapping identity.rows

/-- The checkpoint of the arguments, sealed with the checksum of its recovery facts. -/
def buildCheckpoint (now : Datetime) (arguments : CheckpointArguments) : Except CheckpointError DatedCheckpoint := do
  require (.valueError ("invalid checkpoint status: " ++ arguments.status))
    (checkpointStatuses.contains arguments.status)
  let modelIdentity ← DatedCheckpoint.identityMapping rt (identityArgument arguments.modelIdentity)
  let promptIdentity ← DatedCheckpoint.identityMapping rt (identityArgument arguments.promptIdentity)
  let record : DatedCheckpoint :=
    { stage := arguments.stage
      stageVersion := arguments.stageVersion
      inputArtifactIds := arguments.inputArtifactIds
      outputArtifactIds := arguments.outputArtifacts.map (·.artifactId)
      outputHashes := arguments.outputArtifacts.map (·.contentHash)
      inputHashes := arguments.inputHashes
      publicMaterializationHash := arguments.publicMaterializationHash
      modelIdentity, promptIdentity
      workerId := arguments.workerId
      fencingToken := arguments.fencingToken
      startedAt := arguments.startedAt
      finishedAt := some (arguments.finishedAt.getD now)
      status := arguments.status
      retryCount := arguments.retryCount
      error := arguments.error }
  return { record with stateChecksum := checkpointStateChecksum digest record.toRecord }

end Build

section Identities
variable {rt : CheckpointRuntime}

/-- An identity as a checkpoint keeps it: with entries, in the order of their keys. -/
def Ordered (identity : Option (List (String × String))) : Prop :=
  ∀ entries ∈ identity, entries ≠ [] ∧ (entries.map Prod.fst).Pairwise (· < ·)

theorem sortFields_ordered {entries : List (String × String)} (h : (entries.map Prod.fst).Pairwise (· < ·)) :
    Json.sortFields (entries.map fun entry => (entry.1, Json.str entry.2)) =
      entries.map fun entry => (entry.1, .str entry.2) := by
  refine List.Pairwise.insertionSort_eq ?_
  rw [List.pairwise_map] at h ⊢
  exact h.imp fun hlt => le_of_lt hlt

theorem canonical_mapping (entries : List (String × String)) : (CheckpointRecord.mapping entries).canonical =
    .obj (Json.sortFields (entries.map fun entry => (entry.1, .str entry.2))) := by
  rw [CheckpointRecord.mapping, Json.canonical_obj, List.map_map]
  rfl

theorem identityMapping_fields {fields : List (String × Json)} (h : fields ≠ []) :
    DatedCheckpoint.identityMapping rt (some (.obj fields)) =
      .ok (some ((Json.sortFields fields).map fun field => (field.1, Json.strOf rt.str field.2))) := by
  cases fields with
  | nil => exact absurd rfl h
  | cons field fields => rfl

/-- An identity is read back from its mapping, however the keys are ordered there. -/
theorem identityMapping_mapping {entries : List (String × String)} (hne : entries ≠ [])
    (hordered : (entries.map Prod.fst).Pairwise (· < ·)) {v : Json}
    (h : v.canonical = (CheckpointRecord.mapping entries).canonical) :
    DatedCheckpoint.identityMapping rt (some v) = .ok (some entries) := by
  obtain ⟨fields, rfl⟩ := Json.canonical_eq_obj h
  rw [canonical_mapping, sortFields_ordered hordered, Json.canonical_obj, Json.obj.injEq, Json.sortFields_map] at h
  have hfields : fields ≠ [] := by
    rintro rfl
    exact hne (List.map_eq_nil_iff.mp h.symm)
  rw [identityMapping_fields hfields, Except.ok.injEq, Option.some_inj]
  have htext (field : String × Json) (hfield : field ∈ Json.sortFields fields) :
      (field.1, Json.strOf rt.str field.2) = (field.1, Json.strOf rt.str field.2.canonical) := by
    have hmem := List.mem_map_of_mem (f := fun field : String × Json => (field.1, field.2.canonical)) hfield
    rw [h] at hmem
    obtain ⟨entry, -, hentry⟩ := List.mem_map.mp hmem
    rw [Json.canonical_eq_str (Prod.mk.inj hentry).2.symm]
    rfl
  calc (Json.sortFields fields).map (fun field => (field.1, Json.strOf rt.str field.2))
      = (Json.sortFields fields).map fun field => (field.1, Json.strOf rt.str field.2.canonical) :=
        List.map_congr_left htext
    _ = ((Json.sortFields fields).map fun field => (field.1, field.2.canonical)).map
          fun field => (field.1, Json.strOf rt.str field.2) := by rw [List.map_map]; rfl
    _ = (entries.map fun entry => (entry.1, Json.str entry.2)).map
          fun field => (field.1, Json.strOf rt.str field.2) := congrArg _ h
    _ = entries := by
      rw [List.map_map]
      exact List.map_id entries

/-- The identity a checkpoint is built with is ordered. -/
theorem identityMapping_ordered {identity : Option (Dict String String)} {read : Option (List (String × String))}
    (h : DatedCheckpoint.identityMapping rt (identityArgument identity) = .ok read) : Ordered read := by
  cases identity with
  | none =>
    cases h
    nofun
  | some identity =>
    by_cases hempty : identity.rows = []
    · rw [identityArgument, Option.map_some, CheckpointRecord.mapping, hempty] at h
      cases h
      nofun
    · rw [identityArgument, Option.map_some, CheckpointRecord.mapping, identityMapping_fields (by simpa using hempty)] at h
      cases h
      rintro entries ⟨⟩
      have hperm : (Json.sortFields (identity.rows.map fun entry => (entry.1, Json.str entry.2))).Perm
          (identity.rows.map fun entry => (entry.1, Json.str entry.2)) := List.perm_insertionSort _ _
      constructor
      · intro hnil
        rw [List.map_eq_nil_iff] at hnil
        rw [hnil] at hperm
        exact hempty (List.map_eq_nil_iff.mp hperm.nil_eq.symm)
      · have hkeys : ((Json.sortFields (identity.rows.map fun entry => (entry.1, Json.str entry.2))).map Prod.fst).Nodup := by
          rw [(hperm.map Prod.fst).nodup_iff, List.map_map]
          exact identity.unique
        have hsorted : ((Json.sortFields (identity.rows.map fun entry => (entry.1, Json.str entry.2))).map
            Prod.fst).Pairwise (· ≤ ·) := by
          have htrans := IsTrans.mk (r := fun a b : String × Json => a.1 ≤ b.1) fun _ _ _ => le_trans
          have htotal := Std.Total.mk (r := fun a b : String × Json => a.1 ≤ b.1) fun a b => le_total a.1 b.1
          exact List.pairwise_map.mpr (List.pairwise_insertionSort _ _)
        rw [List.map_map]
        exact hsorted.imp₂ (fun _ _ hle hne => lt_of_le_of_ne hle hne) hkeys

end Identities

section ReadBack
variable {rt : CheckpointRuntime} {digest : Json → String} {payload : Payload} {key : String}

theorem counted_of_lookup {v : Json} (h : Json.lookup payload key = some v) :
    DatedCheckpoint.counted payload key = if Ledger.truthy v then some v else none := by
  rw [DatedCheckpoint.counted, h, Option.filter_some]

theorem textOf_of_lookup {text default : String} (h : Json.lookup payload key = some (.str text))
    (hempty : text = "" → default = "") : DatedCheckpoint.textOf rt payload key default = text := by
  rw [DatedCheckpoint.textOf, counted_of_lookup h]
  by_cases ht : text = ""
  · rw [if_neg (by simp [Ledger.truthy, ht]), Option.elim_none, hempty ht, ht]
  · rw [if_pos (by simp [Ledger.truthy, ht])]
    rfl

theorem mapM_textItem (items : List String) :
    (items.map Json.str).mapM DatedCheckpoint.textItem = .ok items := by
  rw [mapM_eq_ok_iff, List.forall₂_map_left_iff]
  exact List.forall₂_same.mpr fun _ _ => rfl

theorem tupleOf_of_lookup {items : List String} (h : Json.lookup payload key = some (CheckpointRecord.texts items)) :
    DatedCheckpoint.tupleOf payload key = .ok items := by
  rw [DatedCheckpoint.tupleOf, counted_of_lookup h]
  cases items with
  | nil => rfl
  | cons item items => exact mapM_textItem (item :: items)

theorem parseTime_of_lookup {time : Option Datetime}
    (h : Json.lookup payload key = some (CheckpointRecord.orNull (fun time => .str time.text) time)) :
    DatedCheckpoint.parseTime (Json.lookup payload key) = .ok (time.map Datetime.aware) := by
  rw [h]
  cases time with
  | none => rfl
  | some time =>
    rw [CheckpointRecord.orNull, Option.elim_some, DatedCheckpoint.parseTime, Datetime.ofText_text]
    rfl

theorem identity_of_lookup {identity : Option (List (String × String))} (hordered : Ordered identity)
    (h : (Json.lookup payload key).map Json.canonical =
      some (CheckpointRecord.orNull CheckpointRecord.mapping identity).canonical) :
    DatedCheckpoint.identityMapping rt (Json.lookup payload key) = .ok identity := by
  obtain ⟨v, hv, hcanonical⟩ := Option.map_eq_some_iff.mp h
  rw [hv]
  cases identity with
  | none =>
    rw [Json.canonical_eq_null hcanonical]
    rfl
  | some entries => exact identityMapping_mapping (hordered entries rfl).1 (hordered entries rfl).2 hcanonical

/-- What a checkpoint has that was built. -/
structure Built (digest : Json → String) (record : DatedCheckpoint) : Prop where
  modelIdentity : Ordered record.modelIdentity
  promptIdentity : Ordered record.promptIdentity
  status : record.status ≠ ""
  schemaVersion : record.schemaVersion ≠ ""
  checksum : record.stateChecksum = checkpointStateChecksum digest record.toRecord

theorem buildCheckpoint_built {now : Datetime} {arguments : CheckpointArguments} {record : DatedCheckpoint}
    (h : buildCheckpoint rt digest now arguments = .ok record) :
    Built digest record ∧ record.stageVersion = arguments.stageVersion := by
  rw [buildCheckpoint, then_eq_ok, require_eq_ok, bind_eq_ok] at h
  obtain ⟨hstatus, modelIdentity, hmodel, h⟩ := h
  obtain ⟨promptIdentity, hprompt, h⟩ := bind_eq_ok.mp h
  cases h
  have hversion : "checkpoint.v2" ≠ "" := by decide
  refine ⟨⟨identityMapping_ordered hmodel, identityMapping_ordered hprompt, ?_, hversion, rfl⟩, rfl⟩
  intro hempty
  change arguments.status = "" at hempty
  rw [hempty] at hstatus
  revert hstatus
  decide

/-- A checkpoint with its naive clocks taken to be in UTC. -/
def DatedCheckpoint.aware (record : DatedCheckpoint) : DatedCheckpoint :=
  { record with
    startedAt := record.startedAt.map Datetime.aware
    finishedAt := record.finishedAt.map Datetime.aware }

/-- A document that has its canonical form alone. -/
def Plain (w : Json) : Prop := ∀ v : Json, v.canonical = w.canonical → v = w

theorem plain_str (text : String) : Plain (.str text) := fun _ => Json.canonical_eq_str

theorem plain_int (n : Int) : Plain (.int n) := fun _ => Json.canonical_eq_int

theorem plain_texts (items : List String) : Plain (CheckpointRecord.texts items) := by
  intro v h
  rw [CheckpointRecord.texts, Json.canonical_texts] at h
  exact Json.canonical_eq_texts h

theorem plain_orNull {A : Type} {f : A → Json} (h : ∀ a, Plain (f a)) (value : Option A) :
    Plain (CheckpointRecord.orNull f value) := by
  cases value with
  | none => exact fun _ => Json.canonical_eq_null
  | some a => exact h a

/-- A built checkpoint is read back from its document, in whatever order the keys were stored. -/
theorem fromDict_of_canonical {record : DatedCheckpoint} (hbuilt : Built digest record)
    (hversion : record.stageVersion ≠ "")
    (hpayload : (Json.obj payload).canonical = (Json.obj record.toDict).canonical) :
    DatedCheckpoint.fromDict rt payload = .ok record.aware := by
  have hcanonical (key : String) (w : Json) (h : Json.lookup record.toDict key = some w) :
      (Json.lookup payload key).map Json.canonical = some w.canonical := by
    rw [Json.lookup_of_canonical hpayload, h, Option.map_some]
  have hlookup (key : String) (w : Json) (hplain : Plain w) (h : Json.lookup record.toDict key = some w) :
      Json.lookup payload key = some w := by
    obtain ⟨v, hv, heq⟩ := Option.map_eq_some_iff.mp (hcanonical key w h)
    rw [hv, hplain v heq]
  have hstage : DatedCheckpoint.textOf rt payload "stage" "" = record.stage :=
    textOf_of_lookup (hlookup _ _ (plain_str _) rfl) fun _ => rfl
  have hstageVersion : DatedCheckpoint.textOf rt payload "stage_version" "1.0.0" = record.stageVersion :=
    textOf_of_lookup (hlookup _ _ (plain_str _) rfl) fun h => absurd h hversion
  have hmaterialization : DatedCheckpoint.textOf rt payload "public_materialization_hash" "" =
      record.publicMaterializationHash := textOf_of_lookup (hlookup _ _ (plain_str _) rfl) fun _ => rfl
  have hchecksum : DatedCheckpoint.textOf rt payload "state_checksum" "" = record.stateChecksum :=
    textOf_of_lookup (hlookup _ _ (plain_str _) rfl) fun _ => rfl
  have hstatus : DatedCheckpoint.textOf rt payload "status" "SUCCEEDED" = record.status :=
    textOf_of_lookup (hlookup _ _ (plain_str _) rfl) fun h => absurd h hbuilt.status
  have hschema : DatedCheckpoint.textOf rt payload "schema_version" "checkpoint.v2" = record.schemaVersion :=
    textOf_of_lookup (hlookup _ _ (plain_str _) rfl) fun h => absurd h hbuilt.schemaVersion
  have hinputs := tupleOf_of_lookup (hlookup "input_artifact_ids" _ (plain_texts record.inputArtifactIds) rfl)
  have houtputs := tupleOf_of_lookup (hlookup "output_artifact_ids" _ (plain_texts record.outputArtifactIds) rfl)
  have houtputHashes := tupleOf_of_lookup (hlookup "output_hashes" _ (plain_texts record.outputHashes) rfl)
  have hinputHashes := tupleOf_of_lookup (hlookup "input_hashes" _ (plain_texts record.inputHashes) rfl)
  have hmodel : DatedCheckpoint.identityMapping rt (Json.lookup payload "model_identity") = .ok record.modelIdentity :=
    identity_of_lookup hbuilt.modelIdentity (hcanonical "model_identity" _ rfl)
  have hprompt : DatedCheckpoint.identityMapping rt (Json.lookup payload "prompt_identity") = .ok record.promptIdentity :=
    identity_of_lookup hbuilt.promptIdentity (hcanonical "prompt_identity" _ rfl)
  have hworker : (DatedCheckpoint.present payload "worker_id").map (Json.strOf rt.str) = record.workerId := by
    rw [DatedCheckpoint.present, hlookup "worker_id" _ (plain_orNull plain_str record.workerId) rfl]
    cases record.workerId <;> rfl
  have hfencing : ((DatedCheckpoint.present payload "fencing_token").map (DatedCheckpoint.intOf rt)).elim (.ok none)
      (·.map some) = .ok record.fencingToken := by
    rw [DatedCheckpoint.present, hlookup "fencing_token" _ (plain_orNull plain_int record.fencingToken) rfl]
    cases record.fencingToken <;> rfl
  have hstarted := parseTime_of_lookup
    (hlookup "started_at" _ (plain_orNull (fun _ => plain_str _) record.startedAt) rfl)
  have hfinished := parseTime_of_lookup
    (hlookup "finished_at" _ (plain_orNull (fun _ => plain_str _) record.finishedAt) rfl)
  have hretry : (DatedCheckpoint.counted payload "retry_count").elim (.ok 0) (DatedCheckpoint.intOf rt) =
      .ok record.retryCount := by
    rw [counted_of_lookup (hlookup "retry_count" _ (plain_int record.retryCount) rfl)]
    by_cases hzero : record.retryCount = 0
    · rw [if_neg (by simp [Ledger.truthy, hzero]), hzero]
      rfl
    · rw [if_pos (by simp [Ledger.truthy, hzero])]
      rfl
  have herror : DatedCheckpoint.errorOf (Json.lookup payload "error") = .ok record.error := by
    rw [hlookup "error" _ (plain_orNull plain_str record.error) rfl]
    cases record.error <;> rfl
  rw [DatedCheckpoint.fromDict, hinputs, ok_bind, houtputs, ok_bind, houtputHashes, ok_bind, hinputHashes, ok_bind,
    hmodel, ok_bind, hprompt, ok_bind, hfencing, ok_bind, hstarted, ok_bind, hfinished, ok_bind, hretry, ok_bind,
    herror, ok_bind, hstage, hstageVersion, hmaterialization, hchecksum, hstatus, hschema, hworker]
  rfl

theorem map_aware_eq_self {time : Option Datetime} : time.map Datetime.aware = time ↔ ∀ t ∈ time, t.offset ≠ none := by
  cases time with
  | none => simp
  | some t => simp [Datetime.aware_eq_self]

/-- Only a naive clock is changed. -/
theorem DatedCheckpoint.aware_eq_self {record : DatedCheckpoint} : record.aware = record ↔
    (∀ t ∈ record.startedAt, t.offset ≠ none) ∧ ∀ t ∈ record.finishedAt, t.offset ≠ none := by
  rw [← map_aware_eq_self, ← map_aware_eq_self, aware]
  cases record
  simp

end ReadBack

section Seal
variable {rt : CheckpointRuntime} {digest : Json → String}

/-- The stored checksum is that of the recovery facts. -/
def CheckpointRecord.Sealed (digest : Json → String) (record : CheckpointRecord) : Prop :=
  record.stateChecksum = checkpointStateChecksum digest record

/-- The recovery facts that the checksum covers; an absent identity and one without entries say the same. -/
structure SameFacts (record other : CheckpointRecord) : Prop where
  stage : record.stage = other.stage
  stageVersion : record.stageVersion = other.stageVersion
  inputArtifactIds : record.inputArtifactIds = other.inputArtifactIds
  inputHashes : record.inputHashes = other.inputHashes
  outputArtifactIds : record.outputArtifactIds = other.outputArtifactIds
  outputHashes : record.outputHashes = other.outputHashes
  publicMaterializationHash : record.publicMaterializationHash = other.publicMaterializationHash
  modelIdentity : (record.modelIdentity.getD []).Perm (other.modelIdentity.getD [])
  promptIdentity : (record.promptIdentity.getD []).Perm (other.promptIdentity.getD [])
  status : record.status = other.status

theorem perm_of_mapping {entries others : List (String × String)}
    (h : (CheckpointRecord.mapping entries).canonical = (CheckpointRecord.mapping others).canonical) :
    entries.Perm others := by
  rw [canonical_mapping, canonical_mapping, Json.obj.injEq] at h
  have hsort (entries : List (String × String)) : (Json.sortFields (entries.map fun entry => (entry.1, .str entry.2))).Perm
      (entries.map fun entry => (entry.1, Json.str entry.2)) := List.perm_insertionSort _ _
  have hperm := (hsort entries).symm.trans ((List.Perm.of_eq h).trans (hsort others))
  have htexts := hperm.map fun field : String × Json => (field.1, Json.strOf (fun _ => "") field.2)
  rw [List.map_map, List.map_map] at htexts
  have hid (entries : List (String × String)) : entries.map ((fun field : String × Json =>
      (field.1, Json.strOf (fun _ => "") field.2)) ∘ fun entry => (entry.1, Json.str entry.2)) = entries :=
    List.map_id entries
  rwa [hid, hid] at htexts

/-- One document is sealed for one set of facts. -/
theorem sameFacts_of_canonical {record other : CheckpointRecord}
    (h : record.stateDocument.canonical = other.stateDocument.canonical) : SameFacts record other := by
  have hkeys : ["stage", "stage_version", "input_artifact_ids", "input_hashes", "output_artifact_ids", "output_hashes",
      "public_materialization_hash", "model_identity", "prompt_identity", "status"].Nodup := by decide
  rw [CheckpointRecord.stateDocument, CheckpointRecord.stateDocument, Json.canonical_obj_iff] at h
  · simp only [List.map_cons, List.map_nil, List.cons.injEq, CheckpointRecord.texts, Json.canonical_texts,
      Json.canonical_str, Json.str.injEq, and_true] at h
    obtain ⟨hstage, hversion, hinputs, hinputHashes, houtputs, houtputHashes, hmaterialization, hmodel, hprompt,
      hstatus⟩ := h
    exact ⟨hstage, hversion, Json.texts_injective hinputs, Json.texts_injective hinputHashes,
      Json.texts_injective houtputs, Json.texts_injective houtputHashes, hmaterialization, perm_of_mapping hmodel,
      perm_of_mapping hprompt, hstatus⟩
  · simp only [List.map_cons, List.map_nil]
  · exact hkeys

/-- No other document has the hash of the checkpoint's recovery facts. -/
def CheckpointRecord.Distinguished (digest : Json → String) (record : CheckpointRecord) : Prop :=
  ∀ document, digest document = digest record.stateDocument.canonical → document = record.stateDocument.canonical

/-- Other facts under the same checksum are not sealed by it. -/
theorem not_sealed_of_changed {record changed : CheckpointRecord} (hsealed : record.Sealed digest)
    (hdigest : record.Distinguished digest) (hchecksum : changed.stateChecksum = record.stateChecksum)
    (hchanged : ¬ SameFacts record changed) : ¬ changed.Sealed digest := by
  intro h
  refine hchanged (sameFacts_of_canonical (hdigest _ ?_).symm)
  rw [CheckpointRecord.Sealed, checkpointStateChecksum] at h hsealed
  rw [← h, hchecksum, hsealed]

/-- A checkpoint that its checksum does not seal is not resumed from. -/
theorem not_resumed_of_not_sealed {record : CheckpointRecord} (hsealed : ¬ record.Sealed digest)
    (hchecksum : record.stateChecksum ≠ "") (artifactsById : Dict String Artifact) (stageVersions : Dict String String) :
    validateResume digest artifactsById stageVersions [record] ≠ .ok [record.stage] := by
  intro h
  obtain ⟨hnames, hvalid⟩ := validateResume_ok.mp h
  have hleading : record ∈ leading [record] := by
    by_cases hstatus : record.status = "SUCCEEDED"
    · simp [leading, hstatus]
    · simp [leading, hstatus] at hnames
  have hrecord := hvalid record hleading
  rw [validateRecord, then_eq_ok, then_eq_ok, then_eq_ok, require_eq_ok] at hrecord
  obtain ⟨-, -, hsum, -⟩ := hrecord
  rcases Bool.or_eq_true_iff.mp hsum with hempty | hequal
  · exact hchecksum (of_decide_eq_true hempty)
  · have hsame : record.stateChecksum = checkpointStateChecksum digest record := of_decide_eq_true hequal
    exact hsealed hsame

/-- A built checkpoint that names its stage version is read back from its document with its naive clocks taken to be
in UTC, which leaves it as it is where it has none, and its checksum still seals it. A checkpoint with the same
checksum and other facts is not sealed, and is not resumed from. -/
theorem checkpoint_roundTrip (rt : CheckpointRuntime) (digest : Json → String) (now : Datetime)
    (arguments : CheckpointArguments) (record : DatedCheckpoint)
    (hbuild : buildCheckpoint rt digest now arguments = .ok record) :
    (arguments.stageVersion ≠ "" → ∀ payload, (Json.obj payload).canonical = (Json.obj record.toDict).canonical →
      DatedCheckpoint.fromDict rt payload = .ok record.aware ∧ record.aware.toRecord.Sealed digest) ∧
    (record.aware = record ↔
      (∀ t ∈ record.startedAt, t.offset ≠ none) ∧ ∀ t ∈ record.finishedAt, t.offset ≠ none) ∧
    (record.toRecord.Distinguished digest → ∀ changed : CheckpointRecord,
      changed.stateChecksum = record.stateChecksum → ¬ SameFacts record.toRecord changed →
        ¬ changed.Sealed digest ∧ (record.stateChecksum ≠ "" → ∀ artifactsById stageVersions,
          validateResume digest artifactsById stageVersions [changed] ≠ .ok [changed.stage])) := by
  obtain ⟨hbuilt, hversion⟩ := buildCheckpoint_built hbuild
  refine ⟨?_, DatedCheckpoint.aware_eq_self, ?_⟩
  · intro hnamed payload hpayload
    exact ⟨fromDict_of_canonical hbuilt (hversion ▸ hnamed) hpayload, hbuilt.checksum⟩
  · intro hdigest changed hchecksum hchanged
    have hseal : record.toRecord.Sealed digest := hbuilt.checksum
    have hsealed := not_sealed_of_changed hseal hdigest hchecksum hchanged
    exact ⟨hsealed, fun hne => not_resumed_of_not_sealed hsealed (hchecksum ▸ hne)⟩

def plainCheckpointRuntime : CheckpointRuntime where
  str := fun _ => "?"
  int := fun _ => none

def newYear (offset : Option Int) (h : ∀ o ∈ offset, o.natAbs < dayMicroseconds) : Datetime :=
  ⟨1767225600000000, offset, by decide, h⟩

def modelIdentity : Dict String String := ⟨[("revision", "3"), ("model", "asr")], by decide⟩

def sourceArguments (startedAt : Datetime) : CheckpointArguments where
  stage := "source"
  outputArtifacts := [⟨"artifact-1", "hash-1"⟩]
  modelIdentity := some modelIdentity
  startedAt := some startedAt

def sourceFacts : CheckpointRecord where
  stage := "source"
  outputArtifactIds := ["artifact-1"]
  outputHashes := ["hash-1"]
  modelIdentity := some [("model", "asr"), ("revision", "3")]

/-- A digest that tells the facts of the source stage from all others. -/
def sourceDigest (document : Json) : String :=
  if document = sourceFacts.stateDocument.canonical then "sealed" else "open"

def sourceCheckpoint (startedAt : Datetime) : DatedCheckpoint where
  stage := "source"
  outputArtifactIds := ["artifact-1"]
  outputHashes := ["hash-1"]
  modelIdentity := some [("model", "asr"), ("revision", "3")]
  stateChecksum := checkpointStateChecksum sourceDigest sourceFacts
  startedAt := some startedAt
  finishedAt := some (newYear (some 0) (by decide))

theorem source_built (startedAt : Datetime) : buildCheckpoint plainCheckpointRuntime sourceDigest
    (newYear (some 0) (by decide)) (sourceArguments startedAt) = .ok (sourceCheckpoint startedAt) := rfl

theorem source_sealed : checkpointStateChecksum sourceDigest sourceFacts = "sealed" := by
  rw [checkpointStateChecksum, sourceDigest, if_pos rfl]

theorem source_distinguished (startedAt : Datetime) :
    (sourceCheckpoint startedAt).toRecord.Distinguished sourceDigest := by
  intro document h
  change sourceDigest document = checkpointStateChecksum sourceDigest sourceFacts at h
  rw [source_sealed, sourceDigest] at h
  split at h
  case isTrue hsame => exact hsame
  case isFalse => exact absurd h (by decide)

/-- A checkpoint that starts at eight o'clock in Shanghai is read back; under another stage it is not resumed from. -/
theorem source_roundTrip :
    DatedCheckpoint.fromDict plainCheckpointRuntime (sourceCheckpoint (newYear (some 28800000000) (by decide))).toDict =
      .ok (sourceCheckpoint (newYear (some 28800000000) (by decide))) ∧
    validateResume sourceDigest Table.empty Table.empty
      [{ (sourceCheckpoint (newYear (some 0) (by decide))).toRecord with stage := "knowledge" }] ≠ .ok ["knowledge"] := by
  have h := checkpoint_roundTrip _ _ _ _ _ (source_built (newYear (some 28800000000) (by decide)))
  have haware := h.2.1.mpr ⟨by rintro t ⟨⟩; decide, by rintro t ⟨⟩; decide⟩
  have hchanged : ¬ SameFacts (sourceCheckpoint (newYear (some 28800000000) (by decide))).toRecord
      { (sourceCheckpoint (newYear (some 0) (by decide))).toRecord with stage := "knowledge" } := by
    intro hsame
    exact absurd hsame.stage (by decide)
  have htampered := h.2.2 (source_distinguished _) _ rfl hchanged
  rw [(h.1 (by decide) _ rfl).1, haware]
  have hchecksum : (sourceCheckpoint (newYear (some 28800000000) (by decide))).stateChecksum ≠ "" := by
    rw [sourceCheckpoint, source_sealed]
    decide
  exact ⟨rfl, htampered.2 hchecksum _ _⟩

/-- A naive start is read back as one in UTC. -/
theorem naive_start_changed : ¬ ∀ (arguments : CheckpointArguments) (record : DatedCheckpoint),
    buildCheckpoint plainCheckpointRuntime sourceDigest (newYear (some 0) (by decide)) arguments = .ok record →
      DatedCheckpoint.fromDict plainCheckpointRuntime record.toDict = .ok record := by
  intro h
  have hbuild := source_built (newYear none nofun)
  have hread := h _ _ hbuild
  have haware : DatedCheckpoint.fromDict plainCheckpointRuntime _ = .ok _ :=
    fromDict_of_canonical (buildCheckpoint_built hbuild).1 (by decide) rfl
  have hstart := congrArg DatedCheckpoint.startedAt (Except.ok.inj (haware.symm.trans hread))
  revert hstart
  decide

end Seal
end StockContent.Pipeline
