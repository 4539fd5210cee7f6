import StockContent.Storage.Clock
import StockContent.Storage.Json
import StockContent.Storage.Machine
import StockContent.Storage.Table

/-! The repository of knowledge bundles: immutable bundles, and the retry keys that are
bound to one of them. -/
namespace StockContent.Bundle
open Storage

structure ContentKnowledgeBundleRow where
  bundleId : String
  bundleHash : String
  contentSnapshotId : String
  requestHash : String
  contractVersion : String
  payload : List (String × Json)
  producerGitCommit : String
  pipelineVersion : String
  createdAt : Time
  deriving DecidableEq

structure ContentKnowledgeBundleIdempotencyRow where
  idempotencyKeyHash : String
  idempotencyRequestHash : String
  bundleId : String
  createdAt : Time
  deriving DecidableEq

abbrev KnowledgeBundleTable := Table ContentKnowledgeBundleRow.bundleId
abbrev IdempotencyTable := Table ContentKnowledgeBundleIdempotencyRow.idempotencyKeyHash

inductive BundleStoreError where
  | idempotencyConflict
  | valueError (message : String)
  | keyError (key : String)
  /-- A value that a text column does not take. -/
  | dataError (key : String)
  | integrityError
  deriving DecidableEq

structure BundleDb where
  bundles : KnowledgeBundleTable
  mappings : IdempotencyTable

abbrev BundlePayload := List (String × Json)

def textColumn (fields : BundlePayload) (key : String) : Except BundleStoreError String :=
  match Json.lookup fields key with
  | none => .error (.keyError key)
  | some (.str text) => .ok text
  | some _ => .error (.dataError key)

def producerOf (bundle : BundlePayload) : Except BundleStoreError BundlePayload :=
  match Json.lookup bundle "producer" with
  | none => .error (.keyError "producer")
  | some (.obj fields) => .ok fields
  | some _ => .error (.dataError "producer")

def bundleValues (bundle : BundlePayload) (now : Time) : Except BundleStoreError ContentKnowledgeBundleRow := do
  let bundleId ← textColumn bundle "bundle_id"
  let bundleHash ← textColumn bundle "bundle_hash"
  let contentSnapshotId ← textColumn bundle "content_snapshot_id"
  let requestHash ← textColumn bundle "request_hash"
  let contractVersion ← textColumn bundle "contract"
  let producer ← producerOf bundle
  let producerGitCommit ← textColumn producer "git_commit"
  let pipelineVersion ← textColumn producer "pipeline_version"
  return ⟨bundleId, bundleHash, contentSnapshotId, requestHash, contractVersion, bundle, producerGitCommit,
    pipelineVersion, now⟩

/-- The id or the hash of a bundle is the other's. -/
def sharesKey (row other : ContentKnowledgeBundleRow) : Bool :=
  other.bundleId == row.bundleId || other.bundleHash == row.bundleHash

/-- `ON CONFLICT DO NOTHING` on the id and on the hash. -/
def insertIgnoreConflict (row : ContentKnowledgeBundleRow) (bundles : KnowledgeBundleTable) : Option KnowledgeBundleTable :=
  if bundles.rows.any (·.bundleHash = row.bundleHash) then none else bundles.insert row

def insertOrGetImmutable (bundle : BundlePayload) (now : Time) (bundles : KnowledgeBundleTable) :
    Except BundleStoreError (KnowledgeBundleTable × BundlePayload) := do
  let row ← bundleValues bundle now
  match insertIgnoreConflict row bundles with
  | some inserted => return (inserted, bundle)
  | none =>
    match bundles.rows.find? (sharesKey row) with
    | none => .error (.valueError "bundle insert conflict without immutable row")
    | some stored =>
      if stored.bundleHash ≠ row.bundleHash ∨ (Json.obj stored.payload).same (.obj bundle) = false then
        .error (.valueError "immutable bundle id collision")
      else return (bundles, stored.payload)

section Idempotent
variable (digest : Json → String)

def idempotencyKeyHash (key : String) : String :=
  "sha256:" ++ digest (Json.obj [("endpoint", .str "content-knowledge-bundle"), ("idempotency_key", .str key)]).canonical

def resolveIdempotent (mapping : ContentKnowledgeBundleIdempotencyRow) (requestHash : String)
    (bundles : KnowledgeBundleTable) :
    Except BundleStoreError BundlePayload :=
  if mapping.idempotencyRequestHash ≠ requestHash then .error .idempotencyConflict
  else match bundles.get mapping.bundleId with
    | none => .error (.valueError "idempotency mapping references missing bundle")
    | some row => .ok row.payload

/-- The mapping of a key, which refers to a stored bundle. -/
def insertMapping (mapping : ContentKnowledgeBundleIdempotencyRow) (db : BundleDb) : Option BundleDb :=
  if (db.bundles.get mapping.bundleId).isNone then none
  else (db.mappings.insert mapping).map fun mappings => { db with mappings }

def bindKey (keyHash requestHash : String) (bundle : BundlePayload) (now : Time) (db : BundleDb) :
    Except BundleStoreError (BundleDb × BundlePayload) := do
  let (bundles, result) ← insertOrGetImmutable bundle now db.bundles
  let bundleId ← textColumn result "bundle_id"
  match insertMapping ⟨keyHash, requestHash, bundleId, now⟩ { db with bundles } with
  | some bound => return (bound, result)
  | none =>
    match db.mappings.get keyHash with
    | none => .error .integrityError
    | some existing => (resolveIdempotent existing requestHash bundles).map fun payload => ({ db with bundles }, payload)

def insertIdempotent (bundle : BundlePayload) (key requestHash : String) (now : Time) (db : BundleDb) :
    Except BundleStoreError (BundleDb × BundlePayload) :=
  match db.mappings.get (idempotencyKeyHash digest key) with
  | some existing => (resolveIdempotent existing requestHash db.bundles).map fun payload => (db, payload)
  | none => bindKey (idempotencyKeyHash digest key) requestHash bundle now db

/-- A call of `insert`. -/
structure BundleCall where
  bundle : BundlePayload
  idempotencyKey : Option String := none
  idempotencyRequestHash : Option String := none
  now : Time := 0

def insertBundle (call : BundleCall) (db : BundleDb) : Except BundleStoreError (BundleDb × BundlePayload) :=
  match call.idempotencyKey with
  | none =>
    (insertOrGetImmutable call.bundle call.now db.bundles).map fun result => ({ db with bundles := result.1 }, result.2)
  | some key =>
    let requestHash := call.idempotencyRequestHash.getD ""
    if requestHash = "" then .error (.valueError "idempotency request hash is required")
    else insertIdempotent digest call.bundle key requestHash call.now db

def bundleStore : Machine BundleDb BundleCall (Except BundleStoreError BundlePayload) :=
  ⟨fun db call => settle db (insertBundle digest call db)⟩

end Idempotent

def noBundles : BundleDb := ⟨.empty, .empty⟩

end StockContent.Bundle
