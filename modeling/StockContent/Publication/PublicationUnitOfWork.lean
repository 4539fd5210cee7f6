import StockContent.Publication.PublicationRepository
import StockContent.Storage.Dict
import StockContent.Storage.JsonObject
import StockContent.Storage.Triple

/-! The publication unit of work. It finds its stores through a repository that may run a
transaction of its own, and takes the unfinished run back where there is none. -/
namespace StockContent.Publication
open Storage Procedure

structure PublishRequest where
  identity : PublicationIdentity
  manifest : Payload
  signals : List Payload
  outboxEvents : List Payload := []
  failureHook : String → Except PublicationError Unit := fun _ => .ok ()

def manifestHash (hashes : PublicationHashes) (request : PublishRequest) : String :=
  hashes.manifest (Json.obj [("manifest", .obj request.manifest), ("signals", .arr (request.signals.map .obj)),
    ("outbox", .arr (request.outboxEvents.map .obj))]).canonical

/-- What the unit of work looks for on its repository; the methods of a sealed projection
may be missing, and so may the dictionary of runs that an unfinished one is taken from. -/
structure PublicationStore (S : Type) where
  getByIdentity : PublicationIdentity → Procedure S PublicationError (Option ContentPublicationRun)
  save : ContentPublicationRun → Procedure S PublicationError Unit
  saveManifest : Option (ContentPublicationRun → Payload → String → Procedure S PublicationError Unit)
  verifySealed : Option (ContentPublicationRun → Payload → List Payload → String → Procedure S PublicationError Unit)
  transaction : Bool
  forget : PublicationIdentity → S → S

structure PublicationUnitOfWork (S : Type) where
  repository : PublicationStore S
  snapshotWriter : Option (PublishRequest → Procedure S PublicationError Unit) := none
  signalWriter : Option (List Payload → String → Procedure S PublicationError Unit) := none
  outboxWriter : Option (List Payload → Procedure S PublicationError Unit) := none

/-- What `except Exception` takes after `except IntegrityError` did. -/
def PublicationError.ordinary : PublicationError → Bool
  | .integrityError | .interrupted _ => false
  | _ => true

namespace PublicationUnitOfWork
variable {S : Type} (uow : PublicationUnitOfWork S) (hashes : PublicationHashes) (request : PublishRequest)

/-- A step that is left out where nothing is configured for it. -/
def optional (x : Option (Procedure S PublicationError Unit)) : Procedure S PublicationError Unit := x.getD (pure ())

def saveState (run : ContentPublicationRun) (target : PublicationState) (hash : Option String) :
    Procedure S PublicationError ContentPublicationRun := do
  let updated ← attempt (run.transition target hash)
  attempt (request.failureHook target.value.toLower)
  uow.repository.save updated
  return updated

def createRun (run : ContentPublicationRun) : Procedure S PublicationError ContentPublicationRun := do
  let run ← uow.saveState request run .projecting none
  optional (uow.snapshotWriter.map fun write => write request)
  optional (uow.repository.saveManifest.map fun save => save run request.manifest (manifestHash hashes request))
  attempt (request.failureHook "snapshot")
  let run ← uow.saveState request run .sealing none
  optional (uow.signalWriter.map fun write => write request.signals (run.publicationRunId hashes))
  attempt (request.failureHook "signals")
  optional (uow.outboxWriter.map fun write => write request.outboxEvents)
  attempt (request.failureHook "outbox")
  uow.saveState request run .ready (some (manifestHash hashes request))

/-- A run that is there already has to hold the same payload. -/
def checkExisting : Option ContentPublicationRun → Procedure S PublicationError (Option ContentPublicationRun)
  | none => pure none
  | some run => do
    attempt (require (.publicationConflict
        "publication identity already contains a different sealed snapshot/signals payload")
      (run.manifestHash = some (manifestHash hashes request)))
    optional (uow.repository.verifySealed.map fun verify =>
      verify run request.manifest request.signals (manifestHash hashes request))
    return some run

def existingRun : Procedure S PublicationError (Option ContentPublicationRun) := do
  let existing ← uow.repository.getByIdentity request.identity
  uow.checkExisting hashes request existing

/-- A lost race for the identity is settled by what the other publisher sealed. -/
def settleRace (s : S) : S × Except PublicationError ContentPublicationRun :=
  match (uow.repository.getByIdentity request.identity).exec s with
  | (s, .error e) => (s, .error e)
  | (s, .ok none) => (s, .error .integrityError)
  | (s, .ok (some existing)) =>
    if existing.manifestHash = some (manifestHash hashes request) then (s, .ok existing)
    else (s, .error (.publicationConflict "publication identity was concurrently sealed with different content"))

/-- The handlers: `before` is what a transaction rolls back to, `failed` what the raise left. -/
def recover (createdRun : Bool) (before failed : S) (e : PublicationError) :
    S × Except PublicationError ContentPublicationRun :=
  let s := if uow.repository.transaction then before else failed
  match e with
  | .integrityError => uow.settleRace hashes request s
  | e => (if e.ordinary && createdRun then uow.repository.forget request.identity s else s, .error e)

def publish (s : S) : S × Except PublicationError ContentPublicationRun :=
  match ContentPublicationRun.create hashes request.identity with
  | .error e => (s, .error e)
  | .ok run =>
    match (uow.existingRun hashes request).exec s with
    | (s', .ok (some existing)) => (s', .ok existing)
    | (s', .error e) => uow.recover hashes request false s s' e
    | (s', .ok none) =>
      match (uow.createRun hashes request run).exec s' with
      | (s'', .ok run) => (s'', .ok run)
      | (s'', .error e) => uow.recover hashes request true s s'' e

end PublicationUnitOfWork

section Sql
variable {R : Type} (hashes : PublicationHashes) (texts : Signals.OutboxTexts) (now : Time)

def sqlRepository : PublicationStore (PublicationDb R) where
  getByIdentity identity := step fun db => (db, getByIdentity hashes identity db.runs)
  save run := transact fun db => (saveInSession hashes run db.runs).map fun runs => ({ db with runs }, ())
  saveManifest := some fun run manifest hash => transact fun db =>
    (saveManifest hashes run manifest hash now db.manifests).map fun manifests => ({ db with manifests }, ())
  verifySealed := some fun run manifest signals hash => step fun db =>
    (db, verifySealed hashes texts run manifest signals hash db)
  transaction := true
  forget _ db := db

/-- The signal writer of the service: every signal passes the contract before they are sealed. -/
def sealSignalRows (validate : Payload → Except PublicationError Unit) (rows : List Payload) (publicationRunId : String) :
    Procedure (PublicationDb R) PublicationError Unit := do
  attempt (rows.forM validate)
  transact fun db => (saveSealedSignals hashes texts publicationRunId rows now db.runs db.sealedSignals).map
    fun sealedSignals => ({ db with sealedSignals }, ())

/-- A writer of the other tables of the transaction. -/
def onRest {A : Type} (x : Procedure R PublicationError A) : Procedure (PublicationDb R) PublicationError A :=
  step fun db => ({ db with rest := (x.exec db.rest).1 }, (x.exec db.rest).2)

/-- The unit of work of the service. -/
def sqlUnitOfWork (validate : Payload → Except PublicationError Unit)
    (snapshotWriter : PublishRequest → Procedure R PublicationError Unit)
    (outboxWriter : List Payload → Procedure R PublicationError Unit) : PublicationUnitOfWork (PublicationDb R) where
  repository := sqlRepository hashes texts now
  snapshotWriter := some fun request => onRest (snapshotWriter request)
  signalWriter := some (sealSignalRows hashes texts now validate)
  outboxWriter := some fun rows => onRest (outboxWriter rows)

end Sql

/-- The stores without a database: the runs, what a signal writer fills, and the rest. -/
structure InMemoryDb (G R : Type) where
  runs : Dict PublicationIdentity ContentPublicationRun
  signals : G
  rest : R

section InMemory
variable {G R A : Type}

def inMemoryRepository : PublicationStore (InMemoryDb G R) where
  getByIdentity identity := step fun db => (db, .ok (db.runs.lookup identity))
  save run := step fun db => ({ db with runs := db.runs.set run.identity run }, .ok ())
  saveManifest := none
  verifySealed := none
  transaction := false
  forget identity db := { db with runs := db.runs.keep fun entry => entry.1 ≠ identity }

def onSignals (x : Procedure G PublicationError A) : Procedure (InMemoryDb G R) PublicationError A :=
  step fun db => ({ db with signals := (x.exec db.signals).1 }, (x.exec db.signals).2)

def onOther (x : Procedure R PublicationError A) : Procedure (InMemoryDb G R) PublicationError A :=
  step fun db => ({ db with rest := (x.exec db.rest).1 }, (x.exec db.rest).2)

def inMemoryUnitOfWork (snapshotWriter : Option (PublishRequest → Procedure R PublicationError Unit))
    (signalWriter : Option (List Payload → String → Procedure G PublicationError Unit))
    (outboxWriter : Option (List Payload → Procedure R PublicationError Unit)) :
    PublicationUnitOfWork (InMemoryDb G R) where
  repository := inMemoryRepository
  snapshotWriter := snapshotWriter.map fun write request => onOther (write request)
  signalWriter := signalWriter.map fun write rows id => onSignals (write rows id)
  outboxWriter := outboxWriter.map fun write rows => onOther (write rows)

end InMemory
end StockContent.Publication
