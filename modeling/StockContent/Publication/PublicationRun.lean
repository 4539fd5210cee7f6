import StockContent.Storage.Json
import StockContent.Storage.Machine

/-! Publication runs: the state machine of one publication and its deterministic identity. -/
namespace StockContent.Publication
open Storage

inductive PublicationState where
  | assembling | projecting | sealing | ready | publishing | published | failedRetryable | failedTerminal
  deriving DecidableEq, Repr

def PublicationState.value : PublicationState → String
  | .assembling => "ASSEMBLING"
  | .projecting => "PROJECTING"
  | .sealing => "SEALING"
  | .ready => "READY"
  | .publishing => "PUBLISHING"
  | .published => "PUBLISHED"
  | .failedRetryable => "FAILED_RETRYABLE"
  | .failedTerminal => "FAILED_TERMINAL"

def transitions : PublicationState → List PublicationState
  | .assembling => [.projecting, .failedRetryable, .failedTerminal]
  | .projecting => [.sealing, .failedRetryable, .failedTerminal]
  | .sealing => [.ready, .failedRetryable, .failedTerminal]
  | .ready => [.publishing, .failedRetryable]
  | .publishing => [.published, .failedRetryable]
  | .failedRetryable => [.assembling, .projecting, .sealing, .publishing, .failedTerminal]
  | .published => []
  | .failedTerminal => []

inductive PublicationError where
  | valueError (message : String)
  | publicationConflict (message : String)
  | integrityError
  | raised (message : String)
  /-- What is no `Exception`: an interrupt or an exit of the process. -/
  | interrupted (message : String)
  deriving DecidableEq

/-- The digests of a publication: the 32 leading digits that name a run and a sealed
signal, and the whole one of a manifest. -/
structure PublicationHashes where
  identity : Json → String
  signal : String → String
  manifest : Json → String

structure PublicationIdentity where
  contentSnapshotId : String
  queryHash : String
  signalPolicyVersion : String
  deriving DecidableEq

namespace PublicationIdentity

def fields (identity : PublicationIdentity) : List (String × String) :=
  [("content_snapshot_id", identity.contentSnapshotId), ("query_hash", identity.queryHash),
    ("signal_policy_version", identity.signalPolicyVersion)]

def publicationRunId (hashes : PublicationHashes) (identity : PublicationIdentity) : String :=
  "pub_" ++ hashes.identity (.obj (identity.fields.map fun field => (field.1, .str field.2)))

/-- Every part of an identity is there. -/
def Named (identity : PublicationIdentity) : Prop := ∀ field ∈ identity.fields, field.2 ≠ ""

instance (identity : PublicationIdentity) : Decidable identity.Named := by
  unfold Named
  infer_instance

end PublicationIdentity

structure ContentPublicationRun where
  identity : PublicationIdentity
  state : PublicationState := .assembling
  manifestHash : Option String := none
  version : Int := 1
  named : identity.Named
  positive : 1 ≤ version
  deriving DecidableEq

namespace ContentPublicationRun

/-- A run is built with no id, or with the one its identity stands for. -/
def create (hashes : PublicationHashes) (identity : PublicationIdentity) (state : PublicationState := .assembling)
    (manifestHash : Option String := none) (version : Int := 1) (publicationRunId : String := "") :
    Except PublicationError ContentPublicationRun :=
  if named : identity.Named then
    if publicationRunId ≠ "" ∧ publicationRunId ≠ identity.publicationRunId hashes then
      .error (.valueError "publication_run_id does not match identity")
    else if positive : 1 ≤ version then .ok { identity, state, manifestHash, version, named, positive }
    else .error (.valueError "version must be positive")
  else .error (.valueError (((identity.fields.find? (·.2 = "")).elim "" (·.1)) ++ " is required"))

def publicationRunId (hashes : PublicationHashes) (run : ContentPublicationRun) : String :=
  run.identity.publicationRunId hashes

theorem create_ok {hashes : PublicationHashes} {identity : PublicationIdentity} {state : PublicationState}
    {manifestHash : Option String} {version : Int} {id : String} {run : ContentPublicationRun}
    (h : create hashes identity state manifestHash version id = .ok run) :
    run.identity = identity ∧ run.state = state ∧ run.manifestHash = manifestHash ∧ run.version = version ∧
      (id = "" ∨ id = run.publicationRunId hashes) := by
  rw [create] at h
  split at h
  · split at h
    · cases h
    · rename_i hid
      split at h
      · cases h
        refine ⟨rfl, rfl, rfl, rfl, ?_⟩
        rw [not_and_or, not_ne_iff, not_ne_iff] at hid
        exact hid
      · cases h
  · cases h

/-- A run of a named identity can be built. -/
theorem create_named (hashes : PublicationHashes) {identity : PublicationIdentity} (hnamed : identity.Named) :
    ∃ run, create hashes identity = .ok run := by
  rw [create, dif_pos hnamed]
  exact ⟨_, rfl⟩

/-- What a run says of itself builds it again. -/
theorem create_self (hashes : PublicationHashes) (run : ContentPublicationRun) :
    create hashes run.identity run.state run.manifestHash run.version (run.publicationRunId hashes) = .ok run := by
  rw [create, dif_pos run.named, if_neg (fun h => h.2 rfl), dif_pos run.positive]

/-- `manifest_hash or self.manifest_hash` -/
def sealedHash (given held : Option String) : Option String := if given.any (· ≠ "") then given else held

/-- A state can be entered again without an edge. -/
def allows (run : ContentPublicationRun) (target : PublicationState) : Bool :=
  target = run.state || (transitions run.state).contains target

def moved (run : ContentPublicationRun) (target : PublicationState) (manifestHash : Option String) :
    ContentPublicationRun where
  identity := run.identity
  state := target
  manifestHash := sealedHash manifestHash run.manifestHash
  version := run.version + if target = run.state then 0 else 1
  named := run.named
  positive := by
    have := run.positive
    split <;> omega

def transition (run : ContentPublicationRun) (target : PublicationState) (manifestHash : Option String) :
    Except PublicationError ContentPublicationRun := do
  require (.valueError ("invalid publication transition " ++ run.state.value ++ "->" ++ target.value)) (run.allows target)
  require (.valueError "READY publication requires manifest_hash")
    (target ≠ .ready || (sealedHash manifestHash run.manifestHash).any (· ≠ ""))
  return run.moved target manifestHash

theorem transition_ok {run run' : ContentPublicationRun} {target : PublicationState} {manifestHash : Option String} :
    run.transition target manifestHash = .ok run' ↔ run.allows target = true ∧
      (target = .ready → (sealedHash manifestHash run.manifestHash).any (· ≠ "") = true) ∧
        run' = run.moved target manifestHash := by
  rw [transition, then_eq_ok, then_eq_ok, require_eq_ok, require_eq_ok]
  refine and_congr_right fun _ => and_congr ?_ ?_
  · rw [Bool.or_eq_true, decide_eq_true_iff, ne_eq, imp_iff_not_or]
  · exact ⟨fun h => (Except.ok.inj h).symm, fun h => h ▸ rfl⟩

end ContentPublicationRun

/-- A call of `transition`. -/
structure TransitionCall where
  target : PublicationState
  manifestHash : Option String := none
  deriving DecidableEq

/-- One run under its transitions; a refused one leaves it as it was. -/
def publicationMachine : Machine ContentPublicationRun TransitionCall (Except PublicationError ContentPublicationRun) :=
  ⟨fun run call => settle run ((run.transition call.target call.manifestHash).map fun run' => (run', run'))⟩

/-- The states that count as ready for readers. -/
def readyStates : List PublicationState := [.ready, .publishing, .published]

def Hashed (run : ContentPublicationRun) : Prop := ∃ hash, run.manifestHash = some hash ∧ hash ≠ ""

/-- Whatever is ready has a manifest hash, and a hash that was set stays the same. -/
structure ManifestSealed (run : ContentPublicationRun) (calls : List TransitionCall) : Prop where
  ready : publicationMachine.Throughout (fun run => run.state ∈ readyStates → Hashed run) run calls
  kept : ∀ done later rest, calls = done ++ (later ++ rest) →
    ∀ hash, (publicationMachine.run run done).manifestHash = some hash →
    (publicationMachine.run run (done ++ later)).manifestHash = some hash

/-- An accepted call enters PUBLISHING from a retryable failure with a manifest hash, its
own or the run's, and gives a run that has a hash no other one. -/
def KeepsSeal (run : ContentPublicationRun) (call : TransitionCall) : Prop :=
  run.allows call.target = true →
    (run.state = .failedRetryable → call.target = .publishing → call.manifestHash.any (· ≠ "") = true ∨ Hashed run) ∧
      ∀ held given, run.manifestHash = some held → call.manifestHash = some given → given ≠ "" → given = held

end StockContent.Publication
