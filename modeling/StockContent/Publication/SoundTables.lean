import StockContent.Publication.PublishOutcome

/-! The tables of publications under everything that writes them: a sealed signal belongs
to a stored run and both have the ids they stand for. -/
namespace StockContent.Publication
open Storage Procedure PublicationUnitOfWork

/-- A run has the id of its identity; a sealed signal has the id of its run and signal, and
its run is stored. -/
structure Sound {R : Type} (hashes : PublicationHashes) (db : PublicationDb R) : Prop where
  runNamed : ∀ row ∈ db.runs.rows, row.publicationRunId = row.identity.publicationRunId hashes
  sealNamed : ∀ row ∈ db.sealedSignals.rows, row.sealedSignalId = sealedSignalId hashes row.publicationRunId row.signalId
  runStored : ∀ row ∈ db.sealedSignals.rows, ∃ run, db.runs.get row.publicationRunId = some run

/-- Ids of sealed signals tell runs and signals apart. -/
def SealsApart (hashes : PublicationHashes) : Prop :=
  ∀ (identity other : PublicationIdentity) (signalId otherId : String),
    sealedSignalId hashes (identity.publicationRunId hashes) signalId =
      sealedSignalId hashes (other.publicationRunId hashes) otherId →
      identity.publicationRunId hashes = other.publicationRunId hashes ∧ signalId = otherId

section Sound
variable {R : Type} {hashes : PublicationHashes} {db : PublicationDb R}

/-- Nothing is sealed for a run that is not stored. -/
theorem Sound.unsealed (h : Sound hashes db) {id : String} (hfree : db.runs.get id = none) :
    ∀ row ∈ db.sealedSignals.rows, row.publicationRunId ≠ id := by
  rintro row hrow rfl
  obtain ⟨run, hrun⟩ := h.runStored row hrow
  rw [hfree] at hrun
  cases hrun

theorem Sound.sealFree (h : Sound hashes db) (hapart : SealsApart hashes) {identity : PublicationIdentity}
    (hfree : db.runs.get (identity.publicationRunId hashes) = none) (signalId : String) :
    db.sealedSignals.get (sealedSignalId hashes (identity.publicationRunId hashes) signalId) = none := by
  cases hget : db.sealedSignals.get (sealedSignalId hashes (identity.publicationRunId hashes) signalId) with
  | none => rfl
  | some row =>
    have hrow := Table.mem_of_get hget
    obtain ⟨stored, hstored⟩ := h.runStored row hrow
    have hid : row.publicationRunId = stored.identity.publicationRunId hashes := by
      rw [← Table.get_key hstored]
      exact h.runNamed stored (Table.mem_of_get hstored)
    have hsame := (h.sealNamed row hrow).symm.trans (Table.get_key hget)
    rw [hid] at hsame
    exact absurd (hid.trans (hapart _ _ _ _ hsame).1) (h.unsealed hfree row hrow)

end Sound

/-- What writes the tables of a publication: a run that is saved, or a publication. -/
inductive StoreCall (R : Type) where
  | save (run : ContentPublicationRun)
  | publish (request : PublishRequest) (now : Time) (validate : Payload → Except PublicationError Unit)
      (snapshotWriter : PublishRequest → Procedure R PublicationError Unit)
      (outboxWriter : List Payload → Procedure R PublicationError Unit)

section Store
variable {R : Type} (hashes : PublicationHashes) (texts : Signals.OutboxTexts)

def execStore (db : PublicationDb R) : StoreCall R → PublicationDb R × Except PublicationError ContentPublicationRun
  | .save run => settle db ((saveInSession hashes run db.runs).map fun runs => ({ db with runs }, run))
  | .publish request now validate snapshotWriter outboxWriter =>
    (sqlUnitOfWork hashes texts now validate snapshotWriter outboxWriter).publish hashes request db

def publicationStore : Machine (PublicationDb R) (StoreCall R) (Except PublicationError ContentPublicationRun) :=
  ⟨execStore hashes texts⟩

/-- No publication yet. -/
def unpublished (rest : R) : PublicationDb R := ⟨.empty, .empty, .empty, rest⟩

variable {hashes} {texts} {now : Time} {request : PublishRequest} {db : PublicationDb R}

theorem Sound.save (h : Sound hashes db) {run : ContentPublicationRun} {runs : RunTable}
    (hsave : saveInSession hashes run db.runs = .ok runs) : Sound hashes { db with runs } := by
  refine ⟨fun row hrow => ?_, h.sealNamed, fun row hrow => ?_⟩
  · have hget := Table.get_of_mem hrow
    rw [get_saveInSession hsave] at hget
    split at hget
    · cases hget
      rfl
    · exact h.runNamed row (Table.mem_of_get hget)
  · obtain ⟨stored, hstored⟩ := h.runStored row hrow
    change ∃ stored, runs.get row.publicationRunId = some stored
    rw [get_saveInSession hsave]
    by_cases hid : run.publicationRunId hashes = row.publicationRunId
    · exact ⟨_, if_pos hid⟩
    · exact ⟨stored, (if_neg hid).trans hstored⟩

theorem Sound.seal {id snapshotId : String} {run : ContentPublicationRunRow} (hrun : db.runs.get id = some run)
    {signals : List Payload} {sealedSignals after : SealedTable} (h : Sound hashes { db with sealedSignals })
    (hsealed : signals.foldlM (sealSignal hashes texts id snapshotId now) sealedSignals = .ok after) :
    Sound hashes { db with sealedSignals := after } := by
  induction signals generalizing sealedSignals with
  | nil =>
    cases hsealed
    exact h
  | cons payload signals ih =>
    rw [List.foldlM_cons] at hsealed
    obtain ⟨next, hnext, hsealed⟩ := bind_eq_ok.mp hsealed
    refine ih ?_ hsealed
    rcases (sealSignal_ok hnext).2 with rfl | hinsert
    · exact h
    · have hrows : ∀ row ∈ next.rows, row ∈ sealedSignals.rows ∨
          row = sealedRow hashes texts id snapshotId payload now := by
        intro row hrow
        rw [(Table.insert_eq_some hinsert).2] at hrow
        exact (List.mem_append.mp hrow).imp_right List.mem_singleton.mp
      refine ⟨h.runNamed, fun row hrow => ?_, fun row hrow => ?_⟩
      · exact (hrows row hrow).elim (h.sealNamed row) fun heq => heq ▸ rfl
      · exact (hrows row hrow).elim (h.runStored row) fun heq => ⟨run, heq ▸ hrun⟩

/-- A step of a publication that keeps the tables sound. -/
def KeepsSound {A : Type} (hashes : PublicationHashes) (x : Procedure (PublicationDb R) PublicationError A) : Prop :=
  Triple (Sound hashes) x (fun _ => Sound hashes) (fun _ _ => True)

theorem keepsSound_attempt {A : Type} (x : Except PublicationError A) :
    KeepsSound hashes (attempt x : Procedure (PublicationDb R) PublicationError A) :=
  Triple.attempt (fun _ _ _ h => h) fun _ _ _ _ => trivial

theorem keepsSound_onRest (x : Procedure R PublicationError Unit) : KeepsSound hashes (onRest x) := by
  refine Triple.step fun db h => ?_
  cases (x.exec db.rest).2 with
  | ok _ => exact ⟨h.runNamed, h.sealNamed, h.runStored⟩
  | error _ => trivial

theorem keepsSound_saveState {uow : PublicationUnitOfWork (PublicationDb R)}
    (hsql : uow.repository = sqlRepository hashes texts now)
    (run : ContentPublicationRun) (target : PublicationState) (given : Option String) :
    KeepsSound hashes (uow.saveState request run target given) := by
  refine (saveState_sql hsql (Sound hashes) run target given).post ?_
  rintro run' db ⟨_, old, hold, hsave, _, hsealed⟩
  have hnew := hold.save hsave
  exact ⟨hnew.runNamed, hsealed ▸ hnew.sealNamed, hsealed ▸ hnew.runStored⟩

theorem keepsSound_saveManifest (run : ContentPublicationRun) (manifest : Payload) (hash : String) :
    KeepsSound (R := R) hashes (transact fun db =>
      (saveManifest hashes run manifest hash now db.manifests).map fun manifests => ({ db with manifests }, ())) := by
  refine Triple.transact (fun db h db' _ hsave => ?_) fun _ _ _ _ => trivial
  cases hmanifests : saveManifest hashes run manifest hash now db.manifests with
  | error e =>
    rw [hmanifests] at hsave
    cases hsave
  | ok manifests =>
    rw [hmanifests] at hsave
    cases hsave
    exact ⟨h.runNamed, h.sealNamed, h.runStored⟩

theorem keepsSound_sealSignalRows (validate : Payload → Except PublicationError Unit) (signals : List Payload)
    (id : String) :
    KeepsSound (R := R) hashes (sealSignalRows hashes texts now validate signals id) := by
  refine Triple.bind (keepsSound_attempt _) fun _ => ?_
  refine Triple.transact (fun db h db' _ hsave => ?_) fun _ _ _ _ => trivial
  cases hsealed : saveSealedSignals hashes texts id signals now db.runs db.sealedSignals with
  | error e =>
    rw [hsealed] at hsave
    cases hsave
  | ok sealedSignals =>
    rw [hsealed] at hsave
    cases hsave
    rw [saveSealedSignals] at hsealed
    cases hrun : db.runs.get id with
    | none =>
      rw [hrun] at hsealed
      cases hsealed
    | some run =>
      rw [hrun] at hsealed
      exact Sound.seal hrun h hsealed

theorem keepsSound_createRun (validate : Payload → Except PublicationError Unit)
    (snapshotWriter : PublishRequest → Procedure R PublicationError Unit)
    (outboxWriter : List Payload → Procedure R PublicationError Unit) (run : ContentPublicationRun) :
    KeepsSound hashes ((sqlUnitOfWork hashes texts now validate snapshotWriter outboxWriter).createRun hashes request run) := by
  refine Triple.bind (keepsSound_saveState rfl run .projecting none) fun run' => ?_
  refine Triple.bind (keepsSound_onRest _) fun _ => ?_
  refine Triple.bind (keepsSound_saveManifest run' _ _) fun _ => ?_
  refine Triple.bind (keepsSound_attempt _) fun _ => ?_
  refine Triple.bind (keepsSound_saveState rfl run' .sealing none) fun run'' => ?_
  refine Triple.bind (keepsSound_sealSignalRows validate _ _) fun _ => ?_
  refine Triple.bind (keepsSound_attempt _) fun _ => ?_
  refine Triple.bind (keepsSound_onRest _) fun _ => ?_
  refine Triple.bind (keepsSound_attempt _) fun _ => ?_
  exact keepsSound_saveState rfl run'' .ready _

theorem sound_step (h : Sound hashes db) (call : StoreCall R) :
    Sound hashes ((publicationStore hashes texts).step db call) := by
  cases call with
  | save run =>
    change Sound hashes (settle db ((saveInSession hashes run db.runs).map fun runs => ({ db with runs }, run))).1
    cases hsave : saveInSession hashes run db.runs with
    | error e => exact h
    | ok runs => exact h.save hsave
  | publish request now validate snapshotWriter outboxWriter =>
    have hsql : (sqlUnitOfWork hashes texts now validate snapshotWriter outboxWriter).repository =
      sqlRepository hashes texts now := rfl
    have hatomic : RaisesWith (· = db)
        ((sqlUnitOfWork hashes texts now validate snapshotWriter outboxWriter).publish hashes request db) :=
          sql_publish_atomic hsql db
    change Sound hashes ((sqlUnitOfWork hashes texts now validate snapshotWriter outboxWriter).publish hashes request db).1
    revert hatomic
    cases hpublish : (sqlUnitOfWork hashes texts now validate snapshotWriter outboxWriter).publish hashes request db with
    | mk db' result =>
      cases result with
      | error e => exact fun hkept => by cases hkept; exact h
      | ok run =>
        intro _
        rcases publish_ok hsql hpublish with ⟨rfl, _⟩ | ⟨_, first, _, _, hcreated⟩
        · exact h
        · exact (keepsSound_createRun validate snapshotWriter outboxWriter first).ok h hcreated

/-- Whatever was saved and published before, the tables are sound. -/
theorem sound_run (rest : R) (calls : List (StoreCall R)) :
    Sound hashes ((publicationStore hashes texts).run (unpublished rest) calls) :=
  (publicationStore hashes texts).run_invariant (I := Sound hashes) (fun _ call h => sound_step h call)
    ⟨List.forall_mem_nil _, List.forall_mem_nil _, List.forall_mem_nil _⟩ calls

end Store

end StockContent.Publication
