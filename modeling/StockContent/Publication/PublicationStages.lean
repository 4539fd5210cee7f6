import StockContent.Publication.SealedProjection

/-! A publication step by step: what is stored of its run, its manifest and its signals
after each of them. -/
namespace StockContent.Publication
open Storage Procedure PublicationUnitOfWork

section Publishing
variable {R : Type} {hashes : PublicationHashes} {texts : Signals.OutboxTexts} {now : Time} {request : PublishRequest}

/-- The run as it is stored, the only row of its identity. -/
structure Assembled (hashes : PublicationHashes) (identity : PublicationIdentity) (run : ContentPublicationRun)
    (db : PublicationDb R) : Prop where
  named : run.identity = identity
  stored : db.runs.get (identity.publicationRunId hashes) = some (rowOf hashes run)
  only : ∀ row ∈ db.runs.rows, row.identity = identity → row.publicationRunId = identity.publicationRunId hashes

theorem Assembled.of_save {identity : PublicationIdentity} {old db : PublicationDb R} {run : ContentPublicationRun}
    (hidentity : run.identity = identity)
    (honly : ∀ row ∈ old.runs.rows, row.identity = identity → row.publicationRunId = identity.publicationRunId hashes)
    (h : saveInSession hashes run old.runs = .ok db.runs) : Assembled hashes identity run db := by
  subst hidentity
  refine ⟨rfl, ?_, fun row hrow hsame => ?_⟩
  · rw [get_saveInSession h]
    exact if_pos rfl
  · have hget := Table.get_of_mem hrow
    rw [get_saveInSession h] at hget
    split at hget
    · rename_i hid
      exact hid.symm
    · exact honly row (Table.mem_of_get hget) hsame

/-- A stored run is read back as it is. -/
theorem Assembled.read {identity : PublicationIdentity} {db : PublicationDb R} {run : ContentPublicationRun}
    (h : Assembled hashes identity run db) : getByIdentity hashes identity db.runs = .ok (some run) := by
  have hmem := Table.mem_of_get h.stored
  rw [getByIdentity]
  cases hfind : db.runs.rows.find? (·.identity = identity) with
  | none =>
    have hnone := List.find?_eq_none.mp hfind _ hmem
    exact absurd (decide_eq_true h.named) hnone
  | some row =>
    have hidentity : row.identity = identity := by simpa using List.find?_some hfind
    have hrow := Table.get_of_mem (List.mem_of_find?_eq_some hfind)
    rw [h.only row (List.mem_of_find?_eq_some hfind) hidentity, h.stored] at hrow
    cases hrow
    change (toDomain hashes (rowOf hashes run)).map some = .ok (some run)
    have hself : toDomain hashes (rowOf hashes run) = .ok run := ContentPublicationRun.create_self hashes run
    rw [hself]
    rfl

/-- How far a publication has come from `start`: its run with the hash it has, and what
its manifest and the sealed signals meet. -/
structure Stage (hashes : PublicationHashes) (identity : PublicationIdentity) (start : PublicationDb R)
    (manifested : ManifestTable → Prop) (sealedSo : SealedTable → Prop) (hash : Option String)
    (run : ContentPublicationRun) (db : PublicationDb R) : Prop where
  free : start.runs.get (identity.publicationRunId hashes) = none
  assembled : Assembled hashes identity run db
  hashed : run.manifestHash = hash
  manifest : manifested db.manifests
  signals : sealedSo db.sealedSignals

variable {identity : PublicationIdentity} {start : PublicationDb R} {manifested : ManifestTable → Prop}
  {sealedSo : SealedTable → Prop} {hash : Option String}

/-- The step from one state to the next, as far as the tables go. -/
theorem saveState_sql {uow : PublicationUnitOfWork (PublicationDb R)}
    (hsql : uow.repository = sqlRepository hashes texts now)
    (P : PublicationDb R → Prop) (run : ContentPublicationRun) (target : PublicationState) (given : Option String) :
    Triple P (uow.saveState request run target given)
      (fun run' db => run.transition target given = .ok run' ∧ ∃ old, P old ∧
        saveInSession hashes run' old.runs = .ok db.runs ∧
        db.manifests = old.manifests ∧ db.sealedSignals = old.sealedSignals)
      (fun _ _ => True) := by
  refine Triple.bind (Q := fun updated db => run.transition target given = .ok updated ∧ P db) ?_ fun updated => ?_
  · exact Triple.attempt (fun updated hok db h => ⟨hok, h⟩) fun _ _ _ _ => trivial
  · refine Triple.fact fun hupdated => ?_
    refine Triple.bind (Q := fun _ => P) (Triple.attempt (fun _ _ _ h => h) fun _ _ _ _ => trivial) fun _ => ?_
    rw [hsql]
    refine Triple.bind (Q := fun _ db => ∃ old, P old ∧ saveInSession hashes updated old.runs = .ok db.runs ∧
      db.manifests = old.manifests ∧ db.sealedSignals = old.sealedSignals) ?_ fun _ => Triple.pure fun db h => ⟨hupdated, h⟩
    refine Triple.transact (fun old hold db _ hsave => ?_) fun _ _ _ _ => trivial
    cases hruns : saveInSession hashes updated old.runs with
    | error e =>
      rw [hruns] at hsave
      cases hsave
    | ok runs =>
      rw [hruns] at hsave
      cases hsave
      exact ⟨old, hold, hruns, rfl, rfl⟩

/-- A hash that makes a run without one ready is the hash it gets. -/
theorem sealedHash_some {given : String} (h : (ContentPublicationRun.sealedHash (some given) none).any (· ≠ "") = true) :
    ContentPublicationRun.sealedHash (some given) none = some given := by
  rw [ContentPublicationRun.sealedHash] at h ⊢
  split at h
  · rename_i hgiven
    exact if_pos hgiven
  · cases h

/-- A later state keeps the stage and may set the hash. -/
theorem saveState_stage {uow : PublicationUnitOfWork (PublicationDb R)}
    (hsql : uow.repository = sqlRepository hashes texts now)
    (run : ContentPublicationRun) (target : PublicationState) (given : Option String) :
    Triple (Stage hashes identity start manifested sealedSo hash run) (uow.saveState request run target given)
      (fun run' db => (target = .ready → (ContentPublicationRun.sealedHash given hash).any (· ≠ "") = true) ∧
        Stage hashes identity start manifested sealedSo (ContentPublicationRun.sealedHash given hash) run' db)
      (fun _ _ => True) := by
  refine (saveState_sql hsql _ run target given).post ?_
  rintro run' db ⟨htransition, old, hold, hsave, hmanifests, hsealed⟩
  obtain ⟨_, hready, rfl⟩ := ContentPublicationRun.transition_ok.mp htransition
  have hhash : run.manifestHash = hash := hold.hashed
  refine ⟨fun htarget => hhash ▸ hready htarget, hold.free, ?_, ?_, hmanifests ▸ hold.manifest, hsealed ▸ hold.signals⟩
  · exact .of_save hold.assembled.named hold.assembled.only hsave
  · exact congrArg (ContentPublicationRun.sealedHash given) hhash

theorem getByIdentity_none {runs : RunTable} (h : getByIdentity hashes identity runs = .ok none) :
    ∀ row ∈ runs.rows, row.identity ≠ identity := by
  rw [getByIdentity] at h
  cases hfind : runs.rows.find? (·.identity = identity) with
  | none => exact fun row hrow => by simpa using List.find?_eq_none.mp hfind row hrow
  | some row =>
    rw [hfind] at h
    cases hrow : toDomain hashes row <;> simp only [hrow] at h <;> cases h

/-- A new identity is saved under a free id only. -/
theorem saveInSession_free {run : ContentPublicationRun} {runs runs' : RunTable}
    (hnone : ∀ row ∈ runs.rows, row.identity ≠ run.identity) (h : saveInSession hashes run runs = .ok runs') :
    runs.get (run.publicationRunId hashes) = none := by
  cases hget : runs.get (run.publicationRunId hashes) with
  | none => rfl
  | some row =>
    rw [saveInSession, hget] at h
    dsimp only at h
    rw [if_pos (hnone row (Table.mem_of_get hget))] at h
    cases h

/-- The first state is saved under a free id. -/
theorem saveState_first {uow : PublicationUnitOfWork (PublicationDb R)}
    (hsql : uow.repository = sqlRepository hashes texts now)
    {run : ContentPublicationRun} (hrun : run.identity = identity) (hhash : run.manifestHash = none)
    (hnone : getByIdentity hashes identity start.runs = .ok none) :
    Triple (· = start) (uow.saveState request run .projecting none)
      (fun run' => Stage hashes identity start (fun _ => True) (· = start.sealedSignals) none run') (fun _ _ => True) := by
  refine (saveState_sql hsql _ run .projecting none).post ?_
  rintro run' db ⟨htransition, old, hold, hsave, _, hsealed⟩
  subst hold
  obtain ⟨_, _, rfl⟩ := ContentPublicationRun.transition_ok.mp htransition
  subst hrun
  have hfresh : ∀ row ∈ old.runs.rows, row.identity ≠ (run.moved .projecting none).identity := getByIdentity_none hnone
  have hfree : old.runs.get ((run.moved .projecting none).publicationRunId hashes) = none := saveInSession_free hfresh hsave
  exact ⟨hfree, .of_save rfl (fun row hrow hsame => absurd hsame (hfresh row hrow)) hsave, hhash,
    trivial, hsealed⟩

/-- A writer of other tables keeps the stage. -/
theorem onRest_stage (x : Procedure R PublicationError Unit) (run : ContentPublicationRun) :
    Triple (Stage hashes identity start manifested sealedSo hash run) (onRest x)
      (fun _ => Stage hashes identity start manifested sealedSo hash run) (fun _ _ => True) := by
  refine Triple.step fun db h => ?_
  have hrest : Stage hashes identity start manifested sealedSo hash run { db with rest := (x.exec db.rest).1 } :=
    ⟨h.free, ⟨h.assembled.named, h.assembled.stored, h.assembled.only⟩, h.hashed, h.manifest, h.signals⟩
  cases (x.exec db.rest).2 with
  | ok _ => exact hrest
  | error _ => trivial

theorem attempt_stage {A : Type} (x : Except PublicationError A) (run : ContentPublicationRun) :
    Triple (Stage hashes identity start manifested sealedSo hash run) (attempt x)
      (fun _ => Stage hashes identity start manifested sealedSo hash run) (fun _ _ => True) :=
  Triple.attempt (fun _ _ _ h => h) fun _ _ _ _ => trivial

/-- A manifest that compares equal is stored for the run. -/
def Manifested (hashes : PublicationHashes) (identity : PublicationIdentity) (manifest : Payload)
    (manifests : ManifestTable) : Prop :=
  ∃ row, manifests.get (identity.publicationRunId hashes) = some row ∧ (Json.obj row.manifest).same (.obj manifest) = true

theorem saveManifest_manifested {run : ContentPublicationRun} (hrun : run.identity = identity) {manifest : Payload}
    {digest : String}
    {manifests after : ManifestTable} (h : saveManifest hashes run manifest digest now manifests = .ok after) :
    Manifested hashes identity manifest after := by
  subst hrun
  rw [saveManifest] at h
  cases hget : manifests.get (run.publicationRunId hashes) with
  | none =>
    rw [hget] at h
    refine ⟨⟨run.publicationRunId hashes, run.identity, digest, manifest, now⟩, ?_, Json.same_self _⟩
    rw [Table.get_insert (elim_eq_ok.mp h)]
    exact if_pos rfl
  | some row =>
    simp only [hget] at h
    split at h
    · cases h
    · rename_i hsame
      cases h
      exact ⟨row, hget, by simpa using (not_or.mp hsame).2⟩

theorem saveManifest_stage (run : ContentPublicationRun) :
    Triple (Stage hashes identity start (fun _ => True) sealedSo hash run)
      (transact fun db => (saveManifest hashes run request.manifest (manifestHash hashes request) now db.manifests).map
        fun manifests => ({ db with manifests }, ()))
      (fun _ => Stage hashes identity start (Manifested hashes identity request.manifest) sealedSo hash run) (fun _ _ => True) := by
  refine Triple.transact (fun db hdb db' _ hsave => ?_) fun _ _ _ _ => trivial
  cases hmanifests : saveManifest hashes run request.manifest (manifestHash hashes request) now db.manifests with
  | error e =>
    rw [hmanifests] at hsave
    cases hsave
  | ok manifests =>
    rw [hmanifests] at hsave
    cases hsave
    exact ⟨hdb.free, ⟨hdb.assembled.named, hdb.assembled.stored, hdb.assembled.only⟩, hdb.hashed,
      saveManifest_manifested hdb.assembled.named hmanifests, hdb.signals⟩

/-- The signals were sealed one after the other, from the table as it was at the start. -/
def SealedFrom (hashes : PublicationHashes) (texts : Signals.OutboxTexts) (now : Time) (identity : PublicationIdentity)
    (signals : List Payload) (before after : SealedTable) : Prop :=
  ∃ snapshotId, signals.foldlM (sealSignal hashes texts (identity.publicationRunId hashes) snapshotId now) before =
    .ok after

theorem sealSignalRows_stage (validate : Payload → Except PublicationError Unit) {run : ContentPublicationRun}
    (hrun : run.identity = identity) :
    Triple (Stage hashes identity start manifested (· = start.sealedSignals) hash run)
      (sealSignalRows hashes texts now validate request.signals (run.publicationRunId hashes))
      (fun _ => Stage hashes identity start manifested (SealedFrom hashes texts now identity request.signals start.sealedSignals)
        hash run) (fun _ _ => True) := by
  subst hrun
  refine Triple.bind (attempt_stage _ run) fun _ => ?_
  refine Triple.transact (fun db hdb db' _ hsave => ?_) fun _ _ _ _ => trivial
  have hstored : db.runs.get (run.publicationRunId hashes) = some (rowOf hashes run) := hdb.assembled.stored
  rw [saveSealedSignals, hstored, hdb.signals] at hsave
  dsimp only at hsave
  cases hsealed : request.signals.foldlM (sealSignal hashes texts (run.publicationRunId hashes)
      (rowOf hashes run).identity.contentSnapshotId now) start.sealedSignals with
  | error e =>
    rw [hsealed] at hsave
    cases hsave
  | ok sealedSignals =>
    rw [hsealed] at hsave
    cases hsave
    exact ⟨hdb.free, ⟨hdb.assembled.named, hdb.assembled.stored, hdb.assembled.only⟩, hdb.hashed, hdb.manifest,
      (rowOf hashes run).identity.contentSnapshotId, hsealed⟩

/-- What a publication that built its run leaves in the tables. -/
theorem createRun_stage (validate : Payload → Except PublicationError Unit)
    (snapshotWriter : PublishRequest → Procedure R PublicationError Unit)
    (outboxWriter : List Payload → Procedure R PublicationError Unit) {run : ContentPublicationRun}
    (hrun : run.identity = request.identity) (hhash : run.manifestHash = none)
    (hnone : getByIdentity hashes request.identity start.runs = .ok none) :
    Triple (· = start)
      ((sqlUnitOfWork hashes texts now validate snapshotWriter outboxWriter).createRun hashes request run)
      (fun run' => Stage hashes request.identity start (Manifested hashes request.identity request.manifest)
        (SealedFrom hashes texts now request.identity request.signals start.sealedSignals) (some (manifestHash hashes request)) run')
      (fun _ _ => True) := by
  refine Triple.bind (saveState_first rfl hrun hhash hnone) fun run' => ?_
  refine Triple.bind (onRest_stage _ run') fun _ => ?_
  refine Triple.bind (saveManifest_stage run') fun _ => ?_
  refine Triple.bind (attempt_stage _ run') fun _ => ?_
  refine Triple.bind (saveState_stage rfl run' .sealing none) fun run'' => ?_
  refine (Triple.fact (p := run''.identity = request.identity) fun hrun'' => ?_).pre fun db h => ⟨h.2.assembled.named, h.2⟩
  refine Triple.bind (sealSignalRows_stage validate hrun'') fun _ => ?_
  refine Triple.bind (attempt_stage _ run'') fun _ => ?_
  refine Triple.bind (onRest_stage _ run'') fun _ => ?_
  refine Triple.bind (attempt_stage _ run'') fun _ => ?_
  refine (saveState_stage rfl run'' .ready (some (manifestHash hashes request))).post fun run3 db h => ?_
  obtain ⟨hready, hstage⟩ := h
  exact sealedHash_some (hready rfl) ▸ hstage

end Publishing
end StockContent.Publication
